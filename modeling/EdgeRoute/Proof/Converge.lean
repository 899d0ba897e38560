import EdgeRoute.Proof.Operations
import EdgeRoute.Proof.Success

/-!
# Reconcile and the addresses

* `refreshed_of_reconcile`: a reconcile writes nothing but health into the rows.
* `addresses_of_applyReconcile`: a reconcile moves addresses in its address loop only.
* `converges_iff`: **reconcile converges exactly where no enabled nft mapping shares its address with a
  disabled one.**
-/

namespace EdgeRoute

open Effect

variable {C : Codec} {config : EdgeConfig} {options : ReconcileOptions} {w w' w₁ : World} {wan path text : String}
  {a : Ipv4Addr} {t : AddrTable} {m : Mapping} {ms ms' : List Mapping} {tr : List (Event HostSig)} {q : Progress}
  {α β : Type}

/-! ## Rows -/

/-- The event changed the mappings. -/
def Edits : Event HostSig → Prop
  | ⟨.store (.sql (.insertMapping _)), .ok _⟩ => True
  | ⟨.store (.sql (.updateMapping _)), .ok n⟩ => n ≠ (0 : ℕ)
  | ⟨.store (.sql (.updateEnabled _ _ _ _)), .ok n⟩ => n ≠ (0 : ℕ)
  | ⟨.store (.sql (.deleteMapping _)), .ok _⟩ => True
  | _ => False

theorem not_edits_of_allow {e : Event HostSig} (hedits : q.edits = false) (hallow : (protocol C).allow q e.op) :
    ¬ Edits e := by
  obtain ⟨o, r⟩ := e
  intro h
  cases o with
  | store o =>
    cases o with
    | now => exact h
    | sql s => cases s <;> first | exact h | exact absurd (hedits.symm.trans hallow) (by decide)
  | _ => exact h

theorem not_edits_of_accepts (hedits : q.edits = false) (h : (protocol C).Accepts q tr) : ∀ e ∈ tr, ¬ Edits e := by
  have hinv := h.inv (I := fun tr q' => q.SameCall q' ∧ ∀ e ∈ tr, ¬ Edits e)
    ⟨⟨rfl, rfl, rfl, rfl, rfl⟩, by simp⟩ fun tr q' e ⟨hsame, ih⟩ hallow => ⟨hsame.trans (next_sameCall e),
      List.forall_mem_append.2 ⟨ih, by simpa using not_edits_of_allow (hsame.edits.trans hedits) hallow⟩⟩
  exact hinv.2

/-- An operation of a call that is no edit writes nothing but health into the rows. -/
theorem refreshed_step {o : HostOp} {r : o.Reply} (hno : ¬ Edits ⟨o, r⟩) (hallow : (protocol C).allow q o)
    (hE : hostEnv w o r w') : Refreshed C w.db.mappings w'.db.mappings := by
  cases o with
  | store o =>
    obtain ⟨db', hdb, rfl⟩ := hE
    cases storeEnv_step hdb with
    | same _ ht => exact ht ▸ .refl _
    | insert => exact absurd trivial hno
    | update => exact absurd Nat.one_ne_zero hno
    | enable => exact absurd Nat.one_ne_zero hno
    | delete => exact absurd trivial hno
    | health id old status health error checked updated ho hid ht =>
      rw [show ({ w with db := db' } : World).db.mappings = _ from ht]
      exact refreshed_health _ _ _ _ hallow.2
  | atomicWrite path text =>
    rcases hE with ⟨-, rfl⟩ | ⟨e, -, rfl⟩ <;> exact .refl _
  | nft mode path =>
    cases mode with
    | check => rw [hE.1]; exact .refl _
    | apply => rcases hE.either with rfl | ⟨-, rfl⟩ <;> exact .refl _
  | ip command =>
    cases command with
    | «show» interface => rw [hE.1]; exact .refl _
    | add interface a => rcases hE.either with rfl | ⟨-, rfl⟩ <;> exact .refl _
    | del interface a => rcases hE.either with rfl | ⟨-, rfl⟩ <;> exact .refl _
  | connect ip port => rw [show w' = w from hE]; exact .refl _

/-- **A reconcile writes nothing but health into the rows**, whether it returns or not. -/
theorem refreshed_of_reconcile {x : Except ReconcileError ReconcileReport}
    (h : (reconcile C config options).Run hostEnv w tr w' x) : Refreshed C w.db.mappings w'.db.mappings := by
  have hfor : (HostCall.reconcile config options).start.For config options := ⟨rfl, rfl, rfl, rfl⟩
  have hwp := Prog.wpOk_iff.1 (reconcile_follows (C := C) hfor rfl)
  have hinv := Prog.wp_run_inv (I := fun q v => q.edits = false ∧ Refreshed C w.db.mappings v.db.mappings) hwp
    ⟨rfl, .refl _⟩ (fun q v o r v' hI hallow hE =>
      ⟨(next_sameCall _).edits.trans hI.1, hI.2.trans (refreshed_step (not_edits_of_allow hI.1 hallow) hallow hE)⟩) h
  exact hinv.2

/-- The listing after a refresh has the same mappings but for their health. -/
theorem listed_refreshed {db db' : Db} (h : Refreshed C db.mappings db'.mappings)
    (hd : decodeRows C db.listed = .ok ms) :
    ∃ ms', decodeRows C db'.listed = .ok ms' ∧ ms'.map Mapping.core = ms.map Mapping.core := by
  have hall := healthDecodes_of_decodeRows hd
  have hhealth : ∀ row ∈ db'.listed, row.HealthDecodes C := fun row hrow =>
    h.health (fun row hrow => hall row ((List.mem_insertionSort _).2 hrow)) row ((List.mem_insertionSort _).1 hrow)
  obtain ⟨ms', hd', hcores⟩ := decodeRows_of_core (h.listed ▸ decodeRows_core hd) hhealth
  refine ⟨ms', hd', hcores.trans ?_⟩
  rw [List.map_map]
  rfl

/-! ## The address loop in `reconcile` -/

def IsIp : HostOp → Prop
  | .ip _ => True
  | _ => False

theorem isIp_of_changesAddr {e : Event HostSig} (h : ChangesAddr e) : IsIp e.op := by
  obtain ⟨o, r⟩ := e
  cases o with
  | ip command => trivial
  | nft mode path => exact absurd h id
  | store o => exact absurd h id
  | atomicWrite path text => exact absurd h id
  | connect ip port => exact absurd h id

theorem addrs_of_not_isIp {o : HostOp} {r : o.Reply} (ho : ¬ IsIp o) (hE : hostEnv w o r w') :
    w'.addrs = w.addrs := by
  cases o with
  | store o => obtain ⟨db', -, rfl⟩ := hE; rfl
  | atomicWrite path text => rcases hE with ⟨-, rfl⟩ | ⟨e, -, rfl⟩ <;> rfl
  | nft mode path =>
    cases mode with
    | check => rw [hE.1]
    | apply => rcases hE.either with rfl | ⟨-, rfl⟩ <;> rfl
  | ip command => exact absurd trivial ho
  | connect ip port => rw [show w' = w from hE]

/-- The program does not run the `ip` tool. -/
abbrev NoIp (p : HostProg α) : Prop := p.Uses fun o => ¬ IsIp o

theorem NoIp.run {p : HostProg α} {x : Except ReconcileError α} (h : NoIp p) (hr : p.Run hostEnv w tr w' x) :
    w'.addrs = w.addrs ∧ ∀ e ∈ tr, ¬ IsIp e.op :=
  ⟨h.frame (fun _ _ _ _ => addrs_of_not_isIp) hr, h.mem hr⟩

theorem noIp_liftStore {p : StoreProg α} : NoIp (liftStore p) :=
  liftStore_uses (Prog.uses_of_forall fun _ h => h)

theorem noIp_load : AdmitsLoad fun o => ¬ IsIp o where
  now h := h
  event _ _ _ _ h := h
  generation _ _ _ _ _ _ h := h
  write _ _ h := h
  nft _ _ h := h

theorem noIp_record : AdmitsRecord C fun o => ¬ IsIp o where
  toAdmitsEvents := noIp_load.toAdmitsEvents
  active _ _ _ _ h := h
  connect _ _ h := h
  row _ h := h
  health _ _ _ _ _ _ _ _ h := h

/-- A run that comes to `p` once, or fails before, and does not run the `ip` tool around it. -/
def Around (p : HostProg β) (w : World) (tr : List (Event HostSig)) (w' : World) (x : Except ReconcileError α) : Prop :=
  ((∃ e, x = .error e) ∧ w'.addrs = w.addrs ∧ ∀ e ∈ tr, ¬ IsIp e.op) ∨
  ∃ w₁ tr₁ tr₂ tr₃ w₂ y, tr = tr₁ ++ (tr₂ ++ tr₃) ∧ w₁.addrs = w.addrs ∧ p.Run hostEnv w₁ tr₂ w₂ y ∧
    w'.addrs = w₂.addrs ∧ (∀ e ∈ tr₁ ++ tr₃, ¬ IsIp e.op) ∧ ((∃ a, x = .ok a) → ∃ b, y = .ok b)

theorem around_bind {p : HostProg β} {q : HostProg α} {γ : Type} {f : α → HostProg γ}
    {x : Except ReconcileError γ} (hq : NoIp q)
    (hf : ∀ a w tr w' x, (f a).Run hostEnv w tr w' x → Around p w tr w' x)
    (h : (q.bind f).Run hostEnv w tr w' x) : Around p w tr w' x := by
  rcases Prog.run_bind.1 h with ⟨a, w₁, tr₁, tr₂, rfl, hrun, hrest⟩ | ⟨e, rfl, hrun⟩
  · obtain ⟨haddrs, hno⟩ := hq.run hrun
    rcases hf a _ _ _ _ hrest with ⟨he, haddrs', hno'⟩ | ⟨w₂, t₁, t₂, t₃, w₃, y, rfl, haddrs', hp, hend, hno', hok⟩
    · exact .inl ⟨he, haddrs'.trans haddrs, List.forall_mem_append.2 ⟨hno, hno'⟩⟩
    · refine .inr ⟨w₂, tr₁ ++ t₁, t₂, t₃, w₃, y, by simp, haddrs'.trans haddrs, hp, hend, ?_, hok⟩
      rw [List.append_assoc]
      exact List.forall_mem_append.2 ⟨hno, hno'⟩
  · obtain ⟨haddrs, hno⟩ := hq.run hrun
    exact .inl ⟨⟨e, rfl⟩, haddrs, hno⟩

theorem around_here {p : HostProg β} {f : β → HostProg α} {x : Except ReconcileError α} (hf : ∀ b, NoIp (f b))
    (h : (p.bind f).Run hostEnv w tr w' x) : Around p w tr w' x := by
  rcases Prog.run_bind.1 h with ⟨b, w₁, tr₁, tr₂, rfl, hrun, hrest⟩ | ⟨e, rfl, hrun⟩
  · obtain ⟨haddrs, hno⟩ := (hf b).run hrest
    exact .inr ⟨w, [], tr₁, tr₂, w₁, .ok b, rfl, rfl, hrun, haddrs, hno, fun _ => ⟨b, rfl⟩⟩
  · exact .inr ⟨w, [], tr, [], w', .error e, by simp, rfl, hrun, rfl, by simp, fun ⟨a, ha⟩ => nomatch ha⟩

/-- **A reconcile moves addresses in its address loop only.** -/
theorem addresses_of_applyReconcile {plan : XdpPlan} {x : Except ReconcileError ReconcileReport}
    (h : (applyReconcile C config options ms text plan).Run hostEnv w tr w' x) :
    Around (addressStep config options ms) w tr w' x := by
  refine around_bind noIp_liftStore (fun _ _ _ _ _ h => ?_) h
  refine around_bind (writeRuleset_uses noIp_load) (fun _ _ _ _ _ h => ?_) h
  refine around_bind (checkRuleset_uses noIp_load) (fun _ _ _ _ _ h => ?_) h
  refine around_bind (applyStep_uses noIp_load) (fun _ _ _ _ _ h => ?_) h
  exact around_here (fun _ => Prog.uses_bind (recordStep_uses noIp_record.toAdmitsHealth fun _ _ _ h => h)
    fun _ => Prog.uses_ret) h

/-! ## Convergence -/

/-- The flags of a reconcile that applies everything. -/
structure ReconcileOptions.Full (options : ReconcileOptions) : Prop where
  dryRun : options.dryRun = false
  applyNft : options.applyNft = true
  applyLinux : options.applyLinux = true

/-- **Reconcile has converged**: the address of every enabled nft mapping is on the interface, and no
following reconcile adds or removes one. -/
structure Converges (C : Codec) (config : EdgeConfig) (options : ReconcileOptions) (w : World) : Prop where
  present : ∀ ms, decodeRows C w.db.listed = .ok ms → ∀ m ∈ ms, Wants m →
    (w.addrs config.wanInterface).Has m.edgePrivateIp
  settled : ∀ tr w' x, (reconcile C config options).Run hostEnv w tr w' x →
    w'.addrs = w.addrs ∧ ∀ e ∈ tr, ¬ ChangesAddr e

/-- An enabled nft mapping of the store shares its address with a disabled one. -/
def MixedStore (C : Codec) (w : World) : Prop := ∃ ms, decodeRows C w.db.listed = .ok ms ∧ Mixed ms

/-- No address of a stored mapping is on the interface in another form than the one the controller adds. -/
def PlainStore (C : Codec) (config : EdgeConfig) (w : World) : Prop :=
  ∀ ms, decodeRows C w.db.listed = .ok ms → Plain (w.addrs config.wanInterface) ms

/-- What the addresses depend on of a mapping is not its health. -/
theorem exists_of_cores (h : ms'.map Mapping.core = ms.map Mapping.core) (hm : m ∈ ms) :
    ∃ m' ∈ ms', m'.core = m.core := by
  have hmem : m.core ∈ ms'.map Mapping.core := h ▸ List.mem_map_of_mem hm
  exact List.mem_map.1 hmem

theorem wants_core {m' : Mapping} (h : m'.core = m.core) : (Wants m' ↔ Wants m) ∧ (Unwants m' ↔ Unwants m) ∧
    m'.edgePrivateIp = m.edgePrivateIp := by
  have he : m'.enabled = m.enabled := congrArg (·.enabled) h
  have hb : m'.backend = m.backend := congrArg (·.backend) h
  refine ⟨?_, ?_, congrArg (·.edgePrivateIp) h⟩
  · rw [Wants, Wants, he, hb]
  · rw [Unwants, Unwants, he, hb]

theorem Stable.of_cores (h : Stable t ms) (hcores : ms'.map Mapping.core = ms.map Mapping.core) : Stable t ms' := by
  constructor
  · intro m' hm' hw
    obtain ⟨m, hm, hcore⟩ := exists_of_cores hcores.symm hm'
    obtain ⟨hw', -, ha⟩ := wants_core hcore
    exact ha ▸ h.wanted m hm (hw'.2 hw)
  · intro m' hm' hu
    obtain ⟨m, hm, hcore⟩ := exists_of_cores hcores.symm hm'
    obtain ⟨-, hu', ha⟩ := wants_core hcore
    exact ha ▸ h.unwanted m hm (hu'.2 hu)

theorem Mixed.of_cores (h : Mixed ms) (hcores : ms'.map Mapping.core = ms.map Mapping.core) : Mixed ms' := by
  obtain ⟨m₁, hm₁, m₂, hm₂, hw, hu, ha⟩ := h
  obtain ⟨m₁', hm₁', hcore₁⟩ := exists_of_cores hcores hm₁
  obtain ⟨m₂', hm₂', hcore₂⟩ := exists_of_cores hcores hm₂
  obtain ⟨hw', -, ha₁⟩ := wants_core hcore₁
  obtain ⟨-, hu', ha₂⟩ := wants_core hcore₂
  exact ⟨m₁', hm₁', m₂', hm₂', hw'.2 hw, hu'.2 hu, ha₁.trans (ha.trans ha₂.symm)⟩

theorem Plain.of_cores (h : Plain t ms) (hcores : ms'.map Mapping.core = ms.map Mapping.core) : Plain t ms' := by
  intro m' hm' entry hentry haddr
  obtain ⟨m, hm, hcore⟩ := exists_of_cores hcores.symm hm'
  rw [← (wants_core hcore).2.2] at haddr ⊢
  exact h m hm entry hentry haddr

/-- A reconcile that returned, with everything applied: what it listed and what it made of the addresses. -/
theorem reconcile_ok {report : ReconcileReport} (hfull : options.Full)
    (h : (reconcile C config options).Run hostEnv w tr w' (.ok report)) :
    ∃ ms plan, decodeRows C w.db.listed = .ok ms ∧ planReconcile config options ms = .ok plan ∧
      plan.2.entries = [] ∧ w'.addrs config.wanInterface = syncTable ms (w.addrs config.wanInterface) := by
  rcases reconcile_cases h with ⟨-, e, he⟩ | ⟨ms, plan, hd, hp, ⟨hdry, -⟩ | ⟨-, hempty, r, tr', rfl, hrun⟩⟩
  · cases he
  · exact absurd (hfull.dryRun.symm.trans hdry) (by decide)
  · refine ⟨ms, plan, hd, hp, hempty, ?_⟩
    rcases addresses_of_applyReconcile hrun with ⟨⟨e, he⟩, -⟩ | ⟨w₁, t₁, t₂, t₃, w₂, y, -, haddrs, hloop, hend, -, hok⟩
    · cases he
    · obtain ⟨changes, rfl⟩ := hok ⟨report, rfl⟩
      rw [addressStep, if_pos hfull.applyLinux] at hloop
      rw [hend, syncAddresses_ok hloop, setAddrs_addrs, haddrs]

/-- **Addresses that are what the mappings want stay**, whatever becomes of the reconcile. -/
theorem settled_of_stable {x : Except ReconcileError ReconcileReport} (hd : decodeRows C w.db.listed = .ok ms)
    (hs : Stable (w.addrs config.wanInterface) ms) (h : (reconcile C config options).Run hostEnv w tr w' x) :
    w'.addrs = w.addrs ∧ ∀ e ∈ tr, ¬ ChangesAddr e := by
  have hquiet : Unstarted w tr w' → w'.addrs = w.addrs ∧ ∀ e ∈ tr, ¬ ChangesAddr e := by
    rintro ⟨rfl, r, rfl⟩
    exact ⟨rfl, by simp [ChangesAddr]⟩
  rcases reconcile_cases h with ⟨hu, -⟩ | ⟨ms₁, plan, hd₁, -, ⟨-, hu⟩ | ⟨-, -, r, tr', rfl, hrun⟩⟩
  · exact hquiet hu
  · exact hquiet hu
  · cases hd.symm.trans hd₁
    rcases addresses_of_applyReconcile hrun with
      ⟨-, haddrs, hno⟩ | ⟨w₁, t₁, t₂, t₃, w₂, y, rfl, haddrs, hloop, hend, hno, -⟩
    · refine ⟨haddrs, List.forall_mem_cons.2 ⟨id, fun e he hc => hno e he (isIp_of_changesAddr hc)⟩⟩
    · have hstep : w₂ = w₁ ∧ ∀ e ∈ t₂, ¬ ChangesAddr e := by
        unfold addressStep at hloop
        split at hloop
        · exact syncAddresses_stable (haddrs ▸ hs) hloop
        · obtain ⟨rfl, rfl, -⟩ := Prog.run_ret.1 hloop
          exact ⟨rfl, by simp⟩
      obtain ⟨rfl, hnone⟩ := hstep
      refine ⟨hend.trans haddrs, List.forall_mem_cons.2 ⟨id, fun e he hc => ?_⟩⟩
      rcases List.mem_append.1 he with he | he
      · exact hno e (List.mem_append_left _ he) (isIp_of_changesAddr hc)
      rcases List.mem_append.1 he with he | he
      · exact hnone e he hc
      · exact hno e (List.mem_append_right _ he) (isIp_of_changesAddr hc)

/-! ## Divergence -/

theorem planEntries_core : planEntries config (ms.map Mapping.core) = planEntries config ms := by
  induction ms with
  | nil => rfl
  | cons m ms ih =>
    simp only [List.map_cons, planEntries, ih]
    rfl

/-- The plan does not look at the health. -/
theorem planReconcile_core :
    planReconcile config options (ms.map Mapping.core) = planReconcile config options ms := by
  have hx : (isXdp ∘ Mapping.core) = isXdp := rfl
  have hname : ((fun m : Mapping => m.name) ∘ Mapping.core) = fun m => m.name := rfl
  simp only [planReconcile, render_core, XdpConfig.plan, List.filter_map, hx, planEntries_core, List.isEmpty_map,
    List.map_map, hname]

/-- A generation that was recorded has a time. -/
theorem clock_of_recordGeneration {status : GenerationStatus} {appliedAt : Option OffsetDateTime}
    {error : Option String} {generation : Generation}
    (h : (liftStore (recordGeneration C status text appliedAt error)).Run hostEnv w tr w' (.ok generation)) :
    Clock C := by
  obtain ⟨tr', db', y, hrun, -, hy⟩ := liftStore_run h
  cases y with
  | error e => cases hy
  | ok g =>
    unfold recordGeneration at hrun
    split at hrun
    · cases (Prog.run_fail.1 hrun).2.2
    · obtain ⟨now, db₁, tr₁, tr₂, -, -, hrest⟩ := Prog.run_bind_ok.1 hrun
      obtain ⟨s, db₂, tr₃, tr₄, -, -, hrest⟩ := Prog.run_bind_ok.1 hrest
      obtain ⟨created, db₃, tr₅, tr₆, -, hcreated, -⟩ := Prog.run_bind_ok.1 hrest
      exact ⟨now, created, (Prog.run_ofExcept.1 hcreated).2.2.symm⟩

theorem hostEnv_total (w : World) (o : HostOp) : ∃ r w', hostEnv w o r w' :=
  ⟨_, _, answer_env (fun _ => true) w o⟩

/-- Where an address is wanted and unwanted at once, the loop can move addresses. -/
theorem syncAddresses_may (hplain : Plain (w.addrs wan) ms) (hmixed : Mixed ms) :
    (syncAddresses wan ms).May hostEnv w ChangesAddr := by
  obtain ⟨tr, w', changes, hr, -⟩ := syncAddresses_can hplain
  refine ⟨tr, w', .ok changes, hr, ?_⟩
  by_contra hnone
  have hquiet := syncAddresses_quiet hr fun e he hc => hnone ⟨e, he, hc⟩
  obtain ⟨m, hm, m', hm', hw, hu, ha⟩ := hmixed
  exact (hquiet m' hm').2 hu (ha ▸ (hquiet m hm).1 hw)

theorem reconcile_may {plan : String × XdpPlan} (hfull : options.Full) (hclock : Clock C)
    (hd : decodeRows C w.db.listed = .ok ms) (hp : planReconcile config options ms = .ok plan)
    (hempty : plan.2.entries = []) (hplain : Plain (w.addrs config.wanInterface) ms) (hmixed : Mixed ms) :
    (reconcile C config options).May hostEnv w ChangesAddr := by
  have htext := trim_rendered (rendering_of_plan hd hp).1
  refine Prog.may_bind_right (listMappings_can hd) ?_
  rintro w₁ ms₁ ⟨rfl, rfl⟩
  have hcan : (Prog.ofExcept (planReconcile config options ms₁)).Can hostEnv w₁ fun w' p => w' = w₁ ∧ p = plan :=
    Prog.can_ofExcept hp ⟨rfl, rfl⟩
  refine Prog.may_bind_right hcan ?_
  rintro w₂ p ⟨rfl, rfl⟩
  rw [if_neg (by simp [hfull.dryRun]), if_neg (by simp [hempty])]
  refine Prog.may_bind_right (liftStore_can (recordGeneration_can hclock htext ⟨none, rfl⟩)) ?_
  rintro w₃ generation ⟨db₃, rfl, -, -⟩
  refine Prog.may_bind_right writeRuleset_can ?_
  rintro w₄ - rfl
  refine Prog.may_bind_right (checkRuleset_can hclock htext (by simp [World.write])) ?_
  rintro w₅ - ⟨db₅, rfl, -⟩
  have hfile : (((w₂.write options.nftOutput p.1)).files options.nftOutput) = some p.1 := by simp [World.write]
  refine Prog.may_bind_right (applyStep_can hfile) ?_
  rintro w₆ - rfl
  refine Prog.may_bind_left hostEnv_total ?_
  rw [addressStep, if_pos hfull.applyLinux]
  exact syncAddresses_may hplain hmixed

/-- **A shared address keeps reconcile from converging.** -/
theorem not_converges_of_mixed {report : ReconcileReport} (hfull : options.Full)
    (h : (reconcile C config options).Run hostEnv w tr w' (.ok report)) (hplain : PlainStore C config w)
    (hmixed : MixedStore C w) : ¬ Converges C config options w' := by
  intro hconv
  obtain ⟨ms, plan, hd, hp, hempty, haddrs⟩ := reconcile_ok hfull h
  obtain ⟨ms₀, hd₀, hmixed⟩ := hmixed
  cases hd.symm.trans hd₀
  obtain ⟨ms', hd', hcores⟩ := listed_refreshed (refreshed_of_reconcile h) hd
  have hclock : Clock C := by
    rcases reconcile_cases h with ⟨-, e, he⟩ | ⟨ms₁, plan₁, -, -, ⟨hdry, -⟩ | ⟨-, -, r, tr', rfl, hrun⟩⟩
    · cases he
    · exact absurd (hfull.dryRun.symm.trans hdry) (by decide)
    · obtain ⟨generation, w₁, t₁, t₂, -, hgen, -⟩ := Prog.run_bind_ok.1 hrun
      exact clock_of_recordGeneration hgen
  have hp' : planReconcile config options ms' = .ok plan := by
    rw [← planReconcile_core, hcores, planReconcile_core, hp]
  have hplain' : Plain (w'.addrs config.wanInterface) ms' := by
    rw [haddrs]
    exact (hplain ms hd).syncTable.of_cores hcores
  obtain ⟨tr₂, w₂, x, hr, e, he, hc⟩ := reconcile_may hfull hclock hd' hp' hempty hplain' (hmixed.of_cores hcores)
  exact (hconv.settled tr₂ w₂ x hr).2 e he hc

/-- **Reconcile converges exactly where no enabled nft mapping shares its address with a disabled one.**
The condition is enough whatever is on the interface; it is needed where the interface has the addresses of
the mappings in the form the controller adds them. -/
theorem converges_iff {report : ReconcileReport} (hfull : options.Full)
    (h : (reconcile C config options).Run hostEnv w tr w' (.ok report)) :
    (¬ MixedStore C w → Converges C config options w') ∧
      (PlainStore C config w → (Converges C config options w' ↔ ¬ MixedStore C w)) := by
  have hconv : ¬ MixedStore C w → Converges C config options w' := by
    intro hmixed
    obtain ⟨ms, plan, hd, -, -, haddrs⟩ := reconcile_ok hfull h
    obtain ⟨ms', hd', hcores⟩ := listed_refreshed (refreshed_of_reconcile h) hd
    have hstable : Stable (w'.addrs config.wanInterface) ms' := by
      rw [haddrs]
      exact (syncTable_stable fun hm => hmixed ⟨ms, hd, hm⟩).of_cores hcores
    constructor
    · intro ms₁ hd₁
      cases hd'.symm.trans hd₁
      exact hstable.wanted
    · exact fun tr₂ w₂ x hr => settled_of_stable hd' hstable hr
  refine ⟨hconv, fun hplain => ⟨fun hc hmixed => ?_, hconv⟩⟩
  exact not_converges_of_mixed hfull h hplain hmixed hc

/-- A host with the calls of a sample run made on its database, and no addresses. -/
def sampleHost (calls : List StoreCall) (schedule : List ℕ) : World :=
  { sampleWorld with db := (sampleRun calls schedule).2.2 }

theorem plain_sampleHost {calls : List StoreCall} {schedule : List ℕ} {wan : String} :
    Plain ((sampleHost calls schedule).addrs wan) ms := fun _ _ _ h => nomatch h

/-- **An enabled service on the address of a disabled one**: the reconcile returns, and has not converged. -/
theorem shared_address_diverges : ∃ (w w' : World) (tr : List (Event HostSig)) (report : ReconcileReport),
    (reconcile sampleCodec sampleConfig {}).Run hostEnv w tr w' (.ok report) ∧
      ¬ Converges sampleCodec sampleConfig {} w' := by
  have hany : (sampleListing (sampleHost [.insert samplePortForward, .insert sampleDns,
      .setEnabled sampleDns.id false] [0, 0, 0, 1, 1, 1, 2, 2, 2]).db).any (fun ms => decide (Mixed ms)) = true := by
    decide +kernel
  obtain ⟨ms, hms, hmixed⟩ := (Option.any_eq_true _ _).1 hany
  obtain ⟨text, -, tr, w', report, hr, -⟩ := sample_can {} hms rfl rfl fun _ => plain_sampleHost
  refine ⟨_, w', tr, report, hr, not_converges_of_mixed ⟨rfl, rfl, rfl⟩ hr (fun _ _ => plain_sampleHost) ?_⟩
  exact ⟨ms, (sampleListing_some hms).1, of_decide_eq_true hmixed⟩

/-- Two enabled services of one address: the reconcile returns, and has converged. -/
theorem converges_iff_two_services : ∃ (w w' : World) (tr : List (Event HostSig)) (report : ReconcileReport),
    (reconcile sampleCodec sampleConfig {}).Run hostEnv w tr w' (.ok report) ∧
      Converges sampleCodec sampleConfig {} w' := by
  have hany : (sampleListing sampleWorld.db).any (fun ms => decide (¬ Mixed ms)) = true := by decide +kernel
  obtain ⟨ms, hms, hmixed⟩ := (Option.any_eq_true _ _).1 hany
  obtain ⟨text, -, tr, w', report, hr, -⟩ := sample_can {} hms rfl rfl fun _ _ _ _ h => nomatch h
  refine ⟨_, w', tr, report, hr, (converges_iff ⟨rfl, rfl, rfl⟩ hr).1 ?_⟩
  rintro ⟨ms', hd', hmixed'⟩
  cases (sampleListing_some hms).1.symm.trans hd'
  exact of_decide_eq_true hmixed hmixed'

end EdgeRoute
