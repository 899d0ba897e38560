import EdgeRoute.Proof.Host
import EdgeRoute.Proof.Planes
import EdgeRoute.Proof.Protocol

/-!
# Reconcile fails closed

* `reconcile_cases`: a run of `reconcile` ends before it changed anything, or goes on with a plan.
* `untouched_of_early`: until the file is checked, and the ruleset loaded if it is to be, the kernel,
  the addresses and the mapping rows stay as they were.
* `fails_closed`: **every exit of `reconcile` leaves the host as it was or has passed the check.**
-/

namespace EdgeRoute

open Effect

variable {C : Codec} {config : EdgeConfig} {options : ReconcileOptions} {w w' w₀ : World} {q : Progress}
  {tr : List (Event HostSig)} {x : Except ReconcileError ReconcileReport}

/-! ## Before the first change -/

theorem listMappings_run {x : Except ReconcileError (List Mapping)}
    (h : (liftStore (listMappings C)).Run hostEnv w tr w' x) :
    w' = w ∧ (∃ r, tr = [⟨.store (.sql .selectMappings), r⟩]) ∧
      ∀ ms, x = .ok ms → decodeRows C w.db.listed = .ok ms := by
  obtain ⟨r, w₁, tr₁, rfl, ⟨db', hstep, rfl⟩, h⟩ := Prog.run_call.1 h
  rcases hstep with hexec | ⟨message, rfl, rfl⟩
  · cases hexec
    change (liftStore (.ofExcept (decodeRows C w.db.listed))).Run _ _ _ _ _ at h
    cases hd : decodeRows C w.db.listed with
    | error e =>
      rw [hd] at h
      obtain ⟨rfl, rfl, rfl⟩ := Prog.run_fail.1 h
      exact ⟨rfl, ⟨_, rfl⟩, fun ms hms => nomatch hms⟩
    | ok ms =>
      rw [hd] at h
      obtain ⟨rfl, rfl, rfl⟩ := Prog.run_ret.1 h
      exact ⟨rfl, ⟨_, rfl⟩, fun ms hms => congrArg _ (Except.ok.inj hms)⟩
  · obtain ⟨rfl, rfl, rfl⟩ := Prog.run_fail.1 h
    exact ⟨rfl, ⟨_, rfl⟩, fun ms hms => nomatch hms⟩

/-- A run of `reconcile` that has not gone on to record, write or run anything. -/
structure Unstarted (w : World) (tr : List (Event HostSig)) (w' : World) : Prop where
  world : w' = w
  trace : ∃ r, tr = [⟨.store (.sql .selectMappings), r⟩]

/-- **What a run of `reconcile` can do.** -/
theorem reconcile_cases (h : (reconcile C config options).Run hostEnv w tr w' x) :
    (Unstarted w tr w' ∧ ∃ e, x = .error e) ∨
    ∃ ms plan, decodeRows C w.db.listed = .ok ms ∧ planReconcile config options ms = .ok plan ∧
      ((options.dryRun = true ∧ Unstarted w tr w') ∨
        (options.dryRun = false ∧ plan.2.entries = [] ∧ ∃ r tr', tr = ⟨.store (.sql .selectMappings), r⟩ :: tr' ∧
          (applyReconcile C config options ms plan.1 plan.2).Run hostEnv w tr' w' x)) := by
  rcases Prog.run_bind.1 h with ⟨ms, w₁, tr₁, tr₂, rfl, hlist, hrest⟩ | ⟨e, rfl, hlist⟩
  · obtain ⟨rfl, ⟨r, rfl⟩, hd⟩ := listMappings_run hlist
    rcases Prog.run_bind.1 hrest with ⟨plan, w₂, tr₃, tr₄, rfl, hplan, hrun⟩ | ⟨e, rfl, hplan⟩
    · obtain ⟨rfl, rfl, hok⟩ := Prog.run_ofExcept.1 hplan
      rw [List.nil_append]
      split at hrun
      · rename_i hdry
        obtain ⟨rfl, rfl, -⟩ := Prog.run_ret.1 hrun
        exact .inr ⟨ms, plan, hd ms rfl, hok.symm, .inl ⟨hdry, rfl, r, rfl⟩⟩
      rename_i hdry
      split at hrun
      · obtain ⟨rfl, rfl, rfl⟩ := Prog.run_fail.1 hrun
        exact .inl ⟨⟨rfl, r, rfl⟩, _, rfl⟩
      · rename_i hempty
        refine .inr ⟨ms, plan, hd ms rfl, hok.symm, .inr ⟨by simpa using hdry, ?_, r, tr₄, rfl, hrun⟩⟩
        simpa using hempty
    · obtain ⟨rfl, rfl, -⟩ := Prog.run_ofExcept.1 hplan
      exact .inl ⟨⟨rfl, r, rfl⟩, e, rfl⟩
  · obtain ⟨rfl, hr, -⟩ := listMappings_run hlist
    exact .inl ⟨⟨rfl, hr⟩, e, rfl⟩

/-- The stored mappings cannot be applied: one of them or two together are not valid, or one is an
enabled XDP mapping. -/
def Refusable (C : Codec) (config : EdgeConfig) (w : World) : Prop :=
  ∀ ms, decodeRows C w.db.listed = .ok ms →
    validateMappings ms config ≠ .ok () ∨ ∃ m ∈ ms, isXdp m = true

theorem planEntries_length {ms : List Mapping} {entries : List XdpForwardEntry}
    (h : planEntries config ms = .ok entries) : entries.length = ms.length := by
  induction ms generalizing entries with
  | nil => cases h; rfl
  | cons m ms ih =>
    obtain ⟨e, -, h⟩ := except_bind_ok.1 h
    obtain ⟨es, hes, h⟩ := except_bind_ok.1 h
    cases h
    rw [List.length_cons, List.length_cons, ih hes]

/-- A plan without entries is a plan without enabled XDP mappings. -/
theorem no_xdp_of_plan {ms : List Mapping} {x : XdpConfig} {plan : XdpPlan} (h : x.plan ms config = .ok plan)
    (hempty : plan.entries = []) : ∀ m ∈ ms, isXdp m = false := by
  unfold XdpConfig.plan at h
  obtain ⟨-, -, h⟩ := except_bind_ok.1 h
  obtain ⟨-, -, h⟩ := except_bind_ok.1 h
  obtain ⟨entries, hentries, h⟩ := except_bind_ok.1 h
  cases h
  have hlength := planEntries_length hentries
  rw [show entries = [] from hempty, List.length_nil] at hlength
  intro m hm
  by_contra hx
  have hmem : m ∈ ms.filter isXdp := List.mem_filter.2 ⟨hm, by simpa using hx⟩
  rw [List.length_eq_zero_iff.1 hlength.symm] at hmem
  cases hmem

theorem not_refusable {ms : List Mapping} {plan : String × XdpPlan} (hd : decodeRows C w.db.listed = .ok ms)
    (hp : planReconcile config options ms = .ok plan) (hempty : plan.2.entries = []) :
    ¬ Refusable C config w := by
  intro h
  obtain ⟨hrender, hplan, -⟩ := rendering_of_plan hd hp
  rcases h ms hd with hv | ⟨m, hm, hx⟩
  · exact hv (validateMappings_of_render hrender)
  · rw [no_xdp_of_plan hplan hempty m hm] at hx
    cases hx

/-! ## Until the check and the load -/

/-- What a reconcile must not change before it may. -/
structure Untouched (w w' : World) : Prop where
  kernel : w'.kernel = w.kernel
  addrs : w'.addrs = w.addrs
  mappings : w'.db.mappings = w.db.mappings

theorem Untouched.refl (w : World) : Untouched w w := ⟨rfl, rfl, rfl⟩

/-- A statement that is neither an edit nor a health write leaves the mapping rows alone. -/
theorem mappings_of_storeEnv {db db' : Db} {o : StoreOp} {r : o.Reply} (h : storeEnv db o r db')
    (hs : ∀ s, o = .sql s → ¬ s.IsEdit ∧ ¬ s.IsHealth) : db'.mappings = db.mappings := by
  cases o with
  | now => rw [show db' = db from h]
  | sql s =>
    obtain ⟨hedit, hhealth⟩ := hs s rfl
    rcases h with h | ⟨-, -, rfl⟩
    · cases s <;> first | exact absurd trivial hedit | exact absurd trivial hhealth | (cases h; rfl)
    · rfl

/-- The stages in which nothing has been touched. With `apply_nft` a checked ruleset is not loaded
yet; without both flags nothing follows the check. -/
def Progress.Early (q : Progress) : Prop :=
  q.stage ≠ .loaded ∧ q.stage ≠ .torn ∧ (q.stage = .checked → q.applyNft = true ∨ q.applyLinux = false)

/-- Two ghost states of one call. -/
structure Progress.SameCall (q q' : Progress) : Prop where
  config : q'.config = q.config
  path : q'.path = q.path
  applyNft : q'.applyNft = q.applyNft
  applyLinux : q'.applyLinux = q.applyLinux
  edits : q'.edits = q.edits

/-- What the call was called with does not change. -/
theorem next_sameCall (e : Event HostSig) : q.SameCall ((protocol C).next q e) := by
  obtain ⟨o, r⟩ := e
  cases o with
  | store o =>
    cases o with
    | now => exact ⟨rfl, rfl, rfl, rfl, rfl⟩
    | sql s =>
      change q.SameCall (q.onSql C s r)
      unfold Progress.onSql
      split <;> exact ⟨rfl, rfl, rfl, rfl, rfl⟩
  | nft mode path => cases mode <;> exact ⟨rfl, rfl, rfl, rfl, rfl⟩
  | _ => exact ⟨rfl, rfl, rfl, rfl, rfl⟩

theorem Progress.SameCall.trans {q q' q'' : Progress} (h : q.SameCall q') (h' : q'.SameCall q'') :
    q.SameCall q'' :=
  ⟨h'.config.trans h.config, h'.path.trans h.path, h'.applyNft.trans h.applyNft,
    h'.applyLinux.trans h.applyLinux, h'.edits.trans h.edits⟩

theorem after_sameCall (q : Progress) (tr : List (Event HostSig)) : q.SameCall ((protocol C).after q tr) := by
  induction tr generalizing q with
  | nil => exact ⟨rfl, rfl, rfl, rfl, rfl⟩
  | cons e tr ih => exact (next_sameCall e).trans (ih _)

theorem onSql_stage (s : Stmt) (r : Except Sql.SqlError s.Out) : (q.onSql C s r).stage = q.stage := by
  unfold Progress.onSql
  split <;> rfl

/-- One operation of a call without edits, in an early stage or not. -/
theorem early_step {o : HostOp} {r : o.Reply} (hedits : q.edits = false) (h : q.Early → Untouched w₀ w)
    (hallow : (protocol C).allow q o) (hE : hostEnv w o r w') :
    ((protocol C).next q ⟨o, r⟩).Early → Untouched w₀ w' := by
  intro hearly
  obtain ⟨-, -, hnft, hlinux, -⟩ := next_sameCall (C := C) (q := q) ⟨o, r⟩
  cases o with
  | store o =>
    obtain ⟨db', hdb, rfl⟩ := hE
    have hq : q.Early := by
      cases o with
      | now => exact hearly
      | sql s =>
        obtain ⟨h1, h2, h3⟩ := hearly
        rw [show ((protocol C).next q ⟨.store (.sql s), r⟩).stage = q.stage from onSql_stage s r] at h1 h2 h3
        rw [hnft, hlinux] at h3
        exact ⟨h1, h2, h3⟩
    have hrows : db'.mappings = w.db.mappings := by
      refine mappings_of_storeEnv hdb fun s hs => ?_
      subst hs
      constructor
      · intro hedit
        cases s <;> first | exact hedit | exact absurd hallow (by simp [protocol, Progress.allowsSql, hedits])
      · intro hhealth
        cases s <;> first
          | exact hhealth
          | exact absurd hallow (by simp [protocol, Progress.allowsSql, hedits, hq.1])
    exact ⟨(h hq).kernel, (h hq).addrs, hrows.trans (h hq).mappings⟩
  | atomicWrite path text =>
    have hq : q.Early := by
      obtain ⟨-, -, hstage⟩ := hallow
      simp [Progress.Early, hstage]
    rcases hE with ⟨-, rfl⟩ | ⟨e, -, rfl⟩
    · exact ⟨(h hq).kernel, (h hq).addrs, (h hq).mappings⟩
    · exact h hq
  | nft mode path =>
    cases mode with
    | check =>
      obtain ⟨-, hstage⟩ := hallow
      rw [hE.1]
      exact h (by simp [Progress.Early, hstage])
    | apply =>
      obtain ⟨-, hstage, happly⟩ := hallow
      have hrejected : r.Rejected := by
        by_contra hr
        obtain ⟨h1, h2, -⟩ := hearly
        by_cases hs : r.Succeeded <;> simp [protocol, Progress.onApply, hs, hr] at h1 h2
      rw [hE.rejected hrejected]
      exact h (by simp [Progress.Early, hstage, happly])
  | ip command =>
    -- an address command comes after the load, or after the check where there is no load
    obtain ⟨hlinux', hstage⟩ := hallow
    obtain ⟨h1, -, h3⟩ := hearly
    change q.stage = _ → _ at h3
    change q.stage ≠ _ at h1
    cases happly : q.applyNft with
    | true => rw [happly] at hstage; exact absurd hstage h1
    | false =>
      rw [happly] at hstage
      rcases h3 hstage with h3 | h3
      · rw [hnft, happly] at h3; cases h3
      · rw [hlinux, hlinux'] at h3; cases h3
  | connect ip port =>
    rw [show w' = w from hE]
    exact h hearly

/-- **Early stages have touched nothing.** -/
theorem untouched_of_early {α : Type} {p : HostProg α} {post : Progress → Except ReconcileError α → Prop}
    {x : Except ReconcileError α} (hp : p.wp (protocol C) post q) (hedits : q.edits = false)
    (hr : p.Run hostEnv w tr w' x) (hearly : ((protocol C).after q tr).Early) : Untouched w w' := by
  have hinv := Prog.wp_run_inv (I := fun q v => q.edits = false ∧ (q.Early → Untouched w v)) hp
    ⟨hedits, fun _ => .refl w⟩ (fun q s o r s' hI hallow hE =>
      ⟨(next_sameCall _).edits.trans hI.1, early_step hI.1 hI.2 hallow hE⟩) hr
  exact hinv.2 hearly

/-! ## Events -/

/-- The write, the check or the apply failed; the apply by its exit status. -/
def Fails : Event HostSig → Prop
  | ⟨.atomicWrite _ _, .error _⟩ => True
  | ⟨.nft .check _, r⟩ => ¬ r.Succeeded
  | ⟨.nft .apply _, r⟩ => r.Rejected
  | _ => False

/-- The check of the file at `path` succeeded. -/
def Accepted (path : String) (e : Event HostSig) : Prop := ∃ r : Outcome, e = ⟨.nft .check path, r⟩ ∧ r.Succeeded

/-- A command on addresses, or a health write. -/
def IsAddressOrHealth : HostOp → Prop
  | .ip _ => True
  | .store (.sql s) => s.IsHealth
  | _ => False

/-- An operation that can change the kernel, the addresses or the mapping rows. -/
def Touches : HostOp → Prop
  | .nft .apply _ => True
  | .ip (.add _ _) | .ip (.del _ _) => True
  | .store (.sql s) => s.IsEdit ∨ s.IsHealth
  | _ => False

/-- The operations that do not move the stage. -/
theorem next_stage {e : Event HostSig} (h : ∀ path text, e.op ≠ .atomicWrite path text)
    (h' : ∀ mode path, e.op ≠ .nft mode path) : ((protocol C).next q e).stage = q.stage := by
  obtain ⟨o, r⟩ := e
  cases o with
  | store o =>
    cases o with
    | now => rfl
    | sql s => exact onSql_stage s r
  | atomicWrite path text => exact absurd rfl (h path text)
  | nft mode path => exact absurd rfl (h' mode path)
  | _ => rfl

/-- After a failure the call stays failed. -/
theorem failed_of_fails (h : (protocol C).Accepts q tr) :
    (∃ e ∈ tr, Fails e) → ((protocol C).after q tr).stage = .failed := by
  refine h.inv (I := fun tr q => (∃ e ∈ tr, Fails e) → q.stage = .failed) (by simp) ?_
  rintro tr q ⟨o, r⟩ ih hallow ⟨e', hmem, hfails⟩
  rcases List.mem_append.1 hmem with hmem | hmem
  · have hstage := ih ⟨e', hmem, hfails⟩
    rw [next_stage, hstage]
    · rintro path text rfl
      exact absurd (hstage.symm.trans hallow.2.2) (by decide)
    · rintro mode path rfl
      cases mode with
      | check => exact absurd (hstage.symm.trans hallow.2) (by decide)
      | apply => exact absurd (hstage.symm.trans hallow.2.1) (by decide)
  · cases List.mem_singleton.1 hmem
    cases o with
    | atomicWrite path text =>
      cases r with
      | ok u => exact absurd hfails id
      | error e => rfl
    | nft mode path =>
      cases mode with
      | check => simp [protocol, Progress.onCheck, show ¬ r.Succeeded from hfails]
      | apply =>
        have hr : r.Rejected := hfails
        have hs : ¬ r.Succeeded := by
          cases r with
          | exited output =>
            intro hs
            have h1 : output.isSuccess = true := hs
            rw [hr.2] at h1
            cases h1
          | _ => exact id
        simp [protocol, Progress.onApply, hs, hr]
    | store o => cases o <;> exact absurd hfails id
    | ip command => exact absurd hfails id
    | connect ip port => exact absurd hfails id

/-- Past the check, the check has succeeded. -/
theorem accepted_of_stage (h : (protocol C).Accepts q tr) (hidle : q.stage = .idle) :
    ((protocol C).after q tr).stage = .checked ∨ ((protocol C).after q tr).stage = .loaded →
      ∃ e ∈ tr, Accepted q.path e := by
  have hinv := h.inv (I := fun tr q' => (q'.path = q.path) ∧
    (q'.stage = .checked ∨ q'.stage = .loaded → ∃ e ∈ tr, Accepted q.path e)) ⟨rfl, by simp [hidle]⟩ ?_
  · exact hinv.2
  rintro tr q' ⟨o, r⟩ ⟨hpath, ih⟩ hallow
  refine ⟨(next_sameCall _).path.trans hpath, fun hstage => ?_⟩
  have hkeep : q'.stage = .checked ∨ q'.stage = .loaded → ∃ e ∈ tr ++ [⟨o, r⟩], Accepted q.path e := by
    intro h
    obtain ⟨e, hmem, he⟩ := ih h
    exact ⟨e, List.mem_append_left _ hmem, he⟩
  cases o with
  | store o => rw [next_stage (by simp) (by simp)] at hstage; exact hkeep hstage
  | ip command => exact hkeep hstage
  | connect ip port => exact hkeep hstage
  | atomicWrite path text => cases r <;> exact absurd hstage (by simp [protocol, Progress.onWrite])
  | nft mode path =>
    cases mode with
    | apply => exact hkeep (.inl hallow.2.1)
    | check =>
      have hs : r.Succeeded := by
        by_contra hs
        simp [protocol, Progress.onCheck, hs] at hstage
      exact ⟨_, List.mem_append_right _ List.mem_cons_self, r, by rw [← hpath, ← hallow.1], hs⟩

/-- Without both flags a call without edits asks for nothing that touches anything. -/
theorem not_touches (h : (protocol C).Accepts q tr) (hidle : q.stage = .idle) (hedits : q.edits = false)
    (hnft : q.applyNft = false) (hlinux : q.applyLinux = false) :
    (∀ e ∈ tr, ¬ Touches e.op) ∧ ((protocol C).after q tr).Early := by
  have hinv := h.inv (I := fun tr q' => q.SameCall q' ∧ (∀ e ∈ tr, ¬ Touches e.op) ∧
    q'.stage ≠ .loaded ∧ q'.stage ≠ .torn) ⟨⟨rfl, rfl, rfl, rfl, rfl⟩, by simp, by simp [hidle]⟩ ?_
  · obtain ⟨hsame, hnone, hl, ht⟩ := hinv
    exact ⟨hnone, hl, ht, fun _ => .inr (hsame.applyLinux.trans hlinux)⟩
  rintro tr q' ⟨o, r⟩ ⟨hsame, hnone, hl, ht⟩ hallow
  have hnft' := hsame.applyNft.trans hnft
  have hlinux' := hsame.applyLinux.trans hlinux
  have hedits' := hsame.edits.trans hedits
  have hquiet : ¬ Touches o := by
    intro htouch
    cases o with
    | store o =>
      cases o with
      | now => exact htouch
      | sql s =>
        cases s <;> first
          | exact htouch.elim id id
          | exact absurd hallow (by simp [protocol, Progress.allowsSql, hedits', hl])
    | atomicWrite path text => exact htouch
    | nft mode path =>
      cases mode with
      | check => exact htouch
      | apply => exact absurd (hnft'.symm.trans hallow.2.2) (by decide)
    | ip command => exact absurd (hlinux'.symm.trans hallow.1) (by decide)
    | connect ip port => exact htouch
  refine ⟨hsame.trans (next_sameCall _), fun e he => ?_, ?_⟩
  · rcases List.mem_append.1 he with he | he
    · exact hnone e he
    · cases List.mem_singleton.1 he
      exact hquiet
  · cases o with
    | store o => rw [next_stage (by simp) (by simp)]; exact ⟨hl, ht⟩
    | atomicWrite path text => cases r <;> simp [protocol, Progress.onWrite]
    | ip command => exact ⟨hl, ht⟩
    | connect ip port => exact ⟨hl, ht⟩
    | nft mode path =>
      cases mode with
      | check => by_cases hs : r.Succeeded <;> simp [protocol, Progress.onCheck, hs]
      | apply => exact absurd trivial hquiet

/-! ## Every exit -/

/-- What a run of `reconcile` that goes wrong, or is not to change anything, leaves. -/
structure FailsClosed (C : Codec) (config : EdgeConfig) (options : ReconcileOptions) (w : World)
    (tr : List (Event HostSig)) (w' : World) (x : Except ReconcileError ReconcileReport) : Prop where
  dry : options.dryRun = true → w' = w
  refuses : options.dryRun = false → Refusable C config w → (∃ e, x = .error e) ∧ Unstarted w tr w'
  fails : (∃ e ∈ tr, Fails e) → (∃ e, x = .error e) ∧ Untouched w w'
  checks : ∀ pre e post, tr = pre ++ e :: post → IsAddressOrHealth e.op → ∃ e' ∈ pre, Accepted options.nftOutput e'
  leaves : options.applyNft = false → options.applyLinux = false → (∀ e ∈ tr, ¬ Touches e.op) ∧ Untouched w w'

theorem not_fails_of_unstarted (h : Unstarted w tr w') : ¬ ∃ e ∈ tr, Fails e := by
  obtain ⟨-, r, rfl⟩ := h
  rintro ⟨e, he, hfails⟩
  cases List.mem_singleton.1 he
  exact hfails

/-- **Reconcile fails closed.** -/
theorem fails_closed (h : (reconcile C config options).Run hostEnv w tr w' x) :
    FailsClosed C config options w tr w' x := by
  have hfor : (HostCall.reconcile config options).start.For config options := ⟨rfl, rfl, rfl, rfl⟩
  have hwp := Prog.wpOk_iff.1 (reconcile_follows (C := C) hfor rfl)
  obtain ⟨hpost, haccepts⟩ := Prog.wp_run hwp h
  refine ⟨fun hdry => ?_, fun hdry hrefuse => ?_, fun hfails => ?_, fun pre e post htr he => ?_,
    fun hnft hlinux => ?_⟩
  · rcases reconcile_cases h with ⟨hu, -⟩ | ⟨ms, plan, -, -, ⟨-, hu⟩ | ⟨hdry', -⟩⟩
    · exact hu.world
    · exact hu.world
    · rw [hdry] at hdry'; cases hdry'
  · rcases reconcile_cases h with ⟨hu, he⟩ | ⟨ms, plan, hd, hplan, ⟨hdry', -⟩ | ⟨-, hempty, -⟩⟩
    · exact ⟨he, hu⟩
    · rw [hdry] at hdry'; cases hdry'
    · exact absurd hrefuse (not_refusable hd hplan hempty)
  · have hstage := failed_of_fails haccepts hfails
    have hearly : ((protocol C).after (HostCall.reconcile config options).start tr).Early := by
      simp [Progress.Early, hstage]
    refine ⟨?_, untouched_of_early hwp rfl h hearly⟩
    cases x with
    | error e => exact ⟨e, rfl⟩
    | ok report =>
      -- a run that returned is a dry one, or is past the load or the check
      rcases reconcile_cases h with ⟨-, e, he⟩ | ⟨ms, plan, -, -, ⟨-, hu⟩ | ⟨hdry, -⟩⟩
      · cases he
      · exact absurd hfails (not_fails_of_unstarted hu)
      · have hlast := (hpost report rfl).2 hdry
        rw [hstage, ReconcileOptions.lastStage] at hlast
        split at hlast <;> cases hlast
  · subst htr
    have hallow := haccepts.allow_of_split
    refine accepted_of_stage (((protocol C).accepts_append _).1 haccepts).1 rfl ?_
    obtain ⟨o, r⟩ := e
    cases o with
    | ip command =>
      have hstage := hallow.2
      split at hstage
      · exact .inr hstage
      · exact .inl hstage
    | store o =>
      cases o with
      | now => exact absurd he id
      | sql s =>
        have hedits := (after_sameCall (C := C) (HostCall.reconcile config options).start pre).edits
        cases s <;> first | exact absurd he id | skip
        rcases hallow.1 with h | h
        · rw [hedits] at h; cases h
        · exact .inr h
    | nft mode path => cases mode <;> exact absurd he id
    | _ => exact absurd he id
  · obtain ⟨hnone, hearly⟩ := not_touches haccepts rfl rfl hnft hlinux
    exact ⟨hnone, untouched_of_early hwp rfl h hearly⟩

/-- A host with a service for the XDP plane in its database. -/
def xdpWorld : World :=
  { sampleWorld with db := (sampleRun [.insert { sampleDns with backend := .xdp }] [0, 0, 0]).2.2 }

/-- The service is refused: the call has listed the mappings and done nothing else. -/
theorem fails_closed_xdp_service :
    (∃ e, ((reconcile sampleCodec sampleConfig {}).eval (answer fun _ => true) xdpWorld).2.2 = .error e) ∧
      Unstarted xdpWorld ((reconcile sampleCodec sampleConfig {}).eval (answer fun _ => true) xdpWorld).1
        ((reconcile sampleCodec sampleConfig {}).eval (answer fun _ => true) xdpWorld).2.1 := by
  refine (fails_closed (eval_run (answer_env _) _ _)).refuses rfl fun ms hms => .inr ?_
  have hany : (decodeRows sampleCodec xdpWorld.db.listed).toOption.map (·.any isXdp) = some true := by
    decide +kernel
  rw [hms] at hany
  simpa [Except.toOption] using hany

end EdgeRoute
