import EdgeRoute.Proof.Addresses
import EdgeRoute.Proof.Operations

/-!
# Deletes and listings

`parse_ipv4_addresses` keeps the local address of each `inet` line and drops its prefix; the commands are
made for `a/32`.

* `deleteAddrIfPresent_asks`, `ensureAddr_asks`: what the two calls ask for after a listing.
* `reconcile_deletes`: what a reconcile deletes is the address of a disabled mapping, and on the last listing.
* `delete_listed_iff`: **a delete is for an entry of the listing exactly where the address is not on the
  listing or has the entry `a/32` there.**
-/

namespace EdgeRoute

open Effect

variable {C : Codec} {σ : Type} {E : Env HostSig σ} {s s' : σ} {tr : List (Event HostSig)} {wan : String}
  {a : Ipv4Addr} {output : CommandOutput} {entries : List InetAddr} {config : EdgeConfig}
  {options : ReconcileOptions} {ms : List Mapping}

/-! ## One call -/

/-- The run asked for `ip addr del a/32`. -/
def AsksDelete (tr : List (Event HostSig)) (wan : String) (a : Ipv4Addr) : Prop :=
  ∃ r : Outcome, (⟨.ip (.del wan a), r⟩ : Event HostSig) ∈ tr

/-- The local address of some line. -/
def Listed (entries : List InetAddr) (a : Ipv4Addr) : Prop := ∃ entry ∈ entries, entry.addr = a

theorem linuxOutput_exited (h : output.isSuccess = true) : linuxOutput (.exited output) = .ok output := by
  simp [linuxOutput, h]

theorem mem_parse_of_prints (h : Prints output.stdout entries) :
    a ∈ parseIpv4Addresses output.stdout ↔ Listed entries a := by
  rw [parse_of_prints h, List.mem_map]
  rfl

/-- A call that starts with a listing goes on with what the listing shows. -/
theorem run_after_listing {α : Type} {f : List Ipv4Addr → HostProg α} {x : Except ReconcileError α}
    (hs : output.isSuccess = true)
    (h : ((interfaceAddresses wan).bind f).Run E s (⟨.ip (.show wan), .exited output⟩ :: tr) s' x) :
    ∃ s₁, (f (parseIpv4Addresses output.stdout)).Run E s₁ tr s' x := by
  obtain ⟨r, s₁, tr₁, htr, -, hrest⟩ := Prog.run_call.1 h
  cases htr
  refine ⟨s₁, ?_⟩
  beta_reduce at hrest
  rwa [linuxOutput_exited hs] at hrest

/-- `delete_addr_if_present` asks for the delete where the address is listed, with whatever prefix. -/
theorem deleteAddrIfPresent_asks {x : Except ReconcileError Bool} (hs : output.isSuccess = true)
    (hprint : Prints output.stdout entries)
    (h : (deleteAddrIfPresent wan a).Run E s (⟨.ip (.show wan), .exited output⟩ :: tr) s' x) :
    AsksDelete tr wan a ↔ Listed entries a := by
  obtain ⟨s₁, hrest⟩ := run_after_listing hs h
  rw [← mem_parse_of_prints hprint]
  by_cases hmem : a ∈ parseIpv4Addresses output.stdout
  · rw [if_neg (not_not.2 hmem)] at hrest
    obtain ⟨r, s₂, tr₁, rfl, -, -⟩ := Prog.run_call.1 hrest
    exact iff_of_true ⟨r, List.mem_cons_self⟩ hmem
  · rw [if_pos hmem] at hrest
    obtain ⟨rfl, -, -⟩ := Prog.run_ret.1 hrest
    refine iff_of_false ?_ hmem
    rintro ⟨r, hr⟩
    cases hr

/-- `ensure_addr` returns false and asks for nothing more where the address is listed. -/
theorem ensureAddr_asks {x : Except ReconcileError Bool} (hs : output.isSuccess = true)
    (hprint : Prints output.stdout entries)
    (h : (ensureAddr wan a).Run E s (⟨.ip (.show wan), .exited output⟩ :: tr) s' x) :
    (x = .ok false ∧ tr = []) ↔ Listed entries a := by
  obtain ⟨s₁, hrest⟩ := run_after_listing hs h
  rw [← mem_parse_of_prints hprint]
  by_cases hmem : a ∈ parseIpv4Addresses output.stdout
  · rw [if_pos hmem] at hrest
    obtain ⟨rfl, -, rfl⟩ := Prog.run_ret.1 hrest
    exact iff_of_true ⟨rfl, rfl⟩ hmem
  · rw [if_neg hmem] at hrest
    obtain ⟨r, s₂, tr₁, rfl, -, -⟩ := Prog.run_call.1 hrest
    refine iff_of_false ?_ hmem
    rintro ⟨-, hnil⟩
    cases hnil

/-! ## A reconcile -/

/-- What a reconcile has seen: the mappings it goes through, and the last listing with its interface. -/
structure Seen where
  mappings : List Mapping
  listing : Option (String × String)

/-- A reconcile deletes the address of a disabled mapping, and one that the last listing shows. -/
def Seen.Deletable (q : Seen) (wan : String) (a : Ipv4Addr) : Prop :=
  (∃ m ∈ q.mappings, Unwants m ∧ m.edgePrivateIp = a) ∧
    ∃ stdout, q.listing = some (wan, stdout) ∧ a ∈ parseIpv4Addresses stdout

def Seen.onList (C : Codec) (q : Seen) : Except Sql.SqlError (List Row) → Seen
  | .ok rows => { q with mappings := (decodeRows C rows).toOption.getD [] }
  | .error _ => q

def Seen.onShow (q : Seen) (wan : String) : Outcome → Seen
  | .exited output => if output.isSuccess then { q with listing := some (wan, output.stdout) } else q
  | _ => q

def deletions (C : Codec) : Monitor HostSig Seen where
  allow q
    | .ip (.del wan a) => q.Deletable wan a
    | _ => True
  next q
    | ⟨.store (.sql .selectMappings), r⟩ => q.onList C r
    | ⟨.ip (.show wan), r⟩ => q.onShow wan r
    | _ => q

variable {q : Seen}

/-- The parts of a reconcile beside the address loop show it nothing. -/
theorem admitsLoad_quiet : AdmitsLoad ((deletions C).Quiet q) where
  now := ⟨trivial, fun _ => rfl⟩
  event _ _ _ _ := ⟨trivial, fun _ => rfl⟩
  generation _ _ _ _ _ _ := ⟨trivial, fun _ => rfl⟩
  write _ _ := ⟨trivial, fun _ => rfl⟩
  nft _ _ := ⟨trivial, fun _ => rfl⟩

theorem admitsHealth_quiet : AdmitsHealth C ((deletions C).Quiet q) where
  toAdmitsEvents := admitsLoad_quiet.toAdmitsEvents
  connect _ _ := ⟨trivial, fun _ => rfl⟩
  row _ := ⟨trivial, fun _ => rfl⟩
  health _ _ _ _ _ _ _ _ := ⟨trivial, fun _ => rfl⟩

/-- A call that starts with a listing goes on where it has seen it. -/
theorem wpOk_after_listing {α : Type} {f : List Ipv4Addr → HostProg α} {post : Seen → α → Prop}
    (h : ∀ stdout, (f (parseIpv4Addresses stdout)).wpOk (deletions C) post { q with listing := some (wan, stdout) }) :
    ((interfaceAddresses wan).bind f).wpOk (deletions C) post q := by
  refine Prog.wpOk_call (M := deletions C) trivial fun r => ?_
  cases r with
  | timedOut => exact Prog.wpOk_fail
  | ioError message => exact Prog.wpOk_fail
  | exited output =>
    beta_reduce
    by_cases hs : output.isSuccess = true
    · have hnext : (deletions C).next q ⟨.ip (.show wan), .exited output⟩ =
          { q with listing := some (wan, output.stdout) } := if_pos hs
      rw [linuxOutput_exited hs, hnext]
      exact h output.stdout
    · have hfail : linuxOutput (.exited output) = .error (.command output.errorMessage) := by
        simp [linuxOutput, hs]
      rw [hfail]
      exact Prog.wpOk_fail

theorem wpOk_runIp {command : IpCommand} {α : Type} {f : CommandOutput → HostProg α} {post : Seen → α → Prop}
    (hallow : (deletions C).allow q (.ip command)) (hnext : ∀ r, (deletions C).next q ⟨.ip command, r⟩ = q)
    (h : ∀ output, (f output).wpOk (deletions C) post q) : ((runIp command).bind f).wpOk (deletions C) post q := by
  refine Prog.wpOk_call (M := deletions C) hallow fun r => ?_
  rw [hnext]
  beta_reduce
  cases hx : linuxOutput r with
  | ok output => exact h output
  | error e => exact Prog.wpOk_fail

theorem ensureAddr_allowed {post : Seen → Bool → Prop}
    (h : ∀ stdout changed, post { q with listing := some (wan, stdout) } changed) :
    (ensureAddr wan a).wpOk (deletions C) post q := by
  refine wpOk_after_listing fun stdout => ?_
  split
  · exact Prog.wpOk_ret (h _ _)
  · exact wpOk_runIp trivial (fun _ => rfl) fun _ => Prog.wpOk_ret (h _ _)

theorem deleteAddrIfPresent_allowed {post : Seen → Bool → Prop}
    (hm : ∃ m ∈ q.mappings, Unwants m ∧ m.edgePrivateIp = a)
    (h : ∀ stdout changed, post { q with listing := some (wan, stdout) } changed) :
    (deleteAddrIfPresent wan a).wpOk (deletions C) post q := by
  refine wpOk_after_listing fun stdout => ?_
  split
  · exact Prog.wpOk_ret (h _ _)
  · rename_i hin
    refine wpOk_runIp ⟨hm, stdout, rfl, not_not.1 hin⟩ (fun _ => rfl) fun _ => Prog.wpOk_ret (h _ _)

/-- The address loop, over the mappings that were seen. -/
theorem syncAddresses_allowed (hms : ∀ m ∈ ms, m ∈ q.mappings) :
    (syncAddresses wan ms).wpOk (deletions C) (fun _ _ => True) q := by
  induction ms generalizing q with
  | nil => exact Prog.wpOk_ret trivial
  | cons m ms ih =>
    rw [List.forall_mem_cons] at hms
    -- the rest of the loop, from the listing of this round
    have hrest : ∀ stdout (f : List String × List String → List String × List String),
        ((syncAddresses wan ms).bind fun later => .ret (f later)).wpOk (deletions C) (fun _ _ => True)
          { q with listing := some (wan, stdout) } := by
      intro stdout f
      refine Prog.wpOk_bind (Prog.wpOk_mono ?_ (ih hms.2))
      intro _ _ _
      exact Prog.wpOk_ret trivial
    unfold syncAddresses
    split
    · exact Prog.wpOk_bind (ensureAddr_allowed fun stdout changed => hrest stdout _)
    rename_i hwants
    split
    · rename_i hb
      have hm : ∃ m' ∈ q.mappings, Unwants m' ∧ m'.edgePrivateIp = m.edgePrivateIp :=
        ⟨m, hms.1, (not_wants_iff hb).1 hwants, rfl⟩
      exact Prog.wpOk_bind (deleteAddrIfPresent_allowed hm fun stdout changed => hrest stdout _)
    · exact ih hms.2

theorem listMappings_seen : (liftStore (listMappings C)).wpOk (deletions C) (fun q' ms => q'.mappings = ms) q := by
  refine Prog.wpOk_call (M := deletions C) trivial fun r => ?_
  cases r with
  | error e => exact Prog.wpOk_fail
  | ok rows =>
    change (liftStore (.ofExcept (decodeRows C rows))).wpOk _ _ _
    cases hd : decodeRows C rows with
    | error e => exact Prog.wpOk_fail
    | ok ms =>
      refine Prog.wpOk_ret ?_
      change (decodeRows C rows).toOption.getD [] = ms
      rw [hd]
      rfl

theorem reconcile_allowed : (reconcile C config options).wpOk (deletions C) (fun _ _ => True) q := by
  refine Prog.wpOk_bind (Prog.wpOk_mono ?_ listMappings_seen)
  intro q ms hms
  refine Prog.wpOk_bind (Prog.wpOk_ofExcept fun plan _ => ?_)
  split
  · exact Prog.wpOk_ret trivial
  split
  · exact Prog.wpOk_fail
  have hload := admitsLoad_quiet (C := C) (q := q)
  refine Prog.wpOk_bind_of_uses (liftGeneration_uses hload.toAdmitsLog (by decide)) fun generation => ?_
  refine Prog.wpOk_bind_of_uses (writeRuleset_uses hload) fun _ => ?_
  refine Prog.wpOk_bind_of_uses (checkRuleset_uses hload) fun _ => ?_
  refine Prog.wpOk_bind_of_uses (applyStep_uses hload) fun _ => ?_
  have hrecord : ∀ (q : Seen) (changes : List String × List String),
      ((recordStep C options ms plan.1 generation).bind fun generationId => Prog.ret (ε := ReconcileError)
        ({ nftablesConfig := plan.1, generationId := some generationId, addedAddresses := changes.1,
           removedAddresses := changes.2, xdpPlanEntries := plan.2.entries.length } : ReconcileReport)).wpOk
        (deletions C) (fun _ _ => True) q := by
    intro q changes
    refine Prog.wpOk_bind_of_uses (recordStep_uses admitsHealth_quiet fun _ _ _ => ⟨trivial, fun _ => rfl⟩) fun _ => ?_
    exact Prog.wpOk_ret trivial
  refine Prog.wpOk_bind ?_
  unfold addressStep
  split
  · exact Prog.wpOk_mono (fun q changes _ => hrecord q changes) (syncAddresses_allowed fun m hm => hms ▸ hm)
  · exact Prog.wpOk_ret (hrecord q _)

/-! ## What was seen -/

/-- The reconcile has read the mapping. -/
def Reads (C : Codec) (tr : List (Event HostSig)) (m : Mapping) : Prop :=
  ∃ rows ms, (⟨.store (.sql .selectMappings), .ok rows⟩ : Event HostSig) ∈ tr ∧ decodeRows C rows = .ok ms ∧ m ∈ ms

/-- The interface was listed with this output. -/
def Shows (tr : List (Event HostSig)) (wan : String) (output : CommandOutput) : Prop :=
  (⟨.ip (.show wan), .exited output⟩ : Event HostSig) ∈ tr ∧ output.isSuccess = true

theorem mem_onList {r : Except Sql.SqlError (List Row)} {m : Mapping} (h : m ∈ (q.onList C r).mappings) :
    m ∈ q.mappings ∨ ∃ rows ms, r = .ok rows ∧ decodeRows C rows = .ok ms ∧ m ∈ ms := by
  cases r with
  | error e => exact .inl h
  | ok rows =>
    refine .inr ⟨rows, ?_⟩
    cases hd : decodeRows C rows with
    | error e =>
      rw [Seen.onList, hd] at h
      cases h
    | ok ms =>
      rw [Seen.onList, hd] at h
      exact ⟨ms, rfl, rfl, h⟩

theorem listing_onShow {r : Outcome} {wan' stdout : String} (h : (q.onShow wan r).listing = some (wan', stdout)) :
    q.listing = some (wan', stdout) ∨
      ∃ output, wan = wan' ∧ r = .exited output ∧ output.isSuccess = true ∧ output.stdout = stdout := by
  cases r with
  | timedOut => exact .inl h
  | ioError message => exact .inl h
  | exited output =>
    by_cases hs : output.isSuccess = true
    · rw [Seen.onShow, if_pos hs] at h
      cases h
      exact .inr ⟨output, rfl, rfl, hs, rfl⟩
    · rw [Seen.onShow, if_neg hs] at h
      exact .inl h

/-- One event shows mappings, or a listing, or nothing. -/
theorem next_cases (q : Seen) (e : Event HostSig) :
    (∃ r, e = ⟨.store (.sql .selectMappings), r⟩ ∧ (deletions C).next q e = q.onList C r) ∨
      (∃ wan r, e = ⟨.ip (.show wan), r⟩ ∧ (deletions C).next q e = q.onShow wan r) ∨ (deletions C).next q e = q := by
  unfold deletions
  dsimp only
  split
  · exact .inl ⟨_, rfl, rfl⟩
  · exact .inr (.inl ⟨_, _, rfl, rfl⟩)
  · exact .inr (.inr rfl)

theorem reads_of_after {m : Mapping} (h : m ∈ ((deletions C).after q tr).mappings) : m ∈ q.mappings ∨ Reads C tr m := by
  induction tr generalizing q with
  | nil => exact .inl h
  | cons e tr ih =>
    rcases ih h with hq | ⟨rows, ms, hmem, hrest⟩
    · rcases next_cases (C := C) q e with ⟨r, rfl, hnext⟩ | ⟨wan, r, rfl, hnext⟩ | hnext
      · rw [hnext] at hq
        rcases mem_onList hq with hq | ⟨rows, ms, rfl, hd, hm⟩
        · exact .inl hq
        · exact .inr ⟨rows, ms, List.mem_cons_self, hd, hm⟩
      · refine .inl ?_
        rw [hnext] at hq
        unfold Seen.onShow at hq
        split at hq
        · split at hq <;> exact hq
        · exact hq
      · rw [hnext] at hq
        exact .inl hq
    · exact .inr ⟨rows, ms, List.mem_cons_of_mem _ hmem, hrest⟩

theorem shows_of_after {stdout : String} (h : ((deletions C).after q tr).listing = some (wan, stdout)) :
    q.listing = some (wan, stdout) ∨ ∃ output, Shows tr wan output ∧ output.stdout = stdout := by
  induction tr generalizing q with
  | nil => exact .inl h
  | cons e tr ih =>
    rcases ih h with hq | ⟨output, ⟨hmem, hs⟩, hout⟩
    · rcases next_cases (C := C) q e with ⟨r, rfl, hnext⟩ | ⟨wan', r, rfl, hnext⟩ | hnext
      · rw [hnext] at hq
        refine .inl ?_
        cases r <;> exact hq
      · rw [hnext] at hq
        rcases listing_onShow hq with hq | ⟨output, rfl, rfl, hs, hout⟩
        · exact .inl hq
        · exact .inr ⟨output, ⟨List.mem_cons_self, hs⟩, hout⟩
      · rw [hnext] at hq
        exact .inl hq
    · exact .inr ⟨output, ⟨List.mem_cons_of_mem _ hmem, hs⟩, hout⟩

/-- **What a reconcile deletes**: the address of a disabled mapping that it read, and one that is on the last
listing. -/
theorem reconcile_deletes {x : Except ReconcileError ReconcileReport} {pre post : List (Event HostSig)} {r : Outcome}
    (h : (reconcile C config options).Run E s (pre ++ ⟨.ip (.del wan a), r⟩ :: post) s' x) :
    (∃ m, Reads C pre m ∧ Unwants m ∧ m.edgePrivateIp = a) ∧
      ∃ output, Shows pre wan output ∧ a ∈ parseIpv4Addresses output.stdout := by
  obtain ⟨-, haccepts⟩ := Prog.wp_run (Prog.wpOk_iff.1 (reconcile_allowed (C := C) (q := ⟨[], none⟩))) h
  obtain ⟨⟨m, hm, hu, ha⟩, stdout, hlisting, hmem⟩ := haccepts.allow_of_split
  refine ⟨⟨m, (reads_of_after hm).resolve_left List.not_mem_nil, hu, ha⟩, ?_⟩
  rcases shows_of_after hlisting with hnone | ⟨output, hshows, rfl⟩
  · cases hnone
  · exact ⟨output, hshows, hmem⟩

/-- **Deletes and listings.** After any listing, `delete_addr_if_present` deletes only an entry of the listing
exactly where the address is not on the listing or is there as `a/32`, and `ensure_addr` returns false without
a further command exactly where the address is on the listing. In every reconcile whose listings have each
disabled mapping's address not at all or as `a/32`, every delete is for an entry that a listing had before. -/
theorem delete_listed_iff {sd sd' se se' : σ} {trd tre : List (Event HostSig)} {xd xe : Except ReconcileError Bool}
    (hs : output.isSuccess = true) (hprint : Prints output.stdout entries)
    (hdel : (deleteAddrIfPresent wan a).Run E sd (⟨.ip (.show wan), .exited output⟩ :: trd) sd' xd)
    (hens : (ensureAddr wan a).Run E se (⟨.ip (.show wan), .exited output⟩ :: tre) se' xe) :
    ((AsksDelete trd wan a → .host a ∈ entries) ↔ (Listed entries a → .host a ∈ entries)) ∧
      ((xe = .ok false ∧ tre = []) ↔ Listed entries a) ∧
      ∀ (C : Codec) (config : EdgeConfig) (options : ReconcileOptions) (s s' : σ) (tr : List (Event HostSig))
        (x : Except ReconcileError ReconcileReport), (reconcile C config options).Run E s tr s' x →
        (∀ m, Reads C tr m → Unwants m → ∀ wan output, Shows tr wan output → ∃ entries,
          Prints output.stdout entries ∧ (Listed entries m.edgePrivateIp → .host m.edgePrivateIp ∈ entries)) →
        ∀ pre post wan a r, tr = pre ++ ⟨.ip (.del wan a), r⟩ :: post →
          ∃ output entries, Shows pre wan output ∧ Prints output.stdout entries ∧ .host a ∈ entries := by
  refine ⟨by rw [deleteAddrIfPresent_asks hs hprint hdel], ensureAddr_asks hs hprint hens, ?_⟩
  intro C config options s s' tr x hr hcond pre post wan a r htr
  subst htr
  obtain ⟨⟨m, ⟨rows, ms, hrows, hd, hm⟩, hu, rfl⟩, output, hshows, hmem⟩ := reconcile_deletes hr
  obtain ⟨entries, hprint, hhost⟩ := hcond m ⟨rows, ms, List.mem_append_left _ hrows, hd, hm⟩ hu wan output
    ⟨List.mem_append_left _ hshows.1, hshows.2⟩
  exact ⟨output, entries, hshows, hprint, hhost ((mem_parse_of_prints hprint).1 hmem)⟩

/-! ## Two interfaces -/

/-- An interface with one address, on a host that always answers. -/
def oneAddress (entry : InetAddr) : World :=
  { sampleWorld with addrs := fun _ => ⟨[entry], List.nodup_singleton entry⟩ }

/-- The listing of the interface. -/
def oneListing (entry : InetAddr) : CommandOutput :=
  ⟨some 0, (⟨[entry], List.nodup_singleton entry⟩ : AddrTable).listing, ""⟩

theorem oneListing_prints (entry : InetAddr) : Prints (oneListing entry).stdout [entry] := lists_listing _

/-- A call that starts with a listing has a run there. -/
theorem listing_runs {α : Type} (entry : InetAddr) (wan : String) (f : List Ipv4Addr → HostProg α) :
    ∃ tr w' x, ((interfaceAddresses wan).bind f).Run hostEnv (oneAddress entry)
      (⟨.ip (.show wan), .exited (oneListing entry)⟩ :: tr) w' x := by
  have hanswer := answer_env (fun _ => true)
  obtain ⟨tr, w', x, hrest⟩ := Prog.exists_run (fun w o => ⟨_, _, hanswer w o⟩)
    (((Prog.ofExcept ((linuxOutput (.exited (oneListing entry))).mapError ReconcileError.linux)).bind fun output =>
      pure (parseIpv4Addresses output.stdout)).bind f) (oneAddress entry)
  exact ⟨tr, w', x, Prog.run_call.2 ⟨_, _, tr, rfl, hanswer (oneAddress entry) (.ip (.show wan)), hrest⟩⟩

/-- The address the controller added itself. -/
theorem delete_listed_host : ∃ tr w' x, (deleteAddrIfPresent "ens3" ⟨10, 0, 0, 101⟩).Run hostEnv
    (oneAddress (.host ⟨10, 0, 0, 101⟩))
    (⟨.ip (.show "ens3"), .exited (oneListing (.host ⟨10, 0, 0, 101⟩))⟩ :: tr) w' x ∧
      (AsksDelete tr "ens3" ⟨10, 0, 0, 101⟩ → .host ⟨10, 0, 0, 101⟩ ∈ [InetAddr.host ⟨10, 0, 0, 101⟩]) := by
  obtain ⟨trd, wd, xd, hdel⟩ := listing_runs (.host ⟨10, 0, 0, 101⟩) "ens3" _
  obtain ⟨tre, we, xe, hens⟩ := listing_runs (.host ⟨10, 0, 0, 101⟩) "ens3" _
  refine ⟨trd, wd, xd, hdel, (delete_listed_iff rfl (oneListing_prints _) hdel hens).1.2 ?_⟩
  intro _
  exact List.mem_cons_self

/-- **The host's own address**, `10.0.0.4/24`: the delete of `10.0.0.4/32` is asked for. -/
theorem delete_unlisted_entry : ∃ tr w' x, (deleteAddrIfPresent "ens3" ⟨10, 0, 0, 4⟩).Run hostEnv
    (oneAddress ⟨⟨10, 0, 0, 4⟩, none, 24⟩)
    (⟨.ip (.show "ens3"), .exited (oneListing ⟨⟨10, 0, 0, 4⟩, none, 24⟩)⟩ :: tr) w' x ∧
      Prints (oneListing ⟨⟨10, 0, 0, 4⟩, none, 24⟩).stdout [⟨⟨10, 0, 0, 4⟩, none, 24⟩] ∧
      ¬ (AsksDelete tr "ens3" ⟨10, 0, 0, 4⟩ → .host ⟨10, 0, 0, 4⟩ ∈ [(⟨⟨10, 0, 0, 4⟩, none, 24⟩ : InetAddr)]) := by
  obtain ⟨tr, w', x, hdel⟩ := listing_runs ⟨⟨10, 0, 0, 4⟩, none, 24⟩ "ens3" _
  refine ⟨tr, w', x, hdel, oneListing_prints _, fun himp => ?_⟩
  have hissued : AsksDelete tr "ens3" ⟨10, 0, 0, 4⟩ :=
    (deleteAddrIfPresent_asks rfl (oneListing_prints _) hdel).2 ⟨_, List.mem_cons_self, rfl⟩
  exact absurd (himp hissued) (by decide)

end EdgeRoute
