import EdgeRoute.Lib.Turns
import EdgeRoute.Proof.Latest

/-!
# The Active generation and the kernel

The log of generations and the kernel are two records of the ruleset in use, written at different
points of two functions.

* `loaded_of_follows`: a call alone loads the ruleset it rendered or fetched.
* `latest_of_quiet`: a call that loads nothing leaves the newest Active generation.
* `active_is_loaded`: **after a reconcile with all parts the newest Active generation is the loaded one, until
  another call loads.**
-/

namespace EdgeRoute

open Effect

variable {C : Codec} {config : EdgeConfig} {options : ReconcileOptions} {w w' w₀ : World} {text path : String}
  {q : Progress} {ms : List Mapping} {tr : List (Event HostSig)}

/-! ## The newest Active generation -/

/-- The row of the newest Active generation. -/
def latestRow (db : Db) : Option GenerationRow := (db.generations.filter fun g => g.status = "active").getLast?

/-- The operation records an Active generation. -/
def RecordsActive : HostOp → Prop
  | .store (.sql (.insertGeneration status _ _ _ _)) => status = "active"
  | _ => False

theorem updateMappings_generations (db : Db) (id : String) (f : Row → Row) (hf : ∀ row, (f row).id = row.id)
    (guarded : Bool) : (db.updateMappings id f hf guarded).2.generations = db.generations := by
  unfold Db.updateMappings
  split <;> rfl

/-- A statement adds a generation or leaves all as they are. -/
theorem exec_generations (db : Db) (s : Stmt) : (db.exec s).2.generations = db.generations ∨
    ∃ status text created applied error, s = .insertGeneration status text created applied error ∧
      (db.exec s).2.generations = db.generations ++ [⟨db.nextGeneration, status, text, created, applied, error⟩] := by
  cases s with
  | insertGeneration status text created applied error => exact .inr ⟨status, text, created, applied, error, rfl, rfl⟩
  | insertMapping row =>
    left
    rw [Db.exec_insertMapping]
    split <;> rfl
  | updateMapping row => exact .inl (updateMappings_generations ..)
  | updateEnabled id enabled status updatedAt => exact .inl (updateMappings_generations ..)
  | updateHealth id status health error checked updated => exact .inl (updateMappings_generations ..)
  | _ => exact .inl rfl

theorem latestRow_append {db db' : Db} {row : GenerationRow} (h : db'.generations = db.generations ++ [row])
    (hrow : row.status ≠ "active") : latestRow db' = latestRow db := by
  simp [latestRow, h, List.filter_append, hrow]

theorem latestRow_active {db db' : Db} {row : GenerationRow} (h : db'.generations = db.generations ++ [row])
    (hrow : row.status = "active") : latestRow db' = some row := by
  simp [latestRow, h, List.filter_append, hrow]

/-- **Only an Active generation becomes the newest one.** -/
theorem latestRow_step {o : HostOp} {r : o.Reply} (ho : ¬ RecordsActive o) (hE : hostEnv w o r w') :
    latestRow w'.db = latestRow w.db := by
  cases o with
  | store o =>
    obtain ⟨db', hdb, rfl⟩ := hE
    cases o with
    | now => rw [show db' = w.db from hdb]
    | sql s =>
      rcases hdb with hdb | ⟨message, -, rfl⟩
      · obtain rfl : db' = (w.db.exec s).2 := congrArg Prod.snd hdb
        rcases exec_generations w.db s with h | ⟨status, text, created, applied, error, rfl, h⟩
        · unfold latestRow; rw [h]
        · exact latestRow_append h ho
      · rfl
  | atomicWrite path text => rcases hE with ⟨-, rfl⟩ | ⟨e, -, rfl⟩ <;> rfl
  | nft mode path =>
    cases mode with
    | check => rw [hE.1]
    | apply => rcases hE.either with rfl | ⟨-, rfl⟩ <;> rfl
  | ip command =>
    cases command with
    | «show» interface => rw [hE.1]
    | add interface a => rcases hE.either with rfl | ⟨-, rfl⟩ <;> rfl
    | del interface a => rcases hE.either with rfl | ⟨-, rfl⟩ <;> rfl
  | connect ip port => rw [show w' = w from hE]

/-- `latest_active_generation` returns `x`, where its statement is executed. -/
def Latest (C : Codec) (db : Db) (x : Except EdgeCoreError (Option Generation)) : Prop :=
  ∃ tr db', (latestActiveGeneration C).Run execEnv db tr db' x

theorem latest_iff {db : Db} {x : Except EdgeCoreError (Option Generation)} :
    Latest C db x ↔ x = transposeMap (rowToGeneration C) (latestRow db) := by
  constructor
  · rintro ⟨tr, db', h⟩
    obtain ⟨r, db₁, tr₁, -, hE, hrest⟩ := Prog.run_call.1 h
    obtain ⟨rfl, rfl⟩ : r = .ok (latestRow db) ∧ db₁ = db := Prod.mk.inj hE
    exact (Prog.run_ofExcept.1 hrest).2.2
  · rintro rfl
    exact ⟨_, _, Prog.run_call.2 ⟨_, _, [], rfl, rfl, Prog.run_ofExcept.2 ⟨rfl, rfl, rfl⟩⟩⟩

/-! ## Recording -/

/-- A statement that returned was executed. -/
theorem sql_executed {s : Stmt} {db db' : Db} {tr : List (Event StoreSig)} {out : s.Out}
    (h : (sql s).Run storeEnv db tr db' (.ok out)) : db.exec s = (.ok out, db') := by
  obtain ⟨r, db₁, tr₁, -, hE, hrest⟩ := Prog.run_call.1 h
  obtain ⟨-, rfl, hr⟩ := Prog.run_ofExcept.1 hrest
  cases r with
  | error e => cases hr
  | ok a =>
    obtain rfl := Except.ok.inj hr
    rcases hE with hE | ⟨message, hm, -⟩
    · exact hE.symm
    · cases hm

theorem nowUtc_run {db db' : Db} {tr : List (Event StoreSig)} {now : OffsetDateTime}
    (h : nowUtc.Run storeEnv db tr db' (.ok now)) : db' = db := by
  obtain ⟨r, db₁, tr₁, -, hE, hret⟩ := Prog.run_call.1 h
  obtain ⟨-, rfl, -⟩ := Prog.run_ret.1 hret
  exact hE

/-- A recorded generation is the last row, and reads back as it was recorded. -/
theorem recordGeneration_ok {status : GenerationStatus} {appliedAt : Option OffsetDateTime} {error : Option String}
    {generation : Generation}
    (h : (liftStore (recordGeneration C status text appliedAt error)).Run hostEnv w tr w' (.ok generation)) :
    ∃ row, w'.db.generations = w.db.generations ++ [row] ∧
      enumString GenerationStatus.names status = .ok row.status ∧ rowToGeneration C row = .ok generation ∧
      generation.nftablesConfig = text := by
  obtain ⟨tr', db', y, hrun, rfl, hy⟩ := liftStore_run h
  cases y with
  | error e => cases hy
  | ok g =>
    obtain rfl := Except.ok.inj hy
    unfold recordGeneration at hrun
    split at hrun
    · cases (Prog.run_fail.1 hrun).2.2
    · obtain ⟨now, db₁, tr₁, tr₂, -, hnow, hrest⟩ := Prog.run_bind_ok.1 hrun
      obtain rfl := nowUtc_run hnow
      obtain ⟨s, hs, hrest⟩ := Prog.run_ofExcept_bind_ok.1 hrest
      obtain ⟨created, hcreated, hrest⟩ := Prog.run_ofExcept_bind_ok.1 hrest
      obtain ⟨applied, happlied, hrest⟩ := Prog.run_ofExcept_bind_ok.1 hrest
      obtain ⟨id, db₂, tr₃, tr₄, -, hins, hrest⟩ := Prog.run_bind_ok.1 hrest
      obtain ⟨-, rfl, hg⟩ := Prog.run_ret.1 hrest
      obtain ⟨hid, hdb⟩ := Prod.mk.inj (sql_executed hins)
      obtain rfl := Except.ok.inj hid
      obtain rfl := Except.ok.inj hg
      refine ⟨⟨w.db.nextGeneration, s, text, created, applied, error⟩, by rw [← hdb], hs, ?_, rfl⟩
      simp only [rowToGeneration, enumFromString_enumString (by decide) hs,
        parseTime_formatTime hcreated, parseTime_transpose happlied]
      rfl

/-- The row of the newest Active generation holds `text`. -/
def ActiveText (C : Codec) (db : Db) (text : String) : Prop :=
  ∃ row generation, latestRow db = some row ∧ rowToGeneration C row = .ok generation ∧
    generation.nftablesConfig = text

theorem inactive_of_quiet {o : HostOp} (hq : q.ruleset = none) (h : (protocol C).Quiet q o) : ¬ RecordsActive o := by
  intro ho
  cases o with
  | store o =>
    cases o with
    | now => exact ho
    | sql s =>
      cases s with
      | insertGeneration status text created applied error =>
        have hrule : q.ruleset = some text := h.1.1
        rw [hq] at hrule
        cases hrule
      | _ => exact ho
  | _ => exact ho

/-- What a call may do that fetched no ruleset leaves the newest Active generation. -/
theorem latestRow_of_quiet {α : Type} {p : HostProg α} {x : Except ReconcileError α} (hq : q.ruleset = none)
    (hp : p.Uses ((protocol C).Quiet q)) (h : p.Run hostEnv w tr w' x) : latestRow w'.db = latestRow w.db := by
  refine Prog.run_frame (fun w => latestRow w.db) h fun e he s s' hE => ?_
  exact latestRow_step (inactive_of_quiet hq (hp.mem h e he)) hE

theorem recordActive_ok {id : ℤ} (h : (recordActive C text ms).Run hostEnv w tr w' (.ok id)) :
    ActiveText C w'.db text := by
  obtain ⟨now, w₁, tr₁, tr₂, -, -, hrest⟩ := Prog.run_bind_ok.1 h
  obtain ⟨active, w₂, tr₃, tr₄, -, hgen, hrest⟩ := Prog.run_bind_ok.1 hrest
  obtain ⟨row, hrows, hstatus, hrow, htext⟩ := recordGeneration_ok hgen
  refine ⟨row, active, ?_, hrow, htext⟩
  have hactive : row.status = "active" := (Except.ok.inj hstatus).symm
  -- the health loop and the event record no generation
  have hquiet : latestRow w'.db = latestRow w₂.db := by
    refine latestRow_of_quiet (C := C) (q := ⟨none, "", false, false, true, none, .idle⟩) rfl ?_ hrest
    refine Prog.uses_bind (quiet_recordHealths (.inl rfl) _) fun _ => ?_
    exact Prog.uses_bind (quiet_recordEvent _ _ _) fun _ => Prog.uses_ret
  rw [hquiet, latestRow_active hrows hactive]

/-! ## Loading -/

/-- What a call alone knows: the file holds its ruleset once it wrote it, the kernel once it loaded it. -/
structure Loaded (q : Progress) (w : World) : Prop where
  file : q.stage = .written ∨ q.stage = .checked → w.files q.path = q.ruleset
  kernel : q.stage = .loaded → w.kernel = q.ruleset

theorem Loaded.of_stage (hw : q.stage ≠ .written) (hc : q.stage ≠ .checked) (hl : q.stage ≠ .loaded) : Loaded q w :=
  ⟨fun h => absurd h (by simp [hw, hc]), fun h => absurd h hl⟩

/-- The same ruleset at the same stage, of the same files and kernel. -/
theorem Loaded.same {q' : Progress} (h : Loaded q w) (hstage : q'.stage = q.stage) (hpath : q'.path = q.path)
    (hrule : q.stage ≠ .idle → q'.ruleset = q.ruleset) (hfiles : w'.files = w.files) (hkernel : w'.kernel = w.kernel) :
    Loaded q' w' where
  file hs := by
    rw [hstage] at hs
    rw [hfiles, hpath, hrule (by rcases hs with hs | hs <;> simp [hs]), h.file hs]
  kernel hs := by
    rw [hstage] at hs
    rw [hkernel, hrule (by simp [hs]), h.kernel hs]

theorem loaded_step {o : HostOp} {r : o.Reply} (h : Loaded q w) (hallow : (protocol C).allow q o)
    (hE : hostEnv w o r w') : Loaded ((protocol C).next q ⟨o, r⟩) w' := by
  have hrule : q.stage ≠ .idle → ((protocol C).next q ⟨o, r⟩).ruleset = q.ruleset := next_ruleset hallow
  have hpath := (next_sameCall (C := C) (q := q) ⟨o, r⟩).path
  cases o with
  | store o =>
    obtain ⟨db', -, rfl⟩ := hE
    exact h.same (next_stage (by simp) (by simp)) hpath hrule rfl rfl
  | atomicWrite path text =>
    obtain ⟨rfl, htext, -⟩ := hallow
    rcases hE with ⟨rfl, rfl⟩ | ⟨e, rfl, rfl⟩
    · exact ⟨fun _ => (Function.update_self ..).trans htext.symm, fun hs => by cases hs⟩
    · exact Loaded.of_stage (fun hs => by cases hs) (fun hs => by cases hs) (fun hs => by cases hs)
  | nft mode path =>
    cases mode with
    | check =>
      obtain ⟨rfl, hstage⟩ := hallow
      obtain ⟨rfl, -⟩ := hE
      by_cases hs : r.Succeeded
      · have hq : (protocol C).next q ⟨.nft .check q.path, r⟩ = q.atStage .checked := by
          simp [protocol, Progress.onCheck, hs]
        rw [hq]
        exact ⟨fun _ => h.file (.inl hstage), fun hl => by cases hl⟩
      · have hq : (protocol C).next q ⟨.nft .check q.path, r⟩ = q.atStage .failed := by
          simp [protocol, Progress.onCheck, hs]
        rw [hq]
        exact Loaded.of_stage (fun hs => by cases hs) (fun hs => by cases hs) (fun hs => by cases hs)
    | apply =>
      obtain ⟨rfl, hstage, -⟩ := hallow
      by_cases hs : r.Succeeded
      · obtain ⟨-, rfl⟩ := hE.succeeded hs
        have hq : (protocol C).next q ⟨.nft .apply q.path, r⟩ = q.atStage .loaded := by
          simp [protocol, Progress.onApply, hs]
        rw [hq]
        exact ⟨fun hw => by simp at hw, fun _ => h.file (.inr hstage)⟩
      · have hq : ((protocol C).next q ⟨.nft .apply q.path, r⟩).stage = .failed ∨
            ((protocol C).next q ⟨.nft .apply q.path, r⟩).stage = .torn := by
          by_cases hr : r.Rejected
          · left; simp [protocol, Progress.onApply, hs, hr]
          · right; simp [protocol, Progress.onApply, hs, hr]
        rcases hq with hq | hq <;> exact Loaded.of_stage (by simp [hq]) (by simp [hq]) (by simp [hq])
  | ip command =>
    refine h.same rfl rfl (fun _ => rfl) ?_ ?_
    all_goals
      cases command with
      | «show» interface => rw [hE.1]
      | add interface a => rcases hE.either with rfl | ⟨-, rfl⟩ <;> rfl
      | del interface a => rcases hE.either with rfl | ⟨-, rfl⟩ <;> rfl
  | connect ip port => rw [show w' = w from hE]; exact h

/-- **A reconcile with all parts that returned has loaded what it recorded.** -/
theorem full_reconcile_ok {report : ReconcileReport} (hfull : options.Full)
    (h : (reconcile C config options).Run hostEnv w tr w' (.ok report)) :
    ∃ text, w'.kernel = some text ∧ ActiveText C w'.db text := by
  rcases reconcile_cases h with ⟨-, e, he⟩ | ⟨ms, plan, -, -, ⟨hdry, -⟩ | ⟨-, -, r, tr', rfl, hrun⟩⟩
  · cases he
  · exact absurd (hfull.dryRun.symm.trans hdry) (by decide)
  · refine ⟨plan.1, ?_, ?_⟩
    · have hwp := Prog.wpOk_iff.1 
        (show Prog.wpOk _ (applyReconcile C config options ms plan.1 plan.2) _ _ from applyReconcile_follows
        (q := { (HostCall.reconcile config options).start with ruleset := some plan.1 }) ⟨rfl, rfl, rfl, rfl⟩ rfl rfl)
      have hend := (Prog.wp_run hwp hrun).1 report rfl
      have hinv := Prog.wp_run_inv (I := Loaded) hwp
        (Loaded.of_stage (fun hs => nomatch hs) (fun hs => nomatch hs) (fun hs => nomatch hs))
        (fun _ _ _ _ _ h hallow hE => loaded_step h hallow hE) hrun
      rw [hend] at hinv
      exact hinv.kernel (by simp [ReconcileOptions.lastStage, hfull.applyNft])
    · obtain ⟨generation, w₁, t₁, t₂, -, -, hrest⟩ := Prog.run_bind_ok.1 hrun
      obtain ⟨-, w₂, t₃, t₄, -, -, hrest⟩ := Prog.run_bind_ok.1 hrest
      obtain ⟨-, w₃, t₅, t₆, -, -, hrest⟩ := Prog.run_bind_ok.1 hrest
      obtain ⟨-, w₄, t₇, t₈, -, -, hrest⟩ := Prog.run_bind_ok.1 hrest
      obtain ⟨changes, w₅, t₉, t₁₀, -, -, hrest⟩ := Prog.run_bind_ok.1 hrest
      obtain ⟨id, w₆, t₁₁, t₁₂, -, hrec, hrest⟩ := Prog.run_bind_ok.1 hrest
      obtain ⟨-, rfl, -⟩ := Prog.run_ret.1 hrest
      rw [recordStep, hfull.applyNft, hfull.applyLinux] at hrec
      exact recordActive_ok hrec

/-! ## Calls in turn -/

/-- The call loaded a ruleset: an `nft -f` of it succeeded, or the kernel holds another one than before. -/
def Loads (t : Turn HostSig ReconcileError Unit HostCall World) : Prop :=
  (∃ path r, (⟨.nft .apply path, r⟩ : Event HostSig) ∈ t.trace ∧ Outcome.Succeeded r) ∨ t.after.kernel ≠ t.before.kernel

/-- **A call that loads nothing records no Active generation.** -/
theorem latest_of_quiet {t : Turn HostSig ReconcileError Unit HostCall World} (ht : t.Ran hostEnv (HostCall.prog C))
    (hload : ¬ Loads t) : latestRow t.after.db = latestRow t.before.db ∧ t.after.kernel = t.before.kernel := by
  obtain ⟨happly, hkernel⟩ := not_or.1 hload
  refine ⟨?_, not_not.1 hkernel⟩
  have haccepts := (Prog.wp_run (Prog.wpOk_iff.1 (call_follows t.call)) ht).2
  refine Prog.run_frame (fun w => latestRow w.db) ht fun e he s s' hE => latestRow_step ?_ hE
  intro hactive
  obtain ⟨pre, post, htr⟩ := List.append_of_mem he
  rw [htr] at haccepts
  obtain ⟨o, r⟩ := e
  have hallow := haccepts.allow_of_split
  have hstage : ((protocol C).after t.call.start pre).stage = .loaded := by
    cases o with
    | store o =>
      cases o with
      | now => exact absurd hactive id
      | sql s =>
        cases s with
        | insertGeneration status text created applied error => exact hallow.2 hactive
        | _ => exact absurd hactive id
    | _ => exact absurd hactive id
  have hhistory := history_of_accepts ((Monitor.accepts_append _ _).1 haccepts).1 (start_idle t.call).1
  unfold History at hhistory
  rw [hstage] at hhistory
  obtain ⟨x, r, y, hr, hpre, -⟩ := hhistory
  have hmem : ∀ e, pre = x ++ e :: y → e ∈ pre := fun e he => by rw [he]; simp
  refine happly ⟨_, r, ?_, hr⟩
  rw [htr]
  exact List.mem_append_left _ (hmem _ hpre)

/-- The program records no Active generation. -/
abbrev Inactive {α : Type} (p : HostProg α) : Prop := p.Uses fun o => ¬ RecordsActive o

theorem inactive_load : AdmitsLoad fun o => ¬ RecordsActive o where
  now h := h
  event _ _ _ _ h := h
  generation _ _ _ _ _ hstatus h := hstatus h
  write _ _ h := h
  nft _ _ h := h

/-- **A reconcile that leaves a part out records no Active generation.** -/
theorem inactive_reconcile (h : (options.applyNft && options.applyLinux) = false) :
    Inactive (reconcile C config options) := by
  refine reconcile_uses_of inactive_load (fun h => h) (fun _ h => h) fun ms text generation => ?_
  rw [recordStep, h]
  exact recordPartial_uses inactive_load.toAdmitsEvents

/-- **A rollback records no generation.** -/
theorem inactive_rollback {id : ℤ} : Inactive (rollback C id path) := rollback_uses inactive_load fun h => h

/-- The calls that load without a record of it: a rollback, and a reconcile that leaves a part out. -/
def HostCall.LeavesOut : HostCall → Prop
  | .reconcile _ options => (options.applyNft && options.applyLinux) = false
  | .rollback _ _ => True
  | _ => False

theorem Inactive.latest {α : Type} {p : HostProg α} {x : Except ReconcileError α} (h : Inactive p)
    (hr : p.Run hostEnv w tr w' x) : latestRow w'.db = latestRow w.db :=
  Prog.run_frame (fun w => latestRow w.db) hr fun e he _ _ hE => latestRow_step (h.mem hr e he) hE

theorem inactive_of_leavesOut {call : HostCall} (h : call.LeavesOut) : Inactive (call.prog C) := by
  cases call with
  | store call => exact absurd h id
  | reconcile config options => exact Prog.uses_bind (inactive_reconcile h) fun _ => Prog.uses_ret
  | rollback id path => exact inactive_rollback
  | apiDelete config id => exact absurd h (fun h => h)

/-- **After a reconcile with all parts the newest Active generation is the loaded one, until another call loads.**
The calls that load and record no Active generation leave `latest_active_generation` as it was. -/
theorem active_is_loaded {ts : List (Turn HostSig ReconcileError Unit HostCall World)}
    (h : InTurn hostEnv (HostCall.prog C) w₀ ts w) :
    (∀ a t b config options, ts = a ++ t :: b → t.call = .reconcile config options → options.Full → t.result = .ok () →
      (∀ u ∈ b, ¬ Loads u) →
      ∃ generation, (∀ x, Latest C w.db x ↔ x = .ok (some generation)) ∧ w.kernel = some generation.nftablesConfig) ∧
    ∀ t ∈ ts, t.call.LeavesOut → ∀ x, Latest C t.after.db x ↔ Latest C t.before.db x := by
  constructor
  · intro a t b config options hts hcall hfull hok hquiet
    have hlast : ∃ text, w.kernel = some text ∧ ActiveText C w.db text := by
      refine h.since hts (fun w => ∃ text, w.kernel = some text ∧ ActiveText C w.db text) (fun hran => ?_) ?_
      · unfold Turn.Ran at hran
        rw [hcall, hok] at hran
        obtain ⟨report, w₁, t₁, t₂, -, hrec, hret⟩ := Prog.run_bind_ok.1 hran
        obtain ⟨-, hw, -⟩ := Prog.run_ret.1 hret
        rw [hw]
        exact full_reconcile_ok hfull hrec
      · rintro u hu hran ⟨text, hkernel, row, generation, hrow, hrest⟩
        obtain ⟨hlatest, hsame⟩ := latest_of_quiet hran (hquiet u hu)
        exact ⟨text, hsame.trans hkernel, row, generation, hlatest.trans hrow, hrest⟩
    obtain ⟨text, hkernel, row, generation, hrow, hdec, rfl⟩ := hlast
    refine ⟨generation, fun x => ?_, hkernel⟩
    rw [latest_iff, hrow, transposeMap, hdec]
    rfl
  · intro t ht hpart x
    rw [latest_iff, latest_iff, (inactive_of_leavesOut hpart).latest (h.ran t ht)]

/-- The call of one client, made on the empty host. -/
theorem sample_turn (options : ReconcileOptions) (hdry : options.dryRun = false) (hxdp : options.xdp.enabled = false) :
    ∃ (t : Turn HostSig ReconcileError Unit HostCall World) (text : String),
      InTurn hostEnv (HostCall.prog sampleCodec) emptyHost [t] t.after ∧ t.before = emptyHost ∧
      t.call = .reconcile sampleConfig options ∧ t.result = .ok () ∧
      t.after.kernel = if options.applyNft then some text else none := by
  have hlist : sampleListing emptyHost.db = some [] := by decide
  obtain ⟨text, -, tr, w, report, hrec, hdone⟩ := sample_can options hlist hdry hxdp fun _ => by simp [Plain]
  let t : Turn HostSig ReconcileError Unit HostCall World := ⟨.reconcile sampleConfig options, emptyHost, tr, .ok (), w⟩
  have hran : t.Ran hostEnv (HostCall.prog sampleCodec) :=
    Prog.run_bind_ok.2 ⟨report, w, tr, [], (List.append_nil tr).symm, hrec, Prog.run_ret.2 ⟨rfl, rfl, rfl⟩⟩
  have hturn : InTurn hostEnv (HostCall.prog sampleCodec) emptyHost ([] ++ [t]) t.after := .next .init hran
  exact ⟨t, text, hturn, rfl, rfl, rfl, hdone.kernel⟩

/-- A reconcile that leaves the addresses out: it loads the ruleset and returns, and there is no Active generation. -/
theorem partial_apply_unrecorded : ∃ (t : Turn HostSig ReconcileError Unit HostCall World) (w : World),
    InTurn hostEnv (HostCall.prog sampleCodec) emptyHost [t] w ∧
      t.call = .reconcile sampleConfig { applyLinux := false } ∧ Loads t ∧ t.result = .ok () ∧
      ¬ ∃ generation, Latest sampleCodec w.db (.ok (some generation)) ∧ w.kernel = some generation.nftablesConfig := by
  obtain ⟨t, text, hturn, hbefore, hcall, hok, hkernel⟩ := sample_turn { applyLinux := false } rfl rfl
  refine ⟨t, t.after, hturn, hcall, .inr ?_, hok, ?_⟩
  · rw [hkernel, hbefore]
    exact fun h => nomatch h
  rintro ⟨generation, hlatest, -⟩
  have hpart : t.call.LeavesOut := by rw [hcall]; rfl
  rw [latest_iff, (inactive_of_leavesOut hpart).latest (hturn.ran t (by simp)), hbefore] at hlatest
  exact nomatch hlatest

/-- The same reconcile with all parts. -/
theorem active_is_loaded_full : ∃ (t : Turn HostSig ReconcileError Unit HostCall World) (generation : Generation),
    InTurn hostEnv (HostCall.prog sampleCodec) emptyHost [t] t.after ∧ t.call = .reconcile sampleConfig {} ∧
      Latest sampleCodec t.after.db (.ok (some generation)) ∧ t.after.kernel = some generation.nftablesConfig := by
  obtain ⟨t, text, hturn, -, hcall, hok, -⟩ := sample_turn {} rfl rfl
  obtain ⟨generation, hlatest, hkernel⟩ :=
    (active_is_loaded hturn).1 [] t [] sampleConfig {} rfl hcall ⟨rfl, rfl, rfl⟩ hok (by simp)
  exact ⟨t, generation, hturn, hcall, (hlatest _).2 rfl, hkernel⟩

end EdgeRoute
