import EdgeRoute.Proof.Fronts
import EdgeRoute.Spec.Disk

/-!
# What is on record

The table of generations is the history of the rulesets. A call writes no text that it has not put on record or
fetched from it, and a generation says of its call only what the call has done.

* `Backed`: what a call has to have seen before it asks for an operation.
* `reconcile_backed`, `rollback_backed`, `fronts_backed`: **the calls of both front ends keep to it.**
* `rulesets_on_record`: every file and every ruleset that a call put in place is the text of a generation.
* `generations_backed`: a generation is Validated or Active only after its call wrote, checked and loaded its text.
-/

namespace EdgeRoute

open Effect

variable {C : Codec} {J : OciJson} {N : String → Except String NetbirdStatus} {D : Option OciError → String}
  {text path : String} {q : List (Event HostSig)} {ε α : Type}

/-! ## Events -/

/-- The event of the host in an event of a front end. -/
def hostEvent : Event AgentSig → Option (Event HostSig)
  | ⟨.host o, r⟩ => some ⟨o, r⟩
  | _ => none

/-- A generation with the text was recorded as Rendered. -/
def Rendered (text : String) : Event HostSig → Prop
  | ⟨.store (.sql (.insertGeneration status text' _ _ _)), .ok _⟩ => status = "rendered" ∧ text' = text
  | _ => False

/-- A generation with the text was fetched. -/
def Fetched (text : String) : Event HostSig → Prop
  | ⟨.store (.sql (.selectGeneration _)), .ok (some row)⟩ => row.nftablesConfig = text
  | _ => False

/-- The text is that of a generation. -/
def Filed (text : String) (e : Event HostSig) : Prop := Rendered text e ∨ Fetched text e

/-- The text was written to the path. -/
def Saved (path text : String) (e : Event HostSig) : Prop := wroteTo path e = some text

/-- `nft` exited with status zero on the path. -/
def Passed (mode : NftMode) (path : String) : Event HostSig → Prop
  | ⟨.nft mode' path', r⟩ => mode' = mode ∧ path' = path ∧ r.Succeeded
  | _ => False

/-- `nft -f` put a ruleset into the kernel and said so. -/
def PutInPlace (e : Event HostSig) : Prop := ∃ path, Passed .apply path e

/-- What a call has to have seen before it records a generation. -/
structure BackedGeneration (q : List (Event HostSig)) (status text : String) (error : Option String) : Prop where
  validated : status = "validated" → ∃ path, Occurs [Rendered text, Saved path text, Passed .check path] q
  active : status = "active" →
    ∃ path, Occurs [Rendered text, Saved path text, Passed .check path, Passed .apply path] q
  failed : status = "failed" → Occurs [Rendered text] q ∧ error ≠ none

/-- What a call has to have seen before it asks for an operation. -/
def Backed (q : List (Event HostSig)) : HostOp → Prop
  | .store (.sql (.insertGeneration status text _ _ error)) => BackedGeneration q status text error
  | .atomicWrite _ text => Occurs [Filed text] q
  | .nft .check path => ∃ text, Occurs [Filed text, Saved path text] q
  | .nft .apply path => ∃ text, Occurs [Filed text, Saved path text, Passed .check path] q
  | _ => True

/-- The monitor of a store method, of a call of the host and of a call of a front end. -/
abbrev storeLedger : Monitor StoreSig (List (Event HostSig)) :=
  .recall (fun e => some ⟨.store e.op, e.reply⟩) fun q o => Backed q (.store o)

abbrev hostLedger : Monitor HostSig (List (Event HostSig)) := .recall some Backed

abbrev frontLedger : Monitor AgentSig (List (Event HostSig)) :=
  .recall hostEvent fun q o => match o with | .host o => Backed q o | _ => True

theorem Filed.of_rendered {q : List (Event HostSig)} {ps : List (Event HostSig → Prop)}
    (h : Occurs (Rendered text :: ps) q) : Occurs (Filed text :: ps) q := by
  obtain ⟨es, hsub, hall⟩ := h
  cases hall with
  | cons he hall => exact ⟨_, hsub, .cons (.inl he) hall⟩

theorem liftStore_backed {p : StoreProg α} {post : List (Event HostSig) → α → Prop} (h : p.wpOk storeLedger post q) :
    (liftStore p).wpOk hostLedger post q :=
  Prog.wpOk_mapErr (Prog.wpOk_embed (T := HostSig) (ι := HostOp.store) (M := storeLedger) (N := hostLedger)
    (fun _ _ ho => ho) (fun _ _ _ => rfl) h)

/-! ## Store methods -/

/-- Every statement but the record of a generation. -/
def RecordsNone : StoreOp → Prop
  | .sql (.insertGeneration _ _ _ _ _) => False
  | _ => True

theorem backed_of_recordsNone {o : StoreOp} (h : RecordsNone o) (q : List (Event HostSig)) : Backed q (.store o) := by
  cases o with
  | now => trivial
  | sql s => cases s <;> trivial

theorem keeps_of_recordsNone {p : StoreProg α} (h : p.Uses RecordsNone) : p.Keeps storeLedger :=
  Prog.keeps_of_uses (Prog.uses_mono (fun _ ho q => backed_of_recordsNone ho q) h)

/-- A generation that is backed may be recorded; one recorded as Rendered is on record from then on. -/
theorem recordGeneration_backed {status : GenerationStatus} {appliedAt : Option OffsetDateTime} {error : Option String}
    (hb : ∀ q' s, q <+: q' → enumString GenerationStatus.names status = .ok s → BackedGeneration q' s text error) :
    (recordGeneration C status text appliedAt error).wpOk storeLedger
      (fun q' _ => q <+: q' ∧ (status = .rendered → Occurs [Rendered text] q')) q := by
  refine Prog.wpOk_extends ?_
  unfold recordGeneration
  split
  · exact Prog.wpOk_fail
  refine Prog.wpOk_call (M := storeLedger) trivial fun createdAt => ?_
  rw [Prog.bind_ret_left]
  refine Prog.wpOk_bind (Prog.wpOk_ofExcept fun s hs => Prog.wpOk_bind (Prog.wpOk_ofExcept fun c _ => ?_))
  refine Prog.wpOk_bind (Prog.wpOk_ofExcept fun a _ => ?_)
  refine Prog.wpOk_call (M := storeLedger) (hb _ s (List.prefix_append ..) hs) fun r => ?_
  cases r with
  | error e => exact Prog.wpOk_fail
  | ok id =>
    refine Prog.wpOk_ret fun hstatus => ?_
    subst hstatus
    obtain rfl := Except.ok.inj hs
    exact occurs_last (show Rendered text ⟨_, _⟩ from ⟨rfl, rfl⟩)

/-- A statement of a reconcile that records no generation. -/
theorem recordEvent_backed {level : EventLevel} {message : String} {data : Option String} :
    (liftStore (recordEvent C level message data)).Keeps hostLedger := fun _ =>
  liftStore_backed (keeps_of_recordsNone (recordEvent_uses C trivial fun _ _ => trivial) _)

/-! ## A reconcile -/

theorem recordFailure_backed {event message : String} {error : ReconcileError} {post : List (Event HostSig) → α → Prop}
    (h : Occurs [Rendered text] q) : (recordFailure C text event message error).wpOk hostLedger post q := by
  refine Prog.wpOk_bind (Prog.wpOk_mono (fun q' _ _ => ?_) (liftStore_backed (recordGeneration_backed ?_)))
  · exact Prog.wpOk_bind (Prog.wpOk_mono (fun _ _ _ => Prog.wpOk_fail) (recordEvent_backed q'))
  · intro q' s hq hs
    obtain rfl := Except.ok.inj hs
    exact ⟨fun h => by simp at h, fun h => by simp at h, fun _ => ⟨h.mono hq.sublist, Option.some_ne_none _⟩⟩

theorem writeRuleset_backed (h : Occurs [Rendered text] q) :
    (writeRuleset C path text).wpOk hostLedger (fun q' _ => Occurs [Rendered text, Saved path text] q') q := by
  refine Prog.wpOk_call (M := hostLedger) (Filed.of_rendered h) fun r => ?_
  rw [Prog.bind_ret_left]
  cases r with
  | ok u => exact Prog.wpOk_ret (h.snoc (show Saved path text _ by simp [Saved, wroteTo]))
  | error e => exact recordFailure_backed (h.mono (List.sublist_append_left ..))

theorem checkRuleset_backed (h : Occurs [Rendered text, Saved path text] q) :
    (checkRuleset C path text).wpOk hostLedger
      (fun q' _ => Occurs [Rendered text, Saved path text, Passed .check path] q') q := by
  refine Prog.wpOk_call (M := hostLedger) ⟨text, Filed.of_rendered h⟩ fun r => ?_
  cases r with
  | timedOut => exact Prog.wpOk_fail
  | ioError message => exact Prog.wpOk_fail
  | exited output =>
    simp only [nftOutput, Except.mapError, Prog.ofExcept, Prog.bind_ret_left]
    split
    · rename_i hs
      have hchecked := h.snoc (show Passed .check path (⟨.nft .check path, .exited output⟩ : Event HostSig) from
        ⟨rfl, rfl, hs⟩)
      refine Prog.wpOk_bind (Prog.wpOk_mono (fun q' _ hq' => ?_) (liftStore_backed (recordGeneration_backed ?_)))
      · exact Prog.wpOk_ret (hchecked.mono hq'.1.sublist)
      · intro q' s hq hs
        obtain rfl := Except.ok.inj hs
        exact ⟨fun _ => ⟨path, hchecked.mono hq.sublist⟩, fun h => by simp at h, fun h => by simp at h⟩
    · exact recordFailure_backed (h.head.mono (List.sublist_append_left ..))

theorem applyStep_backed {options : ReconcileOptions}
    (h : Occurs [Rendered text, Saved options.nftOutput text, Passed .check options.nftOutput] q) :
    (applyStep C options text).wpOk hostLedger (fun q' _ => options.applyNft = true → Occurs
      [Rendered text, Saved options.nftOutput text, Passed .check options.nftOutput,
        Passed .apply options.nftOutput] q') q := by
  unfold applyStep
  split
  · refine Prog.wpOk_call (M := hostLedger) ⟨text, Filed.of_rendered h⟩ fun r => ?_
    cases r with
    | timedOut => exact Prog.wpOk_fail
    | ioError message => exact Prog.wpOk_fail
    | exited output =>
      simp only [nftOutput, Except.mapError, Prog.ofExcept, Prog.bind_ret_left]
      split
      · rename_i hs
        exact Prog.wpOk_ret fun _ => h.snoc (show Passed .apply options.nftOutput
          (⟨.nft .apply options.nftOutput, .exited output⟩ : Event HostSig) from ⟨rfl, rfl, hs⟩)
      · exact recordFailure_backed (h.head.mono (List.sublist_append_left ..))
  · rename_i hno
    exact Prog.wpOk_ret fun h => absurd h hno

/-- Operations of a reconcile that are backed by nothing. -/
theorem recordHealths_backed (ms : List Mapping) : (recordHealths C ms).Keeps hostLedger := by
  refine Prog.keeps_of_uses (recordHealths_uses ⟨⟨?_, ?_⟩, ?_, ?_, ?_⟩) <;> intros <;> trivial

theorem addressStep_backed {config : EdgeConfig} {options : ReconcileOptions} {ms : List Mapping} :
    (addressStep config options ms).Keeps hostLedger := Prog.keeps_of_uses (addressStep_uses fun _ _ => trivial)

/-- The Active generation is recorded after the load. -/
theorem recordStep_backed {options : ReconcileOptions} {ms : List Mapping} {generation : Generation}
    (h : options.applyNft = true → Occurs
      [Rendered text, Saved options.nftOutput text, Passed .check options.nftOutput,
        Passed .apply options.nftOutput] q) :
    (recordStep C options ms text generation).wpOk hostLedger (fun _ _ => True) q := by
  unfold recordStep
  split
  · rename_i hboth
    have hloaded := h (Bool.and_eq_true_iff.1 hboth).1
    refine Prog.wpOk_bind (Prog.wpOk_mono ?_ (Prog.wpOk_extends
      (liftStore_backed (p := nowUtc) (keeps_of_recordsNone (uses_nowUtc trivial) q))))
    rintro q₁ now ⟨hq₁, -⟩
    refine Prog.wpOk_bind (Prog.wpOk_mono ?_ (liftStore_backed (recordGeneration_backed ?_)))
    · intro q₂ active _
      refine Prog.wpOk_bind (Prog.wpOk_mono (fun q₃ _ _ => ?_) (recordHealths_backed _ q₂))
      exact Prog.wpOk_bind (Prog.wpOk_mono (fun _ _ _ => Prog.wpOk_ret trivial) (recordEvent_backed q₃))
    · intro q' s hq hs
      obtain rfl := Except.ok.inj hs
      exact ⟨fun h => by simp at h, fun _ => ⟨_, hloaded.mono (hq₁.trans hq).sublist⟩, fun h => by simp at h⟩
  · exact Prog.wpOk_bind (Prog.wpOk_mono (fun _ _ _ => Prog.wpOk_ret trivial) (recordEvent_backed q))

theorem applyReconcile_backed {config : EdgeConfig} {options : ReconcileOptions} {ms : List Mapping} {plan : XdpPlan} :
    (applyReconcile C config options ms text plan).Keeps hostLedger := by
  intro q
  refine Prog.wpOk_bind (Prog.wpOk_mono ?_ (liftStore_backed (recordGeneration_backed ?_)))
  · rintro q₁ generation ⟨-, hrendered⟩
    refine Prog.wpOk_bind (Prog.wpOk_mono (fun q₂ _ hwrote => ?_) (writeRuleset_backed (hrendered rfl)))
    refine Prog.wpOk_bind (Prog.wpOk_mono (fun q₃ _ hchecked => ?_) (checkRuleset_backed hwrote))
    refine Prog.wpOk_bind (Prog.wpOk_mono (fun q₄ _ hloaded => ?_) (applyStep_backed hchecked))
    refine Prog.wpOk_bind (Prog.wpOk_mono ?_ (Prog.wpOk_extends (addressStep_backed q₄)))
    rintro q₅ changes ⟨hq₅, -⟩
    refine Prog.wpOk_bind (Prog.wpOk_mono (fun _ _ _ => Prog.wpOk_ret trivial) (recordStep_backed fun happly => ?_))
    exact (hloaded happly).mono hq₅.sublist
  · intro q' s _ hs
    obtain rfl := Except.ok.inj hs
    exact ⟨fun h => by simp at h, fun h => by simp at h, fun h => by simp at h⟩

/-- **A reconcile is backed.** -/
theorem reconcile_backed (config : EdgeConfig) (options : ReconcileOptions) :
    (reconcile C config options).Keeps hostLedger := by
  have hlist : (liftStore (listMappings C)).Keeps hostLedger := fun _ =>
    liftStore_backed (keeps_of_recordsNone (Prog.uses_bind
      (uses_sql (P := RecordsNone) (s := .selectMappings) trivial) fun _ => Prog.uses_ofExcept) _)
  refine Prog.keeps_bind hlist fun ms => Prog.keeps_bind Prog.keeps_ofExcept fun plan => ?_
  split
  · exact Prog.keeps_ret
  split
  · exact Prog.keeps_fail
  · exact applyReconcile_backed

/-! ## A rollback -/

/-- A row is read with its text. -/
theorem rowToGeneration_text {row : GenerationRow} {generation : Generation}
    (h : rowToGeneration C row = .ok generation) : generation.nftablesConfig = row.nftablesConfig := by
  unfold rowToGeneration at h
  obtain ⟨status, -, h⟩ := except_bind_ok.1 h
  obtain ⟨createdAt, -, h⟩ := except_bind_ok.1 h
  obtain ⟨appliedAt, -, h⟩ := except_bind_ok.1 h
  rw [← Except.ok.inj h]

/-- What was fetched is filed. -/
theorem getGeneration_backed {id : ℤ} : (liftStore (getGeneration C id)).wpOk hostLedger
    (fun q' generation => Occurs [Filed generation.nftablesConfig] q') q := by
  refine Prog.wpOk_call (M := hostLedger) trivial fun r => ?_
  cases r with
  | error e => exact Prog.wpOk_fail
  | ok row =>
    cases row with
    | none => exact Prog.wpOk_fail
    | some row =>
      change (liftStore (.ofExcept (rowToGeneration C row))).wpOk _ _ _
      cases hd : rowToGeneration C row with
      | error e => exact Prog.wpOk_fail
      | ok generation =>
        refine Prog.wpOk_ret ?_
        rw [rowToGeneration_text hd]
        exact occurs_last (show Filed row.nftablesConfig ⟨_, _⟩ from .inr rfl)

/-- **A rollback is backed.** -/
theorem rollback_backed (id : ℤ) (path : String) : (rollback C id path).Keeps hostLedger := by
  intro q
  refine Prog.wpOk_bind (Prog.wpOk_mono (fun q₁ generation hfiled => ?_) getGeneration_backed)
  refine Prog.wpOk_call (M := hostLedger) hfiled fun r => ?_
  rw [Prog.bind_ret_left]
  cases r with
  | error e => exact Prog.wpOk_fail
  | ok u =>
    have hwrote := hfiled.snoc (show Saved path generation.nftablesConfig
      (⟨.atomicWrite path generation.nftablesConfig, .ok u⟩ : Event HostSig) by simp [Saved, wroteTo])
    refine Prog.wpOk_call (M := hostLedger) ⟨_, hwrote⟩ fun r => ?_
    cases r with
    | timedOut => exact Prog.wpOk_fail
    | ioError message => exact Prog.wpOk_fail
    | exited output =>
      simp only [nftOutput, Except.mapError, Prog.ofExcept, Prog.bind_ret_left]
      cases hs : output.isSuccess with
      | false => exact Prog.wpOk_bind (Prog.wpOk_mono (fun _ _ _ => Prog.wpOk_fail) (recordEvent_backed _))
      | true =>
        have hchecked := hwrote.snoc (show Passed .check path (⟨.nft .check path, .exited output⟩ : Event HostSig) from
          ⟨rfl, rfl, hs⟩)
        refine Prog.wpOk_call (M := hostLedger) ⟨_, hchecked⟩ fun r => ?_
        cases r with
        | timedOut => exact Prog.wpOk_fail
        | ioError message => exact Prog.wpOk_fail
        | exited output =>
          simp only [nftOutput, Except.mapError, Prog.ofExcept, Prog.bind_ret_left]
          split
          · exact Prog.wpOk_bind (Prog.wpOk_mono (fun _ _ _ => Prog.wpOk_fail) (recordEvent_backed _))
          · exact Prog.wpOk_bind (Prog.wpOk_mono (fun _ _ _ => Prog.wpOk_ret trivial) (recordEvent_backed _))

/-! ## Both front ends -/

theorem liftHost_backed {p : Prog HostSig ε α} (h : p.Keeps hostLedger) : (liftHost p).Keeps frontLedger :=
  Prog.keeps_embed (T := AgentSig) (ι := AgentOp.host) (M := hostLedger) (N := frontLedger) (fun _ _ ho => ho)
    (fun _ _ _ => rfl) h

theorem onStore_backed {p : StoreProg α} (h : p.Uses RecordsNone) : (onStore p).Keeps frontLedger :=
  liftHost_backed (Prog.keeps_embed (T := HostSig) (ι := HostOp.store) (M := storeLedger) (N := hostLedger)
    (fun _ _ ho => ho) (fun _ _ _ => rfl) (keeps_of_recordsNone h))

theorem parts_backed : AcceptsParts C frontLedger where
  beside o ho q := by cases o <;> first | trivial | exact absurd trivial ho
  now _ := trivial
  listMappings := onStore_backed (Prog.uses_bind (uses_sql trivial) fun _ => Prog.uses_ofExcept)
  getMapping _ := onStore_backed (getMapping_uses C trivial)
  insertMapping _ := onStore_backed (insertMapping_uses C trivial trivial fun _ _ => trivial)
  updateMapping _ := onStore_backed (updateMapping_uses C trivial trivial fun _ _ => trivial)
  deleteMapping _ := onStore_backed (deleteMapping_uses C trivial trivial)
  setMappingEnabled _ _ := onStore_backed (setMappingEnabled_uses C trivial trivial fun _ _ _ => trivial)
  resolveEdgeConfig _ _ := onStore_backed (resolveEdgeConfig_uses trivial fun _ => trivial)
  recordEvent _ _ _ := onStore_backed (recordEvent_uses C trivial fun _ _ => trivial)
  reconcile config options := liftHost_backed (reconcile_backed config options)
  rollback id path := liftHost_backed (rollback_backed id path)

/-- **Every call of both front ends is backed.** -/
theorem fronts_backed (call : FrontCall) : (call.prog C J N D).Keeps frontLedger := front_keeps parts_backed call

/-! ## The history -/

variable {calls : ℕ → FrontCall} {pool : ℕ → AgentProg FrontFailure Unit} {w₀ w w' : AgentWorld}
  {tr : List (ℕ × Event AgentSig)} {db db' : Db}

/-- The host events that the thread saw. -/
def hostTrace (i : ℕ) (tr : List (ℕ × Event AgentSig)) : List (Event HostSig) := (own i tr).filterMap hostEvent

theorem mem_hostTrace {i : ℕ} {e : Event HostSig} : e ∈ hostTrace i tr ↔ (i, ⟨.host e.op, e.reply⟩) ∈ tr := by
  unfold hostTrace
  rw [List.mem_filterMap]
  constructor
  · rintro ⟨⟨o, r⟩, hmem, he⟩
    cases o <;> cases he
    exact mem_own.1 hmem
  · exact fun h => ⟨_, mem_own.2 h, rfl⟩

/-- **Each event of a call was backed** by what the call had seen. -/
theorem backed_of_reach {pre post : List (ℕ × Event AgentSig)} {i : ℕ} {o : HostOp} {r : o.Reply}
    (hr : Reach (agentEnv J) (fun i => (calls i).prog C J N D) w₀ (pre ++ (i, ⟨.host o, r⟩) :: post) pool w) :
    Backed (hostTrace i pre) o := by
  have h := hr.allowed (M := frontLedger) [] (fronts_backed (calls i))
  rw [Monitor.recall_after, List.nil_append] at h
  exact h

/-- Every generation has an id of its own, below the next one. -/
structure Numbered (db : Db) : Prop where
  below : ∀ g ∈ db.generations, g.id < db.nextGeneration
  ids : db.generations.Pairwise fun g g' => g.id < g'.id

theorem numbered_of_nil (h : db.generations = []) : Numbered db :=
  ⟨fun _ hg => absurd (h ▸ hg) List.not_mem_nil, by rw [h]; exact .nil⟩

/-- A generation is found by its id. -/
theorem Numbered.find (h : Numbered db) {g : GenerationRow} (hg : g ∈ db.generations) :
    (db.exec (.selectGeneration g.id)).1 = .ok (some g) := by
  have hfind : db.generations.find? (fun g' => g'.id = g.id) = some g := by
    have hids := h.ids
    generalize db.generations = gs at hg hids
    induction gs with
    | nil => cases hg
    | cons g' gs ih =>
      rw [List.pairwise_cons] at hids
      rcases List.mem_cons.1 hg with rfl | hg
      · simp
      · have hne : ¬ g'.id = g.id := (hids.1 g hg).ne
        rw [List.find?_cons_of_neg (by simpa using hne)]
        exact ih hg hids.2
  exact congrArg Except.ok hfind

/-- The generations that an operation adds, with the reply that names them. -/
inductive Logs (db db' : Db) : Event HostSig → Prop where
  | none {e : Event HostSig} : db'.generations = db.generations → db'.nextGeneration = db.nextGeneration → Logs db db' e
  | one (status text createdAt : String) (appliedAt error : Option String) :
    db'.generations = db.generations ++ [⟨db.nextGeneration, status, text, createdAt, appliedAt, error⟩] →
    db'.nextGeneration = db.nextGeneration + 1 →
    Logs db db' ⟨.store (.sql (.insertGeneration status text createdAt appliedAt error)), .ok db.nextGeneration⟩

theorem updateMappings_history (db : Db) (id : String) (f : Row → Row) (hf : ∀ row, (f row).id = row.id)
    (guarded : Bool) :
    (db.updateMappings id f hf guarded).2.generations = db.generations ∧
      (db.updateMappings id f hf guarded).2.nextGeneration = db.nextGeneration := by
  unfold Db.updateMappings
  split <;> exact ⟨rfl, rfl⟩

theorem logs_of_exec (db : Db) (s : Stmt) : Logs db (db.exec s).2 ⟨.store (.sql s), (db.exec s).1⟩ := by
  cases s with
  | insertGeneration status text created applied error => exact .one _ _ _ _ _ rfl rfl
  | insertMapping row =>
    rw [Db.exec_insertMapping]
    split <;> exact .none rfl rfl
  | updateMapping row => exact .none (updateMappings_history ..).1 (updateMappings_history ..).2
  | updateEnabled id enabled status updatedAt => exact .none (updateMappings_history ..).1 (updateMappings_history ..).2
  | updateHealth id status health error checked updated =>
    exact .none (updateMappings_history ..).1 (updateMappings_history ..).2
  | _ => exact .none rfl rfl

theorem logs_of_hostEnv {v v' : World} {o : HostOp} {r : o.Reply} (hE : hostEnv v o r v') : Logs v.db v'.db ⟨o, r⟩ := by
  by_cases ho : o.IsStore
  · cases o with
    | store o =>
      obtain ⟨db', hdb, rfl⟩ := hE
      cases o with
      | now => rw [show db' = v.db from hdb]; exact .none rfl rfl
      | sql s =>
        rcases hdb with hdb | ⟨message, -, rfl⟩
        · obtain ⟨rfl, rfl⟩ := Prod.mk.inj hdb
          exact logs_of_exec _ _
        · exact .none rfl rfl
    | _ => exact absurd ho id
  · rw [db_of_hostEnv ho hE]
    exact .none rfl rfl

theorem Logs.generations_le {e : Event HostSig} (h : Logs db db' e) : db.generations <+: db'.generations := by
  cases h with
  | none h _ => rw [h]
  | one status text createdAt appliedAt error h _ => rw [h]; exact List.prefix_append ..

theorem Logs.numbered {e : Event HostSig} (h : Logs db db' e) (hn : Numbered db) : Numbered db' := by
  cases h with
  | none hg hnext => exact ⟨by rw [hg, hnext]; exact hn.below, by rw [hg]; exact hn.ids⟩
  | one status text createdAt appliedAt error hg hnext =>
    constructor
    · rw [hg, hnext]
      intro g hmem
      rcases List.mem_append.1 hmem with hmem | hmem
      · exact (hn.below g hmem).trans (Int.lt_succ _)
      · rw [List.mem_singleton.1 hmem]
        exact Int.lt_succ _
    · rw [hg, List.pairwise_append]
      refine ⟨hn.ids, List.pairwise_singleton .., fun g hmem g' hmem' => ?_⟩
      rw [List.mem_singleton.1 hmem']
      exact hn.below g hmem

/-- The text is that of a generation. -/
def OnRecord (db : Db) (text : String) : Prop := ∃ g ∈ db.generations, g.nftablesConfig = text

theorem OnRecord.mono (hsub : db.generations <+: db'.generations) (h : OnRecord db text) : OnRecord db' text :=
  h.imp fun _ hg => ⟨hsub.subset hg.1, hg.2⟩

/-- What was just recorded or fetched is on record. -/
theorem onRecord_of_filed {v v' : World} {e : Event HostSig} (hE : hostEnv v e.op e.reply v') (h : Filed text e) :
    OnRecord v'.db text := by
  obtain ⟨o, r⟩ := e
  rcases h with h | h
  · unfold Rendered at h
    split at h
    · rename_i status text' created applied error id heq
      cases heq
      obtain ⟨db', hdb, rfl⟩ := hE
      rcases hdb with hdb | ⟨message, hr, -⟩
      · obtain ⟨-, rfl⟩ := Prod.mk.inj hdb
        exact ⟨_, List.mem_append_right _ List.mem_cons_self, h.2⟩
      · cases hr
    · exact absurd h id
  · unfold Fetched at h
    split at h
    · rename_i id row heq
      cases heq
      obtain ⟨db', hdb, rfl⟩ := hE
      rcases hdb with hdb | ⟨message, hr, -⟩
      · obtain ⟨hrow, rfl⟩ := Prod.mk.inj hdb
        exact ⟨row, List.mem_of_find?_eq_some (Except.ok.inj hrow).symm, h⟩
      · cases hr
    · exact absurd h id

/-- **What holds of the history in every interleaving.** -/
structure RecordInv (w₀ : World) (tr : List (ℕ × Event AgentSig)) (w : World) : Prop where
  history : w₀.db.generations <+: w.db.generations
  filed : ∀ i e text, e ∈ hostTrace i tr → Filed text e → OnRecord w.db text
  files : ∀ path, (∃ text, OnRecord w.db text ∧ w.files path = some text) ∨
    (w.files path = w₀.files path ∧ ∀ i e, e ∈ hostTrace i tr → wroteTo path e = none)
  kernel : (∃ text, OnRecord w.db text ∧ w.kernel = some text) ∨
    (w.kernel = w₀.kernel ∧ ∀ i e, e ∈ hostTrace i tr → ¬ PutInPlace e)

theorem mem_hostTrace_snoc {i j : ℕ} {o : HostOp} {r : o.Reply} {e : Event HostSig} :
    e ∈ hostTrace j (tr ++ [(i, ⟨.host o, r⟩)]) ↔ e ∈ hostTrace j tr ∨ (j = i ∧ e = ⟨o, r⟩) := by
  rw [mem_hostTrace, mem_hostTrace, List.mem_append, List.mem_singleton]
  refine or_congr_right ⟨fun h => ?_, ?_⟩
  · obtain ⟨rfl, he⟩ := Prod.mk.inj h
    obtain ⟨o', r'⟩ := e
    cases he
    exact ⟨rfl, rfl⟩
  · rintro ⟨rfl, rfl⟩
    rfl

theorem mem_hostTrace_beside {i j : ℕ} {o : AgentOp} {r : o.Reply} {e : Event HostSig} (ho : ¬ o.IsHost) :
    e ∈ hostTrace j (tr ++ [(i, ⟨o, r⟩)]) ↔ e ∈ hostTrace j tr := by
  rw [mem_hostTrace, mem_hostTrace, List.mem_append, List.mem_singleton, or_iff_left_iff_imp]
  intro h
  cases (Prod.mk.inj h).2
  exact absurd trivial ho

/-- What is not on the host leaves the host as it is. -/
theorem host_of_beside {o : AgentOp} {r : o.Reply} (ho : ¬ o.IsHost) (hE : agentEnv J w o r w') : w'.host = w.host := by
  cases o with
  | host o => exact absurd trivial ho
  | oci command => obtain ⟨cloud, -, rfl⟩ := hE; rfl
  | selectEvents limit => rw [hE.1]
  | newId | netbirdStatus | routeGet target | envVar name => rw [show w' = w from hE]

/-- The kernel changes only where `nft -f` loads a file, and with status zero it has loaded it. -/
theorem kernel_step {v v' : World} {o : HostOp} {r : o.Reply} (hE : hostEnv v o r v') :
    (v'.kernel = v.kernel ∧ ¬ PutInPlace ⟨o, r⟩) ∨ ∃ path, o = .nft .apply path ∧ v'.kernel = v.files path := by
  cases o with
  | store o => obtain ⟨db', -, rfl⟩ := hE; exact .inl ⟨rfl, fun ⟨_, h⟩ => h⟩
  | atomicWrite path text => rcases hE with ⟨-, rfl⟩ | ⟨e, -, rfl⟩ <;> exact .inl ⟨rfl, fun ⟨_, h⟩ => h⟩
  | nft mode path =>
    cases mode with
    | check => rw [hE.1]; exact .inl ⟨rfl, fun ⟨_, h⟩ => nomatch h.1⟩
    | apply =>
      by_cases hs : r.Succeeded
      · rw [(hE.succeeded hs).2]
        exact .inr ⟨path, rfl, rfl⟩
      · rcases hE.either with rfl | ⟨-, rfl⟩
        · exact .inl ⟨rfl, fun ⟨_, h⟩ => hs h.2.2⟩
        · exact .inr ⟨path, rfl, rfl⟩
  | ip command =>
    cases command with
    | «show» interface => rw [hE.1]; exact .inl ⟨rfl, fun ⟨_, h⟩ => h⟩
    | add interface a => rcases hE.either with rfl | ⟨-, rfl⟩ <;> exact .inl ⟨rfl, fun ⟨_, h⟩ => h⟩
    | del interface a => rcases hE.either with rfl | ⟨-, rfl⟩ <;> exact .inl ⟨rfl, fun ⟨_, h⟩ => h⟩
  | connect ip port => rw [show v' = v from hE]; exact .inl ⟨rfl, fun ⟨_, h⟩ => h⟩

/-- **One step on the host**, where it was backed. -/
theorem RecordInv.hostStep {v₀ v v' : World} {i : ℕ} {o : HostOp} {r : o.Reply} (h : RecordInv v₀ tr v)
    (hb : Backed (hostTrace i tr) o) (hE : hostEnv v o r v') : RecordInv v₀ (tr ++ [(i, ⟨.host o, r⟩)]) v' := by
  have hsub : v.db.generations <+: v'.db.generations := (logs_of_hostEnv hE).generations_le
  refine ⟨h.history.trans hsub, ?_, fun path => ?_, ?_⟩
  · intro j e text he hfiled
    rcases mem_hostTrace_snoc.1 he with he | ⟨rfl, rfl⟩
    · exact (h.filed j e text he hfiled).mono hsub
    · exact onRecord_of_filed hE hfiled
  · have hfile := files_step hE path
    cases hw : wroteTo path ⟨o, r⟩ with
    | some text =>
      -- the text was filed before it was written
      left
      rw [hw, Option.some_or] at hfile
      obtain ⟨path', rfl⟩ : ∃ path', o = .atomicWrite path' text := by
        unfold wroteTo at hw
        split at hw
        · rename_i path' text' u heq
          split at hw
          · cases hw; cases heq; exact ⟨path', rfl⟩
          · cases hw
        · cases hw
      obtain ⟨e, he, hfiled⟩ := Occurs.exists_mem hb List.mem_cons_self
      exact ⟨text, (h.filed i e text he hfiled).mono hsub, hfile⟩
    | none =>
      rw [hw, Option.none_or] at hfile
      rw [hfile]
      refine (h.files path).imp (fun ⟨text, hrec, hf⟩ => ⟨text, hrec.mono hsub, hf⟩) fun ⟨hf, hnone⟩ => ⟨hf, ?_⟩
      intro j e he
      rcases mem_hostTrace_snoc.1 he with he | ⟨rfl, rfl⟩
      · exact hnone j e he
      · exact hw
  · rcases kernel_step hE with ⟨hk, hquiet⟩ | ⟨path, rfl, hk⟩
    · rw [hk]
      refine h.kernel.imp (fun ⟨text, hrec, hk⟩ => ⟨text, hrec.mono hsub, hk⟩) fun ⟨hsame, hnone⟩ => ⟨hsame, ?_⟩
      intro j e he
      rcases mem_hostTrace_snoc.1 he with he | ⟨rfl, rfl⟩
      · exact hnone j e he
      · exact hquiet
    · -- the call has written the path, so that the file there is on record
      left
      obtain ⟨text, hoccurs⟩ := hb
      obtain ⟨e, he, hwrote⟩ := hoccurs.exists_mem (List.mem_cons_of_mem _ List.mem_cons_self)
      rcases h.files path with ⟨text', hrec, hf⟩ | ⟨-, hnone⟩
      · exact ⟨text', hrec.mono hsub, hk.trans hf⟩
      · exact absurd (hwrote.symm.trans (hnone i e he)) (Option.some_ne_none text)

theorem recordInv_of_reach (hr : Reach (agentEnv J) (fun i => (calls i).prog C J N D) w₀ tr pool w) :
    RecordInv w₀.host tr w.host := by
  refine hr.keeps_inv (M := frontLedger) [] (fun i => fronts_backed (calls i))
    (fun tr w => RecordInv w₀.host tr w.host) ?_ ?_
  · have hnil : ∀ {i : ℕ} {e : Event HostSig}, e ∉ hostTrace i [] := by simp [hostTrace]
    exact ⟨List.prefix_rfl, fun _ _ _ he => absurd he hnil, fun _ => .inr ⟨rfl, fun _ _ he => absurd he hnil⟩,
      .inr ⟨rfl, fun _ _ he => absurd he hnil⟩⟩
  · intro tr w i o r w' h hallow hE
    by_cases ho : o.IsHost
    · cases o with
      | host o =>
        obtain ⟨host, hE, rfl⟩ := hE
        rw [Monitor.recall_after, List.nil_append] at hallow
        exact h.hostStep hallow hE
      | _ => exact absurd ho id
    · rw [host_of_beside ho hE]
      have hmem : ∀ j e, e ∈ hostTrace j (tr ++ [(i, ⟨o, r⟩)]) → e ∈ hostTrace j tr := fun j e he =>
        (mem_hostTrace_beside ho).1 he
      exact ⟨h.history, fun j e text he => h.filed j e text (hmem j e he),
        fun path => (h.files path).imp_right fun ⟨hf, hnone⟩ => ⟨hf, fun j e he => hnone j e (hmem j e he)⟩,
        h.kernel.imp_right fun ⟨hk, hnone⟩ => ⟨hk, fun j e he => hnone j e (hmem j e he)⟩⟩

theorem numbered_of_reach (hr : Reach (agentEnv J) (fun i => (calls i).prog C J N D) w₀ tr pool w)
    (h0 : Numbered w₀.host.db) : Numbered w.host.db := by
  induction hr with
  | init => exact h0
  | @step tr pool w w' i o k r _ _ hE ih =>
    by_cases ho : o.IsHost
    · cases o with
      | host o => obtain ⟨host, hE, rfl⟩ := hE; exact (logs_of_hostEnv hE).numbered ih
      | _ => exact absurd ho id
    · rw [host_of_beside ho hE]
      exact ih

/-! ## A sample run -/

/-- The call of the sample: a full reconcile through the API. -/
abbrev sampleApply : FrontCall := .api sampleConfig [] (.reconcile {})

theorem sampleListing_nil (h : db.mappings.rows = []) : sampleListing db = some [] := by
  have hlisted : decodeRows sampleCodec db.listed = .ok [] := by
    rw [Db.listed, h]
    rfl
  rw [sampleListing, hlisted]
  exact if_pos ⟨rfl, by simp⟩

/-- Without mappings it loads a ruleset. -/
theorem apply_can (hrows : w.host.db.mappings.rows = []) :
    ∃ text, (sampleProg sampleApply).Can (agentEnv sampleOciJson) w fun w' _ =>
      w'.host.kernel = some text ∧ w'.host.db.mappings.rows = [] := by
  obtain ⟨text, -, hcan⟩ := sample_can (w := w.host) (Api.reconcileOptions sampleConfig {}) (sampleListing_nil hrows)
    rfl rfl fun _ => by simp [Plain]
  refine ⟨text, Prog.can_bind (Prog.can_mapErr (Prog.can_bind (Prog.can_ofExcept rfl (Prog.can_bind (Prog.can_mapErr
    (Prog.can_mono ?_ (can_liftHost (fun w o r host hE => ⟨host, hE, rfl⟩) hcan)))))))⟩
  rintro w' report ⟨host, rfl, hdone⟩
  have hcores : host.db.mappings.rows.map Row.core = [] := by rw [hdone.mappings.core, hrows]; rfl
  exact Prog.can_ret (Prog.can_ret ⟨hdone.kernel, List.map_eq_nil_iff.1 hcores⟩)

/-- The sample on the empty host. -/
theorem apply_reach : ∃ text tr pool w,
    Reach (agentEnv sampleOciJson) (fun _ => sampleProg sampleApply) emptyAgent tr pool w ∧
    w.host.kernel = some text := by
  obtain ⟨text, tr, w, a, hrun, hkernel, -⟩ := apply_can (w := emptyAgent) rfl
  obtain ⟨pool, hreach⟩ := Reach.alone hrun
  exact ⟨text, _, pool, w, hreach, hkernel⟩

/-! ## Results -/

/-- **Every ruleset in place is on record.** Whatever calls of both front ends run, however their operations
interleave and whichever of them fail: no generation is ever lost or changed; every file with a name that is not
temporary, and the ruleset in the kernel, is what it was before the first call or the text of a generation; and that
generation is found by its id, so that a rollback can bring the text back. -/
theorem rulesets_on_record (h0 : Numbered w₀.host.db)
    (hr : Reach (agentEnv J) (fun i => (calls i).prog C J N D) w₀ tr pool w) :
    w₀.host.db.generations <+: w.host.db.generations ∧
      (∀ path, ¬ Disk.TemporaryName path → w.host.files path = w₀.host.files path ∨
        ∃ id row, (w.host.db.exec (.selectGeneration id)).1 = .ok (some row) ∧
          w.host.files path = some row.nftablesConfig) ∧
      (w.host.kernel = w₀.host.kernel ∨ ∃ id row, (w.host.db.exec (.selectGeneration id)).1 = .ok (some row) ∧
        w.host.kernel = some row.nftablesConfig) := by
  have hinv := recordInv_of_reach hr
  have hfind : ∀ {text}, OnRecord w.host.db text →
      ∃ id row, (w.host.db.exec (.selectGeneration id)).1 = .ok (some row) ∧ row.nftablesConfig = text :=
    fun ⟨g, hg, ht⟩ => ⟨g.id, g, (numbered_of_reach hr h0).find hg, ht⟩
  refine ⟨hinv.history, fun path _ => ?_, ?_⟩
  · rcases hinv.files path with ⟨text, hrec, hf⟩ | ⟨hf, -⟩
    · obtain ⟨id, row, hrow, rfl⟩ := hfind hrec
      exact .inr ⟨id, row, hrow, hf⟩
    · exact .inl hf
  · rcases hinv.kernel with ⟨text, hrec, hk⟩ | ⟨hk, -⟩
    · obtain ⟨id, row, hrow, rfl⟩ := hfind hrec
      exact .inr ⟨id, row, hrow, hk⟩
    · exact .inl hk

/-- Every new generation was recorded by one of the calls. -/
theorem new_of_reach {progs : ℕ → AgentProg ε α} {pool : ℕ → AgentProg ε α}
    (hr : Reach (agentEnv J) progs w₀ tr pool w) :
    ∃ new, w.host.db.generations = w₀.host.db.generations ++ new ∧ ∀ g ∈ new, ∃ pre i post,
      tr = pre ++ (i,
        ⟨.host (.store (.sql (.insertGeneration g.status g.nftablesConfig g.createdAt g.appliedAt g.error))),
          .ok g.id⟩) :: post := by
  induction hr with
  | init => exact ⟨[], (List.append_nil _).symm, fun g hg => absurd hg List.not_mem_nil⟩
  | @step tr pool w w' i o k r _ _ hE ih =>
    obtain ⟨new, hnew, hall⟩ := ih
    have hold : ∀ g ∈ new, ∃ pre j post, tr ++ [(i, ⟨o, r⟩)] = pre ++ (j, ⟨.host (.store (.sql
        (.insertGeneration g.status g.nftablesConfig g.createdAt g.appliedAt g.error))), .ok g.id⟩) :: post := by
      intro g hg
      obtain ⟨pre, j, post, rfl⟩ := hall g hg
      exact ⟨pre, j, post ++ [(i, ⟨o, r⟩)], by simp⟩
    by_cases ho : o.IsHost
    · cases o with
      | host o =>
        obtain ⟨host, hE, rfl⟩ := hE
        cases logs_of_hostEnv hE with
        | none hg _ => exact ⟨new, hg.trans hnew, hold⟩
        | one status text createdAt appliedAt error hg _ =>
          refine ⟨new ++ [_], by rw [← List.append_assoc, ← hnew]; exact hg, fun g hmem => ?_⟩
          rcases List.mem_append.1 hmem with hmem | hmem
          · exact hold g hmem
          · obtain rfl := List.mem_singleton.1 hmem
            exact ⟨tr, i, [], rfl⟩
      | _ => exact absurd ho id
    · rw [host_of_beside ho hE]
      exact ⟨new, hnew, hold⟩

/-- The ruleset that a reconcile loads on the empty host. -/
theorem rulesets_on_record_applied : ∃ tr pool w id row,
    Reach (agentEnv sampleOciJson) (fun _ => sampleProg sampleApply) emptyAgent tr pool w ∧
      (w.host.db.exec (.selectGeneration id)).1 = .ok (some row) ∧ w.host.kernel = some row.nftablesConfig := by
  obtain ⟨text, tr, pool, w, hr, hkernel⟩ := apply_reach
  obtain ⟨-, -, hsame | ⟨id, row, hrow, hrec⟩⟩ := rulesets_on_record (numbered_of_nil rfl) hr
  · rw [hkernel] at hsame
    cases hsame
  · exact ⟨tr, pool, w, id, row, hr, hrow, hrec⟩

/-- **A generation says what its call has done.** Every generation that was recorded was recorded by one of the calls,
under a new id. If it is Validated, that call had recorded its text as Rendered, written it to a path and had `nft -c`
accept the path, in this order; if it is Active, `nft -f` had then loaded the path; if it is Failed, it carries an
error. -/
theorem generations_backed (hr : Reach (agentEnv J) (fun i => (calls i).prog C J N D) w₀ tr pool w) :
    ∃ new, w.host.db.generations = w₀.host.db.generations ++ new ∧ ∀ g ∈ new, ∃ pre i post,
      tr = pre ++ (i,
        ⟨.host (.store (.sql (.insertGeneration g.status g.nftablesConfig g.createdAt g.appliedAt g.error))),
          .ok g.id⟩) :: post ∧ BackedGeneration (hostTrace i pre) g.status g.nftablesConfig g.error := by
  obtain ⟨new, hnew, hall⟩ := new_of_reach hr
  refine ⟨new, hnew, fun g hg => ?_⟩
  obtain ⟨pre, i, post, rfl⟩ := hall g hg
  exact ⟨pre, i, post, rfl, backed_of_reach hr⟩

/-- The generations of that reconcile. -/
theorem generations_backed_applied : ∃ tr pool w,
    Reach (agentEnv sampleOciJson) (fun _ => sampleProg sampleApply) emptyAgent tr pool w ∧ w.host.db.generations ≠ [] ∧
      ∀ g ∈ w.host.db.generations, ∃ pre i, BackedGeneration (hostTrace i pre) g.status g.nftablesConfig g.error := by
  obtain ⟨text, tr, pool, w, hr, hkernel⟩ := apply_reach
  refine ⟨tr, pool, w, hr, ?_, fun g hg => ?_⟩
  · rcases (recordInv_of_reach hr).kernel with ⟨text', ⟨g, hg, -⟩, -⟩ | ⟨hsame, -⟩
    · exact List.ne_nil_of_mem hg
    · rw [hkernel] at hsame
      cases hsame
  · obtain ⟨new, hnew, hall⟩ := generations_backed hr
    rw [hnew] at hg
    obtain ⟨pre, i, post, -, hb⟩ := hall g hg
    exact ⟨pre, i, hb⟩

end EdgeRoute
