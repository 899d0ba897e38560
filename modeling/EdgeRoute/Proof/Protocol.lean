import EdgeRoute.Proof.Health

/-!
# The protocol of a call

Every call that touches the ruleset goes the same way: it renders or fetches a text, writes it,
checks the file, loads the file, and only then moves addresses and records what it did. The way is
a monitor on the events of one call.

* `reconcile_follows`, `rollback_follows`, `call_follows`: **the programs follow the protocol**, whatever
  the host answers.
-/

namespace EdgeRoute

open Effect

/-! ## Stages -/

/-- How far a call has come with its ruleset. `torn` is a load of which nothing is known. -/
inductive Stage where
  | idle
  | written
  | checked
  | loaded
  | failed
  | torn
deriving DecidableEq

/-- The ghost state of a call: what it was called with, the text it rendered or fetched, and the stage. -/
structure Progress where
  config : Option EdgeConfig
  path : String
  applyNft : Bool
  applyLinux : Bool
  edits : Bool
  ruleset : Option String
  stage : Stage

def Progress.atStage (q : Progress) (stage : Stage) : Progress := { q with stage }

section

variable (q : Progress) (stage stage' : Stage)

@[simp] theorem Progress.atStage_config : (q.atStage stage).config = q.config := rfl

@[simp] theorem Progress.atStage_path : (q.atStage stage).path = q.path := rfl

@[simp] theorem Progress.atStage_applyNft : (q.atStage stage).applyNft = q.applyNft := rfl

@[simp] theorem Progress.atStage_applyLinux : (q.atStage stage).applyLinux = q.applyLinux := rfl

@[simp] theorem Progress.atStage_edits : (q.atStage stage).edits = q.edits := rfl

@[simp] theorem Progress.atStage_ruleset : (q.atStage stage).ruleset = q.ruleset := rfl

@[simp] theorem Progress.atStage_stage : (q.atStage stage).stage = stage := rfl

@[simp] theorem Progress.atStage_atStage : (q.atStage stage).atStage stage' = q.atStage stage' := rfl

end

/-- What the answer to a statement adds to the ghost state. -/
def Progress.onSql (C : Codec) (q : Progress) : (s : Stmt) → Except Sql.SqlError s.Out → Progress
  | .selectMappings, .ok rows => { q with ruleset := q.config.bind fun config => rendering C config rows }
  | .selectGeneration _, .ok (some row) => { q with ruleset := some row.nftablesConfig }
  | _, _ => q

def Progress.onWrite (q : Progress) (r : Except String Unit) : Progress :=
  q.atStage (match r with | .ok () => .written | .error _ => .failed)

def Progress.onCheck (q : Progress) (r : Outcome) : Progress :=
  q.atStage (if r.Succeeded then .checked else .failed)

def Progress.onApply (q : Progress) (r : Outcome) : Progress :=
  q.atStage (if r.Succeeded then .loaded else if r.Rejected then .failed else .torn)

/-- A statement that edits the rows of `mappings`. -/
def Stmt.IsEdit : Stmt → Prop
  | .insertMapping _ | .updateMapping _ | .updateEnabled _ _ _ _ | .deleteMapping _ => True
  | _ => False

def Stmt.IsHealth : Stmt → Prop
  | .updateHealth _ _ _ _ _ _ => True
  | _ => False

/-- The statements a call may execute. -/
def Progress.allowsSql (C : Codec) (q : Progress) : Stmt → Prop
  | .selectMappings => q.stage = .idle ∧ q.config ≠ none
  | .selectGeneration _ => q.stage = .idle ∧ q.config = none
  | .selectConfig | .selectMapping _ | .selectOthers _ | .insertEvent _ _ _ _ => True
  | .insertGeneration status text _ _ _ => q.ruleset = some text ∧ (status = "active" → q.stage = .loaded)
  | .updateHealth _ status _ _ lastCheckedAt updatedAt =>
    (q.edits = true ∨ q.stage = .loaded) ∧ HealthOk C status lastCheckedAt updatedAt
  | .insertMapping _ | .updateMapping _ | .updateEnabled _ _ _ _ | .deleteMapping _ => q.edits = true
  | .upsertConfig _ | .latestActive => False

/-- **The protocol.** -/
def protocol (C : Codec) : Monitor HostSig Progress where
  allow q
    | .store .now => True
    | .store (.sql s) => q.allowsSql C s
    | .atomicWrite path text => path = q.path ∧ q.ruleset = some text ∧ q.stage = .idle
    | .nft .check path => path = q.path ∧ q.stage = .written
    | .nft .apply path => path = q.path ∧ q.stage = .checked ∧ q.applyNft = true
    | .ip _ => q.applyLinux = true ∧ q.stage = if q.applyNft then .loaded else .checked
    | .connect _ _ => True
  next q e := match e with
    | ⟨.store .now, _⟩ => q
    | ⟨.store (.sql s), r⟩ => q.onSql C s r
    | ⟨.atomicWrite _ _, r⟩ => q.onWrite r
    | ⟨.nft .check _, r⟩ => q.onCheck r
    | ⟨.nft .apply _, r⟩ => q.onApply r
    | ⟨.ip _, _⟩ => q
    | ⟨.connect _ _, _⟩ => q

/-! ## Statements of the store methods -/

section Uses

variable {P : StoreOp → Prop} (C : Codec)

theorem uses_sql {s : Stmt} (h : P (.sql s)) : (sql s).Uses P := Prog.uses_call h fun _ => Prog.uses_ofExcept

theorem uses_nowUtc (h : P .now) : nowUtc.Uses P := Prog.uses_call h fun _ => Prog.uses_ret

theorem recordEvent_uses {level : EventLevel} {message : String} {data : Option String} (hnow : P .now)
    (h : ∀ l c, P (.sql (.insertEvent l message data c))) : (recordEvent C level message data).Uses P := by
  unfold recordEvent
  split
  · exact Prog.uses_fail
  · refine Prog.uses_bind (uses_nowUtc hnow) fun createdAt => Prog.uses_bind Prog.uses_ofExcept fun l => ?_
    exact Prog.uses_bind Prog.uses_ofExcept fun c => Prog.uses_bind (uses_sql (h l c)) fun _ => Prog.uses_ret

theorem recordGeneration_uses {status : GenerationStatus} {text : String}
    {appliedAt : Option OffsetDateTime} {error : Option String} (hnow : P .now)
    (h : ∀ s c a, enumString GenerationStatus.names status = .ok s →
      P (.sql (.insertGeneration s text c a error))) :
    (recordGeneration C status text appliedAt error).Uses P := by
  unfold recordGeneration
  split
  · exact Prog.uses_fail
  · refine Prog.uses_bind (uses_nowUtc hnow) fun createdAt => Prog.uses_ofExcept_bind fun s hs => ?_
    refine Prog.uses_bind Prog.uses_ofExcept fun c => Prog.uses_bind Prog.uses_ofExcept fun a => ?_
    exact Prog.uses_bind (uses_sql (h s c a hs)) fun _ => Prog.uses_ret

theorem getMapping_uses {id : MappingId} (h : P (.sql (.selectMapping id.val))) : (getMapping C id).Uses P := by
  refine Prog.uses_bind (uses_sql h) fun row => ?_
  cases row with
  | some row => exact Prog.uses_ofExcept
  | none => exact Prog.uses_fail

theorem setMappingHealth_uses {id : MappingId} {status : MappingStatus} {health error : Option String}
    (hnow : P .now) (hget : P (.sql (.selectMapping id.val)))
    (h : ∀ s l u, enumString MappingStatus.names status = .ok s → HealthOk C s l u →
      P (.sql (.updateHealth id.val s health error l u))) :
    (setMappingHealth C id status health error).Uses P := by
  refine Prog.uses_ofExcept_bind fun s hs => Prog.uses_bind (uses_nowUtc hnow) fun _ => ?_
  refine Prog.uses_ofExcept_bind fun l hl => Prog.uses_bind (uses_nowUtc hnow) fun _ => ?_
  refine Prog.uses_ofExcept_bind fun u hu => ?_
  refine Prog.uses_bind (uses_sql (h s l u hs ⟨⟨_, hs⟩, ⟨_, hl⟩, _, hu⟩)) fun _ => ?_
  exact getMapping_uses C hget

theorem setMappingEnabled_uses {id : MappingId} {enabled : Bool} (hnow : P .now)
    (hget : P (.sql (.selectMapping id.val)))
    (h : ∀ s u, enumString MappingStatus.names (if enabled then .pending else .disabled) = .ok s →
      P (.sql (.updateEnabled id.val enabled s u))) : (setMappingEnabled C id enabled).Uses P := by
  refine Prog.uses_ofExcept_bind fun s hs => Prog.uses_bind (uses_nowUtc hnow) fun _ => ?_
  refine Prog.uses_bind Prog.uses_ofExcept fun u => Prog.uses_bind (uses_sql (h s u hs)) fun _ => ?_
  exact getMapping_uses C hget

theorem deleteMapping_uses {id : MappingId} (hget : P (.sql (.selectMapping id.val)))
    (h : P (.sql (.deleteMapping id.val))) : (deleteMapping C id).Uses P :=
  Prog.uses_bind (getMapping_uses C hget) fun _ => Prog.uses_bind (uses_sql h) fun _ => Prog.uses_ret

/-- The checks that `insert_mapping` and `update_mapping` start with. -/
theorem requireEdgeConfig_uses (h : P (.sql .selectConfig)) : (requireEdgeConfig C).Uses P := by
  refine Prog.uses_bind (Prog.uses_bind (uses_sql h) fun _ => Prog.uses_ofExcept) fun config => ?_
  cases config with
  | some config => exact Prog.uses_ret
  | none => exact Prog.uses_fail

theorem rejectDuplicates_uses {mapping : Mapping} (h : P (.sql (.selectOthers mapping.id.val))) :
    (rejectDuplicates C mapping).Uses P :=
  Prog.uses_bind (uses_sql h) fun _ => Prog.uses_ofExcept

theorem insertMapping_uses {mapping : Mapping} (hconfig : P (.sql .selectConfig))
    (hothers : P (.sql (.selectOthers mapping.id.val)))
    (h : ∀ row, C.insertRow mapping = .ok row → P (.sql (.insertMapping row))) : (insertMapping C mapping).Uses P := by
  refine Prog.uses_bind (requireEdgeConfig_uses C hconfig) fun _ => Prog.uses_bind Prog.uses_ofExcept fun _ => ?_
  refine Prog.uses_bind (rejectDuplicates_uses C hothers) fun _ => Prog.uses_ofExcept_bind fun row hrow => ?_
  exact uses_sql (h row hrow)

theorem updateMapping_uses {mapping : Mapping} (hconfig : P (.sql .selectConfig))
    (hothers : P (.sql (.selectOthers mapping.id.val)))
    (h : ∀ row, C.updateRow mapping = .ok row → P (.sql (.updateMapping row))) : (updateMapping C mapping).Uses P := by
  refine Prog.uses_bind (requireEdgeConfig_uses C hconfig) fun _ => Prog.uses_bind Prog.uses_ofExcept fun _ => ?_
  refine Prog.uses_bind (rejectDuplicates_uses C hothers) fun _ => Prog.uses_ofExcept_bind fun row hrow => ?_
  refine Prog.uses_bind (uses_sql (h row hrow)) fun n => ?_
  split
  · exact Prog.uses_fail
  · exact Prog.uses_ret

/-- The operations of a client's call: the clock, reads of single rows and of the config, and writes. -/
def IsClientOp (C : Codec) : StoreOp → Prop
  | .now => True
  | .sql .selectConfig | .sql (.selectMapping _) | .sql (.selectOthers _) => True
  | .sql (.updateHealth _ status _ _ lastCheckedAt updatedAt) => HealthOk C status lastCheckedAt updatedAt
  | .sql s => s.IsEdit

theorem storeCall_uses (call : StoreCall) : (call.prog C).Uses (IsClientOp C) := by
  cases call with
  | insert mapping => exact insertMapping_uses C trivial trivial fun _ _ => trivial
  | update mapping => exact updateMapping_uses C trivial trivial fun _ _ => trivial
  | setEnabled id enabled =>
    exact Prog.uses_bind (setMappingEnabled_uses C trivial trivial fun _ _ _ => trivial) fun _ => Prog.uses_ret
  | setHealth id status health error =>
    exact Prog.uses_bind (setMappingHealth_uses C trivial trivial fun _ _ _ _ h => h) fun _ => Prog.uses_ret
  | delete id =>
    exact Prog.uses_bind (deleteMapping_uses C trivial trivial) fun _ => Prog.uses_ret

theorem liftStore_uses {α : Type} {p : StoreProg α} {P' : HostOp → Prop} (h : p.Uses fun o => P' (.store o)) :
    (liftStore p).Uses P' := Prog.uses_mapErr (Prog.uses_embed (fun _ ho => ho) h)

end Uses

/-! ## The parts of `reconcile` -/

section Follows

variable {C : Codec} {q : Progress} {config : EdgeConfig} {options : ReconcileOptions} {path text : String}

theorem quiet_now : (protocol C).Quiet q (.store .now) := ⟨trivial, fun _ => rfl⟩

theorem quiet_insertEvent (level message : String) (data : Option String) (createdAt : String) :
    (protocol C).Quiet q (.store (.sql (.insertEvent level message data createdAt))) :=
  ⟨trivial, fun _ => rfl⟩

theorem quiet_selectMapping (id : String) : (protocol C).Quiet q (.store (.sql (.selectMapping id))) :=
  ⟨trivial, fun _ => rfl⟩

theorem quiet_updateHealth {id status : String} {health error : Option String} {checked updated : String}
    (h : q.edits = true ∨ q.stage = .loaded) (hok : HealthOk C status checked updated) :
    (protocol C).Quiet q (.store (.sql (.updateHealth id status health error checked updated))) :=
  ⟨⟨h, hok⟩, fun _ => rfl⟩

theorem quiet_recordEvent (level : EventLevel) (message : String) (data : Option String) :
    (liftStore (recordEvent C level message data)).Uses ((protocol C).Quiet q) :=
  liftStore_uses (recordEvent_uses C quiet_now fun _ _ => quiet_insertEvent _ _ _ _)

theorem status_of_active {status : GenerationStatus} :
    enumString GenerationStatus.names status = .ok "active" → status = .active := by
  cases status <;> decide

/-- A generation carries the text of the call, and an Active one is recorded after a load. -/
theorem quiet_recordGeneration {status : GenerationStatus} {appliedAt : Option OffsetDateTime}
    {error : Option String} (htext : q.ruleset = some text) (hactive : status = .active → q.stage = .loaded) :
    (liftStore (recordGeneration C status text appliedAt error)).Uses ((protocol C).Quiet q) := by
  refine liftStore_uses (recordGeneration_uses C quiet_now fun s c a hs => ⟨⟨htext, ?_⟩, fun _ => rfl⟩)
  rintro rfl
  exact hactive (status_of_active hs)

theorem quiet_setMappingHealth {id : MappingId} {status : MappingStatus} {health error : Option String}
    (h : q.edits = true ∨ q.stage = .loaded) :
    (liftStore (setMappingHealth C id status health error)).Uses ((protocol C).Quiet q) :=
  liftStore_uses (setMappingHealth_uses C quiet_now (quiet_selectMapping _) fun _ _ _ _ =>
    quiet_updateHealth h)

theorem recordFailure_follows {α : Type} {event message : String} {error : ReconcileError}
    {post : Progress → α → Prop} (htext : q.ruleset = some text) :
    (recordFailure C text event message error).wpOk (protocol C) post q := by
  refine Prog.wpOk_bind_of_uses (quiet_recordGeneration htext fun h => nomatch h) fun _ => ?_
  exact Prog.wpOk_bind_of_uses (quiet_recordEvent _ _ _) fun _ => Prog.wpOk_fail

theorem writeRuleset_follows (hpath : path = q.path) (htext : q.ruleset = some text) (hstage : q.stage = .idle) :
    (writeRuleset C path text).wpOk (protocol C) (fun q' _ => q' = q.atStage .written) q := by
  refine Prog.wpOk_call (M := protocol C) ⟨hpath, htext, hstage⟩ fun r => ?_
  rw [Prog.bind_ret_left]
  cases r with
  | ok u => exact Prog.wpOk_ret rfl
  | error e => exact recordFailure_follows htext

theorem checkRuleset_follows (hpath : path = q.path) (htext : q.ruleset = some text)
    (hstage : q.stage = .written) :
    (checkRuleset C path text).wpOk (protocol C) (fun q' _ => q' = q.atStage .checked) q := by
  refine Prog.wpOk_call (M := protocol C) ⟨hpath, hstage⟩ fun r => ?_
  cases r with
  | timedOut => exact Prog.wpOk_fail
  | ioError message => exact Prog.wpOk_fail
  | exited output =>
    cases hs : output.isSuccess with
    | true =>
      have hq : (protocol C).next q ⟨.nft .check path, .exited output⟩ = q.atStage .checked := by
        simp [protocol, Progress.onCheck, Outcome.Succeeded, hs]
      rw [hq]
      simp only [nftOutput, Except.mapError, Prog.ofExcept, Prog.bind_ret_left, hs, if_true]
      refine Prog.wpOk_bind_of_uses (quiet_recordGeneration htext fun h => by cases h) fun _ => ?_
      exact Prog.wpOk_ret rfl
    | false =>
      have hq : (protocol C).next q ⟨.nft .check path, .exited output⟩ = q.atStage .failed := by
        simp [protocol, Progress.onCheck, Outcome.Succeeded, hs]
      rw [hq]
      simp only [nftOutput, Except.mapError, Prog.ofExcept, Prog.bind_ret_left, hs, Bool.false_eq_true, if_false]
      exact recordFailure_follows htext

theorem applyRuleset_follows (hpath : path = q.path) (htext : q.ruleset = some text)
    (hstage : q.stage = .checked) (happly : q.applyNft = true) :
    (applyRuleset C path text).wpOk (protocol C) (fun q' _ => q' = q.atStage .loaded) q := by
  refine Prog.wpOk_call (M := protocol C) ⟨hpath, hstage, happly⟩ fun r => ?_
  cases r with
  | timedOut => exact Prog.wpOk_fail
  | ioError message => exact Prog.wpOk_fail
  | exited output =>
    simp only [nftOutput, Except.mapError, Prog.ofExcept, Prog.bind_ret_left]
    cases hs : output.isSuccess with
    | true =>
      refine Prog.wpOk_ret ?_
      simp [protocol, Progress.onApply, Outcome.Succeeded, hs]
    | false => exact recordFailure_follows htext

theorem runIp_uses {P : HostOp → Prop} {command : IpCommand} (h : P (.ip command)) : (runIp command).Uses P :=
  Prog.uses_call h fun _ => Prog.uses_ofExcept

theorem interfaceAddresses_uses {P : HostOp → Prop} {interface : String} (h : ∀ command, P (.ip command)) :
    (interfaceAddresses interface).Uses P :=
  Prog.uses_bind (runIp_uses (h _)) fun _ => Prog.uses_ret

theorem ensureAddr_uses {P : HostOp → Prop} {interface : String} {a : Ipv4Addr}
    (h : ∀ command, P (.ip command)) : (ensureAddr interface a).Uses P := by
  refine Prog.uses_bind (interfaceAddresses_uses h) fun existing => ?_
  split
  · exact Prog.uses_ret
  · exact Prog.uses_bind (runIp_uses (h _)) fun _ => Prog.uses_ret

theorem deleteAddrIfPresent_uses {P : HostOp → Prop} {interface : String} {a : Ipv4Addr}
    (h : ∀ command, P (.ip command)) : (deleteAddrIfPresent interface a).Uses P := by
  refine Prog.uses_bind (interfaceAddresses_uses h) fun existing => ?_
  split
  · exact Prog.uses_ret
  · exact Prog.uses_bind (runIp_uses (h _)) fun _ => Prog.uses_ret

/-- The address loop only runs the `ip` tool. -/
theorem syncAddresses_uses {P : HostOp → Prop} {wan : String} (h : ∀ command, P (.ip command))
    (ms : List Mapping) : (syncAddresses wan ms).Uses P := by
  induction ms with
  | nil => exact Prog.uses_ret
  | cons m ms ih =>
    unfold syncAddresses
    split
    · exact Prog.uses_bind (ensureAddr_uses h) fun _ => Prog.uses_bind ih fun _ => Prog.uses_ret
    split
    · exact Prog.uses_bind (deleteAddrIfPresent_uses h) fun _ => Prog.uses_bind ih fun _ => Prog.uses_ret
    · exact ih

theorem healthCheck_uses {P : HostOp → Prop} {ip : Ipv4Addr} {port : Option UInt16} {protocol : Protocol}
    (h : ∀ port, P (.connect ip port)) : (healthCheck ip port protocol).Uses P := by
  unfold healthCheck
  split
  · exact Prog.uses_ret
  cases port with
  | none => exact Prog.uses_ret
  | some port =>
    refine Prog.uses_call (h port) fun r => ?_
    cases r with
    | timedOut => exact Prog.uses_fail
    | failed message => exact Prog.uses_fail
    | connected => exact Prog.uses_ret

theorem quiet_recordHealths (h : q.edits = true ∨ q.stage = .loaded) (ms : List Mapping) :
    (recordHealths C ms).Uses ((protocol C).Quiet q) := by
  induction ms with
  | nil => exact Prog.uses_ret
  | cons m ms ih =>
    refine Prog.uses_bind (Prog.uses_bind (Prog.uses_attempt (healthCheck_uses fun _ => ⟨trivial, fun _ => rfl⟩))
      fun x => ?_) fun _ => ih
    cases x with
    | ok status => exact Prog.uses_bind (quiet_setMappingHealth h) fun _ => Prog.uses_ret
    | error e =>
      refine Prog.uses_bind (quiet_setMappingHealth h) fun _ => ?_
      exact Prog.uses_bind (quiet_recordEvent _ _ _) fun _ => Prog.uses_ret

theorem quiet_recordActive {ms : List Mapping} (htext : q.ruleset = some text) (h : q.stage = .loaded) :
    (recordActive C text ms).Uses ((protocol C).Quiet q) := by
  refine Prog.uses_bind (liftStore_uses (uses_nowUtc quiet_now)) fun now => ?_
  refine Prog.uses_bind (quiet_recordGeneration htext fun _ => h) fun active => ?_
  refine Prog.uses_bind (quiet_recordHealths (.inr h) _) fun _ => ?_
  exact Prog.uses_bind (quiet_recordEvent _ _ _) fun _ => Prog.uses_ret

/-- The ghost state knows what `reconcile` was called with. -/
structure Progress.For (q : Progress) (config : EdgeConfig) (options : ReconcileOptions) : Prop where
  config : q.config = some config
  path : options.nftOutput = q.path
  applyNft : q.applyNft = options.applyNft
  applyLinux : q.applyLinux = options.applyLinux

/-- The stage in which a reconcile that changes something returns. -/
def ReconcileOptions.lastStage (options : ReconcileOptions) : Stage :=
  if options.applyNft then .loaded else .checked

theorem applyStep_follows (hpath : options.nftOutput = q.path) (htext : q.ruleset = some text)
    (hstage : q.stage = .checked) (happly : q.applyNft = options.applyNft) :
    (applyStep C options text).wpOk (protocol C) (fun q' _ => q' = q.atStage options.lastStage) q := by
  unfold applyStep ReconcileOptions.lastStage
  split
  · rename_i h
    exact applyRuleset_follows hpath htext hstage (happly.trans h)
  · refine Prog.wpOk_ret ?_
    rw [← hstage]
    rfl

theorem quiet_addressStep {ms : List Mapping} (happly : q.applyLinux = options.applyLinux)
    (hstage : q.stage = if q.applyNft then .loaded else .checked) :
    (addressStep config options ms).Uses ((protocol C).Quiet q) := by
  unfold addressStep
  split
  · rename_i h
    exact syncAddresses_uses (fun _ => ⟨⟨happly.trans h, hstage⟩, fun _ => rfl⟩) ms
  · exact Prog.uses_ret

theorem quiet_recordStep {ms : List Mapping} {generation : Generation} (htext : q.ruleset = some text)
    (h : options.applyNft = true → q.stage = .loaded) :
    (recordStep C options ms text generation).Uses ((protocol C).Quiet q) := by
  unfold recordStep
  split
  · rename_i hboth
    exact quiet_recordActive htext (h (Bool.and_eq_true_iff.1 hboth).1)
  · exact Prog.uses_bind (quiet_recordEvent _ _ _) fun _ => Prog.uses_ret

theorem applyReconcile_follows {ms : List Mapping} {plan : XdpPlan} (hq : q.For config options)
    (htext : q.ruleset = some text) (hstage : q.stage = .idle) :
    (applyReconcile C config options ms text plan).wpOk (protocol C)
      (fun q' _ => q' = q.atStage options.lastStage) q := by
  refine Prog.wpOk_bind_of_uses (quiet_recordGeneration htext fun h => nomatch h) fun generation => ?_
  refine Prog.wpOk_bind (Prog.wpOk_mono ?_ (writeRuleset_follows hq.path htext hstage))
  rintro q₁ - rfl
  refine Prog.wpOk_bind (Prog.wpOk_mono ?_ (checkRuleset_follows hq.path htext rfl))
  rintro q₂ - rfl
  refine Prog.wpOk_bind (Prog.wpOk_mono ?_ (applyStep_follows hq.path htext rfl hq.applyNft))
  rintro q₃ - rfl
  refine Prog.wpOk_bind_of_uses (quiet_addressStep hq.applyLinux ?_) fun changes => ?_
  · rw [Progress.atStage_stage, ReconcileOptions.lastStage]
    simp only [Progress.atStage_applyNft, hq.applyNft]
  refine Prog.wpOk_bind_of_uses (quiet_recordStep htext fun h => ?_) fun _ => Prog.wpOk_ret rfl
  simp only [Progress.atStage_stage, ReconcileOptions.lastStage, h, if_true]

/-! ## Whole calls -/

theorem listMappings_follows (hstage : q.stage = .idle) (hconfig : q.config ≠ none) :
    (liftStore (listMappings C)).wpOk (protocol C) (fun q' ms => ∃ rows, decodeRows C rows = .ok ms ∧
      q' = { q with ruleset := q.config.bind fun config => rendering C config rows }) q := by
  refine Prog.wpOk_call (M := protocol C) ⟨hstage, hconfig⟩ fun r => ?_
  cases r with
  | error e => exact Prog.wpOk_fail
  | ok rows =>
    change (liftStore (.ofExcept (decodeRows C rows))).wpOk _ _ _
    cases hd : decodeRows C rows with
    | error e => exact Prog.wpOk_fail
    | ok ms => exact Prog.wpOk_ret ⟨rows, hd, rfl⟩

/-- The ruleset of the listing is the text that `reconcile` goes on with. -/
theorem rendering_of_plan {rows : List Row} {ms : List Mapping} {plan : String × XdpPlan}
    (hd : decodeRows C rows = .ok ms) (hp : planReconcile config options ms = .ok plan) :
    renderNftables ms config {} = .ok plan.1 ∧ options.xdp.plan ms config = .ok plan.2 ∧
      rendering C config rows = some plan.1 := by
  unfold planReconcile at hp
  obtain ⟨text, htext, hp⟩ := except_bind_ok.1 hp
  obtain ⟨xdpPlan, hxdp, hp⟩ := except_bind_ok.1 hp
  cases hp
  have hrender : renderNftables ms config {} = .ok text := by
    cases hr : renderNftables ms config {} with
    | ok text' => rw [hr] at htext; exact congrArg _ (Except.ok.inj htext)
    | error e => rw [hr] at htext; cases htext
  have hplan : options.xdp.plan ms config = .ok xdpPlan := by
    cases hr : options.xdp.plan ms config with
    | ok plan' => rw [hr] at hxdp; exact congrArg _ (Except.ok.inj hxdp)
    | error e => rw [hr] at hxdp; cases hxdp
  refine ⟨hrender, hplan, ?_⟩
  simp only [rendering, hd, hrender, Except.toOption]

/-- **`reconcile` follows the protocol**, and a run that changes something ends in its last stage. -/
theorem reconcile_follows (hq : q.For config options) (hstage : q.stage = .idle) :
    (reconcile C config options).wpOk (protocol C) (fun q' _ => q'.edits = q.edits ∧
      (options.dryRun = false → q'.stage = options.lastStage)) q := by
  refine Prog.wpOk_bind (Prog.wpOk_mono ?_ (listMappings_follows hstage (by simp [hq.config])))
  rintro q₁ ms ⟨rows, hd, rfl⟩
  refine Prog.wpOk_bind (Prog.wpOk_ofExcept fun plan hplan => ?_)
  obtain ⟨-, -, htext⟩ := rendering_of_plan hd hplan
  split
  · rename_i hdry
    exact Prog.wpOk_ret ⟨rfl, fun h => absurd h (by simp [hdry])⟩
  split
  · exact Prog.wpOk_fail
  · refine Prog.wpOk_mono ?_ (applyReconcile_follows ⟨hq.config, hq.path, hq.applyNft, hq.applyLinux⟩ ?_ hstage)
    · rintro q' - rfl
      exact ⟨rfl, fun _ => rfl⟩
    · simp only [hq.config, Option.bind_some, htext]

theorem getGeneration_follows {id : ℤ} (hstage : q.stage = .idle) (hconfig : q.config = none) :
    (liftStore (getGeneration C id)).wpOk (protocol C) (fun q' generation =>
      q' = { q with ruleset := some generation.nftablesConfig }) q := by
  refine Prog.wpOk_call (M := protocol C) ⟨hstage, hconfig⟩ fun r => ?_
  cases r with
  | error e => exact Prog.wpOk_fail
  | ok row =>
    cases row with
    | none => exact Prog.wpOk_fail
    | some row =>
      change (liftStore (.ofExcept (rowToGeneration C row))).wpOk _ _ _
      cases hd : rowToGeneration C row with
      | error e => exact Prog.wpOk_fail
      | ok generation =>
        refine Prog.wpOk_ret ?_
        have htext : generation.nftablesConfig = row.nftablesConfig := by
          unfold rowToGeneration at hd
          obtain ⟨status, -, hd⟩ := except_bind_ok.1 hd
          obtain ⟨createdAt, -, hd⟩ := except_bind_ok.1 hd
          obtain ⟨appliedAt, -, hd⟩ := except_bind_ok.1 hd
          cases hd
          rfl
        rw [htext]
        rfl

/-- **`rollback` follows the protocol.** -/
theorem rollback_follows {id : ℤ} (hpath : path = q.path) (happly : q.applyNft = true)
    (hstage : q.stage = .idle) (hconfig : q.config = none) :
    (rollback C id path).wpOk (protocol C) (fun _ _ => True) q := by
  refine Prog.wpOk_bind (Prog.wpOk_mono ?_ (getGeneration_follows hstage hconfig))
  rintro q₁ generation rfl
  refine Prog.wpOk_call (M := protocol C) ⟨hpath, rfl, hstage⟩ fun r => ?_
  rw [Prog.bind_ret_left]
  cases r with
  | error e => exact Prog.wpOk_fail
  | ok u =>
    refine Prog.wpOk_call (M := protocol C) ⟨hpath, rfl⟩ fun r => ?_
    cases r with
    | timedOut => exact Prog.wpOk_fail
    | ioError message => exact Prog.wpOk_fail
    | exited output =>
      simp only [nftOutput, Except.mapError, Prog.ofExcept, Prog.bind_ret_left]
      cases hs : output.isSuccess with
      | false => exact Prog.wpOk_bind_of_uses (quiet_recordEvent _ _ _) fun _ => Prog.wpOk_fail
      | true =>
        refine Prog.wpOk_call (M := protocol C) ⟨hpath, ?_, happly⟩ fun r => ?_
        · simp [protocol, Progress.onCheck, Outcome.Succeeded, hs]
        cases r with
        | timedOut => exact Prog.wpOk_fail
        | ioError message => exact Prog.wpOk_fail
        | exited output =>
          simp only [nftOutput, Except.mapError, Prog.ofExcept, Prog.bind_ret_left]
          split
          · exact Prog.wpOk_bind_of_uses (quiet_recordEvent _ _ _) fun _ => Prog.wpOk_fail
          · exact Prog.wpOk_bind_of_uses (quiet_recordEvent _ _ _) fun _ => Prog.wpOk_ret trivial

end Follows

/-- The ghost state a call starts in. -/
def HostCall.start : HostCall → Progress
  | .store _ => ⟨none, "", false, false, true, none, .idle⟩
  | .reconcile config options =>
    ⟨some config, options.nftOutput, options.applyNft, options.applyLinux, false, none, .idle⟩
  | .rollback _ nftOutput => ⟨none, nftOutput, true, false, false, none, .idle⟩
  | .apiDelete config _ => ⟨some config, ({} : ReconcileOptions).nftOutput, true, true, true, none, .idle⟩

/-- What the protocol says of a call that returned. -/
def HostCall.Done : HostCall → Progress → Prop
  | .reconcile _ options, q => options.dryRun = false → q.stage = options.lastStage
  | _, _ => True

variable {C : Codec}

/-- The operations of a client's call are quiet where edits are allowed. -/
theorem quiet_of_isClientOp {q : Progress} (hq : q.edits = true) {o : StoreOp} (ho : IsClientOp C o) :
    (protocol C).Quiet q (.store o) := by
  cases o with
  | now => exact quiet_now
  | sql s =>
    refine ⟨?_, fun r => ?_⟩
    · cases s <;> first | exact trivial | exact hq | exact ⟨.inl hq, ho⟩ | exact absurd ho id
    · cases s <;> first | rfl | exact absurd ho id

/-- **Every call follows the protocol.** -/
theorem call_follows (call : HostCall) :
    (call.prog C).wpOk (protocol C) (fun q _ => call.Done q) call.start := by
  cases call with
  | store call =>
    refine Prog.wpOk_of_uses (liftStore_uses (Prog.uses_mono (fun o ho => ?_) (storeCall_uses C call))) fun _ => trivial
    exact quiet_of_isClientOp rfl ho
  | reconcile config options =>
    refine Prog.wpOk_bind (Prog.wpOk_mono ?_ (reconcile_follows ⟨rfl, rfl, rfl, rfl⟩ rfl))
    intro q _ hdone
    exact Prog.wpOk_ret hdone.2
  | rollback id path => exact rollback_follows rfl rfl rfl rfl
  | apiDelete config id =>
    refine Prog.wpOk_bind (Prog.wpOk_bind (Prog.wpOk_ofExcept fun id _ => ?_))
    refine Prog.wpOk_bind_of_uses (liftStore_uses (setMappingEnabled_uses C quiet_now (quiet_selectMapping _)
      fun _ _ _ => ⟨rfl, fun _ => rfl⟩)) fun _ => ?_
    refine Prog.wpOk_bind (Prog.wpOk_mono ?_ (Prog.wpOk_attempt (reconcile_follows ⟨rfl, rfl, rfl, rfl⟩ rfl)))
    intro q x hx
    cases x with
    | error e => exact Prog.wpOk_bind_of_uses (quiet_recordEvent _ _ _) fun _ => Prog.wpOk_fail
    | ok report =>
      refine Prog.wpOk_of_uses (liftStore_uses (deleteMapping_uses C (quiet_selectMapping _) ?_))
        fun _ => Prog.wpOk_ret trivial
      exact ⟨(hx report rfl).1, fun _ => rfl⟩

end EdgeRoute
