import EdgeRoute.Proof.Protocol

/-!
# What a reconcile asks for

* `AdmitsEvents`, `AdmitsLog`, `AdmitsLoad`, `AdmitsHealth`, `AdmitsRecord`, `AdmitsAll`: sets with the operations of
  parts of a reconcile.
* `reconcile_uses`, `rollback_uses`: a set of operations that has these has all that the call asks for.
-/

namespace EdgeRoute

open Effect

variable {C : Codec} {P : HostOp → Prop} {config : EdgeConfig} {options : ReconcileOptions} {ms : List Mapping}
  {path text : String} {α : Type}

/-- The set has what every part may ask for: the clock and events. -/
structure AdmitsEvents (P : HostOp → Prop) : Prop where
  now : P (.store .now)
  event : ∀ level message data createdAt, P (.store (.sql (.insertEvent level message data createdAt)))

/-- The set also has the generations that are not Active. -/
structure AdmitsLog (P : HostOp → Prop) : Prop extends AdmitsEvents P where
  generation : ∀ status text createdAt appliedAt error, status ≠ "active" →
    P (.store (.sql (.insertGeneration status text createdAt appliedAt error)))

/-- The set also has the write of the file and `nft`. -/
structure AdmitsLoad (P : HostOp → Prop) : Prop extends AdmitsLog P where
  write : ∀ path text, P (.atomicWrite path text)
  nft : ∀ mode path, P (.nft mode path)

/-- The set has the clock, events and what the health loop asks for. -/
structure AdmitsHealth (C : Codec) (P : HostOp → Prop) : Prop extends AdmitsEvents P where
  connect : ∀ ip port, P (.connect ip port)
  row : ∀ id, P (.store (.sql (.selectMapping id)))
  health : ∀ id status healthStatus lastError checked updated, status = "active" ∨ status = "degraded" →
    HealthOk C status checked updated →
    P (.store (.sql (.updateHealth id status healthStatus lastError checked updated)))

/-- The set also has the Active generations. -/
structure AdmitsRecord (C : Codec) (P : HostOp → Prop) : Prop extends AdmitsHealth C P where
  active : ∀ text createdAt appliedAt error,
    P (.store (.sql (.insertGeneration "active" text createdAt appliedAt error)))

/-- The set has all that a reconcile asks for. -/
structure AdmitsAll (C : Codec) (P : HostOp → Prop) : Prop extends AdmitsLoad P, AdmitsRecord C P where
  listing : P (.store (.sql .selectMappings))
  ip : ∀ command, P (.ip command)

theorem liftEvent_uses (h : AdmitsEvents P) {level : EventLevel} {message : String} {data : Option String} :
    (liftStore (recordEvent C level message data)).Uses P :=
  liftStore_uses (recordEvent_uses C h.now fun _ _ => h.event _ _ _ _)

theorem liftGeneration_uses (h : AdmitsLog P) {status : GenerationStatus} {appliedAt : Option OffsetDateTime}
    {error : Option String} (hstatus : status ≠ .active) :
    (liftStore (recordGeneration C status text appliedAt error)).Uses P := by
  refine liftStore_uses (recordGeneration_uses C h.now fun s c a hs => h.generation _ _ _ _ _ fun hactive => ?_)
  exact hstatus (status_of_active (hs.trans (congrArg Except.ok hactive)))

theorem recordFailure_uses (h : AdmitsLog P) {event message : String} {error : ReconcileError} :
    (recordFailure (α := α) C text event message error).Uses P :=
  Prog.uses_bind (liftGeneration_uses h (by decide)) fun _ => Prog.uses_bind (liftEvent_uses h.toAdmitsEvents)
    fun _ => Prog.uses_fail

theorem writeRuleset_uses (h : AdmitsLoad P) : (writeRuleset C path text).Uses P := by
  refine Prog.uses_bind (Prog.uses_call (h.write _ _) fun _ => Prog.uses_ret) fun r => ?_
  cases r with
  | ok u => exact Prog.uses_ret
  | error e => exact recordFailure_uses h.toAdmitsLog

theorem runNft_uses (h : AdmitsLoad P) {mode : NftMode} : (runNft mode path).Uses P :=
  Prog.uses_call (h.nft _ _) fun _ => Prog.uses_ofExcept

theorem checkRuleset_uses (h : AdmitsLoad P) : (checkRuleset C path text).Uses P := by
  refine Prog.uses_bind (runNft_uses h) fun output => ?_
  split
  · exact Prog.uses_bind (liftGeneration_uses h.toAdmitsLog (by decide)) fun _ => Prog.uses_ret
  · exact recordFailure_uses h.toAdmitsLog

theorem applyStep_uses (h : AdmitsLoad P) : (applyStep C options text).Uses P := by
  unfold applyStep
  split
  · refine Prog.uses_bind (runNft_uses h) fun output => ?_
    split
    · exact Prog.uses_ret
    · exact recordFailure_uses h.toAdmitsLog
  · exact Prog.uses_ret

theorem recordPartial_uses (h : AdmitsEvents P) {generation : Generation} :
    (recordPartial C options generation).Uses P :=
  Prog.uses_bind (liftEvent_uses h) fun _ => Prog.uses_ret

theorem addressStep_uses (h : ∀ command, P (.ip command)) : (addressStep config options ms).Uses P := by
  unfold addressStep
  split
  · exact syncAddresses_uses h ms
  · exact Prog.uses_ret

/-- A reconcile up to its record. -/
theorem applyReconcile_uses (h : AdmitsLoad P) (hip : ∀ command, P (.ip command))
    (hrecord : ∀ generation, (recordStep C options ms text generation).Uses P) {plan : XdpPlan} :
    (applyReconcile C config options ms text plan).Uses P := by
  refine Prog.uses_bind (liftGeneration_uses h.toAdmitsLog (by decide)) fun generation => ?_
  refine Prog.uses_bind (writeRuleset_uses h) fun _ => Prog.uses_bind (checkRuleset_uses h) fun _ => ?_
  refine Prog.uses_bind (applyStep_uses h) fun _ => Prog.uses_bind (addressStep_uses hip) fun _ => ?_
  exact Prog.uses_bind (hrecord generation) fun _ => Prog.uses_ret

theorem reconcile_uses_of (h : AdmitsLoad P) (hlisting : P (.store (.sql .selectMappings)))
    (hip : ∀ command, P (.ip command))
    (hrecord : ∀ ms text generation, (recordStep C options ms text generation).Uses P) :
    (reconcile C config options).Uses P := by
  refine Prog.uses_bind (liftStore_uses (Prog.uses_bind (uses_sql hlisting) fun _ => Prog.uses_ofExcept)) fun ms => ?_
  refine Prog.uses_bind Prog.uses_ofExcept fun plan => ?_
  split
  · exact Prog.uses_ret
  split
  · exact Prog.uses_fail
  · exact applyReconcile_uses h hip (hrecord _ _)

/-! ## A full apply -/

theorem liftHealth_uses (h : AdmitsHealth C P) {id : MappingId} {status : MappingStatus} {health error : Option String}
    (hstatus : status = .active ∨ status = .degraded) :
    (liftStore (setMappingHealth C id status health error)).Uses P := by
  refine liftStore_uses (setMappingHealth_uses C h.now (h.row _) fun s l u hs hok => h.health _ _ _ _ _ _ ?_ hok)
  rcases hstatus with rfl | rfl
  · exact .inl (Except.ok.inj hs).symm
  · exact .inr (Except.ok.inj hs).symm

theorem recordHealths_uses (h : AdmitsHealth C P) : (recordHealths C ms).Uses P := by
  induction ms with
  | nil => exact Prog.uses_ret
  | cons m ms ih =>
    refine Prog.uses_bind (Prog.uses_bind (Prog.uses_attempt (healthCheck_uses (h.connect _))) fun x => ?_) fun _ => ih
    cases x with
    | ok status => exact Prog.uses_bind (liftHealth_uses h (.inl rfl)) fun _ => Prog.uses_ret
    | error e =>
      refine Prog.uses_bind (liftHealth_uses h (.inr rfl)) fun _ => ?_
      exact Prog.uses_bind (liftEvent_uses h.toAdmitsEvents) fun _ => Prog.uses_ret

theorem recordStep_uses (h : AdmitsHealth C P) {generation : Generation}
    (hactive : ∀ createdAt appliedAt error,
      P (.store (.sql (.insertGeneration "active" text createdAt appliedAt error)))) :
    (recordStep C options ms text generation).Uses P := by
  unfold recordStep
  split
  · refine Prog.uses_bind (liftStore_uses (uses_nowUtc h.now)) fun _ => ?_
    refine Prog.uses_bind (liftStore_uses (recordGeneration_uses C h.now fun s c a hs => ?_)) fun _ => ?_
    · obtain rfl := Except.ok.inj hs
      exact hactive _ _ _
    refine Prog.uses_bind (recordHealths_uses h) fun _ => ?_
    exact Prog.uses_bind (liftEvent_uses h.toAdmitsEvents) fun _ => Prog.uses_ret
  · exact recordPartial_uses h.toAdmitsEvents

/-- **What a reconcile asks for.** -/
theorem reconcile_uses (h : AdmitsAll C P) : (reconcile C config options).Uses P :=
  reconcile_uses_of h.toAdmitsLoad h.listing h.ip fun _ _ _ => recordStep_uses h.toAdmitsHealth (h.active _)

/-- **What a rollback asks for.** -/
theorem rollback_uses (h : AdmitsLoad P) {id : ℤ} (hget : P (.store (.sql (.selectGeneration id)))) :
    (rollback C id path).Uses P := by
  refine Prog.uses_bind (liftStore_uses (Prog.uses_bind (uses_sql hget) fun row => ?_)) fun generation => ?_
  · cases row with
    | some row => exact Prog.uses_ofExcept
    | none => exact Prog.uses_fail
  refine Prog.uses_bind (Prog.uses_call (h.write _ _) fun _ => Prog.uses_ret) fun r => ?_
  cases r with
  | error e => exact Prog.uses_fail
  | ok u =>
    refine Prog.uses_bind (runNft_uses h) fun output => ?_
    split
    · exact Prog.uses_bind (liftEvent_uses h.toAdmitsEvents) fun _ => Prog.uses_fail
    refine Prog.uses_bind (runNft_uses h) fun output => ?_
    split
    · exact Prog.uses_bind (liftEvent_uses h.toAdmitsEvents) fun _ => Prog.uses_fail
    · exact Prog.uses_bind (liftEvent_uses h.toAdmitsEvents) fun _ => Prog.uses_ret

end EdgeRoute
