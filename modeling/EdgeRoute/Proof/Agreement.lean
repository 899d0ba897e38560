import EdgeRoute.Proof.Release

/-!
# Status and flag

A row says twice that it is off: its status is `disabled`, and its flag is zero. The inserts and the
enable UPDATE write both. The health UPDATE writes a status alone, and a call that allocates or
releases writes one beside the flag it has read.

* `status_agrees_of_fits`: **the two agree in every reachable state of the runs** in which an allocate
  writes back rows that it read as enabled, a release rows that it read as disabled, and a health check
  is recorded for a row that is still enabled.
* `release_switches_off`: a release of an enabled mapping breaks the agreement.
-/

namespace EdgeRoute

open Effect

variable {C : Codec} {J : OciJson} {N : String → Except String NetbirdStatus} {config : EdgeConfig}
  {headers : HeaderMap} {α ε : Type} {m : Mapping} {row : Row}

/-- The status is `disabled` exactly when the flag is zero. -/
def Row.Agrees (row : Row) : Prop := row.status = "disabled" ↔ row.enabled = 0

/-- The same of a mapping. -/
def Mapping.Agrees (m : Mapping) : Prop := m.status = .disabled ↔ m.enabled = false

/-! ## What a call may write -/

/-- The status that a call writes beside what it has read of a row. -/
def ApiCall.marks : ApiCall → Option MappingStatus
  | .ociAllocate _ => some .pending
  | .ociRelease _ => some .disabled
  | _ => none

/-- What a call remembers: the status it writes back, and the rows it has read. -/
structure Editing where
  marks : Option MappingStatus
  read : List Row

def Editing.allowsSql (q : Editing) : Stmt → Prop
  | .insertMapping row => row.Agrees
  | .updateMapping cols => ∃ status, q.marks = some status ∧
      enumString MappingStatus.names status = .ok cols.status ∧ ∃ row ∈ q.read, cols.enabled = 0 ↔ row.enabled = 0
  | .updateEnabled _ enabled status _ =>
    enumString MappingStatus.names (if enabled then .pending else .disabled) = .ok status
  | .updateHealth _ status _ _ _ _ => status = "active" ∨ status = "degraded"
  | _ => True

/-- The monitor of the statements. -/
def edits : Monitor StoreSig Editing where
  allow q o := match o with
    | .sql s => q.allowsSql s
    | .now => True
  next q e := match e with
    | ⟨.sql (.selectMapping _), .ok (some row)⟩ => { q with read := row :: q.read }
    | _ => q

/-- The same among the operations of a front end. -/
def agentEdits : Monitor AgentSig Editing where
  allow q o := match o with
    | .host (.store o) => edits.allow q o
    | _ => True
  next q e := match e with
    | ⟨.host (.store o), r⟩ => edits.next q ⟨o, r⟩
    | _ => q

theorem onStore_edits {p : StoreProg α} {q : Editing} {post : Editing → α → Prop} (h : p.wpOk edits post q) :
    (onStore p).wpOk agentEdits post q := by
  unfold onStore liftHost
  rw [Prog.embed_embed]
  refine Prog.wpOk_embed (T := AgentSig) (N := agentEdits) ?_ ?_ h
  · exact fun _ _ ho => ho
  · exact fun _ _ _ => rfl

/-! ## Rows that agree -/

theorem enumString_disabled {status : MappingStatus} {text : String}
    (h : enumString MappingStatus.names status = .ok text) : text = "disabled" ↔ status = .disabled := by
  cases status <;> cases h <;> decide

/-- What is written of the two fields. -/
theorem bindMapping_flag {lastCheckedAt : Option String} {createdAt updatedAt : String}
    (h : Codec.bindMapping m lastCheckedAt createdAt updatedAt = .ok row) :
    enumString MappingStatus.names m.status = .ok row.status ∧ (row.enabled = 0 ↔ m.enabled = false) := by
  unfold Codec.bindMapping at h
  simp only [except_bind_ok] at h
  obtain ⟨_, -, _, -, _, -, status, hs, h⟩ := h
  cases h
  refine ⟨hs, ?_⟩
  cases m.enabled <;> simp

theorem insertRow_flag (h : C.insertRow m = .ok row) :
    enumString MappingStatus.names m.status = .ok row.status ∧ (row.enabled = 0 ↔ m.enabled = false) := by
  unfold Codec.insertRow at h
  simp only [except_bind_ok] at h
  obtain ⟨_, -, _, -, _, -, h⟩ := h
  exact bindMapping_flag h

theorem updateRow_flag (h : C.updateRow m = .ok row) :
    enumString MappingStatus.names m.status = .ok row.status ∧ (row.enabled = 0 ↔ m.enabled = false) := by
  unfold Codec.updateRow at h
  simp only [except_bind_ok] at h
  obtain ⟨_, -, _, -, h⟩ := h
  exact bindMapping_flag h

/-- What is read of them. -/
theorem rowToMapping_flag (h : C.rowToMapping row = .ok m) :
    enumString MappingStatus.names m.status = .ok row.status ∧ (row.enabled = 0 ↔ m.enabled = false) := by
  have hdecoded := rowToMapping_ok.1 h
  refine ⟨enumString_enumFromString (by decide) hdecoded.status, ?_⟩
  rw [← hdecoded.enabled]
  simp

theorem agrees_of_flag (hs : enumString MappingStatus.names m.status = .ok row.status)
    (he : row.enabled = 0 ↔ m.enabled = false) : row.Agrees ↔ m.Agrees := by
  unfold Row.Agrees Mapping.Agrees
  rw [enumString_disabled hs, he]

/-- A row that agrees is read as a mapping that does. -/
theorem Row.Agrees.mapping (h : row.Agrees) (hm : C.rowToMapping row = .ok m) : m.Agrees := by
  obtain ⟨hs, he⟩ := rowToMapping_flag hm
  exact (agrees_of_flag hs he).1 h

/-! ## Calls that write no row they have read -/

/-- An operation that is allowed at any time. -/
def Unconditional (o : AgentOp) : Prop := ∀ q, agentEdits.allow q o

theorem unconditional_of_inert {o : AgentOp} (h : Inert o) : Unconditional o := by
  intro q
  cases o with
  | host o =>
    cases o with
    | store o =>
      cases o with
      | now => trivial
      | sql s =>
        cases s with
        | insertMapping row | updateMapping cols => exact absurd trivial h
        | updateEnabled id enabled status updatedAt => exact absurd trivial h
        | updateHealth id status health error checked updated => exact h
        | _ => trivial
    | atomicWrite | nft | ip | connect => trivial
  | oci | selectEvents | newId | netbirdStatus | routeGet | envVar => trivial

theorem unconditional_store {p : StoreProg α} (h : p.Uses fun o => ∀ q, edits.allow q o) :
    (Api.store p).Uses Unconditional := apiStore_uses h

theorem unconditional_setEnabled {id : MappingId} {enabled : Bool} :
    (setMappingEnabled C id enabled).Uses fun o => ∀ q, edits.allow q o :=
  setMappingEnabled_uses C (fun _ => trivial) (fun _ => trivial) fun _ _ hs _ => hs

/-- A new mapping is enabled and pending, whatever the request sets in it. -/
theorem unconditional_create {request : CreateMappingRequest} :
    (Api.createMapping C config headers request).Uses Unconditional := by
  refine Prog.uses_bind Prog.uses_ofExcept fun _ => ?_
  -- the fields that the request sets are neither of the two
  refine Prog.uses_call (fun _ => trivial) fun id => Prog.uses_call (fun _ => trivial) fun now => ?_
  simp only [Prog.bind_eq, Prog.bind_ret_left]
  refine Prog.uses_bind (unconditional_store ?_) fun _ => Prog.uses_ret
  refine insertMapping_uses C (fun _ => trivial) (fun _ => trivial) fun row hrow _ => ?_
  obtain ⟨hs, he⟩ := insertRow_flag hrow
  refine (agrees_of_flag hs he).2 ?_
  simp [Mapping.Agrees, Mapping.new]

theorem unconditional_delete {id : String} : (Api.deleteMapping C config headers id).Uses Unconditional := by
  refine Prog.uses_bind Prog.uses_ofExcept fun _ => Prog.uses_bind Prog.uses_ofExcept fun id => ?_
  refine Prog.uses_bind (unconditional_store unconditional_setEnabled) fun _ => ?_
  refine Prog.uses_bind (Prog.uses_attempt (liftHost_uses ?_)) fun x => ?_
  · exact Prog.uses_mono (fun _ ho => unconditional_of_inert ho) (noEdit_reconcile config {})
  cases x with
  | error e =>
    refine Prog.uses_bind (unconditional_store ?_) fun _ => Prog.uses_fail
    exact recordEvent_uses C (fun _ => trivial) fun _ _ _ => trivial
  | ok report =>
    refine Prog.uses_bind (unconditional_store ?_) fun _ => Prog.uses_ret
    exact deleteMapping_uses C (fun _ => trivial) fun _ => trivial

theorem unconditional_enable {id : String} {enabled : Bool} :
    (Api.setEnabled C config headers id enabled).Uses Unconditional := by
  refine Prog.uses_bind Prog.uses_ofExcept fun _ => Prog.uses_bind Prog.uses_ofExcept fun id => ?_
  exact Prog.uses_bind (unconditional_store unconditional_setEnabled) fun _ => Prog.uses_ret

theorem unconditional_api (call : ApiCall) (h : call.marks = none) :
    (call.prog C J N config headers).Uses Unconditional := by
  by_cases hedit : call.IsEdit
  · cases call with
    | createMapping request => exact unconditional_create
    | deleteMapping id => exact unconditional_delete
    | enableMapping id | disableMapping id => exact unconditional_enable
    | ociAllocate request | ociRelease request => cases h
    | _ => exact absurd hedit id
  · exact Prog.uses_mono (fun _ ho => unconditional_of_inert ho) (inert_api call hedit)

/-! ## Calls that do -/

variable {q : Editing} {id : MappingId} {status : MappingStatus}

/-- The row that a mapping was read from. -/
def Editing.Has (C : Codec) (q : Editing) (m : Mapping) : Prop := ∃ row ∈ q.read, C.rowToMapping row = .ok m

theorem getMapping_edits : (getMapping C id).wpOk edits (fun q' m => q'.marks = q.marks ∧ q'.Has C m) q := by
  refine Prog.wpOk_bind (Prog.wpOk_call trivial fun r => ?_)
  cases r with
  | error e => exact Prog.wpOk_fail
  | ok row =>
    cases row with
    | none => exact Prog.wpOk_ret Prog.wpOk_fail
    | some row => exact Prog.wpOk_ret (Prog.wpOk_ofExcept fun m hm => ⟨rfl, row, List.mem_cons_self, hm⟩)

/-- The write of a mapping whose flag was read. -/
theorem updateMapping_edits {m' : Mapping} (hq : q.marks = some m'.status) (hhas : q.Has C m)
    (henabled : m'.enabled = m.enabled) : (updateMapping C m').wpOk edits (fun _ _ => True) q := by
  refine Prog.wpOk_of_uses (updateMapping_uses C ?_ ?_ ?_) fun _ => trivial
  · exact ⟨trivial, fun _ => rfl⟩
  · exact ⟨trivial, fun _ => rfl⟩
  · intro cols hcols
    obtain ⟨hs, he⟩ := updateRow_flag hcols
    obtain ⟨row, hrow, hm⟩ := hhas
    refine ⟨⟨m'.status, hq, hs, row, hrow, ?_⟩, fun _ => rfl⟩
    rw [he, (rowToMapping_flag hm).2, henabled]

/-- The row of an allocation, or what gives the addresses back: that writes no row. -/
theorem storeAllocation_edits {onFailure : EdgeCoreError → Except OciError Unit → Except OciError Unit → ε}
    {allocation : Allocation} (hq : q.marks = some .pending) (hhas : q.Has C m) :
    (storeAllocation C onFailure m allocation).wpOk agentEdits (fun _ _ => True) q := by
  refine Prog.wpOk_bind (Prog.wpOk_call trivial fun now => Prog.wpOk_ret ?_)
  refine Prog.wpOk_bind (Prog.wpOk_mono ?_ (Prog.wpOk_attempt (onStore_edits (updateMapping_edits hq hhas rfl))))
  intro q' x _
  cases x with
  | ok u => exact Prog.wpOk_ret trivial
  | error e =>
    have hdelete : ∀ {p : OciProg Unit}, ((liftOci p).attempt :
        AgentProg ε (Except OciError Unit)).Uses Unconditional :=
      Prog.uses_attempt (liftOci_uses (Prog.uses_of_forall fun _ _ => trivial))
    refine Prog.wpOk_of_allow (Prog.uses_bind hdelete fun _ => Prog.uses_bind hdelete fun _ => Prog.uses_fail)

/-- Operations of the cloud alone leave what is remembered. -/
theorem quiet_oci {p : OciProg α} : (Api.oci p).Uses (agentEdits.Quiet q) :=
  apiOci_uses (Prog.uses_of_forall fun _ => ⟨trivial, fun _ => rfl⟩)

theorem apiStore_edits {p : StoreProg α} {post : Editing → α → Prop} (h : p.wpOk edits post q) :
    (Api.store p).wpOk agentEdits post q := Prog.wpOk_mapErr (onStore_edits h)

/-- An event at the end of a call. -/
theorem recordEvent_edits {level : EventLevel} {message : String} {data : Option String} {a : ApiResponse} :
    ((do
      let _ ← (onStore (recordEvent C level message data)).attempt
      pure a) : ApiProg ApiResponse).wpOk agentEdits (fun _ _ => True) q := by
  refine Prog.wpOk_of_allow (Prog.uses_bind ?_ fun _ => Prog.uses_ret)
  exact Prog.uses_mono (fun _ ho => unconditional_of_inert ho) inert_attemptEvent

theorem allocate_edits {request : OciAllocateRequest} :
    (Api.ociAllocate C J config headers request).wpOk agentEdits (fun _ _ => True) ⟨some .pending, []⟩ := by
  refine Prog.wpOk_bind (Prog.wpOk_ofExcept fun _ _ => Prog.wpOk_bind (Prog.wpOk_ofExcept fun _ _ => ?_))
  refine Prog.wpOk_bind (Prog.wpOk_ofExcept fun id _ => ?_)
  refine Prog.wpOk_bind (Prog.wpOk_mono ?_ (apiStore_edits getMapping_edits))
  intro q m hm
  obtain ⟨hmarks, hhas⟩ := hm
  refine Prog.wpOk_bind (Prog.wpOk_ofExcept fun _ _ => Prog.wpOk_bind (Prog.wpOk_ofExcept fun _ _ => ?_))
  refine Prog.wpOk_bind (Prog.wpOk_ofExcept fun _ _ => ?_)
  refine Prog.wpOk_bind_of_uses quiet_oci fun allocation => ?_
  refine Prog.wpOk_bind (Prog.wpOk_mono ?_ (storeAllocation_edits hmarks hhas))
  intro q' m' _
  exact recordEvent_edits

theorem release_edits {request : OciReleaseRequest} :
    (Api.ociRelease C config headers request).wpOk agentEdits (fun _ _ => True) ⟨some .disabled, []⟩ := by
  have hdelete : ∀ {q : Editing} publicIp privateIp, (Api.deleteIps publicIp privateIp).Uses (agentEdits.Quiet q) :=
    fun publicIp privateIp => deleteIps_uses (fun _ => ⟨trivial, fun _ => rfl⟩) publicIp privateIp
  refine Prog.wpOk_bind (Prog.wpOk_ofExcept fun _ _ => Prog.wpOk_bind (Prog.wpOk_ofExcept fun _ _ => ?_))
  cases resolve request.mappingId none with
  | none =>
    refine Prog.wpOk_bind (Prog.wpOk_ofExcept fun _ _ => ?_)
    exact Prog.wpOk_bind_of_uses (hdelete _ _) fun _ => Prog.wpOk_ret trivial
  | some id =>
    refine Prog.wpOk_bind (Prog.wpOk_ofExcept fun id _ => ?_)
    refine Prog.wpOk_bind (Prog.wpOk_mono ?_ (apiStore_edits getMapping_edits))
    intro q m hm
    obtain ⟨hmarks, hhas⟩ := hm
    refine Prog.wpOk_bind (Prog.wpOk_ofExcept fun _ _ => Prog.wpOk_bind_of_uses (hdelete _ _) fun _ => ?_)
    refine Prog.wpOk_bind (Prog.wpOk_call trivial fun now => Prog.wpOk_ret ?_)
    refine Prog.wpOk_bind (Prog.wpOk_mono ?_ (apiStore_edits (updateMapping_edits hmarks hhas rfl)))
    intro q' _ _
    exact recordEvent_edits

/-- **Every call keeps to the monitor.** -/
theorem api_edits (call : ApiCall) :
    (call.prog C J N config headers).wpOk agentEdits (fun _ _ => True) ⟨call.marks, []⟩ := by
  by_cases h : call.marks = none
  · exact Prog.wpOk_of_allow (unconditional_api call h)
  · cases call with
    | ociAllocate request => exact allocate_edits
    | ociRelease request => exact release_edits
    | _ => exact absurd rfl h

/-! ## Runs -/

/-- The row that an operation reads by its id. -/
def rowRead : Event AgentSig → Option Row
  | ⟨.host (.store (.sql (.selectMapping _))), .ok row⟩ => row
  | _ => none

/-- The full UPDATE, where it found its row. -/
def writesRow : Event AgentSig → Bool
  | ⟨.host (.store (.sql (.updateMapping _))), .ok n⟩ => n != 0
  | _ => false

/-- **What a call may write back**: if it writes a row, it has read it as off exactly when it marks it
as off. An allocate marks rows as pending, a release as disabled. -/
def Fits (call : ApiCall) (tr : List (Event AgentSig)) : Prop :=
  ∀ status ∈ call.marks, tr.any writesRow = true → ∀ row ∈ tr.filterMap rowRead, status = .disabled ↔ row.enabled = 0

/-- The health of a mapping is recorded while it is enabled. -/
def HealthTimely (w : AgentWorld) : (o : AgentOp) → o.Reply → Prop
  | .host (.store (.sql (.updateHealth id _ _ _ _ _))), .ok _ =>
    ∀ row ∈ w.host.db.mappings.rows, row.id = id → row.enabled ≠ 0
  | _, _ => True

/-- **The world, where no health write comes late.** -/
def timelyEnv (J : OciJson) : Env AgentSig AgentWorld := fun w o r w' => agentEnv J w o r w' ∧ HealthTimely w o r

theorem Fits.of_append {call : ApiCall} {tr tr' : List (Event AgentSig)} (h : Fits call (tr ++ tr')) :
    Fits call tr := by
  intro status hstatus hwrites row hrow
  refine h status hstatus ?_ row ?_
  · rw [List.any_append, hwrites, Bool.true_or]
  · rw [List.filterMap_append]
    exact List.mem_append_left _ hrow

/-- What a call remembers is what it has read, and what it marks rows with stays. -/
theorem after_edits (q : Editing) (tr : List (Event AgentSig)) :
    (agentEdits.after q tr).marks = q.marks ∧
      ∀ row ∈ (agentEdits.after q tr).read, row ∈ q.read ∨ row ∈ tr.filterMap rowRead := by
  induction tr generalizing q with
  | nil => exact ⟨rfl, fun row hrow => .inl hrow⟩
  | cons e tr ih =>
    have hone : (agentEdits.next q e).marks = q.marks ∧
        ∀ row ∈ (agentEdits.next q e).read, row ∈ q.read ∨ rowRead e = some row := by
      obtain ⟨o, r⟩ := e
      by_cases hread : ∃ id row, (⟨o, r⟩ : Event AgentSig) = ⟨.host (.store (.sql (.selectMapping id))), .ok (some row)⟩
      · obtain ⟨id, row, he⟩ := hread
        rw [he]
        refine ⟨rfl, fun row' hrow' => ?_⟩
        rcases List.mem_cons.1 hrow' with rfl | hrow'
        · exact .inr rfl
        · exact .inl hrow'
      · have hquiet : agentEdits.next q ⟨o, r⟩ = q := by
          cases o with
          | host o =>
            cases o with
            | store o =>
              cases o with
              | now => rfl
              | sql s =>
                cases s with
                | selectMapping id =>
                  cases r with
                  | error e => rfl
                  | ok row =>
                    cases row with
                    | none => rfl
                    | some row => exact absurd ⟨id, row, rfl⟩ hread
                | _ => rfl
            | atomicWrite | nft | ip | connect => rfl
          | oci | selectEvents | newId | netbirdStatus | routeGet | envVar => rfl
        rw [hquiet]
        exact ⟨rfl, fun row hrow => .inl hrow⟩
    obtain ⟨hmarks, hrows⟩ := ih (agentEdits.next q e)
    refine ⟨hmarks.trans hone.1, fun row hrow => ?_⟩
    rcases hrows row hrow with hrow | hrow
    · rcases hone.2 row hrow with hrow | he
      · exact .inl hrow
      · exact .inr (List.mem_filterMap.2 ⟨e, List.mem_cons_self, he⟩)
    · obtain ⟨e', he', hrow⟩ := List.mem_filterMap.1 hrow
      exact .inr (List.mem_filterMap.2 ⟨e', List.mem_cons_of_mem _ he', hrow⟩)

/-- One step on the mappings: nothing, or that of a statement. -/
theorem agent_tableStep {w w' : AgentWorld} {o : AgentOp} {r : o.Reply} (h : agentEnv J w o r w') :
    w'.host.db.mappings = w.host.db.mappings ∨ ∃ (so : StoreOp) (sr : so.Reply),
      (⟨o, r⟩ : Event AgentSig) = ⟨.host (.store so), sr⟩ ∧
        TableStep w.host.db.mappings w'.host.db.mappings ⟨so, sr⟩ := by
  cases o with
  | host o =>
    obtain ⟨host, hE, rfl⟩ := h
    cases o with
    | store so =>
      obtain ⟨db, hdb, rfl⟩ := hE
      exact .inr ⟨so, r, rfl, storeEnv_step hdb⟩
    | atomicWrite | nft | ip | connect =>
      refine .inl (congrArg Db.mappings (db_of_hostEnv ?_ hE))
      exact id
  | oci command =>
    obtain ⟨cloud, -, rfl⟩ := h
    exact .inl rfl
  | selectEvents limit =>
    obtain ⟨rfl, -⟩ := h
    exact .inl rfl
  | newId | netbirdStatus | routeGet | envVar =>
    rw [show w' = w from h]
    exact .inl rfl

section Step

variable {t t' : Sql.Table mappingsSchema} {so : StoreOp} {sr : so.Reply} {w w' : AgentWorld}

/-- Every row of the table agrees. -/
def AllAgree (t : Sql.Table mappingsSchema) : Prop := ∀ row ∈ t.rows, row.Agrees

/-- An UPDATE of one row. -/
theorem AllAgree.set {k : String} {f : Row → Row} {hf : ∀ row, (f row).id = row.id} (h : AllAgree t)
    (hnew : ∀ old ∈ t.rows, old.id = k → (f old).Agrees) : AllAgree (t.set k f hf) := by
  intro row hr
  rcases Sql.Table.mem_set.1 hr with ⟨hr, -⟩ | ⟨old, ho, hk, rfl⟩
  · exact h row hr
  · exact hnew old ho hk

/-- **One statement keeps the agreement**, if it was allowed, what it writes back fits what was read, and it is
in time where it writes a health. -/
theorem step_allAgree (h : AllAgree t) (hstep : TableStep t t' ⟨so, sr⟩) (hallow : edits.allow q so)
    (hfits : ∀ status ∈ q.marks, writesRow ⟨.host (.store so), sr⟩ = true →
      ∀ row ∈ q.read, status = .disabled ↔ row.enabled = 0)
    (htimely : ∀ id status health error checked updated, 
      so = .sql (.updateHealth id status health error checked updated) →
      t' ≠ t → ∀ row ∈ t.rows, row.id = id → row.enabled ≠ 0) : AllAgree t' := by
  by_cases hsame : t' = t
  · rw [hsame]; exact h
  cases hstep with
  | same _ ht => exact absurd ht hsame
  | insert row hid hfree ht =>
    intro r hr
    rw [ht, List.mem_append, List.mem_singleton] at hr
    rcases hr with hr | rfl
    · exact h r hr
    · exact hallow
  | update cols old ho hid hfree ht =>
    obtain ⟨status, hmarks, hs, row, hrow, he⟩ := hallow
    have hfit := hfits status hmarks rfl row hrow
    rw [ht]
    refine h.set fun old _ _ => ?_
    -- the new row has both columns from the call
    show cols.status = "disabled" ↔ cols.enabled = 0
    rw [enumString_disabled hs, hfit, he]
  | enable id old enabled status updatedAt ho hid hfree ht =>
    rw [ht]
    refine h.set fun old _ _ => ?_
    show status = "disabled" ↔ (if enabled then (1 : ℤ) else 0) = 0
    have hs : enumString MappingStatus.names (if enabled then .pending else .disabled) = .ok status := hallow
    rw [enumString_disabled hs]
    cases enabled <;> decide
  | health id old status healthStatus lastError lastCheckedAt updatedAt ho hid ht =>
    rw [ht]
    refine h.set fun old ho hk => ?_
    have hon : old.enabled ≠ 0 := htimely id _ _ _ _ _ rfl hsame old ho hk
    have hs : status = "active" ∨ status = "degraded" := hallow
    show status = "disabled" ↔ old.enabled = 0
    rcases hs with rfl | rfl <;> simp [hon]
  | delete id ht =>
    rw [ht]
    intro r hr
    exact h r (Sql.Table.mem_others.1 hr).1

end Step

section Runs

variable {calls : ℕ → ApiCall} {headers : ℕ → HeaderMap} {w₀ w : AgentWorld} {tr : List (ℕ × Event AgentSig)}
  {pool : ℕ → ApiProg ApiResponse}

/-- **Status and flag agree** in every state of a run, whatever its calls and however their steps are mixed, if
every call fits what it has read and no health write comes late. -/
theorem status_agrees_of_fits (h₀ : AllAgree w₀.host.db.mappings)
    (hr : Reach (timelyEnv J) (fun i => (calls i).prog C J N config (headers i)) w₀ tr pool w)
    (hfit : ∀ i, Fits (calls i) (own i tr)) :
    ∀ row ∈ w.host.db.mappings.rows, row.Agrees ∧ ∀ m, C.rowToMapping row = .ok m → m.Agrees := by
  have hall : (∀ i, Fits (calls i) (own i tr)) → AllAgree w.host.db.mappings := by
    refine reach_inv (M := agentEdits) (fun i => ⟨(calls i).marks, []⟩) (fun i => Prog.wpOk_iff.1 (api_edits (calls i)))
      (fun tr w => (∀ i, Fits (calls i) (own i tr)) → AllAgree w.host.db.mappings) (fun _ => h₀) ?_ hr
    intro tr w i o r w' ih hallow hE hfit
    obtain ⟨hE, htimely⟩ := hE
    have hbefore : AllAgree w.host.db.mappings := by
      refine ih fun j => ?_
      have hj := hfit j
      rw [own_append] at hj
      exact hj.of_append
    rcases agent_tableStep hE with hsame | ⟨so, sr, he, hstep⟩
    · rw [hsame]; exact hbefore
    cases he
    have hread := after_edits ⟨(calls i).marks, []⟩ (own i tr)
    refine step_allAgree hbefore hstep hallow (fun status hstatus hwrites row hrow => ?_) ?_
    · rw [hread.1] at hstatus
      have hi := hfit i
      rw [own_snoc_self] at hi
      refine hi status hstatus ?_ row ?_
      · rw [List.any_append, List.any_cons, hwrites, Bool.true_or, Bool.or_true]
      · rw [List.filterMap_append]
        refine List.mem_append_left _ ((hread.2 row hrow).resolve_left ?_)
        simp
    · rintro id status health error checked updated rfl hne
      cases sr with
      | ok n => exact htimely
      | error e =>
        cases hstep with
        | same _ ht => exact absurd ht hne
  intro row hrow
  exact ⟨hall hfit row hrow, fun m hm => (hall hfit row hrow).mapping hm⟩

end Runs

/-! ## Sample runs -/

/-- The handler's run in a turn that went through. -/
theorem api_of_ran {call : ApiCall} {w w' : AgentWorld} {tr : List (Event AgentSig)}
    (h : (sampleProg (.api sampleConfig [] call)).Run (agentEnv sampleOciJson) w tr w' (.ok ())) :
    ∃ a, (call.prog sampleCodec sampleOciJson sampleNetbird sampleConfig []).Run (agentEnv sampleOciJson) w tr w'
      (.ok a) := by
  obtain ⟨a, w₁, tr₁, tr₂, rfl, hcall, hrest⟩ := Prog.run_bind_ok.1 h
  obtain ⟨rfl, rfl, -⟩ := Prog.run_ret.1 hrest
  obtain ⟨y, hy, hcall⟩ := Prog.run_mapErr.1 hcall
  rw [List.append_nil, except_mapError_ok.1 hy.symm] at *
  exact ⟨a, hcall⟩

/-- An operation that records a health. -/
def isHealthWrite : AgentOp → Bool
  | .host (.store (.sql (.updateHealth _ _ _ _ _ _))) => true
  | _ => false

theorem healthTimely_of {w : AgentWorld} {o : AgentOp} {r : o.Reply} (h : isHealthWrite o = false) :
    HealthTimely w o r := by
  cases o with
  | host o =>
    cases o with
    | store o =>
      cases o with
      | now => trivial
      | sql s =>
        cases s with
        | updateHealth id status health error checked updated => cases h
        | _ => trivial
    | atomicWrite | nft | ip | connect => trivial
  | oci | selectEvents | newId | netbirdStatus | routeGet | envVar => trivial

/-- A run without health writes is one in which none comes late. -/
theorem run_timely {β : Type} {p : AgentProg ε β} {w w' : AgentWorld} {tr : List (Event AgentSig)} {x : Except ε β}
    (h : p.Run (agentEnv J) w tr w' x) (hno : ∀ e ∈ tr, isHealthWrite e.op = false) :
      p.Run (timelyEnv J) w tr w' x := by
  refine Prog.run_mono ?_ (Prog.run_restrict.2 ⟨h, hno⟩)
  rintro s o r s' ⟨hE, ho⟩
  exact ⟨hE, healthTimely_of ho⟩

/-- The calls of the samples, one after the other. -/
def switchCalls : ℕ → ApiCall
  | 0 => sampleCreate
  | 1 => sampleAllocate
  | _ => .ociRelease { mappingId := some "vm", confirm := "delete" }

abbrev switchPool (i : ℕ) : ApiProg ApiResponse :=
  (switchCalls i).prog sampleCodec sampleOciJson sampleNetbird sampleConfig []

/-- A call that no one has made is made, and returns. -/
theorem reach_call {E : Env AgentSig AgentWorld} {w₀ w w' : AgentWorld} {tr : List (ℕ × Event AgentSig)}
    {pool : ℕ → ApiProg ApiResponse} {i : ℕ} {tr' : List (Event AgentSig)} {a : ApiResponse}
    (hr : Reach E switchPool w₀ tr pool w) (hp : pool i = switchPool i) (h : (switchPool i).Run E w tr' w' (.ok a)) :
    Reach E switchPool w₀ (tr ++ tr'.map fun e => (i, e)) (Function.update pool i (.ret a)) w' :=
  hr.run (hp.trans (Prog.bind_ret_right _).symm) h

theorem created_calm : ∀ e ∈ (evalApi emptyAgent sampleCreate).1, isHealthWrite e.op = false := by
  decide +kernel

theorem allocated_calm : ∀ e ∈ (evalApi createdAgent sampleAllocate).1, isHealthWrite e.op = false := by
  decide +kernel

/-- The allocation has read its row as enabled. -/
theorem allocated_fits : Fits sampleAllocate (evalApi createdAgent sampleAllocate).1 := by
  have hrows : ∀ row ∈ (evalApi createdAgent sampleAllocate).1.filterMap rowRead, row.enabled ≠ 0 := by
    decide +kernel
  intro status hstatus _ row hrow
  obtain rfl : MappingStatus.pending = status := Option.some.inj hstatus
  simp [hrows row hrow]

/-- A mapping is created and addresses are allocated to it. -/
theorem status_agrees_allocated : allocatedAgent.host.db.mappings.rows.length = 1 ∧
    ∀ row ∈ allocatedAgent.host.db.mappings.rows, row.Agrees ∧
      ∀ m, sampleCodec.rowToMapping row = .ok m → m.Agrees := by
  obtain ⟨a, hcreate⟩ := api_of_ran created_run
  obtain ⟨b, hallocate⟩ := api_of_ran allocated_run
  have h₁ := reach_call (i := 0) .init rfl (run_timely hcreate created_calm)
  have h₂ := reach_call (i := 1) h₁ rfl (run_timely hallocate allocated_calm)
  have hempty : AllAgree emptyAgent.host.db.mappings := fun row hr => absurd hr List.not_mem_nil
  have hreach : Reach (timelyEnv sampleOciJson) (fun i => (switchCalls i).prog sampleCodec sampleOciJson sampleNetbird
      sampleConfig ((fun _ => [] : ℕ → HeaderMap) i)) emptyAgent _ _ allocatedAgent := h₂
  refine ⟨by decide +kernel, status_agrees_of_fits hempty hreach fun i => ?_⟩
  rw [own_append, own_tagged, List.nil_append, own_tagged]
  rcases i with _ | _ | i
  · intro status hstatus
    cases hstatus
  · exact allocated_fits
  · intro status _ hwrites
    cases hwrites

/-- And they are released. -/
theorem released_facts : (evalApi allocatedAgent (switchCalls 2)).2.2 = .ok () ∧
    ∃ row ∈ (evalApi allocatedAgent (switchCalls 2)).2.1.host.db.mappings.rows,
      row.status = "disabled" ∧ row.enabled = 1 := by
  decide +kernel

/-- **A release switches an enabled mapping off by its status alone.** A mapping is created, addresses are allocated
to it and released: it is enabled, and shown as disabled. -/
theorem release_switches_off : ¬ ∀ (C : Codec) (J : OciJson) (N : String → Except String NetbirdStatus)
    (config : EdgeConfig) (calls : ℕ → ApiCall) (headers : ℕ → HeaderMap) (w₀ w : AgentWorld)
    (tr : List (ℕ × Event AgentSig)) (pool : ℕ → ApiProg ApiResponse), w₀.host.db.mappings.rows = [] →
    Reach (agentEnv J) (fun i => (calls i).prog C J N config (headers i)) w₀ tr pool w →
    ∀ row ∈ w.host.db.mappings.rows, row.Agrees := by
  intro hall
  obtain ⟨hok, row, hrow, hstatus, henabled⟩ := released_facts
  obtain ⟨a, hcreate⟩ := api_of_ran created_run
  obtain ⟨b, hallocate⟩ := api_of_ran allocated_run
  obtain ⟨d, hrelease⟩ := api_of_ran (evalApi_run hok)
  have h₁ := reach_call (i := 0) .init rfl hcreate
  have h₂ := reach_call (i := 1) h₁ rfl hallocate
  have h₃ := reach_call (i := 2) h₂ rfl hrelease
  have hagrees := hall _ _ _ _ switchCalls (fun _ => []) _ _ _ _ rfl h₃ row hrow
  have hzero : row.enabled = 0 := hagrees.1 hstatus
  rw [henabled] at hzero
  cases hzero

end EdgeRoute
