import EdgeRoute.Lib.Commit
import EdgeRoute.Proof.FrontStore
import EdgeRoute.Proof.Release

/-!
# The calls on one mapping

A mapping is enabled, disabled, allocated for and released through the API, and a reconcile records its health. Each
of these calls reads what it needs, writes the row of the mapping with one UPDATE, and only finishes up after that.

* `RowCall`: such a call, and its program.
* `WritesRow`: the event that counts, an UPDATE that was executed.
* `commits_row`: **every call returns only after it has written the row**, and after its write it changes neither the
  row nor the cloud.
* `stored_row`: the calls keep to the monitor of the store.
-/

namespace EdgeRoute

open Effect

variable {C : Codec} {J : OciJson} {N : String → Except String NetbirdStatus} {config : EdgeConfig} {id : MappingId}
  {ε α β : Type}

/-! ## The calls -/

/-- A call on one mapping: a request of the API, or the write of a reconcile that records its health. -/
inductive RowCall where
  | api (headers : HeaderMap) (call : ApiCall)
  | health (status : MappingStatus) (healthStatus lastError : Option String)

namespace RowCall

/-- It enables, disables, allocates for or releases the mapping of this id, or records its health. -/
def On (id : MappingId) : RowCall → Prop
  | .api _ (.enableMapping text) | .api _ (.disableMapping text) => MappingId.fromStr text = .ok id
  | .api _ (.ociAllocate request) => MappingId.fromStr request.mappingId = .ok id
  | .api _ (.ociRelease request) =>
    ∃ text, resolve request.mappingId none = some text ∧ MappingId.fromStr text = .ok id
  | .api _ _ => False
  | .health _ _ _ => True

/-- The handler of the request, or the store method that a reconcile calls after its health check. -/
def prog (C : Codec) (J : OciJson) (N : String → Except String NetbirdStatus) (config : EdgeConfig) (id : MappingId) :
    RowCall → ApiProg ApiResponse
  | .api headers call => call.prog C J N config headers
  | .health status healthStatus lastError => do
    let mapping ← Api.store (setMappingHealth C id status healthStatus lastError)
    pure (.mapping mapping)

end RowCall

/-! ## Its statements -/

/-- What a call asks the store for up to its write of the row. -/
def StoreOp.BeforeWrite : StoreOp → Prop
  | .now => True
  | .sql .selectConfig | .sql (.selectMapping _) | .sql (.selectOthers _) => True
  | .sql (.updateMapping _) | .sql (.updateEnabled _ _ _ _) | .sql (.updateHealth _ _ _ _ _ _) => True
  | _ => False

/-- What it asks the store for after that. -/
def StoreOp.AfterWrite : StoreOp → Prop
  | .now => True
  | .sql (.selectMapping _) | .sql (.insertEvent _ _ _ _) => True
  | _ => False

def AgentOp.BeforeWrite : AgentOp → Prop
  | .host (.store o) => o.BeforeWrite
  | .oci _ => True
  | _ => False

def AgentOp.AfterWrite : AgentOp → Prop
  | .host (.store o) => o.AfterWrite
  | _ => False

/-- An UPDATE that was executed, the full one where it found the row. -/
def Executed : Event StoreSig → Prop
  | ⟨.sql (.updateMapping _), .ok n⟩ => n ≠ 0
  | ⟨.sql (.updateEnabled _ _ _ _), .ok _⟩ => True
  | ⟨.sql (.updateHealth _ _ _ _ _ _), .ok _⟩ => True
  | _ => False

/-- The event writes the row. -/
def WritesRow : Event AgentSig → Prop
  | ⟨.host (.store o), r⟩ => Executed ⟨o, r⟩
  | _ => False

instance : DecidablePred Executed
  | ⟨.sql (.updateMapping _), .ok n⟩ => inferInstanceAs (Decidable (n ≠ 0))
  | ⟨.sql (.updateEnabled _ _ _ _), .ok _⟩ | ⟨.sql (.updateHealth _ _ _ _ _ _), .ok _⟩ => .isTrue trivial
  | ⟨.sql (.updateMapping _), .error _⟩ | ⟨.sql (.updateEnabled _ _ _ _), .error _⟩
  | ⟨.sql (.updateHealth _ _ _ _ _ _), .error _⟩ | ⟨.now, _⟩ | ⟨.sql .selectConfig, _⟩
  | ⟨.sql (.upsertConfig _), _⟩ | ⟨.sql .selectMappings, _⟩ | ⟨.sql (.selectMapping _), _⟩
  | ⟨.sql (.selectOthers _), _⟩ | ⟨.sql (.insertMapping _), _⟩ | ⟨.sql (.deleteMapping _), _⟩
  | ⟨.sql (.insertGeneration _ _ _ _ _), _⟩ | ⟨.sql .latestActive, _⟩ | ⟨.sql (.selectGeneration _), _⟩
  | ⟨.sql (.insertEvent _ _ _ _), _⟩ => .isFalse fun h => h

instance : DecidablePred WritesRow
  | ⟨.host (.store o), r⟩ => inferInstanceAs (Decidable (Executed ⟨o, r⟩))
  | ⟨.host (.atomicWrite _ _), _⟩ | ⟨.host (.nft _ _), _⟩ | ⟨.host (.ip _), _⟩ | ⟨.host (.connect _ _), _⟩
  | ⟨.oci _, _⟩ | ⟨.selectEvents _, _⟩ | ⟨.newId, _⟩ | ⟨.netbirdStatus, _⟩ | ⟨.routeGet _, _⟩
  | ⟨.envVar _, _⟩ => .isFalse fun h => h

/-- The databases have the same mappings and config. -/
structure SameData (db db' : Db) : Prop where
  mappings : db'.mappings = db.mappings
  config : db'.config = db.config

/-- Nothing that another call sees has changed. -/
structure Settled (w w' : AgentWorld) : Prop where
  data : SameData w.host.db w'.host.db
  cloud : w'.cloud = w.cloud

/-- The row is there and can be decoded. -/
def Readable (C : Codec) (id : MappingId) (db : Db) : Prop :=
  ∃ row m, db.mappings.find id.val = some row ∧ C.rowToMapping row = .ok m

/-- What is left changes neither the row nor the cloud any more, and can return. -/
structure Finishes (C : Codec) (J : OciJson) (id : MappingId) (q : ApiProg ApiResponse) : Prop where
  uses : q.Uses AgentOp.AfterWrite
  can : ∀ w, Readable C id w.host.db → q.Can (agentEnv J) w fun _ _ => True

/-! ## Every call writes the row once -/

/-- An operation of the store before the write. -/
def StoreOp.WritesNothing (o : StoreOp) : Prop := o.BeforeWrite ∧ ∀ r : o.Reply, ¬ Executed ⟨o, r⟩

section Store

variable {left : StoreProg β → Prop}

/-- An UPDATE: where it is executed the rest is what is left, and where it fails the method does. -/
theorem commits_sql {s : Stmt} {f : s.Out → StoreProg β} (hs : (StoreOp.sql s).BeforeWrite)
    (herror : ∀ e, ¬ Executed ⟨.sql s, .error e⟩) (hleft : ∀ n, Executed ⟨.sql s, .ok n⟩ → left (f n))
    (hno : ∀ n, ¬ Executed ⟨.sql s, .ok n⟩ → (f n).Commits StoreOp.BeforeWrite Executed left Prog.Unreturned) :
    ((sql s).bind f).Commits StoreOp.BeforeWrite Executed left Prog.Unreturned := by
  refine Prog.commits_call hs (fun r hr => ?_) fun r hr => ?_
  · cases r with
    | error e => exact absurd hr (herror e)
    | ok n => exact hleft n hr
  · cases r with
    | error e => exact Prog.commits_fail ⟨_, rfl⟩
    | ok n => exact hno n hr

theorem commits_updateMapping (m : Mapping) : (updateMapping C m).Commits StoreOp.BeforeWrite Executed
    (fun q => q = .ret ()) Prog.Unreturned := by
  refine Prog.commits_bind_of_uses (requireEdgeConfig_uses C ⟨trivial, fun _ h => h⟩) fun config => ?_
  refine Prog.commits_ofExcept_bind fun _ _ => ?_
  refine Prog.commits_bind_of_uses (rejectDuplicates_uses C ⟨trivial, fun _ h => h⟩) fun _ => ?_
  refine Prog.commits_ofExcept_bind fun cols _ => commits_sql trivial (fun _ h => h) (fun n hn => if_neg hn) ?_
  -- an UPDATE that found no row: `update_mapping` reports that the mapping is missing
  intro n hn
  rw [if_pos (Decidable.byContradiction fun hne => hn hne)]
  exact Prog.commits_fail ⟨_, rfl⟩

theorem now_part : nowUtc.Uses StoreOp.WritesNothing :=
  uses_nowUtc ⟨trivial, fun _ h => h⟩

theorem commits_setMappingEnabled (id : MappingId) (enabled : Bool) :
    (setMappingEnabled C id enabled).Commits StoreOp.BeforeWrite Executed (fun q => q = getMapping C id)
      Prog.Unreturned := by
  refine Prog.commits_ofExcept_bind fun status _ => Prog.commits_bind_of_uses now_part fun now => ?_
  refine Prog.commits_ofExcept_bind fun _ _ => ?_
  exact commits_sql trivial (fun _ h => h) (fun _ _ => rfl) fun _ hn => absurd trivial hn

theorem commits_setMappingHealth (id : MappingId) (status : MappingStatus) (healthStatus lastError : Option String) :
    (setMappingHealth C id status healthStatus lastError).Commits StoreOp.BeforeWrite Executed
      (fun q => q = getMapping C id) Prog.Unreturned := by
  refine Prog.commits_ofExcept_bind fun status _ => Prog.commits_bind_of_uses now_part fun checked => ?_
  refine Prog.commits_ofExcept_bind fun _ _ => ?_
  refine Prog.commits_bind_of_uses now_part fun now => Prog.commits_ofExcept_bind fun _ _ => ?_
  exact commits_sql trivial (fun _ h => h) (fun _ _ => rfl) fun _ hn => absurd trivial hn

end Store

/-- A store method in a front end, with one point of effect. -/
theorem commits_onStore {p : StoreProg α} {left : AgentProg EdgeCoreError α → Prop}
    {post : Except EdgeCoreError α → Prop}
    (h : p.Commits StoreOp.BeforeWrite Executed (fun q => left (onStore q)) post) :
    (onStore p).Commits AgentOp.BeforeWrite WritesRow left post := by
  have hembed : ∀ q : StoreProg α,
      onStore q = q.embed (T := AgentSig) (fun o => .host (.store o)) fun _ r => r := fun q => Prog.embed_embed q
  simp only [hembed] at h ⊢
  exact Prog.commits_embed (fun o ho => ho) (fun o r => Iff.rfl) h

/-! ## After its write -/

/-- A call leaves the mappings, the config and the cloud alone after its write. -/
theorem settled_step {w w' : AgentWorld} {o : AgentOp} {r : o.Reply} (ho : o.AfterWrite)
    (hE : agentEnv J w o r w') : Settled w w' := by
  cases o with
  | host o =>
    cases o with
    | store o =>
      obtain ⟨host, ⟨db, hdb, rfl⟩, rfl⟩ := hE
      refine ⟨?_, rfl⟩
      cases o with
      | now => rw [show db = w.host.db from hdb]; exact ⟨rfl, rfl⟩
      | sql s =>
        cases s with
        | selectMapping id =>
          rcases hdb with hdb | ⟨message, -, rfl⟩
          · cases hdb; exact ⟨rfl, rfl⟩
          · exact ⟨rfl, rfl⟩
        | insertEvent level message data createdAt =>
          rcases hdb with hdb | ⟨message, -, rfl⟩
          · cases hdb; exact ⟨rfl, rfl⟩
          · exact ⟨rfl, rfl⟩
        | _ => exact absurd ho id
    | _ => exact absurd ho id
  | _ => exact absurd ho id

theorem Settled.trans {w₁ w₂ w₃ : AgentWorld} (h : Settled w₁ w₂) (h' : Settled w₂ w₃) : Settled w₁ w₃ :=
  ⟨⟨h'.data.mappings.trans h.data.mappings, h'.data.config.trans h.data.config⟩, h'.cloud.trans h.cloud⟩

/-- The row that was written can be read. -/
theorem finishes_getMapping (f : Mapping → ApiResponse) :
    Finishes C J id ((Api.store (getMapping C id)).bind fun m => .ret (f m)) where
  uses := Prog.uses_bind (apiStore_uses (getMapping_uses C trivial)) fun _ => Prog.uses_ret
  can w := by
    rintro ⟨row, m, hfind, hdec⟩
    have hget : (getMapping C id).Can storeEnv w.host.db fun _ _ => True := by
      have hread : storeEnv w.host.db (.sql (.selectMapping id.val)) (.ok (some row)) w.host.db := by
        rw [← hfind]
        exact .inl rfl
      exact Prog.can_bind (Prog.can_call hread (Prog.can_ret (Prog.can_ofExcept hdec trivial)))
    refine Prog.can_bind (Prog.can_mapErr (Prog.can_mono (fun _ _ _ => Prog.can_ret trivial) (can_onStore ?_ hget)))
    exact fun w o r host hE => ⟨host, hE, rfl⟩

/-- An event is recorded, or it is not. -/
theorem finishes_event (level : EventLevel) (message : String) (data : Option String) (response : ApiResponse) :
    Finishes C J id ((onStore (recordEvent C level message data)).attempt.bind fun _ => .ret response) where
  uses := Prog.uses_bind (Prog.uses_attempt (onStore_uses (recordEvent_uses C trivial fun _ _ => trivial)))
    fun _ => Prog.uses_ret
  can w _ := by
    have huses : (onStore (recordEvent C level message data)).Uses AgentOp.AfterWrite :=
      onStore_uses (recordEvent_uses C trivial fun _ _ => trivial)
    have hreply : ∀ (w : AgentWorld) (o : AgentSig.Op), o.AfterWrite → ∃ r w', agentEnv J w o r w' := by
      intro w o ho
      cases o with
      | host o =>
        cases o with
        | store o =>
          cases o with
          | now => exact ⟨⟨0, 0⟩, w, w.host, ⟨w.host.db, rfl, rfl⟩, rfl⟩
          | sql s => exact ⟨.error (.unavailable ""), w, w.host, ⟨w.host.db, .inr ⟨"", rfl, rfl⟩, rfl⟩, rfl⟩
        | _ => exact False.elim ho
      | _ => exact False.elim ho
    obtain ⟨tr, w', x, hrun⟩ := Prog.exists_run_of_uses huses hreply w
    exact Prog.can_bind ⟨tr, w', x, Prog.run_attempt.2 ⟨x, rfl, hrun⟩, Prog.can_ret trivial⟩

/-! ## Every call -/

/-- What a handler may ask for anywhere before its write, and does not write the row. -/
def AgentOp.WritesNothing (o : AgentOp) : Prop := o.BeforeWrite ∧ ∀ r : o.Reply, ¬ WritesRow ⟨o, r⟩

theorem getMapping_part : (Api.store (getMapping C id)).Uses AgentOp.WritesNothing :=
  apiStore_uses (getMapping_uses C ⟨trivial, fun _ h => h⟩)

theorem markStatus_part {m : Mapping} {status : MappingStatus} :
    (markStatus m status : AgentProg ε Mapping).Uses AgentOp.WritesNothing :=
  Prog.uses_call ⟨trivial, fun _ h => h⟩ fun _ => Prog.uses_ret

theorem oci_part {p : Prog OciSig ε α} : (liftOci p).Uses AgentOp.WritesNothing :=
  liftOci_uses (Prog.uses_of_forall fun _ => ⟨trivial, fun _ h => h⟩)

/-- A method of the store that writes the row. -/
theorem commits_write {p : StoreProg α} {q : StoreProg α} {f : α → ApiProg β} {left : ApiProg β → Prop}
    (hp : p.Commits StoreOp.BeforeWrite Executed (fun q' => q' = q) Prog.Unreturned)
    (hleft : left ((Api.store q).bind f)) :
    ((Api.store p).bind f).Commits AgentOp.BeforeWrite WritesRow left Prog.Unreturned := by
  refine Prog.commits_bind (Prog.commits_mapErr (commits_onStore (Prog.commits_mono ?_ ?_ hp)))
  · rintro q' rfl
    exact hleft
  · rintro x ⟨e, rfl⟩
    exact ⟨_, rfl⟩

theorem commits_update {m : Mapping} {f : Unit → ApiProg β} {left : ApiProg β → Prop} (hleft : left (f ())) :
    ((Api.store (updateMapping C m)).bind f).Commits AgentOp.BeforeWrite WritesRow left Prog.Unreturned :=
  commits_write (commits_updateMapping m) hleft

theorem commits_enabled (headers : HeaderMap) {text : String} (hid : MappingId.fromStr text = .ok id) (enabled : Bool) :
    (Api.setEnabled C config headers text enabled).Commits AgentOp.BeforeWrite WritesRow (Finishes C J id)
      Prog.Unreturned := by
  refine Prog.commits_ofExcept_bind fun _ _ => Prog.commits_ofExcept_bind fun id' hid' => ?_
  obtain rfl : id = id' := Except.ok.inj (hid.symm.trans (except_mapError_ok.1 hid'))
  exact commits_write (commits_setMappingEnabled id enabled) (finishes_getMapping .mapping)

theorem commits_health (status : MappingStatus) (healthStatus lastError : Option String) :
    (RowCall.prog C J N config id (.health status healthStatus lastError)).Commits AgentOp.BeforeWrite WritesRow
      (Finishes C J id) Prog.Unreturned :=
  commits_write (commits_setMappingHealth id status healthStatus lastError) (finishes_getMapping .mapping)

/-- The write of an allocation; where it fails the addresses are given back. -/
theorem commits_storeAllocation {onFailure : EdgeCoreError → Except OciError Unit → Except OciError Unit → ApiFailure}
    {m : Mapping} {a : Allocation} {f : Mapping → ApiProg β} {left : ApiProg β → Prop} (hf : ∀ m, left (f m)) :
    ((storeAllocation C onFailure m a).bind f).Commits AgentOp.BeforeWrite WritesRow left Prog.Unreturned := by
  unfold storeAllocation
  simp only [Prog.bind_eq, Prog.bind_assoc]
  refine Prog.commits_bind_of_uses markStatus_part fun m' => ?_
  refine Prog.commits_bind (Prog.commits_attempt (commits_onStore
    (Prog.commits_mono ?_ ?_ (commits_updateMapping m'))))
  · rintro q rfl
    exact hf m'
  · -- the row could not be written: both addresses are deleted, and the call fails
    rintro x ⟨e, rfl⟩
    simp only [Prog.bind_assoc]
    refine Prog.commits_bind_of_uses (Prog.uses_attempt oci_part) fun _ => ?_
    exact Prog.commits_bind_of_uses (Prog.uses_attempt oci_part) fun _ => Prog.commits_fail ⟨_, rfl⟩

theorem commits_allocate (headers : HeaderMap) {request : OciAllocateRequest} :
    (Api.ociAllocate C J config headers request).Commits AgentOp.BeforeWrite WritesRow (Finishes C J id)
      Prog.Unreturned := by
  refine Prog.commits_ofExcept_bind fun _ _ => Prog.commits_ofExcept_bind fun _ _ => ?_
  refine Prog.commits_ofExcept_bind fun id _ => ?_
  refine Prog.commits_bind_of_uses getMapping_part fun m => Prog.commits_ofExcept_bind fun _ _ => ?_
  refine Prog.commits_ofExcept_bind fun compartmentId _ => Prog.commits_ofExcept_bind fun vnicId _ => ?_
  refine Prog.commits_bind_of_uses (Prog.uses_mapErr oci_part) fun a => commits_storeAllocation fun m => ?_
  exact finishes_event _ _ _ _

theorem commits_release (headers : HeaderMap) {request : OciReleaseRequest} {text : String}
    (htext : resolve request.mappingId none = some text) :
    (Api.ociRelease C config headers request).Commits AgentOp.BeforeWrite WritesRow (Finishes C J id)
      Prog.Unreturned := by
  refine Prog.commits_ofExcept_bind fun _ _ => Prog.commits_ofExcept_bind fun _ _ => ?_
  rw [htext]
  refine Prog.commits_ofExcept_bind fun id _ => Prog.commits_bind_of_uses getMapping_part fun m => ?_
  refine Prog.commits_ofExcept_bind fun _ _ => ?_
  refine Prog.commits_bind_of_uses (deleteIps_uses (fun _ => ⟨trivial, fun _ h => h⟩) _ _) fun _ => ?_
  refine Prog.commits_bind_of_uses markStatus_part fun m' => ?_
  exact commits_update (finishes_event _ _ _ _)

/-- **Every call writes the row once, or fails.** -/
theorem commits_row {call : RowCall} (hon : call.On id) :
    (call.prog C J N config id).Commits AgentOp.BeforeWrite WritesRow (Finishes C J id) Prog.Unreturned := by
  cases call with
  | health status healthStatus lastError => exact commits_health status healthStatus lastError
  | api headers call =>
    cases call with
    | enableMapping text => exact commits_enabled headers hon true
    | disableMapping text => exact commits_enabled headers hon false
    | ociAllocate request => exact commits_allocate headers
    | ociRelease request =>
      obtain ⟨text, htext, -⟩ := hon
      exact commits_release headers htext
    | _ => exact absurd hon False.elim

/-- The calls keep to the monitor of the store. -/
theorem stored_row (call : RowCall) : (call.prog C J N config id).Keeps (frontStore C) := by
  cases call with
  | api headers call => exact parts_stored.api call
  | health status healthStatus lastError =>
    have hset := onStore_stored (Prog.keeps_of_bind (storeCall_stored (C := C) (.setHealth id status healthStatus
      lastError)))
    exact Prog.keeps_bind (Prog.keeps_mapErr hset) fun _ => Prog.keeps_ret

end EdgeRoute
