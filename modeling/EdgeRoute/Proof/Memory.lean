import EdgeRoute.Proof.ConfigChange
import EdgeRoute.Proof.Duplicates

/-!
# The store in memory over whole runs

Every write of a mapping is checked against the config and the other mappings, and a new config against
every mapping. `set_mapping_enabled` checks nothing, though two mappings conflict only when both are enabled.

* `MemoryCall.run_cases`: what a call does to the store, an error included.
* `coherent_iff_safe`: a call keeps the store accepted exactly where it does not enable a mapping beside one
  it conflicts with.
* `memory_coherent_of_safe`: **in every run without such a call `validate_mappings` accepts what is stored.**
-/

namespace EdgeRoute

open Effect

variable {m m' : Mapping} {id : MappingId} {config : EdgeConfig} {store store' : InMemoryStateStore}

/-! ## Runs -/

/-- A call of one of the methods that write. -/
inductive MemoryCall where
  | setEdgeConfig (config : EdgeConfig)
  | insert (mapping : Mapping)
  | update (now : OffsetDateTime) (mapping : Mapping)
  | delete (id : MappingId)
  | setEnabled (now : OffsetDateTime) (id : MappingId) (enabled : Bool)

namespace MemoryCall

def method : MemoryCall → MemoryM Unit
  | .setEdgeConfig config => MemoryM.setEdgeConfig config
  | .insert mapping => MemoryM.insertMapping mapping
  | .update now mapping => MemoryM.updateMapping now mapping
  | .delete id => do
    let _ ← MemoryM.deleteMapping id
  | .setEnabled now id enabled => MemoryM.setMappingEnabled now id enabled

/-- The result of the call and the store after it. -/
def run (call : MemoryCall) (store : InMemoryStateStore) : Except EdgeCoreError Unit × InMemoryStateStore :=
  call.method.run.run store

/-- **The condition**: a mapping that is enabled conflicts, enabled, with none of the others. -/
def Safe (store : InMemoryStateStore) : MemoryCall → Prop
  | .setEnabled _ id true => ∀ m ∈ store.mappings, m.id = id → ∀ m' ∈ store.mappings, m'.id ≠ id →
      conflicts { m with enabled := true } m' = false
  | _ => True

instance decidableSafe (store : InMemoryStateStore) (call : MemoryCall) : Decidable (call.Safe store) :=
  match call with
  | .setEdgeConfig _ => .isTrue trivial
  | .insert _ => .isTrue trivial
  | .update _ _ => .isTrue trivial
  | .delete _ => .isTrue trivial
  | .setEnabled _ _ false => .isTrue trivial
  | .setEnabled _ id true => inferInstanceAs (Decidable (∀ m ∈ store.mappings, m.id = id →
      ∀ m' ∈ store.mappings, m'.id ≠ id → conflicts { m with enabled := true } m' = false))

end MemoryCall

namespace InMemoryStateStore

/-- The store after a sequence of calls, failing ones included. -/
def after (store : InMemoryStateStore) : List MemoryCall → InMemoryStateStore
  | [] => store
  | call :: calls => (call.run store).2.after calls

/-- Every call of the sequence meets the condition in the store it finds. -/
def SafeRun (store : InMemoryStateStore) : List MemoryCall → Prop
  | [] => True
  | call :: calls => call.Safe store ∧ (call.run store).2.SafeRun calls

/-- **Where there is a mapping there is a config, and `validate_mappings` accepts the list under it.** -/
def Coherent (store : InMemoryStateStore) : Prop :=
  store.mappings ≠ [] → ∃ config, store.edgeConfig = some config ∧
    validateMappings store.listMappings config = .ok ()

/-- What a run keeps: beside the verdict, that the map has one value for an id. -/
structure Valid (store : InMemoryStateStore) : Prop where
  keys : store.mappings.Pairwise fun m m' => m.id ≠ m'.id
  coherent : store.Coherent

end InMemoryStateStore

open InMemoryStateStore

/-! ## The map -/

theorem mem_remove : m ∈ (store.remove id).mappings ↔ m ∈ store.mappings ∧ m.id ≠ id := by
  simp [remove]

/-- Without the id there is nothing to remove. -/
theorem remove_of_absent (h : store.get? id = none) : store.remove id = store := by
  have habsent : ∀ m ∈ store.mappings, m.id ≠ id := by simpa [get?] using h
  have hself : store.mappings.filter (·.id != id) = store.mappings := by
    rw [List.filter_eq_self]
    intro m hm
    simpa using habsent m hm
  unfold remove
  rw [hself]

theorem insert_perm : (store.insert m).mappings.Perm (m :: (store.remove m.id).mappings) :=
  List.perm_orderedInsert _ m _

theorem mem_modify {f : Mapping → Mapping} : m' ∈ (store.modify id f).mappings ↔
    ∃ m ∈ store.mappings, (if m.id = id then f m else m) = m' := by
  simp [InMemoryStateStore.modify]

/-! ## One call -/

theorem checkOthers_ok {ms : List Mapping} :
    checkOthers m ms = .ok () ↔ ∀ m' ∈ ms, m'.id ≠ m.id → Distinct m m' := by
  induction ms with
  | nil => simp [checkOthers]
  | cons existing rest ih =>
    rw [List.forall_mem_cons, ← ih, checkOthers]
    by_cases hid : existing.id = m.id
    · simp [hid]
    · rw [if_neg hid, except_seq_ok, checkDuplicate_iff]
      simp [hid]

theorem validateMappingForWrite_ok : store.validateMappingForWrite m = .ok () ↔
    ∃ config, store.edgeConfig = some config ∧ validateMapping m config = .ok () ∧
      ∀ m' ∈ store.mappings, m'.id ≠ m.id → Distinct m m' := by
  unfold validateMappingForWrite
  cases hc : store.edgeConfig with
  | none => simp
  | some config => simp [except_seq_ok, checkOthers_ok]

/-- A mapping as `set_mapping_enabled` leaves it. -/
def flagged (now : OffsetDateTime) (enabled : Bool) (m : Mapping) : Mapping :=
  { m with enabled, status := if enabled then .pending else .disabled, updatedAt := now }

/-- What a call that returns has done. -/
inductive MemoryWrote (store : InMemoryStateStore) : MemoryCall → InMemoryStateStore → Prop
  | config {config : EdgeConfig} (valid : ∀ m ∈ store.mappings, validateMapping m config = .ok ()) :
      MemoryWrote store (.setEdgeConfig config) { store with edgeConfig := some config }
  | insert {m : Mapping} (checked : store.validateMappingForWrite m = .ok ()) :
      MemoryWrote store (.insert m) (store.insert m)
  | update {now : OffsetDateTime} {m : Mapping}
      (checked : store.validateMappingForWrite { m with updatedAt := now } = .ok ()) :
      MemoryWrote store (.update now m) (store.insert { m with updatedAt := now })
  | delete {id : MappingId} : MemoryWrote store (.delete id) (store.remove id)
  | enabled {now : OffsetDateTime} {id : MappingId} {enabled : Bool} :
      MemoryWrote store (.setEnabled now id enabled) (store.modify id (flagged now enabled))

/-- The store is read first. -/
theorem run_get_bind {α : Type} {f : InMemoryStateStore → MemoryM α} :
    (get >>= f).run.run store = (f store).run.run store := rfl

/-- A check, then a write. -/
theorem run_check_set (x : Except EdgeCoreError Unit) (store store' : InMemoryStateStore) :
    (∃ e, (do liftExcept x; set store' : MemoryM Unit).run.run store = (.error e, store)) ∨
      (x = .ok () ∧ (do liftExcept x; set store' : MemoryM Unit).run.run store = (.ok (), store')) := by
  cases x with
  | error e => exact .inl ⟨e, rfl⟩
  | ok u => exact .inr ⟨rfl, rfl⟩

/-- The result of `delete_mapping` is not used. -/
theorem run_bind_pure {α : Type} {p : MemoryM α} {x : Except EdgeCoreError α}
    (h : p.run.run store = (x, store')) :
    (do let _ ← p : MemoryM Unit).run.run store = (x.map fun _ => (), store') := by
  rw [ExceptT.run_bind, StateT.run_bind, h]
  cases x <;> rfl

/-- **What a call does**: it fails and leaves the store alone, or it returns and has made its one write. -/
theorem MemoryCall.run_cases (call : MemoryCall) (store : InMemoryStateStore) :
    (∃ e, call.run store = (.error e, store)) ∨
      ∃ store', call.run store = (.ok (), store') ∧ MemoryWrote store call store' := by
  cases call with
  | setEdgeConfig config =>
    rw [run, method, MemoryM.setEdgeConfig, run_get_bind]
    cases hset : store.setEdgeConfig config with
    | error e => exact .inl ⟨e, rfl⟩
    | ok store' =>
      obtain ⟨-, hvalid, rfl⟩ := memory_setEdgeConfig.1 hset
      exact .inr ⟨_, rfl, .config hvalid⟩
  | insert m =>
    rw [run, method, MemoryM.insertMapping, run_get_bind]
    by_cases hkey : store.containsKey m.id = true
    · rw [if_pos hkey]
      exact .inl ⟨_, rfl⟩
    · rw [if_neg hkey]
      rcases run_check_set (store.validateMappingForWrite m) store (store.insert m) with herr | ⟨hcheck, hrun⟩
      · exact .inl herr
      · exact .inr ⟨_, hrun, .insert hcheck⟩
  | update now m =>
    rw [run, method, MemoryM.updateMapping, run_get_bind]
    by_cases hkey : (!store.containsKey m.id) = true
    · rw [if_pos hkey]
      exact .inl ⟨_, rfl⟩
    · rw [if_neg hkey]
      rcases run_check_set (store.validateMappingForWrite { m with updatedAt := now }) store
        (store.insert { m with updatedAt := now }) with herr | ⟨hcheck, hrun⟩
      · exact .inl herr
      · exact .inr ⟨_, hrun, .update hcheck⟩
  | delete id =>
    cases hget : store.get? id with
    | none =>
      have hrun : (MemoryM.deleteMapping id).run.run store = (.error (.notFound id), store.remove id) := by
        rw [MemoryM.deleteMapping, run_get_bind, hget]
        rfl
      rw [remove_of_absent hget] at hrun
      exact .inl ⟨_, run_bind_pure hrun⟩
    | some m =>
      have hrun : (MemoryM.deleteMapping id).run.run store = (.ok m, store.remove id) := by
        rw [MemoryM.deleteMapping, run_get_bind, hget]
        rfl
      exact .inr ⟨_, run_bind_pure hrun, .delete⟩
  | setEnabled now id enabled =>
    rw [run, method, MemoryM.setMappingEnabled, run_get_bind]
    by_cases hkey : (!store.containsKey id) = true
    · rw [if_pos hkey]
      exact .inl ⟨_, rfl⟩
    · rw [if_neg hkey]
      exact .inr ⟨_, rfl, .enabled⟩

theorem MemoryCall.run_error {call : MemoryCall} {e : EdgeCoreError} (h : (call.run store).1 = .error e) :
    (call.run store).2 = store := by
  rcases call.run_cases store with ⟨e', hrun⟩ | ⟨store', hrun, -⟩
  · rw [hrun]
  · rw [hrun] at h
    cases h

/-! ## What a call keeps -/

theorem valid_config (h : store.Valid) (hvalid : ∀ m ∈ store.mappings, validateMapping m config = .ok ()) :
    ({ store with edgeConfig := some config } : InMemoryStateStore).Valid := by
  refine ⟨h.keys, fun hne => ⟨config, rfl, ?_⟩⟩
  obtain ⟨_, _, hok⟩ := h.coherent hne
  exact validateMappings_ok.2 ⟨hvalid, (validateMappings_ok.1 hok).2⟩

theorem valid_remove (h : store.Valid) : (store.remove id).Valid := by
  have hsub : (store.remove id).mappings.Sublist store.mappings := List.filter_sublist
  refine ⟨h.keys.sublist hsub, fun hne => ?_⟩
  have hne' : store.mappings ≠ [] := by
    intro hnil
    exact hne (by simp [remove, hnil])
  obtain ⟨config, hc, hok⟩ := h.coherent hne'
  obtain ⟨hall, hpair⟩ := validateMappings_ok.1 hok
  exact ⟨config, hc, validateMappings_ok.2 ⟨fun m hm => hall m (hsub.subset hm), hpair.sublist hsub⟩⟩

theorem valid_insert (h : store.Valid) (hcheck : store.validateMappingForWrite m = .ok ()) :
    (store.insert m).Valid := by
  obtain ⟨config, hc, hm, hothers⟩ := validateMappingForWrite_ok.1 hcheck
  have hrest : (store.remove m.id).Valid := valid_remove h
  constructor
  · rw [insert_perm.pairwise_iff Ne.symm, List.pairwise_cons]
    exact ⟨fun m' hm' => (mem_remove.1 hm').2.symm, hrest.keys⟩
  · intro _
    refine ⟨config, hc, (validateMappings_perm insert_perm).2 ?_⟩
    -- the rest was accepted under the config that is set, and `m` is checked against each of it
    have hpair : (store.remove m.id).mappings.Pairwise Admissible ∧
        ∀ m' ∈ (store.remove m.id).mappings, validateMapping m' config = .ok () := by
      by_cases hnil : (store.remove m.id).mappings = []
      · rw [hnil]
        exact ⟨.nil, fun _ h => absurd h List.not_mem_nil⟩
      · obtain ⟨config', hc', hok⟩ := hrest.coherent hnil
        cases hc.symm.trans hc'
        obtain ⟨hall, hadm⟩ := validateMappings_ok.1 hok
        exact ⟨hadm, hall⟩
    rw [validateMappings_ok, List.forall_mem_cons, List.pairwise_cons]
    refine ⟨⟨hm, hpair.2⟩, fun m' hm' => ?_, hpair.1⟩
    obtain ⟨hmem, hid⟩ := mem_remove.1 hm'
    exact (hothers m' hmem hid).1

/-! ### The flag -/

variable {now : OffsetDateTime} {enabled : Bool}

/-- Beside another mapping only the flag counts, and only when it is set. -/
theorem admissible_flagged (h : Admissible m m')
    (hsafe : enabled = true → conflicts { m with enabled := true } m' = false) :
    Admissible (flagged now enabled m) m' := by
  refine ⟨?_, h.2⟩
  cases enabled with
  | false => rfl
  | true => exact hsafe rfl

theorem run_setEnabled : ((MemoryCall.setEnabled now id enabled).run store).2 =
    store.modify id (flagged now enabled) := by
  rw [MemoryCall.run, MemoryCall.method, MemoryM.setMappingEnabled, run_get_bind]
  by_cases hkey : (!store.containsKey id) = true
  · -- no mapping has the id: nothing is written, and there is nothing to change
    rw [if_pos hkey]
    have habsent : ∀ m ∈ store.mappings, m.id ≠ id := by simpa [containsKey] using hkey
    have hsame : store.mappings.map (fun m => if m.id = id then flagged now enabled m else m) = store.mappings := by
      refine (List.map_congr_left fun m hm => if_neg (habsent m hm)).trans ?_
      exact List.map_id' _
    unfold InMemoryStateStore.modify
    rw [hsame]
    rfl
  · rw [if_neg hkey]
    rfl

theorem keys_modify (h : store.Valid) :
    (store.modify id (flagged now enabled)).mappings.Pairwise fun m m' => m.id ≠ m'.id := by
  have hid : ∀ m : Mapping, (if m.id = id then flagged now enabled m else m).id = m.id := by
    intro m
    split <;> rfl
  refine List.pairwise_map.2 (h.keys.imp ?_)
  intro m m' hne
  rwa [hid, hid]

/-- The change of a flag is accepted where it brings the mapping into no conflict. -/
theorem coherent_modify (h : store.Valid) (hsafe : (MemoryCall.setEnabled now id enabled).Safe store) :
    (store.modify id (flagged now enabled)).Coherent := by
  have hconf : ∀ m ∈ store.mappings, m.id = id → ∀ m' ∈ store.mappings, m'.id ≠ id → enabled = true →
      conflicts { m with enabled := true } m' = false := by
    intro m hm hid m' hm' hid' hen
    subst hen
    exact hsafe m hm hid m' hm' hid'
  intro hne
  have hne' : store.mappings ≠ [] := by
    intro hnil
    exact hne (by simp [InMemoryStateStore.modify, hnil])
  obtain ⟨config, hc, hok⟩ := h.coherent hne'
  obtain ⟨hall, hpair⟩ := validateMappings_ok.1 hok
  refine ⟨config, hc, validateMappings_ok.2 ⟨?_, ?_⟩⟩
  · intro m' hm'
    obtain ⟨m, hm, rfl⟩ := mem_modify.1 hm'
    split <;> exact hall m hm
  · refine List.pairwise_map.2 ((hpair.and h.keys).imp_of_mem ?_)
    intro m m' hm hm' hboth
    obtain ⟨hadm, hne⟩ := hboth
    by_cases hid : m.id = id
    · have hid' : m'.id ≠ id := fun heq => hne (hid.trans heq.symm)
      rw [if_pos hid, if_neg hid']
      exact admissible_flagged hadm (hconf m hm hid m' hm' hid')
    · rw [if_neg hid]
      by_cases hid' : m'.id = id
      · rw [if_pos hid']
        exact (admissible_flagged hadm.symm (hconf m' hm' hid' m hm hid)).symm
      · rwa [if_neg hid']

/-- A mapping enabled beside one it conflicts with makes the list one that is refused. -/
theorem safe_of_coherent (h : (store.modify id (flagged now enabled)).Coherent) :
    (MemoryCall.setEnabled now id enabled).Safe store := by
  cases enabled with
  | false => trivial
  | true =>
    intro m hm hid m' hm' hid'
    have hmem : flagged now true m ∈ (store.modify id (flagged now true)).mappings :=
      mem_modify.2 ⟨m, hm, if_pos hid⟩
    have hmem' : m' ∈ (store.modify id (flagged now true)).mappings := mem_modify.2 ⟨m', hm', if_neg hid'⟩
    obtain ⟨config, -, hok⟩ := h (List.ne_nil_of_mem hmem)
    have hne : flagged now true m ≠ m' := by
      intro heq
      rw [← heq] at hid'
      exact hid' hid
    exact (admissible_of_ne hok hmem hmem' hne).1

/-! ## Runs of calls -/

theorem valid_run {call : MemoryCall} (h : store.Valid) (hsafe : call.Safe store) : (call.run store).2.Valid := by
  rcases call.run_cases store with ⟨e, hrun⟩ | ⟨store', hrun, hwrote⟩
  · rw [hrun]
    exact h
  · rw [hrun]
    cases hwrote with
    | config hvalid => exact valid_config h hvalid
    | insert hcheck => exact valid_insert h hcheck
    | update hcheck => exact valid_insert h hcheck
    | delete => exact valid_remove h
    | enabled => exact ⟨keys_modify h, coherent_modify h hsafe⟩

/-- **One call, exactly**: the store stays accepted where the call meets the condition. -/
theorem coherent_iff_safe {call : MemoryCall} (h : store.Valid) :
    (call.run store).2.Coherent ↔ call.Safe store := by
  refine ⟨fun hcoh => ?_, fun hsafe => (valid_run h hsafe).coherent⟩
  cases call with
  | setEnabled now id enabled =>
    rw [run_setEnabled] at hcoh
    exact safe_of_coherent hcoh
  | _ => trivial

theorem valid_after {calls : List MemoryCall} (h : store.Valid) (hsafe : store.SafeRun calls) :
    (store.after calls).Valid := by
  induction calls generalizing store with
  | nil => exact h
  | cons call calls ih => exact ih (valid_run h hsafe.1) hsafe.2

theorem valid_new : new.Valid := ⟨.nil, fun h => absurd rfl h⟩

/-- **The store in memory over whole runs.** In every run of calls, failing ones included, none of which
enables a mapping beside one it conflicts with, a config is set wherever there is a mapping and
`validate_mappings` accepts the list under it, and the next call keeps it so exactly where it meets the same
condition; and a call that fails, in any store, leaves config and mappings as they were. -/
theorem memory_coherent_of_safe (calls : List MemoryCall) (hsafe : new.SafeRun calls) :
    (new.after calls).Coherent ∧
      (∀ call : MemoryCall, (call.run (new.after calls)).2.Coherent ↔ call.Safe (new.after calls)) ∧
      ∀ (store : InMemoryStateStore) (call : MemoryCall) (e : EdgeCoreError),
        (call.run store).1 = .error e → (call.run store).2 = store := by
  have hvalid := valid_after valid_new hsafe
  exact ⟨hvalid.coherent, fun _ => coherent_iff_safe hvalid, fun _ _ _ h => MemoryCall.run_error h⟩

/-! ## Two mappings on one edge address -/

/-- The service on the edge address of `sampleMapping`, switched off. -/
def offService : Mapping := { samplePortForward with enabled := false, status := .disabled }

/-- A one-to-one mapping and a disabled service on its edge address are stored. -/
def storeBoth : List MemoryCall := [.setEdgeConfig sampleConfig, .insert sampleMapping, .insert offService]

/-- The service is enabled after the mapping is disabled. -/
theorem memory_coherent_in_turn :
    new.SafeRun (storeBoth ++ [.setEnabled sampleTime sampleMapping.id false,
        .setEnabled sampleTime offService.id true]) ∧
      (new.after (storeBoth ++ [.setEnabled sampleTime sampleMapping.id false,
        .setEnabled sampleTime offService.id true])).Coherent := by
  have hsafe : new.SafeRun (storeBoth ++ [.setEnabled sampleTime sampleMapping.id false,
      .setEnabled sampleTime offService.id true]) := by
    refine ⟨trivial, trivial, trivial, trivial, ?_, trivial⟩
    decide +kernel
  exact ⟨hsafe, (memory_coherent_of_safe _ hsafe).1⟩

/-- **The service is enabled beside the mapping**, and the list is refused. -/
theorem memory_enables_conflict : ∃ calls : List MemoryCall, ¬ (new.after calls).Coherent := by
  refine ⟨storeBoth ++ [.setEnabled sampleTime offService.id true], fun h => ?_⟩
  have hstored : (new.after (storeBoth ++ [.setEnabled sampleTime offService.id true])).edgeConfig =
        some sampleConfig ∧
      (new.after (storeBoth ++ [.setEnabled sampleTime offService.id true])).mappings ≠ [] ∧
      validateMappings (new.after (storeBoth ++ [.setEnabled sampleTime offService.id true])).listMappings
        sampleConfig = .error (.duplicateEdgePrivateIp ⟨10, 0, 0, 101⟩) := by
    decide +kernel
  obtain ⟨hc, hne, herr⟩ := hstored
  obtain ⟨config, hc', hok⟩ := h hne
  cases hc.symm.trans hc'
  cases herr.symm.trans hok

end EdgeRoute
