import EdgeRoute.Proof.Memory
import EdgeRoute.Proof.Release

/-!
# Two stores of one registry

`SqliteStore` and `InMemoryStateStore` keep the same mappings, the one in rows behind constraints, the other in a map
that nothing guards. Over both stands what they are for: a `Registry` with at most one mapping for an id. The times of
creation and of the last write are left out of it, since each store writes its own.

* `memory_refines`: a method of the store in memory returns exactly where the registry `Allows` the call.
* `sqlite_refines`: a method of the SQLite store returns exactly where the registry allows the call, the call is
  `Quiet` and its row can be written.
* `stores_agree`: **the SQLite store is the store in memory behind a guard**: it takes the calls that the other takes
  and that leave a list which `validate_mappings` accepts.
-/

namespace EdgeRoute

open Effect

variable {C : Codec} {config : EdgeConfig} {text : String} {m m' x : Mapping} {id id' : MappingId} {db db' : Db}
  {store store' : InMemoryStateStore} {now : OffsetDateTime} {T : OffsetDateTime → Prop}

/-! ## The registry -/

/-- The mapping without its times of creation and of the last write. -/
def Mapping.untimed (m : Mapping) : Mapping := { m with createdAt := ⟨0, 0⟩, updatedAt := ⟨0, 0⟩ }

/-- **What a store is for**: at most one mapping for an id. -/
abbrev Registry := MappingId → Option Mapping

/-- A call that both stores have. -/
inductive SharedCall where
  | insert (mapping : Mapping)
  | update (mapping : Mapping)
  | setEnabled (id : MappingId) (enabled : Bool)
  | delete (id : MappingId)

namespace Registry

/-- No other mapping is a duplicate of `m`. -/
def Free (g : Registry) (m : Mapping) : Prop := ∀ id m', id ≠ m.id → g id = some m' → Distinct m m'

/-- **The calls that a registry takes.** -/
def Allows (config : EdgeConfig) (g : Registry) : SharedCall → Prop
  | .insert m => g m.id = none ∧ validateMapping m config = .ok () ∧ g.Free m
  | .update m => g m.id ≠ none ∧ validateMapping m config = .ok () ∧ g.Free m
  | .setEnabled id _ => g id ≠ none
  | .delete id => g id ≠ none

/-- A mapping that the call enables conflicts, enabled, with none of the others. -/
def Quiet (g : Registry) : SharedCall → Prop
  | .setEnabled id true => ∀ m, g id = some m → ∀ id' m', id' ≠ id → g id' = some m' →
      conflicts { m with enabled := true } m' = false
  | _ => True

/-- **What a call makes of a registry.** -/
def apply (g : Registry) : SharedCall → Registry
  | .insert m => Function.update g m.id (some m.untimed)
  | .update m => Function.update g m.id (some m.untimed)
  | .setEnabled id enabled => Function.update g id ((g id).map fun m =>
      { m with enabled, status := if enabled then .pending else .disabled })
  | .delete id => Function.update g id none

end Registry

/-- The registry of a database. -/
def Db.registry (C : Codec) (db : Db) : Registry := fun id => (db.mapping C id).map Mapping.untimed

/-- The registry of a store in memory. -/
def InMemoryStateStore.registry (store : InMemoryStateStore) : Registry := fun id =>
  (store.get? id).map Mapping.untimed

open InMemoryStateStore

theorem distinct_untimed : Distinct m m'.untimed ↔ Distinct m m' := Iff.rfl

/-! ## The store in memory -/

/-- The call with the time that the clock shows. -/
def SharedCall.inMemory (now : OffsetDateTime) : SharedCall → MemoryCall
  | .insert m => .insert m
  | .update m => .update now m
  | .setEnabled id enabled => .setEnabled now id enabled
  | .delete id => .delete id

/-- The map has one value for an id. -/
def InMemoryStateStore.Keyed (store : InMemoryStateStore) : Prop :=
  store.mappings.Pairwise fun m m' => m.id ≠ m'.id

theorem get?_iff (h : store.Keyed) : store.get? id = some m ↔ m ∈ store.mappings ∧ m.id = id := by
  constructor
  · intro hget
    have hid := List.find?_some hget
    exact ⟨List.mem_of_find?_eq_some hget, by simpa using hid⟩
  · rintro ⟨hm, rfl⟩
    cases hget : store.get? m.id with
    | none =>
      have habsent : ∀ m' ∈ store.mappings, m'.id ≠ m.id := by simpa [get?] using hget
      exact absurd rfl (habsent m hm)
    | some m' =>
      have hid' : m'.id = m.id := by simpa using List.find?_some hget
      have hm' : m' ∈ store.mappings := List.mem_of_find?_eq_some hget
      -- two values of one key are the same value
      have hnodup : (store.mappings.map (·.id)).Nodup := List.pairwise_map.2 h
      rw [List.inj_on_of_nodup_map hnodup hm' hm hid']

theorem registry_iff (h : store.Keyed) :
    store.registry id = some x ↔ ∃ m ∈ store.mappings, m.id = id ∧ m.untimed = x := by
  unfold registry
  simp only [Option.map_eq_some_iff, get?_iff h, and_assoc]

theorem registry_isSome (h : store.Keyed) : store.registry id ≠ none ↔ ∃ m ∈ store.mappings, m.id = id := by
  rw [Option.ne_none_iff_exists']
  simp only [registry_iff h]
  constructor
  · rintro ⟨x, m, hm, hid, -⟩
    exact ⟨m, hm, hid⟩
  · rintro ⟨m, hm, hid⟩
    exact ⟨m.untimed, m, hm, hid, rfl⟩

theorem containsKey_iff (h : store.Keyed) : store.containsKey id = true ↔ store.registry id ≠ none := by
  rw [registry_isSome h]
  simp [containsKey]

/-- What a candidate is checked against is what the registry holds. -/
theorem free_iff (h : store.Keyed) :
    (∀ m' ∈ store.mappings, m'.id ≠ m.id → Distinct m m') ↔ store.registry.Free m := by
  constructor
  · intro hall id x hid hx
    obtain ⟨m', hm', rfl, rfl⟩ := (registry_iff h).1 hx
    exact distinct_untimed.2 (hall m' hm' hid)
  · intro hfree m' hm' hid
    have hx : store.registry m'.id = some m'.untimed := (registry_iff h).2 ⟨m', hm', rfl, rfl⟩
    exact distinct_untimed.1 (hfree m'.id m'.untimed hid hx)

theorem validates_iff (h : store.Keyed) (hc : store.edgeConfig = some config) :
    store.validateMappingForWrite m = .ok () ↔ validateMapping m config = .ok () ∧ store.registry.Free m := by
  rw [validateMappingForWrite_ok, free_iff h]
  constructor
  · rintro ⟨config', hc', hv⟩
    cases hc.symm.trans hc'
    exact hv
  · intro hv
    exact ⟨config, hc, hv⟩

/-! ### What a write leaves -/

theorem keyed_insert (h : store.Keyed) : (store.insert m).Keyed := by
  unfold Keyed
  rw [insert_perm.pairwise_iff Ne.symm, List.pairwise_cons]
  exact ⟨fun m' hm' => (mem_remove.1 hm').2.symm, h.sublist List.filter_sublist⟩

theorem registry_insert (h : store.Keyed) :
    (store.insert m).registry = Function.update store.registry m.id (some m.untimed) := by
  funext id
  refine Option.ext fun x => ?_
  rw [registry_iff (keyed_insert h)]
  simp only [insert_perm.mem_iff, List.mem_cons, mem_remove]
  by_cases hid : id = m.id
  · subst hid
    rw [Function.update_self, Option.some.injEq]
    constructor
    · rintro ⟨m', hm' | ⟨-, hne⟩, hk, rfl⟩
      · rw [hm']
      · exact absurd hk hne
    · rintro rfl
      exact ⟨m, .inl rfl, rfl, rfl⟩
  · rw [Function.update_of_ne hid, registry_iff h]
    constructor
    · rintro ⟨m', hm' | ⟨hm', -⟩, hk, hx⟩
      · exact absurd (hk.symm.trans (by rw [hm'])) hid
      · exact ⟨m', hm', hk, hx⟩
    · rintro ⟨m', hm', rfl, hx⟩
      exact ⟨m', .inr ⟨hm', hid⟩, rfl, hx⟩

theorem keyed_remove (h : store.Keyed) : (store.remove id).Keyed := h.sublist List.filter_sublist

theorem registry_remove (h : store.Keyed) : (store.remove id).registry = Function.update store.registry id none := by
  funext id'
  refine Option.ext fun x => ?_
  rw [registry_iff (keyed_remove h)]
  simp only [mem_remove]
  by_cases hid : id' = id
  · subst hid
    rw [Function.update_self]
    exact iff_of_false (fun ⟨m', ⟨_, hne⟩, hk, _⟩ => hne hk) (fun hx => nomatch hx)
  · rw [Function.update_of_ne hid, registry_iff h]
    constructor
    · rintro ⟨m', ⟨hm', -⟩, hk, hx⟩
      exact ⟨m', hm', hk, hx⟩
    · rintro ⟨m', hm', rfl, hx⟩
      exact ⟨m', ⟨hm', hid⟩, rfl, hx⟩

variable {enabled : Bool}

theorem keyed_modify (h : store.Keyed) : (store.modify id (flagged now enabled)).Keyed := by
  have hid : ∀ m : Mapping, (if m.id = id then flagged now enabled m else m).id = m.id := by
    intro m
    split <;> rfl
  refine List.pairwise_map.2 (h.imp ?_)
  intro m m' hne
  rwa [hid, hid]

theorem registry_modify (h : store.Keyed) :
    (store.modify id (flagged now enabled)).registry = store.registry.apply (.setEnabled id enabled) := by
  funext id'
  refine Option.ext fun x => ?_
  rw [registry_iff (keyed_modify h), Registry.apply]
  simp only [mem_modify]
  by_cases hid : id' = id
  · subst hid
    rw [Function.update_self, Option.map_eq_some_iff]
    simp only [registry_iff h]
    constructor
    · rintro ⟨_, ⟨m, hm, rfl⟩, hk, rfl⟩
      by_cases hid : m.id = id'
      · rw [if_pos hid]
        exact ⟨m.untimed, ⟨m, hm, hid, rfl⟩, rfl⟩
      · rw [if_neg hid] at hk
        exact absurd hk hid
    · rintro ⟨_, ⟨m, hm, hid, rfl⟩, rfl⟩
      exact ⟨flagged now enabled m, ⟨m, hm, if_pos hid⟩, hid, rfl⟩
  · rw [Function.update_of_ne hid, registry_iff h]
    constructor
    · rintro ⟨_, ⟨m, hm, rfl⟩, hk, rfl⟩
      have hne : m.id ≠ id := by
        intro heq
        rw [if_pos heq] at hk
        exact hid (hk.symm.trans heq)
      rw [if_neg hne] at hk ⊢
      exact ⟨m, hm, hk, rfl⟩
    · rintro ⟨m, hm, rfl, rfl⟩
      exact ⟨m, ⟨m, hm, if_neg hid⟩, rfl, rfl⟩

/-! ### The methods -/

/-- A check, then a write, as one outcome. -/
theorem run_checked (check : Except EdgeCoreError Unit) (store store' : InMemoryStateStore) :
    (do liftExcept check; set store' : MemoryM Unit).run.run store = match check with
      | .ok () => (.ok (), store')
      | .error e => (.error e, store) := by
  cases check <;> rfl

theorem run_insert (store : InMemoryStateStore) (m : Mapping) :
    (MemoryCall.insert m).run store = if store.containsKey m.id then (.error (.duplicateMappingId m.id), store)
      else match store.validateMappingForWrite m with
        | .ok () => (.ok (), store.insert m)
        | .error e => (.error e, store) := by
  rw [MemoryCall.run, MemoryCall.method, MemoryM.insertMapping, run_get_bind]
  by_cases hkey : store.containsKey m.id = true
  · rw [if_pos hkey, if_pos hkey]
    rfl
  · rw [if_neg hkey, if_neg hkey]
    exact run_checked _ _ _

theorem run_update (store : InMemoryStateStore) (now : OffsetDateTime) (m : Mapping) :
    (MemoryCall.update now m).run store = if !store.containsKey m.id then (.error (.notFound m.id), store)
      else match store.validateMappingForWrite { m with updatedAt := now } with
        | .ok () => (.ok (), store.insert { m with updatedAt := now })
        | .error e => (.error e, store) := by
  rw [MemoryCall.run, MemoryCall.method, MemoryM.updateMapping, run_get_bind]
  by_cases hkey : (!store.containsKey m.id) = true
  · rw [if_pos hkey, if_pos hkey]
    rfl
  · rw [if_neg hkey, if_neg hkey]
    exact run_checked _ _ _

/-- **A step of the registry**: the result of a call on `store`, and the store after it. -/
structure MemoryStep (config : EdgeConfig) (call : SharedCall) (store : InMemoryStateStore)
    (result : Except EdgeCoreError Unit × InMemoryStateStore) : Prop where
  returns : result.1 = .ok () ↔ Registry.Allows config store.registry call
  registry : result.1 = .ok () → result.2.registry = store.registry.apply call
  keyed : result.2.Keyed
  config : result.2.edgeConfig = some config

section MemoryStep

variable {call : SharedCall} (h : store.Keyed) (hc : store.edgeConfig = some config)

include h hc

theorem MemoryStep.refused {e : EdgeCoreError} (hnot : ¬ Registry.Allows config store.registry call) :
    MemoryStep config call store (.error e, store) :=
  ⟨iff_of_false (fun hx => nomatch hx) hnot, fun hx => (nomatch hx), h, hc⟩

theorem memory_insert : MemoryStep config (.insert m) store ((MemoryCall.insert m).run store) := by
  rw [run_insert]
  by_cases hkey : store.containsKey m.id = true
  · rw [if_pos hkey]
    exact .refused h hc fun ha => (containsKey_iff h).1 hkey ha.1
  · have hnone : store.registry m.id = none := not_not.1 fun hne => hkey ((containsKey_iff h).2 hne)
    have hiff := validates_iff (m := m) h hc
    rw [if_neg hkey]
    cases hv : store.validateMappingForWrite m with
    | error e =>
      rw [hv] at hiff
      exact .refused h hc fun ha => nomatch hiff.2 ha.2
    | ok u => exact ⟨iff_of_true rfl ⟨hnone, hiff.1 hv⟩, fun _ => registry_insert h, keyed_insert h, hc⟩

theorem memory_update : MemoryStep config (.update m) store ((MemoryCall.update now m).run store) := by
  rw [run_update]
  by_cases hkey : store.containsKey m.id = true
  · have hsome : store.registry m.id ≠ none := (containsKey_iff h).1 hkey
    -- the check does not look at the time of the write
    have hiff : store.validateMappingForWrite { m with updatedAt := now } = .ok () ↔
        validateMapping m config = .ok () ∧ store.registry.Free m := validates_iff h hc
    rw [if_neg (by rw [hkey]; decide)]
    cases hv : store.validateMappingForWrite { m with updatedAt := now } with
    | error e =>
      rw [hv] at hiff
      exact .refused h hc fun ha => nomatch hiff.2 ha.2
    | ok u => exact ⟨iff_of_true rfl ⟨hsome, hiff.1 hv⟩, fun _ => registry_insert h, keyed_insert h, hc⟩
  · have hnone : store.registry m.id = none := not_not.1 fun hne => hkey ((containsKey_iff h).2 hne)
    rw [if_pos (by simpa using hkey)]
    exact .refused h hc fun ha => ha.1 hnone

theorem memory_setEnabled :
    MemoryStep config (.setEnabled id enabled) store ((MemoryCall.setEnabled now id enabled).run store) := by
  have hreturns : ((MemoryCall.setEnabled now id enabled).run store).1 = .ok () ↔ store.containsKey id = true := by
    rw [MemoryCall.run, MemoryCall.method, MemoryM.setMappingEnabled, run_get_bind]
    by_cases hkey : (!store.containsKey id) = true
    · rw [if_pos hkey]
      exact iff_of_false (fun hx => by cases hx) (by simpa using hkey)
    · rw [if_neg hkey]
      exact iff_of_true rfl (by simpa using hkey)
  refine ⟨hreturns.trans (containsKey_iff h), fun _ => ?_, ?_, ?_⟩
  · rw [run_setEnabled]
    exact registry_modify h
  · rw [run_setEnabled]
    exact keyed_modify h
  · rw [run_setEnabled]
    exact hc

theorem memory_delete : MemoryStep config (.delete id) store ((MemoryCall.delete id).run store) := by
  cases hget : store.get? id with
  | none =>
    have hrun : (MemoryM.deleteMapping id).run.run store = (.error (.notFound id), store.remove id) := by
      rw [MemoryM.deleteMapping, run_get_bind, hget]
      rfl
    have hnone : store.registry id = none := by
      unfold registry
      rw [hget]
      rfl
    rw [remove_of_absent hget] at hrun
    rw [show (MemoryCall.delete id).run store = _ from run_bind_pure hrun]
    exact .refused h hc fun ha => ha hnone
  | some m =>
    have hrun : (MemoryM.deleteMapping id).run.run store = (.ok m, store.remove id) := by
      rw [MemoryM.deleteMapping, run_get_bind, hget]
      rfl
    have hsome : store.registry id ≠ none := by
      unfold registry
      rw [hget]
      intro hx
      cases hx
    rw [show (MemoryCall.delete id).run store = _ from run_bind_pure hrun]
    exact ⟨iff_of_true rfl hsome, fun _ => registry_remove h, keyed_remove h, hc⟩

/-- **The store in memory refines the registry**: a method returns exactly where the registry allows the call. -/
theorem memory_refines (call : SharedCall) (now : OffsetDateTime) :
    MemoryStep config call store ((call.inMemory now).run store) := by
  cases call with
  | insert m => exact memory_insert h hc
  | update m => exact memory_update h hc
  | setEnabled id enabled => exact memory_setEnabled h hc
  | delete id => exact memory_delete h hc

end MemoryStep

/-! ## The SQLite store -/

def SharedCall.onSqlite : SharedCall → StoreCall
  | .insert m => .insert m
  | .update m => .update m
  | .setEnabled id enabled => .setEnabled id enabled
  | .delete id => .delete id

/-- The row that the call writes can be written: its times can be formatted. -/
def SharedCall.Writable (C : Codec) : SharedCall → Prop
  | .insert m => ∃ row, C.insertRow m = .ok row
  | .update m => ∃ cols, C.updateRow m = .ok cols
  | _ => True

section Rows

variable (h : StoreInv C config text db)

include h

theorem db_registry_iff : db.registry C id = some x ↔
    ∃ row ∈ db.mappings.rows, ∃ m, Encodes C row m ∧ m.id = id ∧ m.untimed = x := by
  unfold Db.registry
  rw [Option.map_eq_some_iff]
  constructor
  · rintro ⟨m, hm, rfl⟩
    obtain ⟨row, hfind, hdec⟩ := row_of_mapping hm
    obtain ⟨hmem, hid⟩ := Sql.Table.find_some hfind
    obtain ⟨m', he, -⟩ := h.table.stored row hmem
    cases he.decoded.symm.trans hdec
    exact ⟨row, hmem, m, he, MappingId.val_injective (he.id.symm.trans hid), rfl⟩
  · rintro ⟨row, hmem, m, he, rfl, rfl⟩
    exact ⟨m, mapping_of_find (Sql.Table.find_of_mem hmem he.id) he.decoded, rfl⟩

theorem db_registry_isSome : db.registry C id ≠ none ↔ ∃ row ∈ db.mappings.rows, row.id = id.val := by
  rw [Option.ne_none_iff_exists']
  simp only [db_registry_iff h]
  constructor
  · rintro ⟨x, row, hmem, m, he, rfl, -⟩
    exact ⟨row, hmem, he.id⟩
  · rintro ⟨row, hmem, hid⟩
    obtain ⟨m, he, -⟩ := h.table.stored row hmem
    exact ⟨m.untimed, row, hmem, m, he, MappingId.val_injective (he.id.symm.trans hid), rfl⟩

/-- What `reject_duplicates` asks of the other rows is what the registry asks. -/
theorem db_free_iff : (∀ row ∈ db.mappings.others m.id.val, ∃ m', C.rowToMapping row = .ok m' ∧ Distinct m m') ↔
    (db.registry C).Free m := by
  constructor
  · intro hall id x hid hx
    obtain ⟨row, hmem, m', he, rfl, rfl⟩ := (db_registry_iff h).1 hx
    have hne : row.id ≠ m.id.val := fun heq => hid (MappingId.val_injective (he.id.symm.trans heq))
    obtain ⟨m'', hdec, hd⟩ := hall row (Sql.Table.mem_others.2 ⟨hmem, hne⟩)
    cases he.decoded.symm.trans hdec
    exact distinct_untimed.2 hd
  · intro hfree row hrow
    obtain ⟨hmem, hne⟩ := Sql.Table.mem_others.1 hrow
    obtain ⟨m', he, -⟩ := h.table.stored row hmem
    have hid : m'.id ≠ m.id := fun heq => hne (he.id.trans (congrArg MappingId.val heq))
    have hx : db.registry C m'.id = some m'.untimed := (db_registry_iff h).2 ⟨row, hmem, m', he, rfl, rfl⟩
    exact ⟨m', he.decoded, distinct_untimed.1 (hfree m'.id m'.untimed hid hx)⟩

/-- A mapping that is no duplicate clashes with no other row. -/
theorem not_clash_of_free {new : Row} (he : Encodes C new m') (hmode : validateMode m' = .ok ())
    (hsame : ∀ x, Distinct m x → Admissible m' x) (hfree : (db.registry C).Free m) {row : Row}
    (hrow : row ∈ db.mappings.others m.id.val) : ¬ new.Clash row := by
  intro hclash
  obtain ⟨x, hdec, hd⟩ := (db_free_iff h).2 hfree row hrow
  obtain ⟨x', hx, -⟩ := h.table.stored row (Sql.Table.mem_others.1 hrow).1
  cases hx.decoded.symm.trans hdec
  obtain ⟨-, -, hbad⟩ := (clash_iff he hx hmode).1 hclash
  have hadm : Admissible m' x := hsame x hd
  rcases hbad with hc | hs
  · rw [hadm.1] at hc
    cases hc
  · rw [hadm.2] at hs
    cases hs

end Rows

/-- **A guarded UPDATE of a row that is there** replaces it, or is refused for a row it would clash with. -/
theorem update_found {t : Sql.Table mappingsSchema} {k : String} {f : Row → Row} (hf : ∀ row, (f row).id = row.id)
    {old : Row} (ho : t.find k = some old) :
    ((∃ row ∈ t.others k, (f old).Clash row) → ∃ e, t.update k f hf true = .error e) ∧
      ((∀ row ∈ t.others k, ¬ (f old).Clash row) → t.update k f hf true = .ok (t.set k f hf, 1)) := by
  have hk : old.id = k := (Sql.Table.find_some ho).2
  have htrigger : mappingsSchema.onUpdate t.rows (f old) = raiseConflict (t.others k) (f old) :=
    rejectConflictUpdate_eq ((hf old).trans hk)
  constructor
  · intro hclash
    have hguard := guard_iff.2 hclash
    rw [← htrigger] at hguard
    obtain ⟨e, he, -⟩ := (Sql.Table.update_constraint hf ho).2 hguard
    exact ⟨e, he⟩
  · intro hfree
    have hguard : ¬ (raiseConflict (t.others k) (f old) ≠ none ∨
        mappingsSchema.refusal (t.others k) (f old) ≠ none) := by
      rw [guard_iff]
      exact fun ⟨row, hrow, hc⟩ => hfree row hrow hc
    rw [not_or, not_not, not_not, ← htrigger] at hguard
    unfold Sql.Table.update
    simp only [ho, hguard.1, hguard.2, if_true]

/-! ### When the methods return -/

section Returns

variable (hj : C.configFromJson text = .ok config) (h : StoreInv C config text db)

include hj h

theorem sqlite_inserts_iff : (∃ db', Inserts C m db db') ↔
    Registry.Allows config (db.registry C) (.insert m) ∧ ∃ row, C.insertRow m = .ok row := by
  constructor
  · rintro ⟨db', hins⟩
    obtain ⟨config', row, ⟨text', htext, hj'⟩, hv, hdup, hrow, hfree, -⟩ := inserts_iff.1 hins
    cases h.stored.symm.trans htext
    cases hj.symm.trans hj'
    have he := encodes_insertRow (portsOk_of_valid (validateMode_of_valid hv)) hrow
    have hnone : db.registry C m.id = none := by
      by_contra hne
      obtain ⟨row', hmem, hid⟩ := (db_registry_isSome h).1 hne
      exact (hfree row' hmem).1 (hid.trans he.id.symm)
    exact ⟨⟨hnone, hv, (db_free_iff h).1 hdup⟩, row, hrow⟩
  · rintro ⟨⟨hnone, hv, hfree⟩, row, hrow⟩
    have hmode := validateMode_of_valid hv
    have he := encodes_insertRow (portsOk_of_valid hmode) hrow
    have hnew : ∀ row' ∈ db.mappings.rows, row'.id ≠ row.id := by
      intro row' hmem hid
      exact (db_registry_isSome h).2 ⟨row', hmem, hid.trans he.id⟩ hnone
    have hclash : ∀ row' ∈ db.mappings.rows, row'.id ≠ row.id ∧ ¬ row.Clash row' := by
      intro row' hmem
      have hother : row' ∈ db.mappings.others m.id.val :=
        Sql.Table.mem_others.2 ⟨hmem, fun heq => hnew row' hmem (heq.trans he.id.symm)⟩
      exact ⟨hnew row' hmem, not_clash_of_free h he hmode (fun _ hd => hd.1) hfree hother⟩
    exact ⟨appendRow db row hnew, inserts_iff.2 ⟨config, row, ⟨text, h.stored, hj⟩, hv, (db_free_iff h).2 hfree, hrow,
      hclash, _, rfl, rfl⟩⟩

theorem sqlite_updates_iff : Storable C db m ↔
    Registry.Allows config (db.registry C) (.update m) ∧ ∃ cols, C.updateRow m = .ok cols := by
  constructor
  · rintro ⟨⟨config', ⟨text', htext, hj'⟩, hv⟩, hdup, cols, t, hcols, hu⟩
    cases h.stored.symm.trans htext
    cases hj.symm.trans hj'
    rcases Sql.Table.update_ok hu with ⟨-, -, hn⟩ | ⟨old, ho, -, -, -⟩
    · cases hn
    · obtain ⟨hmem, hid⟩ := Sql.Table.find_some ho
      have hsome : db.registry C m.id ≠ none :=
        (db_registry_isSome h).2 ⟨old, hmem, hid.trans (updateRow_columns hcols).1⟩
      exact ⟨⟨hsome, hv, (db_free_iff h).1 hdup⟩, cols, hcols⟩
  · rintro ⟨⟨hsome, hv, hfree⟩, cols, hcols⟩
    have hmode := validateMode_of_valid hv
    have hcid : cols.id = m.id.val := (updateRow_columns hcols).1
    obtain ⟨old, hmem, hid⟩ := (db_registry_isSome h).1 hsome
    obtain ⟨m₀, he₀, -⟩ := h.table.stored old hmem
    have he := encodes_replaced (portsOk_of_valid hmode) hcols he₀ (hid.trans hcid.symm)
    have hclash : ∀ row ∈ db.mappings.others cols.id, ¬ (cols.replaced old).Clash row := by
      intro row hrow
      rw [hcid] at hrow
      exact not_clash_of_free h he hmode (fun _ hd => hd.1) hfree hrow
    have hfind : db.mappings.find cols.id = some old := Sql.Table.find_of_mem hmem (hid.trans hcid.symm)
    exact ⟨⟨config, ⟨text, h.stored, hj⟩, hv⟩, (db_free_iff h).2 hfree, cols, _, hcols,
      (update_found cols.replaced_id hfind).2 hclash⟩

end Returns

/-! ### What the methods leave -/

theorem mapping_of_others (ho : db'.mappings.others id.val = db.mappings.others id.val) (hid : id' ≠ id) :
    db'.mapping C id' = db.mapping C id' := by
  have hne : id'.val ≠ id.val := fun heq => hid (MappingId.val_injective heq)
  have hfind : ∀ t : Sql.Table mappingsSchema, 
      t.find id'.val = (t.others id.val).find? fun row => row.id = id'.val := by
    intro t
    unfold Sql.Table.find Sql.Table.others
    rw [List.find?_filter]
    refine congrArg (List.find? · t.rows) (funext fun row => ?_)
    by_cases hrow : row.id = id'.val
    · simp [mappingsSchema, hrow, hne]
    · simp [mappingsSchema, hrow]
  unfold Db.mapping
  rw [hfind, hfind, ho]

theorem registry_wrote (hw : Wrote C id m db db') :
    db'.registry C = Function.update (db.registry C) id (some m.untimed) := by
  funext id'
  by_cases hid : id' = id
  · subst hid
    rw [Function.update_self, Db.registry, hw.row]
    rfl
  · rw [Function.update_of_ne hid, Db.registry, Db.registry, mapping_of_others hw.others hid]

theorem registry_deleted (hrow : db'.mapping C id = none)
    (ho : db'.mappings.others id.val = db.mappings.others id.val) :
    db'.registry C = Function.update (db.registry C) id none := by
  funext id'
  by_cases hid : id' = id
  · subst hid
    rw [Function.update_self, Db.registry, hrow]
    rfl
  · rw [Function.update_of_ne hid, Db.registry, Db.registry, mapping_of_others ho hid]

theorem registry_congr (hrows : db'.mappings = db.mappings) : db'.registry C = db.registry C := by
  funext id
  unfold Db.registry Db.mapping
  rw [hrows]

/-- **A step of the registry**: the result `x` of a call on `db`, and the database after it. -/
structure SqliteStep (C : Codec) (config : EdgeConfig) (call : SharedCall) (db db' : Db)
    (x : Except EdgeCoreError Unit) : Prop where
  returns : x = .ok () ↔
    Registry.Allows config (db.registry C) call ∧ Registry.Quiet (db.registry C) call ∧ call.Writable C
  registry : x = .ok () → db'.registry C = (db.registry C).apply call
  failed : ∀ e, x = .error e → db'.registry C = db.registry C

theorem enabled_of_conflicts (hc : conflicts m m' = true) : m.enabled = true ∧ m'.enabled = true := by
  unfold conflicts at hc
  split at hc
  · cases hc
  · rename_i hen
    simpa using hen

theorem sat_sql_working {s : Stmt} {post : Db → Except EdgeCoreError s.Out → Prop}
    (hpost : post (db.exec s).2 ((db.exec s).1.mapError sqlError)) : (sql s).Sat (workingStore T) db post := by
  refine Prog.sat_call fun r db' hE => Prog.sat_ofExcept ?_
  have hexec : (r, db') = db.exec s := hE
  rw [← hexec] at hpost
  exact hpost

/-- `get_mapping`, its statement executed. -/
theorem sat_getMapping_find : (getMapping C id).Sat (workingStore T) db fun db' x =>
    db' = db ∧ x = match db.mappings.find id.val with
      | some row => C.rowToMapping row
      | none => .error (.notFound id) := by
  refine Prog.sat_bind (sat_sql_working ⟨fun found hfound => ?_, fun _ hx => nomatch hx⟩)
  obtain rfl : db.mappings.find id.val = found := Except.ok.inj hfound
  cases db.mappings.find id.val with
  | none => exact Prog.sat_fail ⟨rfl, rfl⟩
  | some row => exact Prog.sat_ofExcept ⟨rfl, rfl⟩

theorem returns_getMapping (hm : db.mapping C id = some m) : (getMapping C id).Returns execEnv db db m := by
  obtain ⟨row, hfind, hdec⟩ := row_of_mapping hm
  refine Prog.returns_bind.2 ⟨some row, db, returns_sql.2 ?_, Prog.returns_ofExcept.2 ⟨rfl, hdec⟩⟩
  exact congrArg (fun found => (Except.ok found, db)) hfind

theorem found_of_getMapping (hr : (getMapping C id).Returns execEnv db db' m) :
    ∃ row, db.mappings.find id.val = some row ∧ C.rowToMapping row = .ok m ∧ db' = db := by
  obtain ⟨found, db₁, hsel, hdec⟩ := Prog.returns_bind.1 hr
  cases returns_sql.1 hsel
  cases hfind : db.mappings.find id.val with
  | none =>
    rw [hfind] at hdec
    exact absurd hdec Prog.not_returns_fail
  | some row =>
    rw [hfind] at hdec
    obtain ⟨hdb, hm⟩ := Prog.returns_ofExcept.1 hdec
    exact ⟨row, rfl, hm, hdb⟩

/-- The flag is set where that is allowed and quiet, and nothing is changed elsewhere. -/
def EnablesOrNot (C : Codec) (config : EdgeConfig) (id : MappingId) (enabled : Bool) (db db' : Db)
    (y : Except EdgeCoreError Mapping) : Prop :=
  ((∃ m, y = .ok m) ∧ (Registry.Allows config (db.registry C) (.setEnabled id enabled) ∧
      Registry.Quiet (db.registry C) (.setEnabled id enabled)) ∧
      db'.registry C = (db.registry C).apply (.setEnabled id enabled)) ∨
    ((∃ e, y = .error e) ∧ ¬ (Registry.Allows config (db.registry C) (.setEnabled id enabled) ∧
      Registry.Quiet (db.registry C) (.setEnabled id enabled)) ∧ db'.registry C = db.registry C)

section Steps

variable (hj : C.configFromJson text = .ok config) (h : StoreInv C config text db)

include hj h

theorem sqlite_insert (m : Mapping) : (insertMapping C m).Sat (workingStore T) db fun db' x =>
    SqliteStep C config (.insert m) db db' x := by
  refine Prog.sat_iff.2 fun tr db' x hr => ?_
  have hexec := Prog.run_mono exec_of_workingStore hr
  have hout := (insert_outright m).of_run (Prog.run_mono storeEnv_of_exec hexec)
  have huses : (insertMapping C m).Uses IsSql := insertMapping_uses C trivial trivial fun _ _ => trivial
  have hiff : x = .ok () ↔ ∃ db', Inserts C m db db' := by
    constructor
    · rintro rfl
      exact ⟨db', tr, hexec⟩
    · rintro ⟨db₂, tr₂, h₂⟩
      exact (Prog.run_unique huses exec_unique hexec h₂).2
  refine ⟨?_, fun hx => registry_wrote (hout.1 hx).2, fun e he => registry_congr (hout.2 e he)⟩
  rw [hiff, sqlite_inserts_iff hj h]
  exact ⟨fun ⟨ha, hw⟩ => ⟨ha, trivial, hw⟩, fun ⟨ha, _, hw⟩ => ⟨ha, hw⟩⟩

theorem sqlite_update (m : Mapping) : (updateMapping C m).Sat (workingStore T) db fun db' x =>
    SqliteStep C config (.update m) db db' x := by
  refine Prog.sat_iff.2 fun tr db' x hr => ?_
  have hexec := Prog.run_mono exec_of_workingStore hr
  have hout := (sat_updateMapping m).of_run (Prog.run_mono storeEnv_of_exec hexec)
  have hiff := (sat_updateMapping_working.of_run hr).1
  rw [sqlite_updates_iff hj h] at hiff
  refine ⟨?_, fun hx => ?_, fun e he => registry_congr (hout.1 e he)⟩
  · rw [hiff]
    exact ⟨fun ⟨ha, hw⟩ => ⟨ha, trivial, hw⟩, fun ⟨ha, _, hw⟩ => ⟨ha, hw⟩⟩
  · obtain ⟨cols, old, hu⟩ := hout.2 hx
    obtain ⟨⟨-, hv, -⟩, -⟩ := hiff.1 hx
    obtain ⟨m₀, he₀, -⟩ := h.table.stored old hu.mem
    have he := encodes_replaced (portsOk_of_valid (validateMode_of_valid hv)) hu.bound he₀ hu.id
    have hcid : cols.id = m.id.val := (updateRow_columns hu.bound).1
    have hfind : db.mappings.find cols.id = some old := Sql.Table.find_of_mem hu.mem hu.id
    have hw := wrote_set cols.replaced_id hcid hfind he.decoded hu.table
    have hreg := registry_wrote hw
    exact hreg

omit hj in
theorem sqlite_delete (id : MappingId) :
    ((deleteMapping C id).bind fun _ => .ret ()).Sat (workingStore T) db fun db' x =>
      SqliteStep C config (.delete id) db db' x := by
  refine Prog.sat_iff.2 fun tr db' x hr => ?_
  have hexec := Prog.run_mono exec_of_workingStore hr
  have hout := (delete_outright id).of_run (Prog.run_mono storeEnv_of_exec hexec)
  have hiff : x = .ok () ↔ db.registry C id ≠ none := by
    rw [db_registry_isSome h]
    constructor
    · rintro rfl
      obtain ⟨m, db₁, tr₁, tr₂, -, hdel, -⟩ := Prog.run_bind_ok.1 hexec
      obtain ⟨m', db₂, tr₃, tr₄, -, hget, -⟩ := Prog.run_bind_ok.1 hdel
      obtain ⟨row, hfind, -⟩ := found_of_getMapping ⟨tr₃, hget⟩
      exact ⟨row, Sql.Table.find_some hfind⟩
    · rintro ⟨row, hmem, hid⟩
      obtain ⟨m, he, -⟩ := h.table.stored row hmem
      have hdone : ((deleteMapping C id).bind fun _ => .ret ()).Returns execEnv db _ () :=
        Prog.returns_bind.2 ⟨m, _, Prog.returns_bind.2 ⟨m, db, returns_getMapping (mapping_of_find
          (Sql.Table.find_of_mem hmem hid) he.decoded), Prog.returns_bind.2 ⟨(), _, returns_sql.2 rfl,
          Prog.returns_ret.2 ⟨rfl, rfl⟩⟩⟩, Prog.returns_ret.2 ⟨rfl, rfl⟩⟩
      obtain ⟨tr₂, h₂⟩ := hdone
      exact (Prog.run_unique (Prog.uses_bind (deleteMapping_uses C trivial trivial) fun _ => Prog.uses_ret) exec_unique
        hexec h₂).2
  refine ⟨?_, fun hx => ?_, fun e he => registry_congr (hout.2 e he)⟩
  · rw [hiff]
    exact ⟨fun ha => ⟨ha, trivial, trivial⟩, fun ha => ha.1⟩
  · obtain ⟨hnone, hothers⟩ := hout.1 hx
    exact registry_deleted hnone hothers

/-! #### The flag -/

omit hj in
/-- The constraints let a flag be set exactly where the mapping conflicts, enabled, with no other. -/
theorem quiet_iff {old new : Row} {m₀ : Mapping} (hold : old ∈ db.mappings.rows) (he₀ : Encodes C old m₀)
    (he : Encodes C new (flagged now enabled m₀)) :
    (∀ row ∈ db.mappings.others m₀.id.val, ¬ new.Clash row) ↔
      Registry.Quiet (db.registry C) (.setEnabled m₀.id enabled) := by
  obtain ⟨m₁, he₁, hv⟩ := h.table.stored old hold
  cases he₀.decoded.symm.trans he₁.decoded
  have hmode : validateMode (flagged now enabled m₀) = .ok () := validateMode_of_valid hv
  have hself : db.registry C m₀.id = some m₀.untimed := (db_registry_iff h).2 ⟨old, hold, m₀, he₀, rfl, rfl⟩
  cases enabled with
  | false =>
    refine iff_of_true (fun row hrow hclash => ?_) trivial
    obtain ⟨x, hx, -⟩ := h.table.stored row (Sql.Table.mem_others.1 hrow).1
    obtain ⟨hoff, -⟩ := (clash_iff he hx hmode).1 hclash
    cases hoff
  | true =>
    constructor
    · intro hfree m hm id' x hid hx
      cases hself.symm.trans hm
      obtain ⟨row, hmem, m', he', rfl, rfl⟩ := (db_registry_iff h).1 hx
      have hrow : row ∈ db.mappings.others m₀.id.val :=
        Sql.Table.mem_others.2 ⟨hmem, fun heq => hid (MappingId.val_injective (he'.id.symm.trans heq))⟩
      by_contra hne
      have hconf : conflicts (flagged now true m₀) m' = true := eq_true_of_ne_false hne
      have hen := enabled_of_conflicts hconf
      exact hfree row hrow ((clash_iff he he' hmode).2 ⟨hen.1, hen.2, .inl hconf⟩)
    · intro hquiet row hrow hclash
      obtain ⟨hmem, hne⟩ := Sql.Table.mem_others.1 hrow
      obtain ⟨m', he', -⟩ := h.table.stored row hmem
      have hid : m'.id ≠ m₀.id := fun heq => hne (he'.id.trans (congrArg MappingId.val heq))
      have hx : db.registry C m'.id = some m'.untimed := (db_registry_iff h).2 ⟨row, hmem, m', he', rfl, rfl⟩
      have hconf : conflicts (flagged now true m₀) m' = false := hquiet m₀.untimed hself m'.id m'.untimed hid hx
      -- of the two reasons to refuse, the row as it was already excludes the public address
      have hshare : sharesPublicIp (flagged now true m₀) m' = false :=
        (h.table.apart_others hold he₀.id he₀ hrow he').2
      obtain ⟨-, -, hbad⟩ := (clash_iff he he' hmode).1 hclash
      rcases hbad with hc | hs
      · rw [hconf] at hc
        cases hc
      · rw [hshare] at hs
        cases hs

omit hj in
/-- The enable UPDATE and the read of the row: the flag is set, or nothing is changed. -/
theorem sat_updateEnabled {status updatedAt : String}
    (hstatus : enumString MappingStatus.names (if enabled then .pending else .disabled) = .ok status)
    (hu : C.formatTime now = .ok updatedAt) :
    ((sql (.updateEnabled id.val enabled status updatedAt)).bind fun _ => getMapping C id).Sat (workingStore T) db
      fun db' y => EnablesOrNot C config id enabled db db' y := by
  refine Prog.sat_bind (sat_sql_working ?_)
  cases hfind : db.mappings.find id.val with
  | none =>
    have hnone : db.registry C id = none := by
      unfold Db.registry Db.mapping
      rw [hfind]
      rfl
    have hexec : db.exec (.updateEnabled id.val enabled status updatedAt) = (.ok 0, db) := by
      rw [Db.exec_updateEnabled, Db.updateMappings]
      unfold Sql.Table.update
      rw [hfind]
    rw [hexec]
    refine ⟨fun _ _ => Prog.sat_mono ?_ sat_getMapping_find, fun _ hx => by cases hx⟩
    rintro db' y ⟨rfl, rfl⟩
    rw [hfind]
    exact .inr ⟨⟨_, rfl⟩, fun hboth => hboth.1 hnone, rfl⟩
  | some old =>
    obtain ⟨hmem, hid⟩ := Sql.Table.find_some hfind
    obtain ⟨m₀, he₀, hv⟩ := h.table.stored old hmem
    obtain rfl : m₀.id = id := MappingId.val_injective (he₀.id.symm.trans hid)
    have he : Encodes C (old.withEnabled enabled status updatedAt) (flagged now enabled m₀) :=
      encodes_withEnabled enabled he₀ hstatus hu
    have hself : db.registry C m₀.id = some m₀.untimed := (db_registry_iff h).2 ⟨old, hmem, m₀, he₀, rfl, rfl⟩
    have hupdate := update_found (Row.withEnabled_id enabled status updatedAt) hfind
    have hiff := quiet_iff h hmem he₀ he
    by_cases hclash : ∃ row ∈ db.mappings.others m₀.id.val, (old.withEnabled enabled status updatedAt).Clash row
    · obtain ⟨e, hrefused⟩ := hupdate.1 hclash
      have hexec : db.exec (.updateEnabled m₀.id.val enabled status updatedAt) = (.error e, db) := by
        rw [Db.exec_updateEnabled, Db.updateMappings, hrefused]
      rw [hexec]
      refine ⟨fun _ hx => (by cases hx), fun e' _ => .inr ⟨⟨e', rfl⟩, fun hboth => ?_, rfl⟩⟩
      obtain ⟨row, hrow, hc⟩ := hclash
      exact hiff.2 hboth.2 row hrow hc
    · have hfree : ∀ row ∈ db.mappings.others m₀.id.val, ¬ (old.withEnabled enabled status updatedAt).Clash row :=
        fun row hrow hc => hclash ⟨row, hrow, hc⟩
      obtain ⟨db₁, hrows, hexec⟩ : ∃ db₁ : Db, db₁.mappings = db.mappings.set m₀.id.val
          (Row.withEnabled enabled status updatedAt) (Row.withEnabled_id enabled status updatedAt) ∧
          db.exec (.updateEnabled m₀.id.val enabled status updatedAt) = (.ok 1, db₁) := by
        refine ⟨{ db with
          mappings := db.mappings.set m₀.id.val (Row.withEnabled enabled status updatedAt) fun _ => rfl }, rfl, ?_⟩
        rw [Db.exec_updateEnabled, Db.updateMappings, hupdate.2 hfree]
      have hwrote : Wrote C m₀.id (flagged now enabled m₀) db db₁ := wrote_set _ rfl hfind he.decoded hrows
      have hread : db₁.mappings.find m₀.id.val = some (old.withEnabled enabled status updatedAt) := by
        rw [hrows]
        exact Sql.Table.find_set _ hfind
      rw [hexec]
      refine ⟨fun _ _ => Prog.sat_mono ?_ sat_getMapping_find, fun _ hx => by cases hx⟩
      rintro db' y ⟨rfl, rfl⟩
      have hpresent : db.registry C m₀.id ≠ none := by
        rw [hself]
        exact Option.some_ne_none _
      rw [hread]
      refine .inl ⟨⟨_, he.decoded⟩, ⟨hpresent, hiff.1 hfree⟩, ?_⟩
      rw [registry_wrote hwrote, Registry.apply, hself]
      rfl

omit hj in
theorem sqlite_setEnabled (id : MappingId) (enabled : Bool) :
    ((setMappingEnabled C id enabled).bind fun _ => .ret ()).Sat (workingStore (Formats C)) db fun db' x =>
      SqliteStep C config (.setEnabled id enabled) db db' x := by
  have hset : (setMappingEnabled C id enabled).Sat (workingStore (Formats C)) db fun db' y =>
      EnablesOrNot C config id enabled db db' y := by
    refine Prog.sat_bind (Prog.sat_ofExcept ⟨fun status hstatus => ?_, fun e he => ?_⟩)
    · refine Prog.sat_bind (Prog.sat_call fun now db₁ hnow => Prog.sat_ret ⟨fun _ hn => ?_, fun _ hn => nomatch hn⟩)
      obtain ⟨⟨updatedAt, hu⟩, rfl⟩ := hnow
      cases hn
      refine Prog.sat_bind (Prog.sat_ofExcept ⟨fun _ hu' => ?_, fun e he => by rw [hu] at he; cases he⟩)
      exact sat_updateEnabled h hstatus hu'
    · -- the name of a status can always be written
      cases enabled <;> cases he
  refine Prog.sat_bind (Prog.sat_mono ?_ hset)
  rintro db' y (⟨⟨m, rfl⟩, hboth, hregistry⟩ | ⟨⟨e, rfl⟩, hnot, hregistry⟩)
  · refine ⟨fun _ _ => Prog.sat_ret ?_, fun _ hx => nomatch hx⟩
    exact ⟨iff_of_true rfl ⟨hboth.1, hboth.2, trivial⟩, fun _ => hregistry, fun _ hx => nomatch hx⟩
  · refine ⟨fun _ hx => (nomatch hx), fun e _ => ?_⟩
    exact ⟨iff_of_false (fun hx => nomatch hx) fun hall => hnot ⟨hall.1, hall.2.1⟩, fun hx => (nomatch hx),
      fun _ _ => hregistry⟩

/-- **The SQLite store refines the registry**: a method returns exactly where the registry allows the call, the call
is quiet and its row can be written. -/
theorem sqlite_refines (call : SharedCall) : (call.onSqlite.prog C).Sat (workingStore (Formats C)) db fun db' x =>
    SqliteStep C config call db db' x := by
  cases call with
  | insert m => exact sqlite_insert hj h m
  | update m => exact sqlite_update hj h m
  | setEnabled id enabled => exact sqlite_setEnabled h id enabled
  | delete id => exact sqlite_delete h id

end Steps

/-! ## Both stores in step -/

theorem valid_of_keyed (h : store.Keyed) (hcoh : store.Coherent) : store.Valid := ⟨h, hcoh⟩

/-- The condition under which the store in memory stays accepted is the guard of the SQLite store. -/
theorem safe_iff_quiet (h : store.Keyed) {call : SharedCall} :
    (call.inMemory now).Safe store ↔ store.registry.Quiet call := by
  cases call with
  | setEnabled id enabled =>
    cases enabled with
    | false => exact Iff.rfl
    | true =>
      constructor
      · intro hsafe x hx id' x' hid hx'
        obtain ⟨m, hm, hk, rfl⟩ := (registry_iff h).1 hx
        obtain ⟨m', hm', rfl, rfl⟩ := (registry_iff h).1 hx'
        exact hsafe m hm hk m' hm' hid
      · intro hquiet m hm hk m' hm' hid
        have hx : store.registry id = some m.untimed := (registry_iff h).2 ⟨m, hm, hk, rfl⟩
        have hx' : store.registry m'.id = some m'.untimed := (registry_iff h).2 ⟨m', hm', rfl, rfl⟩
        exact hquiet m.untimed hx m'.id m'.untimed hid hx'
  | insert m => exact Iff.rfl
  | update m => exact Iff.rfl
  | delete id => exact Iff.rfl

/-- **Both stores in step**: one config is stored in each, and of the calls made on the SQLite store the ones that
return are made on the store in memory as well. -/
inductive Paired (C : Codec) (config : EdgeConfig) : Db → InMemoryStateStore → Prop where
  | start {tr : List (Event StoreSig)} {db : Db} :
      (setEdgeConfig C config).Run (workingStore (Formats C)) .fresh tr db (.ok ()) →
      Paired C config db ((MemoryCall.setEdgeConfig config).run new).2
  | accepted {db db' : Db} {store : InMemoryStateStore} {call : SharedCall} {tr : List (Event StoreSig)}
      (now : OffsetDateTime) : Paired C config db store →
      (call.onSqlite.prog C).Run (workingStore (Formats C)) db tr db' (.ok ()) →
      Paired C config db' ((call.inMemory now).run store).2
  | refused {db db' : Db} {store : InMemoryStateStore} {call : SharedCall} {tr : List (Event StoreSig)}
      {e : EdgeCoreError} : Paired C config db store →
      (call.onSqlite.prog C).Run (workingStore (Formats C)) db tr db' (.error e) → Paired C config db' store

/-- What stores in step have in common. -/
structure InStep (C : Codec) (config : EdgeConfig) (text : String) (db : Db) (store : InMemoryStateStore) : Prop where
  json : C.configFromJson text = .ok config
  sqlite : StoreInv C config text db
  keyed : store.Keyed
  config : store.edgeConfig = some config
  coherent : store.Coherent
  registry : db.registry C = store.registry

section InStep

variable {tr : List (Event StoreSig)} {y : Except EdgeCoreError Unit} {call : SharedCall}

/-- **One call**: the SQLite store takes it where the store in memory takes it and stays accepted. -/
theorem InStep.returns_iff (h : InStep C config text db store)
    (hr : (call.onSqlite.prog C).Run (workingStore (Formats C)) db tr db' y) (now : OffsetDateTime) :
    y = .ok () ↔ ((call.inMemory now).run store).1 = .ok () ∧ ((call.inMemory now).run store).2.Coherent ∧
      call.Writable C := by
  have hstep := (sqlite_refines h.json h.sqlite call).of_run hr
  have hmemory := memory_refines h.keyed h.config call now
  rw [hstep.returns, hmemory.returns, coherent_iff_safe (valid_of_keyed h.keyed h.coherent), safe_iff_quiet h.keyed,
    h.registry]

theorem InStep.accepted (h : InStep C config text db store)
    (hr : (call.onSqlite.prog C).Run (workingStore (Formats C)) db tr db' (.ok ())) (now : OffsetDateTime) :
    InStep C config text db' ((call.inMemory now).run store).2 := by
  have hstep := (sqlite_refines h.json h.sqlite call).of_run hr
  have hmemory := memory_refines h.keyed h.config call now
  obtain ⟨hok, hcoh, -⟩ := (h.returns_iff hr now).1 rfl
  have hinv := (call_keeps h.json h.sqlite call.onSqlite).of_run
    (Prog.run_mono storeEnv_of_exec (Prog.run_mono exec_of_workingStore hr))
  refine ⟨h.json, hinv, hmemory.keyed, hmemory.config, hcoh, ?_⟩
  rw [hstep.registry rfl, hmemory.registry hok, h.registry]

theorem InStep.refused {e : EdgeCoreError} (h : InStep C config text db store)
    (hr : (call.onSqlite.prog C).Run (workingStore (Formats C)) db tr db' (.error e)) :
    InStep C config text db' store := by
  have hstep := (sqlite_refines h.json h.sqlite call).of_run hr
  have hinv := (call_keeps h.json h.sqlite call.onSqlite).of_run
    (Prog.run_mono storeEnv_of_exec (Prog.run_mono exec_of_workingStore hr))
  exact ⟨h.json, hinv, h.keyed, h.config, h.coherent, (hstep.failed e rfl).trans h.registry⟩

theorem inStep_start (hr : (setEdgeConfig C config).Run (workingStore (Formats C)) .fresh tr db (.ok ())) :
    ∃ text, InStep C config text db ((MemoryCall.setEdgeConfig config).run new).2 := by
  have hstore := Prog.run_mono storeEnv_of_exec (Prog.run_mono exec_of_workingStore hr)
  obtain ⟨text, htext, hinv⟩ := setEdgeConfig_inv hstore
  have hvalid : validateEdgeConfig config = .ok () := by
    rcases setEdgeConfig_run hstore with ⟨-, ht, -⟩ | ⟨⟨e, he⟩, -⟩
    · exact ht.1
    · cases he
  have hset : new.setEdgeConfig config = .ok { new with edgeConfig := some config } :=
    memory_setEdgeConfig.2 ⟨hvalid, fun m hm => (nomatch hm), rfl⟩
  have hrun : (MemoryCall.setEdgeConfig config).run new = (.ok (), { new with edgeConfig := some config }) := by
    rw [MemoryCall.run, MemoryCall.method, MemoryM.setEdgeConfig, run_get_bind, hset]
    rfl
  have hempty : db.mappings = .empty := by
    rcases setEdgeConfig_run hstore with ⟨-, -, hrows⟩ | ⟨⟨e, he⟩, -⟩
    · exact hrows
    · cases he
  rw [hrun]
  refine ⟨text, C.json_inverse htext, hinv, .nil, rfl, fun hne => absurd rfl hne, ?_⟩
  funext id
  have hmapping : db.mapping C id = none := by
    unfold Db.mapping
    rw [hempty]
    rfl
  unfold Db.registry
  rw [hmapping]
  rfl

theorem paired_inStep (h : Paired C config db store) : ∃ text, InStep C config text db store := by
  induction h with
  | start hr => exact inStep_start hr
  | accepted now _ hr ih =>
    obtain ⟨text, hin⟩ := ih
    exact ⟨text, hin.accepted hr now⟩
  | refused _ hr ih =>
    obtain ⟨text, hin⟩ := ih
    exact ⟨text, hin.refused hr⟩

end InStep

/-! ### The listings -/

/-- A decoded list has the ids of its rows. -/
theorem ids_decoded {rows : List Row} {ms : List Mapping} (hd : decodeRows C rows = .ok ms)
    (hstored : ∀ row ∈ rows, ∃ m, Encodes C row m) : ms.map (fun m => m.id.val) = rows.map Row.id := by
  rw [decodeRows_forall₂] at hd
  induction hd with
  | nil => rfl
  | @cons row m rows ms hdec _ ih =>
    obtain ⟨⟨m', he⟩, hrest⟩ := List.forall_mem_cons.1 hstored
    cases he.decoded.symm.trans hdec
    rw [List.map_cons, List.map_cons, ih hrest, he.id]

/-- **A listing shows the registry**: each mapping of it once. -/
theorem listing_registry (h : StoreInv C config text db) {ms : List Mapping} (hd : decodeRows C db.listed = .ok ms) :
    (ms.map Mapping.untimed).Nodup ∧ ∀ x, x ∈ ms.map Mapping.untimed ↔ ∃ id, db.registry C id = some x := by
  have hperm : db.listed.Perm db.mappings.rows := List.perm_insertionSort Row.Before db.mappings.rows
  have hstored : ∀ row ∈ db.listed, ∃ m, Encodes C row m := by
    intro row hrow
    obtain ⟨m, he, -⟩ := h.table.stored row (hperm.mem_iff.1 hrow)
    exact ⟨m, he⟩
  constructor
  · have hids : ((ms.map Mapping.untimed).map fun m => m.id.val).Nodup := by
      rw [List.map_map]
      have hkeys : ms.map ((fun m => m.id.val) ∘ Mapping.untimed) = db.listed.map Row.id := ids_decoded hd hstored
      rw [hkeys]
      exact (hperm.map Row.id).nodup_iff.2 db.mappings.nodup
    exact hids.of_map _
  · intro x
    obtain ⟨hfrom, hto⟩ := mem_decoded hd
    simp only [db_registry_iff h]
    constructor
    · intro hx
      obtain ⟨m, hm, rfl⟩ := List.mem_map.1 hx
      obtain ⟨row, hrow, hdec⟩ := hfrom m hm
      obtain ⟨m', he⟩ := hstored row hrow
      cases he.decoded.symm.trans hdec
      exact ⟨m.id, row, hperm.mem_iff.1 hrow, m, he, rfl, rfl⟩
    · rintro ⟨id, row, hrow, m, he, -, rfl⟩
      obtain ⟨m', hm', hdec⟩ := hto row (hperm.mem_iff.2 hrow)
      cases he.decoded.symm.trans hdec
      exact List.mem_map_of_mem hm'

theorem memory_listing (h : store.Keyed) : (store.listMappings.map Mapping.untimed).Nodup ∧
    ∀ x, x ∈ store.listMappings.map Mapping.untimed ↔ ∃ id, store.registry id = some x := by
  constructor
  · have hids : ((store.listMappings.map Mapping.untimed).map (·.id)).Nodup := by
      rw [List.map_map]
      exact List.pairwise_map.2 h
    exact hids.of_map _
  · intro x
    simp only [registry_iff h]
    constructor
    · intro hx
      obtain ⟨m, hm, rfl⟩ := List.mem_map.1 hx
      exact ⟨m.id, m, hm, rfl, rfl⟩
    · rintro ⟨id, m, hm, -, rfl⟩
      exact List.mem_map_of_mem hm

/-- **The SQLite store is the store in memory behind a guard.** Give both one config and make the calls that the SQLite
store takes on both, failing ones between them on it alone. Then they list the same mappings, up to order and the
times of writing; and the SQLite store takes the next call exactly where the store in memory takes it, the list that it
leaves is one that `validate_mappings` accepts, and the times of its row can be written. -/
theorem stores_agree (h : Paired C config db store) :
    (∀ tr db' x, (listMappings C).Run (workingStore (Formats C)) db tr db' x →
      ∃ ms, x = .ok ms ∧ (ms.map Mapping.untimed).Perm (store.listMappings.map Mapping.untimed)) ∧
      ∀ (call : SharedCall) (now : OffsetDateTime) tr db' y,
        (call.onSqlite.prog C).Run (workingStore (Formats C)) db tr db' y →
          (y = .ok () ↔ ((call.inMemory now).run store).1 = .ok () ∧ ((call.inMemory now).run store).2.Coherent ∧
            call.Writable C) := by
  obtain ⟨text, hin⟩ := paired_inStep h
  refine ⟨fun tr db' x hr => ?_, fun call now tr db' y hr => hin.returns_iff hr now⟩
  obtain ⟨-, -, hx⟩ := listMappings_exec.1 (Prog.run_mono exec_of_workingStore hr)
  obtain ⟨ms, hd, -⟩ := listing_valid hin.sqlite
  obtain ⟨hnodup, hmem⟩ := listing_registry hin.sqlite hd
  obtain ⟨hnodup', hmem'⟩ := memory_listing hin.keyed
  refine ⟨ms, hx.trans hd, (List.perm_ext_iff_of_nodup hnodup hnodup').2 fun x => ?_⟩
  rw [hmem, hmem', hin.registry]

/-! ### A service and a mapping on one edge address -/

theorem sampleHandler_working (db : Db) (o : StoreSig.Op) :
    workingStore (Formats sampleCodec) db o (sampleHandler db o).1 (sampleHandler db o).2 := by
  cases o with
  | sql s => rfl
  | now => exact ⟨⟨_, rfl⟩, rfl⟩

/-- The SQLite store after a call. -/
def madeOn (db : Db) (call : SharedCall) : Except EdgeCoreError Unit × Db :=
  (((call.onSqlite.prog sampleCodec).eval sampleHandler db).2.2,
    ((call.onSqlite.prog sampleCodec).eval sampleHandler db).2.1)

theorem Paired.made {call : SharedCall} (h : Paired sampleCodec sampleConfig db store)
    (hok : (madeOn db call).1 = .ok ()) :
    Paired sampleCodec sampleConfig (madeOn db call).2 ((call.inMemory sampleTime).run store).2 := by
  have hrun := eval_run sampleHandler_working (call.onSqlite.prog sampleCodec) db
  have hx : ((call.onSqlite.prog sampleCodec).eval sampleHandler db).2.2 = .ok () := hok
  rw [hx] at hrun
  exact .accepted sampleTime h hrun

/-- The SQLite store with the config alone. -/
@[irreducible] def configDb : Db := ((setEdgeConfig sampleCodec sampleConfig).eval sampleHandler Db.fresh).2.1

theorem configDb_paired :
    Paired sampleCodec sampleConfig configDb ((MemoryCall.setEdgeConfig sampleConfig).run new).2 := by
  have hset := eval_run sampleHandler_working (setEdgeConfig sampleCodec sampleConfig) Db.fresh
  have hok : ((setEdgeConfig sampleCodec sampleConfig).eval sampleHandler Db.fresh).2.2 = .ok () := by decide +kernel
  rw [hok] at hset
  unfold configDb
  exact .start hset

/-- A one-to-one mapping and a disabled service on its edge address. -/
@[irreducible] def bothDb : Db := (madeOn (madeOn configDb (.insert sampleMapping)).2 (.insert offService)).2

/-- The same in memory. -/
@[irreducible] def bothMemory : InMemoryStateStore := new.after storeBoth

theorem bothDb_paired : Paired sampleCodec sampleConfig bothDb bothMemory := by
  have hfirst : (madeOn configDb (.insert sampleMapping)).1 = .ok () := by decide +kernel
  have hsecond : (madeOn (madeOn configDb (.insert sampleMapping)).2 (.insert offService)).1 = .ok () := by
    decide +kernel
  have hpaired := (configDb_paired.made hfirst).made hsecond
  unfold bothDb bothMemory
  exact hpaired

/-- Enabling the service is where the guard tells: the store in memory does it, the SQLite store does not. -/
theorem stores_agree_guarded :
    ((MemoryCall.setEnabled sampleTime offService.id true).run bothMemory).1 = .ok () ∧
      ∀ y, (∃ tr db', ((StoreCall.setEnabled offService.id true).prog sampleCodec).Run
        (workingStore (Formats sampleCodec)) bothDb tr db' y) → y ≠ .ok () := by
  have hstored : ∃ m ∈ bothMemory.mappings, m.id = offService.id ∧ ∃ m' ∈ bothMemory.mappings,
      m'.id ≠ offService.id ∧ conflicts { m with enabled := true } m' = true := by
    decide +kernel
  have hmemory : ((MemoryCall.setEnabled sampleTime offService.id true).run bothMemory).1 = .ok () := by
    decide +kernel
  refine ⟨hmemory, ?_⟩
  rintro y ⟨tr, db', hr⟩ hy
  obtain ⟨text, hin⟩ := paired_inStep bothDb_paired
  obtain ⟨-, hcoherent, -⟩ :=
    ((stores_agree bothDb_paired).2 (.setEnabled offService.id true) sampleTime tr db' y hr).1 hy
  have hsafe := (coherent_iff_safe (valid_of_keyed hin.keyed hin.coherent)).1 hcoherent
  obtain ⟨m, hm, hid, m', hm', hid', hconf⟩ := hstored
  rw [hsafe m hm hid m' hm' hid'] at hconf
  cases hconf

end EdgeRoute
