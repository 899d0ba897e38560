import EdgeRoute.Spec.Store
import Mathlib.Data.List.Sort

/-!
# The store in memory

`InMemoryStateStore` of `edge-core/src/state.rs`: its config and its mappings. `setEdgeConfig` takes the
store and returns it changed, or an error. The methods as they are called (`MemoryM`) hold the store
through `&mut self`, so that what was written before an error stays written.
-/

namespace EdgeRoute

/-- The config, and the values of the map in the order of their ids. -/
structure InMemoryStateStore where
  edgeConfig : Option EdgeConfig
  mappings : List Mapping
deriving DecidableEq

namespace InMemoryStateStore

/-- `set_edge_config`: the config is checked, then every mapping under it. -/
def setEdgeConfig (store : InMemoryStateStore) (config : EdgeConfig) :
    Except EdgeCoreError InMemoryStateStore := do
  validateEdgeConfig config
  validateEach config store.mappings
  .ok { store with edgeConfig := some config }

/-- `InMemoryStateStore::new`. -/
def new : InMemoryStateStore := ⟨none, []⟩

/-! ## The map -/

def containsKey (store : InMemoryStateStore) (id : MappingId) : Bool := store.mappings.any (·.id == id)

def get? (store : InMemoryStateStore) (id : MappingId) : Option Mapping := store.mappings.find? (·.id == id)

/-- `BTreeMap::remove`. -/
def remove (store : InMemoryStateStore) (id : MappingId) : InMemoryStateStore :=
  { store with mappings := store.mappings.filter (·.id != id) }

/-- `BTreeMap::insert`: the value takes the place of one with its id. -/
def insert (store : InMemoryStateStore) (mapping : Mapping) : InMemoryStateStore :=
  { store with
    mappings := (store.remove mapping.id).mappings.orderedInsert (·.id.val ≤ ·.id.val) mapping }

/-- An assignment through `BTreeMap::get_mut`. -/
def modify (store : InMemoryStateStore) (id : MappingId) (f : Mapping → Mapping) : InMemoryStateStore :=
  { store with mappings := store.mappings.map fun mapping => if mapping.id = id then f mapping else mapping }

def listMappings (store : InMemoryStateStore) : List Mapping := store.mappings

/-! ## Validation before a write -/

/-- The loop of `validate_mapping_for_write`; its round is that of `reject_duplicates`. -/
def checkOthers (candidate : Mapping) : List Mapping → Except EdgeCoreError Unit
  | [] => .ok ()
  | existing :: rest => do
    if existing.id = candidate.id then checkOthers candidate rest
    else
      checkDuplicate candidate existing
      checkOthers candidate rest

def validateMappingForWrite (store : InMemoryStateStore) (candidate : Mapping) : Except EdgeCoreError Unit := do
  match store.edgeConfig with
  | none => .error (.store "edge config must be set before mappings")
  | some config =>
    validateMapping candidate config
    checkOthers candidate store.mappings

end InMemoryStateStore

/-! ## The methods -/

/-- A method on `&mut self`: the store is handed on after an error too. -/
abbrev MemoryM := ExceptT EdgeCoreError (StateM InMemoryStateStore)

namespace MemoryM

def setEdgeConfig (config : EdgeConfig) : MemoryM Unit := do
  let store ← get
  let store ← liftExcept (store.setEdgeConfig config)
  set store

def insertMapping (mapping : Mapping) : MemoryM Unit := do
  let store ← get
  if store.containsKey mapping.id then throw (.duplicateMappingId mapping.id)
  liftExcept (store.validateMappingForWrite mapping)
  set (store.insert mapping)

def updateMapping (now : OffsetDateTime) (mapping : Mapping) : MemoryM Unit := do
  let store ← get
  if !store.containsKey mapping.id then throw (.notFound mapping.id)
  let mapping := { mapping with updatedAt := now }
  liftExcept (store.validateMappingForWrite mapping)
  set (store.insert mapping)

/-- `delete_mapping`: the removal comes before the error of an id that is not there. -/
def deleteMapping (id : MappingId) : MemoryM Mapping := do
  let store ← get
  set (store.remove id)
  match store.get? id with
  | some mapping => pure mapping
  | none => throw (.notFound id)

def setMappingEnabled (now : OffsetDateTime) (id : MappingId) (enabled : Bool) : MemoryM Unit := do
  let store ← get
  if !store.containsKey id then throw (.notFound id)
  set (store.modify id fun mapping =>
    { mapping with enabled, status := if enabled then .pending else .disabled, updatedAt := now })

end MemoryM

end EdgeRoute
