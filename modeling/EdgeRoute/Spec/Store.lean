import EdgeRoute.Spec.Rows

/-!
# The SQLite store

`SqliteStore` of `edge-store/src/lib.rs`: the database, its SQL statements as atomic
operations, and each method as a program of such statements.
-/

namespace EdgeRoute

open Effect

inductive GenerationStatus where
  | rendered
  | validated
  | active
  | failed
deriving DecidableEq

def GenerationStatus.names : List (String × GenerationStatus) :=
  [("rendered", .rendered), ("validated", .validated), ("active", .active), ("failed", .failed)]

inductive EventLevel where
  | debug
  | info
  | warn
  | error
deriving DecidableEq

def EventLevel.names : List (String × EventLevel) :=
  [("debug", .debug), ("info", .info), ("warn", .warn), ("error", .error)]

structure Generation where
  id : ℤ
  status : GenerationStatus
  nftablesConfig : String
  createdAt : OffsetDateTime
  appliedAt : Option OffsetDateTime
  error : Option String
deriving DecidableEq

/-- A row of the `events` table as `record_event` returns it. -/
structure EventRecord where
  id : ℤ
  level : EventLevel
  message : String
  data : Option String
  createdAt : OffsetDateTime
deriving DecidableEq

structure GenerationRow where
  id : ℤ
  status : String
  nftablesConfig : String
  createdAt : String
  appliedAt : Option String
  error : Option String
deriving DecidableEq

structure EventRow where
  id : ℤ
  level : String
  message : String
  data : Option String
  createdAt : String
deriving DecidableEq

/-! ## The database -/

/-- The four tables. `config` is the row of `edge_config` with key `default`; the
counters are the AUTOINCREMENT sequences. -/
structure Db where
  mappings : Sql.Table mappingsSchema
  config : Option String
  generations : List GenerationRow
  events : List EventRow
  nextGeneration : ℤ
  nextEvent : ℤ

/-- A database after `migrate` on an empty file. -/
def Db.fresh : Db := ⟨.empty, none, [], [], 1, 1⟩

/-- The SQL statements of the store, with their bound values. -/
inductive Stmt where
  | selectConfig
  | upsertConfig (value : String)
  | selectMappings
  | selectMapping (id : String)
  | selectOthers (id : String)
  | insertMapping (row : Row)
  | updateMapping (row : Row)
  | updateEnabled (id : String) (enabled : Bool) (status updatedAt : String)
  | updateHealth (id status : String) (healthStatus lastError : Option String)
      (lastCheckedAt updatedAt : String)
  | deleteMapping (id : String)
  | insertGeneration (status nftablesConfig createdAt : String) (appliedAt error : Option String)
  | latestActive
  | selectGeneration (id : ℤ)
  | insertEvent (level message : String) (data : Option String) (createdAt : String)

/-- What a statement gives back. -/
abbrev Stmt.Out : Stmt → Type
  | .selectConfig => Option String
  | .upsertConfig _ => Unit
  | .selectMappings => List Row
  | .selectMapping _ => Option Row
  | .selectOthers _ => List Row
  | .insertMapping _ => Unit
  | .updateMapping _ => ℕ
  | .updateEnabled _ _ _ _ => ℕ
  | .updateHealth _ _ _ _ _ _ => ℕ
  | .deleteMapping _ => Unit
  | .insertGeneration _ _ _ _ _ => ℤ
  | .latestActive => Option GenerationRow
  | .selectGeneration _ => Option GenerationRow
  | .insertEvent _ _ _ _ => ℤ

/-- The row after the full UPDATE. -/
def Row.replaced (cols old : Row) : Row := { cols with id := old.id, createdAt := old.createdAt }

/-- The row after the enable UPDATE. -/
def Row.withEnabled (enabled : Bool) (status updatedAt : String) (old : Row) : Row :=
  { old with enabled := if enabled then 1 else 0, status, updatedAt }

/-- The row after the health UPDATE. -/
def Row.withHealth (status : String) (healthStatus lastError : Option String)
    (lastCheckedAt updatedAt : String) (old : Row) : Row :=
  { old with status, healthStatus, lastError, lastCheckedAt := some lastCheckedAt, updatedAt }

@[simp] theorem Row.replaced_id (cols old : Row) : (cols.replaced old).id = old.id := rfl

@[simp] theorem Row.withEnabled_id (enabled : Bool) (status updatedAt : String) (old : Row) :
    (old.withEnabled enabled status updatedAt).id = old.id := rfl

@[simp] theorem Row.withHealth_id (status : String) (healthStatus lastError : Option String)
    (lastCheckedAt updatedAt : String) (old : Row) :
    (old.withHealth status healthStatus lastError lastCheckedAt updatedAt).id = old.id := rfl

/-- An UPDATE of `mappings` by id, with the number of rows it changed. -/
def Db.updateMappings (db : Db) (id : String) (f : Row → Row) (hf : ∀ row, (f row).id = row.id)
    (guarded : Bool) : Except Sql.SqlError ℕ × Db :=
  match db.mappings.update id f hf guarded with
  | .ok (t, n) => (.ok n, { db with mappings := t })
  | .error e => (.error e, db)

/-- One statement, executed by SQLite. -/
def Db.exec (db : Db) : (s : Stmt) → Except Sql.SqlError s.Out × Db
  | .selectConfig => (.ok db.config, db)
  | .upsertConfig value => (.ok (), { db with config := some value })
  | .selectMappings => (.ok (db.mappings.rows.insertionSort Row.Before), db)
  | .selectMapping id => (.ok (db.mappings.find id), db)
  | .selectOthers id => (.ok (db.mappings.others id), db)
  | .insertMapping row =>
    match db.mappings.insert row with
    | .ok t => (.ok (), { db with mappings := t })
    | .error e => (.error e, db)
  | .updateMapping row => db.updateMappings row.id row.replaced row.replaced_id true
  | .updateEnabled id enabled status updatedAt =>
    db.updateMappings id (Row.withEnabled enabled status updatedAt)
      (Row.withEnabled_id enabled status updatedAt) true
  | .updateHealth id status healthStatus lastError lastCheckedAt updatedAt =>
    -- no column of a trigger or an index is in the SET list
    db.updateMappings id (Row.withHealth status healthStatus lastError lastCheckedAt updatedAt)
      (Row.withHealth_id status healthStatus lastError lastCheckedAt updatedAt) false
  | .deleteMapping id => (.ok (), { db with mappings := db.mappings.delete id })
  | .insertGeneration status nftablesConfig createdAt appliedAt error =>
    (.ok db.nextGeneration,
      { db with
        generations := db.generations ++
          [⟨db.nextGeneration, status, nftablesConfig, createdAt, appliedAt, error⟩]
        nextGeneration := db.nextGeneration + 1 })
  | .latestActive => (.ok (db.generations.filter fun g => g.status = "active").getLast?, db)
  | .selectGeneration id => (.ok (db.generations.find? fun g => g.id = id), db)
  | .insertEvent level message data createdAt =>
    (.ok db.nextEvent,
      { db with
        events := db.events ++ [⟨db.nextEvent, level, message, data, createdAt⟩]
        nextEvent := db.nextEvent + 1 })

section Exec

variable (db : Db)

@[simp] theorem Db.exec_insertMapping (row : Row) : db.exec (.insertMapping row) =
    match db.mappings.insert row with
    | .ok t => (.ok (), { db with mappings := t })
    | .error e => (.error e, db) := rfl

@[simp] theorem Db.exec_updateMapping (row : Row) : db.exec (.updateMapping row) =
    db.updateMappings row.id row.replaced row.replaced_id true := rfl

@[simp] theorem Db.exec_updateEnabled (id : String) (enabled : Bool) (status updatedAt : String) :
    db.exec (.updateEnabled id enabled status updatedAt) =
      db.updateMappings id (Row.withEnabled enabled status updatedAt)
        (Row.withEnabled_id enabled status updatedAt) true := rfl

@[simp] theorem Db.exec_updateHealth (id status : String) (healthStatus lastError : Option String)
    (lastCheckedAt updatedAt : String) :
    db.exec (.updateHealth id status healthStatus lastError lastCheckedAt updatedAt) =
      db.updateMappings id (Row.withHealth status healthStatus lastError lastCheckedAt updatedAt)
        (Row.withHealth_id status healthStatus lastError lastCheckedAt updatedAt) false := rfl

end Exec

/-! ## Store programs -/

/-- What a store method asks for: a statement, or the clock. -/
inductive StoreOp where
  | sql (s : Stmt)
  | now

abbrev StoreOp.Reply : StoreOp → Type
  | .sql s => Except Sql.SqlError s.Out
  | .now => OffsetDateTime

abbrev StoreSig : Sig := ⟨StoreOp, StoreOp.Reply⟩

/-- **The database as an environment.** A statement is executed, or fails for a reason
of its own (a lock, the disk) and changes nothing; the clock shows any time. -/
def storeEnv : Env StoreSig Db := fun db o r db' =>
  match o, r with
  | .sql s, r => (r, db') = db.exec s ∨ (∃ message, r = .error (.unavailable message) ∧ db' = db)
  | .now, _ => db' = db

/-- The database where every statement is executed. -/
def execEnv : Env StoreSig Db := fun db o r db' =>
  match o, r with
  | .sql s, r => (r, db') = db.exec s
  | .now, _ => db' = db

abbrev StoreProg (α : Type) := Prog StoreSig EdgeCoreError α

/-- `sql_error`. The words sqlx puts around the message of SQLite are left out. -/
def sqlError (e : Sql.SqlError) : EdgeCoreError := .store e.message

/-- Execute one statement, `.map_err(sql_error)?`. -/
def sql (s : Stmt) : StoreProg s.Out :=
  .call (S := StoreSig) (.sql s) fun r => .ofExcept (r.mapError sqlError)

/-- `OffsetDateTime::now_utc()`. -/
def nowUtc : StoreProg OffsetDateTime := .op (S := StoreSig) .now

section Methods

variable (C : Codec)

def setEdgeConfig (config : EdgeConfig) : StoreProg Unit := do
  .ofExcept (validateEdgeConfig config)
  let value ← .ofExcept ((C.configToJson config).mapError fun e =>
    EdgeCoreError.store ("encode edge config: " ++ e))
  sql (.upsertConfig value)

def edgeConfig : StoreProg (Option EdgeConfig) := do
  let row ← sql .selectConfig
  .ofExcept (transposeMap (fun value => (C.configFromJson value).mapError fun e =>
    EdgeCoreError.store ("decode edge config: " ++ e)) row)

def ensureEdgeConfig (config : EdgeConfig) : StoreProg EdgeConfig := do
  match ← edgeConfig C with
  | some existing => pure existing
  | none =>
    setEdgeConfig C config
    pure config

def resolveEdgeConfig (config : EdgeConfig) (authoritative : Bool) : StoreProg EdgeConfig :=
  if authoritative then do
    setEdgeConfig C config
    pure config
  else ensureEdgeConfig C config

/-- The config that `insert_mapping` and `update_mapping` start from. -/
def requireEdgeConfig : StoreProg EdgeConfig := do
  match ← edgeConfig C with
  | some config => pure config
  | none => .fail (.store "edge config must be set before mappings")

/-- The public-address test of `reject_duplicates`. -/
def checkDuplicatePublicIp (mapping existing : Mapping) : Except EdgeCoreError Unit :=
  match mapping.publicIp with
  | some publicIp =>
    rejectIf (existing.publicIp == some publicIp &&
      (existing.mode == .oneToOneSnat || mapping.mode == .oneToOneSnat)) (.duplicatePublicIp publicIp)
  | none => .ok ()

/-- One round of the loop of `reject_duplicates`. -/
def checkDuplicate (mapping existing : Mapping) : Except EdgeCoreError Unit := do
  checkDuplicatePublicIp mapping existing
  if existing.mode = .oneToOneSnat ∧ mapping.mode = .oneToOneSnat ∧
      existing.targetIp = mapping.targetIp then
    .error (.duplicateTargetIp mapping.targetIp)
  else rejectIf (conflicts existing mapping) (.duplicateEdgePrivateIp mapping.edgePrivateIp)

/-- The loop of `reject_duplicates`. -/
def checkDuplicates (mapping : Mapping) : List Row → Except EdgeCoreError Unit
  | [] => .ok ()
  | row :: rows => do
    let existing ← C.rowToMapping row
    checkDuplicate mapping existing
    checkDuplicates mapping rows

def rejectDuplicates (mapping : Mapping) : StoreProg Unit := do
  let rows ← sql (.selectOthers mapping.id.val)
  .ofExcept (checkDuplicates C mapping rows)

def insertMapping (mapping : Mapping) : StoreProg Unit := do
  let config ← requireEdgeConfig C
  .ofExcept (validateMapping mapping config)
  rejectDuplicates C mapping
  let row ← .ofExcept (C.insertRow mapping)
  sql (.insertMapping row)

def getMapping (id : MappingId) : StoreProg Mapping := do
  match ← sql (.selectMapping id.val) with
  | some row => .ofExcept (C.rowToMapping row)
  | none => .fail (.notFound id)

/-- The rows of a listing, decoded in order. -/
def decodeRows : List Row → Except EdgeCoreError (List Mapping)
  | [] => .ok []
  | row :: rows => do
    let mapping ← C.rowToMapping row
    let mappings ← decodeRows rows
    .ok (mapping :: mappings)

def listMappings : StoreProg (List Mapping) := do
  let rows ← sql .selectMappings
  .ofExcept (decodeRows C rows)

def deleteMapping (id : MappingId) : StoreProg Mapping := do
  let mapping ← getMapping C id
  sql (.deleteMapping id.val)
  pure mapping

def updateMapping (mapping : Mapping) : StoreProg Unit := do
  let config ← requireEdgeConfig C
  .ofExcept (validateMapping mapping config)
  rejectDuplicates C mapping
  let row ← .ofExcept (C.updateRow mapping)
  let rowsAffected : ℕ ← sql (.updateMapping row)
  if rowsAffected = 0 then .fail (.notFound mapping.id) else pure ()

def setMappingEnabled (id : MappingId) (enabled : Bool) : StoreProg Mapping := do
  let status ← .ofExcept (enumString MappingStatus.names (if enabled then .pending else .disabled))
  let now ← nowUtc
  let updatedAt ← .ofExcept (C.formatTime now)
  let _ ← sql (.updateEnabled id.val enabled status updatedAt)
  getMapping C id

def setMappingHealth (id : MappingId) (status : MappingStatus) (healthStatus lastError : Option String) :
    StoreProg Mapping := do
  let status ← .ofExcept (enumString MappingStatus.names status)
  let checked ← nowUtc
  let lastCheckedAt ← .ofExcept (C.formatTime checked)
  let now ← nowUtc
  let updatedAt ← .ofExcept (C.formatTime now)
  let _ ← sql (.updateHealth id.val status healthStatus lastError lastCheckedAt updatedAt)
  getMapping C id

def recordGeneration (status : GenerationStatus) (nftablesConfig : String)
    (appliedAt : Option OffsetDateTime) (error : Option String) : StoreProg Generation := do
  if Text.trim nftablesConfig = "" then
    .fail (.validation "generation nftables_config cannot be empty")
  else
    let createdAt ← nowUtc
    let statusText ← .ofExcept (enumString GenerationStatus.names status)
    let createdText ← .ofExcept (C.formatTime createdAt)
    let appliedText ← .ofExcept (transposeMap C.formatTime appliedAt)
    let id ← sql (.insertGeneration statusText nftablesConfig createdText appliedText error)
    pure { id, status, nftablesConfig, createdAt, appliedAt, error }

/-- `row_to_generation`. -/
def rowToGeneration (row : GenerationRow) : Except EdgeCoreError Generation := do
  let status ← enumFromString GenerationStatus.names row.status
  let createdAt ← C.parseTime row.createdAt
  let appliedAt ← transposeMap C.parseTime row.appliedAt
  .ok { id := row.id, status, nftablesConfig := row.nftablesConfig, createdAt, appliedAt,
        error := row.error }

def latestActiveGeneration : StoreProg (Option Generation) := do
  let row ← sql .latestActive
  .ofExcept (transposeMap (rowToGeneration C) row)

def getGeneration (id : ℤ) : StoreProg Generation := do
  match ← sql (.selectGeneration id) with
  | some row => .ofExcept (rowToGeneration C row)
  | none => .fail (.store ("generation not found: " ++ id.repr))

def recordEvent (level : EventLevel) (message : String) (data : Option String) :
    StoreProg EventRecord := do
  if Text.trim message = "" then .fail (.validation "event message cannot be empty")
  else
    let createdAt ← nowUtc
    let levelText ← .ofExcept (enumString EventLevel.names level)
    let createdText ← .ofExcept (C.formatTime createdAt)
    let id ← sql (.insertEvent levelText message data createdText)
    pure { id, level, message, data, createdAt }

/-- A client's call of one of the operations on mappings. -/
inductive StoreCall where
  | insert (mapping : Mapping)
  | update (mapping : Mapping)
  | setEnabled (id : MappingId) (enabled : Bool)
  | setHealth (id : MappingId) (status : MappingStatus) (healthStatus lastError : Option String)
  | delete (id : MappingId)

/-- The statements of the call. The mapping it may return is left out. -/
def StoreCall.prog : StoreCall → StoreProg Unit
  | .insert mapping => insertMapping C mapping
  | .update mapping => updateMapping C mapping
  | .setEnabled id enabled => do
    let _ ← setMappingEnabled C id enabled
    pure ()
  | .setHealth id status healthStatus lastError => do
    let _ ← setMappingHealth C id status healthStatus lastError
    pure ()
  | .delete id => do
    let _ ← deleteMapping C id
    pure ()

end Methods

end EdgeRoute
