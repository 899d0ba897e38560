import EdgeRoute.Lib.Prog
import EdgeRoute.Lib.SqlSchema
import EdgeRoute.Spec.Mapping

/-!
# Migration of the database

`SqliteStore::migrate` of `edge-store/src/lib.rs` and `SQLITE_SCHEMA` of `edge-core/src/state.rs`,
as far as they go for the table `mappings`: the other three tables are created once and never
changed.
-/

namespace EdgeRoute

open Effect Sql

/-! ## `SQLITE_SCHEMA` and `MAPPING_CONSTRAINTS` -/

/-- The columns of `mappings`. -/
def schemaColumns : List Column :=
  [{ name := "id", type := "TEXT", primaryKey := true },
   { name := "name", type := "TEXT", notNull := true },
   { name := "public_ip", type := "TEXT" },
   { name := "oci_public_ip_ocid", type := "TEXT" },
   { name := "edge_private_ip", type := "TEXT", notNull := true },
   { name := "oci_private_ip_ocid", type := "TEXT" },
   { name := "target_ip", type := "TEXT", notNull := true },
   { name := "public_port", type := "INTEGER" },
   { name := "target_port", type := "INTEGER" },
   { name := "protocol", type := "TEXT", notNull := true, default := .text "all" },
   { name := "mode", type := "TEXT", notNull := true, default := .text "one_to_one_snat" },
   { name := "backend", type := "TEXT", notNull := true, default := .text "nft" },
   { name := "enabled", type := "INTEGER", notNull := true, default := .int 1 },
   { name := "status", type := "TEXT", notNull := true, default := .text "pending" },
   { name := "last_error", type := "TEXT" },
   { name := "health_status", type := "TEXT" },
   { name := "last_checked_at", type := "TEXT" },
   { name := "created_at", type := "TEXT", notNull := true },
   { name := "updated_at", type := "TEXT", notNull := true }]

/-- `WHERE enabled = 1 AND mode = ?`. -/
def enabledIn (mode : String) (r : Record) : Bool := (r "enabled").eq (.int 1) && (r "mode").eq (.text mode)

/-- One statement of `MAPPING_CONSTRAINTS`. -/
inductive MappingConstraint where
  | index (name : String) (columns : List String) (covers : Record → Bool)
  | trigger (name : String)

def MappingConstraint.name : MappingConstraint → String
  | .index name _ _ => name
  | .trigger name => name

/-- The index over the named columns. -/
def columnsIndex (columns : List String) (covers : Record → Bool) : UniqueIndex Record where
  message := "UNIQUE constraint failed: " ++ ", ".intercalate (columns.map ("mappings." ++ ·))
  columns r := columns.map r
  covers := covers

def mappingConstraints : List MappingConstraint :=
  [.index "mappings_one_to_one_edge_private_ip_enabled_idx" ["edge_private_ip"] (enabledIn "one_to_one_snat"),
   .index "mappings_one_to_one_public_ip_enabled_idx" ["public_ip"]
     (fun r => enabledIn "one_to_one_snat" r && r "public_ip" != .null),
   .index "mappings_one_to_one_target_ip_enabled_idx" ["target_ip"] (enabledIn "one_to_one_snat"),
   .index "mappings_port_forward_tuple_enabled_idx" ["edge_private_ip", "protocol", "public_port"]
     (enabledIn "port_forward_snat"),
   .trigger "mappings_reject_conflict_insert",
   .trigger "mappings_reject_conflict_update"]

/-! ## Statements -/

/-- The tables by their name. -/
abbrev Tables := String → Option Relation

/-- An expression of a `SELECT` list. -/
inductive SelectExpr where
  | column (name : String)
  | value (v : Value)
deriving DecidableEq

def SelectExpr.eval (r : Record) : SelectExpr → Value
  | .column name => r name
  | .value v => v

/-- The column list of the copy, each with the expression its value comes from. -/
def copyList : List (String × SelectExpr) :=
  [("id", .column "id"), ("name", .column "name"), ("public_ip", .column "public_ip"),
   ("oci_public_ip_ocid", .column "oci_public_ip_ocid"), ("edge_private_ip", .column "edge_private_ip"),
   ("oci_private_ip_ocid", .column "oci_private_ip_ocid"), ("target_ip", .column "target_ip"),
   ("public_port", .value .null), ("target_port", .column "target_port"), ("protocol", .column "protocol"),
   ("mode", .column "mode"), ("backend", .value (.text "nft")), ("enabled", .column "enabled"),
   ("status", .column "status"), ("last_error", .column "last_error"),
   ("health_status", .column "health_status"), ("last_checked_at", .column "last_checked_at"),
   ("created_at", .column "created_at"), ("updated_at", .column "updated_at")]

/-- A column that the `SELECT` list names and the table does not have. -/
def missingColumn (t : Relation) (list : List (String × SelectExpr)) : Option String :=
  list.findSome? fun
    | (_, .column name) => if t.Has name then none else some name
    | (_, .value _) => none

/-- The row that is inserted. All columns are in the list. -/
def copyRow (list : List (String × SelectExpr)) (r : Record) : Record := fun name =>
  ((list.lookup name).map (SelectExpr.eval r)).getD .null

/-- A statement that changes tables. -/
inductive SchemaStmt where
  | createTables
  | rename (old new : String)
  | copyMappings
  | drop (name : String)
  | addColumn (c : Column)
  | constrain (constraint : MappingConstraint)

def MappingConstraint.create (t : Relation) : MappingConstraint → Except String Relation
  | .index name columns covers => t.createIndex name columns (columnsIndex columns covers)
  | .trigger name => .ok (t.createTrigger name)

/-- Change one table that has to be there. -/
def Tables.alter (tables : Tables) (name : String) (f : Relation → Except String Relation) : Except String Tables :=
  match tables name with
  | none => .error ("no such table: " ++ name)
  | some t => (f t).map fun t' => Function.update tables name (some t')

/-- One statement, executed by SQLite. -/
def Tables.exec (tables : Tables) : SchemaStmt → Except String Tables
  | .createTables =>
    .ok (if (tables "mappings").isNone then
      Function.update tables "mappings" (some ⟨schemaColumns, [], []⟩) else tables)
  | .rename old new =>
    match tables old, tables new with
    | none, _ => .error ("no such table: " ++ old)
    | some _, some _ => .error ("there is already another table or index with this name: " ++ new)
    | some t, none => .ok (Function.update (Function.update tables new (some t)) old none)
  | .copyMappings =>
    match tables "mappings_old_unique" with
    | none => .error "no such table: mappings_old_unique"
    | some source =>
      match missingColumn source copyList with
      | some name => .error ("no such column: " ++ name)
      | none => tables.alter "mappings" fun t => t.insertAll (source.rows.map (copyRow copyList))
  | .drop name =>
    match tables name with
    | none => .error ("no such table: " ++ name)
    | some _ => .ok (Function.update tables name none)
  | .addColumn c => tables.alter "mappings" fun t => t.addColumn c
  | .constrain constraint => tables.alter "mappings" constraint.create

/-- The statements of a transaction, one after the other. -/
def Tables.execAll (tables : Tables) : List SchemaStmt → Except String Tables
  | [] => .ok tables
  | s :: rest => do
    let tables ← tables.exec s
    execAll tables rest

/-! ## Indexes -/

/-- A row of `PRAGMA index_list`. -/
structure IndexEntry where
  name : String
  unique : Bool
  origin : String
deriving DecidableEq

/-- The indexes that SQLite makes for the constraints of a table, with their columns. -/
def ownIndexes (table : String) (t : Relation) : List (IndexEntry × List String) :=
  ((t.columns.filter fun c => c.primaryKey || c.unique).zipIdx 1).map fun x =>
    (⟨"sqlite_autoindex_" ++ table ++ "_" ++ x.2.repr, true, if x.1.primaryKey then "pk" else "u"⟩, [x.1.name])

/-- The indexes that were created, with their columns. -/
def createdIndexes (t : Relation) : List (IndexEntry × List String) :=
  t.added.filterMap fun
    | .index name columns => some (⟨name, true, "c"⟩, columns)
    | .trigger _ => none

def indexesOf (table : String) (t : Relation) : List (IndexEntry × List String) :=
  ownIndexes table t ++ createdIndexes t

/-! ## `migrate` -/

inductive MigrationOp where
  | execute (s : SchemaStmt)
  | transaction (ss : List SchemaStmt)
  | selectTableSql
  | indexList
  | indexInfo (name : String)
  | tableInfo

/-- What an operation gives back. The text of `CREATE TABLE` is read as the columns it declares. -/
abbrev MigrationOp.Out : MigrationOp → Type
  | .execute _ => Unit
  | .transaction _ => Unit
  | .selectTableSql => Option (List Column)
  | .indexList => List IndexEntry
  | .indexInfo _ => List String
  | .tableInfo => List String

abbrev MigrationSig : Sig := ⟨MigrationOp, fun o => Except String o.Out⟩

/-- What a change answers, and the tables after it. -/
def Tables.after (tables : Tables) : Except String Tables → Except String Unit × Tables
  | .ok tables' => (.ok (), tables')
  | .error e => (.error e, tables)

/-- One operation, executed by SQLite. A transaction is committed as a whole or rolled back. -/
def Tables.answer (tables : Tables) : (o : MigrationOp) → Except String o.Out × Tables
  | .execute s => tables.after (tables.exec s)
  | .transaction ss => tables.after (tables.execAll ss)
  | .selectTableSql => (.ok ((tables "mappings").map Relation.columns), tables)
  | .indexList => (.ok ((((tables "mappings").map (indexesOf "mappings")).getD []).map Prod.fst), tables)
  | .indexInfo name =>
    (.ok (((((tables "mappings").map (indexesOf "mappings")).getD []).find? fun x => x.1.name = name).elim []
      Prod.snd), tables)
  | .tableInfo => (.ok ((((tables "mappings").map Relation.columns).getD []).map Column.name), tables)

/-- **The database file as an environment.** An operation is executed or, where operations may fail
for a reason of their own, fails and changes nothing. -/
def migrationEnv (mayFail : Prop) : Env MigrationSig Tables := fun tables o r tables' =>
  (r, tables') = tables.answer o ∨ (mayFail ∧ ∃ message, r = .error message ∧ tables' = tables)

abbrev MigrationProg (α : Type) := Prog MigrationSig EdgeCoreError α

/-- An operation, `.map_err(sql_error)?`. -/
def migrationOp (o : MigrationOp) : MigrationProg o.Out :=
  .call (S := MigrationSig) o fun r => .ofExcept (r.mapError .store)

def execute (s : SchemaStmt) : MigrationProg Unit := migrationOp (.execute s)

/-- The loop over `PRAGMA index_list`. -/
def anyLegacyIndex : List IndexEntry → MigrationProg Bool
  | [] => pure false
  | entry :: rest =>
    if entry.unique = false ∨ entry.origin = "c" then anyLegacyIndex rest
    else do
      let columns : List String ← migrationOp (.indexInfo entry.name)
      if columns = ["public_ip"] ∨ columns = ["edge_private_ip"] then pure true
      else anyLegacyIndex rest

/-- `has_legacy_mapping_unique_constraints`. The word UNIQUE stands in the text of the table where a
column is declared so, and nowhere else: no name of a column contains it. -/
def hasLegacyMappingUniqueConstraints : MigrationProg Bool := do
  match ← migrationOp .selectTableSql with
  | none => pure false
  | some columns =>
    if columns.any Column.unique then pure true
    else do
      let entries : List IndexEntry ← migrationOp .indexList
      anyLegacyIndex entries

def ensurePortForwardSchema : MigrationProg Unit := do
  let legacy ← hasLegacyMappingUniqueConstraints
  if !legacy then pure ()
  else migrationOp (.transaction [.rename "mappings" "mappings_old_unique", .createTables, .copyMappings,
    .drop "mappings_old_unique"])

def ensureColumn (c : Column) : MigrationProg Unit := do
  let names : List String ← migrationOp .tableInfo
  if c.name ∈ names then pure () else execute (.addColumn c)

def ensureMappingConstraints : List MappingConstraint → MigrationProg Unit
  | [] => pure ()
  | constraint :: rest => do
    execute (.constrain constraint)
    ensureMappingConstraints rest

/-- The columns that `migrate` adds, in its order. -/
def ensuredColumns : List Column :=
  [{ name := "public_port", type := "INTEGER" },
   { name := "backend", type := "TEXT", notNull := true, default := .text "nft" },
   { name := "health_status", type := "TEXT" },
   { name := "last_checked_at", type := "TEXT" }]

def ensureColumns : List Column → MigrationProg Unit
  | [] => pure ()
  | c :: rest => do
    ensureColumn c
    ensureColumns rest

def migrate : MigrationProg Unit := do
  execute .createTables
  ensurePortForwardSchema
  ensureColumns ensuredColumns
  ensureMappingConstraints mappingConstraints

end EdgeRoute
