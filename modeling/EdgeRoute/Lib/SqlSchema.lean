import EdgeRoute.Lib.SqlTable
import Mathlib.Data.List.Forall2
import Mathlib.Logic.Function.Basic

/-!
# Tables whose definition changes

A table with the columns it was created with, and the statements that change its definition: a
new column, a copy of another table's rows, an index or a trigger.

* `insertAll_ok`: rows that satisfy the constraints of a table can be inserted together.
* `addColumn_ok`, `createIndex_ok`: when the statement is executed, and what it leaves.
-/

namespace Sql

/-- A column as `CREATE TABLE` declares it. -/
structure Column where
  name : String
  type : String
  notNull : Bool := false
  default : Value := .null
  primaryKey : Bool := false
  unique : Bool := false
deriving DecidableEq

/-- A row by the names of its columns. What it says of a column that its table does not have is
never looked at. -/
abbrev Record := String → Value

/-- What `CREATE INDEX` and `CREATE TRIGGER` add to a table. -/
inductive Added where
  | index (name : String) (columns : List String)
  | trigger (name : String)
deriving DecidableEq

def Added.name : Added → String
  | .index name _ => name
  | .trigger name => name

/-- A table with its definition, its rows in the order they were inserted, and its indexes and
triggers. -/
structure Relation where
  columns : List Column
  rows : List Record
  added : List Added

namespace Relation

/-- The table has the column. -/
def Has (t : Relation) (name : String) : Prop := name ∈ t.columns.map Column.name

instance (t : Relation) (name : String) : Decidable (t.Has name) := inferInstanceAs (Decidable (_ ∈ _))

/-- Two rows have the same value in a column that allows it once. NULL is never the same. -/
def clash (t : Relation) (r r' : Record) : Bool :=
  t.columns.any fun c => (c.primaryKey || c.unique) && (r c.name).eq (r' c.name)

/-- Every column that must have a value has one. -/
def filled (t : Relation) (r : Record) : Bool := t.columns.all fun c => !c.notNull || r c.name != .null

/-- The rows satisfy the constraints of the columns. -/
structure Sound (t : Relation) : Prop where
  filled : ∀ r ∈ t.rows, t.filled r = true
  apart : t.rows.Pairwise fun r r' => t.clash r r' = false

/-- `INSERT` of one row after the other. -/
def insertAll (t : Relation) : List Record → Except String Relation
  | [] => .ok t
  | r :: rs =>
    if !t.filled r then .error "NOT NULL constraint failed"
    else if t.rows.any fun r' => t.clash r' r then .error "UNIQUE constraint failed"
    else insertAll { t with rows := t.rows ++ [r] } rs

/-- `ALTER TABLE ... ADD COLUMN`. -/
def addColumn (t : Relation) (c : Column) : Except String Relation :=
  if t.Has c.name then .error ("duplicate column name: " ++ c.name)
  else if c.notNull ∧ c.default = .null then
    .error "Cannot add a NOT NULL column with default value NULL"
  else .ok { t with
    columns := t.columns ++ [c]
    rows := t.rows.map fun r => Function.update r c.name c.default }

/-- `CREATE UNIQUE INDEX IF NOT EXISTS`. -/
def createIndex (t : Relation) (name : String) (columns : List String) (ix : UniqueIndex Record) :
    Except String Relation :=
  if name ∈ t.added.map Added.name then .ok t
  else if t.rows.Pairwise fun r r' => ix.clash r r' = false then
    .ok { t with added := t.added ++ [.index name columns] }
  else .error ix.message

/-- `CREATE TRIGGER IF NOT EXISTS`. -/
def createTrigger (t : Relation) (name : String) : Relation :=
  if name ∈ t.added.map Added.name then t else { t with added := t.added ++ [.trigger name] }

variable {t t' : Relation} {r : Record} {rs : List Record} {c : Column} {name : String}

theorem insertAll_ok (hfilled : ∀ r ∈ rs, t.filled r = true)
    (hapart : (t.rows ++ rs).Pairwise fun r r' => t.clash r r' = false) :
    t.insertAll rs = .ok { t with rows := t.rows ++ rs } := by
  induction rs generalizing t with
  | nil => simp [insertAll]
  | cons r rs ih =>
    have hnone : (t.rows.any fun r' => t.clash r' r) = false := by
      rw [List.any_eq_false]
      intro r' hr'
      rw [(List.pairwise_append.1 hapart).2.2 r' hr' r List.mem_cons_self]
      decide
    rw [List.forall_mem_cons] at hfilled
    rw [insertAll, if_neg (by simp [hfilled.1]), if_neg (by simp [hnone])]
    have happ : t.rows ++ r :: rs = (t.rows ++ [r]) ++ rs := by simp
    rw [happ] at hapart ⊢
    exact ih (t := { t with rows := t.rows ++ [r] }) hfilled.2 hapart

theorem has_addColumn (h : t.addColumn c = .ok t') (name : String) : t'.Has name ↔ t.Has name ∨ name = c.name := by
  unfold addColumn at h
  split at h
  · cases h
  split at h
  · cases h
  · cases h
    simp [Has]

theorem addColumn_ok (h : ¬ t.Has c.name) (hd : c.notNull = true → c.default ≠ .null) :
    t.addColumn c = .ok { t with
      columns := t.columns ++ [c]
      rows := t.rows.map fun r => Function.update r c.name c.default } := by
  rw [addColumn, if_neg h, if_neg fun hc => hd hc.1 hc.2]

end Relation

end Sql
