import Mathlib.Data.List.Nodup
import Mathlib.Data.List.Pairwise
import Mathlib.Data.Int.Notation

/-!
# A table with a text primary key, partial unique indexes and BEFORE triggers

One SQL statement on one table, as SQLite executes it: the BEFORE trigger first,
then the unique indexes from the newest on, and last the index of the primary key; a
refused statement changes nothing.

* `insert_ok`, `update_ok`: what a statement that was not refused did, and what
  the triggers and indexes had to say about the new row.
* `apart_insert`, `apart_update`, `apart_delete`: a relation between any two rows
  is kept if it holds between the new row and the others.
-/

namespace Sql

/-- A column value. -/
inductive Value where
  | null
  | int (n : ℤ)
  | text (s : String)
deriving DecidableEq

/-- SQL `=` as a condition: it holds of nothing and NULL. -/
def Value.eq (a b : Value) : Bool := a ≠ .null && a == b

/-- A nullable text column. -/
def Value.ofText : Option String → Value
  | none => .null
  | some s => .text s

/-- A nullable integer column. -/
def Value.ofInt : Option ℤ → Value
  | none => .null
  | some n => .int n

/-- Why a statement failed. -/
inductive SqlError where
  | raised (message : String)
  | unique (message : String)
  | primaryKey (message : String)
  | unavailable (message : String)
deriving DecidableEq

def SqlError.message : SqlError → String
  | .raised m => m
  | .unique m => m
  | .primaryKey m => m
  | .unavailable m => m

/-- The statement was refused by a trigger or by a unique index. -/
def SqlError.isConstraint : SqlError → Bool
  | .raised _ => true
  | .unique _ => true
  | _ => false

variable {ρ : Type}

/-- `CREATE UNIQUE INDEX ... ON table(columns) WHERE covers`. -/
structure UniqueIndex (ρ : Type) where
  message : String
  columns : ρ → List Value
  covers : ρ → Bool

/-- Two rows have the same entry in the index. Rows with a NULL column never do. -/
def UniqueIndex.clash (ix : UniqueIndex ρ) (r r' : ρ) : Bool :=
  ix.covers r && ix.covers r' && ((ix.columns r).zip (ix.columns r')).all fun p => p.1.eq p.2

/-- A table definition. The triggers see the rows of the table and the new row,
and answer with the message they abort with. The newest index comes first. -/
structure Schema (ρ : Type) where
  key : ρ → String
  keyMessage : String
  indexes : List (UniqueIndex ρ)
  onInsert : List ρ → ρ → Option String
  onUpdate : List ρ → ρ → Option String

/-- The first unique index that refuses `new` beside `others`. -/
def Schema.refusal (Sc : Schema ρ) (others : List ρ) (new : ρ) : Option String :=
  (Sc.indexes.find? fun ix => others.any fun r => ix.clash new r).map (·.message)

/-- A table: no two rows have the same primary key. -/
structure Table (Sc : Schema ρ) where
  rows : List ρ
  nodup : (rows.map Sc.key).Nodup

namespace Table

variable {Sc : Schema ρ}

def empty : Table Sc := ⟨[], List.nodup_nil⟩

/-- The rows with another key. -/
def others (t : Table Sc) (k : String) : List ρ := t.rows.filter fun r => Sc.key r ≠ k

/-- `SELECT * FROM table WHERE key = ?`. -/
def find (t : Table Sc) (k : String) : Option ρ := t.rows.find? fun r => Sc.key r = k

/-- `INSERT`. -/
def insert (t : Table Sc) (new : ρ) : Except SqlError (Table Sc) :=
  match Sc.onInsert t.rows new with
  | some m => .error (.raised m)
  | none =>
    match Sc.refusal t.rows new with
    | some m => .error (.unique m)
    | none =>
      if h : Sc.key new ∈ t.rows.map Sc.key then .error (.primaryKey Sc.keyMessage)
      else .ok ⟨t.rows ++ [new], by
        rw [List.map_append, List.nodup_append_comm]
        exact List.nodup_cons.2 ⟨h, t.nodup⟩⟩

theorem map_set_key (t : Table Sc) (k : String) (f : ρ → ρ) (hf : ∀ r, Sc.key (f r) = Sc.key r) :
    (t.rows.map fun r => if Sc.key r = k then f r else r).map Sc.key = t.rows.map Sc.key := by
  rw [List.map_map]
  apply List.map_congr_left
  intro r _
  simp only [Function.comp_apply]
  split
  · exact hf r
  · rfl

/-- The table with `f` applied to the row of key `k`. -/
def set (t : Table Sc) (k : String) (f : ρ → ρ) (hf : ∀ r, Sc.key (f r) = Sc.key r) : Table Sc :=
  ⟨t.rows.map fun r => if Sc.key r = k then f r else r, by rw [t.map_set_key k f hf]; exact t.nodup⟩

/-- `UPDATE ... WHERE key = ?`, with the number of rows changed. A statement whose
SET list names a column of a trigger or an index is `guarded`. -/
def update (t : Table Sc) (k : String) (f : ρ → ρ) (hf : ∀ r, Sc.key (f r) = Sc.key r)
    (guarded : Bool) : Except SqlError (Table Sc × ℕ) :=
  match t.find k with
  | none => .ok (t, 0)
  | some old =>
    if guarded then
      match Sc.onUpdate t.rows (f old) with
      | some m => .error (.raised m)
      | none =>
        match Sc.refusal (t.others k) (f old) with
        | some m => .error (.unique m)
        | none => .ok (t.set k f hf, 1)
    else .ok (t.set k f hf, 1)

/-- `DELETE ... WHERE key = ?`. -/
def delete (t : Table Sc) (k : String) : Table Sc :=
  ⟨t.others k, (List.filter_sublist.map Sc.key).nodup t.nodup⟩

/-! ## What an accepted statement did -/

theorem mem_others {t : Table Sc} {k : String} {r : ρ} :
    r ∈ t.others k ↔ r ∈ t.rows ∧ Sc.key r ≠ k := by simp [others]

theorem find_some {t : Table Sc} {k : String} {r : ρ} (h : t.find k = some r) :
    r ∈ t.rows ∧ Sc.key r = k := by
  have := List.find?_some h
  exact ⟨List.mem_of_find?_eq_some h, by simpa using this⟩

theorem eq_of_key_eq {t : Table Sc} {r r' : ρ} (hr : r ∈ t.rows) (hr' : r' ∈ t.rows)
    (h : Sc.key r = Sc.key r') : r = r' :=
  List.inj_on_of_nodup_map t.nodup hr hr' h

/-- The row of a key is the one `find` gives. -/
theorem find_of_mem {t : Table Sc} {k : String} {r : ρ} (hr : r ∈ t.rows) (hk : Sc.key r = k) :
    t.find k = some r := by
  cases h : t.find k with
  | none =>
    have := List.find?_eq_none.1 h r hr
    simp [hk] at this
  | some r' =>
    obtain ⟨hm, hk'⟩ := find_some h
    rw [eq_of_key_eq hm hr (hk'.trans hk.symm)]

theorem refusal_none {others : List ρ} {new : ρ} :
    Sc.refusal others new = none ↔ ∀ ix ∈ Sc.indexes, ∀ r ∈ others, ix.clash new r = false := by
  simp [Schema.refusal]

/-- An accepted `INSERT`: the trigger let the row pass, its key is new, no index
entry is taken, and the row is added. -/
theorem insert_ok {t t' : Table Sc} {new : ρ} (h : t.insert new = .ok t') :
    Sc.onInsert t.rows new = none ∧ Sc.key new ∉ t.rows.map Sc.key ∧
      Sc.refusal t.rows new = none ∧ t'.rows = t.rows ++ [new] := by
  unfold insert at h
  split at h
  · cases h
  rename_i h1
  split at h
  · cases h
  rename_i h2
  split at h
  · cases h
  rename_i h3
  cases h
  exact ⟨h1, h3, h2, rfl⟩

/-- A row that nothing stands against is added. -/
theorem insert_of_free {t t' : Table Sc} {new : ρ} (h1 : Sc.onInsert t.rows new = none)
    (h2 : Sc.refusal t.rows new = none) (hk : Sc.key new ∉ t.rows.map Sc.key) (ht : t'.rows = t.rows ++ [new]) :
    t.insert new = .ok t' := by
  obtain ⟨rows, nodup⟩ := t'
  simp only at ht
  subst ht
  simp only [insert, h1, h2, dif_neg hk]

/-- An accepted `UPDATE`: no row has the key, or the row was replaced, past the
trigger and the indexes if the statement is guarded. -/
theorem update_ok {t t' : Table Sc} {k : String} {f : ρ → ρ} {hf : ∀ r, Sc.key (f r) = Sc.key r}
    {guarded : Bool} {n : ℕ} (h : t.update k f hf guarded = .ok (t', n)) :
    (t.find k = none ∧ t' = t ∧ n = 0) ∨
      ∃ old, t.find k = some old ∧ t' = t.set k f hf ∧ n = 1 ∧
        (guarded = true → Sc.onUpdate t.rows (f old) = none ∧
          Sc.refusal (t.others k) (f old) = none) := by
  unfold update at h
  split at h
  · rename_i h1
    cases h
    exact .inl ⟨h1, rfl, rfl⟩
  rename_i old h1
  refine .inr ⟨old, h1, ?_⟩
  split at h
  · split at h
    · cases h
    rename_i h2
    split at h
    · cases h
    rename_i h3
    cases h
    exact ⟨rfl, rfl, fun _ => ⟨h2, h3⟩⟩
  · rename_i hg
    cases h
    exact ⟨rfl, rfl, fun h' => absurd h' hg⟩

/-- An `INSERT` that a trigger or an index refused. -/
theorem insert_constraint (t : Table Sc) (new : ρ) :
    (∃ e, t.insert new = .error e ∧ e.isConstraint = true) ↔
      Sc.onInsert t.rows new ≠ none ∨ Sc.refusal t.rows new ≠ none := by
  unfold insert
  cases h1 : Sc.onInsert t.rows new with
  | some m => simp [SqlError.isConstraint]
  | none =>
    cases h2 : Sc.refusal t.rows new with
    | some m => simp [SqlError.isConstraint]
    | none =>
      by_cases h3 : Sc.key new ∈ t.rows.map Sc.key
      · simp only [dif_pos h3]
        simp [SqlError.isConstraint]
      · simp only [dif_neg h3]
        simp

/-- A guarded `UPDATE` of a row that is there, refused by a trigger or an index. -/
theorem update_constraint {t : Table Sc} {k : String} {f : ρ → ρ}
    (hf : ∀ r, Sc.key (f r) = Sc.key r) {old : ρ} (ho : t.find k = some old) :
    (∃ e, t.update k f hf true = .error e ∧ e.isConstraint = true) ↔
      Sc.onUpdate t.rows (f old) ≠ none ∨ Sc.refusal (t.others k) (f old) ≠ none := by
  unfold update
  cases h1 : Sc.onUpdate t.rows (f old) with
  | some m => simp [ho, h1, SqlError.isConstraint]
  | none =>
    cases h2 : Sc.refusal (t.others k) (f old) with
    | some m => simp [ho, h1, h2, SqlError.isConstraint]
    | none => simp [ho, h1, h2]

theorem mem_set {t : Table Sc} {k : String} {f : ρ → ρ} {hf : ∀ r, Sc.key (f r) = Sc.key r} {r : ρ} :
    r ∈ (t.set k f hf).rows ↔
      (r ∈ t.rows ∧ Sc.key r ≠ k) ∨ ∃ old, old ∈ t.rows ∧ Sc.key old = k ∧ r = f old := by
  simp only [set, List.mem_map]
  constructor
  · rintro ⟨r₀, h0, rfl⟩
    split
    · rename_i hk; exact .inr ⟨r₀, h0, hk, rfl⟩
    · rename_i hk; exact .inl ⟨h0, hk⟩
  · rintro (⟨hr, hk⟩ | ⟨old, ho, hk, rfl⟩)
    · exact ⟨r, hr, if_neg hk⟩
    · exact ⟨old, ho, if_pos hk⟩

/-- An `UPDATE` leaves the other rows as they are. -/
theorem others_set {t : Table Sc} {k : String} {f : ρ → ρ} {hf : ∀ r, Sc.key (f r) = Sc.key r} :
    (t.set k f hf).others k = t.others k := by
  change (t.rows.map fun r => if Sc.key r = k then f r else r).filter (fun r => Sc.key r ≠ k) =
    t.rows.filter fun r => Sc.key r ≠ k
  induction t.rows with
  | nil => rfl
  | cons r rows ih =>
    by_cases hk : Sc.key r = k
    · have hfk : Sc.key (f r) = k := (hf r).trans hk
      rw [List.map_cons, if_pos hk, List.filter_cons_of_neg (by simp [hfk]), List.filter_cons_of_neg (by simp [hk]), ih]
    · rw [List.map_cons, if_neg hk, List.filter_cons_of_pos (by simp [hk]), List.filter_cons_of_pos (by simp [hk]), ih]

theorem find_set {t : Table Sc} {k : String} {f : ρ → ρ} (hf : ∀ r, Sc.key (f r) = Sc.key r) {old : ρ}
    (h : t.find k = some old) : (t.set k f hf).find k = some (f old) := by
  obtain ⟨hold, hk⟩ := find_some h
  exact find_of_mem (mem_set.2 (.inr ⟨old, hold, hk, rfl⟩)) ((hf old).trans hk)

theorem others_delete {t : Table Sc} {k : String} : (t.delete k).others k = t.others k := by
  unfold others delete others
  rw [List.filter_filter]
  simp

theorem find_delete {t : Table Sc} {k : String} : (t.delete k).find k = none := by
  refine List.find?_eq_none.2 fun r hr => ?_
  simpa using (mem_others.1 hr).2

/-- A new row has no part in the rows of other keys. -/
theorem others_append {t t' : Table Sc} {new : ρ} (ht : t'.rows = t.rows ++ [new]) :
    t'.others (Sc.key new) = t.others (Sc.key new) := by
  unfold others
  rw [ht, List.filter_append, List.filter_singleton]
  simp

/-! ## Relations between any two rows -/

/-- `R` holds between any two rows with different keys. -/
def Apart (R : ρ → ρ → Prop) (t : Table Sc) : Prop :=
  ∀ r ∈ t.rows, ∀ r' ∈ t.rows, Sc.key r ≠ Sc.key r' → R r r'

variable {R : ρ → ρ → Prop}

theorem apart_empty : (empty : Table Sc).Apart R := fun _ h => absurd h (by simp [empty])

theorem apart_insert (hs : ∀ r r', R r r' → R r' r) {t t' : Table Sc} {new : ρ}
    (ht : t'.rows = t.rows ++ [new]) (h : t.Apart R) (hnew : ∀ r ∈ t.rows, R new r) :
    t'.Apart R := by
  intro r hr r' hr' hk
  rw [ht, List.mem_append, List.mem_singleton] at hr hr'
  rcases hr with hr | rfl
  · rcases hr' with hr' | rfl
    · exact h r hr r' hr' hk
    · exact hs _ _ (hnew r hr)
  · rcases hr' with hr' | rfl
    · exact hnew r' hr'
    · exact absurd rfl hk

theorem apart_update (hs : ∀ r r', R r r' → R r' r) {t : Table Sc} {k : String} {f : ρ → ρ}
    {hf : ∀ r, Sc.key (f r) = Sc.key r} (h : t.Apart R)
    (hnew : ∀ old ∈ t.rows, Sc.key old = k → ∀ r ∈ t.others k, R (f old) r) :
    (t.set k f hf).Apart R := by
  intro r hr r' hr' hk
  rcases mem_set.1 hr with ⟨hr, hrk⟩ | ⟨old, ho, hok, rfl⟩
  · rcases mem_set.1 hr' with ⟨hr', -⟩ | ⟨old, ho, hok, rfl⟩
    · exact h r hr r' hr' hk
    · exact hs _ _ (hnew old ho hok r (mem_others.2 ⟨hr, hrk⟩))
  · rcases mem_set.1 hr' with ⟨hr', hrk'⟩ | ⟨old', ho', hok', rfl⟩
    · exact hnew old ho hok r' (mem_others.2 ⟨hr', hrk'⟩)
    · rw [hf, hf, hok, hok'] at hk; exact absurd rfl hk

theorem apart_delete {t : Table Sc} {k : String} (h : t.Apart R) : (t.delete k).Apart R :=
  fun r hr r' hr' hk => h r (mem_others.1 hr).1 r' (mem_others.1 hr').1 hk

/-- Rows apart from each other are pairwise related in the list. -/
theorem Apart.pairwise {t : Table Sc} (h : t.Apart R) : t.rows.Pairwise R := by
  have hn := t.nodup
  rw [List.Nodup, List.pairwise_map] at hn
  exact hn.imp_of_mem fun hr hr' hk => h _ hr _ hr' hk

end Table

end Sql
