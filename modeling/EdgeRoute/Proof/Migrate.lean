import EdgeRoute.Spec.Migrate

/-!
# What a migration keeps

The table `mappings` of an older version is the table of today without some of the columns that
`migrate` adds, and perhaps with UNIQUE on two of its columns.

* `rest_sat`: adding columns and constraints keeps every value that is there.
* `copy_ok`: what the copy into a new table makes of the rows.
* `migrates_iff`: **a migration keeps the table exactly where it is not copied, or the copy loses nothing.**
-/

namespace EdgeRoute

open Effect Sql

variable {mayFail : Prop} {t t' b : Relation} {tables : Tables} {r : Record} {c : Column} {name : String} {α β : Type}

/-! ## Tables of older versions -/

/-- A file with the one table. -/
def fileOf (t : Relation) : Tables := Function.update (fun _ => none) "mappings" (some t)

/-- The row as it should be after a migration. -/
def expected (t : Relation) (r : Record) : Record := fun name =>
  if t.Has name then r name else if name = "backend" then .text "nft" else .null

/-- **A table of an older version**: the columns of today, in any order, without some of those that are added,
and perhaps with UNIQUE on the two addresses; its rows satisfy its own constraints. -/
structure Legacy (t : Relation) : Prop where
  known : ∀ c ∈ t.columns, { c with unique := false } ∈ schemaColumns
  required : ∀ c ∈ schemaColumns, c ∉ ensuredColumns → t.Has c.name
  unique : ∀ c ∈ t.columns, c.unique = true → c.name = "public_ip" ∨ c.name = "edge_private_ip"
  sound : t.Sound

/-- The rows satisfy the indexes of today. -/
def Constrained (t : Relation) : Prop :=
  ∀ name columns covers, .index name columns covers ∈ mappingConstraints →
    t.rows.Pairwise fun r r' => (columnsIndex columns covers).clash (expected t r) (expected t r') = false

/-- Every row is there with the values it had and, in the new columns, the defaults. -/
def Kept (t t' : Relation) : Prop :=
  (∀ c ∈ schemaColumns, t'.Has c.name) ∧
    List.Forall₂ (fun r r' => ∀ c ∈ schemaColumns, r' c.name = expected t r c.name) t.rows t'.rows

/-- Every row is there with the values it had. -/
def AsBefore (t t' : Relation) : Prop :=
  List.Forall₂ (fun r r' => ∀ name, t.Has name → r' name = r name) t.rows t'.rows

/-- **The migration of a table**: where every operation is executed it returns, keeps every row and changes
nothing a second time; and where it fails, the rows are as before. -/
structure MigratesWell (t : Relation) : Prop where
  keeps : ∀ tr tables x, migrate.Run (migrationEnv False) (fileOf t) tr tables x →
    x = .ok () ∧ (∃ t', tables = fileOf t' ∧ Kept t t') ∧
      ∀ tr' tables' x', migrate.Run (migrationEnv False) tables tr' tables' x' → x' = .ok () ∧ tables' = tables
  fails : ∀ tr tables e, migrate.Run (migrationEnv True) (fileOf t) tr tables (.error e) →
    ∃ t', tables = fileOf t' ∧ AsBefore t t'

/-- A column of the table is declared UNIQUE. -/
def HasUnique (t : Relation) : Prop := ∃ c ∈ t.columns, c.unique = true

/-- **The copy loses nothing**: the columns it names are there, and those it fills with constants have these values. -/
structure Copyable (t : Relation) : Prop where
  health : t.Has "health_status"
  checked : t.Has "last_checked_at"
  port : t.Has "public_port" → ∀ r ∈ t.rows, r "public_port" = .null
  backend : t.Has "backend" → ∀ r ∈ t.rows, r "backend" = .text "nft"

/-! ## Columns and constraints -/

@[simp] theorem fileOf_mappings : fileOf t "mappings" = some t := Function.update_self ..

@[simp] theorem update_fileOf : Function.update (fileOf t) "mappings" (some t') = fileOf t' := Function.update_idem ..

/-- No column is UNIQUE, and the id alone is the key. -/
def Plainly (t : Relation) : Prop := ∀ c ∈ t.columns, c.unique = false ∧ (c.primaryKey = true → c.name = "id")

/-- The tables between the steps: every column that is there has the value it should have. -/
structure Partway (b t : Relation) : Prop where
  has : ∀ name, b.Has name → t.Has name
  plain : Plainly t
  rows : ∃ g : Record → Record, t.rows = b.rows.map g ∧
    ∀ r ∈ b.rows, ∀ name, t.Has name → g r name = expected b r name

theorem Partway.refl (h : Plainly b) : Partway b b :=
  ⟨fun _ h => h, h, id, (List.map_id _).symm, fun _ _ _ hn => (if_pos hn).symm⟩

/-- What `migrate` puts into a new column, and its kind. -/
theorem ensured_default : ∀ c ∈ ensuredColumns, (c.default = if c.name = "backend" then .text "nft" else .null) ∧
    (c.notNull = true → c.default ≠ .null) ∧ c.unique = false ∧ c.primaryKey = false := by
  decide

/-- A new column has its default where the table did not have the column. -/
theorem Partway.addColumn (h : Partway b t) (hc : c ∈ ensuredColumns) (hnot : ¬ t.Has c.name) :
    ∃ t', t.addColumn c = .ok t' ∧ t'.added = t.added ∧ Partway b t' ∧
      ∀ name, t'.Has name ↔ t.Has name ∨ name = c.name := by
  obtain ⟨hdefault, hnull, hunique, hkey⟩ := ensured_default c hc
  have hadd := t.addColumn_ok hnot hnull
  refine ⟨_, hadd, rfl, ?_, t.has_addColumn hadd⟩
  obtain ⟨g, hrows, hg⟩ := h.rows
  refine ⟨fun name hn => (t.has_addColumn hadd name).2 (.inl (h.has name hn)), fun c' hc' => ?_,
    fun r => Function.update (g r) c.name c.default, ?_, fun r hr name hn => ?_⟩
  · rcases List.mem_append.1 hc' with hc' | hc'
    · exact h.plain c' hc'
    · rw [List.mem_singleton.1 hc', hunique, hkey]
      exact ⟨rfl, fun h => nomatch h⟩
  · rw [hrows, List.map_map]
    rfl
  · change Function.update (g r) c.name c.default name = expected b r name
    by_cases hname : name = c.name
    · subst hname
      rw [Function.update_self, hdefault, expected, if_neg fun hb => hnot (h.has _ hb)]
    · rw [Function.update_of_ne hname]
      exact hg r hr name (((t.has_addColumn hadd name).1 hn).resolve_right hname)

/-- An index or a trigger touches neither columns nor rows. -/
theorem Partway.with_added (h : Partway b t) (added : List Added) : Partway b { t with added } :=
  ⟨h.has, h.plain, h.rows⟩

/-- The columns that an index of today looks at. -/
def indexed : List String :=
  ["enabled", "mode", "edge_private_ip", "public_ip", "target_ip", "protocol", "public_port"]

theorem clash_columnsIndex {columns : List String} {covers : Record → Bool} {r r' : Record} :
    (columnsIndex columns covers).clash r r' =
      (covers r && covers r' && columns.all fun c => (r c).eq (r' c)) := by
  unfold UniqueIndex.clash columnsIndex
  rw [List.zip_map', List.all_map]
  rfl

/-- The columns that say whether an index covers a row. -/
def covering : List String := ["enabled", "mode", "public_ip"]

theorem enabledIn_congr {mode : String} {r r' : Record} (h : ∀ c ∈ covering, r' c = r c) :
    enabledIn mode r' = enabledIn mode r := by
  unfold enabledIn
  rw [h "enabled" (by decide), h "mode" (by decide)]

/-- What an index of today looks at. -/
theorem index_reads {columns : List String} {covers : Record → Bool}
    (hk : .index name columns covers ∈ mappingConstraints) :
    (∀ c ∈ columns, c ∈ indexed) ∧ ∀ r r' : Record, (∀ c ∈ covering, r' c = r c) → covers r' = covers r := by
  rcases List.mem_cons.1 hk with hk | hk
  · obtain ⟨-, rfl, rfl⟩ := MappingConstraint.index.inj hk
    exact ⟨by decide, fun r r' h => enabledIn_congr h⟩
  rcases List.mem_cons.1 hk with hk | hk
  · obtain ⟨-, rfl, rfl⟩ := MappingConstraint.index.inj hk
    refine ⟨by decide, fun r r' h => ?_⟩
    change (enabledIn _ r' && r' "public_ip" != .null) = (enabledIn _ r && r "public_ip" != .null)
    rw [enabledIn_congr h, h "public_ip" (by decide)]
  rcases List.mem_cons.1 hk with hk | hk
  · obtain ⟨-, rfl, rfl⟩ := MappingConstraint.index.inj hk
    exact ⟨by decide, fun r r' h => enabledIn_congr h⟩
  rcases List.mem_cons.1 hk with hk | hk
  · obtain ⟨-, rfl, rfl⟩ := MappingConstraint.index.inj hk
    exact ⟨by decide, fun r r' h => enabledIn_congr h⟩
  · simp at hk

theorem clash_congr {columns : List String} {covers : Record → Bool} {r₁ r₂ r₁' r₂' : Record}
    (hk : .index name columns covers ∈ mappingConstraints) (h₁ : ∀ c ∈ columns ++ covering, r₁' c = r₁ c)
    (h₂ : ∀ c ∈ columns ++ covering, r₂' c = r₂ c) :
    (columnsIndex columns covers).clash r₁' r₂' = (columnsIndex columns covers).clash r₁ r₂ := by
  have hcovers := (index_reads hk).2
  rw [clash_columnsIndex, clash_columnsIndex, hcovers r₁ r₁' fun c hc => h₁ c (List.mem_append_right _ hc),
    hcovers r₂ r₂' fun c hc => h₂ c (List.mem_append_right _ hc)]
  congr 1
  rw [Bool.eq_iff_iff, List.all_eq_true, List.all_eq_true]
  exact forall₂_congr fun c hc => by
    rw [h₁ c (List.mem_append_left _ hc), h₂ c (List.mem_append_left _ hc)]

/-- The rows of a table with all columns satisfy the indexes that its base does. -/
theorem Partway.constrained (h : Partway b t) (hall : ∀ c ∈ indexed, t.Has c) (hb : Constrained b)
    {columns : List String} {covers : Record → Bool} (hk : .index name columns covers ∈ mappingConstraints) :
    t.rows.Pairwise fun r r' => (columnsIndex columns covers).clash r r' = false := by
  obtain ⟨g, hrows, hg⟩ := h.rows
  rw [hrows, List.pairwise_map]
  have hreads : ∀ c ∈ columns ++ covering, t.Has c := by
    intro c hc
    rcases List.mem_append.1 hc with hc | hc
    · exact hall c ((index_reads hk).1 c hc)
    · exact hall c ((by decide : ∀ c ∈ covering, c ∈ indexed) c hc)
  refine (hb name columns covers hk).imp_of_mem fun {r r'} hr hr' hclash => ?_
  rw [clash_congr hk (fun c hc => hg r hr c (hreads c hc)) fun c hc => hg r' hr' c (hreads c hc)]
  exact hclash

/-! ## The end of `migrate` -/

/-- How a part of `migrate` ends: it returns with `Q`, or an operation failed for a reason of its own. -/
def Ends (mayFail : Prop) (b : Relation) (Q : α → Relation → Prop) (tables : Tables) (x : Except EdgeCoreError α) :
    Prop :=
  ∃ t, tables = fileOf t ∧ Partway b t ∧ ((∃ a, x = .ok a ∧ Q a t) ∨ ((∃ e, x = .error e) ∧ mayFail))

theorem ends_bind {p : MigrationProg α} {f : α → MigrationProg β} {Q : α → Relation → Prop}
    {Q' : β → Relation → Prop} (hp : p.Sat (migrationEnv mayFail) tables (Ends mayFail b Q))
    (hf : ∀ a t, Partway b t → Q a t → (f a).Sat (migrationEnv mayFail) (fileOf t) (Ends mayFail b Q')) :
    (p.bind f).Sat (migrationEnv mayFail) tables (Ends mayFail b Q') := by
  refine Prog.sat_bind (Prog.sat_mono ?_ hp)
  rintro tables x ⟨t, rfl, hpart, ⟨a, rfl, hq⟩ | ⟨⟨e, rfl⟩, hmay⟩⟩
  · refine ⟨fun a' ha => ?_, fun e he => nomatch he⟩
    cases ha
    exact hf a t hpart hq
  · refine ⟨fun a ha => (nomatch ha), fun e' he => ⟨t, rfl, hpart, .inr ⟨⟨e', rfl⟩, hmay⟩⟩⟩

/-- An operation that SQLite executes. -/
theorem ends_op {o : MigrationOp} {out : o.Out} {Q : o.Out → Relation → Prop}
    (hans : (fileOf t).answer o = (.ok out, fileOf t'))
    (hpart : Partway b t) (hpart' : Partway b t') (hq : Q out t') :
    (migrationOp o).Sat (migrationEnv mayFail) (fileOf t) (Ends mayFail b Q) := by
  refine Prog.sat_call fun r tables hE => ?_
  rcases hE with h | ⟨hmay, message, rfl, rfl⟩
  · rw [hans] at h
    cases h
    exact Prog.sat_ret ⟨t', rfl, hpart', .inl ⟨out, rfl, hq⟩⟩
  · exact Prog.sat_fail ⟨t, rfl, hpart, .inr ⟨⟨_, rfl⟩, hmay⟩⟩

section Answer

variable (t : Relation)

theorem answer_createTables : (fileOf t).answer (.execute .createTables) = (.ok (), fileOf t) := by
  simp [Tables.answer, Tables.exec, Tables.after]

theorem answer_tableInfo : (fileOf t).answer .tableInfo = (.ok (t.columns.map Column.name), fileOf t) := by
  simp [Tables.answer]

theorem answer_selectTableSql : (fileOf t).answer .selectTableSql = (.ok (some t.columns), fileOf t) := by
  simp [Tables.answer]

theorem answer_indexList :
    (fileOf t).answer .indexList = (.ok ((indexesOf "mappings" t).map Prod.fst), fileOf t) := by
  simp [Tables.answer]

theorem answer_addColumn (h : t.addColumn c = .ok t') :
    (fileOf t).answer (.execute (.addColumn c)) = (.ok (), fileOf t') := by
  simp [Tables.answer, Tables.exec, Tables.alter, h, Except.map, Tables.after]

theorem answer_constrain {k : MappingConstraint} (h : k.create t = .ok t') :
    (fileOf t).answer (.execute (.constrain k)) = (.ok (), fileOf t') := by
  simp [Tables.answer, Tables.exec, Tables.alter, h, Except.map, Tables.after]

end Answer

theorem ensureColumn_sat (hpart : Partway b t) (hc : c ∈ ensuredColumns) :
    (ensureColumn c).Sat (migrationEnv mayFail) (fileOf t) (Ends mayFail b fun _ t' =>
      t'.Has c.name ∧ (∀ name, t.Has name → t'.Has name) ∧ (t.Has c.name → t' = t)) := by
  refine ends_bind (Q := fun names t' => names = t.columns.map Column.name ∧ t' = t)
    (ends_op (answer_tableInfo t) hpart hpart ⟨rfl, rfl⟩) ?_
  rintro names t₁ - ⟨rfl, rfl⟩
  split
  · rename_i hhas
    exact Prog.sat_ret ⟨t₁, rfl, hpart, .inl ⟨(), rfl, hhas, fun _ h => h, fun _ => rfl⟩⟩
  · rename_i hnot
    obtain ⟨t', hadd, -, hpart', hhas⟩ := hpart.addColumn hc hnot
    exact ends_op (answer_addColumn t₁ hadd) hpart hpart'
      ⟨(hhas _).2 (.inr rfl), fun name hn => (hhas name).2 (.inl hn), fun h => absurd h hnot⟩

theorem ensureColumns_sat {cs : List Column} (hpart : Partway b t) (hcs : ∀ c ∈ cs, c ∈ ensuredColumns) :
    (ensureColumns cs).Sat (migrationEnv mayFail) (fileOf t) (Ends mayFail b fun _ t' =>
      (∀ c ∈ cs, t'.Has c.name) ∧ (∀ name, t.Has name → t'.Has name) ∧ ((∀ c ∈ cs, t.Has c.name) → t' = t)) := by
  induction cs generalizing t with
  | nil => exact Prog.sat_ret ⟨t, rfl, hpart, .inl ⟨(), rfl, by simp, fun _ h => h, fun _ => rfl⟩⟩
  | cons c cs ih =>
    rw [List.forall_mem_cons] at hcs
    refine ends_bind (ensureColumn_sat hpart hcs.1) fun _ t₁ hpart₁ ⟨hc, hmono, hsame⟩ => ?_
    refine Prog.sat_mono ?_ (ih hpart₁ hcs.2)
    rintro tables x ⟨t₂, rfl, hpart₂, ⟨a, rfl, hall, hmono₂, hsame₂⟩ | hfail⟩
    · refine ⟨t₂, rfl, hpart₂, .inl ⟨a, rfl, List.forall_mem_cons.2 ⟨hmono₂ _ hc, hall⟩,
        fun name hn => ?_, fun h => ?_⟩⟩
      · exact hmono₂ name (hmono name hn)
      · rw [List.forall_mem_cons] at h
        obtain rfl := hsame h.1
        exact hsame₂ h.2
    · exact ⟨t₂, rfl, hpart₂, .inr hfail⟩

/-- The statement of a constraint that the rows satisfy. -/
theorem create_ok {k : MappingConstraint} (hk : k ∈ mappingConstraints) (hpart : Partway b t)
    (hall : ∀ c ∈ indexed, t.Has c) (hb : Constrained b) :
    ∃ added, k.create t = .ok { t with added } ∧ k.name ∈ added.map Added.name ∧
      (∀ name ∈ t.added.map Added.name, name ∈ added.map Added.name) ∧
      (k.name ∈ t.added.map Added.name → added = t.added) := by
  cases k with
  | index name columns covers =>
    by_cases hname : name ∈ t.added.map Added.name
    · exact ⟨t.added, if_pos hname, hname, fun _ h => h, fun _ => rfl⟩
    · refine ⟨t.added ++ [.index name columns], ?_, by simp [MappingConstraint.name, Added.name], fun n hn => ?_,
        fun h => absurd h hname⟩
      · exact (if_neg hname).trans (if_pos (hpart.constrained hall hb hk))
      · rw [List.map_append]; exact List.mem_append_left _ hn
  | trigger name =>
    by_cases hname : name ∈ t.added.map Added.name
    · exact ⟨t.added, congrArg Except.ok (if_pos hname), hname, fun _ h => h, fun _ => rfl⟩
    · refine ⟨t.added ++ [.trigger name], by rw [MappingConstraint.create, Relation.createTrigger, if_neg hname],
        by simp [MappingConstraint.name, Added.name], fun n hn => ?_, fun h => absurd h hname⟩
      rw [List.map_append]; exact List.mem_append_left _ hn

theorem ensureMappingConstraints_sat {ks : List MappingConstraint} (hpart : Partway b t)
    (hks : ∀ k ∈ ks, k ∈ mappingConstraints) (hall : ∀ c ∈ indexed, t.Has c) (hb : Constrained b) :
    (ensureMappingConstraints ks).Sat (migrationEnv mayFail) (fileOf t) (Ends mayFail b fun _ t' =>
      (∃ added, t' = { t with added }) ∧ (∀ k ∈ ks, k.name ∈ t'.added.map Added.name) ∧
        (∀ name ∈ t.added.map Added.name, name ∈ t'.added.map Added.name) ∧
        ((∀ k ∈ ks, k.name ∈ t.added.map Added.name) → t' = t)) := by
  induction ks generalizing t with
  | nil => exact Prog.sat_ret ⟨t, rfl, hpart, .inl ⟨(), rfl, ⟨t.added, rfl⟩, by simp, fun _ h => h, fun _ => rfl⟩⟩
  | cons k ks ih =>
    rw [List.forall_mem_cons] at hks
    obtain ⟨added, hcreate, hname, hmono, hsame⟩ := create_ok hks.1 hpart hall hb
    have hop : (migrationOp (.execute (.constrain k))).Sat (migrationEnv mayFail) (fileOf t)
        (Ends mayFail b fun _ t' => t' = { t with added }) :=
      ends_op (answer_constrain t hcreate) hpart (hpart.with_added added) rfl
    refine ends_bind hop ?_
    rintro _ t₁ hpart₁ rfl
    refine Prog.sat_mono ?_ (ih hpart₁ hks.2 hall)
    rintro tables x ⟨t₂, rfl, hpart₂, ⟨a, rfl, ⟨added₂, rfl⟩, hnames, hmono₂, hsame₂⟩ | hfail⟩
    · refine ⟨_, rfl, hpart₂, .inl ⟨a, rfl, ⟨added₂, rfl⟩, List.forall_mem_cons.2 ⟨hmono₂ _ hname, hnames⟩, ?_, ?_⟩⟩
      · exact fun name hn => hmono₂ name (hmono name hn)
      · intro h
        rw [List.forall_mem_cons] at h
        obtain rfl := hsame h.1
        exact hsame₂ h.2
    · exact ⟨t₂, rfl, hpart₂, .inr hfail⟩

/-- A table with all that `migrate` adds. -/
structure Finished (t : Relation) : Prop where
  columns : ∀ c ∈ schemaColumns, t.Has c.name
  constraints : ∀ k ∈ mappingConstraints, k.name ∈ t.added.map Added.name

/-- **Adding columns and constraints keeps every value that is there.** -/
theorem rest_sat (hrequired : ∀ c ∈ schemaColumns, c ∉ ensuredColumns → b.Has c.name)
    (hplain : Plainly b) (hb : Constrained b) :
    ((ensureColumns ensuredColumns).bind fun _ => ensureMappingConstraints mappingConstraints).Sat
      (migrationEnv mayFail) (fileOf b) (Ends mayFail b fun _ t => Finished t ∧ (Finished b → t = b)) := by
  refine ends_bind (ensureColumns_sat (Partway.refl hplain) fun _ h => h) ?_
  rintro _ t hpart ⟨hensured, hmono, hsame⟩
  have hcolumns : ∀ c ∈ schemaColumns, t.Has c.name := by
    intro c hc
    by_cases he : c ∈ ensuredColumns
    · exact hensured c he
    · exact hmono _ (hrequired c hc he)
  have hall : ∀ c ∈ indexed, t.Has c := by
    intro c hc
    obtain ⟨col, hcol, rfl⟩ : ∃ col ∈ schemaColumns, col.name = c := by revert c; decide
    exact hcolumns col hcol
  refine Prog.sat_mono ?_ (ensureMappingConstraints_sat hpart (fun _ h => h) hall hb)
  rintro tables x ⟨t₂, rfl, hpart₂, ⟨a, rfl, ⟨added, rfl⟩, hnames, -, hsame₂⟩ | hfail⟩
  · refine ⟨_, rfl, hpart₂, .inl ⟨a, rfl, ⟨hcolumns, hnames⟩, fun hb => ?_⟩⟩
    obtain rfl := hsame fun c hc => hb.columns c ((by decide : ∀ c ∈ ensuredColumns, c ∈ schemaColumns) c hc)
    exact hsame₂ hb.constraints
  · exact ⟨t₂, rfl, hpart₂, .inr hfail⟩

/-! ## The check for UNIQUE -/

theorem sat_op {o : MigrationOp} {out : o.Out} {tables' : Tables} {post : Tables → Except EdgeCoreError o.Out → Prop}
    (hans : tables.answer o = (.ok out, tables')) (hok : post tables' (.ok out))
    (hfail : mayFail → ∀ e, post tables (.error e)) : (migrationOp o).Sat (migrationEnv mayFail) tables post := by
  refine Prog.sat_call fun r tables₁ hE => ?_
  rcases hE with h | ⟨hmay, message, rfl, rfl⟩
  · rw [hans] at h
    cases h
    exact Prog.sat_ret hok
  · exact Prog.sat_fail (hfail hmay _)

/-- The columns of the index of that name. -/
def indexColumns (t : Relation) (name : String) : List String :=
  ((indexesOf "mappings" t).find? fun x => x.1.name = name).elim [] Prod.snd

/-- Without UNIQUE, SQLite has an index of its own for the id only. -/
theorem ownIndexes_columns (hplain : Plainly t)
    {x : IndexEntry × List String} (h : x ∈ ownIndexes "mappings" t) : x.2 = ["id"] := by
  obtain ⟨⟨c, n⟩, hmem, rfl⟩ := List.mem_map.1 h
  obtain ⟨hc, hkind⟩ := List.mem_filter.1 (List.fst_mem_of_mem_zipIdx hmem)
  obtain ⟨hunique, hid⟩ := hplain c hc
  have hkey : c.primaryKey = true := by simpa [hunique] using hkind
  exact congrArg (fun n => [n]) (hid hkey)

theorem indexColumns_own (hplain : Plainly t)
    {entry : IndexEntry} (h : entry ∈ (indexesOf "mappings" t).map Prod.fst) (horigin : entry.origin ≠ "c") :
    indexColumns t entry.name = ["id"] := by
  obtain ⟨x, hx, rfl⟩ := List.mem_map.1 h
  rcases List.mem_append.1 hx with hx | hx
  · obtain ⟨y, hy⟩ : ∃ y, (ownIndexes "mappings" t).find? (fun y => y.1.name = x.1.name) = some y := by
      refine Option.isSome_iff_exists.1 (List.find?_isSome.2 ⟨x, hx, ?_⟩)
      simp
    rw [indexColumns, indexesOf, List.find?_append, hy]
    exact ownIndexes_columns hplain (List.mem_of_find?_eq_some hy)
  · obtain ⟨a, -, ha⟩ := List.mem_filterMap.1 hx
    cases a with
    | index name columns => cases ha; exact absurd rfl horigin
    | trigger name => cases ha

theorem answer_indexInfo : (fileOf t).answer (.indexInfo name) = (.ok (indexColumns t name), fileOf t) := by
  simp [Tables.answer, indexColumns]

theorem anyLegacyIndex_sat (hpart : Partway b t) {entries : List IndexEntry}
    (h : ∀ entry ∈ entries, entry ∈ (indexesOf "mappings" t).map Prod.fst) :
    (anyLegacyIndex entries).Sat (migrationEnv mayFail) (fileOf t) (Ends mayFail b fun legacy t' =>
      legacy = false ∧ t' = t) := by
  induction entries with
  | nil => exact Prog.sat_ret ⟨t, rfl, hpart, .inl ⟨false, rfl, rfl, rfl⟩⟩
  | cons entry entries ih =>
    rw [List.forall_mem_cons] at h
    unfold anyLegacyIndex
    split
    · exact ih h.2
    · rename_i hkind
      have hcolumns := indexColumns_own hpart.plain h.1 fun ho => hkind (.inr ho)
      refine ends_bind (Q := fun columns t' => columns = ["id"] ∧ t' = t)
        (ends_op (hcolumns ▸ answer_indexInfo) hpart hpart ⟨rfl, rfl⟩) ?_
      rintro columns t' - ⟨rfl, rfl⟩
      rw [if_neg (by decide)]
      exact ih h.2

/-- Without UNIQUE the table is left as it is. -/
theorem ensurePortForwardSchema_sat (hpart : Partway b t) :
    ensurePortForwardSchema.Sat (migrationEnv mayFail) (fileOf t) (Ends mayFail b fun _ t' => t' = t) := by
  have hany : t.columns.any Column.unique = false := by
    rw [List.any_eq_false]
    intro c hc
    rw [(hpart.plain c hc).1]
    decide
  have hlegacy : hasLegacyMappingUniqueConstraints.Sat (migrationEnv mayFail) (fileOf t)
      (Ends mayFail b fun legacy t' => legacy = false ∧ t' = t) := by
    refine ends_bind (Q := fun columns t' => columns = some t.columns ∧ t' = t)
      (ends_op (answer_selectTableSql t) hpart hpart ⟨rfl, rfl⟩) ?_
    rintro columns t' - ⟨rfl, rfl⟩
    simp only [hany]
    refine ends_bind (Q := fun entries t'' => entries = (indexesOf "mappings" t').map Prod.fst ∧ t'' = t')
      (ends_op (answer_indexList t') hpart hpart ⟨rfl, rfl⟩) ?_
    rintro entries t'' - ⟨rfl, rfl⟩
    exact anyLegacyIndex_sat hpart fun _ h => h
  refine ends_bind hlegacy ?_
  rintro legacy t' - ⟨rfl, rfl⟩
  exact Prog.sat_ret ⟨t', rfl, hpart, .inl ⟨(), rfl, rfl⟩⟩

theorem createTables_sat (hpart : Partway b t) :
    (execute .createTables).Sat (migrationEnv mayFail) (fileOf t) (Ends mayFail b fun _ t' => t' = t) :=
  ends_op (answer_createTables t) hpart hpart rfl

/-- **A table without UNIQUE**: `migrate` adds what is missing. -/
theorem migrate_plain (hrequired : ∀ c ∈ schemaColumns, c ∉ ensuredColumns → t.Has c.name) (hplain : Plainly t)
    (hc : Constrained t) :
    migrate.Sat (migrationEnv mayFail) (fileOf t) (Ends mayFail t fun _ t' => Finished t' ∧ (Finished t → t' = t)) := by
  refine ends_bind (createTables_sat (Partway.refl hplain)) ?_
  rintro _ t₁ - rfl
  refine ends_bind (ensurePortForwardSchema_sat (Partway.refl hplain)) ?_
  rintro _ t₂ - rfl
  exact rest_sat hrequired hplain hc

/-! ## The copy -/

/-- The table that the copy makes. -/
def copied (t : Relation) : Relation := ⟨schemaColumns, t.rows.map (copyRow copyList), []⟩

/-- The column that an item of the copy reads. -/
def SelectExpr.source : SelectExpr → Option String
  | .column name => some name
  | .value _ => none

/-- The columns of the copy that come from the table. -/
theorem copyList_reads : ∀ x ∈ copyList, ∀ n, x.2 = .column n → n = "health_status" ∨ n = "last_checked_at" ∨
    ∃ c ∈ schemaColumns, c ∉ ensuredColumns ∧ c.name = n := by
  have h : ∀ x ∈ copyList, ∀ n ∈ x.2.source, n = "health_status" ∨ n = "last_checked_at" ∨
      ∃ c ∈ schemaColumns, c ∉ ensuredColumns ∧ c.name = n := by decide
  intro x hx n hn
  refine h x hx n ?_
  rw [hn]
  rfl

/-- What the copy makes of a row. -/
theorem copyRow_eq (r : Record) {c : Column} (hc : c ∈ schemaColumns) : copyRow copyList r c.name =
    if c.name = "public_port" then .null else if c.name = "backend" then .text "nft" else r c.name := by
  have h : ∀ c ∈ schemaColumns, copyList.lookup c.name = some (if c.name = "public_port" then .value .null
      else if c.name = "backend" then .value (.text "nft") else .column c.name) := by decide
  rw [copyRow, h c hc]
  split
  · rfl
  split <;> rfl

theorem missingColumn_none (hrequired : ∀ c ∈ schemaColumns, c ∉ ensuredColumns → t.Has c.name)
    (hhealth : t.Has "health_status") (hchecked : t.Has "last_checked_at") : missingColumn t copyList = none := by
  rw [missingColumn, List.findSome?_eq_none_iff]
  rintro ⟨n, e⟩ hx
  cases e with
  | value v => rfl
  | column m =>
    refine if_pos ?_
    rcases copyList_reads _ hx m rfl with rfl | rfl | ⟨c, hc, he, rfl⟩
    · exact hhealth
    · exact hchecked
    · exact hrequired c hc he

theorem missingColumn_some (h : ¬ (t.Has "health_status" ∧ t.Has "last_checked_at")) :
    ∃ n, missingColumn t copyList = some n := by
  rw [← Option.ne_none_iff_exists', Ne, missingColumn, List.findSome?_eq_none_iff]
  intro hall
  refine h ⟨?_, ?_⟩
  · have hx := hall ("health_status", .column "health_status") (by decide)
    by_contra hno
    exact nomatch (if_neg hno).symm.trans hx
  · have hx := hall ("last_checked_at", .column "last_checked_at") (by decide)
    by_contra hno
    exact nomatch (if_neg hno).symm.trans hx

/-- A column of today that the table has is declared there as it is today, but for UNIQUE. -/
theorem Legacy.column (h : Legacy t) (hc : c ∈ schemaColumns) (hhas : t.Has c.name) :
    ∃ c' ∈ t.columns, { c' with unique := false } = c := by
  obtain ⟨c', hc', hname⟩ := List.mem_map.1 hhas
  refine ⟨c', hc', ?_⟩
  have hinj : ∀ c₁ ∈ schemaColumns, ∀ c₂ ∈ schemaColumns, c₁.name = c₂.name → c₁ = c₂ := by decide
  exact hinj _ (h.known c' hc') c hc hname

/-- The rows of the copy satisfy the constraints of the new table. -/
theorem copied_insert (h : Legacy t) : (⟨schemaColumns, [], []⟩ : Relation).insertAll (t.rows.map (copyRow copyList)) =
    .ok (copied t) := by
  have hkinds : ∀ c ∈ schemaColumns, (c.notNull = true → c.name = "backend" ∨ (c ∉ ensuredColumns ∧
      c.name ≠ "public_port")) ∧ c.unique = false ∧ (c.primaryKey = true → c ∉ ensuredColumns ∧
      c.name ≠ "public_port" ∧ c.name ≠ "backend") := by decide
  refine Relation.insertAll_ok (t := ⟨schemaColumns, [], []⟩) ?_ ?_
  · intro r' hr'
    obtain ⟨r, hr, rfl⟩ := List.mem_map.1 hr'
    refine List.all_eq_true.2 fun c hc => ?_
    cases hnull : c.notNull with
    | false => rfl
    | true =>
      rw [copyRow_eq r hc]
      rcases (hkinds c hc).1 hnull with hb | ⟨he, hp⟩
      · rw [if_neg (by rw [hb]; decide), if_pos hb]; rfl
      · rw [if_neg hp]
        split
        · rfl
        · obtain ⟨c', hc', rfl⟩ := h.column hc (h.required c hc he)
          have hfilled := List.all_eq_true.1 (h.sound.filled r hr) c' hc'
          simpa [show c'.notNull = true from hnull] using hfilled
  · rw [List.nil_append, List.pairwise_map]
    refine h.sound.apart.imp fun {r r'} hclash => ?_
    refine List.any_eq_false.2 fun c hc => ?_
    obtain ⟨-, hunique, hkey⟩ := hkinds c hc
    cases hk : c.primaryKey with
    | false => simp [hunique]
    | true =>
      obtain ⟨he, hp, hb⟩ := hkey hk
      rw [copyRow_eq r hc, copyRow_eq r' hc, if_neg hp, if_neg hb, if_neg hp, if_neg hb]
      obtain ⟨c', hc', rfl⟩ := h.column hc (h.required c hc he)
      have hno := List.any_eq_false.1 hclash c' hc'
      simpa [show c'.primaryKey = true from hk] using hno

/-- The statements of the copy. -/
def copyStmts : List SchemaStmt :=
  [.rename "mappings" "mappings_old_unique", .createTables, .copyMappings, .drop "mappings_old_unique"]

/-- **What the copy makes of a table that has the columns it names.** -/
theorem copy_ok (h : Legacy t) (hhealth : t.Has "health_status") (hchecked : t.Has "last_checked_at") :
    (fileOf t).execAll copyStmts = .ok (fileOf (copied t)) := by
  have hmissing := missingColumn_none h.required hhealth hchecked
  have hinsert := copied_insert h
  simp only [copyStmts, Tables.execAll, Tables.exec, Tables.alter, hmissing, hinsert, fileOf, Except.map, bind,
    Except.bind, Function.update_self, ne_eq, String.reduceEq, not_false_eq_true, Function.update_of_ne,
    Option.isNone_none, if_true, Function.update_idem, Except.ok.injEq]
  funext name
  by_cases hold : name = "mappings_old_unique"
  · subst hold
    rw [Function.update_self, Function.update_of_ne (by decide)]
  · rw [Function.update_of_ne hold]
    by_cases hname : name = "mappings"
    · subst hname
      rw [Function.update_self, Function.update_self]
    · rw [Function.update_of_ne hname, Function.update_of_ne hname, Function.update_of_ne hold,
        Function.update_of_ne hname]

/-- A table without one of the columns is not copied. -/
theorem copy_refused (h : ¬ (t.Has "health_status" ∧ t.Has "last_checked_at")) :
    ∃ e, (fileOf t).execAll copyStmts = .error e := by
  obtain ⟨n, hmissing⟩ := missingColumn_some h
  refine ⟨"no such column: " ++ n, ?_⟩
  simp only [copyStmts, Tables.execAll, Tables.exec, hmissing, fileOf, bind, Except.bind, Function.update_self, ne_eq,
    String.reduceEq, not_false_eq_true, Function.update_of_ne, Option.isNone_none, if_true]

theorem copied_plain : Plainly (copied t) := by
  have h : ∀ c ∈ schemaColumns, c.unique = false ∧ (c.primaryKey = true → c.name = "id") := by decide
  exact h

theorem copied_has (hc : c ∈ schemaColumns) : (copied t).Has c.name := List.mem_map_of_mem hc

theorem indexed_column {n : String} (hn : n ∈ indexed) : ∃ c ∈ schemaColumns, c.name = n ∧
    (n ≠ "public_port" → c ∉ ensuredColumns ∧ n ≠ "backend") := by
  revert n
  decide

/-- The copy of rows that satisfy the indexes of today satisfies them too: it has no port. -/
theorem copied_constrained (h : Legacy t) (hc : Constrained t) : Constrained (copied t) := by
  intro name columns covers hk
  have hsame : ∀ r : Record, ∀ n ∈ indexed, n ≠ "public_port" →
      expected (copied t) (copyRow copyList r) n = expected t r n := by
    intro r n hn hport
    obtain ⟨c, hc, rfl, he⟩ := indexed_column hn
    obtain ⟨he, hback⟩ := he hport
    rw [expected, if_pos (copied_has hc), copyRow_eq r hc, if_neg hport, if_neg hback, expected,
      if_pos (h.required c hc he)]
  have hport : ∀ r : Record, expected (copied t) (copyRow copyList r) "public_port" = .null := by
    intro r
    obtain ⟨c, hc, hname, -⟩ := indexed_column (n := "public_port") (by decide)
    rw [← hname, expected, if_pos (copied_has hc), copyRow_eq r hc, if_pos hname]
  rw [copied, List.pairwise_map]
  refine (hc name columns covers hk).imp fun {r r'} hclash => ?_
  by_cases hcol : "public_port" ∈ columns
  · rw [clash_columnsIndex, Bool.and_eq_false_iff]
    refine .inr (List.all_eq_false.2 ⟨"public_port", hcol, ?_⟩)
    change ¬ (expected (copied t) (copyRow copyList r) "public_port").eq _ = true
    rw [hport r]
    simp [Value.eq]
  · have hreads : ∀ n ∈ columns ++ covering, n ∈ indexed ∧ n ≠ "public_port" := by
      intro n hn
      rcases List.mem_append.1 hn with hn | hn
      · exact ⟨(index_reads hk).1 n hn, fun he => hcol (he ▸ hn)⟩
      · exact (by decide : ∀ n ∈ covering, n ∈ indexed ∧ n ≠ "public_port") n hn
    rw [← hclash]
    exact clash_congr hk (fun n hn => hsame r n (hreads n hn).1 (hreads n hn).2)
      fun n hn => hsame r' n (hreads n hn).1 (hreads n hn).2

/-- The first two steps on a table with UNIQUE: the copy is tried. -/
theorem legacy_sat {post : Tables → Except EdgeCoreError Unit → Prop} (hunique : HasUnique t)
    (hcopy : (migrationOp (.transaction copyStmts)).Sat (migrationEnv mayFail) (fileOf t) post)
    (hfail : mayFail → ∀ e, post (fileOf t) (.error e)) :
    ensurePortForwardSchema.Sat (migrationEnv mayFail) (fileOf t) post := by
  obtain ⟨c, hc, hu⟩ := hunique
  have hany : t.columns.any Column.unique = true := List.any_eq_true.2 ⟨c, hc, hu⟩
  have hlegacy : hasLegacyMappingUniqueConstraints.Sat (migrationEnv mayFail) (fileOf t) fun tables x =>
      tables = fileOf t ∧ (x = .ok true ∨ (∃ e, x = .error e) ∧ mayFail) := by
    refine Prog.sat_bind (sat_op (answer_selectTableSql t) ?_ fun hmay e => ?_)
    · refine ⟨fun a ha => ?_, fun e he => nomatch he⟩
      cases ha
      simp only [hany]
      exact Prog.sat_ret ⟨rfl, .inl rfl⟩
    · exact ⟨fun a ha => (nomatch ha), fun e' he => ⟨rfl, .inr ⟨⟨e', rfl⟩, hmay⟩⟩⟩
  refine Prog.sat_bind (Prog.sat_mono ?_ hlegacy)
  rintro tables x ⟨rfl, rfl | ⟨⟨e, rfl⟩, hmay⟩⟩
  · refine ⟨fun a ha => ?_, fun e he => nomatch he⟩
    cases ha
    exact hcopy
  · exact ⟨fun a ha => (nomatch ha), fun e' he => hfail hmay e'⟩

theorem createTables_legacy {p : MigrationProg Unit} {post : Tables → Except EdgeCoreError Unit → Prop}
    (hp : p.Sat (migrationEnv mayFail) (fileOf t) post) (hfail : mayFail → ∀ e, post (fileOf t) (.error e)) :
    ((execute .createTables).bind fun _ => p).Sat (migrationEnv mayFail) (fileOf t) post := by
  refine Prog.sat_bind (sat_op (answer_createTables t) ?_ fun hmay e => ?_)
  · exact ⟨fun _ _ => hp, fun e he => nomatch he⟩
  · exact ⟨fun a ha => (nomatch ha), fun e' he => hfail hmay e'⟩

/-- **A table with UNIQUE and the columns that the copy names**: it is as before, or `migrate` goes on with the copy. -/
theorem migrate_copied (h : Legacy t) (hunique : HasUnique t) (hc : Constrained t) (hhealth : t.Has "health_status")
    (hchecked : t.Has "last_checked_at") : migrate.Sat (migrationEnv mayFail) (fileOf t) fun tables x =>
      (tables = fileOf t ∧ (∃ e, x = .error e) ∧ mayFail) ∨
        Ends mayFail (copied t) (fun _ t' => Finished t' ∧ (Finished (copied t) → t' = copied t)) tables x := by
  have hcopy : (fileOf t).answer (.transaction copyStmts) = (.ok (), fileOf (copied t)) := by
    rw [Tables.answer, copy_ok h hhealth hchecked]
    rfl
  refine createTables_legacy (Prog.sat_bind (legacy_sat hunique (sat_op hcopy ?_ fun hmay e => ?_) fun hmay e => ?_))
    fun hmay e => .inl ⟨rfl, ⟨e, rfl⟩, hmay⟩
  · refine ⟨fun _ _ => ?_, fun e he => nomatch he⟩
    exact Prog.sat_mono (fun _ _ => .inr) 
      (rest_sat (fun c hc _ => copied_has hc) copied_plain (copied_constrained h hc))
  · exact ⟨fun a ha => (nomatch ha), fun e' he => .inl ⟨rfl, ⟨e', rfl⟩, hmay⟩⟩
  · exact ⟨fun a ha => (nomatch ha), fun e' he => .inl ⟨rfl, ⟨e', rfl⟩, hmay⟩⟩

/-- **A table with UNIQUE and without one of these columns** is never migrated. -/
theorem migrate_refused (hunique : HasUnique t) (hno : ¬ (t.Has "health_status" ∧ t.Has "last_checked_at")) :
    migrate.Sat (migrationEnv mayFail) (fileOf t) fun tables x => tables = fileOf t ∧ ∃ e, x = .error e := by
  obtain ⟨message, hcopy⟩ := copy_refused hno
  refine createTables_legacy (Prog.sat_bind (legacy_sat hunique (Prog.sat_call fun r tables hE => ?_) fun hmay e => ?_))
    fun hmay e => ⟨rfl, e, rfl⟩
  · rcases hE with hE | ⟨-, m, rfl, rfl⟩
    · rw [Tables.answer, hcopy] at hE
      cases hE
      exact Prog.sat_fail ⟨fun a ha => (nomatch ha), fun e he => ⟨rfl, e, rfl⟩⟩
    · exact Prog.sat_fail ⟨fun a ha => (nomatch ha), fun e he => ⟨rfl, e, rfl⟩⟩
  · exact ⟨fun a ha => (nomatch ha), fun e' he => ⟨rfl, e', rfl⟩⟩

/-! ## The result -/

/-- A finished table satisfies the indexes that its base does. -/
theorem Partway.constrained_self (h : Partway b t) (hf : Finished t) (hb : Constrained b) : Constrained t := by
  intro name columns covers hk
  have hall : ∀ c ∈ indexed, t.Has c := by
    intro c hc
    obtain ⟨col, hcol, rfl, -⟩ := indexed_column hc
    exact hf.columns col hcol
  refine (h.constrained hall hb hk).imp fun {r r'} hclash => ?_
  have hsame : ∀ r : Record, ∀ c ∈ columns ++ covering, expected t r c = r c := by
    intro r c hc
    rcases List.mem_append.1 hc with hc | hc
    · exact if_pos (hall c ((index_reads hk).1 c hc))
    · exact if_pos (hall c ((by decide : ∀ c ∈ covering, c ∈ indexed) c hc))
  rw [clash_congr hk (hsame r) (hsame r')]
  exact hclash

/-- A second migration changes nothing. -/
theorem migrate_again (h : Partway b t) (hf : Finished t) (hb : Constrained b) {tr : List (Event MigrationSig)}
    {x : Except EdgeCoreError Unit} (hr : migrate.Run (migrationEnv False) (fileOf t) tr tables x) :
    x = .ok () ∧ tables = fileOf t := by
  obtain ⟨t₁, rfl, -, ⟨u, rfl, -, hsame⟩ | ⟨-, hno⟩⟩ :=
    (migrate_plain (fun c hc _ => hf.columns c hc) h.plain (h.constrained_self hf hb)).of_run hr
  · exact ⟨rfl, congrArg fileOf (hsame hf)⟩
  · exact absurd hno id

/-- What a migration without a copy ends with. -/
theorem Partway.kept (h : Partway t t') (hf : Finished t') : Kept t t' := by
  obtain ⟨g, hrows, hg⟩ := h.rows
  refine ⟨hf.columns, ?_⟩
  rw [hrows, List.forall₂_map_right_iff, List.forall₂_same]
  exact fun r hr c hc => hg r hr c.name (hf.columns c hc)

theorem Partway.asBefore (h : Partway t t') : AsBefore t t' := by
  obtain ⟨g, hrows, hg⟩ := h.rows
  rw [AsBefore, hrows, List.forall₂_map_right_iff, List.forall₂_same]
  exact fun r hr name hn => (hg r hr name (h.has name hn)).trans (if_pos hn)

/-- What a migration with a copy ends with: the rows are kept if the copy kept them. -/
theorem Partway.kept_iff (h : Partway (copied t) t') (hf : Finished t') :
    Kept t t' ↔ ∀ r ∈ t.rows, ∀ c ∈ schemaColumns, copyRow copyList r c.name = expected t r c.name := by
  obtain ⟨g, hrows, hg⟩ := h.rows
  have hcopy : ∀ r ∈ t.rows, ∀ c ∈ schemaColumns, g (copyRow copyList r) c.name = copyRow copyList r c.name :=
    fun r hr c hc => (hg _ (List.mem_map_of_mem hr) c.name (hf.columns c hc)).trans (if_pos (copied_has hc))
  rw [Kept, hrows, copied, List.map_map, List.forall₂_map_right_iff, List.forall₂_same]
  constructor
  · exact fun h r hr c hc => (hcopy r hr c hc).symm.trans (h.2 r hr c hc)
  · exact fun h => ⟨hf.columns, fun r hr c hc => (hcopy r hr c hc).trans (h r hr c hc)⟩

/-- The copy keeps the rows where its constants are the values that are there. -/
theorem copyRow_expected_iff (h : Legacy t) (hhealth : t.Has "health_status") (hchecked : t.Has "last_checked_at") :
    (∀ r ∈ t.rows, ∀ c ∈ schemaColumns, copyRow copyList r c.name = expected t r c.name) ↔
      (t.Has "public_port" → ∀ r ∈ t.rows, r "public_port" = .null) ∧
        (t.Has "backend" → ∀ r ∈ t.rows, r "backend" = .text "nft") := by
  have hport : ∃ c ∈ schemaColumns, c.name = "public_port" := by decide
  have hback : ∃ c ∈ schemaColumns, c.name = "backend" := by decide
  have hothers : ∀ c ∈ schemaColumns, c.name ≠ "public_port" → c.name ≠ "backend" →
      c ∉ ensuredColumns ∨ c.name = "health_status" ∨ c.name = "last_checked_at" := by decide
  constructor
  · intro hall
    constructor
    · intro hhas r hr
      obtain ⟨c, hc, hname⟩ := hport
      have hv := hall r hr c hc
      rw [copyRow_eq r hc, if_pos hname, hname, expected, if_pos hhas] at hv
      exact hv.symm
    · intro hhas r hr
      obtain ⟨c, hc, hname⟩ := hback
      have hv := hall r hr c hc
      rw [copyRow_eq r hc, if_neg (by rw [hname]; decide), if_pos hname, hname, expected, if_pos hhas] at hv
      exact hv.symm
  · rintro ⟨hp, hb⟩ r hr c hc
    rw [copyRow_eq r hc, expected]
    by_cases hname : c.name = "public_port"
    · rw [hname, if_pos rfl, if_neg (by decide : ¬ "public_port" = "backend")]
      split
      · rename_i hhas; exact (hp hhas r hr).symm
      · rfl
    rw [if_neg hname]
    by_cases hname' : c.name = "backend"
    · rw [hname', if_pos rfl]
      split
      · rename_i hhas; exact (hb hhas r hr).symm
      · rw [if_pos rfl]
    · have hhas : t.Has c.name := by
        rcases hothers c hc hname hname' with he | hn | hn
        · exact h.required c hc he
        · rw [hn]; exact hhealth
        · rw [hn]; exact hchecked
      rw [if_neg hname', if_pos hhas]

theorem Partway.asBefore_copied (h : Partway (copied t) t') (hlegacy : Legacy t)
    (hrows : ∀ r ∈ t.rows, ∀ c ∈ schemaColumns, copyRow copyList r c.name = expected t r c.name) : AsBefore t t' := by
  obtain ⟨g, hg, hsame⟩ := h.rows
  rw [AsBefore, hg, copied, List.map_map, List.forall₂_map_right_iff, List.forall₂_same]
  intro r hr name hn
  obtain ⟨c, hschema, rfl⟩ : ∃ c ∈ schemaColumns, c.name = name := by
    obtain ⟨c, hc, rfl⟩ := List.mem_map.1 hn
    exact ⟨_, hlegacy.known c hc, rfl⟩
  have hhas : (copied t).Has c.name := copied_has hschema
  calc g (copyRow copyList r) c.name = expected (copied t) (copyRow copyList r) c.name :=
        hsame _ (List.mem_map_of_mem hr) _ (h.has _ hhas)
    _ = copyRow copyList r c.name := if_pos hhas
    _ = expected t r c.name := hrows r hr c hschema
    _ = r c.name := if_pos hn

theorem Legacy.plainly (h : Legacy t) (hunique : ¬ HasUnique t) : Plainly t := by
  have hkey : ∀ c ∈ schemaColumns, c.primaryKey = true → c.name = "id" := by decide
  intro c hc
  refine ⟨?_, hkey { c with unique := false } (h.known c hc)⟩
  by_contra hu
  exact hunique ⟨c, hc, by simpa using hu⟩

theorem migrationEnv_total (tables : Tables) (o : MigrationOp) : ∃ r tables', migrationEnv False tables o r tables' :=
  ⟨_, _, .inl rfl⟩

/-- A migration that keeps a table with UNIQUE has copied it without loss. -/
theorem copyable_of_migratesWell (h : Legacy t) (hc : Constrained t) (hw : MigratesWell t) (hunique : HasUnique t) :
    Copyable t := by
  obtain ⟨tr, tables, x, hr⟩ := Prog.exists_run migrationEnv_total migrate (fileOf t)
  obtain ⟨rfl, ⟨t', rfl, hkept⟩, -⟩ := hw.keeps tr tables x hr
  have hboth : t.Has "health_status" ∧ t.Has "last_checked_at" := by
    by_contra hno
    obtain ⟨-, e, he⟩ := (migrate_refused hunique hno).of_run hr
    cases he
  obtain ⟨hhealth, hchecked⟩ := hboth
  rcases (migrate_copied h hunique hc hhealth hchecked).of_run hr with ⟨-, ⟨e, he⟩, -⟩ | hends
  · cases he
  · obtain ⟨t₁, hfile, hpart, ⟨u, -, hf, -⟩ | ⟨⟨e, he⟩, -⟩⟩ := hends
    · have ht : t' = t₁ := by
        have h := congrFun hfile "mappings"
        rw [fileOf_mappings, fileOf_mappings] at h
        exact Option.some.inj h
      subst ht
      obtain ⟨hp, hb⟩ := (copyRow_expected_iff h hhealth hchecked).1 ((hpart.kept_iff hf).1 hkept)
      exact ⟨hhealth, hchecked, hp, hb⟩
    · cases he

/-- **A migration keeps the table exactly where it is not copied, or the copy loses nothing.** For every table of
an older version whose rows satisfy the indexes of today, `migrate` returns, keeps every row and every value and
changes nothing a second time, and leaves the rows as they were where it fails, if and only if no column is UNIQUE
or the table has both health columns, no port and no backend but nft. -/
theorem migrates_iff (h : Legacy t) (hc : Constrained t) : MigratesWell t ↔ (HasUnique t → Copyable t) := by
  refine ⟨fun hw hunique => copyable_of_migratesWell h hc hw hunique, fun hcopy => ?_⟩
  by_cases hunique : HasUnique t
  · obtain ⟨hhealth, hchecked, hp, hb⟩ := hcopy hunique
    have hrows := (copyRow_expected_iff h hhealth hchecked).2 ⟨hp, hb⟩
    constructor
    · intro tr tables x hr
      rcases (migrate_copied h hunique hc hhealth hchecked).of_run hr with ⟨-, -, hno⟩ | hends
      · exact absurd hno id
      · obtain ⟨t₁, rfl, hpart, ⟨u, rfl, hf, -⟩ | ⟨-, hno⟩⟩ := hends
        · exact ⟨rfl, ⟨t₁, rfl, (hpart.kept_iff hf).2 hrows⟩, fun tr' tables' x' hr' =>
            migrate_again hpart hf (copied_constrained h hc) hr'⟩
        · exact absurd hno id
    · intro tr tables e hr
      rcases (migrate_copied h hunique hc hhealth hchecked).of_run hr with ⟨rfl, -⟩ | ⟨t₁, rfl, hpart, -⟩
      · exact ⟨t, rfl, List.forall₂_same.2 fun r _ name _ => rfl⟩
      · exact ⟨t₁, rfl, hpart.asBefore_copied h hrows⟩
  · have hplain := h.plainly hunique
    constructor
    · intro tr tables x hr
      obtain ⟨t₁, rfl, hpart, ⟨u, rfl, hf, -⟩ | ⟨-, hno⟩⟩ := (migrate_plain h.required hplain hc).of_run hr
      · exact ⟨rfl, ⟨t₁, rfl, hpart.kept hf⟩, fun tr' tables' x' hr' => migrate_again hpart hf hc hr'⟩
      · exact absurd hno id
    · intro tr tables e hr
      obtain ⟨t₁, rfl, hpart, -⟩ := (migrate_plain h.required hplain hc).of_run hr
      exact ⟨t₁, rfl, hpart.asBefore⟩

/-! ## Two tables -/

/-- A row of an old table: a service on port 443. -/
def oldRow : Record := fun name =>
  match name with
  | "id" => .text "https"
  | "name" => .text "https"
  | "public_ip" => .text "8.8.8.8"
  | "edge_private_ip" => .text "10.0.0.101"
  | "target_ip" => .text "192.168.20.42"
  | "public_port" => .int 443
  | "target_port" => .int 443
  | "protocol" => .text "tcp"
  | "mode" => .text "port_forward_snat"
  | "backend" => .text "nft"
  | "enabled" => .int 1
  | "status" => .text "active"
  | "created_at" => .text "2026-01-01T00:00:00Z"
  | "updated_at" => .text "2026-01-01T00:00:00Z"
  | _ => .null

/-- A table with UNIQUE on both addresses and the columns that the test says. -/
def uniqueTable (has : String → Bool) : Relation where
  columns := (schemaColumns.filter fun c => has c.name).map fun c =>
    { c with unique := c.name == "public_ip" || c.name == "edge_private_ip" }
  rows := [oldRow]
  added := []

theorem uniqueTable_constrained (has : String → Bool) : Constrained (uniqueTable has) :=
  fun _ _ _ _ => List.pairwise_singleton _ _

/-- **A migration that loses a port**: the table has UNIQUE and a port already. -/
theorem migrate_loses_port : ∃ t, Legacy t ∧ Constrained t ∧ ¬ MigratesWell t := by
  have h : Legacy (uniqueTable fun _ => true) :=
    ⟨by decide, by decide, by decide, by decide, List.pairwise_singleton _ _⟩
  have hc := uniqueTable_constrained fun _ => true
  refine ⟨_, h, hc, fun hw => ?_⟩
  have hcopy := copyable_of_migratesWell h hc hw (by unfold HasUnique; decide)
  exact absurd (hcopy.port (by decide) oldRow List.mem_cons_self) (by decide)

/-- The table of the first version, with UNIQUE and without ports and backends, is migrated well. -/
theorem migrates_iff_first_version : ∃ t, Legacy t ∧ Constrained t ∧ HasUnique t ∧ MigratesWell t := by
  have h : Legacy (uniqueTable fun name => name != "public_port" && name != "backend") :=
    ⟨by decide, by decide, by decide, by decide, List.pairwise_singleton _ _⟩
  have hc := uniqueTable_constrained fun name => name != "public_port" && name != "backend"
  refine ⟨_, h, hc, by unfold HasUnique; decide, (migrates_iff h hc).2 fun _ => ?_⟩
  exact ⟨by decide, by decide, fun hno => absurd hno (by decide), fun hno => absurd hno (by decide)⟩

end EdgeRoute
