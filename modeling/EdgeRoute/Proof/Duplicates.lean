import EdgeRoute.Proof.Stored

/-!
# Inserts and their duplicate check

Each insert is judged against the rows that are there: by `reject_duplicates`, which looks at
one mapping at a time, and by the constraints of the table.

* `inserts_iff`: when `insert_mapping` returns, and what it leaves behind.
* `insert_order`: **the order of inserts does not matter.**
* `rejects_only_conflicts_iff`: the check refuses more than `validate_mappings` does exactly for
  one-to-one mappings of one target of which one is disabled.
-/

namespace EdgeRoute

open Effect

variable {C : Codec} {m m' a b : Mapping} {row row' : Row} {db db' db₁ db₂ : Db} {config : EdgeConfig}

/-! ## The check of two mappings -/

/-- What `reject_duplicates` asks of two mappings. -/
def Distinct (m m' : Mapping) : Prop :=
  Admissible m m' ∧ ¬ (m.mode = .oneToOneSnat ∧ m'.mode = .oneToOneSnat ∧ m.targetIp = m'.targetIp)

theorem Distinct.symm (h : Distinct m m') : Distinct m' m :=
  ⟨h.1.symm, fun ⟨hm, hm', ht⟩ => h.2 ⟨hm', hm, ht.symm⟩⟩

theorem checkDuplicate_iff : checkDuplicate m m' = .ok () ↔ Distinct m m' := by
  unfold checkDuplicate Distinct Admissible
  rw [except_seq_ok, checkDuplicatePublicIp_ok, conflicts_comm m m']
  by_cases ht : m'.mode = .oneToOneSnat ∧ m.mode = .oneToOneSnat ∧ m'.targetIp = m.targetIp
  · rw [if_pos ht]
    refine iff_of_false (fun h => nomatch h.2) fun h => h.2 ⟨ht.2.1, ht.1, ht.2.2.symm⟩
  · rw [if_neg ht, rejectIf_ok]
    exact ⟨fun ⟨hs, hc⟩ => ⟨⟨hc, hs⟩, fun ⟨hm, hm', he⟩ => ht ⟨hm', hm, he.symm⟩⟩, fun ⟨⟨hc, hs⟩, _⟩ => ⟨hs, hc⟩⟩

theorem checkDuplicates_iff {rows : List Row} : checkDuplicates C m rows = .ok () ↔
    ∀ row ∈ rows, ∃ m', C.rowToMapping row = .ok m' ∧ Distinct m m' := by
  induction rows with
  | nil => simp [checkDuplicates]
  | cons row rows ih =>
    rw [checkDuplicates, List.forall_mem_cons]
    simp only [except_bind_ok (α := Mapping), except_seq_ok, checkDuplicate_iff, ih]
    constructor
    · rintro ⟨m', hm', hd, hrest⟩
      exact ⟨⟨m', hm', hd⟩, hrest⟩
    · rintro ⟨⟨m', hm', hd⟩, hrest⟩
      exact ⟨m', hm', hd, hrest⟩

/-! ## One insert -/

/-- `insert_mapping`, its statements executed, returns. -/
def Inserts (C : Codec) (m : Mapping) (db db' : Db) : Prop := (insertMapping C m).Returns execEnv db db' ()

theorem returns_sql {s : Stmt} {out : s.Out} : (sql s).Returns execEnv db db' out ↔ db.exec s = (.ok out, db') := by
  constructor
  · intro ⟨tr, h⟩
    obtain ⟨r, db₁, tr₁, -, hE, hret⟩ := Prog.run_call.1 h
    obtain ⟨-, rfl, hr⟩ := Prog.run_ofExcept.1 hret
    have hexec : (r, db') = db.exec s := hE
    rw [← hexec]
    cases r with
    | ok out' => cases hr; rfl
    | error e => cases hr
  · intro h
    exact ⟨_, Prog.run_call.2 ⟨.ok out, db', [], rfl, h.symm, Prog.run_ofExcept.2 ⟨rfl, rfl, rfl⟩⟩⟩

theorem returns_edgeConfig {found : Option EdgeConfig} : (edgeConfig C).Returns execEnv db db' found ↔
    db' = db ∧ transposeMap (fun value => (C.configFromJson value).mapError fun e =>
      EdgeCoreError.store ("decode edge config: " ++ e)) db.config = .ok found := by
  unfold edgeConfig
  rw [Prog.bind_eq, Prog.returns_bind]
  simp only [Prog.returns_ofExcept]
  constructor
  · intro ⟨value, db₁, hsel, hdb, hdec⟩
    cases returns_sql.1 hsel
    exact ⟨hdb, hdec⟩
  · intro ⟨hdb, hdec⟩
    exact ⟨db.config, db, returns_sql.2 rfl, hdb, hdec⟩

theorem returns_requireEdgeConfig : (requireEdgeConfig C).Returns execEnv db db' config ↔
    db' = db ∧ ∃ text, db.config = some text ∧ C.configFromJson text = .ok config := by
  unfold requireEdgeConfig
  rw [Prog.bind_eq, Prog.returns_bind]
  simp only [returns_edgeConfig]
  constructor
  · rintro ⟨found, db₁, ⟨hdb, hdec⟩, hret⟩
    rw [hdb] at hret
    cases found with
    | none => exact absurd hret Prog.not_returns_fail
    | some c =>
      obtain ⟨hdb', rfl⟩ := Prog.returns_ret.1 hret
      cases htext : db.config with
      | none => rw [htext] at hdec; cases hdec
      | some text =>
        rw [htext] at hdec
        refine ⟨hdb', text, rfl, ?_⟩
        cases hj : C.configFromJson text with
        | ok c' => simp only [transposeMap, hj] at hdec; cases hdec; rfl
        | error e => simp only [transposeMap, hj] at hdec; cases hdec
  · rintro ⟨hdb, text, htext, hj⟩
    refine ⟨some config, db, ⟨rfl, ?_⟩, Prog.returns_ret.2 ⟨hdb, rfl⟩⟩
    rw [htext]
    simp only [transposeMap, hj]
    rfl

theorem returns_rejectDuplicates {u : Unit} : (rejectDuplicates C m).Returns execEnv db db' u ↔
    db' = db ∧ ∀ row ∈ db.mappings.others m.id.val, ∃ m', C.rowToMapping row = .ok m' ∧ Distinct m m' := by
  unfold rejectDuplicates
  rw [Prog.bind_eq, Prog.returns_bind, ← checkDuplicates_iff]
  simp only [Prog.returns_ofExcept]
  constructor
  · intro ⟨rows, db₁, hsel, hdb, hcheck⟩
    cases returns_sql.1 hsel
    exact ⟨hdb, hcheck⟩
  · intro ⟨hdb, hcheck⟩
    exact ⟨db.mappings.others m.id.val, db, returns_sql.2 rfl, hdb, hcheck⟩

/-- A row that the constraints accept beside the others. -/
theorem exec_insert_iff : db.exec (.insertMapping row) = (.ok (), db') ↔
    (∀ row' ∈ db.mappings.rows, row'.id ≠ row.id ∧ ¬ row.Clash row') ∧
      ∃ t : Sql.Table mappingsSchema, t.rows = db.mappings.rows ++ [row] ∧ db' = { db with mappings := t } := by
  rw [Db.exec_insertMapping]
  constructor
  · intro h
    cases hi : db.mappings.insert row with
    | error e => rw [hi] at h; cases h
    | ok t =>
      rw [hi] at h
      cases h
      obtain ⟨h1, hk, h2, ht⟩ := Sql.Table.insert_ok hi
      refine ⟨fun row' hr => ⟨fun hid => hk (List.mem_map.2 ⟨row', hr, hid⟩), fun hc => ?_⟩, t, ht, rfl⟩
      rcases guard_iff.2 ⟨row', hr, hc⟩ with h | h
      · exact h h1
      · exact h h2
  · intro ⟨hfree, t, ht, hdb⟩
    have hguard : rejectConflictInsert db.mappings.rows row = none ∧
        mappingsSchema.refusal db.mappings.rows row = none := by
      have hno : ¬ ∃ row' ∈ db.mappings.rows, row.Clash row' := fun ⟨row', hr, hc⟩ => (hfree row' hr).2 hc
      rw [← guard_iff, not_or, not_not, not_not] at hno
      exact hno
    have hkey : mappingsSchema.key row ∉ db.mappings.rows.map mappingsSchema.key := by
      intro hmem
      obtain ⟨row', hr, hid⟩ := List.mem_map.1 hmem
      exact (hfree row' hr).1 hid
    rw [Sql.Table.insert_of_free hguard.1 hguard.2 hkey ht, hdb]

/-- **When an insert returns**: the mapping is valid under the stored config, every row decodes to a mapping
distinct from it, and its row clashes with none; the row is then added. -/
theorem inserts_iff : Inserts C m db db' ↔ ∃ config row,
    (∃ text, db.config = some text ∧ C.configFromJson text = .ok config) ∧ validateMapping m config = .ok () ∧
    (∀ r ∈ db.mappings.others m.id.val, ∃ m', C.rowToMapping r = .ok m' ∧ Distinct m m') ∧
    C.insertRow m = .ok row ∧ (∀ r ∈ db.mappings.rows, r.id ≠ row.id ∧ ¬ row.Clash r) ∧
    ∃ t : Sql.Table mappingsSchema, t.rows = db.mappings.rows ++ [row] ∧ db' = { db with mappings := t } := by
  unfold Inserts insertMapping
  simp only [Prog.bind_eq, Prog.returns_bind, returns_requireEdgeConfig, Prog.returns_ofExcept,
    returns_rejectDuplicates]
  constructor
  · intro ⟨config, _, ⟨hdb, hconfig⟩, _, _, ⟨hdb₁, hv⟩, _, _, ⟨hdb₂, hdup⟩, row, _, ⟨hdb₃, hrow⟩, hins⟩
    subst hdb hdb₁ hdb₂ hdb₃
    exact ⟨config, row, hconfig, hv, hdup, hrow, exec_insert_iff.1 (returns_sql.1 hins)⟩
  · intro ⟨config, row, hconfig, hv, hdup, hrow, hins⟩
    exact ⟨config, db, ⟨rfl, hconfig⟩, (), db, ⟨rfl, hv⟩, (), db, ⟨rfl, hdup⟩, row, db, ⟨rfl, hrow⟩,
      returns_sql.2 (exec_insert_iff.2 hins)⟩

/-! ## Many inserts -/

/-- The inserts of a list, one after the other, until one fails. -/
def insertAll (C : Codec) : List Mapping → StoreProg Unit
  | [] => pure ()
  | m :: ms => do
    insertMapping C m
    insertAll C ms

/-- The same table up to the order of rows, and the same config. -/
structure SameRows (db db' : Db) : Prop where
  rows : db.mappings.rows.Perm db'.mappings.rows
  config : db.config = db'.config

theorem SameRows.refl (db : Db) : SameRows db db := ⟨.refl _, rfl⟩

theorem SameRows.symm (h : SameRows db db') : SameRows db' db := ⟨h.rows.symm, h.config.symm⟩

theorem SameRows.trans (h : SameRows db db₁) (h' : SameRows db₁ db₂) : SameRows db db₂ :=
  ⟨h.rows.trans h'.rows, h.config.trans h'.config⟩

/-- A table with one more row. -/
def appendRow (db : Db) (row : Row) (h : ∀ r ∈ db.mappings.rows, r.id ≠ row.id) : Db :=
  { db with mappings := ⟨db.mappings.rows ++ [row], by
      rw [List.map_append, List.nodup_append_comm]
      refine List.nodup_cons.2 ⟨fun hm => ?_, db.mappings.nodup⟩
      obtain ⟨r, hr, hid⟩ := List.mem_map.1 hm
      exact h r hr hid⟩ }

/-- Whether an insert returns depends on which rows there are, not on their order. -/
theorem inserts_sameRows (hs : SameRows db db') (h : Inserts C m db db₁) :
    ∃ db₂, Inserts C m db' db₂ ∧ SameRows db₁ db₂ := by
  obtain ⟨config, row, hconfig, hv, hdup, hrow, hfree, t, ht, rfl⟩ := inserts_iff.1 h
  have hfree' : ∀ r ∈ db'.mappings.rows, r.id ≠ row.id ∧ ¬ row.Clash r := fun r hr => hfree r (hs.rows.mem_iff.2 hr)
  refine ⟨appendRow db' row fun r hr => (hfree' r hr).1, ?_, ?_, hs.config⟩
  · refine inserts_iff.2 ⟨config, row, hs.config ▸ hconfig, hv, fun r hr => ?_, hrow, hfree', _, rfl, rfl⟩
    obtain ⟨hr, hid⟩ := Sql.Table.mem_others.1 hr
    exact hdup r (Sql.Table.mem_others.2 ⟨hs.rows.mem_iff.2 hr, hid⟩)
  · change t.rows.Perm (db'.mappings.rows ++ [row])
    rw [ht]
    exact hs.rows.append_right _

theorem validateMode_of_valid (h : validateMapping m config = .ok ()) : validateMode m = .ok () :=
  (validateMapping_parts h).2.2.2.2.2

/-- **Two inserts can be swapped**: what each asks of the other is symmetric. -/
theorem inserts_swap (ha : Inserts C a db db₁) (hb : Inserts C b db₁ db₂) :
    ∃ db₁' db₂', Inserts C b db db₁' ∧ Inserts C a db₁' db₂' ∧ SameRows db₂ db₂' := by
  obtain ⟨config, rowa, hconfig, hva, hdupa, hrowa, hfreea, ta, hta, rfl⟩ := inserts_iff.1 ha
  obtain ⟨config', rowb, hconfig', hvb, hdupb, hrowb, hfreeb, tb, htb, rfl⟩ := inserts_iff.1 hb
  have hea : Encodes C rowa a := encodes_insertRow (portsOk_of_valid (validateMode_of_valid hva)) hrowa
  have heb : Encodes C rowb b := encodes_insertRow (portsOk_of_valid (validateMode_of_valid hvb)) hrowb
  simp only [hta, List.mem_append, List.mem_singleton] at hfreeb
  have hne : rowa.id ≠ rowb.id := (hfreeb rowa (.inr rfl)).1
  have hdistinct : Distinct b a := by
    have hmem : rowa ∈ ta.others b.id.val := by
      refine Sql.Table.mem_others.2 ⟨by rw [hta]; simp, fun hid => hne ?_⟩
      exact hid.trans heb.id.symm
    obtain ⟨a', ha', hd⟩ := hdupb rowa hmem
    cases hea.decoded.symm.trans ha'
    exact hd
  have hclash : ¬ rowa.Clash rowb := by
    rw [clash_iff hea heb (validateMode_of_valid hva)]
    intro hc
    exact (hfreeb rowa (.inr rfl)).2 ((clash_iff heb hea (validateMode_of_valid hvb)).2 hc.symm)
  have hfreeb' : ∀ r ∈ db.mappings.rows, r.id ≠ rowb.id ∧ ¬ rowb.Clash r := fun r hr => hfreeb r (.inl hr)
  have hfreea' : ∀ r ∈ (appendRow db rowb fun r hr => (hfreeb' r hr).1).mappings.rows,
      r.id ≠ rowa.id ∧ ¬ rowa.Clash r := by
    intro r hr
    rcases List.mem_append.1 hr with hr | hr
    · exact hfreea r hr
    · rw [List.mem_singleton.1 hr]
      exact ⟨hne.symm, hclash⟩
  refine ⟨appendRow db rowb fun r hr => (hfreeb' r hr).1, appendRow _ rowa fun r hr => (hfreea' r hr).1, ?_, ?_,
    ?_, rfl⟩
  · refine inserts_iff.2 ⟨config', rowb, hconfig', hvb, fun r hr => ?_, hrowb, hfreeb', _, rfl, rfl⟩
    obtain ⟨hr, hid⟩ := Sql.Table.mem_others.1 hr
    exact hdupb r (Sql.Table.mem_others.2 ⟨by rw [hta]; exact List.mem_append_left _ hr, hid⟩)
  · refine inserts_iff.2 ⟨config, rowa, hconfig, hva, fun r hr => ?_, hrowa, hfreea', _, rfl, rfl⟩
    obtain ⟨hr, hid⟩ := Sql.Table.mem_others.1 hr
    rcases List.mem_append.1 hr with hr | hr
    · exact hdupa r (Sql.Table.mem_others.2 ⟨hr, hid⟩)
    · rw [List.mem_singleton.1 hr]
      exact ⟨b, heb.decoded, hdistinct.symm⟩
  · change tb.rows.Perm ((db.mappings.rows ++ [rowb]) ++ [rowa])
    rw [htb]
    change (ta.rows ++ [rowb]).Perm _
    rw [hta, List.append_assoc, List.append_assoc]
    exact (List.Perm.swap rowb rowa []).append_left _

theorem insertAll_cons {ms : List Mapping} : (insertAll C (m :: ms)).Returns execEnv db db' () ↔
    ∃ db₁, Inserts C m db db₁ ∧ (insertAll C ms).Returns execEnv db₁ db' () := by
  rw [insertAll, Prog.bind_eq, Prog.returns_bind]
  constructor
  · intro ⟨_, db₁, h, hrest⟩
    exact ⟨db₁, h, hrest⟩
  · intro ⟨db₁, h, hrest⟩
    exact ⟨(), db₁, h, hrest⟩

theorem insertAll_sameRows {ms : List Mapping} (hs : SameRows db db')
    (h : (insertAll C ms).Returns execEnv db db₁ ()) :
    ∃ db₂, (insertAll C ms).Returns execEnv db' db₂ () ∧ SameRows db₁ db₂ := by
  induction ms generalizing db db' with
  | nil =>
    obtain ⟨rfl, -⟩ := Prog.returns_ret.1 h
    exact ⟨db', Prog.returns_ret.2 ⟨rfl, rfl⟩, hs⟩
  | cons m ms ih =>
    obtain ⟨dbm, hm, hrest⟩ := insertAll_cons.1 h
    obtain ⟨dbm', hm', hsm⟩ := inserts_sameRows hs hm
    obtain ⟨db₂, hrest', hs₂⟩ := ih hsm hrest
    exact ⟨db₂, insertAll_cons.2 ⟨dbm', hm', hrest'⟩, hs₂⟩

/-- An insert leaves one database behind. -/
theorem inserts_unique (h : Inserts C m db db₁) (h' : Inserts C m db db₂) : db₁ = db₂ := by
  obtain ⟨_, row, -, -, -, hrow, -, t, ht, rfl⟩ := inserts_iff.1 h
  obtain ⟨_, row', -, -, -, hrow', -, t', ht', rfl⟩ := inserts_iff.1 h'
  have hr : row = row' := Except.ok.inj (hrow.symm.trans hrow')
  subst hr
  obtain ⟨rows, hn⟩ := t
  obtain ⟨rows', hn'⟩ := t'
  have hrows : rows = rows' := ht.trans ht'.symm
  subst hrows
  rfl

theorem insertAll_unique {ms : List Mapping} (h : (insertAll C ms).Returns execEnv db db₁ ())
    (h' : (insertAll C ms).Returns execEnv db db₂ ()) : db₁ = db₂ := by
  induction ms generalizing db with
  | nil => exact (Prog.returns_ret.1 h).1.trans (Prog.returns_ret.1 h').1.symm
  | cons m ms ih =>
    obtain ⟨dbm, hm, hrest⟩ := insertAll_cons.1 h
    obtain ⟨dbm', hm', hrest'⟩ := insertAll_cons.1 h'
    rw [inserts_unique hm hm'] at hrest
    exact ih hrest hrest'

/-- The inserts of a permuted list leave the same rows. -/
theorem insertAll_perm {ms ms' : List Mapping} (hp : ms.Perm ms') : ∀ {db db₁ : Db},
    (insertAll C ms).Returns execEnv db db₁ () →
      ∃ db₂, (insertAll C ms').Returns execEnv db db₂ () ∧ SameRows db₁ db₂ := by
  induction hp with
  | nil =>
    intro db db₁ h
    exact ⟨db₁, h, SameRows.refl db₁⟩
  | @cons m ms ms' _ ih =>
    intro db db₁ h
    obtain ⟨dbm, hm, hrest⟩ := insertAll_cons.1 h
    obtain ⟨db₂, hrest', hs⟩ := ih hrest
    exact ⟨db₂, insertAll_cons.2 ⟨dbm, hm, hrest'⟩, hs⟩
  | swap a b ms =>
    intro db db₁ h
    obtain ⟨dbb, hb, hrest⟩ := insertAll_cons.1 h
    obtain ⟨dba, ha, hrest⟩ := insertAll_cons.1 hrest
    obtain ⟨dba', dbb', ha', hb', hs⟩ := inserts_swap hb ha
    obtain ⟨db₂, hrest', hs₂⟩ := insertAll_sameRows hs hrest
    exact ⟨db₂, insertAll_cons.2 ⟨dba', ha', insertAll_cons.2 ⟨dbb', hb', hrest'⟩⟩, hs₂⟩
  | trans _ _ ih1 ih2 =>
    intro db db₁ h
    obtain ⟨dbm, hm, hs⟩ := ih1 h
    obtain ⟨db₂, h₂, hs₂⟩ := ih2 hm
    exact ⟨db₂, h₂, hs.trans hs₂⟩

/-- **The order of inserts does not matter.** Two orders of a list both succeed or both fail, from any
database; and where they succeed they leave the same rows, and so the same mappings. -/
theorem insert_order {ms ms' : List Mapping} (hp : ms.Perm ms') (db : Db) :
    ((∃ db₁, (insertAll C ms).Returns execEnv db db₁ ()) ↔ ∃ db₂, (insertAll C ms').Returns execEnv db db₂ ()) ∧
      ∀ db₁ db₂, (insertAll C ms).Returns execEnv db db₁ () → (insertAll C ms').Returns execEnv db db₂ () →
        db₁.mappings.rows.Perm db₂.mappings.rows ∧
          ∀ m, (∃ row ∈ db₁.mappings.rows, C.rowToMapping row = .ok m) ↔
            ∃ row ∈ db₂.mappings.rows, C.rowToMapping row = .ok m := by
  refine ⟨⟨fun ⟨db₁, h⟩ => ?_, fun ⟨db₂, h⟩ => ?_⟩, fun db₁ db₂ h h' => ?_⟩
  · obtain ⟨db₂, h₂, -⟩ := insertAll_perm hp h
    exact ⟨db₂, h₂⟩
  · obtain ⟨db₁, h₁, -⟩ := insertAll_perm hp.symm h
    exact ⟨db₁, h₁⟩
  · obtain ⟨db₂', h₂, hs⟩ := insertAll_perm hp h
    rw [insertAll_unique h₂ h'] at hs
    refine ⟨hs.rows, fun m => ?_⟩
    simp only [hs.rows.mem_iff]

theorem sampleHandler_exec (db : Db) (o : StoreSig.Op) :
    execEnv db o (sampleHandler db o).1 (sampleHandler db o).2 := by
  cases o with
  | sql s => rfl
  | now => rfl

/-- Two services go into the sample store in either order. -/
theorem insert_order_services : ∃ db₂,
    (insertAll sampleCodec [samplePortForward, sampleDns]).Returns execEnv sampleDb db₂ () := by
  refine ((insert_order (List.Perm.swap samplePortForward sampleDns []) sampleDb).1).1 ?_
  have hrun := eval_run sampleHandler_exec (insertAll sampleCodec [sampleDns, samplePortForward]) sampleDb
  have hok : ((insertAll sampleCodec [sampleDns, samplePortForward]).eval sampleHandler sampleDb).2.2 = .ok () := by
    decide +kernel
  rw [hok] at hrun
  exact ⟨_, _, hrun⟩

/-! ## The check beside `validate_mappings` -/

/-- The mapping is stored under another id than that of `m`. -/
def Db.StoresBeside (C : Codec) (db : Db) (m m' : Mapping) : Prop :=
  ∃ row ∈ db.mappings.others m.id.val, C.rowToMapping row = .ok m'

/-- **The check refuses only what the list check refuses**: where `reject_duplicates`, its statement executed,
fails, so does `validate_mappings` on the other mappings and the candidate. -/
def RejectsOnlyConflicts (C : Codec) (config : EdgeConfig) (db : Db) (m : Mapping) : Prop :=
  ∀ tr db' e, (rejectDuplicates C m).Run execEnv db tr db' (.error e) →
    ∀ ms, decodeRows C (db.mappings.others m.id.val) = .ok ms → validateMappings (ms ++ [m]) config ≠ .ok ()

/-- The one run of `reject_duplicates`, when its statement is executed. -/
theorem rejectDuplicates_exec {tr : List (Event StoreSig)} {x : Except EdgeCoreError Unit} :
    (rejectDuplicates C m).Run execEnv db tr db' x ↔
      tr = [⟨.sql (.selectOthers m.id.val), .ok (db.mappings.others m.id.val)⟩] ∧ db' = db ∧
        x = checkDuplicates C m (db.mappings.others m.id.val) := by
  unfold rejectDuplicates sql
  rw [Prog.bind_eq, Prog.bind_call, Prog.run_call]
  constructor
  · intro ⟨r, db₁, tr₁, htr, hE, hr⟩
    cases hE
    obtain ⟨rfl, rfl, rfl⟩ := Prog.run_ofExcept.1 hr
    exact ⟨htr, rfl, rfl⟩
  · intro ⟨htr, hdb, hx⟩
    subst htr hdb hx
    exact ⟨_, _, [], rfl, rfl, Prog.run_ofExcept.2 ⟨rfl, rfl, rfl⟩⟩

/-- A valid candidate fits into the list of the other mappings of an invariant store where it is admissible
beside each of them. -/
theorem validateMappings_candidate {text : String} (h : StoreInv C config text db)
    (hv : validateMapping m config = .ok ()) {ms : List Mapping}
    (hms : decodeRows C (db.mappings.others m.id.val) = .ok ms) :
    validateMappings (ms ++ [m]) config = .ok () ↔ ∀ m', db.StoresBeside C m m' → Admissible m m' := by
  have hsub : (db.mappings.others m.id.val).Sublist db.mappings.rows := List.filter_sublist
  have hstored : ∀ row ∈ db.mappings.others m.id.val, ∃ m, Encodes C row m ∧ validateMapping m config = .ok () :=
    fun row hr => h.table.stored row (hsub.subset hr)
  obtain ⟨ms', hms', hvalid, hfrom⟩ := decodeRows_valid hstored (h.table.apart.pairwise.sublist hsub)
  rw [hms] at hms'
  cases hms'
  have hmem : ∀ m', m' ∈ ms ↔ db.StoresBeside C m m' := by
    intro m'
    have hdec := decodeRows_forall₂.1 hms
    constructor
    · intro hm'
      obtain ⟨row, hr, he⟩ := hfrom m' hm'
      exact ⟨row, hr, he.decoded⟩
    · intro ⟨row, hr, hd⟩
      obtain ⟨i, hi, rfl⟩ := List.getElem_of_mem hr
      obtain ⟨hlen, hget⟩ := List.forall₂_iff_get.1 hdec
      have hi' : i < ms.length := hlen ▸ hi
      have hmi : C.rowToMapping (db.mappings.others m.id.val)[i] = .ok ms[i] := hget i hi hi'
      rw [Except.ok.inj (hd.symm.trans hmi)]
      exact List.getElem_mem hi'
  rw [validateMappings_ok] at hvalid ⊢
  rw [List.pairwise_append]
  constructor
  · intro ⟨_, _, _, hpair⟩ m' hm'
    exact (hpair m' ((hmem m').2 hm') m (List.mem_singleton_self m)).symm
  · intro hadm
    refine ⟨fun x hx => ?_, hvalid.2, List.pairwise_singleton _ _, fun x hx y hy => ?_⟩
    · rcases List.mem_append.1 hx with hx | hx
      · exact hvalid.1 x hx
      · rw [List.mem_singleton.1 hx]
        exact hv
    · rw [List.mem_singleton.1 hy]
      exact (hadm x ((hmem x).1 hx)).symm

/-- Another one-to-one mapping is stored for the target of the one-to-one candidate. -/
def SharesTarget (C : Codec) (db : Db) (m : Mapping) : Prop :=
  m.mode = .oneToOneSnat ∧ ∃ m', db.StoresBeside C m m' ∧ m'.mode = .oneToOneSnat ∧ m'.targetIp = m.targetIp

/-- **When the check refuses only conflicts**: after a config was stored in a new database and any calls were
made one after the other, exactly for the candidates that share no target, or really are in conflict with a
stored mapping. -/
theorem rejects_only_conflicts_iff {calls : List StoreCall} {tr : List (Event StoreSig)} {db₀ : Db}
    (hset : (setEdgeConfig C config).Run storeEnv .fresh tr db₀ (.ok ()))
    (hseq : Sequence C calls db₀ db) (hv : validateMapping m config = .ok ()) :
    RejectsOnlyConflicts C config db m ↔
      (SharesTarget C db m → ∃ m', db.StoresBeside C m m' ∧ (conflicts m m' = true ∨ sharesPublicIp m m' = true)) := by
  obtain ⟨text, hjson, hinv₀⟩ := setEdgeConfig_inv hset
  have hinv := sequence_keeps (C.json_inverse hjson) hseq hinv₀
  obtain ⟨ms, hms⟩ : ∃ ms, decodeRows C (db.mappings.others m.id.val) = .ok ms := by
    apply decodeRows_total
    intro row hr
    obtain ⟨m', he, -⟩ := hinv.table.stored row (Sql.Table.mem_others.1 hr).1
    exact ⟨m', he.decoded⟩
  have hlist := validateMappings_candidate hinv hv hms
  have hadm : (∃ m', db.StoresBeside C m m' ∧ (conflicts m m' = true ∨ sharesPublicIp m m' = true)) ↔
      ¬ ∀ m', db.StoresBeside C m m' → Admissible m m' := by
    push Not
    refine exists_congr fun m' => and_congr_right fun _ => ?_
    rw [Admissible, not_and_or, Bool.not_eq_false, Bool.not_eq_false]
  rw [hadm]
  constructor
  · rintro h ⟨hmode, m', ⟨row, hr, hd⟩, hmode', ht⟩ hall
    -- the shared target alone makes the check fail
    cases hx : checkDuplicates C m (db.mappings.others m.id.val) with
    | ok u =>
      obtain ⟨m'', hm'', hdist⟩ := checkDuplicates_iff.1 hx row hr
      cases hd.symm.trans hm''
      exact hdist.2 ⟨hmode, hmode', ht.symm⟩
    | error e => exact h _ _ e (rejectDuplicates_exec.2 ⟨rfl, rfl, hx.symm⟩) ms hms (hlist.2 hall)
  · intro h tr db' e hr ms' hms' hok
    rw [hms] at hms'
    cases hms'
    have hall := hlist.1 hok
    have hshare : ¬ SharesTarget C db m := fun hs => h hs hall
    obtain ⟨-, -, hx⟩ := rejectDuplicates_exec.1 hr
    have hcheck : checkDuplicates C m (db.mappings.others m.id.val) = .ok () := by
      refine checkDuplicates_iff.2 fun row hrow => ?_
      obtain ⟨m', he, -⟩ := hinv.table.stored row (Sql.Table.mem_others.1 hrow).1
      refine ⟨m', he.decoded, hall m' ⟨row, hrow, he.decoded⟩, ?_⟩
      rintro ⟨hmode, hmode', ht⟩
      refine hshare ?_
      exact ⟨hmode, m', ⟨row, hrow, he.decoded⟩, hmode', ht.symm⟩
    rw [hcheck] at hx
    cases hx

/-- The config is stored in a new database. -/
theorem sampleConfig_set : (setEdgeConfig sampleCodec sampleConfig).Run storeEnv .fresh
    ((setEdgeConfig sampleCodec sampleConfig).eval sampleHandler .fresh).1 sampleDb (.ok ()) := by
  have hrun := eval_run sampleHandler_env (setEdgeConfig sampleCodec sampleConfig) .fresh
  have hok : ((setEdgeConfig sampleCodec sampleConfig).eval sampleHandler .fresh).2.2 = .ok () := by decide +kernel
  rw [hok] at hrun
  exact hrun

/-- A second one-to-one mapping of the sample target, on another edge address. -/
def sampleTwin : Mapping :=
  { sampleMapping with id := ⟨"twin", by decide, by decide⟩, edgePrivateIp := ⟨10, 0, 0, 102⟩ }

/-- The sample store after a one-to-one mapping was stored. -/
@[irreducible] def ownerDb : Db := sampleEdits [.insert sampleMapping] sampleDb

theorem ownerDb_storesBeside : ownerDb.StoresBeside sampleCodec sampleTwin sampleMapping := by
  have hrows : (ownerDb.mappings.others sampleTwin.id.val).map (fun row => (sampleCodec.rowToMapping row).toOption) =
      [some sampleMapping] := by
    unfold ownerDb
    decide +kernel
  obtain ⟨row, hlist, hdec⟩ := List.map_eq_singleton_iff.1 hrows
  refine ⟨row, by rw [hlist]; exact List.mem_singleton_self _, ?_⟩
  cases hx : sampleCodec.rowToMapping row with
  | ok m => rw [hx] at hdec; exact congrArg Except.ok (Option.some.inj hdec)
  | error e => rw [hx] at hdec; cases hdec

/-- The twin shares the target of a mapping that is enabled, and is refused for a conflict. -/
theorem rejects_only_conflicts_twin : SharesTarget sampleCodec ownerDb sampleTwin ∧
    RejectsOnlyConflicts sampleCodec sampleConfig ownerDb sampleTwin := by
  have hseq : Sequence sampleCodec [.insert sampleMapping] sampleDb ownerDb := by
    unfold ownerDb
    exact sampleEdits_sequence _ _
  refine ⟨⟨by decide, sampleMapping, ownerDb_storesBeside, by decide, by decide⟩, ?_⟩
  refine (rejects_only_conflicts_iff sampleConfig_set hseq (by decide)).2 fun _ => ?_
  exact ⟨sampleMapping, ownerDb_storesBeside, .inl (by decide)⟩

/-- The sample store after a one-to-one mapping was stored and disabled. -/
@[irreducible] def disabledOwnerDb : Db :=
  sampleEdits [.insert sampleMapping, .setEnabled sampleMapping.id false] sampleDb

theorem disabledOwnerDb_facts :
    checkDuplicates sampleCodec sampleTwin (disabledOwnerDb.mappings.others sampleTwin.id.val) =
        .error (.duplicateTargetIp ⟨192, 168, 20, 42⟩) ∧
      (decodeRows sampleCodec (disabledOwnerDb.mappings.others sampleTwin.id.val)).toOption.any (fun ms =>
        decide (validateMappings (ms ++ [sampleTwin]) sampleConfig = .ok ())) = true := by
  unfold disabledOwnerDb
  decide +kernel

/-- **A disabled mapping keeps its target**: the candidate is refused, though the list check accepts it. -/
theorem target_of_disabled_refused : ¬ ∀ (C : Codec) (config : EdgeConfig) (calls : List StoreCall) tr db₀ db m,
    (setEdgeConfig C config).Run storeEnv .fresh tr db₀ (.ok ()) → Sequence C calls db₀ db →
      validateMapping m config = .ok () → RejectsOnlyConflicts C config db m := by
  intro h
  have hseq : Sequence sampleCodec [.insert sampleMapping, .setEnabled sampleMapping.id false] sampleDb
      disabledOwnerDb := by
    unfold disabledOwnerDb
    exact sampleEdits_sequence _ _
  obtain ⟨hcheck, hany⟩ := disabledOwnerDb_facts
  obtain ⟨ms, hms, hok⟩ := (Option.any_eq_true _ _).1 hany
  have hdec : decodeRows sampleCodec (disabledOwnerDb.mappings.others sampleTwin.id.val) = .ok ms := by
    cases hd : decodeRows sampleCodec (disabledOwnerDb.mappings.others sampleTwin.id.val) with
    | ok ms' => rw [hd] at hms; cases hms; rfl
    | error e => rw [hd] at hms; cases hms
  exact h _ _ _ _ _ _ sampleTwin sampleConfig_set hseq (by decide) _ _ _
    (rejectDuplicates_exec.2 ⟨rfl, rfl, hcheck.symm⟩) ms hdec (of_decide_eq_true hok)

end EdgeRoute
