import EdgeRoute.Proof.Constraints

/-!
# What the statements do to the table of mappings

* `exec_step`: a statement leaves the mappings alone or is one of five writes, and the
  guarded ones left no clash behind.
* `TableInv`: every row is the stored form of a mapping with `P`, and any two are related
  by `R`; `insert`, `set` and `delete` keep it.
-/

namespace EdgeRoute

open Effect

variable {C : Codec} {m m' : Mapping} {row row' : Row} {t t' : Sql.Table mappingsSchema} {db db' : Db}

/-- **What an answered operation can do to the mappings.** -/
inductive TableStep (t t' : Sql.Table mappingsSchema) : Event StoreSig → Prop where
  | same (e : Event StoreSig) (ht : t' = t) : TableStep t t' e
  | insert (row : Row) (hid : ∀ row' ∈ t.rows, row'.id ≠ row.id)
      (hfree : ∀ row' ∈ t.rows, ¬ row.Clash row') (ht : t'.rows = t.rows ++ [row]) :
      TableStep t t' ⟨.sql (.insertMapping row), .ok ()⟩
  | update (cols old : Row) (ho : old ∈ t.rows) (hid : old.id = cols.id)
      (hfree : ∀ row' ∈ t.others cols.id, ¬ (cols.replaced old).Clash row')
      (ht : t' = t.set cols.id cols.replaced cols.replaced_id) :
      TableStep t t' ⟨.sql (.updateMapping cols), .ok 1⟩
  | enable (id : String) (old : Row) (enabled : Bool) (status updatedAt : String) (ho : old ∈ t.rows)
      (hid : old.id = id)
      (hfree : ∀ row' ∈ t.others id, ¬ (old.withEnabled enabled status updatedAt).Clash row')
      (ht : t' = t.set id (Row.withEnabled enabled status updatedAt)
        (Row.withEnabled_id enabled status updatedAt)) :
      TableStep t t' ⟨.sql (.updateEnabled id enabled status updatedAt), .ok 1⟩
  | health (id : String) (old : Row) (status : String) (healthStatus lastError : Option String)
      (lastCheckedAt updatedAt : String) (ho : old ∈ t.rows) (hid : old.id = id)
      (ht : t' = t.set id (Row.withHealth status healthStatus lastError lastCheckedAt updatedAt)
        (Row.withHealth_id status healthStatus lastError lastCheckedAt updatedAt)) :
      TableStep t t'
        ⟨.sql (.updateHealth id status healthStatus lastError lastCheckedAt updatedAt), .ok 1⟩
  | delete (id : String) (ht : t' = t.delete id) : TableStep t t' ⟨.sql (.deleteMapping id), .ok ()⟩

/-- A guarded or plain UPDATE: nothing changed, or the row of the id was replaced. -/
theorem updateMappings_step (db : Db) (k : String) {f : Row → Row} (hf : ∀ row, (f row).id = row.id)
    (guarded : Bool) : (db.updateMappings k f hf guarded).2.mappings = db.mappings ∨
      ∃ old ∈ db.mappings.rows, old.id = k ∧ (db.updateMappings k f hf guarded).1 = .ok 1 ∧
        (db.updateMappings k f hf guarded).2.mappings = db.mappings.set k f hf ∧
        (guarded = true → ∀ row' ∈ db.mappings.others k, ¬ (f old).Clash row') := by
  unfold Db.updateMappings
  cases hu : db.mappings.update k f hf guarded with
  | error e => exact .inl rfl
  | ok p =>
    obtain ⟨t, n⟩ := p
    rcases Sql.Table.update_ok hu with ⟨-, rfl, -⟩ | ⟨old, ho, rfl, rfl, hg⟩
    · exact .inl rfl
    · obtain ⟨hm, hk⟩ := Sql.Table.find_some ho
      refine .inr ⟨old, hm, hk, rfl, rfl, fun hg' row' hr hc => ?_⟩
      obtain ⟨h1, h2⟩ := hg hg'
      have hno : rejectConflictUpdate db.mappings.rows (f old) = none := h1
      rw [rejectConflictUpdate_eq ((hf old).trans hk)] at hno
      rcases guard_iff.2 ⟨row', hr, hc⟩ with h | h
      · exact h hno
      · exact h h2

theorem exec_step (db : Db) (s : Stmt) :
    TableStep db.mappings (db.exec s).2.mappings ⟨.sql s, (db.exec s).1⟩ := by
  cases s with
  | insertMapping row =>
    rw [Db.exec_insertMapping]
    cases hi : db.mappings.insert row with
    | error e => exact .same _ rfl
    | ok t =>
      obtain ⟨h1, hk, h2, ht⟩ := Sql.Table.insert_ok hi
      refine .insert row (fun row' hr hid => hk (List.mem_map.2 ⟨row', hr, hid⟩))
        (fun row' hr hc => ?_) ht
      rcases guard_iff.2 ⟨row', hr, hc⟩ with h | h
      · exact h h1
      · exact h h2
  | updateMapping cols =>
    rcases updateMappings_step db cols.id cols.replaced_id true with h | ⟨old, ho, hid, hr, ht, hfree⟩
    · exact .same _ h
    · rw [Db.exec_updateMapping, hr]
      exact .update cols old ho hid (hfree rfl) ht
  | updateEnabled id enabled status updatedAt =>
    rcases updateMappings_step db id (Row.withEnabled_id enabled status updatedAt) true with
      h | ⟨old, ho, hid, hr, ht, hfree⟩
    · exact .same _ h
    · rw [Db.exec_updateEnabled, hr]
      exact .enable id old enabled status updatedAt ho hid (hfree rfl) ht
  | updateHealth id status healthStatus lastError lastCheckedAt updatedAt =>
    rcases updateMappings_step db id
      (Row.withHealth_id status healthStatus lastError lastCheckedAt updatedAt) false with h | ⟨old, ho, hid, hr, ht, -⟩
    · exact .same _ h
    · rw [Db.exec_updateHealth, hr]
      exact .health id old status healthStatus lastError lastCheckedAt updatedAt ho hid ht
  | deleteMapping id => exact .delete id rfl
  | _ => exact .same _ rfl

/-- The same in the environment, where a statement may also fail for a reason of its own. -/
theorem storeEnv_step {o : StoreSig.Op} {r : StoreSig.Reply o} (h : storeEnv db o r db') :
    TableStep db.mappings db'.mappings ⟨o, r⟩ := by
  cases o with
  | now => cases h; exact .same _ rfl
  | sql s =>
    rcases h with h | ⟨message, -, rfl⟩
    · have hr : r = (db.exec s).1 := congrArg Prod.fst h
      have hdb : db' = (db.exec s).2 := congrArg Prod.snd h
      rw [hr, hdb]; exact exec_step db s
    · exact .same _ rfl

/-! ## Invariants of the table -/

/-- Every row is the stored form of a mapping with `P`, and any two are related by `R`. -/
structure TableInv (C : Codec) (P : Mapping → Prop) (R : Mapping → Mapping → Prop)
    (t : Sql.Table mappingsSchema) : Prop where
  stored : ∀ row ∈ t.rows, ∃ m, Encodes C row m ∧ P m
  apart : t.Apart fun row row' => ∀ m m', Encodes C row m → Encodes C row' m' → R m m'

namespace TableInv

variable {P : Mapping → Prop} {R : Mapping → Mapping → Prop}

theorem empty : TableInv C P R .empty :=
  ⟨fun _ h => absurd h (by simp [Sql.Table.empty]), Sql.Table.apart_empty⟩

theorem symm_rows [Std.Symm R] (row row' : Row) (h : ∀ m m', Encodes C row m → Encodes C row' m' → R m m') :
    ∀ m m', Encodes C row' m → Encodes C row m' → R m m' :=
  fun m m' he he' => Std.Symm.symm _ _ (h m' m he' he)

/-- A row that encodes a mapping encodes no other. -/
theorem encodes_unique (h : Encodes C row m) (h' : Encodes C row m') : m = m' :=
  Except.ok.inj (h.decoded.symm.trans h'.decoded)

theorem insert [Std.Symm R] (h : TableInv C P R t) (ht : t'.rows = t.rows ++ [row]) (he : Encodes C row m) (hP : P m)
    (hnew : ∀ row' ∈ t.rows, ∀ m', Encodes C row' m' → R m m') : TableInv C P R t' := by
  refine ⟨fun r hr => ?_, Sql.Table.apart_insert symm_rows ht h.apart fun r hr m₁ m' he₁ he' => ?_⟩
  · rw [ht, List.mem_append, List.mem_singleton] at hr
    rcases hr with hr | rfl
    · exact h.stored r hr
    · exact ⟨m, he, hP⟩
  · rw [encodes_unique he₁ he]; exact hnew r hr m' he'

theorem set [Std.Symm R] {k : String} {f : Row → Row} {hf : ∀ row, (f row).id = row.id} {old : Row}
    (h : TableInv C P R t) (ho : old ∈ t.rows) (hk : old.id = k) (he : Encodes C (f old) m) (hP : P m)
    (hnew : ∀ row' ∈ t.others k, ∀ m', Encodes C row' m' → R m m') :
    TableInv C P R (t.set k f hf) := by
  have hold : ∀ r ∈ t.rows, r.id = k → r = old := fun r hr hrk =>
    Sql.Table.eq_of_key_eq hr ho (hrk.trans hk.symm)
  refine ⟨fun r hr => ?_, Sql.Table.apart_update symm_rows h.apart fun o hom hok r hr m₁ m' he₁ he' => ?_⟩
  · rcases Sql.Table.mem_set.1 hr with ⟨hr, -⟩ | ⟨o, hom, hok, rfl⟩
    · exact h.stored r hr
    · rw [hold o hom hok]; exact ⟨m, he, hP⟩
  · rw [hold o hom hok] at he₁
    rw [encodes_unique he₁ he]; exact hnew r hr m' he'

theorem delete {k : String} (h : TableInv C P R t) : TableInv C P R (t.delete k) :=
  ⟨fun r hr => h.stored r (Sql.Table.mem_others.1 hr).1, Sql.Table.apart_delete h.apart⟩

/-- What a row owes the rows with another id. -/
theorem apart_others {old : Row} {k : String} (h : TableInv C P R t) (ho : old ∈ t.rows) (hk : old.id = k)
    (he : Encodes C old m) (hr : row ∈ t.others k) (he' : Encodes C row m') : R m m' := by
  obtain ⟨hr, hrk⟩ := Sql.Table.mem_others.1 hr
  exact h.apart old ho row hr (fun hid => hrk (hid.symm.trans hk)) m m' he he'

end TableInv

end EdgeRoute
