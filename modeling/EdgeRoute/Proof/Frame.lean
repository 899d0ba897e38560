import EdgeRoute.Proof.Stored

/-!
# What each call does to the rows

One call on a reachable store, with any outcome.

* `WriteCall.Effect`: what a call that returns does: one row is written, the others stay.
* `call_effect`: **a call that returns has its effect; one that fails has none**, unless it had
  written and then could not read the row back.
* `failed_after_write`: such a call.
-/

namespace EdgeRoute

open Effect

variable {C : Codec} {m m' : Mapping} {row row' : Row} {db db' : Db} {id : MappingId}

/-- The mapping stored under an id. -/
def Db.mapping (C : Codec) (db : Db) (id : MappingId) : Option Mapping :=
  (db.mappings.find id.val).bind fun row => (C.rowToMapping row).toOption

/-- The row of the id holds the mapping, and all other rows are as before. -/
structure Wrote (C : Codec) (id : MappingId) (m : Mapping) (db db' : Db) : Prop where
  row : db'.mapping C id = some m
  others : db'.mappings.others id.val = db.mappings.others id.val

/-- **What a call that returns does to the rows.** -/
def WriteCall.Effect (C : Codec) (db db' : Db) : WriteCall → Prop
  | .edit (.insert m) => db.mapping C m.id = none ∧ Wrote C m.id m db db'
  | .edit (.update m) => ∃ old, db.mapping C m.id = some old ∧
      Wrote C m.id { m with createdAt := old.createdAt } db db'
  | .edit (.setEnabled id enabled) => ∃ old now, db.mapping C id = some old ∧
      Wrote C id { old with enabled, status := if enabled then .pending else .disabled, updatedAt := now } db db'
  | .edit (.setHealth id status healthStatus lastError) => ∃ old checked now, db.mapping C id = some old ∧
      Wrote C id { old with status, healthStatus, lastError, lastCheckedAt := some checked, updatedAt := now } db db'
  | .edit (.delete id) => db'.mapping C id = none ∧ db'.mappings.others id.val = db.mappings.others id.val
  | _ => db'.mappings = db.mappings

/-- The id whose row the call reads again after its UPDATE. -/
def WriteCall.readsBack : WriteCall → Option MappingId
  | .edit (.setEnabled id _) => some id
  | .edit (.setHealth id _ _ _) => some id
  | _ => none

/-- The last statement of the call was a read of the row, and it failed. -/
def ReadBackFailed (id : MappingId) (tr : List (Event StoreSig)) : Prop :=
  ∃ pre message, tr = pre ++ [⟨.sql (.selectMapping id.val), .error (.unavailable message)⟩]

/-! ## Reads -/

theorem mapping_of_find {row : Row} (h : db.mappings.find id.val = some row) (hd : C.rowToMapping row = .ok m) :
    db.mapping C id = some m := by
  rw [Db.mapping, h, Option.bind_some, hd]
  rfl

theorem row_of_mapping (h : db.mapping C id = some m) :
    ∃ row, db.mappings.find id.val = some row ∧ C.rowToMapping row = .ok m := by
  obtain ⟨row, hfind, hd⟩ := Option.bind_eq_some_iff.1 h
  refine ⟨row, hfind, ?_⟩
  cases hx : C.rowToMapping row with
  | ok m' => rw [hx] at hd; cases hd; rfl
  | error e => rw [hx] at hd; cases hd

theorem mapping_congr {db'' : Db} (h : db''.mappings = db'.mappings) : db''.mapping C id = db'.mapping C id := by
  rw [Db.mapping, Db.mapping, h]

theorem Wrote.of_mappings {db'' : Db} (hw : Wrote C id m db db') (h : db''.mappings = db'.mappings) :
    Wrote C id m db db'' :=
  ⟨(mapping_congr h).trans hw.row, by rw [h]; exact hw.others⟩

/-- A statement is executed, or fails for a reason of its own. -/
theorem sql_run {s : Stmt} {tr : List (Event StoreSig)} {x : Except EdgeCoreError s.Out}
    (hr : (sql s).Run storeEnv db tr db' x) :
    (x = (db.exec s).1.mapError sqlError ∧ db' = (db.exec s).2) ∨
      ∃ message, (∃ e, x = .error e) ∧ db' = db ∧ tr = [⟨.sql s, .error (.unavailable message)⟩] := by
  obtain ⟨r, db₁, tr₁, rfl, hE, hret⟩ := Prog.run_call.1 hr
  obtain ⟨rfl, rfl, rfl⟩ := Prog.run_ofExcept.1 hret
  rcases hE with hE | ⟨message, rfl, rfl⟩
  · have hreply : r = (db.exec s).1 := congrArg Prod.fst hE
    exact .inl ⟨by rw [hreply], congrArg Prod.snd hE⟩
  · exact .inr ⟨message, ⟨_, rfl⟩, rfl, rfl⟩

/-- `get_mapping` returns what is stored, unless its statement fails. -/
theorem getMapping_run {tr : List (Event StoreSig)} {x : Except EdgeCoreError Mapping}
    (hr : (getMapping C id).Run storeEnv db tr db' x) : db' = db ∧
      ((db.mappings.find id.val = none ∧ x = .error (.notFound id)) ∨
        (∃ row, db.mappings.find id.val = some row ∧ x = C.rowToMapping row) ∨
        ((∃ e, x = .error e) ∧ ∃ message, tr = [⟨.sql (.selectMapping id.val), .error (.unavailable message)⟩])) := by
  rcases Prog.run_bind.1 hr with ⟨found, db₁, tr₁, tr₂, rfl, hs, hg⟩ | ⟨e, rfl, hs⟩
  · rcases sql_run hs with ⟨hx, hdb⟩ | ⟨message, ⟨e, hx⟩, -, -⟩
    · have hfound : found = db.mappings.find id.val := Except.ok.inj hx
      have hsame : db = db₁ := hdb.symm
      subst hfound hsame
      cases hf : db.mappings.find id.val with
      | none =>
        rw [hf] at hg
        obtain ⟨-, rfl, rfl⟩ := Prog.run_fail.1 hg
        exact ⟨rfl, .inl ⟨rfl, rfl⟩⟩
      | some row =>
        rw [hf] at hg
        obtain ⟨-, rfl, rfl⟩ := Prog.run_ofExcept.1 hg
        exact ⟨rfl, .inr (.inl ⟨row, rfl, rfl⟩)⟩
    · cases hx
  · rcases sql_run hs with ⟨hx, -⟩ | ⟨message, -, rfl, rfl⟩
    · cases hx
    · exact ⟨rfl, .inr (.inr ⟨⟨e, rfl⟩, message, rfl⟩)⟩

/-- Statements that change nothing. -/
def IsRead : StoreOp → Prop
  | .now | .sql .selectConfig | .sql (.selectMapping _) | .sql (.selectOthers _) => True
  | _ => False

theorem read_keeps {o : StoreOp} {r : StoreSig.Reply o} (h : IsRead o) (hE : storeEnv db o r db') : db' = db := by
  cases o with
  | now => exact hE
  | sql s =>
    rcases hE with hE | ⟨message, -, rfl⟩
    · have hdb : db' = (db.exec s).2 := congrArg Prod.snd hE
      rw [hdb]
      cases s with
      | selectConfig => rfl
      | selectMapping id => rfl
      | selectOthers id => rfl
      | _ => exact absurd h id
    · rfl

theorem sat_reads {α : Type} {p : StoreProg α} (h : p.Uses IsRead) : p.Sat storeEnv db fun db' _ => db' = db := by
  refine Prog.sat_of_uses (I := fun db' => db' = db) h ?_ rfl
  intro db₁ o r db₂ ho hE hI
  exact (read_keeps ho hE).trans hI

/-- What `insert_mapping` and `update_mapping` check before they write, under whatever config is stored. -/
theorem sat_vetted {α : Type} {f : StoreProg α} {post : Db → Except EdgeCoreError α → Prop}
    (hfail : ∀ e, post db (.error e)) (h : validateMode m = .ok () → f.Sat storeEnv db post) :
    (do let config ← requireEdgeConfig C
        Prog.ofExcept (validateMapping m config)
        rejectDuplicates C m
        f : StoreProg α).Sat storeEnv db post := by
  refine Prog.sat_bind (Prog.sat_mono ?_ (sat_reads (requireEdgeConfig_uses C trivial)))
  rintro db₁ x rfl
  refine ⟨fun config _ => ?_, fun e _ => hfail e⟩
  refine Prog.sat_bind (Prog.sat_ofExcept ⟨fun _ hv => ?_, fun e _ => hfail e⟩)
  refine Prog.sat_bind (Prog.sat_mono ?_ (sat_rejectDuplicates m))
  rintro db₂ y ⟨rfl, -⟩
  exact ⟨fun _ _ => h (validateMapping_parts hv).2.2.2.2.2, fun e _ => hfail e⟩

/-! ## The calls -/

/-- The outcome of a call that reads nothing back: its effect, or nothing. -/
def Outright (C : Codec) (call : WriteCall) (db db' : Db) (x : Except EdgeCoreError Unit) : Prop :=
  (x = .ok () → call.Effect C db db') ∧ ∀ e, x = .error e → db'.mappings = db.mappings

theorem outright_fail {call : WriteCall} {e : EdgeCoreError} : Outright C call db db (.error e) :=
  ⟨fun h => (nomatch h), fun _ _ => rfl⟩

theorem insert_outright (m : Mapping) :
    (insertMapping C m).Sat storeEnv db fun db' x => Outright C (.edit (.insert m)) db db' x := by
  refine sat_vetted (fun _ => outright_fail) fun hmode => ?_
  refine Prog.sat_bind (Prog.sat_ofExcept ⟨fun row hrow => ?_, fun _ _ => outright_fail⟩)
  have he := encodes_insertRow (portsOk_of_valid hmode) hrow
  refine sat_sql fun r db' hE => ⟨fun hx => ?_, fun e hx => ?_⟩
  · cases r with
    | error e => cases hx
    | ok u =>
      rcases hE with hE | ⟨message, hr, -⟩
      · rw [Db.exec_insertMapping] at hE
        cases hi : db.mappings.insert row with
        | error e => rw [hi] at hE; cases hE
        | ok t =>
          rw [hi] at hE
          cases hE
          obtain ⟨-, hk, -, ht⟩ := Sql.Table.insert_ok hi
          have hfresh : db.mappings.find m.id.val = none := by
            refine List.find?_eq_none.2 fun r hr => ?_
            have hne : r.id ≠ m.id.val := fun h => hk (List.mem_map.2 ⟨r, hr, h.trans he.id.symm⟩)
            exact fun h => hne (of_decide_eq_true h)
          have hfound : t.find m.id.val = some row := Sql.Table.find_of_mem (by rw [ht]; simp) he.id
          refine ⟨by rw [Db.mapping, hfresh]; rfl, mapping_of_find hfound he.decoded, ?_⟩
          rw [← he.id]
          exact Sql.Table.others_append ht
      · cases hr
  · rcases hE with hE | ⟨message, -, rfl⟩
    · rw [Db.exec_insertMapping] at hE
      cases hi : db.mappings.insert row with
      | error e => rw [hi] at hE; cases hE; rfl
      | ok t => rw [hi] at hE; cases hE; cases hx
    · rfl

/-- **An UPDATE by id**: refused, without a row, or the row of the id replaced. -/
theorem updateMappings_cases (db : Db) (k : String) {f : Row → Row} (hf : ∀ row, (f row).id = row.id)
    (guarded : Bool) :
    (∃ e, db.updateMappings k f hf guarded = (.error e, db)) ∨
    (db.mappings.find k = none ∧ db.updateMappings k f hf guarded = (.ok 0, db)) ∨
    ∃ old, db.mappings.find k = some old ∧
      db.updateMappings k f hf guarded = (.ok 1, { db with mappings := db.mappings.set k f hf }) := by
  unfold Db.updateMappings
  cases hu : db.mappings.update k f hf guarded with
  | error e => exact .inl ⟨e, rfl⟩
  | ok p =>
    obtain ⟨t, n⟩ := p
    rcases Sql.Table.update_ok hu with ⟨hnone, rfl, rfl⟩ | ⟨old, ho, rfl, rfl, -⟩
    · exact .inr (.inl ⟨hnone, rfl⟩)
    · exact .inr (.inr ⟨old, ho, rfl⟩)

/-- What was written is read again. -/
theorem wrote_set {k : String} {f : Row → Row} (hf : ∀ row, (f row).id = row.id) {old : Row} (hk : k = id.val)
    (ho : db.mappings.find k = some old) (hd : C.rowToMapping (f old) = .ok m)
    (hdb : db'.mappings = db.mappings.set k f hf) : Wrote C id m db db' := by
  subst hk
  refine ⟨mapping_of_find ?_ hd, ?_⟩
  · rw [hdb]
    exact Sql.Table.find_set hf ho
  · rw [hdb]
    exact Sql.Table.others_set

theorem update_outright (h : Reachable C db) (m : Mapping) :
    (updateMapping C m).Sat storeEnv db fun db' x => Outright C (.edit (.update m)) db db' x := by
  refine sat_vetted (fun _ => outright_fail) fun hmode => ?_
  refine Prog.sat_bind (Prog.sat_ofExcept ⟨fun cols hcols => ?_, fun _ _ => outright_fail⟩)
  have hid := (updateRow_columns hcols).1
  refine Prog.sat_bind (sat_sql fun r db' hE => ?_)
  rcases hE with hE | ⟨message, rfl, rfl⟩
  · rw [Db.exec_updateMapping] at hE
    rcases updateMappings_cases db cols.id cols.replaced_id true with ⟨e, hu⟩ | ⟨-, hu⟩ | ⟨old, ho, hu⟩
    · rw [hu] at hE
      cases hE
      exact ⟨fun n hn => (nomatch hn), fun _ _ => outright_fail⟩
    · rw [hu] at hE
      cases hE
      refine ⟨fun n hn => ?_, fun _ _ => outright_fail⟩
      cases hn
      exact Prog.sat_fail outright_fail
    · rw [hu] at hE
      cases hE
      refine ⟨fun n hn => ?_, fun e he => nomatch he⟩
      cases hn
      refine Prog.sat_ret ⟨fun _ => ?_, fun e he => nomatch he⟩
      obtain ⟨hold, hoid⟩ := Sql.Table.find_some ho
      obtain ⟨m₀, he₀⟩ := reachable_encodes h hold
      have he := encodes_replaced (portsOk_of_valid hmode) hcols he₀ hoid
      exact ⟨m₀, mapping_of_find (hid ▸ ho) he₀.decoded, wrote_set cols.replaced_id hid ho he.decoded rfl⟩
  · exact ⟨fun n hn => (nomatch hn), fun _ _ => outright_fail⟩

theorem delete_outright (id : MappingId) :
    ((deleteMapping C id).bind fun _ => .ret ()).Sat storeEnv db fun db' x =>
      Outright C (.edit (.delete id)) db db' x := by
  refine Prog.sat_bind (Prog.sat_bind (Prog.sat_mono ?_ (sat_getMapping id)))
  rintro db₁ x rfl
  refine ⟨fun _ _ => ?_, fun _ _ => ⟨fun _ h => (nomatch h), fun _ _ => outright_fail⟩⟩
  refine Prog.sat_bind (sat_sql fun r db' hE => ?_)
  rcases hE with hE | ⟨message, rfl, rfl⟩
  · cases hE
    refine ⟨fun _ _ => Prog.sat_ret ⟨fun _ _ => Prog.sat_ret ⟨fun _ => ?_, fun _ h => nomatch h⟩,
      fun _ h => nomatch h⟩, fun _ h => nomatch h⟩
    exact ⟨by rw [Db.mapping]; exact congrArg (Option.bind · _) Sql.Table.find_delete, Sql.Table.others_delete⟩
  · exact ⟨fun _ h => (nomatch h), fun _ _ => ⟨fun _ h => (nomatch h), fun _ _ => outright_fail⟩⟩

/-! ## Calls that read the row back -/

/-- An UPDATE of the row of `id` and a read of it: the call failed and changed nothing, or the row
was replaced and is returned, unless it could not be read. -/
theorem readBack_run {s : Stmt} {f : Row → Row} {hf : ∀ row, (f row).id = row.id} {tr : List (Event StoreSig)}
    {x : Except EdgeCoreError Mapping}
    (hs : (∃ e, db.exec s = (.error e, db)) ∨ (db.mappings.find id.val = none ∧ ∃ n, db.exec s = (.ok n, db)) ∨
      ∃ old n, db.mappings.find id.val = some old ∧
        db.exec s = (.ok n, { db with mappings := db.mappings.set id.val f hf }))
    (hr : ((sql s).bind fun _ => getMapping C id).Run storeEnv db tr db' x) :
    ((∃ e, x = .error e) ∧ db'.mappings = db.mappings) ∨
      ∃ old, db.mappings.find id.val = some old ∧ db'.mappings = db.mappings.set id.val f hf ∧
        (x = C.rowToMapping (f old) ∨ ((∃ e, x = .error e) ∧ ReadBackFailed id tr)) := by
  rcases Prog.run_bind.1 hr with ⟨out, db₁, tr₁, tr₂, rfl, hw, hg⟩ | ⟨e, rfl, hw⟩
  · rcases sql_run hw with ⟨hx, hdb₁⟩ | ⟨-, ⟨e, hx⟩, -, -⟩
    · obtain ⟨rfl, hget⟩ := getMapping_run hg
      rcases hs with ⟨e, hs⟩ | ⟨hnone, n, hs⟩ | ⟨old, n, ho, hs⟩
      · rw [hs] at hx; cases hx
      · -- no row has the id, so none is read either
        rw [hs] at hdb₁
        subst hdb₁
        refine .inl ⟨?_, rfl⟩
        rcases hget with ⟨-, rfl⟩ | ⟨row, hrow, -⟩ | ⟨he, -⟩
        · exact ⟨_, rfl⟩
        · rw [hnone] at hrow; cases hrow
        · exact he
      · rw [hs] at hdb₁
        have hfound : db'.mappings.find id.val = some (f old) := by
          rw [hdb₁]
          exact Sql.Table.find_set hf ho
        refine .inr ⟨old, ho, by rw [hdb₁], ?_⟩
        rcases hget with ⟨hnone, -⟩ | ⟨row, hrow, hx'⟩ | ⟨he, message, rfl⟩
        · rw [hfound] at hnone; cases hnone
        · rw [hfound] at hrow
          cases hrow
          exact .inl hx'
        · exact .inr ⟨he, tr₁, message, rfl⟩
    · cases hx
  · refine .inl ⟨⟨e, rfl⟩, ?_⟩
    rcases sql_run hw with ⟨hx, rfl⟩ | ⟨-, -, rfl, -⟩
    · rcases hs with ⟨e', hs⟩ | ⟨-, n, hs⟩ | ⟨old, n, -, hs⟩
      · rw [hs]
      · rw [hs] at hx; cases hx
      · rw [hs] at hx; cases hx
    · rfl

/-- The outcome of a call that reads back what it wrote: nothing was changed and it failed, or it had
its effect, and failed only at the read. -/
def ReadsBack (C : Codec) (call : WriteCall) (id : MappingId) (db db' : Db) (tr : List (Event StoreSig))
    (x : Except EdgeCoreError Mapping) : Prop :=
  ((∃ e, x = .error e) ∧ db'.mappings = db.mappings) ∨
    (call.Effect C db db' ∧ ∀ e, x = .error e → ReadBackFailed id tr)

section ReadsBack

variable {call : WriteCall} {tr : List (Event StoreSig)} {x : Except EdgeCoreError Mapping}

/-- A first part that only reads changes nothing about the outcome. -/
theorem readsBack_after {α : Type} {p : StoreProg α} {f : α → StoreProg Mapping} (hp : p.Uses IsRead)
    (hr : (p.bind f).Run storeEnv db tr db' x)
    (hf : ∀ a tr₁ tr₂, p.Run storeEnv db tr₁ db (.ok a) → (f a).Run storeEnv db tr₂ db' x →
      ReadsBack C call id db db' tr₂ x) : ReadsBack C call id db db' tr x := by
  rcases Prog.run_bind.1 hr with ⟨a, db₁, tr₁, tr₂, rfl, ha, hrest⟩ | ⟨e, rfl, he⟩
  · have hdb : db₁ = db := (sat_reads hp).of_run ha
    subst hdb
    rcases hf a tr₁ tr₂ ha hrest with h | ⟨heff, hread⟩
    · exact .inl h
    · refine .inr ⟨heff, fun e he => ?_⟩
      obtain ⟨pre, message, rfl⟩ := hread e he
      exact ⟨tr₁ ++ pre, message, (List.append_assoc _ _ _).symm⟩
  · have hdb : db' = db := (sat_reads hp).of_run he
    exact .inl ⟨⟨e, rfl⟩, by rw [hdb]⟩

theorem ok_of_run {α : Type} {y : Except EdgeCoreError α} {a : α} {tr₁ : List (Event StoreSig)}
    (h : (Prog.ofExcept y : StoreProg α).Run storeEnv db tr₁ db (.ok a)) : y = .ok a :=
  (Prog.run_ofExcept.1 h).2.2.symm

theorem setMappingEnabled_run (h : Reachable C db) {enabled : Bool}
    (hr : (setMappingEnabled C id enabled).Run storeEnv db tr db' x) :
    ReadsBack C (.edit (.setEnabled id enabled)) id db db' tr x := by
  refine readsBack_after Prog.uses_ofExcept hr fun status _ tr hs hr => ?_
  refine readsBack_after (uses_nowUtc trivial) hr fun now _ tr _ hr => ?_
  refine readsBack_after Prog.uses_ofExcept hr fun updatedAt _ tr hu hr => ?_
  have hcases := updateMappings_cases db id.val (Row.withEnabled_id enabled status updatedAt) true
  have hset := readBack_run (s := .updateEnabled id.val enabled status updatedAt)
    (hcases.imp (fun he => he) (Or.imp (fun hn => ⟨hn.1, 0, hn.2⟩) fun ⟨old, ho, hu⟩ => ⟨old, 1, ho, hu⟩)) hr
  rcases hset with hfail | ⟨old, ho, hdb, hx⟩
  · exact .inl hfail
  · obtain ⟨m₀, he₀⟩ := reachable_encodes h (Sql.Table.find_some ho).1
    have he := encodes_withEnabled enabled he₀ (ok_of_run hs) (ok_of_run hu)
    refine .inr ⟨⟨m₀, now, mapping_of_find ho he₀.decoded, ?_⟩, fun e hxe => ?_⟩
    · exact wrote_set (Row.withEnabled_id enabled status updatedAt) rfl ho he.decoded hdb
    · rcases hx with hx | ⟨-, hread⟩
      · rw [hx, he.decoded] at hxe; cases hxe
      · exact hread

theorem setMappingHealth_run (h : Reachable C db) {status : MappingStatus} {healthStatus lastError : Option String}
    (hr : (setMappingHealth C id status healthStatus lastError).Run storeEnv db tr db' x) :
    ReadsBack C (.edit (.setHealth id status healthStatus lastError)) id db db' tr x := by
  refine readsBack_after Prog.uses_ofExcept hr fun s _ tr hs hr => ?_
  refine readsBack_after (uses_nowUtc trivial) hr fun checked _ tr _ hr => ?_
  refine readsBack_after Prog.uses_ofExcept hr fun lastCheckedAt _ tr hc hr => ?_
  refine readsBack_after (uses_nowUtc trivial) hr fun now _ tr _ hr => ?_
  refine readsBack_after Prog.uses_ofExcept hr fun updatedAt _ tr hu hr => ?_
  have hcases := updateMappings_cases db id.val
    (Row.withHealth_id s healthStatus lastError lastCheckedAt updatedAt) false
  have hset := readBack_run (s := .updateHealth id.val s healthStatus lastError lastCheckedAt updatedAt)
    (hcases.imp (fun he => he) (Or.imp (fun hn => ⟨hn.1, 0, hn.2⟩) fun ⟨old, ho, hu⟩ => ⟨old, 1, ho, hu⟩)) hr
  rcases hset with hfail | ⟨old, ho, hdb, hx⟩
  · exact .inl hfail
  · obtain ⟨m₀, he₀⟩ := reachable_encodes h (Sql.Table.find_some ho).1
    have he := encodes_withHealth healthStatus lastError he₀ (ok_of_run hs) (ok_of_run hc) (ok_of_run hu)
    refine .inr ⟨⟨m₀, checked, now, mapping_of_find ho he₀.decoded, ?_⟩, fun e hxe => ?_⟩
    · exact wrote_set (Row.withHealth_id s healthStatus lastError lastCheckedAt updatedAt) rfl ho he.decoded hdb
    · rcases hx with hx | ⟨-, hread⟩
      · rw [hx, he.decoded] at hxe; cases hxe
      · exact hread

end ReadsBack

/-! ## Every call -/

/-- The calls beside the edits write no row. -/
theorem beside_rows {p : StoreProg Unit} (h : p.Uses IsBeside) :
    p.Sat storeEnv db fun db' _ => db'.mappings = db.mappings := by
  refine Prog.sat_of_uses (I := fun db' : Db => db'.mappings = db.mappings) h ?_ rfl
  intro db₁ o r db₂ ho hE hI
  cases storeEnv_step hE with
  | same _ ht => exact ht.trans hI
  | insert _ _ _ _ => exact absurd ho id
  | update _ _ _ _ _ _ => exact absurd ho id
  | enable _ _ _ _ _ _ _ _ _ => exact absurd ho id
  | health _ _ _ _ _ _ _ _ _ _ => exact absurd ho id
  | delete _ _ => exact absurd ho id

/-- What a call did to the rows, by its outcome. -/
def WriteCall.Outcome (C : Codec) (call : WriteCall) (db db' : Db) (tr : List (Event StoreSig))
    (x : Except EdgeCoreError Unit) : Prop :=
  (x = .ok () → call.Effect C db db') ∧
    ∀ e, x = .error e → db'.mappings = db.mappings ∨
      (call.Effect C db db' ∧ ∃ id, call.readsBack = some id ∧ ReadBackFailed id tr)

theorem Outright.outcome {call : WriteCall} {tr : List (Event StoreSig)} {x : Except EdgeCoreError Unit}
    (h : Outright C call db db' x) : call.Outcome C db db' tr x :=
  ⟨h.1, fun e he => .inl (h.2 e he)⟩

theorem outcome_of_readsBack {call : WriteCall} {tr : List (Event StoreSig)} {p : StoreProg Mapping}
    {x : Except EdgeCoreError Unit} (hid : call.readsBack = some id)
    (hp : ∀ tr x, p.Run storeEnv db tr db' x → ReadsBack C call id db db' tr x)
    (hr : (p.bind fun _ => .ret ()).Run storeEnv db tr db' x) : call.Outcome C db db' tr x := by
  rcases Prog.run_bind.1 hr with ⟨m, db₁, tr₁, tr₂, rfl, hm, hret⟩ | ⟨e, rfl, he⟩
  · obtain ⟨rfl, rfl, rfl⟩ := Prog.run_ret.1 hret
    rcases hp _ _ hm with ⟨⟨e, hx⟩, -⟩ | ⟨heff, -⟩
    · cases hx
    · exact ⟨fun _ => heff, fun e he => nomatch he⟩
  · refine ⟨fun h => (nomatch h), fun e' _ => ?_⟩
    rcases hp _ _ he with ⟨-, hsame⟩ | ⟨heff, hread⟩
    · exact .inl hsame
    · exact .inr ⟨heff, id, hid, hread e rfl⟩

theorem call_outcome (h : Reachable C db) (call : WriteCall) {tr : List (Event StoreSig)}
    {x : Except EdgeCoreError Unit} (hr : (call.prog C).Run storeEnv db tr db' x) :
    call.Outcome C db db' tr x := by
  have beside : ∀ {p : StoreProg Unit}, p.Uses IsBeside → p.Run storeEnv db tr db' x →
      (db'.mappings = db.mappings → call.Effect C db db') → call.Outcome C db db' tr x := fun hu hr heff =>
    have hsame := (beside_rows hu).of_run hr
    ⟨fun _ => heff hsame, fun _ _ => .inl hsame⟩
  cases call with
  | edit call =>
    cases call with
    | insert m => exact ((insert_outright m).of_run hr).outcome
    | update m => exact ((update_outright h m).of_run hr).outcome
    | setEnabled id enabled => exact outcome_of_readsBack rfl (fun _ _ hr => setMappingEnabled_run h hr) hr
    | setHealth id status healthStatus lastError =>
      exact outcome_of_readsBack rfl (fun _ _ hr => setMappingHealth_run h hr) hr
    | delete id => exact ((delete_outright id).of_run hr).outcome
  | setConfig config => exact beside (setEdgeConfig_beside config) hr fun h => h
  | ensureConfig config =>
    exact beside (Prog.uses_bind (ensureEdgeConfig_beside config) fun _ => Prog.uses_ret) hr fun h => h
  | generation status text appliedAt error =>
    refine beside (Prog.uses_bind ?_ fun _ => Prog.uses_ret) hr fun h => h
    exact recordGeneration_uses C trivial fun _ _ _ _ => trivial
  | event level message data =>
    exact beside (Prog.uses_bind (recordEvent_uses C trivial fun _ _ => trivial) fun _ => Prog.uses_ret) hr fun h => h

/-- `get_mapping`, its statement executed, returns the stored mapping. -/
theorem getMapping_exec {tr : List (Event StoreSig)} {x : Except EdgeCoreError Mapping}
    (h : db.mapping C id = some m) (hr : (getMapping C id).Run execEnv db tr db' x) : x = .ok m := by
  obtain ⟨row, hfind, hdec⟩ := row_of_mapping h
  unfold getMapping sql at hr
  rw [Prog.bind_eq, Prog.bind_call, Prog.run_call] at hr
  obtain ⟨r, db₁, tr₁, rfl, hE, hr⟩ := hr
  cases hE
  change (Prog.bind (.ret (db.mappings.find id.val)) _).Run _ _ _ _ _ at hr
  rw [Prog.bind_ret_left, hfind] at hr
  exact (Prog.run_ofExcept.1 hr).2.2.trans hdec

/-- **Rows and calls of a reachable store.** Every row decodes, and the listing, its statement executed,
returns. A call that returns writes one row and leaves the others, and what was inserted is read back. A call
that fails changes no row, unless it had written and the read of the row failed. -/
theorem call_effect (h : Reachable C db) :
    (∀ row ∈ db.mappings.rows, ∃ m, C.rowToMapping row = .ok m) ∧
    (∀ tr db' x, (listMappings C).Run execEnv db tr db' x → ∃ ms, x = .ok ms) ∧
    (∀ (call : WriteCall) tr db' x, (call.prog C).Run storeEnv db tr db' x → call.Outcome C db db' tr x) ∧
    ∀ m tr db', (insertMapping C m).Run storeEnv db tr db' (.ok ()) →
      ∀ tr' db'' x, (getMapping C m.id).Run execEnv db' tr' db'' x → x = .ok m := by
  refine ⟨fun row hr => ?_, fun tr db' x hr => ?_, fun call tr db' x hr => call_outcome h call hr,
    fun m tr db' hr tr' db'' x hg => ?_⟩
  · obtain ⟨m, he⟩ := reachable_encodes h hr
    exact ⟨m, he.decoded⟩
  · obtain ⟨ms, hms⟩ := reachable_listing h
    obtain ⟨-, -, hx⟩ := listMappings_exec.1 hr
    exact ⟨ms, hx.trans hms⟩
  · obtain ⟨-, hw⟩ := ((insert_outright m).of_run hr).1 rfl
    exact getMapping_exec hw.row hg

/-! ## A call that fails after its write -/

/-- The sample database with one service. -/
@[irreducible] def serviceDb : Db :=
  (steps sampleHandler [0, 1, 1, 1] ([], fun i =>
    ([WriteCall.setConfig sampleConfig, .edit (.insert samplePortForward)].getD i
      (.setConfig sampleConfig)).prog sampleCodec, Db.fresh)).2.2

theorem serviceDb_reachable : Reachable sampleCodec serviceDb := by
  unfold serviceDb
  exact ⟨_, _, _, steps_reach sampleHandler_env _ _ .init⟩

/-- SQLite that is locked when a single row is read. -/
def lockedHandler : Handler StoreSig Db
  | db, .sql (.selectMapping _) => (.error (.unavailable "database is locked"), db)
  | db, o => sampleHandler db o

theorem lockedHandler_env (db : Db) (o : StoreSig.Op) :
    storeEnv db o (lockedHandler db o).1 (lockedHandler db o).2 := by
  unfold lockedHandler
  split
  · exact .inr ⟨_, rfl, rfl⟩
  · exact sampleHandler_env db o

/-- **A call that failed and changed a row**: the service was disabled, and the row could not be read back. -/
theorem failed_after_write : ¬ ∀ (C : Codec) (db : Db), Reachable C db → ∀ (call : WriteCall) tr db' e,
    (call.prog C).Run storeEnv db tr db' (.error e) → db'.mappings.rows = db.mappings.rows := by
  intro h
  have hrun := eval_run lockedHandler_env
    ((WriteCall.edit (.setEnabled samplePortForward.id false)).prog sampleCodec) serviceDb
  have hfacts : (((WriteCall.edit (.setEnabled samplePortForward.id false)).prog sampleCodec).eval lockedHandler
        serviceDb).2.2 = .error (.store "database is locked") ∧
      (((WriteCall.edit (.setEnabled samplePortForward.id false)).prog sampleCodec).eval lockedHandler
        serviceDb).2.1.mappings.rows ≠ serviceDb.mappings.rows := by
    unfold serviceDb
    decide +kernel
  rw [hfacts.1] at hrun
  exact hfacts.2 (h _ _ serviceDb_reachable _ _ _ _ hrun)

/-- A second service is stored beside the first: the rows decode and are listed, the call has its effect, and what
was inserted is read back. -/
theorem call_effect_service : ∃ tr db', (insertMapping sampleCodec sampleDns).Run storeEnv serviceDb tr db' (.ok ()) ∧
    (∀ row ∈ serviceDb.mappings.rows, ∃ m, sampleCodec.rowToMapping row = .ok m) ∧
    (∀ tr db' x, (listMappings sampleCodec).Run execEnv serviceDb tr db' x → ∃ ms, x = .ok ms) ∧
    (WriteCall.edit (.insert sampleDns)).Outcome sampleCodec serviceDb db' tr (.ok ()) ∧
    ∀ tr' db'' x, (getMapping sampleCodec sampleDns.id).Run execEnv db' tr' db'' x → x = .ok sampleDns := by
  have hrun := eval_run sampleHandler_env (insertMapping sampleCodec sampleDns) serviceDb
  have hok : ((insertMapping sampleCodec sampleDns).eval sampleHandler serviceDb).2.2 = .ok () := by
    unfold serviceDb
    decide +kernel
  rw [hok] at hrun
  obtain ⟨hrows, hlisted, heffect, hread⟩ := call_effect serviceDb_reachable
  exact ⟨_, _, hrun, hrows, hlisted, heffect (.edit (.insert sampleDns)) _ _ _ hrun, hread _ _ _ hrun⟩

end EdgeRoute
