import EdgeRoute.Proof.Concurrent
import EdgeRoute.Proof.Render

/-!
# Sequences of edits

One client, one call after the other. The duplicate check then sees the table that the write
meets, and the three checks add up.

* `call_keeps`: every call, successful or failing, keeps the rows valid under the stored config
  and any two of them admissible beside each other.
* `edits_renderable`: after any sequence of calls the mappings can be listed, validated and rendered.
-/

namespace EdgeRoute

open Effect

variable {C : Codec} {m m' : Mapping} {row : Row} {db db' : Db} {config : EdgeConfig} {text : String}

/-- Calls one after the other, each with any outcome. -/
inductive Sequence (C : Codec) : List StoreCall → Db → Db → Prop where
  | nil {db : Db} : Sequence C [] db db
  | cons {call : StoreCall} {calls : List StoreCall} {db db₁ db' : Db} {tr : List (Event StoreSig)}
      {x : Except EdgeCoreError Unit} : (call.prog C).Run storeEnv db tr db₁ x →
      Sequence C calls db₁ db' → Sequence C (call :: calls) db db'

/-- **What the edits keep true**: the config, valid rows, any two admissible. -/
structure StoreInv (C : Codec) (config : EdgeConfig) (text : String) (db : Db) : Prop where
  stored : db.config = some text
  table : TableInv C (fun m => validateMapping m config = .ok ()) Admissible db.mappings

/-! ## Statements -/

theorem sat_sql {s : Stmt} {post : Db → Except EdgeCoreError s.Out → Prop}
    (h : ∀ (r : Except Sql.SqlError s.Out) db', storeEnv db (.sql s) r db' → post db' (r.mapError sqlError)) :
    (sql s).Sat storeEnv db post :=
  Prog.sat_call fun r db' hE => Prog.sat_ofExcept (h r db' hE)

theorem sat_nowUtc {post : Db → Except EdgeCoreError OffsetDateTime → Prop} (h : ∀ t, post db (.ok t)) :
    nowUtc.Sat storeEnv db post :=
  Prog.sat_call fun t db' hE => Prog.sat_ret (by cases hE; exact h t)

/-- No statement of a mapping operation touches the config. -/
theorem storeEnv_config {s : Stmt} {r : StoreSig.Reply (.sql s)} (hE : storeEnv db (.sql s) r db')
    (hs : ∀ value, s ≠ .upsertConfig value) : db'.config = db.config := by
  rcases hE with hE | ⟨message, -, rfl⟩
  · have hdb : db' = (db.exec s).2 := congrArg Prod.snd hE
    have hup : ∀ k f hf g, (db.updateMappings k f hf g).2.config = db.config := by
      intro k f hf g
      unfold Db.updateMappings
      split <;> rfl
    rw [hdb]
    cases s with
    | upsertConfig value => exact absurd rfl (hs value)
    | insertMapping row =>
      rw [Db.exec_insertMapping]
      split <;> rfl
    | updateMapping cols => exact hup ..
    | updateEnabled id enabled status updatedAt => exact hup ..
    | updateHealth id status healthStatus lastError lastCheckedAt updatedAt => exact hup ..
    | _ => rfl
  · rfl

/-- A read leaves the database as it is. -/
theorem sat_select {s : Stmt} (hs : ∀ db : Db, (db.exec s).2 = db) :
    (sql s).Sat storeEnv db fun db' x => db' = db ∧ ∀ out, x = .ok out → (db.exec s).1 = .ok out := by
  refine sat_sql fun r db' hE => ?_
  rcases hE with hE | ⟨message, rfl, rfl⟩
  · have hr : r = (db.exec s).1 := congrArg Prod.fst hE
    have hdb : db' = (db.exec s).2 := congrArg Prod.snd hE
    refine ⟨hdb.trans (hs db), fun out hout => ?_⟩
    rw [← hr]
    cases r with
    | ok out' => cases hout; rfl
    | error e => cases hout
  · exact ⟨rfl, fun out hout => nomatch hout⟩

/-! ## Methods -/

theorem sat_getMapping (id : MappingId) : (getMapping C id).Sat storeEnv db fun db' _ => db' = db := by
  refine Prog.sat_bind (Prog.sat_mono ?_ (sat_select fun _ => rfl))
  rintro db' x ⟨rfl, -⟩
  refine ⟨fun row _ => ?_, fun _ _ => rfl⟩
  cases row with
  | none => exact Prog.sat_fail rfl
  | some row => exact Prog.sat_ofExcept rfl

/-- A call reads the config that is stored. -/
theorem sat_requireEdgeConfig (hs : db.config = some text) (hj : C.configFromJson text = .ok config) :
    (requireEdgeConfig C).Sat storeEnv db fun db' x => db' = db ∧ ∀ c, x = .ok c → c = config := by
  refine Prog.sat_bind (Prog.sat_bind (Prog.sat_mono ?_ (sat_select fun _ => rfl)))
  rintro db' x ⟨rfl, hx⟩
  refine ⟨fun row hrow => ?_, fun e _ => ⟨fun a ha => (nomatch ha), fun e _ => ⟨rfl, fun c hc => nomatch hc⟩⟩⟩
  cases Except.ok.inj (hx row hrow)
  refine Prog.sat_ofExcept ⟨fun c hc => ?_, fun e _ => ⟨rfl, fun c hc => nomatch hc⟩⟩
  have hsome : c = some config := by
    rw [hs] at hc
    simp only [transposeMap, hj] at hc
    exact (Except.ok.inj hc).symm
  subst hsome
  exact Prog.sat_ret ⟨rfl, fun c hc => (Except.ok.inj hc).symm⟩

/-- The duplicate check looks at the table as it is. -/
theorem sat_rejectDuplicates (m : Mapping) : (rejectDuplicates C m).Sat storeEnv db fun db' x =>
    db' = db ∧ (x = .ok () → checkDuplicates C m (db.mappings.others m.id.val) = .ok ()) := by
  refine Prog.sat_bind (Prog.sat_mono ?_ (sat_select fun _ => rfl))
  rintro db' x ⟨rfl, hx⟩
  refine ⟨fun rows hrows => ?_, fun e _ => ⟨rfl, fun hc => nomatch hc⟩⟩
  cases Except.ok.inj (hx rows hrows)
  exact Prog.sat_ofExcept ⟨rfl, id⟩

/-- What `insert_mapping` and `update_mapping` know when they write. -/
structure Checks (C : Codec) (config : EdgeConfig) (db : Db) (m : Mapping) : Prop where
  valid : validateMapping m config = .ok ()
  unique : checkDuplicates C m (db.mappings.others m.id.val) = .ok ()

/-- The common start of `insert_mapping` and `update_mapping`. -/
theorem sat_checked {α : Type} {f : StoreProg α} {post : Db → Except EdgeCoreError α → Prop}
    (hs : db.config = some text) (hj : C.configFromJson text = .ok config)
    (hfail : ∀ e, post db (.error e)) (h : Checks C config db m → f.Sat storeEnv db post) :
    (do let config ← requireEdgeConfig C
        Prog.ofExcept (validateMapping m config)
        rejectDuplicates C m
        f : StoreProg α).Sat storeEnv db post := by
  refine Prog.sat_bind (Prog.sat_mono ?_ (sat_requireEdgeConfig hs hj))
  rintro db₁ x ⟨rfl, hx⟩
  refine ⟨fun c hc => ?_, fun e _ => hfail e⟩
  cases hx c hc
  refine Prog.sat_bind (Prog.sat_ofExcept ⟨fun _ hv => ?_, fun e _ => hfail e⟩)
  refine Prog.sat_bind (Prog.sat_mono ?_ (sat_rejectDuplicates m))
  rintro db₂ y ⟨rfl, hy⟩
  exact ⟨fun _ hd => h ⟨hv, hy hd⟩, fun e _ => hfail e⟩

/-! ## One call -/

theorem admissible_of_compatible (hc : Compatible m m') (hs : sharesPublicIp m m' = false) :
    Admissible m m' := by
  refine ⟨?_, hs⟩
  by_contra hconf
  rw [Bool.not_eq_false] at hconf
  have hen : m.enabled = true ∧ m'.enabled = true := by
    unfold conflicts at hconf
    split at hconf
    · cases hconf
    · rename_i h; simpa using h
  exact hc ⟨hen.1, hen.2, .inl hconf⟩

/-- The stored form `m'` of a mapping that passed the checks, beside a row that the constraints
let stand. -/
theorem admissible_of_checks {new : Row} {x : Mapping} (hchecks : Checks C config db m)
    (hnew : Encodes C new m') (hsame : ∀ x, sharesPublicIp m' x = sharesPublicIp m x)
    (hmode : validateMode m' = .ok ()) (hr : row ∈ db.mappings.others m.id.val) (hfree : ¬ new.Clash row)
    (hx : Encodes C row x) : Admissible m' x := by
  obtain ⟨x', hx', hdup⟩ := checkDuplicates_ok hchecks.unique hr
  cases hx.decoded.symm.trans hx'
  refine admissible_of_compatible (fun hc => hfree ((clash_iff hnew hx hmode).2 hc)) ?_
  rw [hsame]
  exact (checkDuplicate_ok hdup).1

section Calls

variable (hj : C.configFromJson text = .ok config) (h : StoreInv C config text db)

include hj h

theorem insertMapping_keeps (m : Mapping) :
    (insertMapping C m).Sat storeEnv db fun db' _ => StoreInv C config text db' := by
  refine sat_checked h.stored hj (fun _ => h) fun hchecks => ?_
  have hmode := (validateMapping_parts hchecks.valid).2.2.2.2.2
  refine Prog.sat_bind (Prog.sat_ofExcept ⟨fun row hrow => ?_, fun _ _ => h⟩)
  have he := encodes_insertRow (portsOk_of_valid hmode) hrow
  refine sat_sql fun r db' hE => ⟨(storeEnv_config hE (by simp)).trans h.stored, ?_⟩
  cases storeEnv_step hE with
  | same _ ht => rw [ht]; exact h.table
  | insert _ hid hfree ht =>
    refine h.table.insert ht he hchecks.valid fun row' hr x hx => ?_
    have hr' : row' ∈ db.mappings.others m.id.val :=
      Sql.Table.mem_others.2 ⟨hr, fun hk => hid row' hr (hk.trans he.id.symm)⟩
    exact admissible_of_checks hchecks he (fun _ => rfl) hmode hr' (hfree row' hr) hx

theorem updateMapping_keeps (m : Mapping) :
    (updateMapping C m).Sat storeEnv db fun db' _ => StoreInv C config text db' := by
  refine sat_checked h.stored hj (fun _ => h) fun hchecks => ?_
  have hmode := (validateMapping_parts hchecks.valid).2.2.2.2.2
  refine Prog.sat_bind (Prog.sat_ofExcept ⟨fun cols hcols => ?_, fun _ _ => h⟩)
  have hcid := (updateRow_columns hcols).1
  refine Prog.sat_bind (sat_sql fun r db' hE => ?_)
  have hinv : StoreInv C config text db' := by
    refine ⟨(storeEnv_config hE (by simp)).trans h.stored, ?_⟩
    cases storeEnv_step hE with
    | same _ ht => rw [ht]; exact h.table
    | update _ old ho hid hfree ht =>
      obtain ⟨m₀, he₀, -⟩ := h.table.stored old ho
      have he := encodes_replaced (portsOk_of_valid hmode) hcols he₀ hid
      rw [ht]
      refine h.table.set ho hid he hchecks.valid fun row' hr x hx => ?_
      exact admissible_of_checks hchecks he (fun _ => rfl) hmode (hcid ▸ hr) (hfree row' hr) hx
  refine ⟨fun n _ => ?_, fun _ _ => hinv⟩
  split
  · exact Prog.sat_fail hinv
  · exact Prog.sat_ret hinv

omit hj in
theorem setMappingEnabled_keeps (id : MappingId) (enabled : Bool) :
    (setMappingEnabled C id enabled).Sat storeEnv db fun db' _ => StoreInv C config text db' := by
  refine Prog.sat_bind (Prog.sat_ofExcept ⟨fun status hs => ?_, fun _ _ => h⟩)
  refine Prog.sat_bind (sat_nowUtc fun now => ⟨fun _ _ => ?_, fun _ _ => h⟩)
  refine Prog.sat_bind (Prog.sat_ofExcept ⟨fun updatedAt hu => ?_, fun _ _ => h⟩)
  refine Prog.sat_bind (sat_sql fun r db' hE => ?_)
  have hinv : StoreInv C config text db' := by
    refine ⟨(storeEnv_config hE (by simp)).trans h.stored, ?_⟩
    cases storeEnv_step hE with
    | same _ ht => rw [ht]; exact h.table
    | enable _ old _ _ _ ho hid hfree ht =>
      obtain ⟨m₀, he₀, hv⟩ := h.table.stored old ho
      have he := encodes_withEnabled enabled he₀ hs hu
      rw [ht]
      refine h.table.set ho hid he hv fun row' hr x hx => ?_
      -- the constraints speak for the conflicts, the row as it was for the public address
      have hmode := (validateMapping_parts hv).2.2.2.2.2
      have hcompat := fun hc => hfree row' hr ((clash_iff he hx hmode).2 hc)
      exact admissible_of_compatible hcompat (h.table.apart_others ho hid he₀ hr hx).2
  refine ⟨fun n _ => ?_, fun _ _ => hinv⟩
  exact Prog.sat_mono (fun db'' _ heq => by rw [heq]; exact hinv) (sat_getMapping id)

omit hj in
theorem setMappingHealth_keeps (id : MappingId) (status : MappingStatus)
    (healthStatus lastError : Option String) :
    (setMappingHealth C id status healthStatus lastError).Sat storeEnv db
      fun db' _ => StoreInv C config text db' := by
  refine Prog.sat_bind (Prog.sat_ofExcept ⟨fun status hs => ?_, fun _ _ => h⟩)
  refine Prog.sat_bind (sat_nowUtc fun _ => ⟨fun checked _ => ?_, fun _ _ => h⟩)
  refine Prog.sat_bind (Prog.sat_ofExcept ⟨fun lastCheckedAt hc => ?_, fun _ _ => h⟩)
  refine Prog.sat_bind (sat_nowUtc fun _ => ⟨fun now _ => ?_, fun _ _ => h⟩)
  refine Prog.sat_bind (Prog.sat_ofExcept ⟨fun updatedAt hu => ?_, fun _ _ => h⟩)
  refine Prog.sat_bind (sat_sql fun r db' hE => ?_)
  have hinv : StoreInv C config text db' := by
    refine ⟨(storeEnv_config hE (by simp)).trans h.stored, ?_⟩
    cases storeEnv_step hE with
    | same _ ht => rw [ht]; exact h.table
    | health _ old _ _ _ _ _ ho hid ht =>
      obtain ⟨m₀, he₀, hv⟩ := h.table.stored old ho
      have he := encodes_withHealth healthStatus lastError he₀ hs hc hu
      rw [ht]
      refine h.table.set ho hid he hv fun row' hr x hx => ?_
      have hold : Admissible m₀ x := h.table.apart_others ho hid he₀ hr hx
      exact hold
  refine ⟨fun n _ => ?_, fun _ _ => hinv⟩
  exact Prog.sat_mono (fun db'' _ heq => by rw [heq]; exact hinv) (sat_getMapping id)

omit hj in
theorem deleteMapping_keeps (id : MappingId) :
    (deleteMapping C id).Sat storeEnv db fun db' _ => StoreInv C config text db' := by
  refine Prog.sat_bind (Prog.sat_mono ?_ (sat_getMapping id))
  rintro db₁ x rfl
  refine ⟨fun _ _ => ?_, fun _ _ => h⟩
  refine Prog.sat_bind (sat_sql fun r db' hE => ?_)
  have hinv : StoreInv C config text db' := by
    refine ⟨(storeEnv_config hE (by simp)).trans h.stored, ?_⟩
    cases storeEnv_step hE with
    | same _ ht => rw [ht]; exact h.table
    | delete _ ht => rw [ht]; exact h.table.delete
  exact ⟨fun _ _ => Prog.sat_ret hinv, fun _ _ => hinv⟩

/-- **Every call keeps the invariant**, whatever its outcome. -/
theorem call_keeps (call : StoreCall) :
    (call.prog C).Sat storeEnv db fun db' _ => StoreInv C config text db' := by
  have drop : ∀ {α : Type} {p : StoreProg α}, p.Sat storeEnv db (fun db' _ => StoreInv C config text db') →
      (p.bind fun _ => Prog.ret ()).Sat storeEnv db fun db' _ => StoreInv C config text db' :=
    fun hp => Prog.sat_bind (Prog.sat_mono (fun _ _ h' => ⟨fun _ _ => Prog.sat_ret h', fun _ _ => h'⟩) hp)
  cases call with
  | insert m => exact insertMapping_keeps hj h m
  | update m => exact updateMapping_keeps hj h m
  | setEnabled id enabled => exact drop (setMappingEnabled_keeps h id enabled)
  | setHealth id status healthStatus lastError =>
    exact drop (setMappingHealth_keeps h id status healthStatus lastError)
  | delete id => exact drop (deleteMapping_keeps h id)

end Calls

/-! ## Sequences of calls -/

theorem sequence_keeps {calls : List StoreCall} (hj : C.configFromJson text = .ok config)
    (hseq : Sequence C calls db db') (h : StoreInv C config text db) : StoreInv C config text db' := by
  induction hseq with
  | nil => exact h
  | cons hr _ ih => exact ih ((call_keeps hj h _).of_run hr)

/-- `set_edge_config` on an empty database: the config is stored, and there are no mappings. -/
theorem setEdgeConfig_inv {tr : List (Event StoreSig)} {db₀ : Db}
    (hr : (setEdgeConfig C config).Run storeEnv .fresh tr db₀ (.ok ())) :
    ∃ text, C.configToJson config = .ok text ∧ StoreInv C config text db₀ := by
  have hsat : (setEdgeConfig C config).Sat storeEnv .fresh fun db x =>
      x = .ok () → ∃ text, C.configToJson config = .ok text ∧ StoreInv C config text db := by
    refine Prog.sat_bind (Prog.sat_ofExcept ⟨fun _ _ => ?_, fun e _ h => nomatch h⟩)
    refine Prog.sat_bind (Prog.sat_ofExcept ⟨fun text ht => ?_, fun e _ h => nomatch h⟩)
    refine sat_sql fun r db' hE hx => ⟨text, ?_, ?_⟩
    · cases hjson : C.configToJson config with
      | error e => rw [hjson] at ht; cases ht
      | ok text' => rw [hjson] at ht; cases ht; rfl
    · rcases hE with hE | ⟨message, rfl, -⟩
      · cases hE; exact ⟨rfl, .empty⟩
      · cases hx
  exact hsat.of_run hr rfl

/-- Valid rows that are pairwise admissible decode to a valid list. -/
theorem decodeRows_valid {rows : List Row}
    (hstored : ∀ row ∈ rows, ∃ m, Encodes C row m ∧ validateMapping m config = .ok ())
    (hapart : rows.Pairwise fun row row' => ∀ m m', Encodes C row m → Encodes C row' m' → Admissible m m') :
    ∃ ms, decodeRows C rows = .ok ms ∧ validateMappings ms config = .ok () ∧
      ∀ m ∈ ms, ∃ row ∈ rows, Encodes C row m := by
  induction rows with
  | nil => exact ⟨[], rfl, validateMappings_ok.2 ⟨by simp, .nil⟩, by simp⟩
  | cons row rows ih =>
    rw [List.forall_mem_cons] at hstored
    rw [List.pairwise_cons] at hapart
    obtain ⟨m, he, hv⟩ := hstored.1
    obtain ⟨ms, hms, hvalid, hfrom⟩ := ih hstored.2 hapart.2
    rw [validateMappings_ok] at hvalid
    refine ⟨m :: ms, ?_, validateMappings_ok.2 ⟨?_, ?_⟩, ?_⟩
    · simp only [decodeRows, he.decoded, hms]; rfl
    · exact List.forall_mem_cons.2 ⟨hv, hvalid.1⟩
    · refine List.pairwise_cons.2 ⟨fun m' hm' => ?_, hvalid.2⟩
      obtain ⟨row', hr', he'⟩ := hfrom m' hm'
      exact hapart.1 row' hr' m m' he he'
    · refine List.forall_mem_cons.2 ⟨⟨row, List.mem_cons_self, he⟩, fun m' hm' => ?_⟩
      obtain ⟨row', hr', he'⟩ := hfrom m' hm'
      exact ⟨row', List.mem_cons_of_mem _ hr', he'⟩

/-- The listing of an invariant store is a valid list. -/
theorem listing_valid (h : StoreInv C config text db) :
    ∃ ms, decodeRows C (db.mappings.rows.insertionSort Row.Before) = .ok ms ∧
      validateMappings ms config = .ok () := by
  have hperm := List.perm_insertionSort Row.Before db.mappings.rows
  have hstored : ∀ row ∈ db.mappings.rows.insertionSort Row.Before,
      ∃ m, Encodes C row m ∧ validateMapping m config = .ok () := fun row hr =>
    h.table.stored row (hperm.mem_iff.1 hr)
  have hapart := (hperm.pairwise_iff fun hrow => TableInv.symm_rows (R := Admissible) _ _ hrow).2
    h.table.apart.pairwise
  obtain ⟨ms, hms, hvalid, -⟩ := decodeRows_valid hstored hapart
  exact ⟨ms, hms, hvalid⟩

/-- The one run of `list_mappings`, when its statement is executed. -/
theorem listMappings_exec {tr : List (Event StoreSig)} {x : Except EdgeCoreError (List Mapping)} :
    (listMappings C).Run execEnv db tr db' x ↔
      tr = [⟨.sql .selectMappings, .ok (db.mappings.rows.insertionSort Row.Before)⟩] ∧ db' = db ∧
        x = decodeRows C (db.mappings.rows.insertionSort Row.Before) := by
  unfold listMappings sql
  rw [Prog.bind_eq, Prog.bind_call, Prog.run_call]
  constructor
  · rintro ⟨r, db₁, tr₁, rfl, hE, hr⟩
    cases hE
    obtain ⟨rfl, rfl, rfl⟩ := Prog.run_ofExcept.1 hr
    exact ⟨rfl, rfl, rfl⟩
  · rintro ⟨rfl, rfl, rfl⟩
    exact ⟨_, _, [], rfl, rfl, Prog.run_ofExcept.2 ⟨rfl, rfl, rfl⟩⟩

/-- **No sequence of edits produces a store that the renderer refuses.** After a config was stored in
a new database and any calls were made one after the other, successful or failing, the listing
succeeds, `validate_mappings` accepts it under that config, and it is rendered. -/
theorem edits_renderable {calls : List StoreCall} {tr : List (Event StoreSig)} {db₀ : Db}
    (hset : (setEdgeConfig C config).Run storeEnv .fresh tr db₀ (.ok ()))
    (hseq : Sequence C calls db₀ db) (rc : NftRenderConfig) :
    ∃ ms, ((∃ tr, (listMappings C).Run execEnv db tr db (.ok ms)) ∧
        ∀ tr db' x, (listMappings C).Run execEnv db tr db' x → x = .ok ms ∧ db' = db) ∧
      validateMappings ms config = .ok () ∧ ∃ text, renderNftables ms config rc = .ok text := by
  obtain ⟨text, hjson, hinv⟩ := setEdgeConfig_inv hset
  obtain ⟨ms, hms, hvalid⟩ := listing_valid (sequence_keeps (C.json_inverse hjson) hseq hinv)
  refine ⟨ms, ⟨⟨_, listMappings_exec.2 ⟨rfl, rfl, hms.symm⟩⟩, fun tr db' x hr => ?_⟩, hvalid,
    renderNftables_ok _ hvalid⟩
  obtain ⟨-, hdb, hx⟩ := listMappings_exec.1 hr
  exact ⟨hx.trans hms, hdb⟩

/-- Calls one after the other on the sample store. -/
def sampleEdits : List StoreCall → Db → Db
  | [], db => db
  | call :: calls, db => sampleEdits calls ((call.prog sampleCodec).eval sampleHandler db).2.1

theorem sampleEdits_sequence (calls : List StoreCall) (db : Db) :
    Sequence sampleCodec calls db (sampleEdits calls db) := by
  induction calls generalizing db with
  | nil => exact .nil
  | cons call calls ih => exact .cons (eval_run sampleHandler_env (call.prog sampleCodec) db) (ih _)

/-- A service is stored, switched off and on again, and a conflicting mapping is refused. -/
theorem edits_renderable_after_refused_insert : ∃ db₀ db ms,
    Sequence sampleCodec [.insert samplePortForward, .setEnabled samplePortForward.id false,
      .setEnabled samplePortForward.id true, .insert sampleMapping, .insert sampleDns] db₀ db ∧
    db.mappings.rows.length = 2 ∧ validateMappings ms sampleConfig = .ok () ∧
    ∃ text, renderNftables ms sampleConfig {} = .ok text := by
  have hset := eval_run sampleHandler_env (setEdgeConfig sampleCodec sampleConfig) Db.fresh
  have hok : ((setEdgeConfig sampleCodec sampleConfig).eval sampleHandler Db.fresh).2.2 = .ok () := by
    decide +kernel
  rw [hok] at hset
  have hseq := sampleEdits_sequence [.insert samplePortForward, .setEnabled samplePortForward.id false,
      .setEnabled samplePortForward.id true, .insert sampleMapping, .insert sampleDns]
    ((setEdgeConfig sampleCodec sampleConfig).eval sampleHandler Db.fresh).2.1
  obtain ⟨ms, -, hvalid, htext⟩ := edits_renderable hset hseq {}
  exact ⟨_, _, ms, hseq, by decide +kernel, hvalid, htext⟩

end EdgeRoute
