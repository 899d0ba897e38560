import EdgeRoute.Proof.Table

/-!
# Concurrent clients of the store

Any number of clients, their statements interleaved in any order. The duplicate check of a
call and its write are two statements, with those of others in between.

* `enabled_rows_apart`: the constraints keep the enabled rows apart in every reachable table.
* `public_rows_apart`: the rule on public addresses, which also speaks about disabled rows, holds
  in the runs in which no duplicate check is overtaken; `disable_between_check_and_insert` is a
  run in which one is.
-/

namespace EdgeRoute

open Effect

variable {C : Codec} {m m' : Mapping} {row row' : Row} {db db₀ : Db}

/-! ## What a call may ask for -/

/-- What a call remembers: the id it checked for duplicates, and the rows it saw. -/
abbrev Checked := Option (String × List Row)

/-- `m` passed the validation, and the duplicate check on the rows seen. -/
def Vetted (C : Codec) (q : Checked) (m : Mapping) : Prop :=
  (∃ config, validateMapping m config = .ok ()) ∧
    ∃ rows, q = some (m.id.val, rows) ∧ checkDuplicates C m rows = .ok ()

def StmtOk (C : Codec) (q : Checked) : Stmt → Prop
  | .insertMapping row => ∃ m, C.insertRow m = .ok row ∧ Vetted C q m
  | .updateMapping cols => ∃ m, C.updateRow m = .ok cols ∧ Vetted C q m
  | .updateEnabled _ _ status updatedAt =>
    (∃ v, enumString MappingStatus.names v = .ok status) ∧ ∃ now, C.formatTime now = .ok updatedAt
  | .updateHealth _ status _ _ lastCheckedAt updatedAt =>
    (∃ v, enumString MappingStatus.names v = .ok status) ∧
      (∃ now, C.formatTime now = .ok lastCheckedAt) ∧ ∃ now, C.formatTime now = .ok updatedAt
  | _ => True

def nextChecked (q : Checked) : Event StoreSig → Checked
  | ⟨.sql (.selectOthers id), .ok rows⟩ => some (id, rows)
  | _ => q

def storeMonitor (C : Codec) : Monitor StoreSig Checked where
  allow q o := match o with
    | .sql s => StmtOk C q s
    | .now => True
  next := nextChecked

section Calls

variable {α : Type} {q : Checked}

theorem sql_ok {s : Stmt} {post : Checked → s.Out → Prop} (hs : StmtOk C q s)
    (h : ∀ out : s.Out, post (nextChecked q ⟨.sql s, .ok out⟩) out) :
    (sql s).wpOk (storeMonitor C) post q := by
  refine Prog.wpOk_call hs fun r => ?_
  cases r with
  | ok out => exact Prog.wpOk_ret (h out)
  | error e => exact Prog.wpOk_fail

theorem nowUtc_ok {post : Checked → OffsetDateTime → Prop} (h : ∀ t, post q t) :
    nowUtc.wpOk (storeMonitor C) post q :=
  Prog.wpOk_call trivial fun t => Prog.wpOk_ret (h t)

theorem getMapping_ok (id : MappingId) :
    (getMapping C id).wpOk (storeMonitor C) (fun _ _ => True) q := by
  refine Prog.wpOk_bind (sql_ok trivial fun row => ?_)
  cases row with
  | none => exact Prog.wpOk_fail
  | some row => exact Prog.wpOk_ofExcept fun _ _ => trivial

theorem requireEdgeConfig_ok :
    (requireEdgeConfig C).wpOk (storeMonitor C) (fun _ _ => True) q := by
  refine Prog.wpOk_bind (Prog.wpOk_bind (sql_ok trivial fun text => ?_))
  refine Prog.wpOk_ofExcept fun config _ => ?_
  cases config with
  | none => exact Prog.wpOk_fail
  | some config => exact Prog.wpOk_ret trivial

/-- After the duplicate check a call has seen the rows it passed on. -/
theorem rejectDuplicates_ok (m : Mapping) : (rejectDuplicates C m).wpOk (storeMonitor C)
    (fun q _ => ∃ rows, q = some (m.id.val, rows) ∧ checkDuplicates C m rows = .ok ()) q := by
  refine Prog.wpOk_bind (sql_ok trivial fun rows => ?_)
  exact Prog.wpOk_ofExcept fun _ h => ⟨rows, rfl, h⟩

/-- **Every call keeps to the monitor**: what it writes was vetted, and its status and
time columns are well formed. -/
theorem prog_ok (call : StoreCall) (q : Checked) :
    (call.prog C).wpOk (storeMonitor C) (fun _ _ => True) q := by
  cases call with
  | insert m =>
    refine Prog.wpOk_bind (Prog.wpOk_mono (fun q config _ => ?_) requireEdgeConfig_ok)
    refine Prog.wpOk_bind (Prog.wpOk_ofExcept fun _ hv => ?_)
    refine Prog.wpOk_bind (Prog.wpOk_mono (fun q _ hd => ?_) (rejectDuplicates_ok m))
    refine Prog.wpOk_bind (Prog.wpOk_ofExcept fun row hr => ?_)
    exact sql_ok ⟨m, hr, ⟨config, hv⟩, hd⟩ fun _ => trivial
  | update m =>
    refine Prog.wpOk_bind (Prog.wpOk_mono (fun q config _ => ?_) requireEdgeConfig_ok)
    refine Prog.wpOk_bind (Prog.wpOk_ofExcept fun _ hv => ?_)
    refine Prog.wpOk_bind (Prog.wpOk_mono (fun q _ hd => ?_) (rejectDuplicates_ok m))
    refine Prog.wpOk_bind (Prog.wpOk_ofExcept fun row hr => ?_)
    refine Prog.wpOk_bind (sql_ok ⟨m, hr, ⟨config, hv⟩, hd⟩ fun n => ?_)
    split
    · exact Prog.wpOk_fail
    · exact Prog.wpOk_ret trivial
  | setEnabled id enabled =>
    refine Prog.wpOk_bind (Prog.wpOk_bind (Prog.wpOk_ofExcept fun status hs => ?_))
    refine Prog.wpOk_bind (nowUtc_ok fun now => ?_)
    refine Prog.wpOk_bind (Prog.wpOk_ofExcept fun updatedAt hu => ?_)
    refine Prog.wpOk_bind (sql_ok ⟨⟨_, hs⟩, _, hu⟩ fun n => ?_)
    exact Prog.wpOk_mono (fun _ _ _ => Prog.wpOk_ret trivial) (getMapping_ok id)
  | setHealth id status healthStatus lastError =>
    refine Prog.wpOk_bind (Prog.wpOk_bind (Prog.wpOk_ofExcept fun status hs => ?_))
    refine Prog.wpOk_bind (nowUtc_ok fun checked => ?_)
    refine Prog.wpOk_bind (Prog.wpOk_ofExcept fun lastCheckedAt hc => ?_)
    refine Prog.wpOk_bind (nowUtc_ok fun now => ?_)
    refine Prog.wpOk_bind (Prog.wpOk_ofExcept fun updatedAt hu => ?_)
    refine Prog.wpOk_bind (sql_ok ⟨⟨_, hs⟩, ⟨_, hc⟩, _, hu⟩ fun n => ?_)
    exact Prog.wpOk_mono (fun _ _ _ => Prog.wpOk_ret trivial) (getMapping_ok id)
  | delete id =>
    refine Prog.wpOk_bind (Prog.wpOk_bind (Prog.wpOk_mono (fun q _ _ => ?_) (getMapping_ok id)))
    refine Prog.wpOk_bind (sql_ok trivial fun _ => ?_)
    exact Prog.wpOk_ret (Prog.wpOk_ret trivial)

end Calls

/-! ## Sample runs -/

/-- SQLite without failures, under a stopped clock. -/
def sampleHandler : Handler StoreSig Db
  | db, .sql s => db.exec s
  | db, .now => (sampleTime, db)

theorem sampleHandler_env (db : Db) (o : StoreSig.Op) :
    storeEnv db o (sampleHandler db o).1 (sampleHandler db o).2 := by
  cases o with
  | sql s => exact .inl rfl
  | now => rfl

/-- A new database with the sample config. -/
def sampleDb : Db := { Db.fresh with config := some sampleJson }

/-- The clients of a sample run; the other calls are never made. -/
def sampleCalls (calls : List StoreCall) (i : ℕ) : StoreCall := calls.getD i (.delete sampleMapping.id)

def sampleRun (calls : List StoreCall) (schedule : List ℕ) :
    List (ℕ × Event StoreSig) × (ℕ → StoreProg Unit) × Db :=
  steps sampleHandler schedule ([], fun i => (sampleCalls calls i).prog sampleCodec, sampleDb)

theorem sampleRun_reach (calls : List StoreCall) (schedule : List ℕ) :
    Reach storeEnv (fun i => (sampleCalls calls i).prog sampleCodec) sampleDb
      (sampleRun calls schedule).1 (sampleRun calls schedule).2.1 (sampleRun calls schedule).2.2 :=
  steps_reach sampleHandler_env schedule _ .init

/-- Client 1 checks for duplicates before client 0 inserts, and inserts after it. -/
def twoServices : List (ℕ × Event StoreSig) × (ℕ → StoreProg Unit) × Db :=
  sampleRun [.insert samplePortForward, .insert sampleDns] [1, 1, 0, 0, 0, 1]

theorem twoServices_reach : Reach storeEnv
    (fun i => (sampleCalls [.insert samplePortForward, .insert sampleDns] i).prog sampleCodec) sampleDb
    twoServices.1 twoServices.2.1 twoServices.2.2 := by
  unfold twoServices
  exact sampleRun_reach _ _

/-! ## The enabled rows -/

/-- Two mappings that the constraints let stand beside each other. -/
def Compatible (m m' : Mapping) : Prop := ¬ EnabledClash m m'

instance : Std.Symm Compatible := ⟨fun _ _ h hc => h hc.symm⟩

/-- What the constraints alone keep true of the table. -/
abbrev EnabledApart (C : Codec) : Sql.Table mappingsSchema → Prop :=
  TableInv C (fun m => validateMode m = .ok ()) Compatible

theorem validateMode_of_vetted {q : Checked} (h : Vetted C q m) : validateMode m = .ok () := by
  obtain ⟨⟨config, hv⟩, -⟩ := h
  exact (validateMapping_parts hv).2.2.2.2.2

/-- **One statement of a call.** The new row clashes with no other, as a clash of rows is a
clash of mappings; the health UPDATE changes no column that the rule looks at. -/
theorem step_enabledApart {t t' : Sql.Table mappingsSchema} {q : Checked} {e : Event StoreSig}
    (h : EnabledApart C t) (hs : (storeMonitor C).allow q e.op) (hstep : TableStep t t' e) :
    EnabledApart C t' := by
  cases hstep with
  | same _ ht => rw [ht]; exact h
  | insert row hid hfree ht =>
    obtain ⟨m, hrow, hm⟩ := hs
    have hmode := validateMode_of_vetted hm
    have he := encodes_insertRow (portsOk_of_valid hmode) hrow
    exact h.insert ht he hmode fun r hr m' he' hc => hfree r hr ((clash_iff he he' hmode).2 hc)
  | update cols old ho hid hfree ht =>
    obtain ⟨m, hcols, hm⟩ := hs
    obtain ⟨m₀, he₀, -⟩ := h.stored old ho
    have hmode := validateMode_of_vetted hm
    have he := encodes_replaced (portsOk_of_valid hmode) hcols he₀ hid
    rw [ht]
    exact h.set ho hid he hmode fun r hr m' he' hc => hfree r hr ((clash_iff he he' hmode).2 hc)
  | enable id old enabled status updatedAt ho hid hfree ht =>
    obtain ⟨⟨v, hv⟩, now, hnow⟩ := hs
    obtain ⟨m₀, he₀, hmode⟩ := h.stored old ho
    have he := encodes_withEnabled enabled he₀ hv hnow
    rw [ht]
    exact h.set ho hid he hmode fun r hr m' he' hc => hfree r hr ((clash_iff he he' hmode).2 hc)
  | health id old status healthStatus lastError lastCheckedAt updatedAt ho hid ht =>
    obtain ⟨⟨v, hv⟩, ⟨checked, hchecked⟩, now, hnow⟩ := hs
    obtain ⟨m₀, he₀, hmode⟩ := h.stored old ho
    have he := encodes_withHealth healthStatus lastError he₀ hv hchecked
      hnow
    rw [ht]
    refine h.set ho hid he hmode fun r hr m' he' => ?_
    have hold : Compatible m₀ m' := h.apart_others ho hid he₀ hr he'
    exact hold
  | delete id ht => rw [ht]; exact h.delete

/-- **The constraints keep the enabled rows apart.** Whatever calls the clients make and
however their statements interleave, in every reachable table any two rows decode, and if both
are enabled they do not conflict and neither owns the public address of the other. -/
theorem enabled_rows_apart {calls : ℕ → StoreCall} {tr : List (ℕ × Event StoreSig)}
    {pool : ℕ → StoreProg Unit} (h0 : db₀.mappings = .empty)
    (hr : Reach storeEnv (fun i => (calls i).prog C) db₀ tr pool db) (hrow : row ∈ db.mappings.rows)
    (hrow' : row' ∈ db.mappings.rows) (hne : row ≠ row') :
    ∃ m m', C.rowToMapping row = .ok m ∧ C.rowToMapping row' = .ok m' ∧
      (m.enabled = true → m'.enabled = true → conflicts m m' = false ∧ sharesPublicIp m m' = false) := by
  have hinv : EnabledApart C db.mappings := by
    refine reach_inv (fun _ => none) (fun i => Prog.wpOk_iff.1 (prog_ok (calls i) none))
      (fun _ db => EnabledApart C db.mappings) ?_ ?_ hr
    · rw [h0]; exact .empty
    · intro tr db i o r db' h hallow hE
      exact step_enabledApart h hallow (storeEnv_step hE)
  obtain ⟨m, he, -⟩ := hinv.stored row hrow
  obtain ⟨m', he', -⟩ := hinv.stored row' hrow'
  refine ⟨m, m', he.decoded, he'.decoded, fun hen hen' => ?_⟩
  have hid : row.id ≠ row'.id := fun hid => hne (Sql.Table.eq_of_key_eq hrow hrow' hid)
  have hapart := hinv.apart row hrow row' hrow' hid m m' he he'
  constructor
  · by_contra hc
    exact hapart ⟨hen, hen', .inl (by simpa using hc)⟩
  · by_contra hc
    exact hapart ⟨hen, hen', .inr (by simpa using hc)⟩

/-- Two clients store two services of one address. -/
theorem enabled_rows_apart_two_services :
    ∃ row ∈ twoServices.2.2.mappings.rows, ∃ row' ∈ twoServices.2.2.mappings.rows, row ≠ row' ∧
      ∃ m m', sampleCodec.rowToMapping row = .ok m ∧ sampleCodec.rowToMapping row' = .ok m' ∧
        (m.enabled = true → m'.enabled = true →
          conflicts m m' = false ∧ sharesPublicIp m m' = false) := by
  obtain ⟨row, hr, row', hr', hne⟩ : ∃ row ∈ twoServices.2.2.mappings.rows,
      ∃ row' ∈ twoServices.2.2.mappings.rows, row ≠ row' := by decide +kernel
  exact ⟨row, hr, row', hr', hne, enabled_rows_apart rfl twoServices_reach hr hr' hne⟩

/-! ## The public addresses of all rows -/

/-- Two rows share a public address, and one of them is one-to-one. -/
def Row.SharesPublicIp (row row' : Row) : Prop :=
  row.publicIp ≠ none ∧ row.publicIp = row'.publicIp ∧
    (row.mode = "one_to_one_snat" ∨ row'.mode = "one_to_one_snat")

instance (row row' : Row) : Decidable (row.SharesPublicIp row') := inferInstanceAs (Decidable (_ ∧ _))

/-- The columns that an INSERT or a full UPDATE stored. -/
def written : Event StoreSig → Option Row
  | ⟨.sql (.insertMapping row), .ok _⟩ => some row
  | ⟨.sql (.updateMapping cols), .ok n⟩ => if n = (0 : ℕ) then none else some cols
  | _ => none

/-- A duplicate check that was answered. -/
def isCheck : Event StoreSig → Bool
  | ⟨.sql (.selectOthers _), .ok _⟩ => true
  | _ => false

/-- What was stored, by any call, since the duplicate check of call `i`. -/
def storedSinceCheck (i : ℕ) (tr : List (ℕ × Event StoreSig)) : List Row :=
  tr.foldl (fun acc x => if x.1 = i ∧ isCheck x.2 then [] else (written x.2).toList ++ acc) []

/-- **No check is overtaken**: when a call stores a row, no row that shares its public address
was stored since the call checked for duplicates. -/
def NoCheckOvertaken (tr : List (ℕ × Event StoreSig)) : Prop :=
  ∀ pre i e post, tr = pre ++ (i, e) :: post → ∀ row, written e = some row →
    ∀ row' ∈ storedSinceCheck i pre, row'.id ≠ row.id → ¬ row.SharesPublicIp row'

/-- Two rows agree on the columns that the public-address rule looks at. -/
def Row.SameOwner (row row' : Row) : Prop :=
  row.id = row'.id ∧ row.publicIp = row'.publicIp ∧ row.mode = row'.mode

theorem Row.SharesPublicIp.symm (h : row.SharesPublicIp row') : row'.SharesPublicIp row :=
  ⟨h.2.1 ▸ h.1, h.2.1.symm, h.2.2.symm⟩

theorem Row.SharesPublicIp.of_sameOwner {row₀ : Row} (ho : row₀.SameOwner row')
    (h : row.SharesPublicIp row') : row.SharesPublicIp row₀ :=
  ⟨h.1, h.2.1.trans ho.2.1.symm, by rw [ho.2.2]; exact h.2.2⟩

theorem storedSinceCheck_snoc (i j : ℕ) (tr : List (ℕ × Event StoreSig)) (e : Event StoreSig) :
    storedSinceCheck i (tr ++ [(j, e)]) =
      if j = i ∧ isCheck e then [] else (written e).toList ++ storedSinceCheck i tr := by
  simp [storedSinceCheck]

theorem mem_storedSinceCheck {i : ℕ} {tr : List (ℕ × Event StoreSig)} (h : row ∈ storedSinceCheck i tr) :
    ∃ x ∈ tr, written x.2 = some row := by
  induction tr using List.reverseRecOn with
  | nil => cases h
  | append_singleton tr x ih =>
    rw [storedSinceCheck_snoc] at h
    split at h
    · cases h
    rcases List.mem_append.1 h with h | h
    · exact ⟨x, by simp, by simpa using h⟩
    · obtain ⟨y, hy, hw⟩ := ih h
      exact ⟨y, List.mem_append_left _ hy, hw⟩

/-- Nothing is overtaken where no two stored rows share an address. -/
theorem noCheckOvertaken_of_apart {tr : List (ℕ × Event StoreSig)}
    (h : ∀ x ∈ tr, ∀ y ∈ tr, ∀ row ∈ written x.2, ∀ row' ∈ written y.2, ¬ row.SharesPublicIp row') :
    NoCheckOvertaken tr := by
  intro pre i e post ht row hw row' hr' _
  obtain ⟨y, hy, hw'⟩ := mem_storedSinceCheck hr'
  exact h (i, e) (by rw [ht]; simp) y (by rw [ht]; simp [hy]) row hw row' hw'

theorem NoCheckOvertaken.of_snoc {tr : List (ℕ × Event StoreSig)} {x : ℕ × Event StoreSig}
    (h : NoCheckOvertaken (tr ++ [x])) : NoCheckOvertaken tr :=
  fun pre i e post ht => h pre i e (post ++ [x]) (by rw [ht]; simp)

theorem nextChecked_of_not_check {q : Checked} {e : Event StoreSig} (h : isCheck e = false) :
    nextChecked q e = q := by
  unfold nextChecked
  split
  · cases h
  · rfl

/-- A row after an operation has the owner of a row before it, or was stored by it. -/
theorem step_rows {t t' : Sql.Table mappingsSchema} {e : Event StoreSig} (hstep : TableStep t t' e)
    (hr : row ∈ t'.rows) :
    (∃ row₀ ∈ t.rows, row₀.SameOwner row) ∨ ∃ w, written e = some w ∧ w.SameOwner row := by
  have keep : ∀ {k : String} {f : Row → Row} {hf : ∀ row, (f row).id = row.id},
      row ∈ (t.set k f hf).rows → (∀ r : Row, r.SameOwner (f r)) → ∃ row₀ ∈ t.rows, row₀.SameOwner row := by
    intro k f hf hr hown
    rcases Sql.Table.mem_set.1 hr with ⟨hr, -⟩ | ⟨old, ho, -, rfl⟩
    · exact ⟨row, hr, rfl, rfl, rfl⟩
    · exact ⟨old, ho, hown old⟩
  cases hstep with
  | same _ ht => rw [ht] at hr; exact .inl ⟨row, hr, rfl, rfl, rfl⟩
  | insert new _ _ ht =>
    rw [ht, List.mem_append, List.mem_singleton] at hr
    rcases hr with hr | rfl
    · exact .inl ⟨row, hr, rfl, rfl, rfl⟩
    · exact .inr ⟨row, rfl, rfl, rfl, rfl⟩
  | update cols old ho hid _ ht =>
    rw [ht] at hr
    rcases Sql.Table.mem_set.1 hr with ⟨hr, -⟩ | ⟨old', -, hid', rfl⟩
    · exact .inl ⟨row, hr, rfl, rfl, rfl⟩
    · exact .inr ⟨cols, rfl, hid'.symm, rfl, rfl⟩
  | enable id old enabled status updatedAt ho hid _ ht =>
    rw [ht] at hr; exact .inl (keep hr fun _ => ⟨rfl, rfl, rfl⟩)
  | health id old status healthStatus lastError lastCheckedAt updatedAt ho hid ht =>
    rw [ht] at hr; exact .inl (keep hr fun _ => ⟨rfl, rfl, rfl⟩)
  | delete id ht =>
    rw [ht] at hr; exact .inl ⟨row, (Sql.Table.mem_others.1 hr).1, rfl, rfl, rfl⟩

/-! ### The duplicate check -/

theorem checkDuplicatePublicIp_ok :
    checkDuplicatePublicIp m m' = .ok () ↔ sharesPublicIp m m' = false := by
  rw [← not_iff_not, Bool.not_eq_false, sharesPublicIp_iff]
  unfold checkDuplicatePublicIp
  cases hp : m.publicIp with
  | none => simp
  | some ip =>
    simp only [rejectIf_ok, Bool.not_eq_false, Bool.and_eq_true, Bool.or_eq_true, beq_iff_eq, ne_eq,
      reduceCtorEq, not_false_eq_true, true_and]
    rw [eq_comm (a := m'.publicIp), or_comm]

theorem checkDuplicate_ok (h : checkDuplicate m m' = .ok ()) :
    sharesPublicIp m m' = false ∧ conflicts m' m = false := by
  unfold checkDuplicate at h
  rw [except_seq_ok, checkDuplicatePublicIp_ok] at h
  obtain ⟨h1, h2⟩ := h
  refine ⟨h1, ?_⟩
  split at h2
  · cases h2
  · simpa using h2

theorem checkDuplicates_ok {rows : List Row} (h : checkDuplicates C m rows = .ok ())
    (hr : row ∈ rows) : ∃ m', C.rowToMapping row = .ok m' ∧ checkDuplicate m m' = .ok () := by
  induction rows with
  | nil => cases hr
  | cons r rows ih =>
    simp only [checkDuplicates, except_bind_ok (α := Mapping), except_seq_ok] at h
    obtain ⟨m', hm', hc, hrest⟩ := h
    rcases List.mem_cons.1 hr with rfl | hr
    · exact ⟨m', hm', hc⟩
    · exact ih hrest hr

/-- The stored form of a checked mapping shares no address with a row it was checked against. -/
theorem not_shares_of_checked {rows : List Row} {new : Row}
    (hip : new.publicIp = m.publicIp.map Ipv4Addr.toText)
    (hmode : enumString MappingMode.names m.mode = .ok new.mode)
    (hd : checkDuplicates C m rows = .ok ()) (hr : row ∈ rows) : ¬ new.SharesPublicIp row := by
  rintro ⟨hn, he, hone⟩
  obtain ⟨m', hm', hc⟩ := checkDuplicates_ok hd hr
  have hcols := rowToMapping_ok.1 hm'
  have hip' : m'.publicIp = m.publicIp := by
    have := hcols.publicIp
    rw [← he, hip, transposeMap_map fun ip _ => parseIp_toText ip] at this
    exact (Except.ok.inj this).symm
  have hone' : m.mode = .oneToOneSnat ∨ m'.mode = .oneToOneSnat := by
    refine hone.imp (fun h => (enumString_mode hmode).1.2 h) fun h => ?_
    have := hcols.mode
    rw [h] at this
    exact (Except.ok.inj this).symm
  have hs : sharesPublicIp m m' = true :=
    sharesPublicIp_iff.2 ⟨fun h => hn (by rw [hip, h]; rfl), hip'.symm, hone'⟩
  rw [(checkDuplicate_ok hc).1] at hs
  cases hs

/-! ### Runs without an overtaken check -/

/-- No two rows share a public address that one of them owns alone, enabled or not. -/
abbrev PublicApart (t : Sql.Table mappingsSchema) : Prop := t.Apart fun row row' => ¬ row.SharesPublicIp row'

/-- What a call saw at its duplicate check, with what was stored since, covers the table. -/
def SeenCovers (C : Codec) (tr : List (ℕ × Event StoreSig)) (t : Sql.Table mappingsSchema) : Prop :=
  ∀ i id rows, (storeMonitor C).after none (own i tr) = some (id, rows) →
    ∀ row ∈ t.others id, ∃ row₀, row₀.SameOwner row ∧ (row₀ ∈ rows ∨ row₀ ∈ storedSinceCheck i tr)

/-- The rows a check answers with are the table's own. -/
theorem check_reply {db' : Db} {e : Event StoreSig} {id : String} {rows : List Row} {q : Checked}
    (hE : storeEnv db e.op e.reply db') (hc : isCheck e = true) (hq : nextChecked q e = some (id, rows)) :
    db' = db ∧ rows = db.mappings.others id := by
  obtain ⟨o, r⟩ := e
  unfold isCheck at hc
  split at hc
  · rename_i id' rows' he
    cases he
    cases hq
    rcases hE with hE | ⟨message, hr, -⟩
    · cases hE; exact ⟨rfl, rfl⟩
    · cases hr
  · cases hc

theorem step_seenCovers {db' : Db} {tr : List (ℕ × Event StoreSig)} {j : ℕ} {e : Event StoreSig}
    (h : SeenCovers C tr db.mappings) (hE : storeEnv db e.op e.reply db') :
    SeenCovers C (tr ++ [(j, e)]) db'.mappings := by
  intro i id rows hq row hr
  rw [storedSinceCheck_snoc]
  by_cases hc : j = i ∧ isCheck e = true
  · -- the call has just looked: it saw the whole table
    obtain ⟨rfl, hc⟩ := hc
    rw [own_snoc_self, Monitor.after_append] at hq
    obtain ⟨rfl, rfl⟩ := check_reply hE hc hq
    exact ⟨row, ⟨rfl, rfl, rfl⟩, .inl hr⟩
  · rw [if_neg hc]
    have hq' : (storeMonitor C).after none (own i tr) = some (id, rows) := by
      by_cases hij : j = i
      · subst hij
        rw [own_snoc_self, Monitor.after_append] at hq
        have hc' : isCheck e = false := by simpa using hc
        exact (nextChecked_of_not_check hc').symm.trans hq
      · rwa [own_snoc_ne fun hji => hij hji.symm] at hq
    obtain ⟨hr, hrid⟩ := Sql.Table.mem_others.1 hr
    rcases step_rows (storeEnv_step hE) hr with ⟨row₁, hr₁, ho⟩ | ⟨w, hw, ho⟩
    · have hother : row₁ ∈ db.mappings.others id :=
        Sql.Table.mem_others.2 ⟨hr₁, fun hid => hrid (ho.1.symm.trans hid)⟩
      obtain ⟨row₀, ho₀, hin⟩ := h i id rows hq' row₁ hother
      refine ⟨row₀, ⟨ho₀.1.trans ho.1, ho₀.2.1.trans ho.2.1, ho₀.2.2.trans ho.2.2⟩, hin.imp_right ?_⟩
      exact fun hin => List.mem_append_right _ hin
    · exact ⟨w, ho, .inr (List.mem_append_left _ (by rw [hw]; simp))⟩

/-- What a call stores shares no address with the rest of the table, unless its check was
overtaken. -/
theorem stored_not_shares {tr : List (ℕ × Event StoreSig)} {j : ℕ} {e : Event StoreSig} {new : Row}
    {t : Sql.Table mappingsSchema} (hcov : SeenCovers C tr t) (hno : NoCheckOvertaken (tr ++ [(j, e)]))
    (hw : written e = some new) (hip : new.publicIp = m.publicIp.map Ipv4Addr.toText)
    (hmode : enumString MappingMode.names m.mode = .ok new.mode) (hid : new.id = m.id.val)
    (hv : Vetted C ((storeMonitor C).after none (own j tr)) m) (hr : row ∈ t.others new.id) :
    ¬ new.SharesPublicIp row := by
  intro hs
  obtain ⟨-, rows, hq, hd⟩ := hv
  rw [hid] at hr
  obtain ⟨row₀, ho, hin⟩ := hcov j _ rows hq row hr
  have hs₀ := hs.of_sameOwner ho
  rcases hin with hin | hin
  · exact not_shares_of_checked hip hmode hd hin hs₀
  · refine hno tr j e [] rfl new hw row₀ hin (fun hid₀ => ?_) hs₀
    exact (Sql.Table.mem_others.1 hr).2 (ho.1.symm.trans (hid₀.trans hid))

theorem step_publicApart {db' : Db} {tr : List (ℕ × Event StoreSig)} {j : ℕ} {e : Event StoreSig}
    (h : PublicApart db.mappings) (hcov : SeenCovers C tr db.mappings)
    (hno : NoCheckOvertaken (tr ++ [(j, e)]))
    (hs : (storeMonitor C).allow ((storeMonitor C).after none (own j tr)) e.op)
    (hstep : TableStep db.mappings db'.mappings e) : PublicApart db'.mappings := by
  have hsymm : ∀ r r' : Row, ¬ r.SharesPublicIp r' → ¬ r'.SharesPublicIp r := fun _ _ hn hc => hn hc.symm
  -- an UPDATE of other columns leaves the row with its owner
  have keep : ∀ id, ∀ o ∈ db.mappings.rows, o.id = id →
      ∀ row' ∈ db.mappings.others id, ¬ o.SharesPublicIp row' := by
    intro id o hom hoid row' hr
    obtain ⟨hr, hrid⟩ := Sql.Table.mem_others.1 hr
    exact h o hom row' hr fun hid => hrid (hid.symm.trans hoid)
  cases hstep with
  | same _ ht => rw [ht]; exact h
  | insert row hid _ ht =>
    obtain ⟨m, hrow, hv⟩ := hs
    have he := encodes_insertRow (portsOk_of_valid (validateMode_of_vetted hv)) hrow
    refine Sql.Table.apart_insert hsymm ht h fun r hr => ?_
    exact stored_not_shares hcov hno rfl he.publicIp he.mode he.id hv
      (Sql.Table.mem_others.2 ⟨hr, hid r hr⟩)
  | update cols old ho hid _ ht =>
    obtain ⟨m, hcols, hv⟩ := hs
    obtain ⟨hcid, hip, hmode⟩ := updateRow_columns hcols
    rw [ht]
    refine Sql.Table.apart_update hsymm h fun o _ _ r hr => ?_
    have hnew : ¬ cols.SharesPublicIp r := stored_not_shares hcov hno rfl hip hmode hcid hv hr
    exact hnew
  | enable id old enabled status updatedAt ho hid _ ht =>
    rw [ht]; exact Sql.Table.apart_update hsymm h (keep id)
  | health id old status healthStatus lastError lastCheckedAt updatedAt ho hid ht =>
    rw [ht]; exact Sql.Table.apart_update hsymm h (keep id)
  | delete id ht => rw [ht]; exact Sql.Table.apart_delete h

/-- **Public addresses stay apart while no check is overtaken.** In every state of a run in which
no call stores a row that shares its public address with a row stored since the call checked for
duplicates, no two rows share a public address that one of them owns alone. -/
theorem public_rows_apart {calls : ℕ → StoreCall} {tr : List (ℕ × Event StoreSig)}
    {pool : ℕ → StoreProg Unit} (h0 : db₀.mappings = .empty)
    (hr : Reach storeEnv (fun i => (calls i).prog C) db₀ tr pool db) (hno : NoCheckOvertaken tr)
    (hrow : row ∈ db.mappings.rows) (hrow' : row' ∈ db.mappings.rows) (hne : row ≠ row') :
    ¬ row.SharesPublicIp row' := by
  have hinv : SeenCovers C tr db.mappings ∧ (NoCheckOvertaken tr → PublicApart db.mappings) := by
    refine reach_inv (fun _ => none) (fun i => Prog.wpOk_iff.1 (prog_ok (calls i) none))
      (fun tr db => SeenCovers C tr db.mappings ∧ (NoCheckOvertaken tr → PublicApart db.mappings)) ?_ ?_ hr
    · refine ⟨fun i id rows hq => ?_, fun _ => ?_⟩
      · cases hq
      · rw [h0]; exact Sql.Table.apart_empty
    · rintro tr db j o r db' ⟨hcov, h⟩ hallow hE
      refine ⟨step_seenCovers hcov hE, fun hno => ?_⟩
      exact step_publicApart (h hno.of_snoc) hcov hno hallow (storeEnv_step hE)
  exact hinv.2 hno row hrow row' hrow' fun hid => hne (Sql.Table.eq_of_key_eq hrow hrow' hid)

/-- A one-to-one mapping with the public address of `samplePortForward`, elsewhere. -/
def sampleOwner : Mapping :=
  Mapping.new ⟨"owner", by decide, by decide⟩ sampleTime "owner" (some ⟨8, 8, 8, 8⟩) ⟨10, 0, 0, 102⟩
    ⟨192, 168, 20, 43⟩

/-- **A disabled row slips past both checks.** Client 1 looks for duplicates of the owner; client
0 inserts a port forward on its address, client 2 disables it; then client 1 inserts. -/
theorem disable_between_check_and_insert : ∃ (calls : ℕ → StoreCall) (tr : List (ℕ × Event StoreSig))
    (pool : ℕ → StoreProg Unit) (db : Db),
    Reach storeEnv (fun i => (calls i).prog sampleCodec) sampleDb tr pool db ∧
      ∃ row ∈ db.mappings.rows, ∃ row' ∈ db.mappings.rows, row ≠ row' ∧ row.SharesPublicIp row' := by
  refine ⟨_, _, _, _, sampleRun_reach [.insert samplePortForward, .insert sampleOwner,
    .setEnabled samplePortForward.id false] [1, 1, 0, 0, 0, 2, 2, 2, 1], ?_⟩
  decide +kernel

/-- Two interleaved clients whose rows do not share an address. -/
theorem public_rows_apart_two_services :
    ∃ row ∈ twoServices.2.2.mappings.rows, ∃ row' ∈ twoServices.2.2.mappings.rows,
      row ≠ row' ∧ row.publicIp = row'.publicIp ∧ ¬ row.SharesPublicIp row' := by
  obtain ⟨row, hr, row', hr', hne, hip⟩ : ∃ row ∈ twoServices.2.2.mappings.rows,
      ∃ row' ∈ twoServices.2.2.mappings.rows, row ≠ row' ∧ row.publicIp = row'.publicIp := by
    decide +kernel
  have hno : NoCheckOvertaken twoServices.1 := noCheckOvertaken_of_apart (by decide +kernel)
  exact ⟨row, hr, row', hr', hne, hip, public_rows_apart rfl twoServices_reach hno hr hr' hne⟩

end EdgeRoute
