import EdgeRoute.Proof.Protocol
import EdgeRoute.Proof.Sequence

/-!
# What a reachable store holds

Any clients, any calls that write, their statements in any order, from a new
database on.

* `reachable_rows`: every row is the stored form of a mapping, and no two enabled rows clash.
* `reachable_dated`: the creation time of a row is a text the store wrote.
* `reachable_listing`: `list_mappings` can read every row.
-/

namespace EdgeRoute

open Effect

variable {C : Codec} {m m' : Mapping} {row row' : Row} {db db' : Db}

/-- A client's call of a method that writes. -/
inductive WriteCall where
  | edit (call : StoreCall)
  | setConfig (config : EdgeConfig)
  | ensureConfig (config : EdgeConfig)
  | generation (status : GenerationStatus) (nftablesConfig : String) (appliedAt : Option OffsetDateTime)
      (error : Option String)
  | event (level : EventLevel) (message : String) (data : Option String)

/-- The statements of the call. What it may return is left out. -/
def WriteCall.prog (C : Codec) : WriteCall → StoreProg Unit
  | .edit call => call.prog C
  | .setConfig config => setEdgeConfig C config
  | .ensureConfig config => do
    let _ ← ensureEdgeConfig C config
    pure ()
  | .generation status nftablesConfig appliedAt error => do
    let _ ← recordGeneration C status nftablesConfig appliedAt error
    pure ()
  | .event level message data => do
    let _ ← recordEvent C level message data
    pure ()

/-- **A reachable store**: a new database after statements of any calls. -/
def Reachable (C : Codec) (db : Db) : Prop :=
  ∃ (calls : ℕ → WriteCall) (tr : List (ℕ × Event StoreSig)) (pool : ℕ → StoreProg Unit),
    Reach storeEnv (fun i => (calls i).prog C) Db.fresh tr pool db

/-! ## The calls beside the edits -/

/-- Operations that neither write a mapping nor check one. -/
def IsBeside : StoreOp → Prop
  | .now | .sql .selectConfig | .sql (.upsertConfig _) => True
  | .sql (.insertGeneration _ _ _ _ _) | .sql (.insertEvent _ _ _ _) => True
  | _ => False

theorem quiet_of_isBeside {o : StoreOp} (h : IsBeside o) (q : Checked) : (storeMonitor C).Quiet q o := by
  cases o with
  | now => exact ⟨trivial, fun _ => rfl⟩
  | sql s =>
    cases s with
    | selectConfig => exact ⟨trivial, fun _ => rfl⟩
    | upsertConfig value => exact ⟨trivial, fun _ => rfl⟩
    | insertGeneration status text createdAt appliedAt error => exact ⟨trivial, fun _ => rfl⟩
    | insertEvent level message data createdAt => exact ⟨trivial, fun _ => rfl⟩
    | _ => exact absurd h id

theorem setEdgeConfig_beside (config : EdgeConfig) : (setEdgeConfig C config).Uses IsBeside := by
  refine Prog.uses_bind Prog.uses_ofExcept fun _ => Prog.uses_bind Prog.uses_ofExcept fun value => ?_
  exact uses_sql trivial

theorem ensureEdgeConfig_beside (config : EdgeConfig) : (ensureEdgeConfig C config).Uses IsBeside := by
  refine Prog.uses_bind (Prog.uses_bind (uses_sql trivial) fun _ => Prog.uses_ofExcept) fun existing => ?_
  cases existing with
  | some existing => exact Prog.uses_ret
  | none => exact Prog.uses_bind (setEdgeConfig_beside config) fun _ => Prog.uses_ret

theorem beside_ok {p : StoreProg Unit} (h : p.Uses IsBeside) (q : Checked) :
    p.wpOk (storeMonitor C) (fun _ _ => True) q :=
  Prog.wpOk_of_uses (Prog.uses_mono (fun _ ho => quiet_of_isBeside ho q) h) fun _ => trivial

/-- **Every call keeps to the monitor** of the store. -/
theorem write_ok (call : WriteCall) (q : Checked) :
    (call.prog C).wpOk (storeMonitor C) (fun _ _ => True) q := by
  cases call with
  | edit call => exact prog_ok call q
  | setConfig config => exact beside_ok (setEdgeConfig_beside config) q
  | ensureConfig config => exact beside_ok (Prog.uses_bind (ensureEdgeConfig_beside config) fun _ => Prog.uses_ret) q
  | generation status text appliedAt error =>
    refine beside_ok (Prog.uses_bind ?_ fun _ => Prog.uses_ret) q
    exact recordGeneration_uses C trivial fun _ _ _ _ => trivial
  | event level message data =>
    exact beside_ok (Prog.uses_bind (recordEvent_uses C trivial fun _ _ => trivial) fun _ => Prog.uses_ret) q

/-! ## Invariants -/

/-- What every allowed statement keeps holds of every reachable table. -/
theorem reachable_inv {I : Sql.Table mappingsSchema → Prop} (h0 : I .empty)
    (hstep : ∀ t t' q e, I t → (storeMonitor C).allow q e.op → TableStep t t' e → I t')
    (h : Reachable C db) : I db.mappings := by
  obtain ⟨calls, tr, pool, hr⟩ := h
  refine reach_inv (fun _ => none) (fun i => Prog.wpOk_iff.1 (write_ok (calls i) none))
    (fun _ db => I db.mappings) h0 ?_ hr
  intro tr db i o r db' hI hallow hE
  exact hstep _ _ _ _ hI hallow (storeEnv_step hE)

/-- **The rows of a reachable store** are stored forms of mappings with a well-formed
mode, and no two enabled ones clash. -/
theorem reachable_rows (h : Reachable C db) : EnabledApart C db.mappings :=
  reachable_inv .empty (fun _ _ _ _ hI hallow hstep => step_enabledApart hI hallow hstep) h

theorem reachable_encodes (h : Reachable C db) (hr : row ∈ db.mappings.rows) : ∃ m, Encodes C row m := by
  obtain ⟨m, he, -⟩ := (reachable_rows h).stored row hr
  exact ⟨m, he⟩

/-- The creation time of every row is a text that the store wrote. -/
def Dated (C : Codec) (t : Sql.Table mappingsSchema) : Prop :=
  ∀ row ∈ t.rows, ∃ created, C.formatTime created = .ok row.createdAt

theorem insertRow_createdAt (h : C.insertRow m = .ok row) : C.formatTime m.createdAt = .ok row.createdAt := by
  unfold Codec.insertRow Codec.bindMapping at h
  simp only [except_bind_ok] at h
  obtain ⟨_, -, createdAt, hc, _, -, _, -, _, -, _, -, _, -, hrow⟩ := h
  cases hrow
  exact hc

/-- No UPDATE writes the creation time. -/
theorem Dated.set {t : Sql.Table mappingsSchema} {k : String} {f : Row → Row} {hf : ∀ row, (f row).id = row.id}
    (h : Dated C t) (hc : ∀ row, (f row).createdAt = row.createdAt) : Dated C (t.set k f hf) := by
  intro row hr
  rcases Sql.Table.mem_set.1 hr with ⟨hr, -⟩ | ⟨old, ho, -, rfl⟩
  · exact h row hr
  · rw [hc old]
    exact h old ho

theorem step_dated {t t' : Sql.Table mappingsSchema} {q : Checked} {e : Event StoreSig} (h : Dated C t)
    (hs : (storeMonitor C).allow q e.op) (hstep : TableStep t t' e) : Dated C t' := by
  cases hstep with
  | same _ ht => rw [ht]; exact h
  | insert row hid hfree ht =>
    obtain ⟨m, hrow, -⟩ := hs
    intro r hr
    rw [ht, List.mem_append, List.mem_singleton] at hr
    rcases hr with hr | rfl
    · exact h r hr
    · exact ⟨m.createdAt, insertRow_createdAt hrow⟩
  | update cols old ho hid hfree ht => rw [ht]; exact h.set fun _ => rfl
  | enable id old enabled status updatedAt ho hid hfree ht => rw [ht]; exact h.set fun _ => rfl
  | health id old status healthStatus lastError lastCheckedAt updatedAt ho hid ht =>
    rw [ht]; exact h.set fun _ => rfl
  | delete id ht =>
    rw [ht]
    intro r hr
    exact h r (Sql.Table.mem_others.1 hr).1

theorem reachable_dated (h : Reachable C db) : Dated C db.mappings :=
  reachable_inv (I := Dated C) (fun _ hr => absurd hr List.not_mem_nil)
    (fun _ _ _ _ hI hallow hstep => step_dated hI hallow hstep) h

/-! ## The listing -/

/-- Rows that all decode are decoded in order. -/
theorem decodeRows_forall₂ {rows : List Row} {ms : List Mapping} :
    decodeRows C rows = .ok ms ↔ List.Forall₂ (fun row m => C.rowToMapping row = .ok m) rows ms := by
  induction rows generalizing ms with
  | nil =>
    rw [List.forall₂_nil_left_iff, decodeRows, Except.ok.injEq, eq_comm]
  | cons row rows ih =>
    rw [decodeRows, List.forall₂_cons_left_iff]
    simp only [except_bind_ok, ih, Except.ok.injEq]
    constructor
    · rintro ⟨m, hm, rest, hrest, h⟩
      exact ⟨m, rest, hm, hrest, h.symm⟩
    · rintro ⟨m, rest, hm, hrest, h⟩
      exact ⟨m, hm, rest, hrest, h.symm⟩

theorem decodeRows_total {rows : List Row} (h : ∀ row ∈ rows, ∃ m, C.rowToMapping row = .ok m) :
    ∃ ms, decodeRows C rows = .ok ms := by
  induction rows with
  | nil => exact ⟨[], rfl⟩
  | cons row rows ih =>
    rw [List.forall_mem_cons] at h
    obtain ⟨m, hm⟩ := h.1
    obtain ⟨ms, hms⟩ := ih h.2
    exact ⟨m :: ms, by rw [decodeRows, hm, hms]; rfl⟩

/-- The mappings of a listing are those of the rows. -/
theorem mem_decoded {rows : List Row} (hd : decodeRows C rows = .ok ms) :
    (∀ m ∈ ms, ∃ row ∈ rows, C.rowToMapping row = .ok m) ∧ ∀ row ∈ rows, ∃ m ∈ ms, C.rowToMapping row = .ok m := by
  induction rows generalizing ms with
  | nil =>
    cases hd
    simp
  | cons row rows ih =>
    obtain ⟨m, hm, hd⟩ := except_bind_ok.1 hd
    obtain ⟨rest, hrest, hd⟩ := except_bind_ok.1 hd
    cases hd
    obtain ⟨hfrom, hto⟩ := ih hrest
    constructor
    · refine List.forall_mem_cons.2 ⟨⟨row, List.mem_cons_self, hm⟩, fun m' hm' => ?_⟩
      obtain ⟨row', hrow', hdec⟩ := hfrom m' hm'
      exact ⟨row', List.mem_cons_of_mem _ hrow', hdec⟩
    · refine List.forall_mem_cons.2 ⟨⟨m, List.mem_cons_self, hm⟩, fun row' hrow' => ?_⟩
      obtain ⟨m', hm', hdec⟩ := hto row' hrow'
      exact ⟨m', List.mem_cons_of_mem _ hm', hdec⟩

/-- **Every reachable store can be listed.** -/
theorem reachable_listing (h : Reachable C db) : ∃ ms, decodeRows C db.listed = .ok ms := by
  apply decodeRows_total
  intro row hr
  obtain ⟨m, he⟩ := reachable_encodes h ((List.mem_insertionSort Row.Before).1 hr)
  exact ⟨m, he.decoded⟩

end EdgeRoute
