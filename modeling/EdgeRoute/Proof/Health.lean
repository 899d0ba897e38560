import EdgeRoute.Proof.Table
import EdgeRoute.Spec.Reconcile

/-!
# Health columns

A reconcile writes the health of the mappings back into their rows. What it renders does not depend on
that.

* `render_core`: the ruleset of a list is the ruleset of the list without health.
* `Refreshed`: two tables that health writes apart are the same; `rendering_refreshed`: they have the
  same ruleset.
-/

namespace EdgeRoute

open Effect

variable {C : Codec} {m : Mapping} {c config : EdgeConfig} {rc : NftRenderConfig} {ms : List Mapping}
  {row : Row} {rows : List Row} {text : String}

/-! ## Without health -/

/-- The mapping without its health. -/
def Mapping.core (m : Mapping) : Mapping :=
  { m with
    status := .pending
    lastError := none
    healthStatus := none
    lastCheckedAt := none
    updatedAt := m.createdAt }

/-- The row without its health. -/
def Row.core (row : Row) : Row :=
  { row with
    status := "pending"
    lastError := none
    healthStatus := none
    lastCheckedAt := none
    updatedAt := row.createdAt }

/-! ## Rendering -/

theorem validateEach_core : validateEach c (ms.map Mapping.core) = validateEach c ms := by
  induction ms with
  | nil => rfl
  | cons m ms ih =>
    simp only [List.map_cons, validateEach, ih]
    rfl

theorem checkAgainst_core : checkAgainst m.core (ms.map Mapping.core) = checkAgainst m ms := by
  induction ms with
  | nil => rfl
  | cons m' ms ih =>
    simp only [List.map_cons, checkAgainst, ih]
    rfl

theorem checkPairs_core {seen : List Ipv4Addr} : checkPairs seen (ms.map Mapping.core) = checkPairs seen ms := by
  induction ms generalizing seen with
  | nil => rfl
  | cons m ms ih =>
    simp only [List.map_cons, checkPairs, ih, checkAgainst_core]
    rfl

theorem validateMappings_core : validateMappings (ms.map Mapping.core) c = validateMappings ms c := by
  simp only [validateMappings, validateEach_core, checkPairs_core]

theorem renderPortForwards_core {wan : String} :
    renderPortForwards wan (ms.map Mapping.core) = renderPortForwards wan ms := by
  induction ms with
  | nil => rfl
  | cons m ms ih =>
    simp only [List.map_cons, renderPortForwards, ih]
    rfl

/-- **The renderer does not look at the health.** -/
theorem render_core : renderNftables (ms.map Mapping.core) c rc = renderNftables ms c rc := by
  have hforward : (isNftPortForward ∘ Mapping.core) = isNftPortForward := rfl
  have hone : (isNftOneToOne ∘ Mapping.core) = isNftOneToOne := rfl
  have helement : (renderElement ∘ Mapping.core) = renderElement := rfl
  simp only [renderNftables, renderRuleset, validateMappings_core, List.filter_map, hforward, hone,
    renderPortForwards_core, List.map_map, helement, List.any_map]

/-! ## Decoding -/

/-- The health columns of the row can be read. -/
structure Row.HealthDecodes (C : Codec) (row : Row) : Prop where
  status : ∃ status, enumFromString MappingStatus.names row.status = .ok status
  lastCheckedAt : ∃ t, transposeMap C.parseTime row.lastCheckedAt = .ok t
  updatedAt : ∃ t, C.parseTime row.updatedAt = .ok t

theorem healthDecodes_of_decoded (h : C.rowToMapping row = .ok m) : row.HealthDecodes C :=
  have hc := rowToMapping_ok.1 h
  ⟨⟨_, hc.status⟩, ⟨_, hc.lastCheckedAt⟩, ⟨_, hc.updatedAt⟩⟩

theorem rowToMapping_core (h : C.rowToMapping row = .ok m) : C.rowToMapping row.core = .ok m.core := by
  have hc := rowToMapping_ok.1 h
  refine rowToMapping_ok.2 ?_
  exact
    { hc with
      status := show enumFromString MappingStatus.names "pending" = .ok .pending by decide
      lastError := rfl
      healthStatus := rfl
      lastCheckedAt := rfl
      updatedAt := hc.createdAt }

/-- A row decodes when it does without its health and its health does. -/
theorem rowToMapping_of_core (h : C.rowToMapping row.core = .ok m) (hh : row.HealthDecodes C) :
    ∃ m', C.rowToMapping row = .ok m' ∧ m'.core = m.core := by
  have hc := rowToMapping_ok.1 h
  obtain ⟨⟨status, hs⟩, ⟨checked, hl⟩, ⟨updated, hu⟩⟩ := hh
  refine ⟨{ m with
    status := status
    lastError := row.lastError
    healthStatus := row.healthStatus
    lastCheckedAt := checked
    updatedAt := updated }, rowToMapping_ok.2 ?_, rfl⟩
  exact
    { hc with
      status := hs
      lastError := rfl
      healthStatus := rfl
      lastCheckedAt := hl
      updatedAt := hu }

theorem decodeRows_core (h : decodeRows C rows = .ok ms) :
    decodeRows C (rows.map Row.core) = .ok (ms.map Mapping.core) := by
  induction rows generalizing ms with
  | nil => cases h; rfl
  | cons row rows ih =>
    obtain ⟨m, hm, h⟩ := except_bind_ok.1 h
    obtain ⟨rest, hrest, h⟩ := except_bind_ok.1 h
    cases h
    simp only [List.map_cons, decodeRows, rowToMapping_core hm, ih hrest]
    rfl

theorem healthDecodes_of_decodeRows (h : decodeRows C rows = .ok ms) : ∀ row ∈ rows, row.HealthDecodes C := by
  induction rows generalizing ms with
  | nil => simp
  | cons row rows ih =>
    obtain ⟨m, hm, h⟩ := except_bind_ok.1 h
    obtain ⟨rest, hrest, -⟩ := except_bind_ok.1 h
    exact List.forall_mem_cons.2 ⟨healthDecodes_of_decoded hm, ih hrest⟩

theorem decodeRows_of_core (h : decodeRows C (rows.map Row.core) = .ok ms)
    (hh : ∀ row ∈ rows, row.HealthDecodes C) :
    ∃ ms', decodeRows C rows = .ok ms' ∧ ms'.map Mapping.core = ms.map Mapping.core := by
  induction rows generalizing ms with
  | nil => cases h; exact ⟨[], rfl, rfl⟩
  | cons row rows ih =>
    rw [List.map_cons] at h
    obtain ⟨m, hm, h⟩ := except_bind_ok.1 h
    obtain ⟨rest, hrest, h⟩ := except_bind_ok.1 h
    cases h
    rw [List.forall_mem_cons] at hh
    obtain ⟨m', hm', hcore⟩ := rowToMapping_of_core hm hh.1
    obtain ⟨ms', hms', hcores⟩ := ih hrest hh.2
    refine ⟨m' :: ms', ?_, by rw [List.map_cons, List.map_cons, hcore, hcores]⟩
    simp only [decodeRows, hm', hms']
    rfl

/-! ## The ruleset of a listing -/

/-- The ruleset of a listing. -/
def rendering (C : Codec) (config : EdgeConfig) (rows : List Row) : Option String :=
  match decodeRows C rows with
  | .ok mappings => (renderNftables mappings config {}).toOption
  | .error _ => none

theorem rendering_some : rendering C config rows = some text ↔
    ∃ ms, decodeRows C rows = .ok ms ∧ renderNftables ms config {} = .ok text := by
  unfold rendering
  cases decodeRows C rows with
  | error e => simp
  | ok ms => cases h : renderNftables ms config {} <;> simp [Except.toOption, h]

theorem rendering_core (h : rendering C config rows = some text) :
    rendering C config (rows.map Row.core) = some text := by
  obtain ⟨ms, hd, hr⟩ := rendering_some.1 h
  exact rendering_some.2 ⟨_, decodeRows_core hd, by rw [render_core, hr]⟩

theorem rendering_of_core (h : rendering C config (rows.map Row.core) = some text)
    (hh : ∀ row ∈ rows, row.HealthDecodes C) : rendering C config rows = some text := by
  obtain ⟨ms, hd, hr⟩ := rendering_some.1 h
  obtain ⟨ms', hd', hcores⟩ := decodeRows_of_core hd hh
  refine rendering_some.2 ⟨ms', hd', ?_⟩
  rw [← render_core, hcores, render_core, hr]

/-! ## Tables -/

/-- The rows in the order of a listing. -/
def Db.listed (db : Db) : List Row := db.mappings.rows.insertionSort Row.Before

theorem map_core_listed (db : Db) :
    db.listed.map Row.core = (db.mappings.rows.map Row.core).insertionSort Row.Before :=
  List.map_insertionSort _ _ _ _ fun _ _ _ _ => Iff.rfl

/-- **Nothing but health was written** between the two tables, and that can be read. -/
structure Refreshed (C : Codec) (t t' : Sql.Table mappingsSchema) : Prop where
  core : t'.rows.map Row.core = t.rows.map Row.core
  health : (∀ row ∈ t.rows, row.HealthDecodes C) → ∀ row ∈ t'.rows, row.HealthDecodes C

variable {t t' t'' : Sql.Table mappingsSchema} {db db' : Db}

theorem Refreshed.refl (t : Sql.Table mappingsSchema) : Refreshed C t t := ⟨rfl, id⟩

theorem Refreshed.trans (h : Refreshed C t t') (h' : Refreshed C t' t'') : Refreshed C t t'' :=
  ⟨h'.core.trans h.core, h'.health ∘ h.health⟩

theorem Refreshed.listed (h : Refreshed C db.mappings db'.mappings) :
    db'.listed.map Row.core = db.listed.map Row.core := by
  rw [map_core_listed, map_core_listed, h.core]

/-- **Refreshed tables have the same ruleset.** -/
theorem rendering_refreshed (h : Refreshed C db.mappings db'.mappings)
    (hr : rendering C config db.listed = some text) : rendering C config db'.listed = some text := by
  refine rendering_of_core (h.listed ▸ rendering_core hr) fun row hrow => ?_
  obtain ⟨ms, hd, -⟩ := rendering_some.1 hr
  have hall := healthDecodes_of_decodeRows hd
  refine h.health (fun row hrow => hall row ?_) row ?_
  · exact (List.mem_insertionSort _).2 hrow
  · exact (List.mem_insertionSort _).1 hrow

/-- The columns of a health write can be read. -/
def HealthOk (C : Codec) (status lastCheckedAt updatedAt : String) : Prop :=
  (∃ v, enumString MappingStatus.names v = .ok status) ∧
    (∃ now, C.formatTime now = .ok lastCheckedAt) ∧ ∃ now, C.formatTime now = .ok updatedAt

theorem refreshed_health (t : Sql.Table mappingsSchema) (id : String) {status lastCheckedAt updatedAt : String}
    (healthStatus lastError : Option String) (h : HealthOk C status lastCheckedAt updatedAt) :
    Refreshed C t (t.set id (Row.withHealth status healthStatus lastError lastCheckedAt updatedAt)
      (Row.withHealth_id status healthStatus lastError lastCheckedAt updatedAt)) := by
  obtain ⟨⟨v, hv⟩, ⟨checked, hc⟩, ⟨updated, hu⟩⟩ := h
  constructor
  · simp only [Sql.Table.set, List.map_map]
    refine List.map_congr_left fun row _ => ?_
    simp only [Function.comp_apply]
    split <;> rfl
  · intro hall row hrow
    rcases Sql.Table.mem_set.1 hrow with ⟨hr, -⟩ | ⟨old, -, -, rfl⟩
    · exact hall row hr
    · refine ⟨⟨v, enumFromString_enumString (by decide) hv⟩, ⟨some checked, ?_⟩, updated,
        parseTime_formatTime hu⟩
      simp [Row.withHealth, transposeMap, parseTime_formatTime hc, Except.map]

end EdgeRoute
