import EdgeRoute.Proof.Validation
import EdgeRoute.Spec.Store

/-!
# Rows and mappings

* `Encodes`: a row is the stored form of a mapping; `encodes_insertRow`,
  `encodes_replaced`, `encodes_withEnabled`, `encodes_withHealth`: what the
  statements of the store write is one.
* `rowToMapping_ok`: a row decodes exactly when each of its columns does.
-/

namespace EdgeRoute

open Effect

variable {C : Codec} {m m' : Mapping} {row row' new : Row}

/-! ## Columns -/

/-- A variant is read back from its name, as no two names are equal. -/
theorem enumFromString_enumString {α : Type} [DecidableEq α] {names : List (String × α)} {v : α}
    {s : String} (hn : (names.map Prod.fst).Nodup) (h : enumString names v = .ok s) :
    enumFromString names s = .ok v := by
  unfold enumString at h
  split at h
  · rename_i p hp
    cases h
    have hv : p.2 = v := by simpa using List.find?_some hp
    have hm := List.mem_of_find?_eq_some hp
    unfold enumFromString
    cases hq : names.find? fun q => q.1 = p.1 with
    | none =>
      have := List.find?_eq_none.1 hq p hm
      simp at this
    | some q =>
      have hq1 : q.1 = p.1 := by simpa using List.find?_some hq
      have := List.inj_on_of_nodup_map hn (List.mem_of_find?_eq_some hq) hm hq1
      rw [this, ← hv]
  · cases h

/-- A name that is read is the name of the variant, as no variant has two. -/
theorem enumString_enumFromString {α : Type} [DecidableEq α] {names : List (String × α)} {v : α}
    {s : String} (hn : (names.map Prod.snd).Nodup) (h : enumFromString names s = .ok v) :
    enumString names v = .ok s := by
  unfold enumFromString at h
  split at h
  · rename_i p hp
    cases h
    have hs : p.1 = s := by simpa using List.find?_some hp
    have hm := List.mem_of_find?_eq_some hp
    unfold enumString
    cases hq : names.find? fun q => q.2 = p.2 with
    | none =>
      have := List.find?_eq_none.1 hq p hm
      simp at this
    | some q =>
      have hq2 : q.2 = p.2 := by simpa using List.find?_some hq
      have := List.inj_on_of_nodup_map hn (List.mem_of_find?_eq_some hq) hm hq2
      rw [this, ← hs]
  · cases h

/-- The two modes under their stored names. -/
theorem enumString_mode {mode : MappingMode} {s : String} (h : enumString MappingMode.names mode = .ok s) :
    (mode = .oneToOneSnat ↔ s = "one_to_one_snat") ∧
      (mode = .portForwardSnat ↔ s = "port_forward_snat") := by
  cases mode <;> cases h <;> decide

theorem enumString_injective {α : Type} [DecidableEq α] {names : List (String × α)} {v v' : α}
    {s : String} (hn : (names.map Prod.fst).Nodup) (h : enumString names v = .ok s)
    (h' : enumString names v' = .ok s) : v = v' := by
  have := enumFromString_enumString hn h
  rw [enumFromString_enumString hn h'] at this
  exact (Except.ok.inj this).symm

theorem decodePort_toNat {p : Option UInt16} (hp : p ≠ some 0) (column : String) :
    decodePort (p.map fun x => (x.toNat : ℤ)) column = .ok p := by
  cases p with
  | none => rfl
  | some x =>
    have hlt := x.toNat_lt
    have hpos : x.toNat ≠ 0 := fun h => hp (congrArg some (UInt16.toNat_inj.1 h))
    simp only [decodePort, Option.map_some]
    rw [if_pos ⟨by omega, by omega⟩]
    simp

theorem parseIp_toText (ip : Ipv4Addr) : parseIp ip.toText = .ok ip := by
  unfold parseIp; rw [Ipv4Addr.parse_toText]

theorem transposeMap_map {α β ε : Type} {f : β → Except ε α} {g : α → β} {x : Option α}
    (h : ∀ a ∈ x, f (g a) = .ok a) : transposeMap f (x.map g) = .ok x := by
  cases x with
  | none => rfl
  | some a => simp [transposeMap, h a rfl, Except.map]

theorem parseTime_formatTime {t : OffsetDateTime} {s : String} (h : C.formatTime t = .ok s) :
    C.parseTime s = .ok t := by
  unfold Codec.formatTime at h
  cases hf : C.formatRfc3339 t with
  | error e => rw [hf] at h; cases h
  | ok s' =>
    rw [hf] at h; cases h
    unfold Codec.parseTime
    rw [C.rfc3339_inverse hf]; rfl

/-- An optional time is read back. -/
theorem parseTime_transpose {t : Option OffsetDateTime} {s : Option String}
    (h : transposeMap C.formatTime t = .ok s) : transposeMap C.parseTime s = .ok t := by
  cases t with
  | none => cases h; rfl
  | some t =>
    simp only [transposeMap] at h
    cases hf : C.formatTime t with
    | error e => rw [hf] at h; cases h
    | ok s' =>
      rw [hf] at h; cases h
      simp [transposeMap, parseTime_formatTime hf, Except.map]

/-! ## Stored forms -/

/-- **A row is the stored form of a mapping**: it decodes to it, and the columns the
constraints compare are written the one way the store writes them. -/
structure Encodes (C : Codec) (row : Row) (m : Mapping) : Prop where
  decoded : C.rowToMapping row = .ok m
  id : row.id = m.id.val
  publicIp : row.publicIp = m.publicIp.map Ipv4Addr.toText
  edgePrivateIp : row.edgePrivateIp = m.edgePrivateIp.toText
  targetIp : row.targetIp = m.targetIp.toText
  publicPort : row.publicPort = m.publicPort.map fun p => (p.toNat : ℤ)
  protocol : enumString Protocol.names m.protocol = .ok row.protocol
  mode : enumString MappingMode.names m.mode = .ok row.mode
  enabled : row.enabled = if m.enabled then 1 else 0

/-- Ports a row can hold: never zero. -/
def PortsOk (m : Mapping) : Prop := m.publicPort ≠ some 0 ∧ m.targetPort ≠ some 0

theorem portsOk_of_valid (h : validateMode m = .ok ()) : PortsOk m := by
  cases hm : m.mode with
  | oneToOneSnat =>
    obtain ⟨hp, ht, -⟩ := oneToOne_shape h hm
    exact ⟨by simp [hp], ht⟩
  | portForwardSnat =>
    obtain ⟨p, t, hp, hp0, ht, ht0, -⟩ := portForward_shape h hm
    exact ⟨by rw [hp]; simpa using hp0, by rw [ht]; simpa using ht0⟩

/-- The columns a decoded row holds. -/
structure Columns (C : Codec) (row : Row) (m : Mapping) : Prop where
  publicPort : decodePort row.publicPort "public_port" = .ok m.publicPort
  targetPort : decodePort row.targetPort "target_port" = .ok m.targetPort
  id : MappingId.fromStr row.id = .ok m.id
  name : row.name = m.name
  publicIp : transposeMap parseIp row.publicIp = .ok m.publicIp
  ociPublicIpOcid : row.ociPublicIpOcid = m.ociPublicIpOcid
  edgePrivateIp : parseIp row.edgePrivateIp = .ok m.edgePrivateIp
  ociPrivateIpOcid : row.ociPrivateIpOcid = m.ociPrivateIpOcid
  targetIp : parseIp row.targetIp = .ok m.targetIp
  protocol : enumFromString Protocol.names row.protocol = .ok m.protocol
  mode : enumFromString MappingMode.names row.mode = .ok m.mode
  backend : enumFromString MappingBackend.names row.backend = .ok m.backend
  enabled : (row.enabled != 0) = m.enabled
  status : enumFromString MappingStatus.names row.status = .ok m.status
  lastError : row.lastError = m.lastError
  healthStatus : row.healthStatus = m.healthStatus
  lastCheckedAt : transposeMap C.parseTime row.lastCheckedAt = .ok m.lastCheckedAt
  createdAt : C.parseTime row.createdAt = .ok m.createdAt
  updatedAt : C.parseTime row.updatedAt = .ok m.updatedAt

theorem rowToMapping_ok : C.rowToMapping row = .ok m ↔ Columns C row m := by
  unfold Codec.rowToMapping
  simp only [except_bind_ok]
  constructor
  · rintro ⟨_, h1, _, h2, _, h3, _, h4, _, h5, _, h6, _, h7, _, h8, _, h9, _, h10, _, h11, _, h12, _,
      h13, h⟩
    cases h
    exact ⟨h1, h2, h3, rfl, h4, rfl, h5, rfl, h6, h7, h8, h9, rfl, h10, rfl, rfl, h11, h12, h13⟩
  · rintro ⟨h1, h2, h3, n1, h4, n2, h5, n3, h6, h7, h8, h9, n4, h10, n5, n6, h11, h12, h13⟩
    refine ⟨_, h1, _, h2, _, h3, _, h4, _, h5, _, h6, _, h7, _, h8, _, h9, _, h10, _, h11, _, h12, _,
      h13, ?_⟩
    rw [n1, n2, n3, n4, n5, n6]

/-- What `bind` writes decodes to the mapping, with the times the time columns hold. -/
theorem encodes_bindMapping {lastCheckedAt : Option String} {createdAt updatedAt : String}
    {checked : Option OffsetDateTime} {created updated : OffsetDateTime} (hp : PortsOk m)
    (hb : Codec.bindMapping m lastCheckedAt createdAt updatedAt = .ok row)
    (hl : transposeMap C.parseTime lastCheckedAt = .ok checked)
    (hc : C.parseTime createdAt = .ok created) (hu : C.parseTime updatedAt = .ok updated) :
    Encodes C row { m with lastCheckedAt := checked, createdAt := created, updatedAt := updated } := by
  unfold Codec.bindMapping at hb
  simp only [except_bind_ok] at hb
  obtain ⟨protocol, h1, mode, h2, backend, h3, status, h4, h5⟩ := hb
  cases h5
  refine ⟨rowToMapping_ok.2 ?_, rfl, rfl, rfl, rfl, rfl, h1, h2, rfl⟩
  have hen : ((if m.enabled then (1 : ℤ) else 0) != 0) = m.enabled := by cases m.enabled <;> rfl
  exact ⟨decodePort_toNat hp.1 _, decodePort_toNat hp.2 _, MappingId.fromStr_val m.id, rfl,
    transposeMap_map fun ip _ => parseIp_toText ip, rfl, parseIp_toText _, rfl, parseIp_toText _,
    enumFromString_enumString (by decide) h1, enumFromString_enumString (by decide) h2,
    enumFromString_enumString (by decide) h3, hen, enumFromString_enumString (by decide) h4, rfl, rfl,
    hl, hc, hu⟩

/-- The values of the INSERT are the stored form of the mapping. -/
theorem encodes_insertRow (hp : PortsOk m) (h : C.insertRow m = .ok row) : Encodes C row m := by
  unfold Codec.insertRow at h
  simp only [except_bind_ok] at h
  obtain ⟨lastCheckedAt, h1, createdAt, h2, updatedAt, h3, hb⟩ := h
  exact encodes_bindMapping hp hb (parseTime_transpose h1) (parseTime_formatTime h2)
    (parseTime_formatTime h3)

/-- The row after the full UPDATE is the stored form of the new mapping with the old
creation time, where that is read. -/
theorem encodes_replaced_of_created {cols old : Row} {created : OffsetDateTime} (hp : PortsOk m)
    (h : C.updateRow m = .ok cols) (hc : C.parseTime old.createdAt = .ok created) (hid : old.id = cols.id) :
    Encodes C (cols.replaced old) { m with createdAt := created } := by
  unfold Codec.updateRow at h
  simp only [except_bind_ok] at h
  obtain ⟨lastCheckedAt, h1, updatedAt, h2, hb⟩ := h
  have hb' : Codec.bindMapping m lastCheckedAt old.createdAt updatedAt = .ok (cols.replaced old) := by
    unfold Codec.bindMapping at hb ⊢
    simp only [except_bind_ok] at hb ⊢
    obtain ⟨protocol, g1, mode, g2, backend, g3, status, g4, g5⟩ := hb
    cases g5
    refine ⟨protocol, g1, mode, g2, backend, g3, status, g4, ?_⟩
    simp only [Row.replaced, hid]
  exact encodes_bindMapping hp hb' (parseTime_transpose h1) hc (parseTime_formatTime h2)

theorem encodes_replaced {cols old : Row} {m₀ : Mapping} (hp : PortsOk m)
    (h : C.updateRow m = .ok cols) (ho : Encodes C old m₀) (hid : old.id = cols.id) :
    Encodes C (cols.replaced old) { m with createdAt := m₀.createdAt } :=
  encodes_replaced_of_created hp h (rowToMapping_ok.1 ho.decoded).createdAt hid

/-- The full UPDATE is by the id of the mapping, with its address and mode. -/
theorem updateRow_columns {cols : Row} (h : C.updateRow m = .ok cols) :
    cols.id = m.id.val ∧ cols.publicIp = m.publicIp.map Ipv4Addr.toText ∧
      enumString MappingMode.names m.mode = .ok cols.mode := by
  simp only [Codec.updateRow, Codec.bindMapping, except_bind_ok] at h
  obtain ⟨_, -, _, -, _, -, _, hmode, _, -, _, -, h⟩ := h
  cases h
  exact ⟨rfl, rfl, hmode⟩

theorem encodes_withEnabled (enabled : Bool) {status : MappingStatus} {s updatedAt : String}
    {t : OffsetDateTime} (h : Encodes C row m) (hs : enumString MappingStatus.names status = .ok s)
    (ht : C.formatTime t = .ok updatedAt) :
    Encodes C (row.withEnabled enabled s updatedAt)
      { m with enabled := enabled, status := status, updatedAt := t } := by
  have hc := rowToMapping_ok.1 h.decoded
  refine ⟨rowToMapping_ok.2 ?_, h.id, h.publicIp, h.edgePrivateIp, h.targetIp, h.publicPort, h.protocol,
    h.mode, rfl⟩
  exact
    { hc with
      enabled := by cases enabled <;> rfl
      status := enumFromString_enumString (by decide) hs
      updatedAt := parseTime_formatTime ht }

theorem encodes_withHealth {status : MappingStatus} {s lastCheckedAt updatedAt : String}
    (healthStatus lastError : Option String) {t t' : OffsetDateTime} (h : Encodes C row m)
    (hs : enumString MappingStatus.names status = .ok s) (ht : C.formatTime t = .ok lastCheckedAt)
    (ht' : C.formatTime t' = .ok updatedAt) :
    Encodes C (row.withHealth s healthStatus lastError lastCheckedAt updatedAt)
      { m with status := status, healthStatus := healthStatus, lastError := lastError,
               lastCheckedAt := some t, updatedAt := t' } := by
  have hc := rowToMapping_ok.1 h.decoded
  have hl : transposeMap C.parseTime (some lastCheckedAt) = .ok (some t) := by
    simp [transposeMap, parseTime_formatTime ht, Except.map]
  refine ⟨rowToMapping_ok.2 ?_, h.id, h.publicIp, h.edgePrivateIp, h.targetIp, h.publicPort, h.protocol,
    h.mode, h.enabled⟩
  exact
    { hc with
      status := enumFromString_enumString (by decide) hs
      healthStatus := rfl
      lastError := rfl
      lastCheckedAt := hl
      updatedAt := parseTime_formatTime ht' }

end EdgeRoute
