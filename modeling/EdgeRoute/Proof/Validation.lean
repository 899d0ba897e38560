import EdgeRoute.Spec.Validation
import Mathlib.Data.List.Pairwise

/-!
# What validation establishes

* `validateMapping_parts`: an accepted mapping passes each of the checks.
* `portForward_shape`, `oneToOne_shape`: the ports and the protocol of an accepted mapping.
* `validateMappings_ok`: a list is accepted exactly when each mapping is, and any
  two are admissible beside each other.
-/

namespace EdgeRoute

open Effect

variable {m m' : Mapping} {c : EdgeConfig}

/-- **What two mappings of a list owe each other.** -/
def Admissible (m m' : Mapping) : Prop := conflicts m m' = false ∧ sharesPublicIp m m' = false

instance (m m' : Mapping) : Decidable (Admissible m m') :=
  inferInstanceAs (Decidable (_ ∧ _))

theorem conflicts_comm (m m' : Mapping) : conflicts m m' = conflicts m' m := by
  unfold conflicts
  rw [Bool.or_comm]
  split
  · rfl
  rw [Bool.beq_comm (a := m.edgePrivateIp), Bool.beq_comm (a := m.targetIp),
    Bool.beq_comm (a := m.protocol), Bool.beq_comm (a := m.publicPort)]
  cases m.mode <;> cases m'.mode <;> rfl

theorem sharesPublicIp_iff : sharesPublicIp m m' = true ↔
    m.publicIp ≠ none ∧ m.publicIp = m'.publicIp ∧ (m.mode = .oneToOneSnat ∨ m'.mode = .oneToOneSnat) := by
  simp [sharesPublicIp, and_assoc, Option.isSome_iff_ne_none]

theorem sharesPublicIp_comm (m m' : Mapping) : sharesPublicIp m m' = sharesPublicIp m' m := by
  rw [Bool.eq_iff_iff, sharesPublicIp_iff, sharesPublicIp_iff]
  constructor <;> rintro ⟨h, he, hm⟩ <;> exact ⟨he ▸ h, he.symm, hm.symm⟩

theorem Admissible.symm (h : Admissible m m') : Admissible m' m :=
  ⟨conflicts_comm m m' ▸ h.1, sharesPublicIp_comm m m' ▸ h.2⟩

instance : Std.Symm Admissible := ⟨fun _ _ h => h.symm⟩

/-! ## One mapping -/

/-- The checks of `validate_mapping`, apart. -/
theorem validateMapping_parts (h : validateMapping m c = .ok ()) :
    validateName m.name = .ok () ∧ validateOptionalPublicIp m.publicIp = .ok () ∧
      validateEdgePrivateIp m.edgePrivateIp = .ok () ∧
      validateTargetIp m.targetIp c.targetCidrs = .ok () ∧ validateBackend m = .ok () ∧
      validateMode m = .ok () := by
  unfold validateMapping at h
  simp only [except_seq_ok] at h
  obtain ⟨h1, h2, h3, h4, -, -, h5, h6⟩ := h
  exact ⟨h1, h2, h3, h4, h5, h6⟩

/-- Ports and protocol of a port forward. -/
theorem portForward_shape (h : validateMode m = .ok ()) (hm : m.mode = .portForwardSnat) :
    ∃ p t, m.publicPort = some p ∧ p ≠ 0 ∧ m.targetPort = some t ∧ t ≠ 0 ∧ m.protocol ≠ .all := by
  unfold validateMode at h
  rw [hm] at h
  simp only [except_seq_ok, rejectIf_ok] at h
  obtain ⟨h1, h2, h3, h4, h5⟩ := h
  cases hp : m.publicPort with
  | none => rw [hp] at h1; cases h1
  | some p =>
    cases ht : m.targetPort with
    | none => rw [ht] at h3; cases h3
    | some t =>
      refine ⟨p, t, rfl, ?_, rfl, ?_, ?_⟩
      · rintro rfl; rw [hp] at h2; simp at h2
      · rintro rfl; rw [ht] at h4; simp at h4
      · intro hall; rw [hall] at h5; simp at h5

/-- Ports and protocol of a one-to-one mapping. -/
theorem oneToOne_shape (h : validateMode m = .ok ()) (hm : m.mode = .oneToOneSnat) :
    m.publicPort = none ∧ m.targetPort ≠ some 0 ∧ m.protocol = .all := by
  unfold validateMode at h
  rw [hm] at h
  simp only [except_seq_ok, rejectIf_ok] at h
  obtain ⟨h1, h2, h3⟩ := h
  refine ⟨?_, ?_, ?_⟩
  · simpa using h1
  · intro ht; rw [ht] at h2; simp at h2
  · simpa using h3

/-- The target of an accepted mapping lies in a configured network. -/
theorem containsTarget_of_valid (h : validateMapping m c = .ok ()) :
    c.containsTarget m.targetIp = true := by
  obtain ⟨-, -, -, ht, -, -⟩ := validateMapping_parts h
  unfold validateTargetIp at ht
  split at ht
  · cases ht
  · rename_i cidr hf
    exact List.any_eq_true.2 ⟨cidr, List.mem_of_find?_eq_some hf, by simpa using List.find?_some hf⟩

/-! ## A list of mappings -/

theorem validateEach_ok {ms : List Mapping} :
    validateEach c ms = .ok () ↔ ∀ m ∈ ms, validateMapping m c = .ok () := by
  induction ms with
  | nil => simp [validateEach]
  | cons m ms ih =>
    simp only [validateEach, except_seq_ok, List.forall_mem_cons, ih]

theorem checkAgainst_ok {ms : List Mapping} :
    checkAgainst m ms = .ok () ↔ ∀ m' ∈ ms, Admissible m m' := by
  induction ms with
  | nil => simp [checkAgainst]
  | cons m' ms ih =>
    rw [List.forall_mem_cons, ← ih]
    simp only [checkAgainst, except_seq_ok, rejectIf_ok, Admissible]
    have hnone : m.publicIp = none → sharesPublicIp m m' = false := fun h => by simp [sharesPublicIp, h]
    cases hp : m.publicIp with
    | none => simp [hnone hp]
    | some ip => by_cases hs : sharesPublicIp m m' <;> simp [hs]

/-- The set of seen addresses refuses nothing that the pairwise test accepts. -/
theorem checkPairs_ok {ms : List Mapping} {seen : List Ipv4Addr} :
    checkPairs seen ms = .ok () ↔
      (∀ m ∈ ms, m.mode = .oneToOneSnat → ∀ ip, m.publicIp = some ip → ip ∉ seen) ∧
        ms.Pairwise Admissible := by
  induction ms generalizing seen with
  | nil => simp [checkPairs]
  | cons m ms ih =>
    have hnote : ∀ seen', notePublicIp seen m = .ok seen' ↔
        (m.mode = .oneToOneSnat → ∀ ip, m.publicIp = some ip → ip ∉ seen) ∧
          seen' = if m.mode = .oneToOneSnat then m.publicIp.toList ++ seen else seen := by
      intro seen'
      unfold notePublicIp
      cases hp : m.publicIp with
      | none => simp [eq_comm]
      | some ip =>
        cases hm : m.mode with
        | portForwardSnat => simp [eq_comm]
        | oneToOneSnat => by_cases hs : ip ∈ seen <;> simp [hs, eq_comm]
    simp only [checkPairs, except_bind_ok (α := List Ipv4Addr), except_seq_ok, hnote, checkAgainst_ok,
      ih, List.forall_mem_cons, List.pairwise_cons]
    constructor
    · rintro ⟨seen', ⟨h1, rfl⟩, h2, h3, h4⟩
      refine ⟨⟨h1, fun x hx hxm ip hip hmem => h3 x hx hxm ip hip ?_⟩, h2, h4⟩
      split
      · exact List.mem_append_right _ hmem
      · exact hmem
    · rintro ⟨⟨h1, h3⟩, h2, h4⟩
      refine ⟨_, ⟨h1, rfl⟩, h2, fun x hx hxm ip hip hmem => ?_, h4⟩
      split at hmem
      · -- an address noted for `m` itself would be shared with `x`
        rename_i hmm
        rcases List.mem_append.1 hmem with hm | hm
        · have hsh : sharesPublicIp m x = true := by
            rw [sharesPublicIp_iff, hip]
            rw [Option.mem_toList] at hm
            exact ⟨by rw [hm]; simp, hm, .inl hmm⟩
          rw [(h2 x hx).2] at hsh; cases hsh
        · exact h3 x hx hxm ip hip hm
      · exact h3 x hx hxm ip hip hmem

/-- **`validate_mappings` decides**: each mapping is valid and any two are admissible. -/
theorem validateMappings_ok {ms : List Mapping} : validateMappings ms c = .ok () ↔
    (∀ m ∈ ms, validateMapping m c = .ok ()) ∧ ms.Pairwise Admissible := by
  unfold validateMappings
  simp only [except_seq_ok, validateEach_ok, checkPairs_ok]
  simp

/-- The verdict does not depend on the order of the list. -/
theorem validateMappings_perm {ms ms' : List Mapping} (h : ms.Perm ms') :
    validateMappings ms c = .ok () ↔ validateMappings ms' c = .ok () := by
  rw [validateMappings_ok, validateMappings_ok, h.pairwise_iff (fun h => Admissible.symm h)]
  simp only [h.mem_iff]

/-- Any two mappings at different places of an accepted list are admissible. -/
theorem admissible_of_ne {ms : List Mapping} (h : validateMappings ms c = .ok ()) (hm : m ∈ ms)
    (hm' : m' ∈ ms) (hne : m ≠ m') : Admissible m m' :=
  (validateMappings_ok.1 h).2.forall hm hm' hne

/-! ## Samples -/

def sampleConfig : EdgeConfig where
  wanInterface := "ens3"
  netbirdInterface := "wt0"
  targetCidrs := [⟨⟨192, 168, 20, 0⟩, 24, by decide⟩]

def sampleTime : OffsetDateTime := ⟨1767225600000000000, 0⟩

def sampleMapping : Mapping :=
  Mapping.new ⟨"vm", by decide, by decide⟩ sampleTime "prod_vm_1" none ⟨10, 0, 0, 101⟩
    ⟨192, 168, 20, 42⟩

def samplePortForward : Mapping :=
  { Mapping.new ⟨"https", by decide, by decide⟩ sampleTime "https" (some ⟨8, 8, 8, 8⟩)
      ⟨10, 0, 0, 101⟩ ⟨192, 168, 20, 42⟩ with
    mode := .portForwardSnat
    protocol := .tcp
    publicPort := some 443
    targetPort := some 8443 }

/-- A second service on the addresses of `samplePortForward`. -/
def sampleDns : Mapping :=
  { Mapping.new ⟨"dns", by decide, by decide⟩ sampleTime "dns" (some ⟨8, 8, 8, 8⟩) ⟨10, 0, 0, 101⟩
      ⟨192, 168, 20, 43⟩ with
    mode := .portForwardSnat
    protocol := .udp
    publicPort := some 53
    targetPort := some 5353 }

example : validateMappings [samplePortForward, sampleDns] sampleConfig = .ok () := by decide

end EdgeRoute
