import EdgeRoute.Proof.Validation
import EdgeRoute.Spec.Render

/-!
# The renderer

* `renderNftables_ok`: on a valid list the renderer returns a text, and never panics.
-/

namespace EdgeRoute

open Effect

variable {m : Mapping} {c : EdgeConfig} {rc : NftRenderConfig} {ms : List Mapping}

theorem isNftPortForward_iff : isNftPortForward m = true ↔
    m.enabled = true ∧ m.backend = .nft ∧ m.mode = .portForwardSnat := by
  simp [isNftPortForward, and_assoc]

theorem isNftOneToOne_iff : isNftOneToOne m = true ↔
    m.enabled = true ∧ m.backend = .nft ∧ m.mode = .oneToOneSnat := by
  simp [isNftOneToOne, and_assoc]

/-- The rule of a valid port forward is rendered: its ports are there and its protocol has a name. -/
theorem renderPortForward_ok (wan : String) (hv : validateMode m = .ok ()) (hm : m.mode = .portForwardSnat) :
    ∃ rule, renderPortForward wan m = .ok rule := by
  obtain ⟨p, t, hp, -, ht, -, hpr⟩ := portForward_shape hv hm
  unfold renderPortForward
  rw [hp, ht]
  cases hproto : m.protocol with
  | all => exact absurd hproto hpr
  | tcp => exact ⟨_, rfl⟩
  | udp => exact ⟨_, rfl⟩

theorem renderPortForwards_ok (wan : String)
    (h : ∀ m ∈ ms, validateMode m = .ok () ∧ m.mode = .portForwardSnat) :
    ∃ rules, renderPortForwards wan ms = .ok rules := by
  induction ms with
  | nil => exact ⟨_, rfl⟩
  | cons m ms ih =>
    rw [List.forall_mem_cons] at h
    obtain ⟨rule, hrule⟩ := renderPortForward_ok wan h.1.1 h.1.2
    obtain ⟨rules, hrules⟩ := ih h.2
    simp only [renderPortForwards, hrule, hrules]
    exact ⟨_, rfl⟩

/-- **On a valid list the renderer returns a text.** -/
theorem renderNftables_ok (rc : NftRenderConfig) (h : validateMappings ms c = .ok ()) :
    ∃ text, renderNftables ms c rc = .ok text := by
  have hpf : ∀ m ∈ ms.filter isNftPortForward, validateMode m = .ok () ∧ m.mode = .portForwardSnat := by
    intro m hm
    obtain ⟨hm, hf⟩ := List.mem_filter.1 hm
    exact ⟨(validateMapping_parts ((validateMappings_ok.1 h).1 m hm)).2.2.2.2.2,
      (isNftPortForward_iff.1 hf).2.2⟩
  obtain ⟨rules, hrules⟩ := renderPortForwards_ok c.wanInterface hpf
  unfold renderNftables renderRuleset
  rw [h, hrules]
  exact ⟨_, rfl⟩

/-- Only valid lists are rendered. -/
theorem validateMappings_of_render {text : String} (h : renderNftables ms c rc = .ok text) :
    validateMappings ms c = .ok () := by
  unfold renderNftables at h
  split at h
  · cases h
  · assumption

end EdgeRoute
