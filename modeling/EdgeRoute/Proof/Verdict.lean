import EdgeRoute.Proof.Validation

/-!
# The verdict on a list of mappings

`validate_mappings` runs a quadratic loop and, beside it, a set of the public
addresses seen so far. It decides a symmetric relation on pairs all the same:

* `blames_of_conflicts`: the error selector names an address the two mappings share.
* `checkAgainst_error`, `checkPairs_error`: an error of the two loops blames two entries.
* `validateMappings_decides`: the relation, its independence of order, and the errors.
-/

namespace EdgeRoute

open Effect

variable {m m' : Mapping} {c : EdgeConfig} {e : EdgeCoreError} {ms : List Mapping}

/-- The two mappings name one public address, and one of them owns it alone. -/
def SamePublicIp (m m' : Mapping) : Prop :=
  ∃ ip, m.publicIp = some ip ∧ m'.publicIp = some ip ∧ (m.mode = .oneToOneSnat ∨ m'.mode = .oneToOneSnat)

/-- What an error says of the two mappings it was returned for: they share the
address it carries, in the role it names. -/
def Blames (m m' : Mapping) : EdgeCoreError → Prop
  | .duplicatePublicIp ip => m.publicIp = some ip ∧ m'.publicIp = some ip ∧
      (m.mode = .oneToOneSnat ∨ m'.mode = .oneToOneSnat)
  | .duplicateTargetIp ip => m.targetIp = ip ∧ m'.targetIp = ip ∧
      m.mode = .oneToOneSnat ∧ m'.mode = .oneToOneSnat ∧ m.enabled = true ∧ m'.enabled = true
  | .duplicateEdgePrivateIp ip => m.edgePrivateIp = ip ∧ m'.edgePrivateIp = ip ∧
      m.enabled = true ∧ m'.enabled = true
  | _ => False

theorem samePublicIp_iff : SamePublicIp m m' ↔ sharesPublicIp m m' = true := by
  rw [sharesPublicIp_iff]
  constructor
  · intro ⟨ip, h, h', hm⟩
    exact ⟨by rw [h]; exact Option.some_ne_none ip, h.trans h'.symm, hm⟩
  · intro ⟨hne, he, hm⟩
    obtain ⟨ip, h⟩ := Option.ne_none_iff_exists'.1 hne
    exact ⟨ip, h, he ▸ h, hm⟩

theorem admissible_iff : Admissible m m' ↔ conflicts m m' = false ∧ ¬ SamePublicIp m m' := by
  rw [Admissible, samePublicIp_iff, Bool.not_eq_true]

/-! ## Errors -/

/-- Two mappings in conflict are enabled, and share their edge address or, both
one-to-one, their target. -/
theorem shared_of_conflicts (h : conflicts m m' = true) :
    m.enabled = true ∧ m'.enabled = true ∧
      (m.edgePrivateIp = m'.edgePrivateIp ∨
        (m.mode = .oneToOneSnat ∧ m'.mode = .oneToOneSnat ∧ m.targetIp = m'.targetIp)) := by
  unfold conflicts at h
  split at h
  · exact absurd h Bool.false_ne_true
  · rename_i hen
    have hen' : m.enabled = true ∧ m'.enabled = true := by simpa using hen
    refine ⟨hen'.1, hen'.2, ?_⟩
    split at h
    · rename_i hm hm'
      rw [Bool.or_eq_true, beq_iff_eq, beq_iff_eq] at h
      exact h.imp id fun ht => ⟨hm, hm', ht⟩
    · exact .inl (beq_iff_eq.1 h)
    · exact .inl (beq_iff_eq.1 h)
    · rw [Bool.and_eq_true, Bool.and_eq_true, beq_iff_eq] at h
      exact .inl h.1.1

/-- **The error selector** names an address the two mappings share: its generic
last case is never reached. -/
theorem blames_of_conflicts (h : conflicts m m' = true) : Blames m m' (conflictError m m') := by
  obtain ⟨hen, hen', hshare⟩ := shared_of_conflicts h
  unfold conflictError
  by_cases ht : m.mode = .oneToOneSnat ∧ m'.mode = .oneToOneSnat ∧ m.targetIp = m'.targetIp
  · rw [if_pos ht]
    exact ⟨rfl, ht.2.2.symm, ht.1, ht.2.1, hen, hen'⟩
  · have he : m.edgePrivateIp = m'.edgePrivateIp := hshare.resolve_right ht
    rw [if_neg ht, if_pos he]
    exact ⟨rfl, he.symm, hen, hen'⟩

/-- The inner loop blames the mapping it checks and a later one. -/
theorem checkAgainst_error (h : checkAgainst m ms = .error e) : ∃ m' ∈ ms, Blames m m' e := by
  induction ms with
  | nil => cases h
  | cons m' ms ih =>
    have hrest : checkAgainst m ms = .error e → ∃ x ∈ m' :: ms, Blames m x e := by
      intro hr
      obtain ⟨x, hx, hb⟩ := ih hr
      exact ⟨x, List.mem_cons_of_mem m' hx, hb⟩
    rw [checkAgainst, except_bind_error] at h
    rcases h with hc | ⟨-, -, h⟩
    · obtain ⟨hcon, rfl⟩ := rejectIf_error.1 hc
      exact ⟨m', List.mem_cons_self, blames_of_conflicts hcon⟩
    · split at h
      · rename_i ip hip
        split at h
        · rename_i hs
          cases h
          obtain ⟨-, he, hm⟩ := sharesPublicIp_iff.1 hs
          exact ⟨m', List.mem_cons_self, hip, he ▸ hip, hm⟩
        · exact hrest h
      · exact hrest h

/-- The addresses noted after `m` are those noted before and its own, if it is one-to-one. -/
theorem notePublicIp_mem {seen seen' : List Ipv4Addr} (h : notePublicIp seen m = .ok seen') :
    ∀ ip ∈ seen', ip ∈ seen ∨ (m.publicIp = some ip ∧ m.mode = .oneToOneSnat) := by
  intro ip hip
  unfold notePublicIp at h
  split at h
  · rename_i own hown hmode
    split at h
    · cases h
    · cases h
      rcases List.mem_cons.1 hip with rfl | hs
      · exact .inr ⟨hown, hmode⟩
      · exact .inl hs
  · cases h
    exact .inl hip

theorem notePublicIp_error {seen : List Ipv4Addr} (h : notePublicIp seen m = .error e) :
    ∃ ip ∈ seen, m.publicIp = some ip ∧ m.mode = .oneToOneSnat ∧ e = .duplicatePublicIp ip := by
  unfold notePublicIp at h
  split at h
  · rename_i ip hip hmode
    split at h
    · rename_i hmem
      cases h
      exact ⟨ip, hmem, hip, hmode, rfl⟩
    · cases h
  · cases h

/-- **The outer loop** fails only where two entries of the list can be blamed,
the noted addresses being those of entries already passed. -/
theorem checkPairs_error {seen : List Ipv4Addr} (h : checkPairs seen ms = .error e)
    (hseen : ∀ m ∈ ms, ∀ ip ∈ seen, m.publicIp = some ip → m.mode = .oneToOneSnat →
      e ≠ .duplicatePublicIp ip) : ¬ ms.Pairwise fun m m' => ¬ Blames m m' e := by
  induction ms generalizing seen with
  | nil => cases h
  | cons m ms ih =>
    rw [List.pairwise_cons]
    intro ⟨hhead, htail⟩
    rw [checkPairs, except_bind_error] at h
    rcases h with hn | ⟨seen', hn, h⟩
    · obtain ⟨ip, hmem, hip, hmode, rfl⟩ := notePublicIp_error hn
      exact hseen m List.mem_cons_self ip hmem hip hmode rfl
    rw [except_bind_error] at h
    rcases h with ha | ⟨-, -, h⟩
    · obtain ⟨m', hm', hb⟩ := checkAgainst_error ha
      exact hhead m' hm' hb
    · refine ih h ?_ htail
      intro m' hm' ip hip hpub hmode heq
      rcases notePublicIp_mem hn ip hip with hold | ⟨hown, hone⟩
      · exact hseen m' (List.mem_cons_of_mem m hm') ip hold hpub hmode heq
      · -- the address was noted for `m`: `m` and `m'` share it
        have hb : Blames m m' e := by
          rw [heq]
          exact ⟨hown, hpub, .inl hone⟩
        exact hhead m' hm' hb

/-! ## The verdict -/

/-- **`validate_mappings` decides the intended relation.** -/
theorem validateMappings_decides (ms : List Mapping) (c : EdgeConfig) :
    (validateMappings ms c = .ok () ↔ (∀ m ∈ ms, validateMapping m c = .ok ()) ∧
      ∀ (i j : Nat) (hi : i < ms.length) (hj : j < ms.length), i < j →
        conflicts ms[i] ms[j] = false ∧ ¬ SamePublicIp ms[i] ms[j]) ∧
    (∀ ms', ms.Perm ms' → (validateMappings ms' c = .ok () ↔ validateMappings ms c = .ok ())) ∧
    (∀ ms', ms'.Sublist ms → validateMappings ms c = .ok () → validateMappings ms' c = .ok ()) ∧
    (∀ e, (∀ m ∈ ms, validateMapping m c = .ok ()) → validateMappings ms c = .error e →
      ∃ (i j : Nat) (hi : i < ms.length) (hj : j < ms.length), i < j ∧ Blames ms[i] ms[j] e) ∧
    ∀ m m', conflicts m m' = true → ∀ t, conflictError m m' ≠ .validation t := by
  refine ⟨?_, ?_, ?_, ?_, ?_⟩
  · rw [validateMappings_ok, List.pairwise_iff_getElem]
    simp only [admissible_iff]
  · intro ms' hp
    exact validateMappings_perm hp.symm
  · intro ms' hs h
    rw [validateMappings_ok] at h ⊢
    exact ⟨fun m hm => h.1 m (hs.subset hm), h.2.sublist hs⟩
  · intro e hvalid h
    have hloop : checkPairs [] ms = .error e := by
      rw [validateMappings, validateEach_ok.2 hvalid] at h
      exact h
    have hnot := checkPairs_error hloop (fun _ _ _ hip => absurd hip List.not_mem_nil)
    rw [List.pairwise_iff_getElem] at hnot
    push Not at hnot
    exact hnot
  · intro m m' h t ht
    have hb := blames_of_conflicts h
    rw [ht] at hb
    exact hb

/-- A port forward on the edge address of a one-to-one mapping, and the pair the error blames. -/
theorem validateMappings_decides_shared :
    validateMappings [samplePortForward, sampleMapping, sampleMapping] sampleConfig =
        .error (.duplicateEdgePrivateIp ⟨10, 0, 0, 101⟩) ∧
      ∃ (i j : Nat) (hi : i < 3) (hj : j < 3), i < j ∧
        Blames [samplePortForward, sampleMapping, sampleMapping][i]
          [samplePortForward, sampleMapping, sampleMapping][j] (.duplicateEdgePrivateIp ⟨10, 0, 0, 101⟩) :=
  have h : validateMappings [samplePortForward, sampleMapping, sampleMapping] sampleConfig =
      .error (.duplicateEdgePrivateIp ⟨10, 0, 0, 101⟩) := by decide
  ⟨h, (validateMappings_decides [samplePortForward, sampleMapping, sampleMapping] sampleConfig).2.2.2.1 _
    (by decide) h⟩

end EdgeRoute
