import Mathlib
import EdgeRoute.Proof.Auth
import EdgeRoute.Spec.Gateway

/-!
# What the gateway lets through

* `constantTimeEq_copies`: both copies of the comparison are equality.
* `rewriteHeaders_ok`: what is forwarded under each name.
* `mem_nominated_iff`: the names that the gateway takes from Connection are the headers it nominates.
* `rewrite_isolates`: **the agent sees the token of the gateway and none of the headers that concern the client's
  connection, and what it sees depends on the rest alone.**
-/

namespace EdgeRoute

open Effect

/-! ## Comparing tokens -/

/-- **Both copies of `constant_time_eq` are equality.** -/
theorem constantTimeEq_copies (left right : List UInt8) :
    (constantTimeEq left right = true ↔ left = right) ∧ (Gateway.constantTimeEq left right = true ↔ left = right) := by
  have hcopy : Gateway.constantTimeEq left right = constantTimeEq left right := rfl
  rw [hcopy]
  exact ⟨constantTimeEq_iff, constantTimeEq_iff⟩

/-- Zero bytes at the end make a difference. -/
example : constantTimeEq [1] [1, 0] = false := by decide

/-! ## Header maps -/

section Maps

variable {headers headers' : HeaderMap} {name token : String} {value : List UInt8}

theorem getAll_remove (headers : HeaderMap) (removed name : String) :
    (HeaderMap.remove headers removed).getAll name = if name = removed then [] else HeaderMap.getAll headers name := by
  unfold HeaderMap.remove HeaderMap.getAll
  rw [List.filter_filter]
  by_cases h : name = removed
  · subst h
    simp
  · rw [if_neg h]
    congr 1
    refine List.filter_congr fun header _ => ?_
    by_cases hname : header.1 = name
    · simp [hname, h]
    · simp [hname]

theorem getAll_insert (headers : HeaderMap) (inserted name : String) (value : List UInt8) :
    (HeaderMap.insert headers inserted value).getAll name =
      if name = inserted then [value] else HeaderMap.getAll headers name := by
  have happend : (HeaderMap.insert headers inserted value).getAll name =
      (HeaderMap.remove headers inserted).getAll name ++ HeaderMap.getAll [(inserted, value)] name := by
    unfold HeaderMap.insert HeaderMap.getAll
    rw [List.filter_append, List.map_append]
  rw [happend, getAll_remove]
  by_cases h : name = inserted
  · subst h
    simp [HeaderMap.getAll]
  · have hne : ¬ inserted = name := fun h' => h h'.symm
    simp [HeaderMap.getAll, h, hne]

theorem getAll_foldl_remove (removed : List String) (headers : HeaderMap) (name : String) :
    (removed.foldl HeaderMap.remove headers).getAll name =
      if name ∈ removed then [] else HeaderMap.getAll headers name := by
  induction removed generalizing headers with
  | nil => rfl
  | cons first rest ih =>
    rw [List.foldl_cons, ih, getAll_remove]
    by_cases h : name ∈ rest
    · simp [h]
    · by_cases h' : name = first <;> simp [h, h']

/-! ## Names -/

/-- The names of the map are header names. -/
def HeaderMap.Valid (headers : HeaderMap) : Prop :=
  ∀ header ∈ headers, headerNameFromBytes header.1.toList = some header.1

/-- A visible Connection value has the name in its list, in any letter case and with any blanks around it. -/
def Nominates (headers : HeaderMap) (name : String) : Prop :=
  ∃ value ∈ headers.getAll "connection", value.all isVisibleAscii = true ∧
    ∃ part ∈ (asciiChars value).splitOn ',', (Text.trimChars part).map Char.toLower = name.toList

theorem isHeaderNameChar_of_toLower {c : Char} (h : isHeaderNameChar c.toLower = true) : isHeaderNameChar c = true := by
  by_cases hupper : c.isUpper = true
  · simp [isHeaderNameChar, Char.isAlphanum, Char.isAlpha, hupper]
  · have hsame : c.toLower = c := by
      unfold Char.toLower
      rw [dif_neg]
      simpa [Char.isUpper] using hupper
    rwa [hsame] at h

/-- **The names that the gateway takes from Connection** are those it nominates. -/
theorem mem_nominated_iff (hname : headerNameFromBytes name.toList = some name) :
    name ∈ Gateway.connectionNominatedHeaders headers ↔ Nominates headers name := by
  unfold Gateway.connectionNominatedHeaders
  simp only [List.mem_filterMap, List.mem_flatMap]
  constructor
  · rintro ⟨part, ⟨value, ⟨raw, hraw, hvisible⟩, hpart⟩, hfrom⟩
    unfold headerToStr at hvisible
    split at hvisible
    · rename_i hall
      obtain rfl := Option.some.inj hvisible
      refine ⟨raw, hraw, hall, part, hpart, ?_⟩
      unfold headerNameFromBytes at hfrom
      split at hfrom
      · rw [← Option.some.inj hfrom, String.toList_ofList]
      · cases hfrom
    · cases hvisible
  · rintro ⟨value, hvalue, hvisible, part, hpart, hlower⟩
    refine ⟨part, ⟨value, ⟨value, hvalue, if_pos hvisible⟩, hpart⟩, ?_⟩
    -- the name is a token, so the part is one too
    unfold headerNameFromBytes at hname ⊢
    split at hname
    · rename_i htoken
      obtain ⟨hne, hlen, hall⟩ := htoken
      rw [← hlower] at hne hlen hall
      have hpos : Text.trimChars part ≠ [] := fun h => hne (by rw [h]; rfl)
      have hchars : (Text.trimChars part).all isHeaderNameChar = true := by
        rw [List.all_map] at hall
        refine List.all_eq_true.2 fun c hc => ?_
        exact isHeaderNameChar_of_toLower (List.all_eq_true.1 hall c hc)
      rw [if_pos ⟨hpos, by simpa using hlen, hchars⟩, hlower, String.ofList_toList]
    · cases hname

/-- What the map does not have under a name that is none, it does not forward either. -/
theorem getAll_eq_nil (hvalid : headers.Valid) (hname : headerNameFromBytes name.toList ≠ some name) :
    headers.getAll name = [] := by
  unfold HeaderMap.getAll
  rw [List.map_eq_nil_iff, List.filter_eq_nil_iff]
  intro header hheader h
  have hheader' := hvalid header hheader
  rw [of_decide_eq_true h] at hheader'
  exact hname hheader'

/-! ## Rewriting -/

/-- The token forms a legal header value. -/
def LegalToken (token : String) : Prop := ∀ b ∈ asBytes ("Bearer " ++ token), isHeaderByte b = true

/-- The header is removed for the client's connection. -/
def Removed (headers : HeaderMap) (name : String) : Prop := name ∈ Gateway.hopByHopHeaders ∨ Nominates headers name

/-- **What is forwarded under each name.** -/
theorem rewriteHeaders_ok (headers : HeaderMap) (htoken : LegalToken token) :
    ∃ out, Gateway.rewriteHeaders headers token = .ok out ∧
    ∀ name, out.getAll name =
      if name = "authorization" then [asBytes ("Bearer " ++ token)] else if name = "host" then [asBytes "edge-agent"]
      else if name ∈ Gateway.connectionNominatedHeaders headers then []
      else if name ∈ Gateway.hopByHopHeaders then [] else headers.getAll name := by
  have hvalue : headerValueFromStr ("Bearer " ++ token) = .ok (asBytes ("Bearer " ++ token)) := by
    unfold headerValueFromStr
    rw [if_pos (List.all_eq_true.2 htoken)]
  unfold Gateway.rewriteHeaders
  rw [hvalue]
  refine ⟨_, rfl, fun name => ?_⟩
  rw [getAll_insert, getAll_insert, getAll_remove, getAll_foldl_remove, getAll_foldl_remove]
  by_cases hauth : name = "authorization" <;> simp [hauth]

/-- The headers that a request is forwarded with. -/
structure Isolated (headers : HeaderMap) (token : String) (out : HeaderMap) : Prop where
  authorization : out.getAll "authorization" = [asBytes ("Bearer " ++ token)]
  host : out.getAll "host" = [asBytes "edge-agent"]
  hopByHop : ∀ name ∈ Gateway.hopByHopHeaders, out.getAll name = []
  nominated : ∀ name, Nominates headers name → name ≠ "authorization" → name ≠ "host" → out.getAll name = []
  kept : ∀ name, name ≠ "authorization" → name ≠ "host" → ¬ Removed headers name →
    out.getAll name = headers.getAll name

/-- The requests differ in Authorization, Host and removed headers only: any other header is in neither, or has the
same values in both. -/
def Alike (headers headers' : HeaderMap) : Prop :=
  ∀ name, name ≠ "authorization" → name ≠ "host" →
    ((Removed headers name ∨ headers.getAll name = []) ∧ (Removed headers' name ∨ headers'.getAll name = [])) ∨
    (¬ Removed headers name ∧ ¬ Removed headers' name ∧ headers.getAll name = headers'.getAll name)

/-- The rules of `Isolated`, in one place. -/
theorem isolated_rewrite (hvalid : headers.Valid) (htoken : LegalToken token) :
    ∃ out, Gateway.rewriteHeaders headers token = .ok out ∧ Isolated headers token out := by
  obtain ⟨out, hout, hnames⟩ := rewriteHeaders_ok headers htoken
  have hnominated : ∀ name, Nominates headers name → name ≠ "authorization" → name ≠ "host" → out.getAll name = [] := by
    intro name hnom hauth hhost
    rw [hnames, if_neg hauth, if_neg hhost]
    by_cases hname : headerNameFromBytes name.toList = some name
    · rw [if_pos ((mem_nominated_iff hname).2 hnom)]
    · rw [getAll_eq_nil hvalid hname]
      simp
  refine ⟨out, hout, by simp [hnames], by simp [hnames], fun name hname => ?_, hnominated,
    fun name hauth hhost hkept => ?_⟩
  · have hother : "authorization" ∉ Gateway.hopByHopHeaders ∧ "host" ∉ Gateway.hopByHopHeaders := by decide
    have hauth : name ≠ "authorization" := fun h => hother.1 (h ▸ hname)
    have hhost : name ≠ "host" := fun h => hother.2 (h ▸ hname)
    rw [hnames, if_neg hauth, if_neg hhost, if_pos hname]
    simp
  · rw [Removed, not_or] at hkept
    rw [hnames, if_neg hauth, if_neg hhost, if_neg hkept.1]
    by_cases hname : headerNameFromBytes name.toList = some name
    · rw [if_neg fun h => hkept.2 ((mem_nominated_iff hname).1 h)]
    · rw [getAll_eq_nil hvalid hname]
      simp

/-- A header that is removed, or was not there, is not forwarded. -/
theorem Isolated.nil {out : HeaderMap} (h : Isolated headers token out) (hauth : name ≠ "authorization")
    (hhost : name ≠ "host") (hgone : Removed headers name ∨ headers.getAll name = []) : out.getAll name = [] := by
  by_cases hremoved : Removed headers name
  · rcases hremoved with hhop | hnom
    · exact h.hopByHop name hhop
    · exact h.nominated name hnom hauth hhost
  · rw [h.kept name hauth hhost hremoved]
    exact hgone.resolve_left hremoved

/-- **The agent is isolated from the client's connection and credentials**, and requests that differ in these alone
are forwarded with the same headers. -/
theorem rewrite_isolates (hvalid : headers.Valid) (htoken : LegalToken token) :
    ∃ out, Gateway.rewriteHeaders headers token = .ok out ∧ Isolated headers token out ∧
      ∀ headers' : HeaderMap, headers'.Valid → Alike headers headers' →
        ∃ out', Gateway.rewriteHeaders headers' token = .ok out' ∧ ∀ name, out'.getAll name = out.getAll name := by
  obtain ⟨out, hout, hisolated⟩ := isolated_rewrite hvalid htoken
  refine ⟨out, hout, hisolated, fun headers' hvalid' halike => ?_⟩
  obtain ⟨out', hout', hisolated'⟩ := isolated_rewrite hvalid' htoken
  refine ⟨out', hout', fun name => ?_⟩
  by_cases hauth : name = "authorization"
  · rw [hauth, hisolated.authorization, hisolated'.authorization]
  by_cases hhost : name = "host"
  · rw [hhost, hisolated.host, hisolated'.host]
  rcases halike name hauth hhost with ⟨hgone, hgone'⟩ | ⟨hkept, hkept', hsame⟩
  · rw [hisolated.nil hauth hhost hgone, hisolated'.nil hauth hhost hgone']
  · rw [hisolated.kept name hauth hhost hkept, hisolated'.kept name hauth hhost hkept', hsame]

/-- A request with a token of its own and a header for its connection. -/
def sampleHeaders : HeaderMap :=
  [("authorization", asBytes "Bearer client-token"), ("x-remove-me", asBytes "value"),
    ("transfer-encoding", asBytes "chunked"), ("connection", asBytes "upgrade, X-Remove-Me"), ("accept", asBytes "*/*")]

/-- **The request of the unit test** is forwarded with the token of the gateway and what it accepts. -/
theorem rewrite_isolates_sample : ∃ out, Gateway.rewriteHeaders sampleHeaders "upstream-token" = .ok out ∧
    Isolated sampleHeaders "upstream-token" out ∧ out.getAll "accept" = [asBytes "*/*"] ∧
      out.getAll "x-remove-me" = [] := by
  have hvalid : ∀ header ∈ sampleHeaders, headerNameFromBytes header.1.toList = some header.1 := by decide +kernel
  have htoken : ∀ b ∈ asBytes ("Bearer " ++ "upstream-token"), isHeaderByte b = true := by decide +kernel
  obtain ⟨out, hout, hisolated, -⟩ := rewrite_isolates hvalid htoken
  have hfacts : (Gateway.rewriteHeaders sampleHeaders "upstream-token").map
      (fun out => (HeaderMap.getAll out "accept", HeaderMap.getAll out "x-remove-me")) = .ok ([asBytes "*/*"], []) := by
    decide +kernel
  rw [hout] at hfacts
  obtain ⟨haccept, hremoved⟩ := Prod.mk.inj (Except.ok.inj hfacts)
  exact ⟨out, hout, hisolated, haccept, hremoved⟩

end Maps

end EdgeRoute
