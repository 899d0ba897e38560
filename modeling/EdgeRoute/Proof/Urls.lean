import EdgeRoute.Lib.Urlencoded
import EdgeRoute.Spec.Gateway

/-!
# The gateway's URLs

The gateway splices what an operator entered into a path or a query; the agent splits and decodes.

* `UriSplits`, `AxumDecodes`: how the parser of the gateway and the extractors of the agent read a text.
* `route_ok_iff`, `vnicCheck_iff`, `publicIps_iff`: which request is which call.
* `urls_decode_iff`: **the agent gets the action and the value that were entered exactly where the parser
  takes the text and nothing in the value means something in a URL.**
-/

namespace EdgeRoute

open Urlencoded

/-! ## Between gateway and agent -/

/-- The path of a target ends at `?` or `#`, its query, after `?`, at `#`. -/
def splitTarget (target : String) : Gateway.Uri where
  path := String.ofList (target.toList.takeWhile fun c => c ≠ '?' ∧ c ≠ '#')
  query :=
    match target.toList.dropWhile fun c => c ≠ '?' ∧ c ≠ '#' with
    | '?' :: rest => some (String.ofList (rest.takeWhile (· ≠ '#')))
    | _ => none

/-- The parser of the `http` crate splits what it accepts. -/
structure UriSplits (U : Gateway.UriParser) : Prop where
  splits : ∀ target uri, target.toList.head? = some '/' → U ("http://edge-agent" ++ target) = .ok uri →
    uri = splitTarget target

/-- The extractors of axum: a segment is percent-decoded and must be UTF-8, and a field of a query is the only
value of its name in the form. -/
structure AxumDecodes (X : Extractors) : Prop where
  path : ∀ s t, X.path s = .ok t ↔ decodeUtf8 (percentDecode s.toList) = some t
  vnicQuery : ∀ q v, X.vnicQuery q = .ok (some v) ↔ formValues "vnic_id".toList q.toList = [v.toList]
  compartmentQuery : ∀ q v, X.compartmentQuery q = .ok (some v) ↔
    formValues "compartment_id".toList q.toList = [v.toList]

/-- The segments of a path. -/
def pathSegments (path : String) : List String := (path.toList.tail.splitOn '/').map String.ofList

/-- The request as the agent gets it. -/
def agentRequest (method : Method) (uri : Gateway.Uri) (headers : HeaderMap) (body : List UInt8) : HttpRequest :=
  ⟨method, pathSegments uri.path, uri.query.getD "", headers, body⟩

variable {U : Gateway.UriParser} {X : Extractors}

/-- The path goes out and is this call to the agent. -/
def Reaches (U : Gateway.UriParser) (X : Extractors) (method : Method) (path : String) (call : ApiCall) : Prop :=
  ∃ uri, Gateway.upstreamUri U path = .ok uri ∧
    ∀ headers body, route X (agentRequest method uri headers body) = .ok call

/-- The parser takes the path. -/
def Accepts (U : Gateway.UriParser) (path : String) : Prop := ∃ uri, Gateway.upstreamUri U path = .ok uri

/-- An action of the page on a mapping. -/
inductive UiAction where
  | enable
  | disable
  | delete

namespace UiAction

def path : UiAction → String → String
  | .enable => Gateway.enablePath
  | .disable => Gateway.disablePath
  | .delete => Gateway.deletePath

def method : UiAction → Method
  | .enable => .post
  | .disable => .post
  | .delete => .delete

def call : UiAction → String → ApiCall
  | .enable => .enableMapping
  | .disable => .disableMapping
  | .delete => .deleteMapping

/-- The segments after the id. -/
def last : UiAction → List String
  | .enable => ["enable"]
  | .disable => ["disable"]
  | .delete => []

/-- What follows the id in the path. -/
def suffix : UiAction → String
  | .enable => "/enable"
  | .disable => "/disable"
  | .delete => ""

theorem path_eq (action : UiAction) (id : String) : action.path id = "/v1/mappings/" ++ id ++ action.suffix := by
  cases action with
  | enable => rfl
  | disable => rfl
  | delete => simp [path, suffix, Gateway.deletePath]

end UiAction

/-- **An id that means nothing else in a path.** -/
def PlainId (id : String) : Prop :=
  '/' ∉ id.toList ∧ '?' ∉ id.toList ∧ '#' ∉ id.toList ∧ hasEscape id.toList = false

/-- **A value that means nothing else in a query.** -/
def PlainValue (value : String) : Prop :=
  '&' ∉ value.toList ∧ '#' ∉ value.toList ∧ '+' ∉ value.toList ∧ hasEscape value.toList = false

instance decidablePlainId (id : String) : Decidable (PlainId id) := inferInstanceAs (Decidable (_ ∧ _))

instance decidablePlainValue (value : String) : Decidable (PlainValue value) := inferInstanceAs (Decidable (_ ∧ _))

/-! ## Routes -/

variable {request : HttpRequest} {action : UiAction} {id seg : String}

theorem except_map_ok {α β ε : Type} {x : Except ε α} {f : α → β} {b : β} :
    x.map f = .ok b ↔ ∃ a, x = .ok a ∧ f a = b := by
  cases x <;> simp [Except.map]

/-- Only the route of an action leads to it. -/
theorem routes_action {path : List String} {methods : MethodRouter} {method : Method}
    (hr : routes X request path = some methods) (hm : methods.find method = some (.ok (action.call id))) :
    ∃ seg, path = "v1" :: "mappings" :: seg :: action.last ∧ X.path seg = .ok id := by
  unfold routes at hr
  split at hr
  case h_3 seg =>
    split at hr
    · cases hr
    · cases hr
      cases method with
      | delete =>
        obtain ⟨a, ha, hcall⟩ := except_map_ok.1 (Option.some.inj hm)
        cases action <;> cases hcall
        exact ⟨seg, rfl, ha⟩
      | get | head =>
        obtain ⟨a, ha, hcall⟩ := except_map_ok.1 (Option.some.inj hm)
        cases action <;> cases hcall
      | post => cases hm
      | other => cases hm
  case h_4 seg | h_5 seg =>
    cases hr
    cases method with
    | post =>
      obtain ⟨a, ha, hcall⟩ := except_map_ok.1 (Option.some.inj hm)
      cases action <;> cases hcall
      exact ⟨seg, rfl, ha⟩
    | _ => cases hm
  -- no other route calls one of the three handlers
  all_goals cases hr
  all_goals
    cases method <;> cases action <;>
      first
      | cases hm
      | (obtain ⟨a, -, hcall⟩ := except_map_ok.1 (Option.some.inj hm)
         cases hcall)

theorem route_action (h : route X request = .ok (action.call id)) :
    ∃ seg, request.path = "v1" :: "mappings" :: seg :: action.last ∧ X.path seg = .ok id := by
  unfold route at h
  cases hr : routes X request request.path with
  | none =>
    rw [hr] at h
    cases h
  | some methods =>
    rw [hr] at h
    cases hm : methods.find request.method with
    | none =>
      simp only [hm] at h
      cases h
    | some answer =>
      simp only [hm, Option.getD_some] at h
      exact routes_action hr (hm.trans (congrArg some h))

/-- The route of an action leads to it. -/
theorem route_of_path (hpath : request.path = "v1" :: "mappings" :: seg :: action.last) (hseg : seg ≠ "")
    (hmethod : request.method = action.method) : route X request = (X.path seg).map action.call := by
  unfold route
  rw [hpath, hmethod]
  cases action <;> simp [UiAction.last, UiAction.method, UiAction.call, routes, hseg, MethodRouter.find]

/-! ## Targets -/

/-- A path that starts with a slash is parsed as it is. -/
theorem upstreamUri_ok {path : String} {uri : Gateway.Uri} (hslash : path.toList.head? = some '/') :
    Gateway.upstreamUri U path = .ok uri ↔ U ("http://edge-agent" ++ path) = .ok uri := by
  unfold Gateway.upstreamUri
  rw [if_pos hslash]
  exact Effect.except_mapError_ok

/-- A character that ends an id. -/
def endsId (c : Char) : Bool := c = '/' || c = '?' || c = '#'

theorem suffix_ends (action : UiAction) : action.suffix.toList.takeWhile (fun c => !endsId c) = [] := by
  cases action <;> decide

/-- The part of the id before the first character that ends it. -/
theorem takeWhile_suffix (id : String) (action : UiAction) :
    (id.toList ++ action.suffix.toList).takeWhile (fun c => !endsId c) = id.toList.takeWhile fun c => !endsId c := by
  rw [List.takeWhile_append, suffix_ends, List.append_nil]
  split
  · rename_i hlen
    exact ((List.takeWhile_prefix _).eq_of_length hlen).symm
  · rfl

/-- The segments of a path below `/v1/mappings`. -/
theorem segments_mappings (t : List Char) :
    pathSegments (splitTarget (String.ofList ("/v1/mappings/".toList ++ t))).path =
      "v1" :: "mappings" :: ((t.takeWhile fun c => c ≠ '?' ∧ c ≠ '#').splitOn '/').map String.ofList := by
  have hpath : ("/v1/mappings/".toList ++ t).takeWhile (fun c => decide (c ≠ '?' ∧ c ≠ '#')) =
      '/' :: ("v1".toList ++ '/' :: ("mappings".toList ++ '/' :: t.takeWhile fun c => c ≠ '?' ∧ c ≠ '#')) := by
    rw [List.takeWhile_append_of_pos (by decide)]
    rfl
  rw [pathSegments, splitTarget, String.toList_ofList, String.toList_ofList, hpath, List.tail_cons,
    List.splitOn_append_cons_self_of_not_mem (by decide), List.splitOn_append_cons_self_of_not_mem (by decide)]
  rfl

theorem path_toList (action : UiAction) (id : String) :
    action.path id = String.ofList ("/v1/mappings/".toList ++ (id.toList ++ action.suffix.toList)) := by
  rw [action.path_eq, ← String.toList_inj, String.toList_ofList, String.toList_append, String.toList_append,
    List.append_assoc]

theorem path_slash (action : UiAction) (id : String) : (action.path id).toList.head? = some '/' := by
  rw [path_toList, String.toList_ofList]
  rfl

/-- The segment of the id is the id up to the first character that ends it. -/
theorem segments_action (action : UiAction) (id : String) : ∃ rest,
    pathSegments (splitTarget (action.path id)).path =
      "v1" :: "mappings" :: String.ofList (id.toList.takeWhile fun c => !endsId c) :: rest := by
  obtain ⟨rest, hrest, -⟩ := splitOn_first '/'
    ((id.toList ++ action.suffix.toList).takeWhile fun c => c ≠ '?' ∧ c ≠ '#')
  have hcut : ((id.toList ++ action.suffix.toList).takeWhile fun c => decide (c ≠ '?' ∧ c ≠ '#')).takeWhile (· ≠ '/') =
      id.toList.takeWhile fun c => !endsId c := by
    rw [List.takeWhile_takeWhile, ← takeWhile_suffix id action]
    refine congrArg (fun p => List.takeWhile p _) (funext fun c => ?_)
    simp [endsId, Bool.and_assoc]
  rw [path_toList, segments_mappings, hrest, hcut, List.map_cons]
  exact ⟨_, rfl⟩

/-- With nothing in it that ends it, the whole id is the segment. -/
theorem segments_plain (hid : ∀ c ∈ id.toList, endsId c = false) :
    pathSegments (splitTarget (action.path id)).path = "v1" :: "mappings" :: id :: action.last := by
  have hslash : '/' ∉ id.toList := fun h => by simpa [endsId] using hid '/' h
  have hsuffix : ∀ c ∈ action.suffix.toList, decide (c ≠ '?' ∧ c ≠ '#') = true := by
    cases action <;> decide
  have hwhole : (id.toList ++ action.suffix.toList).takeWhile (fun c => decide (c ≠ '?' ∧ c ≠ '#')) =
      id.toList ++ action.suffix.toList := by
    refine List.takeWhile_eq_self_iff.2 fun c hc => ?_
    rcases List.mem_append.1 hc with hc | hc
    · have := hid c hc
      simp only [endsId, Bool.or_eq_false_iff, decide_eq_false_iff_not] at this
      simp [this.1.2, this.2]
    · exact hsuffix c hc
  rw [path_toList, segments_mappings, hwhole]
  cases action with
  | delete => simp [UiAction.suffix, UiAction.last, List.splitOn_eq_singleton hslash]
  | enable =>
    have hsplit : id.toList ++ "/enable".toList = id.toList ++ '/' :: "enable".toList := rfl
    rw [UiAction.suffix, hsplit, List.splitOn_append_cons_self_of_not_mem hslash, List.splitOn_eq_singleton (by decide)]
    simp [UiAction.last]
  | disable =>
    have hsplit : id.toList ++ "/disable".toList = id.toList ++ '/' :: "disable".toList := rfl
    rw [UiAction.suffix, hsplit, List.splitOn_append_cons_self_of_not_mem hslash, List.splitOn_eq_singleton (by decide)]
    simp [UiAction.last]

theorem endsId_ascii {c : Char} (h : endsId c = true) : c.toNat < 128 := by
  simp only [endsId, Bool.or_eq_true, decide_eq_true_eq] at h
  rcases h with (rfl | rfl) | rfl <;> decide

theorem plainId_iff : PlainId id ↔ (∀ c ∈ id.toList, endsId c = false) ∧ hasEscape id.toList = false := by
  unfold PlainId
  constructor
  · rintro ⟨hslash, hquery, hfragment, hesc⟩
    refine ⟨fun c hc => ?_, hesc⟩
    simp only [endsId, Bool.or_eq_false_iff, decide_eq_false_iff_not]
    refine ⟨⟨?_, ?_⟩, ?_⟩ <;> rintro rfl
    exacts [hslash hc, hquery hc, hfragment hc]
  · rintro ⟨hid, hesc⟩
    refine ⟨fun h => ?_, fun h => ?_, fun h => ?_, hesc⟩
    · exact absurd (hid _ h) (by decide)
    · exact absurd (hid _ h) (by decide)
    · exact absurd (hid _ h) (by decide)

/-- **Ids in paths.** -/
theorem action_reaches_iff (hU : UriSplits U) (hX : AxumDecodes X) (hid : id ≠ "") :
    Reaches U X action.method (action.path id) (action.call id) ↔ Accepts U (action.path id) ∧ PlainId id := by
  rw [plainId_iff]
  constructor
  · rintro ⟨uri, huri, hroute⟩
    refine ⟨⟨uri, huri⟩, ?_⟩
    have hsplit := hU.splits _ _ (path_slash action id) ((upstreamUri_ok (path_slash action id)).1 huri)
    obtain ⟨seg, hseg, hdecode⟩ := route_action (hroute [] [])
    obtain ⟨rest, hrest⟩ := segments_action action id
    rw [agentRequest, hsplit, hrest] at hseg
    obtain ⟨rfl, -⟩ := List.cons.inj (List.cons.inj (List.cons.inj hseg).2).2
    rw [hX.path, String.toList_ofList] at hdecode
    -- the segment has at least as many ASCII characters as the id
    have hplain := uncut_of_asciiChars (fun _ => endsId_ascii) (ascii_decodeStrict hdecode)
    rw [takeWhile_uncut hplain] at hdecode
    exact ⟨hplain, decodeStrict_self_iff.1 hdecode⟩
  · rintro ⟨⟨uri, huri⟩, hplain, hesc⟩
    refine ⟨uri, huri, fun headers body => ?_⟩
    have hsplit := hU.splits _ _ (path_slash action id) ((upstreamUri_ok (path_slash action id)).1 huri)
    have hpath : (agentRequest action.method uri headers body).path = "v1" :: "mappings" :: id :: action.last := by
      rw [agentRequest, hsplit]
      exact segments_plain hplain
    rw [route_of_path hpath hid rfl, (hX.path id id).2 (decodeStrict_self_iff.2 hesc)]
    rfl

/-! ## Queries -/

/-- A path without a query or a fragment of its own, with a query. -/
theorem splitTarget_query {path query : String} (hpath : ∀ c ∈ path.toList, c ≠ '?' ∧ c ≠ '#') :
    splitTarget (path ++ "?" ++ query) = ⟨path, some (String.ofList (query.toList.takeWhile (· ≠ '#')))⟩ := by
  have htext : (path ++ "?" ++ query).toList = path.toList ++ '?' :: query.toList := by simp
  have hall : ∀ c ∈ path.toList, decide (c ≠ '?' ∧ c ≠ '#') = true := fun c hc => decide_eq_true (hpath c hc)
  rw [splitTarget, htext, List.takeWhile_append_of_pos hall, List.dropWhile_append_of_pos hall,
    List.takeWhile_cons_of_neg (by decide), 
      List.dropWhile_cons_of_neg (by decide), List.append_nil, String.ofList_toList]
  rfl

/-- A character that ends a value. -/
def endsValue (c : Char) : Bool := c = '&' || c = '#'

theorem endsValue_ascii {c : Char} (h : endsValue c = true) : c.toNat < 128 := by
  simp only [endsValue, Bool.or_eq_true, decide_eq_true_eq] at h
  rcases h with rfl | rfl <;> decide

theorem plainValue_iff {value : String} : PlainValue value ↔
    (∀ c ∈ value.toList, endsValue c = false) ∧ '+' ∉ value.toList ∧ hasEscape value.toList = false := by
  unfold PlainValue
  constructor
  · rintro ⟨hamp, hhash, hrest⟩
    refine ⟨fun c hc => ?_, hrest⟩
    simp only [endsValue, Bool.or_eq_false_iff, decide_eq_false_iff_not]
    constructor <;> rintro rfl
    exacts [hamp hc, hhash hc]
  · rintro ⟨hvalue, hrest⟩
    refine ⟨fun h => ?_, fun h => ?_, hrest⟩
    · exact absurd (hvalue _ h) (by decide)
    · exact absurd (hvalue _ h) (by decide)

/-- **Values in forms**: the only value of the name is the one that was entered where nothing in it means
something in a form. -/
theorem formValues_iff {name value : String} (hname : PlainValue name) (heq : '=' ∉ name.toList) :
    formValues name.toList (name.toList ++ '=' :: value.toList.takeWhile (· ≠ '#')) = [value.toList] ↔
      PlainValue value := by
  obtain ⟨hamp, -, hplus, hesc⟩ := hname
  obtain ⟨rest, hrest, hnil⟩ := formValues_first (value.toList.takeWhile (· ≠ '#')) hamp heq
    (formDecode_self_iff.2 ⟨hplus, hesc⟩)
  have hcut : (value.toList.takeWhile (· ≠ '#')).takeWhile (· ≠ '&') =
      value.toList.takeWhile fun c => !endsValue c := by
    rw [List.takeWhile_takeWhile]
    refine congrArg (fun p => List.takeWhile p _) (funext fun c => ?_)
    simp [endsValue]
  rw [hrest, hcut, plainValue_iff]
  constructor
  · intro h
    have hdecode := (List.cons.inj h).1
    have hle := ascii_formDecode (value.toList.takeWhile fun c => !endsValue c)
    rw [hdecode] at hle
    have hplain := uncut_of_asciiChars (fun _ => endsValue_ascii) hle
    rw [takeWhile_uncut hplain] at hdecode
    exact ⟨hplain, formDecode_self_iff.1 hdecode⟩
  · rintro ⟨hplain, hself⟩
    have hmem : '&' ∉ value.toList.takeWhile (· ≠ '#') := by
      intro h
      exact absurd (hplain _ (List.takeWhile_subset _ h)) (by decide)
    rw [takeWhile_uncut hplain, formDecode_self_iff.2 hself, hnil hmem]

/-- The trimmed value of a form of the page, in a query. -/
theorem query_reaches_iff {path name value : String} {call : Option String → ApiCall}
    {field : String → Except Rejection (Option String)} (hU : UriSplits U) (hslash : path.toList.head? = some '/')
    (hpath : ∀ c ∈ path.toList, c ≠ '?' ∧ c ≠ '#') (hname : PlainValue name) (heq : '=' ∉ name.toList)
    (hfield : ∀ q v, field q = .ok (some v) ↔ formValues name.toList q.toList = [v.toList])
    (hroute : ∀ uri headers body, uri.path = path →
      route X (agentRequest .get uri headers body) = (field (uri.query.getD "")).map call)
    (hcall : Function.Injective call) :
    Reaches U X .get (path ++ "?" ++ name ++ "=" ++ value) (call (some value)) ↔
      Accepts U (path ++ "?" ++ name ++ "=" ++ value) ∧ PlainValue value := by
  have htarget : path ++ "?" ++ name ++ "=" ++ value = path ++ "?" ++ (name ++ "=" ++ value) := by
    simp only [String.append_assoc]
  have htext : (name ++ "=" ++ value).toList.takeWhile (· ≠ '#') =
      name.toList ++ '=' :: value.toList.takeWhile (· ≠ '#') := by
    have hlist : (name ++ "=" ++ value).toList = name.toList ++ '=' :: value.toList := by simp
    have hall : ∀ c ∈ name.toList, decide (c ≠ '#') = true := by
      intro c hc
      rw [decide_eq_true_eq]
      rintro rfl
      exact hname.2.1 hc
    rw [hlist, List.takeWhile_append_of_pos hall, List.takeWhile_cons_of_pos (by decide)]
  have hhead : (path ++ "?" ++ (name ++ "=" ++ value)).toList.head? = some '/' := by
    simp [List.head?_append, hslash]
  rw [htarget]
  -- what the agent reads is the value of the name, as far as the target goes
  have hread : ∀ uri, Gateway.upstreamUri U (path ++ "?" ++ (name ++ "=" ++ value)) = .ok uri → ∀ headers body,
      (route X (agentRequest .get uri headers body) = .ok (call (some value)) ↔ PlainValue value) := by
    intro uri huri headers body
    have hsplit := hU.splits _ _ hhead ((upstreamUri_ok hhead).1 huri)
    rw [splitTarget_query hpath] at hsplit
    rw [hroute uri headers body (by rw [hsplit]), hsplit, Option.getD_some, except_map_ok,
      ← formValues_iff hname heq, ← htext]
    constructor
    · rintro ⟨v, hv, hinj⟩
      rw [hcall hinj, hfield, String.toList_ofList] at hv
      exact hv
    · intro h
      refine ⟨some value, ?_, rfl⟩
      rw [hfield, String.toList_ofList]
      exact h
  constructor
  · rintro ⟨uri, huri, hreach⟩
    exact ⟨⟨uri, huri⟩, (hread uri huri [] []).1 (hreach [] [])⟩
  · rintro ⟨⟨uri, huri⟩, hplain⟩
    exact ⟨uri, huri, fun headers body => (hread uri huri headers body).2 hplain⟩

/-- **The gateway's URLs.** For each action of the page and each id that is not blank, and for each value of the
two queries that is not blank once trimmed, the agent gets the same action and the same text exactly where the
parser takes the path and nothing in the text means something else there: in a path `/`, `?`, `#` and an escape,
in a query `&`, `#`, `+` and an escape. -/
theorem urls_decode_iff (hU : UriSplits U) (hX : AxumDecodes X) :
    (∀ (action : UiAction) (id : String), Text.trim id ≠ "" →
      (Reaches U X action.method (action.path id) (action.call id) ↔ Accepts U (action.path id) ∧ PlainId id)) ∧
    (∀ entered value, Gateway.cleanOpt (some entered) = some value →
      (Reaches U X .get (Gateway.vnicCheckPath (some entered)) (.ociVnicCheck (some value)) ↔
        Accepts U (Gateway.vnicCheckPath (some entered)) ∧ PlainValue value)) ∧
    ∀ entered value, Gateway.cleanOpt (some entered) = some value →
      (Reaches U X .get (Gateway.publicIpsPath (some entered)) (.ociPublicIps (some value)) ↔
        Accepts U (Gateway.publicIpsPath (some entered)) ∧ PlainValue value) := by
  refine ⟨fun action id hid => action_reaches_iff hU hX ?_, fun entered value hclean => ?_,
    fun entered value hclean => ?_⟩
  · rintro rfl
    exact hid rfl
  · rw [Gateway.vnicCheckPath, hclean]
    refine query_reaches_iff hU rfl (by decide) (by decide) (by decide) hX.vnicQuery ?_ ?_
    · intro uri headers body hpath
      rw [agentRequest, hpath]
      rfl
    · intro a b h
      exact ApiCall.ociVnicCheck.inj h
  · rw [Gateway.publicIpsPath, hclean]
    refine query_reaches_iff hU rfl (by decide) (by decide) (by decide) hX.compartmentQuery ?_ ?_
    · intro uri headers body hpath
      rw [agentRequest, hpath]
      rfl
    · intro a b h
      exact ApiCall.ociPublicIps.inj h

/-! ## A parser and extractors -/

/-- The parser, on characters that are allowed in a path or a query. -/
def plainParser : Gateway.UriParser := fun s =>
  match Text.stripPrefix "http://edge-agent".toList s.toList with
  | some target =>
    if target.all fun c => 32 < c.toNat then .ok (splitTarget (String.ofList target))
    else .error "invalid uri character"
  | none => .error "invalid format"

theorem plainParser_splits : UriSplits plainParser := by
  refine ⟨fun target uri _ h => ?_⟩
  unfold plainParser at h
  rw [String.toList_append, Text.stripPrefix_append] at h
  simp only [String.ofList_toList] at h
  split at h
  · exact (Except.ok.inj h).symm
  · cases h

/-- The only value of a field, if there is one. -/
def formField (name query : String) : Except Rejection (Option String) :=
  match formValues name.toList query.toList with
  | [] => .ok none
  | [value] => .ok (some (String.ofList value))
  | _ => .error ⟨400, "Failed to deserialize query string: duplicate field"⟩

theorem formField_ok {name query value : String} :
    formField name query = .ok (some value) ↔ formValues name.toList query.toList = [value.toList] := by
  unfold formField
  split
  · rename_i h
    rw [h]
    simp
  · rename_i v h
    rw [h, Except.ok.injEq, Option.some.injEq, ← String.toList_inj, String.toList_ofList]
    simp
  · rename_i hone
    exact iff_of_false (fun h => by cases h) (hone value.toList)

/-- Extractors for requests without a body. -/
def bodiless : Extractors where
  path s :=
    match decodeUtf8 (percentDecode s.toList) with
    | some t => .ok t
    | none => .error ⟨400, "Invalid URL: Invalid UTF-8 in path"⟩
  vnicQuery := formField "vnic_id"
  compartmentQuery := formField "compartment_id"
  createMapping _ := .error ⟨415, "Expected request with `Content-Type: application/json`"⟩
  reconcile _ := .error ⟨415, "Expected request with `Content-Type: application/json`"⟩
  allocate _ := .error ⟨415, "Expected request with `Content-Type: application/json`"⟩
  release _ := .error ⟨415, "Expected request with `Content-Type: application/json`"⟩
  nsgAdd _ := .error ⟨415, "Expected request with `Content-Type: application/json`"⟩
  nsgRemove _ := .error ⟨415, "Expected request with `Content-Type: application/json`"⟩

theorem bodiless_decodes : AxumDecodes bodiless where
  path s t := by
    change (match decodeUtf8 (percentDecode s.toList) with | some t => _ | none => _) = _ ↔ _
    cases decodeUtf8 (percentDecode s.toList) <;> simp
  vnicQuery _ _ := formField_ok
  compartmentQuery _ _ := formField_ok

/-- An id that is a plain word. -/
theorem urls_decode_plain : Reaches plainParser bodiless .post (Gateway.enablePath "map_1") (.enableMapping "map_1") :=
  ((urls_decode_iff plainParser_splits bodiless_decodes).1 .enable "map_1" (by decide)).2
    ⟨⟨_, rfl⟩, by decide⟩

/-- **An id with a slash** is accepted by the parser and is no route to the action. -/
theorem urls_decode_slash : Text.trim "a/b" ≠ "" ∧ Accepts plainParser (Gateway.enablePath "a/b") ∧
    ¬ Reaches plainParser bodiless .post (Gateway.enablePath "a/b") (.enableMapping "a/b") := by
  refine ⟨by decide, ⟨_, rfl⟩, fun h => ?_⟩
  have hreaches : Reaches plainParser bodiless (UiAction.enable.method) (UiAction.enable.path "a/b")
      (UiAction.enable.call "a/b") := h
  have hplain := ((action_reaches_iff plainParser_splits bodiless_decodes (by decide)).1 hreaches).2
  exact absurd hplain (by decide)

end EdgeRoute
