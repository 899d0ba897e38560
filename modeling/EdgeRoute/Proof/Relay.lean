import EdgeRoute.Proof.Gateway
import EdgeRoute.Proof.Urls

/-!
# Through the gateway to the agent

A client asks the gateway under `/api`; the gateway asks the agent with a token of its own.

* `loadTokens_ok`: the tokens that a gateway starts with.
* `stripApiPrefix_api`, `splitTarget_pathAndQuery`: the agent gets the path and the query behind `/api`.
* `route_same`, `prog_same`: what the agent reads of a request.
* `gateway_relays`: **a client gets through the gateway what it would get from the agent itself with the gateway's
  token, for the requests that the gateway admits; for any other nothing is asked.**
-/

namespace EdgeRoute

open Effect Urlencoded

variable {C : Codec} {J : OciJson} {N : String → Except String NetbirdStatus} {U : Gateway.UriParser} {X : Extractors}
  {config : EdgeConfig} {tokens : Gateway.Tokens} {headers headers' direct : HeaderMap} {token : String}
  {method : Method} {uri : Gateway.Uri} {body : List UInt8}

/-! ## Bytes of texts -/

theorem toList_loop (bs : ByteArray) (i : ℕ) (r : List UInt8) :
    ByteArray.toList.loop bs i r = r.reverse ++ bs.data.toList.drop i := by
  fun_induction ByteArray.toList.loop bs i r with
  | case1 i r hlt ih =>
    have hdrop : bs.data.toList.drop i = bs.get! i :: bs.data.toList.drop (i + 1) := by
      have hsize : i < bs.data.size := hlt
      have hget : bs.get! i = bs.data[i]! := rfl
      rw [List.drop_eq_getElem_cons (by simpa using hsize), hget, getElem!_pos bs.data i hsize, Array.getElem_toList]
    rw [ih, hdrop, List.reverse_cons, List.append_assoc]
    rfl
  | case2 i r hge =>
    have hend : bs.data.toList.length ≤ i := Nat.le_of_not_lt hge
    rw [List.drop_eq_nil_of_le hend, List.append_nil]

theorem asBytes_eq (s : String) : asBytes s = s.toByteArray.data.toList := toList_loop s.toByteArray 0 []

theorem asBytes_injective {s s' : String} (h : asBytes s = asBytes s') : s = s' := by
  rw [asBytes_eq, asBytes_eq, Array.toList_inj] at h
  exact String.toByteArray_inj.1 (ByteArray.ext h)

theorem asBytes_append (s s' : String) : asBytes (s ++ s') = asBytes s ++ asBytes s' := by
  rw [asBytes_eq, asBytes_eq, asBytes_eq, String.toByteArray_append, ByteArray.toList_data_append]

/-! ## Tokens -/

/-- **The tokens that a gateway starts with**: the flag before the file, and none of them empty. -/
theorem loadTokens_ok {file : Option (Except String Gateway.FileConfig)} {cliGatewayToken cliApiToken : Option String}
    (h : Gateway.loadTokens file cliGatewayToken cliApiToken = .ok tokens) :
    (∃ token, tokens.apiToken = some token ∧ token ≠ "") ∧ tokens.gatewayToken ≠ some "" ∧
    (∀ token, cliApiToken = some token → tokens.apiToken = some token) ∧
    ∀ token, cliGatewayToken = some token → tokens.gatewayToken = some token := by
  unfold Gateway.loadTokens at h
  obtain ⟨file, -, h⟩ := except_bind_ok.1 h
  obtain ⟨hgateway, h⟩ := except_seq_ok.1 h
  obtain ⟨hempty, h⟩ := except_seq_ok.1 h
  obtain ⟨hsome, h⟩ := except_seq_ok.1 h
  obtain rfl := Except.ok.inj h
  rw [rejectIf_ok, beq_eq_false_iff_ne] at hgateway hempty
  refine ⟨?_, hgateway, ?_, ?_⟩
  · cases htoken : cliApiToken.or (file.bind fun file => file.apiToken) with
    | none =>
      rw [htoken] at hsome
      cases rejectIf_ok.1 hsome
    | some token =>
      rw [htoken] at hempty
      exact ⟨token, rfl, fun h => hempty (congrArg some h)⟩
  · rintro token rfl
    rfl
  · rintro token rfl
    rfl

/-! ## Paths -/

namespace Gateway.Uri

/-- A path below the root and a query, as a parser splits them. -/
structure Proper (uri : Gateway.Uri) : Prop where
  below : ∃ c rest, uri.path.toList = '/' :: c :: rest
  path : ∀ c ∈ uri.path.toList, c ≠ '?' ∧ c ≠ '#'
  query : ∀ q, uri.query = some q → ∀ c ∈ q.toList, c ≠ '#'

/-- Where the gateway serves the agent's URI. -/
def underApi (uri : Gateway.Uri) : Gateway.Uri := ⟨"/api" ++ uri.path, uri.query⟩

/-- The path and the query as one text. -/
def text (uri : Gateway.Uri) : String :=
  match uri.query with
  | some query => uri.path ++ "?" ++ query
  | none => uri.path

theorem Proper.head (h : uri.Proper) : uri.text.toList.head? = some '/' := by
  obtain ⟨c, rest, hpath⟩ := h.below
  unfold text
  split <;> simp [hpath]

/-- The text splits into what it was made of. -/
theorem Proper.split (h : uri.Proper) : splitTarget uri.text = uri := by
  obtain ⟨path, query⟩ := uri
  cases query with
  | some query =>
    have hcut : query.toList.takeWhile (fun c => decide (c ≠ '#')) = query.toList :=
      List.takeWhile_eq_self_iff.2 fun c hc => decide_eq_true (h.query query rfl c hc)
    rw [text, splitTarget_query h.path, hcut, String.ofList_toList]
  | none =>
    have hall : ∀ c ∈ path.toList, decide (c ≠ '?' ∧ c ≠ '#') = true := fun c hc => decide_eq_true (h.path c hc)
    have htake := List.takeWhile_eq_self_iff.2 hall
    have hdrop := List.dropWhile_eq_nil_iff.2 hall
    rw [text, splitTarget, htake, hdrop, String.ofList_toList]

theorem pathAndQuery_underApi (uri : Gateway.Uri) : uri.underApi.pathAndQuery = some ("/api" ++ uri.text) := by
  have hne : "/api" ++ uri.path ≠ "" := by
    intro h
    have hnil := congrArg String.toList h
    rw [String.toList_append] at hnil
    cases hnil
  obtain ⟨path, query⟩ := uri
  unfold pathAndQuery underApi text
  rw [if_neg hne]
  cases query <;> simp [String.append_assoc]

end Gateway.Uri

/-- **The prefix comes off.** -/
theorem stripApiPrefix_api {path : String} (hpath : path ≠ "") (s : String) :
    Gateway.stripApiPrefix ("/api" ++ s) path = s := by
  unfold Gateway.stripApiPrefix
  rw [if_neg hpath, String.toList_append, Text.stripPrefix_append]
  exact String.ofList_toList

/-- A segment that is not empty does not decode to nothing. -/
theorem decoded_ne_empty (hX : AxumDecodes X) {c : Char} {rest : List Char} {path : String}
    (h : X.path (String.ofList (c :: rest)) = .ok path) : path ≠ "" := by
  rintro rfl
  have hbytes := decodeUtf8_eq_some.1 ((hX.path _ _).1 h)
  rw [String.toList_ofList] at hbytes
  have hnil : percentDecode (c :: rest) = [] := hbytes
  unfold percentDecode at hnil
  split at hnil
  · split at hnil
    · cases hnil
    · simp at hnil
  · simp at hnil
  · rename_i hcons
    cases hcons

/-! ## What the agent reads -/

/-- The `Json` extractors of axum read the body and its Content-Type. -/
structure ReadsJson (X : Extractors) : Prop where
  same : ∀ r r' : HttpRequest, r.body = r'.body →
    HeaderMap.getAll r.headers "content-type" = HeaderMap.getAll r'.headers "content-type" →
    X.createMapping r = X.createMapping r' ∧ X.reconcile r = X.reconcile r' ∧ X.allocate r = X.allocate r' ∧
      X.release r = X.release r' ∧ X.nsgAdd r = X.nsgAdd r' ∧ X.nsgRemove r = X.nsgRemove r'

/-- **The route** depends on the headers by Content-Type. -/
theorem route_same (hjson : ReadsJson X) {path : List String} {query : String}
    (htype : HeaderMap.getAll headers "content-type" = HeaderMap.getAll headers' "content-type") :
    route X ⟨method, path, query, headers, body⟩ = route X ⟨method, path, query, headers', body⟩ := by
  obtain ⟨hcreate, hreconcile, hallocate, hrelease, hadd, hremove⟩ :=
    hjson.same ⟨method, path, query, headers, body⟩ ⟨method, path, query, headers', body⟩ rfl htype
  have hroutes : routes X ⟨method, path, query, headers, body⟩ path =
      routes X ⟨method, path, query, headers', body⟩ path := by
    unfold routes
    rw [hcreate, hreconcile, hallocate, hrelease, hadd, hremove]
  unfold route
  rw [hroutes]

theorem get_eq_head (headers : HeaderMap) (name : String) :
    headers.get name = (HeaderMap.getAll headers name).head? := by
  unfold HeaderMap.get HeaderMap.getAll
  rw [List.head?_map, List.head?_filter]

/-- **Every handler** depends on the headers by what `require_auth` says of them. -/
theorem prog_same (h : requireAuth config headers = requireAuth config headers') (call : ApiCall) :
    call.prog C J N config headers = call.prog C J N config headers' := by
  cases call <;>
    simp only [ApiCall.prog, Api.status, Api.listMappings, Api.createMapping, Api.getMapping, Api.deleteMapping,
      Api.enableMapping, Api.disableMapping, Api.setEnabled, Api.dryRunApply, Api.reconcile, Api.netbirdStatus,
      Api.netbirdNetworks, Api.events, Api.analytics, Api.topology, Api.ociStatus, Api.ociAllocate, Api.ociRelease,
      Api.ociVnicCheck, Api.ociPublicIps, Api.ociNsgAdd, Api.ociNsgRemove, h]

/-- **The agent reads** Authorization and Content-Type of the headers. -/
theorem serve_same (hjson : ReadsJson X) {path : List String} {query : String}
    (hauth : HeaderMap.getAll headers "authorization" = HeaderMap.getAll headers' "authorization")
    (htype : HeaderMap.getAll headers "content-type" = HeaderMap.getAll headers' "content-type") :
    serve C J N X config ⟨method, path, query, headers, body⟩ =
      serve C J N X config ⟨method, path, query, headers', body⟩ := by
  have hverdict : requireAuth config headers = requireAuth config headers' := by
    unfold requireAuth
    rw [get_eq_head, get_eq_head, hauth]
  have hprog : ∀ call : ApiCall, call.prog C J N config headers = call.prog C J N config headers' := prog_same hverdict
  unfold serve
  rw [route_same hjson htype]
  simp only [hprog]

/-! ## What goes out -/

/-- The verdict of the gateway. -/
theorem requireGatewayAuth_ok :
    Gateway.requireGatewayAuth headers tokens.gatewayToken = .ok () ↔
      ∀ expected, tokens.gatewayToken = some expected → Authorized headers expected := by
  unfold Gateway.requireGatewayAuth
  cases tokens.gatewayToken with
  | none => simp
  | some expected =>
    have hverdict : ∀ actual, Gateway.constantTimeEq actual (asBytes expected) = true ↔ actual = asBytes expected :=
      fun actual => (constantTimeEq_copies actual (asBytes expected)).2
    constructor
    · rintro hok expected' ⟨rfl⟩
      simp only at hok
      split at hok
      · cases hok
      · rename_i actual hactual
        split at hok
        · rename_i heq
          rw [(hverdict actual).1 heq] at hactual
          exact bearer_some.1 hactual
        · cases hok
    · intro hauth
      simp only
      rw [bearer_some.2 (hauth expected rfl)]
      simp only
      rw [if_pos ((hverdict _).2 rfl)]

theorem rewriteHeaders_error (headers : HeaderMap) (h : ¬ LegalToken token) :
    ∃ e, Gateway.rewriteHeaders headers token = .error e := by
  have hvalue : headerValueFromStr ("Bearer " ++ token) = .error "failed to parse header value" := by
    unfold headerValueFromStr
    rw [if_neg fun hall => h (List.all_eq_true.1 hall)]
  unfold Gateway.rewriteHeaders
  rw [hvalue]
  exact ⟨_, rfl⟩

/-- **The gateway admits the request**: it has the gateway's token, if there is one, and a body within the limit, its
path is text, and what would go out is a request. -/
structure Admitted (U : Gateway.UriParser) (X : Extractors) (tokens : Gateway.Tokens) (uri : Gateway.Uri)
    (headers : HeaderMap) (body : List UInt8) : Prop where
  gateway : ∀ expected, tokens.gatewayToken = some expected → Authorized headers expected
  size : body.length ≤ Gateway.maxProxyBodyBytes
  path : ∃ path, X.path (String.ofList uri.path.toList.tail) = .ok path
  upstream : ∀ token, tokens.apiToken = some token → LegalToken token
  target : Accepts U uri.text

/-- A request under `/api` is sent on with the path and the query behind it. -/
theorem proxyRequest_underApi {path : String} (hpath : path ≠ "") (htoken : tokens.apiToken = some token) :
    Gateway.proxyRequest U tokens path ⟨method, uri.underApi, headers, body⟩ = (do
      Gateway.requireGatewayAuth headers tokens.gatewayToken
      rejectIf (decide (Gateway.maxProxyBodyBytes < body.length)) (.badGateway "length limit exceeded")
      let out ← Gateway.rewriteHeaders headers token
      let parsed ← Gateway.upstreamUri U uri.text
      .ok ⟨method, parsed, out, body⟩) := by
  unfold Gateway.proxyRequest
  simp only [Gateway.Uri.pathAndQuery_underApi, Option.getD_some, stripApiPrefix_api hpath, htoken]
  rfl

theorem proxyRequest_ok (method : Method) (hU : UriSplits U) (huri : uri.Proper) (hvalid : headers.Valid)
    {path : String} (hpath : path ≠ "") (htoken : tokens.apiToken = some token)
    (h : Admitted U X tokens uri headers body) :
    ∃ out, Isolated headers token out ∧
      Gateway.proxyRequest U tokens path ⟨method, uri.underApi, headers, body⟩ = .ok ⟨method, uri, out, body⟩ := by
  obtain ⟨out, hout, hisolated⟩ := isolated_rewrite hvalid (h.upstream token htoken)
  obtain ⟨parsed, hparsed⟩ := h.target
  have hsame : parsed = uri := by
    rw [hU.splits _ _ huri.head ((upstreamUri_ok huri.head).1 hparsed), huri.split]
  refine ⟨out, hisolated, ?_⟩
  have hsize : ¬ Gateway.maxProxyBodyBytes < body.length := Nat.not_lt.2 h.size
  rw [proxyRequest_underApi hpath htoken, requireGatewayAuth_ok.2 h.gateway, decide_eq_false hsize, hout, hparsed,
    hsame]
  rfl

theorem proxyRequest_error (method : Method) {path s : String} (hpath : path ≠ "")
    (hs : X.path (String.ofList uri.path.toList.tail) = .ok s) (htoken : tokens.apiToken = some token)
    (h : ¬ Admitted U X tokens uri headers body) :
    ∃ e, Gateway.proxyRequest U tokens path ⟨method, uri.underApi, headers, body⟩ = .error e := by
  cases hproxy : Gateway.proxyRequest U tokens path ⟨method, uri.underApi, headers, body⟩ with
  | error e => exact ⟨e, rfl⟩
  | ok upstream =>
    exfalso
    rw [proxyRequest_underApi hpath htoken] at hproxy
    obtain ⟨hauth, hproxy⟩ := except_seq_ok.1 hproxy
    obtain ⟨hsize, hproxy⟩ := except_seq_ok.1 hproxy
    rw [rejectIf_ok, decide_eq_false_iff_not, Nat.not_lt] at hsize
    obtain ⟨out, hout, hproxy⟩ := except_bind_ok.1 hproxy
    obtain ⟨parsed, hparsed, -⟩ := except_bind_ok.1 hproxy
    refine h ⟨requireGatewayAuth_ok.1 hauth, hsize, ⟨s, hs⟩, fun token' htoken' => ?_, parsed, hparsed⟩
    obtain rfl := Option.some.inj (htoken.symm.trans htoken')
    by_contra hlegal
    obtain ⟨e, he⟩ := rewriteHeaders_error headers hlegal
    rw [he] at hout
    cases hout

/-! ## Through the gateway -/

/-- The agent behind the socket: what `respond` writes of a result, or a connection that breaks. -/
def agentClient (C : Codec) (J : OciJson) (N : String → Except String NetbirdStatus) (X : Extractors)
    (config : EdgeConfig) (respond : Except ApiFailure ApiResponse → Except String Gateway.HttpAnswer)
    (request : Gateway.UpstreamRequest) :
    AgentProg String Gateway.HttpAnswer := do
  let result ← (serve C J N X config (agentRequest request.method request.uri request.headers request.body)).attempt
  .ofExcept (respond result)

/-- What the gateway makes of the agent's answer. -/
def throughGateway (p : AgentProg String Gateway.HttpAnswer) : AgentProg Gateway.Failure Gateway.HttpAnswer :=
  (p.mapErr fun message => .error (.badGateway message)).bind fun answer => .ret (Gateway.proxyAnswer answer)

/-- **The headers of the same request to the agent itself**, from a client that has the agent's token. -/
structure Direct (headers : HeaderMap) (token : String) (direct : HeaderMap) : Prop where
  authorization : HeaderMap.getAll direct "authorization" = [asBytes ("Bearer " ++ token)]
  removed : ∀ name, name ≠ "authorization" → name ≠ "host" → Removed headers name → HeaderMap.getAll direct name = []
  kept : ∀ name, name ≠ "authorization" → name ≠ "host" → ¬ Removed headers name →
    HeaderMap.getAll direct name = HeaderMap.getAll headers name

variable {respond : Except ApiFailure ApiResponse → Except String Gateway.HttpAnswer}

/-- The agent makes the same of the request of the gateway and of the direct one. -/
theorem agentClient_same (hjson : ReadsJson X) {out : HeaderMap} (hout : Isolated headers token out)
    (hdirect : Direct headers token direct) :
    agentClient C J N X config respond ⟨method, uri, out, body⟩ =
      agentClient C J N X config respond ⟨method, uri, direct, body⟩ := by
  have hauth : HeaderMap.getAll out "authorization" = HeaderMap.getAll direct "authorization" := by
    rw [hout.authorization, hdirect.authorization]
  have htype : HeaderMap.getAll out "content-type" = HeaderMap.getAll direct "content-type" := by
    by_cases hremoved : Removed headers "content-type"
    · rw [hout.nil (by decide) (by decide) (.inl hremoved), hdirect.removed _ (by decide) (by decide) hremoved]
    · rw [hout.kept _ (by decide) (by decide) hremoved, hdirect.kept _ (by decide) (by decide) hremoved]
  unfold agentClient agentRequest
  rw [serve_same hjson hauth htype]

theorem Isolated.isDirect {out : HeaderMap} (h : Isolated headers token out) : Direct headers token out where
  authorization := h.authorization
  removed _ hauth hhost hremoved := h.nil hauth hhost (.inl hremoved)
  kept := h.kept

/-- The route of the gateway takes what is under `/api`. -/
theorem serveProxy_underApi (huri : uri.Proper) {S : Sig} {decode : String → Except Rejection String}
    {client : Gateway.UpstreamRequest → Prog S String Gateway.HttpAnswer} :
    Gateway.serveProxy U decode tokens client ⟨method, uri.underApi, headers, body⟩ =
      (Prog.ofExcept ((decode (String.ofList uri.path.toList.tail)).mapError Gateway.Failure.rejection)).bind
        fun path => (Gateway.proxy U tokens client path ⟨method, uri.underApi, headers, body⟩).mapErr .error := by
  obtain ⟨c, rest, hpath⟩ := huri.below
  have hlist : uri.underApi.path.toList = "/api/".toList ++ c :: rest := by
    rw [Gateway.Uri.underApi, String.toList_append, hpath]
    rfl
  unfold Gateway.serveProxy
  simp only [hlist, Text.stripPrefix_append, hpath]
  rfl

theorem proxy_ok {S : Sig} {client : Gateway.UpstreamRequest → Prog S String Gateway.HttpAnswer} {path : String}
    {request : Gateway.ClientRequest} {upstream : Gateway.UpstreamRequest}
    (h : Gateway.proxyRequest U tokens path request = .ok upstream) :
    (Gateway.proxy U tokens client path request).mapErr Gateway.Failure.error =
      ((client upstream).mapErr fun message => Gateway.Failure.error (.badGateway message)).bind
        fun answer => .ret (Gateway.proxyAnswer answer) := by
  have hcompose : ((client upstream).mapErr GatewayError.badGateway).mapErr Gateway.Failure.error =
      (client upstream).mapErr fun message => Gateway.Failure.error (.badGateway message) := Prog.mapErr_mapErr _ _ _
  unfold Gateway.proxy
  rw [h]
  change (((client upstream).mapErr GatewayError.badGateway).bind _).mapErr _ = _
  rw [Prog.mapErr_bind, hcompose]
  rfl

/-- With another token than the agent's nothing is asked of the world. -/
theorem agentClient_uses {out : HeaderMap} {expected : String} (hout : Isolated headers token out)
    (hconfig : config.apiToken = some expected) (hne : expected ≠ token) :
    (agentClient C J N X config respond ⟨method, uri, out, body⟩).Uses fun _ => False := by
  have hno : ¬ Authorized out expected := by
    rintro ⟨value, hget, -, hvalue⟩
    rw [get_eq_head, hout.authorization] at hget
    obtain rfl := Option.some.inj hget
    rw [asBytes_append] at hvalue
    exact hne (asBytes_injective (List.append_cancel_left hvalue)).symm
  obtain ⟨e, he⟩ := requireAuth_error hconfig hno
  refine Prog.uses_bind (Prog.uses_attempt (Prog.uses_ofExcept_bind fun call _ => ?_)) fun _ => Prog.uses_ofExcept
  obtain ⟨rest, hrest⟩ : ∃ rest, call.prog C J N config out = (Prog.ofExcept (requireAuth config out)).bind rest :=
    prog_checks_first call
  change (call.prog C J N config out).Uses _
  rw [hrest, he]
  exact Prog.uses_fail

/-- **The gateway neither adds nor takes authority.** A client's request under `/api`, through a gateway that starts
with these tokens: admitted, it is the direct request with the gateway's token, whatever the world does meanwhile;
else it fails and nothing is asked of the world, nor is if the agent's token is another. -/
theorem gateway_relays {file : Option (Except String Gateway.FileConfig)} {cliGatewayToken cliApiToken : Option String}
    (hU : UriSplits U) (hX : AxumDecodes X) (hjson : ReadsJson X)
    (hload : Gateway.loadTokens file cliGatewayToken cliApiToken = .ok tokens) (hvalid : headers.Valid)
    (huri : uri.Proper) :
    ∃ token, tokens.apiToken = some token ∧ token ≠ "" ∧
      (Admitted U X tokens uri headers body → ∀ direct, Direct headers token direct →
        Gateway.serveProxy U X.path tokens (agentClient C J N X config respond) ⟨method, uri.underApi, headers, body⟩ =
          throughGateway (agentClient C J N X config respond ⟨method, uri, direct, body⟩)) ∧
      (¬ Admitted U X tokens uri headers body → ∃ e,
        Gateway.serveProxy U X.path tokens (agentClient C J N X config respond) ⟨method, uri.underApi, headers, body⟩ =
          .fail e) ∧
      ∀ expected, config.apiToken = some expected → expected ≠ token →
        (Gateway.serveProxy U X.path tokens (agentClient C J N X config respond)
          ⟨method, uri.underApi, headers, body⟩).Uses fun _ => False := by
  obtain ⟨⟨token, htoken, hne⟩, -⟩ := loadTokens_ok hload
  obtain ⟨c, rest, hpath⟩ := huri.below
  have htail : uri.path.toList.tail = c :: rest := by rw [hpath]; rfl
  -- an admitted request goes out with the headers that the rewriting leaves
  have hadmitted : Admitted U X tokens uri headers body → ∃ out, Isolated headers token out ∧
      Gateway.serveProxy U X.path tokens (agentClient C J N X config respond) ⟨method, uri.underApi, headers, body⟩ =
        throughGateway (agentClient C J N X config respond ⟨method, uri, out, body⟩) := by
    intro h
    obtain ⟨path, hdecoded⟩ := h.path
    obtain ⟨out, hout, hproxy⟩ :=
      proxyRequest_ok method hU huri hvalid (decoded_ne_empty hX (htail ▸ hdecoded)) htoken h
    refine ⟨out, hout, ?_⟩
    rw [serveProxy_underApi huri, hdecoded]
    exact proxy_ok hproxy
  have hrefused : ¬ Admitted U X tokens uri headers body → ∃ e,
      Gateway.serveProxy U X.path tokens (agentClient C J N X config respond) ⟨method, uri.underApi, headers, body⟩ =
        .fail e := by
    intro h
    rw [serveProxy_underApi huri]
    cases hdecoded : X.path (String.ofList uri.path.toList.tail) with
    | error r => exact ⟨_, rfl⟩
    | ok path =>
      obtain ⟨e, he⟩ := proxyRequest_error method (decoded_ne_empty hX (htail ▸ hdecoded)) hdecoded htoken h
      refine ⟨.error e, ?_⟩
      change (Gateway.proxy U tokens _ path _).mapErr _ = _
      unfold Gateway.proxy
      rw [he]
      rfl
  refine ⟨token, htoken, hne, fun h direct hdirect => ?_, hrefused, fun expected hconfig hother => ?_⟩
  · obtain ⟨out, hout, hrelay⟩ := hadmitted h
    rw [hrelay, agentClient_same hjson hout hdirect]
  · by_cases h : Admitted U X tokens uri headers body
    · obtain ⟨out, hout, hrelay⟩ := hadmitted h
      rw [hrelay]
      exact Prog.uses_bind (Prog.uses_mapErr (agentClient_uses hout hconfig hother)) fun _ => Prog.uses_ret
    · obtain ⟨e, he⟩ := hrefused h
      rw [he]
      exact Prog.uses_fail

/-! ## A client -/

/-- A client with the gateway's token and a header for its connection. -/
def clientHeaders : HeaderMap :=
  [("authorization", asBytes "Bearer gateway-token"), ("accept", asBytes "*/*"), ("connection", asBytes "keep-alive")]

/-- `/v1/status`. -/
def statusUri : Gateway.Uri := ⟨"/v1/status", none⟩

theorem statusUri_proper : statusUri.Proper where
  below := ⟨'v', "1/status".toList, rfl⟩
  path := by decide
  query := fun _ h => nomatch h

theorem bodiless_readsJson : ReadsJson bodiless := ⟨fun _ _ _ _ => ⟨rfl, rfl, rfl, rfl, rfl, rfl⟩⟩

/-- `GET /api/v1/status` with the gateway's token is `GET /v1/status` with the agent's. -/
theorem gateway_relays_status : ∃ direct, Direct clientHeaders "upstream-token" direct ∧
    Gateway.serveProxy plainParser bodiless.path ⟨some "gateway-token", some "upstream-token"⟩
      (agentClient sampleCodec sampleOciJson sampleNetbird bodiless guardedConfig fun _ => .ok ⟨200, [], []⟩)
      ⟨.get, statusUri.underApi, clientHeaders, []⟩ =
    throughGateway (agentClient sampleCodec sampleOciJson sampleNetbird bodiless guardedConfig
      (fun _ => .ok ⟨200, [], []⟩) ⟨.get, statusUri, direct, []⟩) := by
  have hvalid : ∀ header ∈ clientHeaders, headerNameFromBytes header.1.toList = some header.1 := by decide +kernel
  have hlegal : ∀ b ∈ asBytes ("Bearer " ++ "upstream-token"), isHeaderByte b = true := by decide +kernel
  have hauth : Authorized clientHeaders "gateway-token" := by
    refine ⟨asBytes "Bearer gateway-token", rfl, by decide +kernel, ?_⟩
    exact asBytes_append "Bearer " "gateway-token"
  have hload : Gateway.loadTokens none (some "gateway-token") (some "upstream-token") =
      .ok ⟨some "gateway-token", some "upstream-token"⟩ := rfl
  obtain ⟨direct, -, hisolated⟩ := isolated_rewrite hvalid hlegal
  have hdirect : Direct clientHeaders "upstream-token" direct := hisolated.isDirect
  have hadmitted :
      Admitted plainParser bodiless ⟨some "gateway-token", some "upstream-token"⟩ statusUri clientHeaders [] :=
    { gateway := by
        rintro expected ⟨rfl⟩
        exact hauth
      size := Nat.zero_le _
      path := ⟨"v1/status", (bodiless_decodes.path _ _).2 (decodeStrict_self_iff.2 (by decide))⟩
      upstream := by
        rintro token ⟨rfl⟩
        exact hlegal
      target := ⟨_, rfl⟩ }
  obtain ⟨token, htoken, -, hrelay, -⟩ :=
    gateway_relays plainParser_splits bodiless_decodes bodiless_readsJson hload hvalid statusUri_proper
  obtain rfl := Option.some.inj htoken
  exact ⟨direct, hdirect, hrelay hadmitted direct hdirect⟩

end EdgeRoute
