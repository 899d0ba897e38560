import EdgeRoute.Spec.Api

/-!
# The gateway

What `edge-gateway` makes of a request before it goes to the agent: `main.rs` (headers, authentication and URIs),
`agent.rs` (`send_raw`) and the URLs of `ui.rs`. `HeaderMap` and `HeaderName` are those of the `http` crate: a map
has no order across names, and a name is a token in lower case.
-/

namespace EdgeRoute

/-! ## Header maps -/

namespace HeaderMap

/-- `HeaderMap::get_all`. -/
def getAll (headers : HeaderMap) (name : String) : List (List UInt8) :=
  (headers.filter fun header => header.1 = name).map (·.2)

/-- `HeaderMap::remove`: all values of a name. -/
def remove (headers : HeaderMap) (name : String) : HeaderMap := headers.filter fun header => header.1 ≠ name

/-- `HeaderMap::insert`: one value in place of all values of a name. -/
def insert (headers : HeaderMap) (name : String) (value : List UInt8) : HeaderMap :=
  headers.remove name ++ [(name, value)]

end HeaderMap

/-- A character of a header name, in any letter case. -/
def isHeaderNameChar (c : Char) : Bool := c.isAlphanum || "!#$%&'*+-.^_`|~".toList.contains c

/-- `HeaderName::from_bytes` on ASCII characters: the name in lower case. -/
def headerNameFromBytes (cs : List Char) : Option String :=
  if cs ≠ [] ∧ cs.length ≤ 65535 ∧ cs.all isHeaderNameChar = true then some (String.ofList (cs.map Char.toLower))
  else none

/-- The characters of ASCII text. -/
def asciiChars (value : List UInt8) : List Char := value.map fun b => Char.ofNat b.toNat

/-- A byte that `HeaderValue::from_str` accepts. -/
def isHeaderByte (b : UInt8) : Bool := (32 ≤ b && b != 127) || b == 9

/-- `HeaderValue::from_str`. -/
def headerValueFromStr (s : String) : Except String (List UInt8) :=
  if (asBytes s).all isHeaderByte then .ok (asBytes s) else .error "failed to parse header value"

/-! ## `main.rs` -/

structure GatewayError where
  status : StatusCode
  message : String
deriving DecidableEq

namespace GatewayError

def unauthorized : GatewayError := ⟨.unauthorized, "missing or invalid bearer token"⟩

def badGateway (message : String) : GatewayError := ⟨.badGateway, message⟩

def internal (message : String) : GatewayError := ⟨.internalServerError, message⟩

end GatewayError

namespace Gateway

/-- `constant_time_eq`, the gateway's copy. -/
def constantTimeEq (left right : List UInt8) : Bool :=
  constantTimeDiff left right (left.length ^^^ right.length) (List.range (max left.length right.length)) == 0

def requireGatewayAuth (headers : HeaderMap) (token : Option String) : Except GatewayError Unit :=
  match token with
  | none => .ok ()
  | some expected =>
    match ((headers.get "authorization").bind headerToStr).bind (stripBytes (asBytes "Bearer ")) with
    | none => .error .unauthorized
    | some actual => if Gateway.constantTimeEq actual (asBytes expected) then .ok () else .error .unauthorized

def hopByHopHeaders : List String :=
  ["connection", "keep-alive", "proxy-authenticate", "proxy-authorization", "te", "trailer", "transfer-encoding",
    "upgrade"]

/-- The headers that the values of Connection name. A value that is not visible ASCII is passed over. -/
def connectionNominatedHeaders (headers : HeaderMap) : List String :=
  (((headers.getAll "connection").filterMap headerToStr).flatMap fun value => (asciiChars value).splitOn ',').filterMap
    fun name => headerNameFromBytes (Text.trimChars name)

def rewriteHeaders (headers : HeaderMap) (token : String) : Except GatewayError HeaderMap := do
  let connectionNominated := connectionNominatedHeaders headers
  let headers := hopByHopHeaders.foldl HeaderMap.remove headers
  let headers := connectionNominated.foldl HeaderMap.remove headers
  let headers := HeaderMap.remove headers "authorization"
  let headers := HeaderMap.insert headers "host" (asBytes "edge-agent")
  let value ← (headerValueFromStr ("Bearer " ++ token)).mapError GatewayError.internal
  .ok (HeaderMap.insert headers "authorization" value)

/-- A parsed `Uri`: its path and its query. -/
structure Uri where
  path : String
  query : Option String
deriving DecidableEq

/-- `str::parse::<Uri>`, of the `http` crate. -/
abbrev UriParser := String → Except String Uri

def upstreamUri (U : UriParser) (pathAndQuery : String) : Except GatewayError Uri :=
  let path := if pathAndQuery.toList.head? = some '/' then pathAndQuery else "/" ++ pathAndQuery
  (U ("http://edge-agent" ++ path)).mapError GatewayError.internal

/-! ## `agent.rs` -/

/-- A request to the agent. -/
structure UpstreamRequest where
  method : Method
  uri : Uri
  headers : HeaderMap
  body : List UInt8
deriving DecidableEq

/-- `send_raw`, up to the request it sends. -/
def sendRaw (U : UriParser) (apiToken : Option String) (method : Method) (path : String) (headers : HeaderMap)
    (body : List UInt8) : Except GatewayError UpstreamRequest := do
  let token ← match apiToken with
    | some token => .ok token
    | none => .error (.badGateway "missing upstream API token")
  let headers ← rewriteHeaders headers token
  let uri ← upstreamUri U path
  .ok ⟨method, uri, headers, body⟩

/-! ## The proxy -/

/-- What `load_config` reads. -/
structure FileConfig where
  gatewayToken : Option String
  apiToken : Option String

structure Tokens where
  gatewayToken : Option String
  apiToken : Option String
deriving DecidableEq

/-- `load_tokens`, without the feature `mock`. If a config is named, `file` is what `load_config` reads there. -/
def loadTokens (file : Option (Except String FileConfig)) (cliGatewayToken cliApiToken : Option String) :
    Except String Tokens := do
  let file ← transposeMap id file
  let gatewayToken := cliGatewayToken.or (file.bind (·.gatewayToken))
  let apiToken := cliApiToken.or (file.bind (·.apiToken))
  Effect.rejectIf (gatewayToken == some "") "gateway token must not be empty"
  Effect.rejectIf (apiToken == some "") "upstream API token must not be empty"
  Effect.rejectIf apiToken.isNone "missing upstream API token; set EDGE_API_TOKEN or config api_token"
  .ok { gatewayToken, apiToken }

/-- `MAX_PROXY_BODY_BYTES`. -/
def maxProxyBodyBytes : ℕ := 1024 * 1024

/-- `path_and_query` of a URI. There is none in authority form, where the path is empty. -/
def Uri.pathAndQuery (uri : Uri) : Option String :=
  if uri.path = "" then none
  else
    match uri.query with
    | some query => some (uri.path ++ "?" ++ query)
    | none => some uri.path

/-- A request of a client has the parts that a request to the agent has. -/
abbrev ClientRequest := UpstreamRequest

structure HttpAnswer where
  status : ℕ
  headers : HeaderMap
  body : List UInt8
deriving DecidableEq

def stripApiPrefix (pathAndQuery matchedPath : String) : String :=
  if matchedPath = "" then "/"
  else
    match Text.stripPrefix "/api".toList pathAndQuery.toList with
    | some rest => String.ofList rest
    | none => pathAndQuery

/-- `proxy`, up to the request it sends. -/
def proxyRequest (U : UriParser) (tokens : Tokens) (path : String) (request : ClientRequest) :
    Except GatewayError UpstreamRequest := do
  requireGatewayAuth request.headers tokens.gatewayToken
  Effect.rejectIf (maxProxyBodyBytes < request.body.length) (.badGateway "length limit exceeded")
  let pathAndQuery := request.uri.pathAndQuery.getD "/"
  sendRaw U tokens.apiToken request.method (stripApiPrefix pathAndQuery path) request.headers request.body

/-- What `proxy` makes of the agent's answer. -/
def proxyAnswer (answer : HttpAnswer) : HttpAnswer :=
  { answer with headers := answer.headers.filter fun header => header.1 ∉ hopByHopHeaders }

/-- `proxy`. The client asks the agent, or fails. -/
def proxy {S : Effect.Sig} (U : UriParser) (tokens : Tokens)
    (client : UpstreamRequest → Effect.Prog S String HttpAnswer) (path : String) (request : ClientRequest) :
    Effect.Prog S GatewayError HttpAnswer := do
  let upstream ← .ofExcept (proxyRequest U tokens path request)
  let answer ← (client upstream).mapErr GatewayError.badGateway
  pure (proxyAnswer answer)

/-- How a request to the gateway fails: its handler answers with an error, or an extractor rejects it. -/
inductive Failure where
  | error (e : GatewayError)
  | rejection (r : Rejection)
deriving DecidableEq

/-- The route `/api/{*path}`, with the extractor `Path`. -/
def serveProxy {S : Effect.Sig} (U : UriParser) (path : String → Except Rejection String) (tokens : Tokens)
    (client : UpstreamRequest → Effect.Prog S String HttpAnswer) (request : ClientRequest) :
    Effect.Prog S Failure HttpAnswer :=
  match Text.stripPrefix "/api/".toList request.uri.path.toList with
  | some (c :: rest) => do
    let path ← .ofExcept ((path (String.ofList (c :: rest))).mapError Failure.rejection)
    (proxy U tokens client path request).mapErr Failure.error
  | _ => .fail (.rejection ⟨404, ""⟩)

/-! ## `ui.rs` -/

def cleanOpt (value : Option String) : Option String := (value.map Text.trim).filter (· ≠ "")

def withQuery (path key : String) (value : Option String) : String :=
  match value with
  | some value => path ++ "?" ++ key ++ "=" ++ value
  | none => path

/-- The path of `enable_mapping`. -/
def enablePath (id : String) : String := "/v1/mappings/" ++ id ++ "/enable"

/-- The path of `disable_mapping`. -/
def disablePath (id : String) : String := "/v1/mappings/" ++ id ++ "/disable"

/-- The path of `delete_mapping`. -/
def deletePath (id : String) : String := "/v1/mappings/" ++ id

/-- The path of `oracle_vnic_check`. -/
def vnicCheckPath (vnicId : Option String) : String := withQuery "/v1/oci/vnic/check" "vnic_id" (cleanOpt vnicId)

/-- The path of `oracle_public_ips`. -/
def publicIpsPath (compartmentId : Option String) : String :=
  withQuery "/v1/oci/public-ips" "compartment_id" (cleanOpt compartmentId)

end Gateway

end EdgeRoute
