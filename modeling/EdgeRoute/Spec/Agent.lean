import EdgeRoute.Spec.Netbird
import EdgeRoute.Spec.Oci
import EdgeRoute.Spec.Reconcile

/-!
# The agent

What a front end asks for beyond the host: the cloud, NetBird, the events, new ids and its own
environment; and the parts of `edge-agent/src/api.rs` that every handler shares: requests, errors,
authentication and confirmation.
-/

namespace EdgeRoute

open Effect

/-! ## Operations -/

inductive AgentOp where
  | host (o : HostOp)
  | oci (command : OciCommand)
  | selectEvents (limit : ℤ)
  | newId
  | netbirdStatus
  | routeGet (target : Ipv4Addr)
  | envVar (name : String)

abbrev AgentOp.Reply : AgentOp → Type
  | .host o => o.Reply
  | .oci _ => Outcome
  | .selectEvents _ => Except Sql.SqlError (List EventRow)
  | .newId => MappingId
  | .netbirdStatus => Except String CommandOutput
  | .routeGet _ => Except String CommandOutput
  | .envVar _ => Bool

abbrev AgentSig : Sig := ⟨AgentOp, AgentOp.Reply⟩

abbrev AgentProg (ε α : Type) := Prog AgentSig ε α

/-- The host and the cloud. -/
structure AgentWorld where
  host : World
  cloud : Cloud

/-- `SELECT * FROM events ORDER BY id DESC LIMIT ?`. -/
def Db.latestEvents (db : Db) (limit : ℤ) : List EventRow := db.events.reverse.take limit.toNat

/-- **The world of a front end as an environment.** -/
def agentEnv (J : OciJson) : Env AgentSig AgentWorld := fun w o r w' =>
  match o, r with
  | .host o, r => ∃ host, hostEnv w.host o r host ∧ w' = { w with host }
  | .oci command, r => ∃ cloud, cloudEnv J w.cloud command r cloud ∧ w' = { w with cloud }
  | .selectEvents limit, r =>
    w' = w ∧ (r = .ok (w.host.db.latestEvents limit) ∨ ∃ message, r = .error (.unavailable message))
  | _, _ => w' = w

/-- A part of a call that asks the host only. -/
def liftHost {ε α : Type} (p : Prog HostSig ε α) : AgentProg ε α :=
  p.embed (T := AgentSig) AgentOp.host fun _ r => r

/-- A part of a call that asks the cloud only. -/
def liftOci {ε α : Type} (p : Prog OciSig ε α) : AgentProg ε α :=
  p.embed (T := AgentSig) AgentOp.oci fun _ r => r

/-- A store method in a front end. -/
def onStore {α : Type} (p : StoreProg α) : AgentProg EdgeCoreError α :=
  liftHost (p.embed (T := HostSig) HostOp.store fun _ r => r)

/-! ## Errors -/

inductive StatusCode where
  | unauthorized
  | badRequest
  | notFound
  | badGateway
  | internalServerError
deriving DecidableEq

structure ApiError where
  status : StatusCode
  message : String
deriving DecidableEq

/-- The answer of axum to a request that reaches no handler: no route, no such method, or an extractor
that rejects it. -/
structure Rejection where
  status : ℕ
  message : String
deriving DecidableEq

/-- How a call of the API fails: a handler answers with an error or panics, or there is no handler. -/
inductive ApiFailure where
  | error (e : ApiError)
  | panic (message : String)
  | rejection (r : Rejection)
deriving DecidableEq

namespace ApiError

/-- `From<EdgeCoreError>`. -/
def ofCore (error : EdgeCoreError) : ApiError where
  status := match error with
    | .notFound _ => .notFound
    | .validation _ | .duplicatePublicIp _ | .duplicateEdgePrivateIp _ | .duplicateTargetIp _
    | .duplicateMappingId _ => .badRequest
    | .store _ => .internalServerError
  message := error.toText

def unauthorized : ApiError := ⟨.unauthorized, "missing or invalid bearer token"⟩

def badGateway (message : String) : ApiError := ⟨.badGateway, message⟩

def badRequest (message : String) : ApiError := ⟨.badRequest, message⟩

def fromOci (error : OciError) : ApiError := ⟨.badGateway, error.toText⟩

def fromReconcile (error : ReconcileError) : ApiError := ⟨.internalServerError, error.toText⟩

end ApiError

namespace ApiFailure

def ofCore (error : EdgeCoreError) : ApiFailure := .error (.ofCore error)

def fromOci (error : OciError) : ApiFailure := .error (.fromOci error)

def badRequest (message : String) : ApiFailure := .error (.badRequest message)

def ofNetbird (error : NetbirdError) : ApiFailure := .error (.badGateway error.toText)

/-- A panic is no value of `ReconcileError` in the source and no answer of the handler. -/
def fromReconcile : ReconcileError → ApiFailure
  | .panic message => .panic message
  | e => .error (.fromReconcile e)

def ofRender : RenderFault → ApiFailure
  | .err e => .ofCore e
  | .panic message => .panic message

end ApiFailure

/-! ## Authentication -/

/-- The headers of a request in order, their names in lower case. -/
abbrev HeaderMap := List (String × List UInt8)

/-- `HeaderMap::get`: the first value of a name. -/
def HeaderMap.get (headers : HeaderMap) (name : String) : Option (List UInt8) :=
  (headers.find? fun header => header.1 = name).map (·.2)

/-- A byte that `HeaderValue::to_str` accepts. -/
def isVisibleAscii (b : UInt8) : Bool := (32 ≤ b && b < 127) || b == 9

/-- `HeaderValue::to_str`, as the bytes of the text. -/
def headerToStr (value : List UInt8) : Option (List UInt8) := if value.all isVisibleAscii then some value else none

/-- `str::as_bytes`. -/
def asBytes (s : String) : List UInt8 := s.toUTF8.toList

/-- `str::strip_prefix` on the bytes of both. -/
def stripBytes (pre value : List UInt8) : Option (List UInt8) :=
  if pre.isPrefixOf value then some (value.drop pre.length) else none

/-- The loop of `constant_time_eq`. -/
def constantTimeDiff (left right : List UInt8) (diff : ℕ) (indices : List ℕ) : ℕ :=
  indices.foldl (fun diff idx => diff ||| (left.getD idx 0 ^^^ right.getD idx 0).toNat) diff

def constantTimeEq (left right : List UInt8) : Bool :=
  constantTimeDiff left right (left.length ^^^ right.length) (List.range (max left.length right.length)) == 0

def requireAuth (config : EdgeConfig) (headers : HeaderMap) : Except ApiFailure Unit :=
  match config.apiToken with
  | none => .ok ()
  | some expected =>
    match ((headers.get "authorization").bind headerToStr).bind (stripBytes (asBytes "Bearer ")) with
    | none => .error (.error .unauthorized)
    | some actual => if constantTimeEq actual (asBytes expected) then .ok () else .error (.error .unauthorized)

/-! ## Requests -/

/-- `str::to_ascii_lowercase`. -/
def asciiLower (s : String) : String := String.ofList (s.toList.map Char.toLower)

def requireConfirm (value expected : String) : Except ApiFailure Unit :=
  if asciiLower (Text.trim value) = asciiLower expected then .ok ()
  else .error (.badRequest ("confirmation failed: type \"" ++ expected ++ "\" to proceed"))

def resolve (value fallback : Option String) : Option String :=
  ((value.map Text.trim).filter (· ≠ "")).or fallback

/-- `ok_or_else(|| ApiError::bad_request(message))`. -/
def orBadRequest {α : Type} (value : Option α) (message : String) : Except ApiFailure α :=
  match value with
  | some a => .ok a
  | none => .error (.badRequest message)

structure CreateMappingRequest where
  name : String
  publicIp : Option Ipv4Addr := none
  edgePrivateIp : Ipv4Addr
  targetIp : Ipv4Addr
  publicPort : Option UInt16 := none
  targetPort : Option UInt16 := none
  mode : Option MappingMode := none
  protocol : Option Protocol := none
  backend : Option MappingBackend := none
deriving DecidableEq

structure ReconcileRequest where
  dryRun : Bool := false
  skipLinux : Bool := false
  skipNft : Bool := false
  includeConfig : Bool := false
  enableXdp : Bool := false
  xdpInterface : Option String := none
  xdpPinPath : Option String := none
  output : Option String := none
deriving DecidableEq

structure OciAllocateRequest where
  mappingId : String
  compartmentId : Option String := none
  vnicId : Option String := none
  displayName : Option String := none
  confirm : String := ""
deriving DecidableEq

structure OciReleaseRequest where
  mappingId : Option String := none
  publicIpId : Option String := none
  privateIpId : Option String := none
  confirm : String := ""
deriving DecidableEq

structure OciNsgAddRequest where
  nsgId : Option String := none
  protocol : String
  source : String
  portMin : Option UInt16 := none
  portMax : Option UInt16 := none
  description : Option String := none
  confirm : String := ""
deriving DecidableEq

structure OciNsgRemoveRequest where
  nsgId : Option String := none
  ruleIds : List String
  confirm : String := ""
deriving DecidableEq

/-- `Mapping::new`, with a new id and the clock. -/
def newMapping {ε : Type} (name : String) (publicIp : Option Ipv4Addr) (edgePrivateIp targetIp : Ipv4Addr) :
    AgentProg ε Mapping :=
  .call (S := AgentSig) .newId fun id =>
    .call (S := AgentSig) (.host (.store .now)) fun now => .ret (.new id now name publicIp edgePrivateIp targetIp)

/-- `Mapping::mark_status`. -/
def markStatus {ε : Type} (mapping : Mapping) (status : MappingStatus) : AgentProg ε Mapping :=
  .call (S := AgentSig) (.host (.store .now)) fun now => .ret { mapping with status, updatedAt := now }

/-- The mapping after an allocation. -/
def Mapping.allocated (mapping : Mapping) (allocation : Allocation) : Mapping :=
  { mapping with
    edgePrivateIp := allocation.privateIp.ipAddress
    publicIp := some allocation.publicIp.ipAddress
    ociPrivateIpOcid := some allocation.privateIp.id
    ociPublicIpOcid := some allocation.publicIp.id }

/-- The mapping after a release. -/
def Mapping.released (mapping : Mapping) : Mapping :=
  { mapping with publicIp := none, ociPublicIpOcid := none, ociPrivateIpOcid := none }

/-- The end of an allocation: the row is written, or both addresses are given back. What is reported
of that is up to the caller. -/
def storeAllocation {ε : Type} (C : Codec)
    (onFailure : EdgeCoreError → Except OciError Unit → Except OciError Unit → ε) (mapping : Mapping)
    (allocation : Allocation) : AgentProg ε Mapping := do
  let mapping ← markStatus (mapping.allocated allocation) .pending
  match ← (onStore (updateMapping C mapping)).attempt with
  | .ok () => pure mapping
  | .error error =>
    let publicCleanup ← (liftOci (deletePublicIp allocation.publicIp.id)).attempt
    let privateCleanup ← (liftOci (deletePrivateIp allocation.privateIp.id)).attempt
    .fail (onFailure error publicCleanup privateCleanup)

/-- The mapping has an allocation, in whole or in part. -/
def Mapping.hasAllocation (mapping : Mapping) : Bool :=
  mapping.publicIp.isSome || mapping.ociPublicIpOcid.isSome || mapping.ociPrivateIpOcid.isSome

/-- `xdp_config` of the agent. -/
def xdpConfig (enabled : Bool) (interface pinPath : Option String) (config : EdgeConfig) : XdpConfig :=
  let interface := interface.getD config.wanInterface
  let pinPath := pinPath.getD "/sys/fs/bpf/edgeroute"
  if enabled then { enabled := true, interface, pinPath } else .disabled interface

end EdgeRoute
