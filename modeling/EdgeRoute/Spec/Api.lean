import EdgeRoute.Spec.Agent

/-!
# The API of the agent

The handlers of `edge-agent/src/api.rs`, each as a program that checks the bearer token before
anything else, and the router that finds a handler for a request.
-/

namespace EdgeRoute

open Effect

/-! ## Responses -/

structure StatusResponse where
  wanInterface : String
  netbirdInterface : String
  targetCidrs : List String
  mappings : ℕ
  enabledMappings : ℕ
deriving DecidableEq

structure ReconcileResponse where
  generationId : Option ℤ
  addedAddresses : List String
  removedAddresses : List String
  xdpPlanEntries : ℕ
  nftablesConfig : Option String
deriving DecidableEq

/-- The maps are `BTreeMap`s: pairs in the order of their keys. -/
structure AnalyticsResponse where
  mappingTotal : ℕ
  mappingEnabled : ℕ
  mappingStatus : List (String × ℕ)
  mappingBackend : List (String × ℕ)
  eventLevel : List (String × ℕ)
  problemMappings : ℕ
deriving DecidableEq

structure TopologyFlow where
  id : String
  name : String
  publicEndpoint : String
  edgePrivateIp : String
  targetEndpoint : String
  protocol : String
  mode : String
  backend : String
  status : String
  enabled : Bool
deriving DecidableEq

structure TopologyResponse where
  wanInterface : String
  netbirdInterface : String
  targetCidrs : List String
  flows : List TopologyFlow
deriving DecidableEq

structure OciEnvStatus where
  tenancyId : Bool
  userId : Bool
  fingerprint : Bool
  privateKeyPath : Bool
deriving DecidableEq

structure OciStatusResponse where
  authMode : OciAuthMode
  region : Option String
  compartmentIdConfigured : Bool
  vnicIdConfigured : Bool
  subnetIdConfigured : Bool
  nsgCount : ℕ
  apiKeyEnvReady : Bool
  env : OciEnvStatus
  cliAvailable : Bool
  cliVersion : Option String
  compartmentId : Option String
  vnicId : Option String
  subnetId : Option String
  nsgIds : List String
deriving DecidableEq

structure ReleaseResponse where
  mappingId : Option String
  publicIpId : Option String
  privateIpId : Option String
deriving DecidableEq

structure VnicResponse where
  id : String
  displayName : Option String
  skipSourceDestCheck : Option Bool
  ok : Bool
deriving DecidableEq

/-- The body of an answer. -/
inductive ApiResponse where
  | status (response : StatusResponse)
  | mapping (mapping : Mapping)
  | mappings (mappings : List Mapping)
  | text (text : String)
  | reconciled (response : ReconcileResponse)
  | netbird (status : NetbirdStatus)
  | networks (networks : List String)
  | events (events : List EventRecord)
  | analytics (response : AnalyticsResponse)
  | topology (response : TopologyResponse)
  | ociStatus (response : OciStatusResponse)
  | released (response : ReleaseResponse)
  | vnic (response : VnicResponse)
  | publicIps (ips : List PublicIp)
  | nsgAdded (nsgId : String)
  | nsgRemoved (removed : ℕ) (nsgId : String)
deriving DecidableEq

def endpoint (ip : Option String) (port : Option UInt16) : String :=
  match ip, port with
  | some ip, some port => ip ++ ":" ++ port.toNat.repr
  | some ip, none => ip
  | none, _ => "-"

def wireName {α : Type} [DecidableEq α] (names : List (String × α)) (value : α) : String :=
  match enumString names value with
  | .ok name => name
  | .error _ => "unknown"

def countBy (values : List String) : List (String × ℕ) :=
  (sortedSet values).map fun value => (value, values.count value)

def topologyFlow (mapping : Mapping) : TopologyFlow where
  id := mapping.id.val
  name := mapping.name
  publicEndpoint := endpoint (mapping.publicIp.map Ipv4Addr.toText) mapping.publicPort
  edgePrivateIp := mapping.edgePrivateIp.toText
  targetEndpoint := endpoint (some mapping.targetIp.toText) mapping.targetPort
  protocol := wireName Protocol.names mapping.protocol
  mode := wireName MappingMode.names mapping.mode
  backend := wireName MappingBackend.names mapping.backend
  status := wireName MappingStatus.names mapping.status
  enabled := mapping.enabled

/-! ## Parts of handlers -/

abbrev ApiProg (α : Type) := AgentProg ApiFailure α

/-- A store method, `?`. -/
def Api.store {α : Type} (p : StoreProg α) : ApiProg α := (onStore p).mapErr .ofCore

/-- A method of `OciCli`, `.map_err(ApiError::from_oci)?`. -/
def Api.oci {α : Type} (p : OciProg α) : ApiProg α := (liftOci p).mapErr .fromOci

/-- A checked value, `?`. -/
def Api.check {α : Type} (x : Except ApiFailure α) : ApiProg α := .ofExcept x

def Api.mappingId (id : String) : ApiProg MappingId := .ofExcept ((MappingId.fromStr id).mapError .ofCore)

/-- `row_to_event`. -/
def rowToEvent (C : Codec) (row : EventRow) : Except EdgeCoreError EventRecord := do
  let level ← enumFromString EventLevel.names row.level
  let createdAt ← C.parseTime row.createdAt
  .ok { id := row.id, level, message := row.message, data := row.data, createdAt }

/-- `SqliteStore::list_events`. -/
def listEvents (C : Codec) (limit : ℤ) : AgentProg EdgeCoreError (List EventRecord) :=
  .call (S := AgentSig) (.selectEvents (max 1 (min limit 500))) fun rows =>
    .ofExcept (rows.mapError sqlError >>= fun rows => rows.mapM (rowToEvent C))

/-- `NetbirdCli::status`. -/
def netbirdStatus (N : String → Except String NetbirdStatus) : AgentProg NetbirdError NetbirdStatus :=
  .call (S := AgentSig) .netbirdStatus fun r =>
    .ofExcept (netbirdOutput r >>= fun output => (N output.stdout).mapError .json)

/-- `std::env::var_os(name).is_some()`. -/
def envVarSet {ε : Type} (name : String) : AgentProg ε Bool := .op (S := AgentSig) (.envVar name)

namespace Api

section Handlers

variable (C : Codec) (J : OciJson) (N : String → Except String NetbirdStatus) (config : EdgeConfig)
  (headers : HeaderMap)

def status : ApiProg ApiResponse := do
  check (requireAuth config headers)
  let mappings ← store (EdgeRoute.listMappings C)
  pure (.status
    { wanInterface := config.wanInterface
      netbirdInterface := config.netbirdInterface
      targetCidrs := config.targetCidrs.map Ipv4Net.toText
      mappings := mappings.length
      enabledMappings := mappings.countP fun mapping => mapping.enabled })

def listMappings : ApiProg ApiResponse := do
  check (requireAuth config headers)
  let mappings ← store (EdgeRoute.listMappings C)
  pure (.mappings mappings)

def createMapping (request : CreateMappingRequest) : ApiProg ApiResponse := do
  check (requireAuth config headers)
  let new ← newMapping request.name request.publicIp request.edgePrivateIp request.targetIp
  let mapping := { new with
    publicPort := request.publicPort
    targetPort := request.targetPort
    mode := request.mode.getD .oneToOneSnat
    protocol := request.protocol.getD .all
    backend := request.backend.getD .nft }
  store (insertMapping C mapping)
  pure (.mapping mapping)

def getMapping (id : String) : ApiProg ApiResponse := do
  check (requireAuth config headers)
  let id ← mappingId id
  let mapping ← store (EdgeRoute.getMapping C id)
  pure (.mapping mapping)

def deleteMapping (id : String) : ApiProg ApiResponse := do
  check (requireAuth config headers)
  let id ← mappingId id
  let _ ← store (setMappingEnabled C id false)
  match ← (liftHost (EdgeRoute.reconcile C config {})).attempt with
  | .error error =>
    let _ ← store (recordEvent C .error "delete reconcile failed" (some error.toText))
    .fail (.fromReconcile error)
  | .ok _ =>
    let deleted ← store (EdgeRoute.deleteMapping C id)
    pure (.mapping deleted)

/-- `enable_mapping` and `disable_mapping`. -/
def setEnabled (id : String) (enabled : Bool) : ApiProg ApiResponse := do
  check (requireAuth config headers)
  let id ← mappingId id
  let mapping ← store (setMappingEnabled C id enabled)
  pure (.mapping mapping)

def enableMapping (id : String) : ApiProg ApiResponse := setEnabled C config headers id true

def disableMapping (id : String) : ApiProg ApiResponse := setEnabled C config headers id false

def dryRunApply : ApiProg ApiResponse := do
  check (requireAuth config headers)
  let mappings ← store (EdgeRoute.listMappings C)
  let rendered ← .ofExcept ((renderNftables mappings config {}).mapError .ofRender)
  pure (.text rendered)

def reconcileOptions (request : ReconcileRequest) : ReconcileOptions where
  nftOutput := request.output.getD "/run/edge-router/generated.nft"
  dryRun := request.dryRun
  applyNft := !request.skipNft
  applyLinux := !request.skipLinux
  xdp := xdpConfig request.enableXdp request.xdpInterface request.xdpPinPath config

def reconcile (request : ReconcileRequest) : ApiProg ApiResponse := do
  check (requireAuth config headers)
  let report ← (liftHost (EdgeRoute.reconcile C config (reconcileOptions config request))).mapErr .fromReconcile
  pure (.reconciled
    { generationId := report.generationId
      addedAddresses := report.addedAddresses
      removedAddresses := report.removedAddresses
      xdpPlanEntries := report.xdpPlanEntries
      nftablesConfig := if request.includeConfig then some report.nftablesConfig else none })

def netbirdStatus : ApiProg ApiResponse := do
  check (requireAuth config headers)
  let status ← (EdgeRoute.netbirdStatus N).mapErr .ofNetbird
  pure (.netbird status)

def netbirdNetworks : ApiProg ApiResponse := do
  check (requireAuth config headers)
  let status ← (EdgeRoute.netbirdStatus N).mapErr .ofNetbird
  pure (.networks status.advertisedNetworks)

def events : ApiProg ApiResponse := do
  check (requireAuth config headers)
  let events ← (listEvents C 100).mapErr .ofCore
  pure (.events events)

def analytics : ApiProg ApiResponse := do
  check (requireAuth config headers)
  let mappings ← store (EdgeRoute.listMappings C)
  let events ← (listEvents C 100).mapErr .ofCore
  let statusName (mapping : Mapping) := wireName MappingStatus.names mapping.status
  pure (.analytics
    { mappingTotal := mappings.length
      mappingEnabled := mappings.countP fun mapping => mapping.enabled
      mappingStatus := countBy (mappings.map statusName)
      mappingBackend := countBy (mappings.map fun mapping => wireName MappingBackend.names mapping.backend)
      eventLevel := countBy (events.map fun event => wireName EventLevel.names event.level)
      problemMappings := mappings.countP fun mapping =>
        statusName mapping == "degraded" || statusName mapping == "error" })

def topology : ApiProg ApiResponse := do
  check (requireAuth config headers)
  let mappings ← store (EdgeRoute.listMappings C)
  pure (.topology
    { wanInterface := config.wanInterface
      netbirdInterface := config.netbirdInterface
      targetCidrs := config.targetCidrs.map Ipv4Net.toText
      flows := mappings.map topologyFlow })

def ociStatus : ApiProg ApiResponse := do
  check (requireAuth config headers)
  let cli ← (liftOci (runOci .version)).attempt
  let tenancyId ← envVarSet "OCI_TENANCY_ID"
  let userId ← envVarSet "OCI_USER_ID"
  let fingerprint ← envVarSet "OCI_FINGERPRINT"
  let privateKeyPath ← envVarSet "OCI_PRIVATE_KEY_PATH"
  pure (.ociStatus
    { authMode := config.ociAuth
      region := config.ociRegion
      compartmentIdConfigured := config.ociCompartmentId.isSome
      vnicIdConfigured := config.ociVnicId.isSome
      subnetIdConfigured := config.ociSubnetId.isSome
      nsgCount := config.ociNsgIds.length
      apiKeyEnvReady := tenancyId && userId && fingerprint && privateKeyPath
      env := { tenancyId, userId, fingerprint, privateKeyPath }
      cliAvailable := cli.toBool
      cliVersion := cli.toOption.map fun output => Text.trim output.stdout
      compartmentId := config.ociCompartmentId
      vnicId := config.ociVnicId
      subnetId := config.ociSubnetId
      nsgIds := config.ociNsgIds })

def ociAllocate (request : OciAllocateRequest) : ApiProg ApiResponse := do
  check (requireAuth config headers)
  check (requireConfirm request.confirm "confirm")
  let id ← mappingId request.mappingId
  let mapping ← store (EdgeRoute.getMapping C id)
  check (rejectIf mapping.hasAllocation (.badRequest ("mapping already has OCI allocation fields: " ++ id.val)))
  let compartmentId ← check (orBadRequest (resolve request.compartmentId config.ociCompartmentId)
    "missing compartment id (pass compartment_id or set oci_compartment_id)")
  let vnicId ← check (orBadRequest (resolve request.vnicId config.ociVnicId)
    "missing vnic id (pass vnic_id or set oci_vnic_id)")
  let name := (resolve request.displayName none).getD mapping.name
  let allocation ← oci (allocateForwardingIp J compartmentId vnicId (some name))
  let mapping ← storeAllocation C (fun error _ _ => .ofCore error) mapping allocation
  let _ ← (onStore (recordEvent C .info "oci allocate" (some ("mapping " ++ id.val ++ " public " ++
    allocation.publicIp.ipAddress.toText ++ " private " ++ allocation.privateIp.ipAddress.toText)))).attempt
  pure (.mapping mapping)

/-- `if let Some(id)`: delete the address. -/
def deleteIfSome (delete : String → OciProg Unit) : Option String → ApiProg Unit
  | some id => oci (delete id)
  | none => pure ()

/-- The two deletes of a release. -/
def deleteIps (publicIpId privateIpId : Option String) : ApiProg Unit := do
  deleteIfSome deletePublicIp publicIpId
  deleteIfSome deletePrivateIp privateIpId

/-- `oci_release` with a mapping id. -/
def releaseMapping (id : String) : ApiProg ApiResponse := do
  let id ← mappingId id
  let mapping ← store (EdgeRoute.getMapping C id)
  check (rejectIf (mapping.ociPublicIpOcid.isNone && mapping.ociPrivateIpOcid.isNone)
    (.badRequest ("mapping has no OCI allocation to release: " ++ id.val)))
  deleteIps mapping.ociPublicIpOcid mapping.ociPrivateIpOcid
  let released ← markStatus mapping.released .disabled
  store (updateMapping C released)
  let _ ← (onStore (recordEvent C .warn "oci release" (some ("mapping " ++ id.val)))).attempt
  pure (.released ⟨some id.val, mapping.ociPublicIpOcid, mapping.ociPrivateIpOcid⟩)

/-- `oci_release` without a mapping id. -/
def releaseIps (publicIpId privateIpId : Option String) : ApiProg ApiResponse := do
  check (rejectIf (publicIpId.isNone && privateIpId.isNone)
    (.badRequest "release needs mapping_id or public_ip_id/private_ip_id"))
  deleteIps publicIpId privateIpId
  pure (.released ⟨none, publicIpId, privateIpId⟩)

def ociRelease (request : OciReleaseRequest) : ApiProg ApiResponse := do
  check (requireAuth config headers)
  check (requireConfirm request.confirm "delete")
  match resolve request.mappingId none with
  | some id => releaseMapping C id
  | none => releaseIps (resolve request.publicIpId none) (resolve request.privateIpId none)

def ociVnicCheck (vnicId : Option String) : ApiProg ApiResponse := do
  check (requireAuth config headers)
  let vnicId ← check (orBadRequest (resolve vnicId config.ociVnicId)
    "missing vnic id (pass vnic_id or set oci_vnic_id)")
  let vnic ← oci (getVnic J vnicId)
  pure (.vnic ⟨vnic.id, vnic.displayName, vnic.skipSourceDestCheck, (validateVnicForwarding vnic).toBool⟩)

def ociPublicIps (compartmentId : Option String) : ApiProg ApiResponse := do
  check (requireAuth config headers)
  let compartmentId ← check (orBadRequest (resolve compartmentId config.ociCompartmentId)
    "missing compartment id (pass compartment_id or set oci_compartment_id)")
  let ips ← oci (listPublicIps J compartmentId)
  pure (.publicIps ips)

/-- The number that `oci_nsg_add` gives a protocol. -/
def nsgProtocol (protocol : String) : String :=
  let protocol := asciiLower (Text.trim protocol)
  if protocol = "tcp" ∨ protocol = "6" then "6" else if protocol = "udp" ∨ protocol = "17" then "17" else protocol

def nsgPortOptions (portMin portMax : Option UInt16) : Option PortOptions :=
  match portMin, portMax with
  | some min, some max => some ⟨⟨min, max⟩⟩
  | some port, none => some ⟨⟨port, port⟩⟩
  | none, some port => some ⟨⟨port, port⟩⟩
  | none, none => none

/-- The rule that `oci_nsg_add` submits. -/
def nsgRule (request : OciNsgAddRequest) : IngressSecurityRule :=
  let protocol := nsgProtocol request.protocol
  let portOptions := nsgPortOptions request.portMin request.portMax
  { protocol
    source := Text.trim request.source
    tcpOptions := if protocol = "6" then portOptions else none
    udpOptions := if protocol = "17" then portOptions else none
    description := resolve request.description none }

def ociNsgAdd (request : OciNsgAddRequest) : ApiProg ApiResponse := do
  check (requireAuth config headers)
  check (requireConfirm request.confirm "confirm")
  let nsgId ← check (orBadRequest (resolve request.nsgId config.ociNsgIds.head?)
    "missing nsg id (pass nsg_id or set oci_nsg_ids)")
  oci (addNsgRules J nsgId [nsgRule request])
  pure (.nsgAdded nsgId)

def ociNsgRemove (request : OciNsgRemoveRequest) : ApiProg ApiResponse := do
  check (requireAuth config headers)
  check (requireConfirm request.confirm "delete")
  let nsgId ← check (orBadRequest (resolve request.nsgId config.ociNsgIds.head?)
    "missing nsg id (pass nsg_id or set oci_nsg_ids)")
  let ruleIds := (request.ruleIds.map Text.trim).filter (· ≠ "")
  check (rejectIf ruleIds.isEmpty (.badRequest "no rule ids supplied"))
  oci (removeNsgRules J nsgId ruleIds)
  pure (.nsgRemoved ruleIds.length nsgId)

end Handlers

end Api

/-! ## The router -/

/-- A request as its handler gets it from the extractors. -/
inductive ApiCall where
  | status
  | listMappings
  | createMapping (request : CreateMappingRequest)
  | getMapping (id : String)
  | deleteMapping (id : String)
  | enableMapping (id : String)
  | disableMapping (id : String)
  | dryRunApply
  | reconcile (request : ReconcileRequest)
  | netbirdStatus
  | netbirdNetworks
  | events
  | analytics
  | topology
  | ociStatus
  | ociAllocate (request : OciAllocateRequest)
  | ociRelease (request : OciReleaseRequest)
  | ociVnicCheck (vnicId : Option String)
  | ociPublicIps (compartmentId : Option String)
  | ociNsgAdd (request : OciNsgAddRequest)
  | ociNsgRemove (request : OciNsgRemoveRequest)

/-- The handler of the call. -/
def ApiCall.prog (C : Codec) (J : OciJson) (N : String → Except String NetbirdStatus) (config : EdgeConfig)
    (headers : HeaderMap) : ApiCall → ApiProg ApiResponse
  | .status => Api.status C config headers
  | .listMappings => Api.listMappings C config headers
  | .createMapping request => Api.createMapping C config headers request
  | .getMapping id => Api.getMapping C config headers id
  | .deleteMapping id => Api.deleteMapping C config headers id
  | .enableMapping id => Api.enableMapping C config headers id
  | .disableMapping id => Api.disableMapping C config headers id
  | .dryRunApply => Api.dryRunApply C config headers
  | .reconcile request => Api.reconcile C config headers request
  | .netbirdStatus => Api.netbirdStatus N config headers
  | .netbirdNetworks => Api.netbirdNetworks N config headers
  | .events => Api.events C config headers
  | .analytics => Api.analytics C config headers
  | .topology => Api.topology C config headers
  | .ociStatus => Api.ociStatus config headers
  | .ociAllocate request => Api.ociAllocate C J config headers request
  | .ociRelease request => Api.ociRelease C config headers request
  | .ociVnicCheck vnicId => Api.ociVnicCheck J config headers vnicId
  | .ociPublicIps compartmentId => Api.ociPublicIps J config headers compartmentId
  | .ociNsgAdd request => Api.ociNsgAdd J config headers request
  | .ociNsgRemove request => Api.ociNsgRemove J config headers request

inductive Method where
  | get
  | head
  | post
  | delete
  | other
deriving DecidableEq

/-- A request as it comes in: the raw segments of its path, its query and its body. -/
structure HttpRequest where
  method : Method
  path : List String
  query : String
  headers : HeaderMap
  body : List UInt8

/-- The extractors of axum: `Path`, `Query` and `Json`. -/
structure Extractors where
  path : String → Except Rejection String
  vnicQuery : String → Except Rejection (Option String)
  compartmentQuery : String → Except Rejection (Option String)
  createMapping : HttpRequest → Except Rejection CreateMappingRequest
  reconcile : HttpRequest → Except Rejection ReconcileRequest
  allocate : HttpRequest → Except Rejection OciAllocateRequest
  release : HttpRequest → Except Rejection OciReleaseRequest
  nsgAdd : HttpRequest → Except Rejection OciNsgAddRequest
  nsgRemove : HttpRequest → Except Rejection OciNsgRemoveRequest

/-- The handlers of one route. `get(..)` serves HEAD too. -/
structure MethodRouter where
  get : Option (Except Rejection ApiCall) := none
  post : Option (Except Rejection ApiCall) := none
  delete : Option (Except Rejection ApiCall) := none

def MethodRouter.find (r : MethodRouter) : Method → Option (Except Rejection ApiCall)
  | .get | .head => r.get
  | .post => r.post
  | .delete => r.delete
  | .other => none

/-- The routes of `router`. A parameter matches one segment, at the end of a path one that is not empty. -/
def routes (X : Extractors) (request : HttpRequest) : List String → Option MethodRouter
  | ["v1", "status"] => some { get := some (.ok .status) }
  | ["v1", "mappings"] =>
    some { get := some (.ok .listMappings), post := some ((X.createMapping request).map .createMapping) }
  | ["v1", "mappings", id] =>
    if id = "" then none
    else some { get := some ((X.path id).map .getMapping), delete := some ((X.path id).map .deleteMapping) }
  | ["v1", "mappings", id, "enable"] => some { post := some ((X.path id).map .enableMapping) }
  | ["v1", "mappings", id, "disable"] => some { post := some ((X.path id).map .disableMapping) }
  | ["v1", "apply", "dry-run"] => some { post := some (.ok .dryRunApply) }
  | ["v1", "reconcile"] => some { post := some ((X.reconcile request).map .reconcile) }
  | ["v1", "netbird", "status"] => some { get := some (.ok .netbirdStatus) }
  | ["v1", "netbird", "networks"] => some { get := some (.ok .netbirdNetworks) }
  | ["v1", "events"] => some { get := some (.ok .events) }
  | ["v1", "analytics"] => some { get := some (.ok .analytics) }
  | ["v1", "topology"] => some { get := some (.ok .topology) }
  | ["v1", "oci", "status"] => some { get := some (.ok .ociStatus) }
  | ["v1", "oci", "allocate"] => some { post := some ((X.allocate request).map .ociAllocate) }
  | ["v1", "oci", "release"] => some { post := some ((X.release request).map .ociRelease) }
  | ["v1", "oci", "vnic", "check"] => some { get := some ((X.vnicQuery request.query).map .ociVnicCheck) }
  | ["v1", "oci", "public-ips"] => some { get := some ((X.compartmentQuery request.query).map .ociPublicIps) }
  | ["v1", "oci", "nsg", "add"] => some { post := some ((X.nsgAdd request).map .ociNsgAdd) }
  | ["v1", "oci", "nsg", "remove"] => some { post := some ((X.nsgRemove request).map .ociNsgRemove) }
  | _ => none

/-- The call that a request is, or the answer it gets without one. -/
def route (X : Extractors) (request : HttpRequest) : Except Rejection ApiCall :=
  match routes X request request.path with
  | none => .error ⟨404, ""⟩
  | some methods => (methods.find request.method).getD (.error ⟨405, ""⟩)

/-- **The service of `router`**: a request, answered. -/
def serve (C : Codec) (J : OciJson) (N : String → Except String NetbirdStatus) (X : Extractors)
    (config : EdgeConfig) (request : HttpRequest) : ApiProg ApiResponse := do
  let call ← .ofExcept ((route X request).mapError .rejection)
  call.prog C J N config request.headers

end EdgeRoute
