import EdgeRoute.Spec.Net

/-!
# The data model

`EdgeConfig`, `Mapping` and their enumerations (`edge-core/src/mapping.rs`), and
the errors of the core crate (`edge-core/src/errors.rs`).
-/

namespace EdgeRoute

/-- A mapping id. The field is private in the source: a value comes from `new` or
`from_str`, so it is trimmed and not empty. -/
structure MappingId where
  val : String
  trimmed : Text.trim val = val
  nonempty : val ≠ ""
deriving DecidableEq

inductive EdgeCoreError where
  | validation (message : String)
  | notFound (id : MappingId)
  | duplicatePublicIp (ip : Ipv4Addr)
  | duplicateEdgePrivateIp (ip : Ipv4Addr)
  | duplicateTargetIp (ip : Ipv4Addr)
  | duplicateMappingId (id : MappingId)
  | store (message : String)
deriving DecidableEq

/-- `Display` of the error. -/
def EdgeCoreError.toText : EdgeCoreError → String
  | .validation m => "validation failed: " ++ m
  | .notFound id => "mapping not found: " ++ id.val
  | .duplicatePublicIp ip => "public IP already mapped: " ++ ip.toText
  | .duplicateEdgePrivateIp ip => "edge private IP already mapped: " ++ ip.toText
  | .duplicateTargetIp ip => "target IP already mapped: " ++ ip.toText
  | .duplicateMappingId id => "mapping id already exists: " ++ id.val
  | .store m => "store error: " ++ m

namespace MappingId

/-- `MappingId::from_str`. -/
def fromStr (value : String) : Except EdgeCoreError MappingId :=
  if h : Text.trim value = "" then .error (.validation "mapping id cannot be empty")
  else .ok ⟨Text.trim value, Text.trim_trim value, h⟩

/-- An id is read back from its own text. -/
theorem fromStr_val (id : MappingId) : fromStr id.val = .ok id := by
  obtain ⟨val, trimmed, nonempty⟩ := id
  unfold fromStr
  simp only [trimmed, nonempty, dif_neg, not_false_eq_true]

theorem val_injective {id id' : MappingId} (h : id.val = id'.val) : id = id' := by
  cases id; cases id'; simp_all

end MappingId

inductive Protocol where
  | all
  | tcp
  | udp
deriving DecidableEq

inductive MappingMode where
  | oneToOneSnat
  | portForwardSnat
deriving DecidableEq

inductive MappingBackend where
  | nft
  | xdp
  | proxy
deriving DecidableEq

inductive MappingStatus where
  | pending
  | active
  | disabled
  | degraded
  | error
deriving DecidableEq

inductive OciAuthMode where
  | instancePrincipal
  | apiKey
deriving DecidableEq

/-- `time::OffsetDateTime`: an instant and the UTC offset it is written with. -/
structure OffsetDateTime where
  unixNanos : ℤ
  offsetSecs : ℤ
deriving DecidableEq

structure EdgeConfig where
  wanInterface : String
  netbirdInterface : String
  targetCidrs : List Ipv4Net
  ociCompartmentId : Option String := none
  ociVnicId : Option String := none
  ociSubnetId : Option String := none
  ociNsgIds : List String := []
  ociRegion : Option String := none
  ociAuth : OciAuthMode := .instancePrincipal
  apiToken : Option String := none
deriving DecidableEq

def EdgeConfig.containsTarget (config : EdgeConfig) (ip : Ipv4Addr) : Bool :=
  config.targetCidrs.any fun cidr => cidr.contains ip

structure Mapping where
  id : MappingId
  name : String
  publicIp : Option Ipv4Addr
  ociPublicIpOcid : Option String
  edgePrivateIp : Ipv4Addr
  ociPrivateIpOcid : Option String
  targetIp : Ipv4Addr
  publicPort : Option UInt16
  targetPort : Option UInt16
  protocol : Protocol
  mode : MappingMode
  backend : MappingBackend
  enabled : Bool
  status : MappingStatus
  lastError : Option String
  healthStatus : Option String
  lastCheckedAt : Option OffsetDateTime
  createdAt : OffsetDateTime
  updatedAt : OffsetDateTime
deriving DecidableEq

/-- `Mapping::new`, with the fresh id and the clock reading as arguments. -/
def Mapping.new (id : MappingId) (now : OffsetDateTime) (name : String) (publicIp : Option Ipv4Addr)
    (edgePrivateIp targetIp : Ipv4Addr) : Mapping :=
  { id, name, publicIp, ociPublicIpOcid := none, edgePrivateIp, ociPrivateIpOcid := none, targetIp,
    publicPort := none, targetPort := none, protocol := .all, mode := .oneToOneSnat, backend := .nft,
    enabled := true, status := .pending, lastError := none, healthStatus := none,
    lastCheckedAt := none, createdAt := now, updatedAt := now }

end EdgeRoute
