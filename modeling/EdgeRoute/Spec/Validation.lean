import EdgeRoute.Lib.Prog
import EdgeRoute.Spec.Mapping

/-!
# Validation

`edge-core/src/validation.rs`: the checks on one config, on one mapping and on a
list of mappings, with their errors.
-/

namespace EdgeRoute

open Effect

/-! ## Names and addresses -/

def validateName (name : String) : Except EdgeCoreError Unit := do
  let trimmed := Text.trim name
  rejectIf (trimmed == "") (.validation "mapping name cannot be empty")
  rejectIf (63 < trimmed.utf8ByteSize) (.validation "mapping name cannot exceed 63 bytes")
  -- a character outside ASCII has only bytes outside ASCII
  rejectIf (!trimmed.toList.all fun c => c.isAlphanum || c == '-' || c == '_')
    (.validation "mapping name may only contain ASCII letters, digits, '-' and '_'")

def validateInterfaceName (field name : String) : Except EdgeCoreError Unit := do
  let trimmed := Text.trim name
  rejectIf (trimmed == "") (.validation (field ++ " cannot be empty"))
  rejectIf (15 < trimmed.utf8ByteSize) (.validation (field ++ " cannot exceed 15 bytes"))
  rejectIf (trimmed.toList.contains '/' || trimmed.toList.contains '\x00' || trimmed == "." ||
      trimmed == "..")
    (.validation (field ++ " is not a valid Linux interface name"))

def isReservedOrPrivate (ip : Ipv4Addr) : Bool :=
  ip.isPrivate || ip.isLoopback || ip.isLinkLocal || ip.isMulticast || ip.isBroadcast ||
    ip.isUnspecified || (ip.a == 100 && (64 ≤ ip.b && ip.b ≤ 127)) ||
    (ip.a == 192 && ip.b == 0 && ip.c == 0) || (ip.a == 192 && ip.b == 0 && ip.c == 2) ||
    (ip.a == 198 && ip.b == 51 && ip.c == 100) || (ip.a == 203 && ip.b == 0 && ip.c == 113) ||
    240 ≤ ip.a

def validatePublicIp (ip : Ipv4Addr) : Except EdgeCoreError Unit :=
  rejectIf (isReservedOrPrivate ip) (.validation ("public IP must be globally routable: " ++ ip.toText))

/-- `if let Some(public_ip) = mapping.public_ip { validate_public_ip(public_ip)? }`. -/
def validateOptionalPublicIp : Option Ipv4Addr → Except EdgeCoreError Unit
  | some ip => validatePublicIp ip
  | none => .ok ()

def validateEdgePrivateIp (ip : Ipv4Addr) : Except EdgeCoreError Unit :=
  rejectIf (!ip.isPrivate) (.validation ("edge private IP must be RFC1918 private: " ++ ip.toText))

def isNetworkOrBroadcast (ip : Ipv4Addr) (cidr : Ipv4Net) : Bool :=
  if 31 ≤ cidr.prefixLen then false else ip == cidr.network || ip == cidr.broadcast

def validateTargetIp (ip : Ipv4Addr) (targetCidrs : List Ipv4Net) : Except EdgeCoreError Unit :=
  match targetCidrs.find? fun cidr => cidr.contains ip with
  | none => .error (.validation ("target IP is outside configured target CIDRs: " ++ ip.toText))
  | some cidr =>
    rejectIf (isNetworkOrBroadcast ip cidr)
      (.validation ("target IP cannot be network or broadcast address: " ++ ip.toText))

/-! ## The config -/

/-- The loop over `target_cidrs`. -/
def validateCidrs : List Ipv4Net → Except EdgeCoreError Unit
  | [] => .ok ()
  | cidr :: rest => do
    rejectIf cidr.addr.isUnspecified
      (.validation ("target CIDR cannot be unspecified: " ++ cidr.toText))
    validateCidrs rest

def validateEdgeConfig (config : EdgeConfig) : Except EdgeCoreError Unit := do
  validateInterfaceName "wan_interface" config.wanInterface
  validateInterfaceName "netbird_interface" config.netbirdInterface
  rejectIf config.targetCidrs.isEmpty (.validation "at least one target CIDR must be configured")
  validateCidrs config.targetCidrs

/-! ## One mapping -/

/-- The match on `mapping.backend`. -/
def validateBackend (mapping : Mapping) : Except EdgeCoreError Unit :=
  match mapping.backend with
  | .nft => .ok ()
  | .xdp =>
    if mapping.mode = .portForwardSnat then .ok ()
    else .error (.validation "xdp backend only supports port-forward mappings")
  | .proxy => .error (.validation "proxy mapping backend is not implemented")

/-- The match on `mapping.mode`. -/
def validateMode (mapping : Mapping) : Except EdgeCoreError Unit :=
  match mapping.mode with
  | .oneToOneSnat => do
    rejectIf mapping.publicPort.isSome (.validation "one-to-one mappings cannot set public_port")
    rejectIf (mapping.targetPort == some 0) (.validation "target port must be between 1 and 65535")
    rejectIf (mapping.protocol != .all) (.validation "one-to-one mappings must use protocol=all")
  | .portForwardSnat => do
    rejectIf mapping.publicPort.isNone (.validation "port-forward mappings require public_port")
    rejectIf (mapping.publicPort == some 0) (.validation "public port must be between 1 and 65535")
    rejectIf mapping.targetPort.isNone (.validation "port-forward mappings require target_port")
    rejectIf (mapping.targetPort == some 0) (.validation "target port must be between 1 and 65535")
    rejectIf (mapping.protocol == .all)
      (.validation "port-forward mappings must use protocol=tcp or protocol=udp")

def validateMapping (mapping : Mapping) (config : EdgeConfig) : Except EdgeCoreError Unit := do
  validateName mapping.name
  validateOptionalPublicIp mapping.publicIp
  validateEdgePrivateIp mapping.edgePrivateIp
  validateTargetIp mapping.targetIp config.targetCidrs
  rejectIf (mapping.publicIp == some mapping.edgePrivateIp)
    (.validation "public IP and edge private IP cannot match")
  rejectIf (mapping.edgePrivateIp == mapping.targetIp)
    (.validation "edge private IP and target IP cannot match")
  validateBackend mapping
  validateMode mapping

/-! ## A list of mappings -/

def conflicts (left right : Mapping) : Bool :=
  if !left.enabled || !right.enabled then false
  else match left.mode, right.mode with
    | .oneToOneSnat, .oneToOneSnat =>
      left.edgePrivateIp == right.edgePrivateIp || left.targetIp == right.targetIp
    | .oneToOneSnat, .portForwardSnat => left.edgePrivateIp == right.edgePrivateIp
    | .portForwardSnat, .oneToOneSnat => left.edgePrivateIp == right.edgePrivateIp
    | .portForwardSnat, .portForwardSnat =>
      left.edgePrivateIp == right.edgePrivateIp && left.protocol == right.protocol &&
        left.publicPort == right.publicPort

def conflictError (left right : Mapping) : EdgeCoreError :=
  if left.mode = .oneToOneSnat ∧ right.mode = .oneToOneSnat ∧ left.targetIp = right.targetIp then
    .duplicateTargetIp left.targetIp
  else if left.edgePrivateIp = right.edgePrivateIp then .duplicateEdgePrivateIp left.edgePrivateIp
  else .validation "mapping conflicts with an existing enabled mapping"

/-- The public-address test of `validate_mappings` and of the stores: the same
address, and one of the two owns it alone. -/
def sharesPublicIp (left right : Mapping) : Bool :=
  left.publicIp.isSome && left.publicIp == right.publicIp &&
    (left.mode == .oneToOneSnat || right.mode == .oneToOneSnat)

/-- The inner loop of `validate_mappings`: one mapping against the later ones. -/
def checkAgainst (mapping : Mapping) : List Mapping → Except EdgeCoreError Unit
  | [] => .ok ()
  | existing :: rest => do
    rejectIf (conflicts mapping existing) (conflictError mapping existing)
    match mapping.publicIp with
    | some publicIp =>
      if sharesPublicIp mapping existing then .error (.duplicatePublicIp publicIp)
      else checkAgainst mapping rest
    | none => checkAgainst mapping rest

/-- `public_ips.insert`: the addresses of the one-to-one mappings seen so far. -/
def notePublicIp (publicIps : List Ipv4Addr) (mapping : Mapping) :
    Except EdgeCoreError (List Ipv4Addr) :=
  match mapping.publicIp, mapping.mode with
  | some publicIp, .oneToOneSnat =>
    if publicIp ∈ publicIps then .error (.duplicatePublicIp publicIp) else .ok (publicIp :: publicIps)
  | _, _ => .ok publicIps

/-- The outer loop of `validate_mappings`. -/
def checkPairs (publicIps : List Ipv4Addr) : List Mapping → Except EdgeCoreError Unit
  | [] => .ok ()
  | mapping :: rest => do
    let publicIps ← notePublicIp publicIps mapping
    checkAgainst mapping rest
    checkPairs publicIps rest

/-- The first loop of `validate_mappings`. -/
def validateEach (config : EdgeConfig) : List Mapping → Except EdgeCoreError Unit
  | [] => .ok ()
  | mapping :: rest => do
    validateMapping mapping config
    validateEach config rest

def validateMappings (mappings : List Mapping) (config : EdgeConfig) : Except EdgeCoreError Unit := do
  validateEach config mappings
  checkPairs [] mappings

end EdgeRoute
