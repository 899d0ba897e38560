import EdgeRoute.Spec.Validation

/-!
# The XDP planner

`edge-xdp/src/lib.rs`: a plan of BPF map entries for the enabled XDP mappings, and
the byte form of their keys and values.
-/

namespace EdgeRoute

open Effect

inductive XdpError where
  | disabled (names : String)
  | config (message : String)
  | mapping (id message : String)
deriving DecidableEq

inductive XdpAttachMode where
  | skb
  | native
deriving DecidableEq

structure XdpConfig where
  enabled : Bool
  interface : String
  pinPath : String
  attachMode : XdpAttachMode := .skb
deriving DecidableEq

structure XdpMapKey where
  edgePrivateIp : Ipv4Addr
  protocol : Protocol
  publicPort : UInt16
deriving DecidableEq

structure XdpMapValue where
  targetIp : Ipv4Addr
  targetPort : UInt16
  flags : UInt16
deriving DecidableEq

structure XdpForwardEntry where
  mappingId : String
  name : String
  key : XdpMapKey
  value : XdpMapValue
deriving DecidableEq

structure XdpPlan where
  interface : String
  pinPath : String
  attachMode : XdpAttachMode
  entries : List XdpForwardEntry
deriving DecidableEq

def protocolNumber : Protocol → UInt8
  | .tcp => 6
  | .udp => 17
  | .all => 0

/-- `u16::to_be_bytes`. -/
def toBeBytes (n : UInt16) : List UInt8 := [.ofNat (n.toNat / 256), .ofNat n.toNat]

/-- `XdpMapKey::bytes`: the last byte stays zero. -/
def XdpMapKey.bytes (key : XdpMapKey) : List UInt8 :=
  key.edgePrivateIp.octets ++ toBeBytes key.publicPort ++ [protocolNumber key.protocol, 0]

def XdpMapValue.bytes (value : XdpMapValue) : List UInt8 :=
  value.targetIp.octets ++ toBeBytes value.targetPort ++ toBeBytes value.flags

def XdpConfig.validate (config : XdpConfig) : Except XdpError Unit :=
  if !config.enabled then .ok ()
  else do
    rejectIf (Text.trim config.interface == "") (.config "interface cannot be empty")
    rejectIf (config.pinPath == "") (.config "pin_path cannot be empty")
    -- on Unix a path is absolute when it starts with a slash
    rejectIf (config.pinPath.toList.head? != some '/') (.config "pin_path must be absolute")

/-- `ok_or_else` with the error of a mapping. -/
def requirePort (id message : String) : Option UInt16 → Except XdpError UInt16
  | some port => .ok port
  | none => .error (.mapping id message)

def planEntry (mapping : Mapping) (edgeConfig : EdgeConfig) : Except XdpError XdpForwardEntry := do
  let id := mapping.id.val
  rejectIf (mapping.mode != .portForwardSnat) (.mapping id "only port-forward mappings can use XDP")
  rejectIf (mapping.protocol == .all) (.mapping id "XDP mappings must be tcp or udp")
  let publicPort ← requirePort id "XDP mappings require public_port" mapping.publicPort
  let targetPort ← requirePort id "XDP mappings require target_port" mapping.targetPort
  rejectIf (!edgeConfig.containsTarget mapping.targetIp)
    (.mapping id ("target IP is outside configured target CIDRs: " ++ mapping.targetIp.toText))
  .ok { mappingId := id, name := mapping.name,
        key := { edgePrivateIp := mapping.edgePrivateIp, protocol := mapping.protocol, publicPort },
        value := { targetIp := mapping.targetIp, targetPort, flags := 0 } }

def planEntries (edgeConfig : EdgeConfig) : List Mapping → Except XdpError (List XdpForwardEntry)
  | [] => .ok []
  | mapping :: rest => do
    let entry ← planEntry mapping edgeConfig
    let entries ← planEntries edgeConfig rest
    .ok (entry :: entries)

/-- The filter of the planner. -/
def isXdp (mapping : Mapping) : Bool := mapping.enabled && mapping.backend == .xdp

/-- `XdpPlugin::plan`. -/
def XdpConfig.plan (config : XdpConfig) (mappings : List Mapping) (edgeConfig : EdgeConfig) :
    Except XdpError XdpPlan := do
  config.validate
  let xdpMappings := mappings.filter isXdp
  rejectIf (!config.enabled && !xdpMappings.isEmpty)
    (.disabled (",".intercalate (xdpMappings.map (·.name))))
  let entries ← planEntries edgeConfig xdpMappings
  .ok { interface := config.interface, pinPath := config.pinPath, attachMode := config.attachMode, entries }

end EdgeRoute
