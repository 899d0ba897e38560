import EdgeRoute.Spec.Validation

/-!
# The nftables renderer

`edge-nft/src/render.rs`. A panic (`expect`, `unreachable!`) is kept apart from an
error the function returns.
-/

namespace EdgeRoute

open Effect

structure NftRenderConfig where
  tableName : String := "edge_nat"
deriving DecidableEq

/-- How a render ends without a text. -/
inductive RenderFault where
  | err (e : EdgeCoreError)
  | panic (message : String)
deriving DecidableEq

/-- `Option::expect`. -/
def expect {α : Type} (message : String) : Option α → Except RenderFault α
  | some a => .ok a
  | none => .error (.panic message)

def nftProtocol : Protocol → Except RenderFault String
  | .tcp => .ok "tcp"
  | .udp => .ok "udp"
  | .all => .error (.panic "port-forward mappings cannot use protocol=all")

/-- The filter of the `one_to_one` list. -/
def isNftOneToOne (mapping : Mapping) : Bool :=
  mapping.enabled && mapping.backend == .nft && mapping.mode == .oneToOneSnat

/-- The filter of the `port_forwards` list. -/
def isNftPortForward (mapping : Mapping) : Bool :=
  mapping.enabled && mapping.backend == .nft && mapping.mode == .portForwardSnat

/-- One element of the map. -/
def renderElement (mapping : Mapping) : String :=
  "            " ++ mapping.edgePrivateIp.toText ++ " : " ++ mapping.targetIp.toText ++ ",\n"

/-- One rule of the prerouting chain. -/
def renderPortForward (wanInterface : String) (mapping : Mapping) : Except RenderFault String := do
  let protocol ← nftProtocol mapping.protocol
  let publicPort ← expect "validated public_port" mapping.publicPort
  let targetPort ← expect "validated target_port" mapping.targetPort
  .ok ("        iifname \"" ++ wanInterface ++ "\" ip daddr " ++ mapping.edgePrivateIp.toText ++ " " ++
    protocol ++ " dport " ++ publicPort.toNat.repr ++ " dnat to " ++ mapping.targetIp.toText ++ ":" ++
    targetPort.toNat.repr ++ "\n")

/-- The loop over the port forwards. -/
def renderPortForwards (wanInterface : String) : List Mapping → Except RenderFault String
  | [] => .ok ""
  | mapping :: rest => do
    let rule ← renderPortForward wanInterface mapping
    let rules ← renderPortForwards wanInterface rest
    .ok (rule ++ rules)

/-- One rule of the postrouting chain. -/
def renderMasquerade (netbirdInterface : String) (cidr : Ipv4Net) : String :=
  "        oifname \"" ++ netbirdInterface ++ "\" ip daddr " ++ cidr.toText ++ " masquerade\n"

def renderHead (tableName : String) : String :=
  "destroy table ip " ++ tableName ++ "\n\n" ++ "table ip " ++ tableName ++ " \x7b\n" ++
    "    map edge_to_target \x7b\n" ++ "        type ipv4_addr : ipv4_addr;\n" ++
    "        elements = \x7b\n"

def renderPrerouting : String :=
  "        \x7d\n" ++ "    \x7d\n\n" ++ "    chain prerouting \x7b\n" ++
    "        type nat hook prerouting priority dstnat; policy accept;\n\n"

def renderPostrouting : String :=
  "        dnat to ip daddr map @edge_to_target\n" ++ "    \x7d\n\n" ++ "    chain postrouting \x7b\n" ++
    "        type nat hook postrouting priority srcnat; policy accept;\n\n"

/-- `render_nftables` after its validation. -/
def renderRuleset (mappings : List Mapping) (edgeConfig : EdgeConfig) (renderConfig : NftRenderConfig) :
    Except RenderFault String := do
  let rules ← renderPortForwards edgeConfig.wanInterface (mappings.filter isNftPortForward)
  .ok (renderHead renderConfig.tableName ++
    String.join ((mappings.filter isNftOneToOne).map renderElement) ++ renderPrerouting ++ rules ++
    (if mappings.any isNftOneToOne then "" else "\n") ++ renderPostrouting ++
    String.join (edgeConfig.targetCidrs.map (renderMasquerade edgeConfig.netbirdInterface)) ++
    "    \x7d\n" ++ "\x7d\n")

def renderNftables (mappings : List Mapping) (edgeConfig : EdgeConfig) (renderConfig : NftRenderConfig) :
    Except RenderFault String :=
  match validateMappings mappings edgeConfig with
  | .error e => .error (.err e)
  | .ok () => renderRuleset mappings edgeConfig renderConfig

end EdgeRoute
