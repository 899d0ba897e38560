import EdgeRoute.Lib.Prog
import EdgeRoute.Spec.Linux

/-!
# The Oracle cloud

`OciCli` of `edge-oci/src/lib.rs`, as programs of `oci` commands, and the addresses of the cloud
that these commands create and delete.
-/

namespace EdgeRoute

open Effect

/-! ## Data -/

inductive OciError where
  | command (message : String)
  | json (message : String)
  | io (message : String)
  | timeout (seconds : ℕ)
deriving DecidableEq

/-- `Display` of the error. -/
def OciError.toText : OciError → String
  | .command message => "OCI CLI failed: " ++ message
  | .json message => "OCI CLI JSON parse failed: " ++ message
  | .io message => "OCI CLI process failed: " ++ message
  | .timeout seconds => "OCI CLI timed out after " ++ seconds.repr ++ "s"

structure PublicIp where
  id : String
  ipAddress : Ipv4Addr
  privateIpId : Option String
  lifetime : Option String
  scope : Option String
  lifecycleState : Option String
  displayName : Option String
deriving DecidableEq

structure PrivateIp where
  id : String
  ipAddress : Ipv4Addr
  vnicId : Option String
  displayName : Option String
deriving DecidableEq

structure Vnic where
  id : String
  displayName : Option String
  skipSourceDestCheck : Option Bool
deriving DecidableEq

structure Allocation where
  privateIp : PrivateIp
  publicIp : PublicIp
deriving DecidableEq

structure PortRange where
  min : UInt16
  max : UInt16
deriving DecidableEq

structure PortOptions where
  destinationPortRange : PortRange
deriving DecidableEq

structure IngressSecurityRule where
  protocol : String
  source : String
  tcpOptions : Option PortOptions
  udpOptions : Option PortOptions
  description : Option String
deriving DecidableEq

/-- A rule as `oci network nsg rules add` expects it. -/
structure NsgRuleCli where
  direction : String
  protocol : String
  source : String
  sourceType : String
  isStateless : Bool
  tcpOptions : Option PortOptions
  udpOptions : Option PortOptions
  description : Option String
deriving DecidableEq

def NsgRuleCli.ingress (rule : IngressSecurityRule) : NsgRuleCli where
  direction := "INGRESS"
  protocol := rule.protocol
  source := rule.source
  sourceType := "CIDR_BLOCK"
  isStateless := false
  tcpOptions := rule.tcpOptions
  udpOptions := rule.udpOptions
  description := rule.description

/-- `serde_json` on what the `oci` tool prints (`parse_item`, `parse_list`) and on what it is given. -/
structure OciJson where
  publicIps : String → Except String (List PublicIp)
  publicIp : String → Except String PublicIp
  privateIp : String → Except String PrivateIp
  vnic : String → Except String Vnic
  nsgRules : List NsgRuleCli → Except String String
  ruleIds : List String → Except String String

/-! ## Commands -/

/-- The uses of the `oci` tool. -/
inductive OciCommand where
  | version
  | listPublicIps (compartmentId : String)
  | createPrivateIp (vnicId : String) (displayName : Option String)
  | createReservedPublicIp (compartmentId privateIpId : String) (displayName : Option String)
  | deletePublicIp (publicIpId : String)
  | deletePrivateIp (privateIpId : String)
  | getVnic (vnicId : String)
  | addNsgRules (nsgId json : String)
  | removeNsgRules (nsgId json : String)
deriving DecidableEq

abbrev OciSig : Sig := ⟨OciCommand, fun _ => Outcome⟩

abbrev OciProg (α : Type) := Prog OciSig OciError α

/-- The end of `OciCli::run_owned`. -/
def ociOutput : Outcome → Except OciError CommandOutput
  | .timedOut => .error (.timeout 12)
  | .ioError message => .error (.io message)
  | .exited output => if output.isSuccess then .ok output else .error (.command output.errorMessage)

/-- `OciCli::run_owned`. -/
def runOci (command : OciCommand) : OciProg CommandOutput :=
  .call (S := OciSig) command fun r => .ofExcept (ociOutput r)

/-- A command whose output is read as JSON. -/
def runOciJson {α : Type} (command : OciCommand) (parse : String → Except String α) : OciProg α := do
  let output ← runOci command
  .ofExcept ((parse output.stdout).mapError .json)

/-- A command whose output is not read. -/
def runOciUnit (command : OciCommand) : OciProg Unit := do
  let _ ← runOci command
  pure ()

def validateVnicForwarding (vnic : Vnic) : Except OciError Unit :=
  if vnic.skipSourceDestCheck = some true then .ok ()
  else .error (.command ("VNIC " ++ vnic.id ++
    " has source/destination checks enabled; disable skip-source-dest-check before forwarding"))

section OciCli

variable (J : OciJson)

def listPublicIps (compartmentId : String) : OciProg (List PublicIp) :=
  runOciJson (.listPublicIps compartmentId) J.publicIps

def createPrivateIp (vnicId : String) (displayName : Option String) : OciProg PrivateIp :=
  runOciJson (.createPrivateIp vnicId displayName) J.privateIp

def createReservedPublicIp (compartmentId privateIpId : String) (displayName : Option String) : OciProg PublicIp :=
  runOciJson (.createReservedPublicIp compartmentId privateIpId displayName) J.publicIp

def deletePublicIp (publicIpId : String) : OciProg Unit := runOciUnit (.deletePublicIp publicIpId)

def deletePrivateIp (privateIpId : String) : OciProg Unit := runOciUnit (.deletePrivateIp privateIpId)

def getVnic (vnicId : String) : OciProg Vnic := runOciJson (.getVnic vnicId) J.vnic

def validateForwardingVnic (vnicId : String) : OciProg Vnic := do
  let vnic ← getVnic J vnicId
  .ofExcept (validateVnicForwarding vnic)
  pure vnic

/-- The two creates of an allocation: the private address is given back where the public one cannot be
had. What is reported of that is up to the caller. -/
def allocateWith {ε : Type} (lift : OciError → ε) (onFailure : OciError → Except OciError Unit → ε)
    (compartmentId vnicId : String) (displayName : Option String) : Prog OciSig ε Allocation := do
  let _ ← (validateForwardingVnic J vnicId).mapErr lift
  let privateIp ← (createPrivateIp J vnicId displayName).mapErr lift
  match ← (createReservedPublicIp J compartmentId privateIp.id displayName).attempt with
  | .ok publicIp => pure { privateIp, publicIp }
  | .error error =>
    let cleanup ← (deletePrivateIp privateIp.id).attempt
    .fail (onFailure error cleanup)

def allocateForwardingIp (compartmentId vnicId : String) (displayName : Option String) : OciProg Allocation :=
  allocateWith J id (fun error _ => error) compartmentId vnicId displayName

def addNsgRules (nsgId : String) (rules : List IngressSecurityRule) : OciProg Unit := do
  let json ← .ofExcept ((J.nsgRules (rules.map NsgRuleCli.ingress)).mapError .json)
  runOciUnit (.addNsgRules nsgId json)

def removeNsgRules (nsgId : String) (ruleIds : List String) : OciProg Unit := do
  let json ← .ofExcept ((J.ruleIds ruleIds).mapError .json)
  runOciUnit (.removeNsgRules nsgId json)

end OciCli

/-! ## The cloud -/

/-- The addresses that exist in the cloud, by their OCID, and every OCID that was ever given out. -/
structure Cloud where
  privateIps : List String
  publicIps : List String
  issued : List String

namespace Cloud

def addPrivate (c : Cloud) (id : String) : Cloud :=
  { c with privateIps := id :: c.privateIps, issued := id :: c.issued }

def addPublic (c : Cloud) (id : String) : Cloud :=
  { c with publicIps := id :: c.publicIps, issued := id :: c.issued }

def dropPrivate (c : Cloud) (id : String) : Cloud := { c with privateIps := c.privateIps.filter (· ≠ id) }

def dropPublic (c : Cloud) (id : String) : Cloud := { c with publicIps := c.publicIps.filter (· ≠ id) }

end Cloud

/-- A command that creates an address: status zero prints it under a new OCID, any other status says
that there is none, and without a status there may be one. -/
structure Creates {α : Type} (parse : String → Except String α) (ocid : α → String) (c : Cloud)
    (add : String → Cloud) (r : Outcome) (c' : Cloud) : Prop where
  succeeded : ∀ output, r = .exited output → output.isSuccess = true →
    ∃ a, parse output.stdout = .ok a ∧ ocid a ∉ c.issued ∧ c' = add (ocid a)
  rejected : r.Rejected → c' = c
  either : c' = c ∨ ∃ id ∉ c.issued, c' = add id

/-- A command that deletes an address where there is one. -/
structure Deletes (able : Prop) (c dropped : Cloud) (r : Outcome) (c' : Cloud) : Prop where
  succeeded : r.Succeeded → able ∧ c' = dropped
  rejected : r.Rejected → c' = c
  either : c' = c ∨ (able ∧ c' = dropped)

/-- **The cloud as an environment.** -/
def cloudEnv (J : OciJson) : Env OciSig Cloud := fun c o r c' =>
  match o with
  | .createPrivateIp _ _ => Creates J.privateIp PrivateIp.id c c.addPrivate r c'
  | .createReservedPublicIp _ _ _ => Creates J.publicIp PublicIp.id c c.addPublic r c'
  | .deletePublicIp id => Deletes (id ∈ c.publicIps) c (c.dropPublic id) r c'
  | .deletePrivateIp id => Deletes (id ∈ c.privateIps) c (c.dropPrivate id) r c'
  | _ => c' = c

end EdgeRoute
