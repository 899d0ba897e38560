import EdgeRoute.Spec.Api
import Mathlib.Data.List.Infix

/-!
# The command line

The commands of `edge-cli/src/main.rs` that change something: each resolves the config and then does
its work on the same store as the agent. What a command prints is left out; its error is the text
that `main` reports.
-/

namespace EdgeRoute

open Effect

/-! ## Arguments -/

structure CreateMappingArgs where
  edgePrivateIp : Ipv4Addr
  target : Ipv4Addr
  publicIp : Option Ipv4Addr := none
  publicPort : Option UInt16 := none
  targetPort : Option UInt16 := none
  mode : MappingMode := .oneToOneSnat
  protocol : Protocol := .all
  backend : MappingBackend := .nft
  name : Option String := none
  skipRouteCheck : Bool := false
deriving DecidableEq

structure DeleteMappingArgs where
  id : String
  keepOciResources : Bool := false
  skipReconcile : Bool := false
  output : String := "/run/edge-router/generated.nft"
deriving DecidableEq

structure ApplyArgs where
  dryRun : Bool := false
  check : Bool := false
  output : String := "/run/edge-router/generated.nft"
  enableXdp : Bool := false
  xdpInterface : Option String := none
  xdpPinPath : String := "/sys/fs/bpf/edgeroute"
deriving DecidableEq

structure ReconcileArgs where
  dryRun : Bool := false
  skipLinux : Bool := false
  skipNft : Bool := false
  output : String := "/run/edge-router/generated.nft"
  enableXdp : Bool := false
  xdpInterface : Option String := none
  xdpPinPath : String := "/sys/fs/bpf/edgeroute"
deriving DecidableEq

structure AllocateArgs where
  mappingId : String
  compartmentId : String
  vnicId : String
  displayName : Option String := none
deriving DecidableEq

inductive CliCommand where
  | create (args : CreateMappingArgs)
  | delete (args : DeleteMappingArgs)
  | enable (id : String)
  | disable (id : String)
  | apply (args : ApplyArgs)
  | reconcile (args : ReconcileArgs)
  | rollback (generationId : ℤ) (output : String)
  | allocate (args : AllocateArgs)
  | release (publicIpId : String) (privateIpId : Option String)

/-! ## Commands -/

abbrev CliProg (α : Type) := AgentProg String α

namespace Cli

/-- A store method, `?`. -/
def store {α : Type} (p : StoreProg α) : CliProg α := (onStore p).mapErr EdgeCoreError.toText

def mappingId (id : String) : CliProg MappingId := .ofExcept ((MappingId.fromStr id).mapError EdgeCoreError.toText)

/-- `NetbirdCli::route_get`. -/
def routeGet (target : Ipv4Addr) : AgentProg NetbirdError RouteCheck :=
  .call (S := AgentSig) (.routeGet target) fun r => .ofExcept (netbirdOutput r >>= fun output =>
    .ok { target, route := Text.trim output.stdout, interface := parseRouteInterface (Text.trim output.stdout) })

def validateNetbirdRoute (target : Ipv4Addr) (netbirdInterface : String) : CliProg Unit := do
  let route ← (routeGet target).mapErr NetbirdError.toText
  .ofExcept (rejectIf (!route.usesInterface netbirdInterface)
    ("target route does not use " ++ netbirdInterface ++ ": " ++ route.route))

/-- `xdp_config` of the command line. -/
def xdpConfig (enabled : Bool) (interface : Option String) (pinPath : String) (config : EdgeConfig) : XdpConfig :=
  if enabled then { enabled := true, interface := interface.getD config.wanInterface, pinPath }
  else .disabled (interface.getD config.wanInterface)

/-- `text.contains(needle)`. -/
def containsText (text needle : String) : Bool := decide (needle.toList <:+: text.toList)

def isOciNotFound (error : OciError) : Bool :=
  let text := asciiLower error.toText
  containsText text "notfound" || containsText text "not found" || containsText text "404"

/-- One address of `cleanup_mapping_oci`, with what it adds to the failures. -/
def cleanupIp (delete : String → OciProg Unit) (kind : String) : Option String → CliProg (List String)
  | none => pure []
  | some id => do
    match ← (liftOci (delete id)).attempt with
    | .ok () => pure []
    | .error error => pure (if isOciNotFound error then [] else [kind ++ " " ++ id ++ ": " ++ error.toText])

def cleanupMappingOci (mapping : Mapping) : CliProg Unit := do
  let publicFailures ← cleanupIp deletePublicIp "public IP" mapping.ociPublicIpOcid
  let privateFailures ← cleanupIp deletePrivateIp "private IP" mapping.ociPrivateIpOcid
  let failures := publicFailures ++ privateFailures
  .ofExcept (rejectIf (!failures.isEmpty) ("OCI cleanup failed: " ++ String.intercalate "; " failures))

section Commands

variable (C : Codec) (J : OciJson) (debugOci : Option OciError → String) (config : EdgeConfig)

def create (args : CreateMappingArgs) : CliProg Unit := do
  (if args.skipRouteCheck then pure () else validateNetbirdRoute args.target config.netbirdInterface : CliProg Unit)
  let name := args.name.getD (String.ofList (("target_" ++ args.target.toText).toList.map fun c =>
    if c = '.' then '_' else c))
  let new ← newMapping name args.publicIp args.edgePrivateIp args.target
  store (insertMapping C { new with
    publicPort := args.publicPort
    targetPort := args.targetPort
    mode := args.mode
    protocol := args.protocol
    backend := args.backend })

/-- The reconcile of `MapCommand::Delete`. -/
def deleteReconcile (id : MappingId) (args : DeleteMappingArgs) : CliProg Unit :=
  if args.skipReconcile then pure ()
  else do
    let _ ← (liftHost (EdgeRoute.reconcile C config { nftOutput := args.output })).mapErr fun _ =>
      "reconcile disabled mapping " ++ id.val
    pure ()

def delete (args : DeleteMappingArgs) : CliProg Unit := do
  let id ← mappingId args.id
  let mapping ← store (getMapping C id)
  let _ ← store (setMappingEnabled C id false)
  deleteReconcile C config id args
  (if args.keepOciResources then pure () else cleanupMappingOci mapping : CliProg Unit)
  let _ ← store (deleteMapping C id)
  pure ()

def setEnabled (id : String) (enabled : Bool) : CliProg Unit := do
  let id ← mappingId id
  let _ ← store (setMappingEnabled C id enabled)
  pure ()

/-- `handle_apply`. A dry run without XDP stops before the reconciler. -/
def apply (args : ApplyArgs) : CliProg Unit := do
  let mappings ← store (listMappings C)
  let _ ← .ofExcept ((renderNftables mappings config {}).mapError fun fault => (ReconcileError.ofRender fault).toText)
  .ofExcept (rejectIf (args.dryRun && args.check) "--dry-run and --check are mutually exclusive")
  if args.dryRun && !args.enableXdp && !mappings.any (fun mapping => mapping.enabled && mapping.backend == .xdp) then
    pure ()
  else do
    let _ ← (liftHost (EdgeRoute.reconcile C config
      { nftOutput := args.output, dryRun := args.dryRun, applyNft := !args.check, applyLinux := !args.check
        xdp := xdpConfig args.enableXdp args.xdpInterface args.xdpPinPath config })).mapErr ReconcileError.toText
    pure ()

def reconcile (args : ReconcileArgs) : CliProg Unit := do
  let _ ← (liftHost (EdgeRoute.reconcile C config
    { nftOutput := args.output, dryRun := args.dryRun, applyNft := !args.skipNft, applyLinux := !args.skipLinux
      xdp := xdpConfig args.enableXdp args.xdpInterface args.xdpPinPath config })).mapErr ReconcileError.toText
  pure ()

def rollback (generationId : ℤ) (output : String) : CliProg Unit :=
  (liftHost (EdgeRoute.rollback C generationId output)).mapErr ReconcileError.toText

/-- What `OracleIpCommand::Allocate` reports when the public address cannot be had. -/
def publicIpFailure (error : OciError) : Except OciError Unit → String
  | .ok () => error.toText
  | .error cleanup => "public IP allocation failed: " ++ error.toText ++ "; private IP cleanup failed: " ++ cleanup.toText

/-- The error of a result, if it is one. -/
def errorOf : Except OciError Unit → Option OciError
  | .ok () => none
  | .error e => some e

/-- What it reports when the row cannot be written. -/
def updateFailure (error : EdgeCoreError) (publicCleanup privateCleanup : Except OciError Unit) : String :=
  match publicCleanup, privateCleanup with
  | .ok (), .ok () => "database update failed after OCI allocation; cleaned up OCI resources: " ++ error.toText
  | _, _ => "database update failed after OCI allocation: " ++ error.toText ++ "; public IP cleanup: " ++
      debugOci (errorOf publicCleanup) ++ "; private IP cleanup: " ++ debugOci (errorOf privateCleanup)

def allocate (args : AllocateArgs) : CliProg Unit := do
  let id ← mappingId args.mappingId
  let mapping ← store (getMapping C id)
  .ofExcept (rejectIf mapping.hasAllocation ("mapping already has OCI allocation fields: " ++ id.val))
  let name := args.displayName.getD mapping.name
  let allocation ← liftOci (allocateWith J OciError.toText publicIpFailure args.compartmentId args.vnicId (some name))
  let _ ← storeAllocation C (updateFailure debugOci) mapping allocation
  pure ()

def release (publicIpId : String) (privateIpId : Option String) : CliProg Unit := do
  (liftOci (deletePublicIp publicIpId)).mapErr OciError.toText
  match privateIpId with
  | some privateIpId => (liftOci (deletePrivateIp privateIpId)).mapErr OciError.toText
  | none => pure ()

end Commands

end Cli

/-- The work of a command. -/
def CliCommand.prog (C : Codec) (J : OciJson) (debugOci : Option OciError → String) (config : EdgeConfig) :
    CliCommand → CliProg Unit
  | .create args => Cli.create C config args
  | .delete args => Cli.delete C config args
  | .enable id => Cli.setEnabled C id true
  | .disable id => Cli.setEnabled C id false
  | .apply args => Cli.apply C config args
  | .reconcile args => Cli.reconcile C config args
  | .rollback generationId output => Cli.rollback C generationId output
  | .allocate args => Cli.allocate C J debugOci args
  | .release publicIpId privateIpId => Cli.release publicIpId privateIpId

/-- **A run of the command line**: `main`, from the config that the flags and the file give. -/
def cliMain (C : Codec) (J : OciJson) (debugOci : Option OciError → String) (requested : EdgeConfig)
    (authoritative : Bool) (command : CliCommand) : CliProg Unit := do
  let config ← Cli.store (resolveEdgeConfig C requested authoritative)
  command.prog C J debugOci config

/-! ## Both front ends -/

/-- A call of one of the front ends: a request that reached its handler, with the config of the agent,
or a run of the command line. -/
inductive FrontCall where
  | api (config : EdgeConfig) (headers : HeaderMap) (call : ApiCall)
  | cli (requested : EdgeConfig) (authoritative : Bool) (command : CliCommand)

inductive FrontFailure where
  | api (failure : ApiFailure)
  | cli (message : String)
deriving DecidableEq

/-- The program of the call. What it returns is left out. -/
def FrontCall.prog (C : Codec) (J : OciJson) (N : String → Except String NetbirdStatus)
    (debugOci : Option OciError → String) : FrontCall → AgentProg FrontFailure Unit
  | .api config headers call => do
    let _ ← (call.prog C J N config headers).mapErr .api
    pure ()
  | .cli requested authoritative command =>
    (cliMain C J debugOci requested authoritative command).mapErr .cli

end EdgeRoute
