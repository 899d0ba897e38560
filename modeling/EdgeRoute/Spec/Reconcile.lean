import EdgeRoute.Spec.Host
import EdgeRoute.Spec.Render
import EdgeRoute.Spec.Xdp

/-!
# Reconcile and rollback

`Reconciler` of `edge-reconcile/src/lib.rs` and the delete handler of `edge-agent/src/api.rs`, as
programs over the host. The long body of `reconcile` is cut where its comments would stand:
write, check, apply, addresses, record.
-/

namespace EdgeRoute

open Effect

/-! ## Errors, options and report -/

/-- `Display` of the error. -/
def XdpError.toText : XdpError → String
  | .disabled names => "XDP mappings are present but XDP is disabled: " ++ names
  | .config message => "XDP config is invalid: " ++ message
  | .mapping id message => "XDP mapping " ++ id ++ " is invalid: " ++ message

/-- `ReconcileError`. A panic of the renderer ends the call too; it is no value of the source's type. -/
inductive ReconcileError where
  | core (e : EdgeCoreError)
  | linux (e : LinuxError)
  | nft (e : NftError)
  | io (message : String)
  | nftValidation (message : String)
  | nftApply (message : String)
  | health (message : String)
  | xdp (e : XdpError)
  | xdpApplyUnsupported
  | panic (message : String)
deriving DecidableEq

/-- `Display` of the error. -/
def ReconcileError.toText : ReconcileError → String
  | .core e => e.toText
  | .linux e => "linux operation failed: " ++ e.toText
  | .nft e => "nft operation failed: " ++ e.toText
  | .io message => "io failed: " ++ message
  | .nftValidation message => "nft validation failed: " ++ message
  | .nftApply message => "nft apply failed: " ++ message
  | .health message => "health check failed: " ++ message
  | .xdp e => "xdp operation failed: " ++ e.toText
  | .xdpApplyUnsupported => "xdp apply is not implemented; run dry-run to inspect the XDP plan"
  | .panic message => message

def ReconcileError.ofRender : RenderFault → ReconcileError
  | .err e => .core e
  | .panic message => .panic message

def XdpConfig.disabled (interface : String) : XdpConfig where
  enabled := false
  interface := interface
  pinPath := "/sys/fs/bpf/edgeroute"

structure ReconcileOptions where
  nftOutput : String := "/run/edge-router/generated.nft"
  dryRun : Bool := false
  applyNft : Bool := true
  applyLinux : Bool := true
  xdp : XdpConfig := .disabled ""
deriving DecidableEq

structure ReconcileReport where
  nftablesConfig : String
  generationId : Option ℤ
  addedAddresses : List String
  removedAddresses : List String
  xdpPlanEntries : ℕ
deriving DecidableEq

abbrev HostProg (α : Type) := Prog HostSig ReconcileError α

/-- A store method, its error passed on with `?`. -/
def liftStore {α : Type} (p : StoreProg α) : HostProg α :=
  (p.embed (T := HostSig) HostOp.store fun _ r => r).mapErr .core

/-! ## `edge-linux` -/

/-- `Linux::run_owned`. -/
def runIp (command : IpCommand) : HostProg CommandOutput :=
  .call (S := HostSig) (.ip command) fun r => .ofExcept ((linuxOutput r).mapError .linux)

def interfaceAddresses (interface : String) : HostProg (List Ipv4Addr) := do
  let output ← runIp (.show interface)
  pure (parseIpv4Addresses output.stdout)

def ensureAddr (interface : String) (addr : Ipv4Addr) : HostProg Bool := do
  let existing ← interfaceAddresses interface
  if addr ∈ existing then pure false
  else do
    let _ ← runIp (.add interface addr)
    pure true

def deleteAddrIfPresent (interface : String) (addr : Ipv4Addr) : HostProg Bool := do
  let existing ← interfaceAddresses interface
  if addr ∉ existing then pure false
  else do
    let _ ← runIp (.del interface addr)
    pure true

/-! ## `edge-nft` -/

/-- `Nft::run`. -/
def runNft (mode : NftMode) (path : String) : HostProg CommandOutput :=
  .call (S := HostSig) (.nft mode path) fun r => .ofExcept ((nftOutput r).mapError .nft)

def checkFile (path : String) : HostProg CommandOutput := runNft .check path

def applyFile (path : String) : HostProg CommandOutput := runNft .apply path

/-! ## `edge-reconcile` -/

/-- `atomic_write`, its `io::Error` as a value. -/
def atomicWrite (path text : String) : HostProg (Except String Unit) :=
  .op (S := HostSig) (.atomicWrite path text)

/-- `health_check`. -/
def healthCheck (targetIp : Ipv4Addr) (targetPort : Option UInt16) (protocol : Protocol) :
    HostProg String :=
  if protocol = .udp then pure "udp_unchecked"
  else match targetPort with
    | none => pure "ok"
    | some port => .call (S := HostSig) (.connect targetIp port) fun
      | .timedOut => .fail (.health ("timed out: " ++ targetIp.toText ++ ":" ++ port.toNat.repr))
      | .failed message => .fail (.health (targetIp.toText ++ ":" ++ port.toNat.repr ++ ": " ++ message))
      | .connected => pure "tcp_ok"

section Reconciler

variable (C : Codec)

/-- What `reconcile` does after a failed write, check or apply: a Failed generation, an event, and
the error. -/
def recordFailure {α : Type} (rendered event message : String) (error : ReconcileError) : HostProg α := do
  let _ ← liftStore (recordGeneration C .failed rendered none (some message))
  let _ ← liftStore (recordEvent C .error event (some message))
  .fail error

def writeRuleset (path rendered : String) : HostProg Unit := do
  match ← atomicWrite path rendered with
  | .ok () => pure ()
  | .error e => recordFailure C rendered "failed to write nftables config" e (.io e)

def checkRuleset (path rendered : String) : HostProg Unit := do
  let check ← checkFile path
  if check.isSuccess then do
    let _ ← liftStore (recordGeneration C .validated rendered none none)
    pure ()
  else
    recordFailure C rendered "nft validation failed" check.errorMessage (.nftValidation check.errorMessage)

def applyRuleset (path rendered : String) : HostProg Unit := do
  let applied ← applyFile path
  if applied.isSuccess then pure ()
  else recordFailure C rendered "nft apply failed" applied.errorMessage (.nftApply applied.errorMessage)

/-- The address loop: the addresses it added and those it removed, in order. -/
def syncAddresses (wanInterface : String) : List Mapping → HostProg (List String × List String)
  | [] => pure ([], [])
  | mapping :: rest =>
    if mapping.enabled ∧ mapping.backend = .nft then do
      let changed ← ensureAddr wanInterface mapping.edgePrivateIp
      let later ← syncAddresses wanInterface rest
      pure (if changed then mapping.edgePrivateIp.toText :: later.1 else later.1, later.2)
    else if mapping.backend = .nft then do
      let changed ← deleteAddrIfPresent wanInterface mapping.edgePrivateIp
      let later ← syncAddresses wanInterface rest
      pure (later.1, if changed then mapping.edgePrivateIp.toText :: later.2 else later.2)
    else syncAddresses wanInterface rest

/-- One round of the health loop. -/
def recordHealth (mapping : Mapping) : HostProg Unit := do
  match ← (healthCheck mapping.targetIp mapping.targetPort mapping.protocol).attempt with
  | .ok status =>
    let _ ← liftStore (setMappingHealth C mapping.id .active (some status) none)
    pure ()
  | .error error =>
    let _ ← liftStore (setMappingHealth C mapping.id .degraded (some "degraded") (some error.toText))
    let _ ← liftStore (recordEvent C .warn "mapping health degraded" (some error.toText))
    pure ()

/-- The health loop. -/
def recordHealths : List Mapping → HostProg Unit
  | [] => pure ()
  | mapping :: rest => do
    recordHealth C mapping
    recordHealths rest

/-- The end of a full apply: the Active generation, the health of each nft mapping and an event. -/
def recordActive (rendered : String) (mappings : List Mapping) : HostProg ℤ := do
  let now ← liftStore nowUtc
  let active ← liftStore (recordGeneration C .active rendered (some now) none)
  recordHealths C (mappings.filter fun mapping => mapping.enabled && mapping.backend == .nft)
  let _ ← liftStore (recordEvent C .info "reconcile applied" (some ("generation=" ++ active.id.repr)))
  pure active.id

/-- The end of a run that left a part out. -/
def recordPartial (options : ReconcileOptions) (renderedGeneration : Generation) : HostProg ℤ := do
  let _ ← liftStore (recordEvent C .info "reconcile validated without full apply"
    (some ("apply_nft=" ++ toString options.applyNft ++ ",apply_linux=" ++ toString options.applyLinux)))
  pure renderedGeneration.id

/-- What `reconcile` computes before it changes anything. -/
def planReconcile (config : EdgeConfig) (options : ReconcileOptions) (mappings : List Mapping) :
    Except ReconcileError (String × XdpPlan) := do
  let rendered ← (renderNftables mappings config {}).mapError .ofRender
  let xdpPlan ← (options.xdp.plan mappings config).mapError .xdp
  .ok (rendered, xdpPlan)

/-- `if options.apply_nft`. -/
def applyStep (options : ReconcileOptions) (rendered : String) : HostProg Unit :=
  if options.applyNft then applyRuleset C options.nftOutput rendered else pure ()

/-- `if options.apply_linux`. -/
def addressStep (config : EdgeConfig) (options : ReconcileOptions) (mappings : List Mapping) :
    HostProg (List String × List String) :=
  if options.applyLinux then syncAddresses config.wanInterface mappings else pure ([], [])

/-- The id that the report names. -/
def recordStep (options : ReconcileOptions) (mappings : List Mapping) (rendered : String)
    (renderedGeneration : Generation) : HostProg ℤ :=
  if options.applyNft && options.applyLinux then recordActive C rendered mappings
  else recordPartial C options renderedGeneration

/-- What `reconcile` does with the ruleset. -/
def applyReconcile (config : EdgeConfig) (options : ReconcileOptions) (mappings : List Mapping)
    (rendered : String) (xdpPlan : XdpPlan) : HostProg ReconcileReport := do
  let renderedGeneration ← liftStore (recordGeneration C .rendered rendered none none)
  writeRuleset C options.nftOutput rendered
  checkRuleset C options.nftOutput rendered
  applyStep C options rendered
  let changes ← addressStep config options mappings
  let generationId ← recordStep C options mappings rendered renderedGeneration
  pure { nftablesConfig := rendered, generationId := some generationId, addedAddresses := changes.1,
         removedAddresses := changes.2, xdpPlanEntries := xdpPlan.entries.length }

def reconcile (config : EdgeConfig) (options : ReconcileOptions) : HostProg ReconcileReport := do
  let mappings ← liftStore (listMappings C)
  let plan ← .ofExcept (planReconcile config options mappings)
  if options.dryRun then
    pure { nftablesConfig := plan.1, generationId := none, addedAddresses := [], removedAddresses := [],
           xdpPlanEntries := plan.2.entries.length }
  else if !plan.2.entries.isEmpty then .fail .xdpApplyUnsupported
  else applyReconcile C config options mappings plan.1 plan.2

/-- What `rollback` does after a failed check or apply. -/
def recordRollbackFailure {α : Type} (event message : String) (error : ReconcileError) : HostProg α := do
  let _ ← liftStore (recordEvent C .error event (some message))
  .fail error

def rollback (generationId : ℤ) (nftOutput : String) : HostProg Unit := do
  let generation ← liftStore (getGeneration C generationId)
  match ← atomicWrite nftOutput generation.nftablesConfig with
  | .error e => .fail (.io e)
  | .ok () =>
    let check ← checkFile nftOutput
    if !check.isSuccess then
      recordRollbackFailure C "rollback nft validation failed" check.errorMessage
        (.nftValidation check.errorMessage)
    else
      let applied ← applyFile nftOutput
      if !applied.isSuccess then
        recordRollbackFailure C "rollback nft apply failed" applied.errorMessage
          (.nftApply applied.errorMessage)
      else
        let _ ← liftStore (recordEvent C .warn "rollback applied"
          (some ("generation=" ++ generationId.repr)))
        pure ()

/-! ## `edge-agent` -/

/-- `delete_mapping` of the API, after its authentication: disable, reconcile, delete the row. -/
def apiDeleteMapping (config : EdgeConfig) (id : String) : HostProg Mapping := do
  let id ← .ofExcept ((MappingId.fromStr id).mapError .core)
  let _ ← liftStore (setMappingEnabled C id false)
  match ← (reconcile C config {}).attempt with
  | .error error =>
    let _ ← liftStore (recordEvent C .error "delete reconcile failed" (some error.toText))
    .fail error
  | .ok _ => liftStore (deleteMapping C id)

/-- A call of a client of the host: an operation on mappings, a reconcile, a rollback or a delete
through the API. -/
inductive HostCall where
  | store (call : StoreCall)
  | reconcile (config : EdgeConfig) (options : ReconcileOptions)
  | rollback (generationId : ℤ) (nftOutput : String)
  | apiDelete (config : EdgeConfig) (id : String)

/-- The program of the call. What it returns is left out. -/
def HostCall.prog : HostCall → HostProg Unit
  | .store call => liftStore (call.prog C)
  | .reconcile config options => do
    let _ ← EdgeRoute.reconcile C config options
    pure ()
  | .rollback generationId nftOutput => EdgeRoute.rollback C generationId nftOutput
  | .apiDelete config id => do
    let _ ← apiDeleteMapping C config id
    pure ()

end Reconciler

end EdgeRoute
