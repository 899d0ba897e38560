import EdgeRoute.Lib.Trail
import EdgeRoute.Proof.Agent

/-!
# The grounds for a change of the cloud

A command that creates or deletes an address or changes the rules of a security group costs money or cuts traffic
off. Each has grounds in what its call was asked and what the call has read.

* `Asks`: who made the call asked for this kind of change, with the token and the word of confirmation through the API.
* `Grounds`: where each argument of the command comes from. What is created is for a mapping without an allocation; the
  address to delete is named by the caller, by the row of a mapping, or was created by this very call; the rules of a
  group are those of the request.
* `cloud_changes_grounded`: **in every interleaving each such command has its grounds.**
-/

namespace EdgeRoute

open Effect

/-- What an allocation is made of. -/
structure AllocationArgs where
  mappingId : String
  compartmentId : Option String
  vnicId : Option String
  displayName : Option String
deriving DecidableEq

variable {C : Codec} {J : OciJson} {N : String → Except String NetbirdStatus} {D : Option OciError → String}
    {ε α : Type}
  {call : FrontCall} {config : EdgeConfig} {headers : HeaderMap} {q q' : List (Event AgentSig)} {m : Mapping}
  {args : AllocationArgs}

/-! ## What is asked -/

/-- The ways to change the cloud. -/
inductive CloudChange where
  | create
  | delete
  | addRules
  | removeRules
deriving DecidableEq

/-- How a command changes the cloud, if it does. -/
def OciCommand.change : OciCommand → Option CloudChange
  | .createPrivateIp _ _ | .createReservedPublicIp _ _ _ => some .create
  | .deletePublicIp _ | .deletePrivateIp _ => some .delete
  | .addNsgRules _ _ => some .addRules
  | .removeNsgRules _ _ => some .removeRules
  | .version | .listPublicIps _ | .getVnic _ => none

/-- **The request asks for the change**, and the word of confirmation that belongs to it is typed. An allocation asks
for its deletes too, which give back what it created. -/
def ApiCall.Asks : ApiCall → CloudChange → Prop
  | .ociAllocate request, .create | .ociAllocate request, .delete => requireConfirm request.confirm "confirm" = .ok ()
  | .ociRelease request, .delete => requireConfirm request.confirm "delete" = .ok ()
  | .ociNsgAdd request, .addRules => requireConfirm request.confirm "confirm" = .ok ()
  | .ociNsgRemove request, .removeRules => requireConfirm request.confirm "delete" = .ok ()
  | _, _ => False

/-- The command asks for the change. -/
def CliCommand.Asks : CliCommand → CloudChange → Prop
  | .allocate _, .create | .allocate _, .delete | .release _ _, .delete => True
  | .delete args, .delete => args.keepOciResources = false
  | _, _ => False

namespace FrontCall

/-- Who made the call asked for the change, and may. -/
def Asks : FrontCall → CloudChange → Prop
  | .api config headers call, change => requireAuth config headers = .ok () ∧ call.Asks change
  | .cli _ _ command, change => command.Asks change

/-- What the call gives for an allocation: the request comes before the config. -/
def allocation : FrontCall → Option AllocationArgs
  | .api config _ (.ociAllocate request) => some
    { mappingId := request.mappingId
      compartmentId := resolve request.compartmentId config.ociCompartmentId
      vnicId := resolve request.vnicId config.ociVnicId
      displayName := resolve request.displayName none }
  | .cli _ _ (.allocate args) => some
    { mappingId := args.mappingId
      compartmentId := some args.compartmentId
      vnicId := some args.vnicId
      displayName := args.displayName }
  | _ => none

/-- The mapping whose addresses the call is to delete. -/
def released : FrontCall → Option String
  | .api _ _ (.ociRelease request) => resolve request.mappingId none
  | .cli _ _ (.delete args) => some args.id
  | _ => none

/-- The public address that the call names itself. -/
def publicIp : FrontCall → Option String
  | .api _ _ (.ociRelease request) =>
    if (resolve request.mappingId none).isNone then resolve request.publicIpId none else none
  | .cli _ _ (.release publicIpId _) => some publicIpId
  | _ => none

/-- The private address that the call names itself. -/
def privateIp : FrontCall → Option String
  | .api _ _ (.ociRelease request) =>
    if (resolve request.mappingId none).isNone then resolve request.privateIpId none else none
  | .cli _ _ (.release _ privateIpId) => privateIpId
  | _ => none

/-- The group and the rule that the call adds, with the rule as the tool gets it. -/
def AddsRules (J : OciJson) (nsgId json : String) : FrontCall → Prop
  | .api config _ (.ociNsgAdd request) => resolve request.nsgId config.ociNsgIds.head? = some nsgId ∧
    J.nsgRules [.ingress (Api.nsgRule request)] = .ok json
  | _ => False

/-- The group and the rules that the call removes, with their ids as the tool gets them. -/
def RemovesRules (J : OciJson) (nsgId json : String) : FrontCall → Prop
  | .api config _ (.ociNsgRemove request) => resolve request.nsgId config.ociNsgIds.head? = some nsgId ∧
    ∃ ruleIds, ruleIds = (request.ruleIds.map Text.trim).filter (· ≠ "") ∧ ruleIds ≠ [] ∧ J.ruleIds ruleIds = .ok json
  | _ => False

end FrontCall

/-! ## What is seen -/

/-- The call has read the row of the mapping that `text` names, and the row holds `m`. -/
def HasRead (C : Codec) (text : String) (q : List (Event AgentSig)) (m : Mapping) : Prop :=
  ∃ id row, MappingId.fromStr text = .ok id ∧
    ⟨.host (.store (.sql (.selectMapping id.val))), .ok (some row)⟩ ∈ q ∧ C.rowToMapping row = .ok m

/-- The call allocates for a mapping that it has read and found without an allocation. -/
structure AllocatesFor (C : Codec) (call : FrontCall) (q : List (Event AgentSig)) (args : AllocationArgs)
    (m : Mapping) : Prop where
  given : call.allocation = some args
  read : HasRead C args.mappingId q m
  free : m.hasAllocation = false

/-- The call has created the private address. -/
def MadePrivate (J : OciJson) (q : List (Event AgentSig)) (id : String) : Prop :=
  ∃ vnicId name output privateIp, ⟨.oci (.createPrivateIp vnicId name), .exited output⟩ ∈ q ∧
    output.isSuccess = true ∧ J.privateIp output.stdout = .ok privateIp ∧ privateIp.id = id

/-- The call has created the public address. -/
def MadePublic (J : OciJson) (q : List (Event AgentSig)) (id : String) : Prop :=
  ∃ compartmentId privateIpId name output publicIp,
    ⟨.oci (.createReservedPublicIp compartmentId privateIpId name), .exited output⟩ ∈ q ∧
    output.isSuccess = true ∧ J.publicIp output.stdout = .ok publicIp ∧ publicIp.id = id

/-- The call has seen that the VNIC forwards. -/
def SeenForwarding (J : OciJson) (q : List (Event AgentSig)) (vnicId : String) : Prop :=
  ∃ output vnic, ⟨.oci (.getVnic vnicId), .exited output⟩ ∈ q ∧ J.vnic output.stdout = .ok vnic ∧
    vnic.skipSourceDestCheck = some true

theorem HasRead.mono {text : String} (hsub : q <+: q') (h : HasRead C text q m) : HasRead C text q' m := by
  obtain ⟨id, row, hid, hmem, hrow⟩ := h
  exact ⟨id, row, hid, hsub.subset hmem, hrow⟩

theorem AllocatesFor.mono (hsub : q <+: q') (h : AllocatesFor C call q args m) : AllocatesFor C call q' args m :=
  ⟨h.given, h.read.mono hsub, h.free⟩

theorem MadePrivate.mono {id : String} (hsub : q <+: q') (h : MadePrivate J q id) : MadePrivate J q' id := by
  obtain ⟨vnicId, name, output, ip, hmem, hip⟩ := h
  exact ⟨vnicId, name, output, ip, hsub.subset hmem, hip⟩

theorem MadePublic.mono {id : String} (hsub : q <+: q') (h : MadePublic J q id) : MadePublic J q' id := by
  obtain ⟨compartmentId, privateIpId, name, output, ip, hmem, hip⟩ := h
  exact ⟨compartmentId, privateIpId, name, output, ip, hsub.subset hmem, hip⟩

/-- **What the call goes by** in a change of the cloud: where each argument of the command comes from. -/
def Grounds (C : Codec) (J : OciJson) (call : FrontCall) (q : List (Event AgentSig)) : OciCommand → Prop
  | .createPrivateIp vnicId name => SeenForwarding J q vnicId ∧ ∃ args m, AllocatesFor C call q args m ∧
    args.vnicId = some vnicId ∧ name = some (args.displayName.getD m.name)
  | .createReservedPublicIp compartmentId privateIpId name => MadePrivate J q privateIpId ∧
    ∃ args m, AllocatesFor C call q args m ∧ args.compartmentId = some compartmentId ∧
      name = some (args.displayName.getD m.name)
  | .deletePublicIp id => call.publicIp = some id ∨
    (∃ text m, call.released = some text ∧ HasRead C text q m ∧ m.ociPublicIpOcid = some id) ∨ MadePublic J q id
  | .deletePrivateIp id => call.privateIp = some id ∨
    (∃ text m, call.released = some text ∧ HasRead C text q m ∧ m.ociPrivateIpOcid = some id) ∨ MadePrivate J q id
  | .addNsgRules nsgId json => call.AddsRules J nsgId json
  | .removeNsgRules nsgId json => call.RemovesRules J nsgId json
  | .version | .listPublicIps _ | .getVnic _ => True

/-- A command of the call is grounded. -/
def Grounded (C : Codec) (J : OciJson) (call : FrontCall) (q : List (Event AgentSig)) (command : OciCommand) : Prop :=
  ∀ change, command.change = some change → call.Asks change ∧ Grounds C J call q command

theorem Grounded.of_asks {command : OciCommand} {change : CloudChange} (hchange : command.change = some change)
    (hasks : call.Asks change) (h : Grounds C J call q command) : Grounded C J call q command := by
  intro change' hchange'
  obtain rfl := Option.some.inj (hchange.symm.trans hchange')
  exact ⟨hasks, h⟩

/-- The addresses of a row may be deleted by the call that is to release them. -/
theorem deletes_row {text : String} (hdelete : call.Asks .delete) (hreleased : call.released = some text)
    (hread : HasRead C text q m) : (∀ id, m.ociPublicIpOcid = some id → Grounded C J call q (.deletePublicIp id)) ∧
      ∀ id, m.ociPrivateIpOcid = some id → Grounded C J call q (.deletePrivateIp id) :=
  ⟨fun _ hid => .of_asks rfl hdelete (.inr (.inl ⟨text, m, hreleased, hread, hid⟩)),
    fun _ hid => .of_asks rfl hdelete (.inr (.inl ⟨text, m, hreleased, hread, hid⟩))⟩

/-- The monitor of a call. -/
abbrev grounds (C : Codec) (J : OciJson) (call : FrontCall) : Monitor AgentSig (List (Event AgentSig)) :=
  .recall some fun q o => match o with | .oci command => Grounded C J call q command | _ => True

/-- The monitor of a part that asks the cloud only, with what the whole call has seen. -/
abbrev ociRecall (allow : List (Event AgentSig) → OciCommand → Prop) : Monitor OciSig (List (Event AgentSig)) :=
  .recall (fun e => some ⟨.oci e.op, e.reply⟩) allow

abbrev ociGrounds (C : Codec) (J : OciJson) (call : FrontCall) : Monitor OciSig (List (Event AgentSig)) :=
  ociRecall (Grounded C J call)

/-! ## Parts -/

/-- An operation that leaves the cloud as it is. -/
def LeavesCloud : AgentOp → Prop
  | .oci command => command.change = none
  | _ => True

theorem grounded_of_uses {p : AgentProg ε α} (h : p.Uses LeavesCloud) : p.Keeps (grounds C J call) := by
  refine Prog.keeps_of_uses (Prog.uses_mono (fun o ho q => ?_) h)
  cases o with
  | oci command => exact fun change hc => absurd (hc.symm.trans ho) (Option.some_ne_none change)
  | _ => trivial

theorem liftHost_leavesCloud {p : Prog HostSig ε α} : (liftHost p).Uses LeavesCloud :=
  liftHost_uses (Prog.uses_of_forall fun _ => trivial)

theorem apiStore_leavesCloud {p : StoreProg α} : (Api.store p).Uses LeavesCloud :=
  apiStore_uses (Prog.uses_of_forall fun _ => trivial)

theorem cliStore_leavesCloud {p : StoreProg α} : (Cli.store p).Uses LeavesCloud :=
  cliStore_uses (Prog.uses_of_forall fun _ => trivial)

theorem newMapping_leavesCloud {name : String} {publicIp : Option Ipv4Addr} {edgePrivateIp targetIp : Ipv4Addr} :
    (newMapping name publicIp edgePrivateIp targetIp : AgentProg ε Mapping).Uses LeavesCloud :=
  Prog.uses_call trivial fun _ => Prog.uses_call trivial fun _ => Prog.uses_ret

theorem markStatus_leavesCloud {status : MappingStatus} :
    (markStatus m status : AgentProg ε Mapping).Uses LeavesCloud :=
  Prog.uses_call trivial fun _ => Prog.uses_ret

/-- The row of a mapping, once it is read. -/
theorem getMapping_grounded {id : MappingId} {text : String} (hid : MappingId.fromStr text = .ok id) :
    (onStore (getMapping C id)).wpOk (grounds C J call) (fun q' m => HasRead C text q' m) q := by
  refine Prog.wpOk_call (M := grounds C J call) trivial fun r => ?_
  cases r with
  | error e => exact Prog.wpOk_fail
  | ok row =>
    cases row with
    | none => exact Prog.wpOk_fail
    | some row =>
      change (onStore (.ofExcept (C.rowToMapping row))).wpOk _ _ _
      cases hd : C.rowToMapping row with
      | error e => exact Prog.wpOk_fail
      | ok m => exact Prog.wpOk_ret ⟨id, row, hid, List.mem_append_right _ (List.mem_singleton_self _), hd⟩

theorem liftOci_grounded {p : Prog OciSig ε α} {post : List (Event AgentSig) → α → Prop}
    (h : p.wpOk (ociGrounds C J call) post q) : (liftOci p).wpOk (grounds C J call) post q :=
  Prog.wpOk_embed (T := AgentSig) (ι := AgentOp.oci) (M := ociGrounds C J call) (N := grounds C J call)
    (fun _ _ ho => ho) (fun _ _ _ => rfl) h

section Seen

variable {allow : List (Event AgentSig) → OciCommand → Prop}

/-- A command, with what is known once its output is parsed. -/
theorem runOciJson_seen {command : OciCommand} {parse : String → Except String α} (h : allow q command) :
    (runOciJson command parse).wpOk (ociRecall allow)
      (fun q' a => q <+: q' ∧ ∃ output, ⟨.oci command, .exited output⟩ ∈ q' ∧ output.isSuccess = true ∧
        parse output.stdout = .ok a) q := by
  refine Prog.wpOk_extends (Prog.wpOk_call (M := ociRecall allow) h fun r => ?_)
  cases r with
  | timedOut => exact Prog.wpOk_fail
  | ioError message => exact Prog.wpOk_fail
  | exited output =>
    simp only [ociOutput]
    split
    · rename_i hs
      refine Prog.wpOk_ofExcept fun a ha => ?_
      exact ⟨output, List.mem_append_right _ (List.mem_singleton_self _), hs, except_mapError_ok.1 ha⟩
    · exact Prog.wpOk_fail

theorem runOciUnit_seen {command : OciCommand} (h : allow q command) :
    (runOciUnit command).wpOk (ociRecall allow) (fun q' _ => q <+: q') q := by
  suffices hcall : (runOciUnit command).wpOk (ociRecall allow) (fun _ _ => True) q from
    Prog.wpOk_mono (fun _ _ h => h.1) (Prog.wpOk_extends hcall)
  refine Prog.wpOk_call (M := ociRecall allow) h fun r => ?_
  cases r with
  | timedOut => exact Prog.wpOk_fail
  | ioError message => exact Prog.wpOk_fail
  | exited output =>
    simp only [ociOutput]
    split
    · exact Prog.wpOk_ret trivial
    · exact Prog.wpOk_fail

/-- **The two creates of an allocation**, and the delete of what the first made, where each is allowed by what was
seen before it. -/
theorem allocateWith_seen {lift : OciError → ε} {onFailure : OciError → Except OciError Unit → ε}
    {compartmentId vnicId : String} {name : Option String} (hget : allow q (.getVnic vnicId))
    (hcreate : ∀ q', q <+: q' → SeenForwarding J q' vnicId → allow q' (.createPrivateIp vnicId name))
    (hpublicIp : ∀ q' ip, q <+: q' → MadePrivate J q' ip → allow q' (.createReservedPublicIp compartmentId ip name))
    (hdelete : ∀ q' ip, MadePrivate J q' ip → allow q' (.deletePrivateIp ip)) :
    (allocateWith J lift onFailure compartmentId vnicId name).wpOk (ociRecall allow)
      (fun q' allocation => MadePrivate J q' allocation.privateIp.id ∧ MadePublic J q' allocation.publicIp.id) q := by
  have hvnic : (validateForwardingVnic J vnicId).wpOk (ociRecall allow)
      (fun q' _ => q <+: q' ∧ SeenForwarding J q' vnicId) q := by
    refine Prog.wpOk_bind (Prog.wpOk_mono ?_ (runOciJson_seen hget))
    rintro q₁ vnic ⟨hq₁, output, hmem, -, hparse⟩
    refine Prog.wpOk_bind (Prog.wpOk_ofExcept fun _ hforward => Prog.wpOk_ret ⟨hq₁, output, vnic, hmem, hparse, ?_⟩)
    unfold validateVnicForwarding at hforward
    split at hforward
    · assumption
    · cases hforward
  refine Prog.wpOk_bind (Prog.wpOk_mono ?_ (Prog.wpOk_mapErr hvnic))
  rintro q₁ - ⟨hq₁, hseen⟩
  refine Prog.wpOk_bind (Prog.wpOk_mono ?_ (Prog.wpOk_mapErr (runOciJson_seen (hcreate q₁ hq₁ hseen))))
  rintro q₂ privateIp ⟨hq₂, output, hmem, hs, hparse⟩
  have hprivate : MadePrivate J q₂ privateIp.id := ⟨_, _, output, privateIp, hmem, hs, hparse, rfl⟩
  refine Prog.wpOk_bind (Prog.wpOk_mono ?_ (Prog.wpOk_extends (Prog.wpOk_attempt
    (runOciJson_seen (hpublicIp q₂ _ (hq₁.trans hq₂) hprivate)))))
  rintro q₃ x ⟨hq₃, hx⟩
  cases x with
  | ok publicIp =>
    obtain ⟨-, output', hmem', hs', hparse'⟩ := hx publicIp rfl
    exact Prog.wpOk_ret ⟨hprivate.mono hq₃, _, _, _, output', publicIp, hmem', hs', hparse', rfl⟩
  | error e =>
    exact Prog.wpOk_bind (Prog.wpOk_mono (fun _ _ _ => Prog.wpOk_fail) (Prog.wpOk_attempt
      (runOciUnit_seen (hdelete q₃ _ (hprivate.mono hq₃)))))

end Seen

theorem allocateWith_grounded {lift : OciError → ε} {onFailure : OciError → Except OciError Unit → ε}
    {compartmentId vnicId : String} {name : Option String} (hcreate : call.Asks .create) (hdelete : call.Asks .delete)
    (hfor : AllocatesFor C call q args m) (hcompartment : args.compartmentId = some compartmentId)
    (hvnicId : args.vnicId = some vnicId) (hname : name = some (args.displayName.getD m.name)) :
    (allocateWith J lift onFailure compartmentId vnicId name).wpOk (ociGrounds C J call)
      (fun q' allocation => MadePrivate J q' allocation.privateIp.id ∧ MadePublic J q' allocation.publicIp.id) q := by
  refine allocateWith_seen (fun _ h => by cases h) (fun q' hq hseen => ?_) (fun q' ip hq hprivate => ?_) ?_
  · exact .of_asks rfl hcreate ⟨hseen, args, m, hfor.mono hq, hvnicId, hname⟩
  · exact .of_asks rfl hcreate ⟨hprivate, args, m, hfor.mono hq, hcompartment, hname⟩
  · exact fun q' ip hprivate => .of_asks rfl hdelete (.inr (.inr hprivate))

/-- The end of an allocation gives back what this call made. -/
theorem storeAllocation_grounded {onFailure : EdgeCoreError → Except OciError Unit → Except OciError Unit → ε}
    {allocation : Allocation} (hdelete : call.Asks .delete) (hprivate : MadePrivate J q allocation.privateIp.id)
    (hpublic : MadePublic J q allocation.publicIp.id) :
    (storeAllocation C onFailure m allocation).wpOk (grounds C J call) (fun _ _ => True) q := by
  refine Prog.wpOk_bind (Prog.wpOk_mono ?_ (Prog.wpOk_extends (grounded_of_uses markStatus_leavesCloud q)))
  rintro q₁ m' ⟨hq₁, -⟩
  refine Prog.wpOk_bind (Prog.wpOk_mono ?_ (Prog.wpOk_extends
    (grounded_of_uses (Prog.uses_attempt (liftHost_leavesCloud)) q₁)))
  rintro q₂ x ⟨hq₂, -⟩
  cases x with
  | ok u => exact Prog.wpOk_ret trivial
  | error e =>
    have hprivate₂ := hprivate.mono (hq₁.trans hq₂)
    have hpublicBack : Grounded C J call q₂ (.deletePublicIp allocation.publicIp.id) :=
      .of_asks rfl hdelete (.inr (.inr (hpublic.mono (hq₁.trans hq₂))))
    refine Prog.wpOk_bind (Prog.wpOk_mono ?_ (Prog.wpOk_extends (Prog.wpOk_attempt (liftOci_grounded
      (runOciUnit_seen hpublicBack)))))
    rintro q₃ - ⟨hq₃, -⟩
    have hprivateBack : Grounded C J call q₃ (.deletePrivateIp allocation.privateIp.id) :=
      .of_asks rfl hdelete (.inr (.inr (hprivate₂.mono hq₃)))
    exact Prog.wpOk_bind (Prog.wpOk_mono (fun _ _ _ => Prog.wpOk_fail) (Prog.wpOk_attempt (liftOci_grounded
      (runOciUnit_seen hprivateBack))))

/-- The deletes of a release. -/
theorem deleteIps_grounded {publicIpId privateIpId : Option String}
    (hpublic : ∀ id, publicIpId = some id → Grounded C J call q (.deletePublicIp id))
    (hprivate : ∀ q', q <+: q' → ∀ id, privateIpId = some id → Grounded C J call q' (.deletePrivateIp id)) :
    (Api.deleteIps publicIpId privateIpId).wpOk (grounds C J call) (fun q' _ => q <+: q') q := by
  have hone : ∀ {id : Option String} {delete : String → OciCommand} {q : List (Event AgentSig)},
      (∀ ip, id = some ip → Grounded C J call q (delete ip)) →
      (Api.deleteIfSome (fun ip => runOciUnit (delete ip)) id).wpOk (grounds C J call) (fun q' _ => q <+: q') q := by
    intro id delete q h
    cases id with
    | some ip => exact Prog.wpOk_mapErr (liftOci_grounded (runOciUnit_seen (h ip rfl)))
    | none => exact Prog.wpOk_ret List.prefix_rfl
  refine Prog.wpOk_bind (Prog.wpOk_mono (fun q₁ _ hq₁ => ?_) (hone hpublic))
  exact Prog.wpOk_mono (fun q₂ _ hq₂ => hq₁.trans hq₂) (hone (hprivate q₁ hq₁))

/-! ## The calls -/

/-- A request that may change the cloud. -/
def ApiCall.ChangesCloud : ApiCall → Prop
  | .ociAllocate _ | .ociRelease _ | .ociNsgAdd _ | .ociNsgRemove _ => True
  | _ => False

/-- The other requests leave it as it is. -/
theorem api_leavesCloud (call : ApiCall) (h : ¬ call.ChangesCloud) :
    (call.prog C J N config headers).Uses LeavesCloud := by
  have hcheck : ∀ {β : Type} {x : Except ApiFailure β}, (Api.check x).Uses LeavesCloud := Prog.uses_ofExcept
  have hstatus : (netbirdStatus N).Uses LeavesCloud := Prog.uses_call trivial fun _ => Prog.uses_ofExcept
  have hevents : ((listEvents C 100).mapErr ApiFailure.ofCore).Uses LeavesCloud :=
    Prog.uses_mapErr (Prog.uses_call trivial fun _ => Prog.uses_ofExcept)
  have henv : ∀ {ε : Type} name, (envVarSet name : AgentProg ε Bool).Uses LeavesCloud := fun _ =>
    Prog.uses_call trivial fun _ => Prog.uses_ret
  cases call with
  | ociAllocate request | ociRelease request | ociNsgAdd request | ociNsgRemove request => exact absurd trivial h
  | status | listMappings | topology =>
    exact Prog.uses_bind hcheck fun _ => Prog.uses_bind apiStore_leavesCloud fun _ => Prog.uses_ret
  | createMapping request =>
    refine Prog.uses_bind hcheck fun _ => Prog.uses_bind newMapping_leavesCloud fun _ => ?_
    exact Prog.uses_bind apiStore_leavesCloud fun _ => Prog.uses_ret
  | getMapping id | enableMapping id | disableMapping id =>
    refine Prog.uses_bind hcheck fun _ => Prog.uses_bind Prog.uses_ofExcept fun _ => ?_
    exact Prog.uses_bind apiStore_leavesCloud fun _ => Prog.uses_ret
  | deleteMapping id =>
    refine Prog.uses_bind hcheck fun _ => Prog.uses_bind Prog.uses_ofExcept fun _ => ?_
    refine Prog.uses_bind apiStore_leavesCloud fun _ => Prog.uses_bind (Prog.uses_attempt liftHost_leavesCloud)
      fun x => ?_
    cases x with
    | error e => exact Prog.uses_bind apiStore_leavesCloud fun _ => Prog.uses_fail
    | ok report => exact Prog.uses_bind apiStore_leavesCloud fun _ => Prog.uses_ret
  | dryRunApply =>
    refine Prog.uses_bind hcheck fun _ => Prog.uses_bind apiStore_leavesCloud fun _ => ?_
    exact Prog.uses_bind Prog.uses_ofExcept fun _ => Prog.uses_ret
  | reconcile request =>
    exact Prog.uses_bind hcheck fun _ => Prog.uses_bind (Prog.uses_mapErr liftHost_leavesCloud) fun _ => Prog.uses_ret
  | netbirdStatus | netbirdNetworks =>
    exact Prog.uses_bind hcheck fun _ => Prog.uses_bind (Prog.uses_mapErr hstatus) fun _ => Prog.uses_ret
  | events => exact Prog.uses_bind hcheck fun _ => Prog.uses_bind hevents fun _ => Prog.uses_ret
  | analytics =>
    refine Prog.uses_bind hcheck fun _ => Prog.uses_bind apiStore_leavesCloud fun _ => ?_
    exact Prog.uses_bind hevents fun _ => Prog.uses_ret
  | ociStatus =>
    refine Prog.uses_bind hcheck fun _ => Prog.uses_bind (Prog.uses_attempt (liftOci_uses ?_)) fun _ => ?_
    · exact Prog.uses_call rfl fun _ => Prog.uses_ofExcept
    refine Prog.uses_bind (henv _) fun _ => Prog.uses_bind (henv _) fun _ => ?_
    exact Prog.uses_bind (henv _) fun _ => Prog.uses_bind (henv _) fun _ => Prog.uses_ret
  | ociVnicCheck ocid | ociPublicIps ocid =>
    refine Prog.uses_bind hcheck fun _ => Prog.uses_bind hcheck fun _ => Prog.uses_bind (apiOci_uses ?_)
      fun _ => Prog.uses_ret
    exact Prog.uses_bind (Prog.uses_call rfl fun _ => Prog.uses_ofExcept) fun _ => Prog.uses_ofExcept

theorem orBadRequest_ok {value : Option α} {message : String} {a : α} :
    orBadRequest value message = .ok a ↔ value = some a := by
  cases value <;> simp [orBadRequest]

/-- A store method whose answer is not looked at. -/
theorem onStore_grounded {p : StoreProg α} : (onStore p).Keeps (grounds C J call) :=
  grounded_of_uses liftHost_leavesCloud

theorem allocate_grounded {request : OciAllocateRequest} (hcall : call = .api config headers (.ociAllocate request)) :
    (Api.ociAllocate C J config headers request).wpOk (grounds C J call) (fun _ _ => True) q := by
  refine Prog.wpOk_bind (Prog.wpOk_ofExcept fun _ hauth => Prog.wpOk_bind (Prog.wpOk_ofExcept fun _ hconfirm => ?_))
  have hcreate : call.Asks .create := by rw [hcall]; exact ⟨hauth, hconfirm⟩
  have hdelete : call.Asks .delete := by rw [hcall]; exact ⟨hauth, hconfirm⟩
  refine Prog.wpOk_bind (Prog.wpOk_ofExcept fun id hid => ?_)
  refine Prog.wpOk_bind (Prog.wpOk_mono ?_ (Prog.wpOk_mapErr (getMapping_grounded (except_mapError_ok.1 hid))))
  intro q₁ m hread
  refine Prog.wpOk_bind (Prog.wpOk_ofExcept fun _ hfree => ?_)
  refine Prog.wpOk_bind (Prog.wpOk_ofExcept fun compartmentId hcompartment => ?_)
  refine Prog.wpOk_bind (Prog.wpOk_ofExcept fun vnicId hvnicId => ?_)
  have hgiven : call.allocation = some ⟨request.mappingId, resolve request.compartmentId config.ociCompartmentId,
      resolve request.vnicId config.ociVnicId, resolve request.displayName none⟩ := by rw [hcall]; rfl
  have hfor : AllocatesFor C call q₁ _ m := ⟨hgiven, hread, rejectIf_ok.1 hfree⟩
  refine Prog.wpOk_bind (Prog.wpOk_mono ?_ (Prog.wpOk_mapErr (liftOci_grounded (allocateWith_grounded hcreate hdelete
    hfor (orBadRequest_ok.1 hcompartment) (orBadRequest_ok.1 hvnicId) rfl))))
  rintro q₂ allocation ⟨hprivate, hpublic⟩
  refine Prog.wpOk_bind (Prog.wpOk_mono (fun q₃ _ _ => ?_) (storeAllocation_grounded hdelete hprivate hpublic))
  exact Prog.keeps_bind (Prog.keeps_attempt onStore_grounded) (fun _ => Prog.keeps_ret) q₃

theorem release_grounded {request : OciReleaseRequest} (hcall : call = .api config headers (.ociRelease request)) :
    (Api.ociRelease C config headers request).wpOk (grounds C J call) (fun _ _ => True) q := by
  refine Prog.wpOk_bind (Prog.wpOk_ofExcept fun _ hauth => Prog.wpOk_bind (Prog.wpOk_ofExcept fun _ hconfirm => ?_))
  have hdelete : call.Asks .delete := by rw [hcall]; exact ⟨hauth, hconfirm⟩
  split
  · rename_i text htext
    have hreleased : call.released = some text := by rw [hcall]; exact htext
    refine Prog.wpOk_bind (Prog.wpOk_ofExcept fun id hid => ?_)
    refine Prog.wpOk_bind (Prog.wpOk_mono ?_ (Prog.wpOk_mapErr (getMapping_grounded (except_mapError_ok.1 hid))))
    intro q₁ m hread
    refine Prog.wpOk_bind (Prog.wpOk_ofExcept fun _ _ => ?_)
    refine Prog.wpOk_bind (Prog.wpOk_mono (fun q₂ _ _ => ?_) (deleteIps_grounded
      (deletes_row hdelete hreleased hread).1 fun q' hq' => (deletes_row hdelete hreleased (hread.mono hq')).2))
    refine Prog.keeps_bind (grounded_of_uses markStatus_leavesCloud) (fun _ => Prog.keeps_bind ?_ fun _ => ?_) q₂
    · exact Prog.keeps_mapErr onStore_grounded
    · exact Prog.keeps_bind (Prog.keeps_attempt onStore_grounded) fun _ => Prog.keeps_ret
  · rename_i hnone
    have hpublic : call.publicIp = resolve request.publicIpId none := by rw [hcall, FrontCall.publicIp, hnone]; rfl
    have hprivate : call.privateIp = resolve request.privateIpId none := by rw [hcall, FrontCall.privateIp, hnone]; rfl
    refine Prog.wpOk_bind (Prog.wpOk_ofExcept fun _ _ => ?_)
    exact Prog.wpOk_bind (Prog.wpOk_mono (fun _ _ _ => Prog.wpOk_ret trivial) (deleteIps_grounded
      (fun ip hip => .of_asks rfl hdelete (.inl (hpublic.trans hip)))
      fun _ _ ip hip => .of_asks rfl hdelete (.inl (hprivate.trans hip))))

/-- A change of the rules of a security group. -/
theorem rules_grounded (command : String → OciCommand) {x : Except OciError String}
    (h : ∀ json, x = .ok json → Grounded C J call q (command json)) :
    (Api.oci ((Prog.ofExcept x).bind fun json => runOciUnit (command json))).wpOk (grounds C J call)
      (fun _ _ => True) q := by
  refine Prog.wpOk_mapErr (liftOci_grounded (Prog.wpOk_bind (Prog.wpOk_ofExcept fun json hjson => ?_)))
  exact Prog.wpOk_mono (fun _ _ _ => trivial) (runOciUnit_seen (h json hjson))

/-- **Every request.** -/
theorem api_grounded (call : ApiCall) :
    (call.prog C J N config headers).wpOk (grounds C J (.api config headers call)) (fun _ _ => True) q := by
  cases call with
  | ociAllocate request => exact allocate_grounded rfl
  | ociRelease request => exact release_grounded rfl
  | ociNsgAdd request =>
    refine Prog.wpOk_bind (Prog.wpOk_ofExcept fun _ hauth => Prog.wpOk_bind (Prog.wpOk_ofExcept fun _ hconfirm => ?_))
    refine Prog.wpOk_bind (Prog.wpOk_ofExcept fun nsgId hnsg => ?_)
    refine Prog.wpOk_bind (Prog.wpOk_mono (fun _ _ _ => Prog.wpOk_ret trivial)
      (rules_grounded (.addNsgRules nsgId) fun json hjson => ?_))
    exact .of_asks rfl ⟨hauth, hconfirm⟩ ⟨orBadRequest_ok.1 hnsg, except_mapError_ok.1 hjson⟩
  | ociNsgRemove request =>
    refine Prog.wpOk_bind (Prog.wpOk_ofExcept fun _ hauth => Prog.wpOk_bind (Prog.wpOk_ofExcept fun _ hconfirm => ?_))
    refine Prog.wpOk_bind (Prog.wpOk_ofExcept fun nsgId hnsg => Prog.wpOk_bind (Prog.wpOk_ofExcept fun _ hsome => ?_))
    refine Prog.wpOk_bind (Prog.wpOk_mono (fun _ _ _ => Prog.wpOk_ret trivial)
      (rules_grounded (.removeNsgRules nsgId) fun json hjson => ?_))
    have hne := List.isEmpty_eq_false_iff.1 (rejectIf_ok.1 hsome)
    exact .of_asks rfl ⟨hauth, hconfirm⟩ ⟨orBadRequest_ok.1 hnsg, _, rfl, hne, except_mapError_ok.1 hjson⟩
  | _ => exact grounded_of_uses (api_leavesCloud _ id) q

/-- The deletes of `edge map delete`. -/
theorem cleanup_grounded {text : String} (hdelete : call.Asks .delete) (hreleased : call.released = some text)
    (hread : HasRead C text q m) : (Cli.cleanupMappingOci m).wpOk (grounds C J call) (fun _ _ => True) q := by
  have hone : ∀ {id : Option String} {delete : String → OciCommand} {kind : String} {q : List (Event AgentSig)},
      (∀ ip, id = some ip → Grounded C J call q (delete ip)) →
      (Cli.cleanupIp (fun ip => runOciUnit (delete ip)) kind id).wpOk (grounds C J call) (fun q' _ => q <+: q') q := by
    intro id delete kind q h
    cases id with
    | none => exact Prog.wpOk_ret List.prefix_rfl
    | some ip =>
      refine Prog.wpOk_bind (Prog.wpOk_mono ?_ (Prog.wpOk_extends (Prog.wpOk_attempt
        (liftOci_grounded (runOciUnit_seen (h ip rfl))))))
      rintro q₁ x ⟨hq₁, -⟩
      cases x <;> exact Prog.wpOk_ret hq₁
  refine Prog.wpOk_bind (Prog.wpOk_mono (fun q₁ _ hq₁ => ?_) (hone (deletes_row hdelete hreleased hread).1))
  exact Prog.wpOk_bind (Prog.wpOk_mono (fun q₂ _ _ => Prog.wpOk_ofExcept fun _ _ => trivial)
    (hone (deletes_row hdelete hreleased (hread.mono hq₁)).2))

/-- **Every command.** -/
theorem cli_grounded {requested : EdgeConfig} {authoritative : Bool} (command : CliCommand) :
    (command.prog C J D config).wpOk (grounds C J (.cli requested authoritative command)) (fun _ _ => True) q := by
  have hid : ∀ {id}, (Cli.mappingId id).Uses LeavesCloud := Prog.uses_ofExcept
  have hreconcile : ∀ options {f : ReconcileError → String},
      ((liftHost (EdgeRoute.reconcile C config options)).mapErr f).Uses LeavesCloud :=
    fun _ _ => Prog.uses_mapErr liftHost_leavesCloud
  cases command with
  | create args =>
    refine grounded_of_uses 
      (Prog.uses_bind ?_ fun _ => Prog.uses_bind newMapping_leavesCloud fun _ => cliStore_leavesCloud) q
    split
    · exact Prog.uses_ret
    · exact Prog.uses_bind (Prog.uses_mapErr (Prog.uses_call trivial fun _ => Prog.uses_ofExcept))
        fun _ => Prog.uses_ofExcept
  | enable id | disable id =>
    exact grounded_of_uses (Prog.uses_bind hid fun _ => Prog.uses_bind cliStore_leavesCloud fun _ => Prog.uses_ret) q
  | apply args =>
    refine grounded_of_uses 
      (Prog.uses_bind cliStore_leavesCloud fun _ => Prog.uses_bind Prog.uses_ofExcept fun _ => ?_) q
    refine Prog.uses_bind Prog.uses_ofExcept fun _ => ?_
    split
    · exact Prog.uses_ret
    · exact Prog.uses_bind (hreconcile _) fun _ => Prog.uses_ret
  | reconcile args => exact grounded_of_uses (Prog.uses_bind (hreconcile _) fun _ => Prog.uses_ret) q
  | rollback generationId output => exact grounded_of_uses (Prog.uses_mapErr liftHost_leavesCloud) q
  | delete args =>
    refine Prog.wpOk_bind (Prog.wpOk_ofExcept fun id hid => ?_)
    refine Prog.wpOk_bind (Prog.wpOk_mono ?_ (Prog.wpOk_mapErr (getMapping_grounded (except_mapError_ok.1 hid))))
    intro q₁ m hread
    refine Prog.wpOk_bind (Prog.wpOk_mono ?_ (Prog.wpOk_extends (grounded_of_uses cliStore_leavesCloud q₁)))
    rintro q₂ - ⟨hq₂, -⟩
    refine Prog.wpOk_bind (Prog.wpOk_mono ?_ (Prog.wpOk_extends (grounded_of_uses ?_ q₂)))
    · rintro q₃ - ⟨hq₃, -⟩
      refine Prog.wpOk_bind (Prog.wpOk_mono (fun q₄ _ _ => ?_) (?_ : Prog.wpOk _ _ (fun _ _ => True) q₃))
      · exact grounded_of_uses (Prog.uses_bind cliStore_leavesCloud fun _ => Prog.uses_ret) q₄
      · split
        · exact Prog.wpOk_ret trivial
        · rename_i hkeep
          exact cleanup_grounded (Bool.not_eq_true _ |>.mp hkeep) rfl (hread.mono (hq₂.trans hq₃))
    · unfold Cli.deleteReconcile
      split
      · exact Prog.uses_ret
      · exact Prog.uses_bind (hreconcile _) fun _ => Prog.uses_ret
  | allocate args =>
    refine Prog.wpOk_bind (Prog.wpOk_ofExcept fun id hid => ?_)
    refine Prog.wpOk_bind (Prog.wpOk_mono ?_ (Prog.wpOk_mapErr (getMapping_grounded (except_mapError_ok.1 hid))))
    intro q₁ m hread
    refine Prog.wpOk_bind (Prog.wpOk_ofExcept fun _ hfree => ?_)
    have hfor : AllocatesFor C (.cli requested authoritative (.allocate args)) q₁ _ m :=
      ⟨rfl, hread, rejectIf_ok.1 hfree⟩
    have hcreate : (FrontCall.cli requested authoritative (.allocate args)).Asks .create := trivial
    have hdelete : (FrontCall.cli requested authoritative (.allocate args)).Asks .delete := trivial
    refine Prog.wpOk_bind (Prog.wpOk_mono ?_ (liftOci_grounded
      (allocateWith_grounded hcreate hdelete hfor rfl rfl rfl)))
    rintro q₂ allocation ⟨hprivate, hpublic⟩
    exact Prog.wpOk_bind (Prog.wpOk_mono (fun _ _ _ => Prog.wpOk_ret trivial)
      (storeAllocation_grounded trivial hprivate hpublic))
  | release publicIpId privateIpId =>
    refine Prog.wpOk_bind (Prog.wpOk_mono (fun q₁ _ _ => ?_) (Prog.wpOk_mapErr (liftOci_grounded
      (runOciUnit_seen (.of_asks rfl trivial (.inl rfl))))))
    cases privateIpId with
    | none => exact Prog.wpOk_ret trivial
    | some ip =>
      exact Prog.wpOk_mono (fun _ _ _ => trivial) (Prog.wpOk_mapErr (liftOci_grounded
        (runOciUnit_seen (.of_asks rfl trivial (.inl rfl)))))

theorem front_grounded (call : FrontCall) : (call.prog C J N D).Keeps (grounds C J call) := by
  cases call with
  | api config headers call =>
    exact fun q => Prog.wpOk_bind (Prog.wpOk_mono (fun _ _ _ => Prog.wpOk_ret trivial)
      (Prog.wpOk_mapErr (api_grounded call)))
  | cli requested authoritative command =>
    refine fun q => Prog.wpOk_mapErr (Prog.wpOk_bind (Prog.wpOk_mono (fun q₁ config _ => ?_)
      (grounded_of_uses cliStore_leavesCloud q)))
    exact cli_grounded command

/-! ## Interleavings -/

/-- **Every change of the cloud has its grounds.** Whatever calls of the API and the command line run and however
their operations interleave: a call that has the cloud changed asks for this kind of change, with the token and the
typed confirmation or as a command of its own. It creates an address only for the mapping it names, whose row it has
read and found without an allocation, in the compartment and on the VNIC of the request or the config, which it has
seen to forward, and under the name of the request or the row; it deletes only an address that the caller named, that
stands in the row of the mapping it is to release, or that it has created itself; and it changes only the group that
the request or the config names, by the rules of the request. -/
theorem cloud_changes_grounded {calls : ℕ → FrontCall} {pool : ℕ → AgentProg FrontFailure Unit} {w₀ w : AgentWorld}
    {pre post : List (ℕ × Event AgentSig)} {i : ℕ} {command : OciCommand} {r : Outcome}
    (hr : Reach (agentEnv J) (fun i => (calls i).prog C J N D) w₀ (pre ++ (i, ⟨.oci command, r⟩) :: post) pool w)
    {change : CloudChange} (hchange : command.change = some change) :
    (calls i).Asks change ∧ Grounds C J (calls i) (own i pre) command := by
  have hallow := hr.allowed (M := grounds C J (calls i)) [] (front_grounded (calls i))
  rw [Monitor.recall_after, List.filterMap_some, List.nil_append] at hallow
  exact hallow change hchange

/-- The event asks the cloud for a private address. -/
def asksPrivateIp : Event AgentSig → Bool
  | ⟨.oci (.createPrivateIp _ _), _⟩ => true
  | _ => false

/-- The private address of the sample allocation, which goes by the request, the row and the VNIC. -/
theorem cloud_changes_grounded_allocated : ∃ pre post pool w vnicId name r,
    Reach (agentEnv sampleOciJson) (fun _ => sampleProg (.api sampleConfig [] sampleAllocate)) createdAgent
      (pre ++ (0, ⟨.oci (.createPrivateIp vnicId name), r⟩) :: post) pool w ∧
    (FrontCall.api sampleConfig [] sampleAllocate).Asks .create ∧
    Grounds sampleCodec sampleOciJson (.api sampleConfig [] sampleAllocate) (own 0 pre)
      (.createPrivateIp vnicId name) := by
  obtain ⟨pool, hreach⟩ := Reach.alone allocated_run
  have hany : (evalApi createdAgent sampleAllocate).1.any asksPrivateIp = true := by decide +kernel
  obtain ⟨⟨o, r⟩, hmem, he⟩ := List.any_eq_true.1 hany
  obtain ⟨vnicId, name, rfl⟩ : ∃ vnicId name, o = .oci (.createPrivateIp vnicId name) := by
    unfold asksPrivateIp at he
    split at he
    · rename_i heq
      cases heq
      exact ⟨_, _, rfl⟩
    · cases he
  obtain ⟨a, b, hsplit⟩ := List.append_of_mem hmem
  rw [hsplit, List.map_append, List.map_cons] at hreach
  let calls : ℕ → FrontCall := fun _ => .api sampleConfig [] sampleAllocate
  have hgrounds : (calls 0).Asks .create ∧
      Grounds sampleCodec sampleOciJson (calls 0) (own 0 _) (.createPrivateIp vnicId name) :=
    cloud_changes_grounded hreach rfl
  exact ⟨_, _, pool, _, vnicId, name, r, hreach, hgrounds⟩

end EdgeRoute
