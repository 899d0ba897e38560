import EdgeRoute.Lib.Trail
import EdgeRoute.Proof.Agent

/-!
# Calls of both front ends, by their parts

A call of the API or the command line is put together from store methods, a reconcile or a rollback, and operations
beside the host.

* `AcceptsParts`: a monitor accepts each of these parts, whatever came before it.
* `front_keeps`: **then it accepts every call of both front ends.**
-/

namespace EdgeRoute

open Effect

variable {C : Codec} {J : OciJson} {N : String → Except String NetbirdStatus} {D : Option OciError → String}
    {Q ε α : Type}
  {M : Monitor AgentSig Q} {config : EdgeConfig} {headers : HeaderMap}

def AgentOp.IsHost : AgentOp → Prop
  | .host _ => True
  | _ => False

/-- The parts that the calls of both front ends are put together from. -/
structure AcceptsParts (C : Codec) (M : Monitor AgentSig Q) : Prop where
  beside : ∀ o, ¬ o.IsHost → ∀ q, M.allow q o
  now : ∀ q, M.allow q (.host (.store .now))
  listMappings : (onStore (listMappings C)).Keeps M
  getMapping : ∀ id, (onStore (getMapping C id)).Keeps M
  insertMapping : ∀ m, (onStore (insertMapping C m)).Keeps M
  updateMapping : ∀ m, (onStore (updateMapping C m)).Keeps M
  deleteMapping : ∀ id, (onStore (deleteMapping C id)).Keeps M
  setMappingEnabled : ∀ id enabled, (onStore (setMappingEnabled C id enabled)).Keeps M
  resolveEdgeConfig : ∀ requested authoritative, (onStore (resolveEdgeConfig C requested authoritative)).Keeps M
  recordEvent : ∀ level message data, (onStore (recordEvent C level message data)).Keeps M
  reconcile : ∀ config options, (liftHost (reconcile C config options)).Keeps M
  rollback : ∀ id path, (liftHost (rollback C id path)).Keeps M

/-- What `resolve_edge_config` asks for. -/
theorem resolveEdgeConfig_uses {P : StoreOp → Prop} {requested : EdgeConfig} {authoritative : Bool}
    (hselect : P (.sql .selectConfig)) (hupsert : ∀ value, P (.sql (.upsertConfig value))) :
    (resolveEdgeConfig C requested authoritative).Uses P := by
  have hset : (setEdgeConfig C requested).Uses P :=
    Prog.uses_bind Prog.uses_ofExcept fun _ => Prog.uses_bind Prog.uses_ofExcept fun _ => uses_sql (hupsert _)
  unfold resolveEdgeConfig
  split
  · exact Prog.uses_bind hset fun _ => Prog.uses_ret
  · refine Prog.uses_bind (Prog.uses_bind (uses_sql hselect) fun _ => Prog.uses_ofExcept) fun existing => ?_
    cases existing with
    | some existing => exact Prog.uses_ret
    | none => exact Prog.uses_bind hset fun _ => Prog.uses_ret

/-! ## Parts of handlers -/

namespace AcceptsParts

variable (h : AcceptsParts C M)

include h

theorem besideCall {o : AgentOp} (ho : ¬ o.IsHost) {k : AgentOp.Reply o → AgentProg ε α} (hk : ∀ r, (k r).Keeps M) :
    (Prog.call (S := AgentSig) o k).Keeps M := Prog.keeps_call (h.beside o ho) hk

theorem oci (p : Prog OciSig ε α) : (liftOci p).Keeps M :=
  Prog.keeps_of_uses (liftOci_uses (Prog.uses_of_forall fun _ => h.beside _ id))

theorem newMapping {name : String} {publicIp : Option Ipv4Addr} {edgePrivateIp targetIp : Ipv4Addr} :
    (newMapping name publicIp edgePrivateIp targetIp : AgentProg ε Mapping).Keeps M :=
  h.besideCall id fun _ => Prog.keeps_call h.now fun _ => Prog.keeps_ret

theorem markStatus {m : Mapping} {status : MappingStatus} : (markStatus m status : AgentProg ε Mapping).Keeps M :=
  Prog.keeps_call h.now fun _ => Prog.keeps_ret

theorem storeAllocation {onFailure : EdgeCoreError → Except OciError Unit → Except OciError Unit → ε} {m : Mapping}
    {allocation : Allocation} : (storeAllocation C onFailure m allocation).Keeps M := by
  refine Prog.keeps_bind h.markStatus fun m => ?_
  refine Prog.keeps_bind (Prog.keeps_attempt (h.updateMapping m)) fun x => ?_
  cases x with
  | ok u => exact Prog.keeps_ret
  | error e =>
    refine Prog.keeps_bind (Prog.keeps_attempt (h.oci _)) fun _ => ?_
    exact Prog.keeps_bind (Prog.keeps_attempt (h.oci _)) fun _ => Prog.keeps_fail

theorem event {level : EventLevel} {message : String} {data : Option String} :
    ((onStore (EdgeRoute.recordEvent C level message data)).attempt :
      AgentProg ε (Except EdgeCoreError EventRecord)).Keeps M :=
  Prog.keeps_attempt (h.recordEvent _ _ _)

theorem listEvents {limit : ℤ} : (listEvents C limit).Keeps M := h.besideCall id fun _ => Prog.keeps_ofExcept

theorem netbirdStatus : (netbirdStatus N).Keeps M := h.besideCall id fun _ => Prog.keeps_ofExcept

theorem envVarSet {name : String} : (envVarSet name : AgentProg ε Bool).Keeps M :=
  h.besideCall id fun _ => Prog.keeps_ret

theorem deleteIps {publicIpId privateIpId : Option String} : (Api.deleteIps publicIpId privateIpId).Keeps M := by
  have hone : ∀ (delete : String → OciProg Unit) id, (Api.deleteIfSome delete id).Keeps M := by
    intro delete id
    cases id with
    | some id => exact Prog.keeps_mapErr (h.oci _)
    | none => exact Prog.keeps_ret
  exact Prog.keeps_bind (hone _ _) fun _ => hone _ _

/-! ## The handlers -/

/-- Every call of the API. -/
theorem api (call : ApiCall) : (call.prog C J N config headers).Keeps M := by
  have hcheck : ∀ {β : Type} {x : Except ApiFailure β}, (Api.check x).Keeps M := Prog.keeps_ofExcept
  have hid : ∀ {id}, (Api.mappingId id).Keeps M := Prog.keeps_ofExcept
  have hlist : (Api.store (EdgeRoute.listMappings C)).Keeps M := Prog.keeps_mapErr h.listMappings
  have hset : ∀ id enabled, (Api.setEnabled C config headers id enabled).Keeps M := fun id enabled =>
    Prog.keeps_bind hcheck fun _ => Prog.keeps_bind hid fun _ =>
      Prog.keeps_bind (Prog.keeps_mapErr (h.setMappingEnabled _ _)) fun _ => Prog.keeps_ret
  cases call with
  | status | listMappings | topology =>
    exact Prog.keeps_bind hcheck fun _ => Prog.keeps_bind hlist fun _ => Prog.keeps_ret
  | createMapping request =>
    refine Prog.keeps_bind hcheck fun _ => Prog.keeps_bind h.newMapping fun _ => ?_
    exact Prog.keeps_bind (Prog.keeps_mapErr (h.insertMapping _)) fun _ => Prog.keeps_ret
  | getMapping id =>
    refine Prog.keeps_bind hcheck fun _ => Prog.keeps_bind hid fun _ => ?_
    exact Prog.keeps_bind (Prog.keeps_mapErr (h.getMapping _)) fun _ => Prog.keeps_ret
  | deleteMapping id =>
    refine Prog.keeps_bind hcheck fun _ => Prog.keeps_bind hid fun _ => ?_
    refine Prog.keeps_bind (Prog.keeps_mapErr (h.setMappingEnabled _ _)) fun _ => ?_
    refine Prog.keeps_bind (Prog.keeps_attempt (h.reconcile _ _)) fun x => ?_
    cases x with
    | error e => exact Prog.keeps_bind (Prog.keeps_mapErr (h.recordEvent _ _ _)) fun _ => Prog.keeps_fail
    | ok report => exact Prog.keeps_bind (Prog.keeps_mapErr (h.deleteMapping _)) fun _ => Prog.keeps_ret
  | enableMapping id => exact hset _ _
  | disableMapping id => exact hset _ _
  | dryRunApply =>
    refine Prog.keeps_bind hcheck fun _ => Prog.keeps_bind hlist fun _ => ?_
    exact Prog.keeps_bind Prog.keeps_ofExcept fun _ => Prog.keeps_ret
  | reconcile request =>
    exact Prog.keeps_bind hcheck fun _ => Prog.keeps_bind (Prog.keeps_mapErr (h.reconcile _ _)) fun _ => Prog.keeps_ret
  | netbirdStatus | netbirdNetworks =>
    exact Prog.keeps_bind hcheck fun _ => Prog.keeps_bind (Prog.keeps_mapErr h.netbirdStatus) fun _ => Prog.keeps_ret
  | events =>
    exact Prog.keeps_bind hcheck fun _ => Prog.keeps_bind (Prog.keeps_mapErr h.listEvents) fun _ => Prog.keeps_ret
  | analytics =>
    refine Prog.keeps_bind hcheck fun _ => Prog.keeps_bind hlist fun _ => ?_
    exact Prog.keeps_bind (Prog.keeps_mapErr h.listEvents) fun _ => Prog.keeps_ret
  | ociStatus =>
    refine Prog.keeps_bind hcheck fun _ => Prog.keeps_bind (Prog.keeps_attempt (h.oci _)) fun _ => ?_
    refine Prog.keeps_bind h.envVarSet fun _ => Prog.keeps_bind h.envVarSet fun _ => ?_
    exact Prog.keeps_bind h.envVarSet fun _ => Prog.keeps_bind h.envVarSet fun _ => Prog.keeps_ret
  | ociAllocate request =>
    refine Prog.keeps_bind hcheck fun _ => Prog.keeps_bind hcheck fun _ => Prog.keeps_bind hid fun _ => ?_
    refine Prog.keeps_bind (Prog.keeps_mapErr (h.getMapping _)) fun _ => Prog.keeps_bind hcheck fun _ => ?_
    refine Prog.keeps_bind hcheck fun _ => Prog.keeps_bind hcheck fun _ => ?_
    refine Prog.keeps_bind (Prog.keeps_mapErr (h.oci _)) fun _ => Prog.keeps_bind h.storeAllocation fun _ => ?_
    exact Prog.keeps_bind h.event fun _ => Prog.keeps_ret
  | ociRelease request =>
    refine Prog.keeps_bind hcheck fun _ => Prog.keeps_bind hcheck fun _ => ?_
    split
    · refine Prog.keeps_bind hid fun _ => Prog.keeps_bind (Prog.keeps_mapErr (h.getMapping _)) fun _ => ?_
      refine Prog.keeps_bind hcheck fun _ => Prog.keeps_bind h.deleteIps fun _ => ?_
      refine Prog.keeps_bind h.markStatus fun _ => Prog.keeps_bind (Prog.keeps_mapErr (h.updateMapping _)) fun _ => ?_
      exact Prog.keeps_bind h.event fun _ => Prog.keeps_ret
    · exact Prog.keeps_bind hcheck fun _ => Prog.keeps_bind h.deleteIps fun _ => Prog.keeps_ret
  | ociVnicCheck id | ociPublicIps id =>
    refine Prog.keeps_bind hcheck fun _ => Prog.keeps_bind hcheck fun _ => ?_
    exact Prog.keeps_bind (Prog.keeps_mapErr (h.oci _)) fun _ => Prog.keeps_ret
  | ociNsgAdd request =>
    refine Prog.keeps_bind hcheck fun _ => Prog.keeps_bind hcheck fun _ => Prog.keeps_bind hcheck fun _ => ?_
    exact Prog.keeps_bind (Prog.keeps_mapErr (h.oci _)) fun _ => Prog.keeps_ret
  | ociNsgRemove request =>
    refine Prog.keeps_bind hcheck fun _ => Prog.keeps_bind hcheck fun _ => Prog.keeps_bind hcheck fun _ => ?_
    exact Prog.keeps_bind hcheck fun _ => Prog.keeps_bind (Prog.keeps_mapErr (h.oci _)) fun _ => Prog.keeps_ret

/-- Every command. -/
theorem cli (command : CliCommand) : (command.prog C J D config).Keeps M := by
  have hid : ∀ {id}, (Cli.mappingId id).Keeps M := Prog.keeps_ofExcept
  have hset : ∀ id enabled, (Cli.setEnabled C id enabled).Keeps M := fun _ _ =>
    Prog.keeps_bind hid fun _ => Prog.keeps_bind (Prog.keeps_mapErr (h.setMappingEnabled _ _)) fun _ => Prog.keeps_ret
  have hcleanup : ∀ (delete : String → OciProg Unit) kind id, (Cli.cleanupIp delete kind id).Keeps M := by
    intro delete kind id
    cases id with
    | none => exact Prog.keeps_ret
    | some id =>
      refine Prog.keeps_bind (Prog.keeps_attempt (h.oci _)) fun x => ?_
      cases x <;> exact Prog.keeps_ret
  cases command with
  | create args =>
    refine Prog.keeps_bind ?_ fun _ => Prog.keeps_bind h.newMapping fun _ => Prog.keeps_mapErr (h.insertMapping _)
    split
    · exact Prog.keeps_ret
    · exact Prog.keeps_bind (Prog.keeps_mapErr (h.besideCall id fun _ => Prog.keeps_ofExcept)) fun _ =>
        Prog.keeps_ofExcept
  | delete args =>
    refine Prog.keeps_bind hid fun _ => Prog.keeps_bind (Prog.keeps_mapErr (h.getMapping _)) fun m => ?_
    refine Prog.keeps_bind (Prog.keeps_mapErr (h.setMappingEnabled _ _)) fun _ => Prog.keeps_bind ?_ fun _ => ?_
    · unfold Cli.deleteReconcile
      split
      · exact Prog.keeps_ret
      · exact Prog.keeps_bind (Prog.keeps_mapErr (h.reconcile _ _)) fun _ => Prog.keeps_ret
    refine Prog.keeps_bind ?_ fun _ => Prog.keeps_bind (Prog.keeps_mapErr (h.deleteMapping _)) fun _ => Prog.keeps_ret
    split
    · exact Prog.keeps_ret
    · refine Prog.keeps_bind (hcleanup _ _ _) fun _ => Prog.keeps_bind (hcleanup _ _ _) fun _ => ?_
      exact Prog.keeps_ofExcept
  | enable id => exact hset _ _
  | disable id => exact hset _ _
  | apply args =>
    refine Prog.keeps_bind (Prog.keeps_mapErr h.listMappings) fun _ => Prog.keeps_bind Prog.keeps_ofExcept fun _ => ?_
    refine Prog.keeps_bind Prog.keeps_ofExcept fun _ => ?_
    split
    · exact Prog.keeps_ret
    · exact Prog.keeps_bind (Prog.keeps_mapErr (h.reconcile _ _)) fun _ => Prog.keeps_ret
  | reconcile args => exact Prog.keeps_bind (Prog.keeps_mapErr (h.reconcile _ _)) fun _ => Prog.keeps_ret
  | rollback generationId output => exact Prog.keeps_mapErr (h.rollback _ _)
  | allocate args =>
    refine Prog.keeps_bind hid fun _ => Prog.keeps_bind (Prog.keeps_mapErr (h.getMapping _)) fun _ => ?_
    refine Prog.keeps_bind Prog.keeps_ofExcept fun _ => Prog.keeps_bind (h.oci _) fun _ => ?_
    exact Prog.keeps_bind h.storeAllocation fun _ => Prog.keeps_ret
  | release publicIpId privateIpId =>
    refine Prog.keeps_bind (Prog.keeps_mapErr (h.oci _)) fun _ => ?_
    cases privateIpId with
    | some privateIpId => exact Prog.keeps_mapErr (h.oci _)
    | none => exact Prog.keeps_ret

end AcceptsParts

/-- **Every call of both front ends**, where its parts are accepted. -/
theorem front_keeps (h : AcceptsParts C M) (call : FrontCall) : (call.prog C J N D).Keeps M := by
  cases call with
  | api config headers call => exact Prog.keeps_bind (Prog.keeps_mapErr (h.api call)) fun _ => Prog.keeps_ret
  | cli requested authoritative command =>
    refine Prog.keeps_mapErr (Prog.keeps_bind (Prog.keeps_mapErr (h.resolveEdgeConfig _ _)) fun config => ?_)
    exact h.cli command

end EdgeRoute
