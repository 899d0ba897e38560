import EdgeRoute.Proof.Auth

/-!
# Requests that only read

* `reads_step`: an operation that reads leaves the world as it is.
* `reads_api`: the handlers behind `get(..)`, and the dry run, ask for nothing else.
* `safe_methods`: **a GET or HEAD request changes nothing**, whatever runs beside it.
-/

namespace EdgeRoute

open Effect

variable {C : Codec} {J : OciJson} {N : String → Except String NetbirdStatus} {config : EdgeConfig}
  {headers : HeaderMap} {X : Extractors} {request : HttpRequest} {call : ApiCall} {w w' : AgentWorld} {ε α : Type}

/-! ## Operations -/

def Stmt.IsRead : Stmt → Prop
  | .selectConfig | .selectMappings | .selectMapping _ | .selectOthers _ | .latestActive | .selectGeneration _ => True
  | _ => False

def StoreOp.IsRead : StoreOp → Prop
  | .now => True
  | .sql s => s.IsRead

/-- An operation that reads: a SELECT or the clock, a query of the cloud, of NetBird or of the environment. -/
def AgentOp.IsRead : AgentOp → Prop
  | .host (.store o) => o.IsRead
  | .host _ => False
  | .oci .version | .oci (.listPublicIps _) | .oci (.getVnic _) => True
  | .oci _ => False
  | .selectEvents _ | .newId | .netbirdStatus | .routeGet _ | .envVar _ => True

theorem reads_store {db db' : Db} {o : StoreOp} {r : o.Reply} (ho : o.IsRead) (hE : storeEnv db o r db') :
    db' = db := by
  cases o with
  | now => exact hE
  | sql s =>
    rcases hE with hE | ⟨-, -, rfl⟩
    · cases s with
      | selectConfig | selectMappings | selectMapping | selectOthers | latestActive | selectGeneration =>
        exact congrArg Prod.snd hE
      | upsertConfig | insertMapping | updateMapping | updateEnabled | updateHealth => exact absurd ho id
      | deleteMapping | insertGeneration | insertEvent => exact absurd ho id
    · rfl

/-- **An operation that reads leaves the world as it is.** -/
theorem reads_step {o : AgentOp} {r : o.Reply} (ho : o.IsRead) (hE : agentEnv J w o r w') : w' = w := by
  cases o with
  | host o =>
    obtain ⟨host, hE, rfl⟩ := hE
    cases o with
    | store o =>
      obtain ⟨db, hdb, rfl⟩ := hE
      rw [reads_store ho hdb]
    | atomicWrite | nft | ip | connect => exact absurd ho id
  | oci command =>
    obtain ⟨cloud, hE, rfl⟩ := hE
    cases command with
    | version | listPublicIps | getVnic => rw [show cloud = w.cloud from hE]
    | createPrivateIp | createReservedPublicIp | deletePublicIp | deletePrivateIp => exact absurd ho id
    | addNsgRules | removeNsgRules => exact absurd ho id
  | selectEvents limit => exact hE.1
  | newId | netbirdStatus | routeGet | envVar => exact hE

/-! ## Handlers -/

/-- A call that only reads. -/
def ApiCall.IsRead : ApiCall → Prop
  | .status | .listMappings | .getMapping _ | .dryRunApply | .netbirdStatus | .netbirdNetworks | .events | .analytics
  | .topology | .ociStatus | .ociVnicCheck _ | .ociPublicIps _ => True
  | _ => False

theorem reads_listMappings : (Api.store (listMappings C)).Uses AgentOp.IsRead :=
  apiStore_uses (Prog.uses_bind (uses_sql trivial) fun _ => Prog.uses_ofExcept)

/-- **The handlers of these calls ask for nothing but reads.** -/
theorem reads_api (h : call.IsRead) : (call.prog C J N config headers).Uses AgentOp.IsRead := by
  have hcheck : ∀ {β : Type} {x : Except ApiFailure β}, (Api.check x).Uses AgentOp.IsRead := Prog.uses_ofExcept
  have hstatus : ((netbirdStatus N).mapErr ApiFailure.ofNetbird).Uses AgentOp.IsRead :=
    Prog.uses_mapErr (Prog.uses_call trivial fun _ => Prog.uses_ofExcept)
  have hevents : ((listEvents C 100).mapErr ApiFailure.ofCore).Uses AgentOp.IsRead :=
    Prog.uses_mapErr (Prog.uses_call trivial fun _ => Prog.uses_ofExcept)
  have henv : ∀ {ε : Type} name, (envVarSet name : AgentProg ε Bool).Uses AgentOp.IsRead := fun _ =>
    Prog.uses_call trivial fun _ => Prog.uses_ret
  cases call with
  | status | listMappings | topology =>
    exact Prog.uses_bind hcheck fun _ => Prog.uses_bind reads_listMappings fun _ => Prog.uses_ret
  | getMapping id =>
    refine Prog.uses_bind hcheck fun _ => Prog.uses_bind Prog.uses_ofExcept fun _ => ?_
    exact Prog.uses_bind (apiStore_uses (getMapping_uses C trivial)) fun _ => Prog.uses_ret
  | dryRunApply =>
    refine Prog.uses_bind hcheck fun _ => Prog.uses_bind reads_listMappings fun _ => ?_
    exact Prog.uses_bind Prog.uses_ofExcept fun _ => Prog.uses_ret
  | netbirdStatus | netbirdNetworks =>
    exact Prog.uses_bind hcheck fun _ => Prog.uses_bind hstatus fun _ => Prog.uses_ret
  | events => exact Prog.uses_bind hcheck fun _ => Prog.uses_bind hevents fun _ => Prog.uses_ret
  | analytics =>
    refine Prog.uses_bind hcheck fun _ => Prog.uses_bind reads_listMappings fun _ => ?_
    exact Prog.uses_bind hevents fun _ => Prog.uses_ret
  | ociStatus =>
    refine Prog.uses_bind hcheck fun _ => Prog.uses_bind (Prog.uses_attempt (liftOci_uses ?_)) fun _ => ?_
    · exact Prog.uses_call trivial fun _ => Prog.uses_ofExcept
    refine Prog.uses_bind (henv _) fun _ => Prog.uses_bind (henv _) fun _ => ?_
    exact Prog.uses_bind (henv _) fun _ => Prog.uses_bind (henv _) fun _ => Prog.uses_ret
  | ociVnicCheck id | ociPublicIps id =>
    refine Prog.uses_bind hcheck fun _ => Prog.uses_bind hcheck fun _ => Prog.uses_bind (apiOci_uses ?_)
      fun _ => Prog.uses_ret
    exact Prog.uses_bind (Prog.uses_call trivial fun _ => Prog.uses_ofExcept) fun _ => Prog.uses_ofExcept
  | createMapping | deleteMapping | enableMapping | disableMapping | reconcile => exact absurd h id
  | ociAllocate | ociRelease | ociNsgAdd | ociNsgRemove => exact absurd h id

/-! ## Routes -/

/-- The value of an extractor that a handler is called with. -/
theorem map_ok {β γ : Type} {x : Except Rejection β} {f : β → γ} {c : γ} (h : x.map f = .ok c) : ∃ b, f b = c := by
  cases x with
  | ok b => exact ⟨b, Except.ok.inj h⟩
  | error e => cases h

/-- The handlers that `get(..)` names only read. -/
theorem reads_of_get {methods : MethodRouter} (h : routes X request request.path = some methods)
    (hc : methods.get = some (.ok call)) : call.IsRead := by
  unfold routes at h
  repeat' split at h
  all_goals cases h
  all_goals first | (obtain rfl := Except.ok.inj (Option.some.inj hc); trivial) | skip
  all_goals first | (obtain ⟨b, rfl⟩ := map_ok (Option.some.inj hc); trivial) | cases hc

theorem reads_of_route (hm : request.method = .get ∨ request.method = .head) (h : route X request = .ok call) :
    call.IsRead := by
  unfold route at h
  split at h
  · cases h
  rename_i methods hroutes
  have hget : methods.find request.method = methods.get := by
    rcases hm with hm | hm <;> rw [hm] <;> rfl
  rw [hget] at h
  cases hx : methods.get with
  | none => rw [hx] at h; cases h
  | some x =>
    rw [hx] at h
    exact reads_of_get hroutes (hx.trans (congrArg some h))

/-- **A GET or HEAD request changes nothing**: among whatever other calls it runs, each of its steps is a read, and
leaves the world as it is. -/
theorem safe_methods (hm : request.method = .get ∨ request.method = .head) {calls pool : ℕ → ApiProg ApiResponse}
    {w₀ : AgentWorld} {tr : List (ℕ × Event AgentSig)} {i : ℕ} (hi : calls i = serve C J N X config request)
    (hr : Reach (agentEnv J) calls w₀ tr pool w) :
    ∀ e, (i, e) ∈ tr → e.op.IsRead ∧ ∀ v v', agentEnv J v e.op e.reply v' → v' = v := by
  have huses : (serve C J N X config request).Uses AgentOp.IsRead :=
    Prog.uses_ofExcept_bind fun call hcall => reads_api (reads_of_route hm (except_mapError_ok.1 hcall))
  rw [← hi] at huses
  intro e he
  have hread := (hr.uses huses).2 e he
  exact ⟨hread, fun v v' hE => reads_step hread hE⟩

/-- `GET /v1/status`, up to its one statement. -/
theorem safe_methods_status : ∃ tr pool w, Reach (agentEnv sampleOciJson)
      (fun _ => serve sampleCodec sampleOciJson sampleNetbird bareExtractors sampleConfig bareRequest) emptyAgent
      tr pool w ∧
    tr.length = 1 ∧ ∀ e, (0, e) ∈ tr → e.op.IsRead := by
  let calls : ℕ → ApiProg ApiResponse := fun _ =>
    serve sampleCodec sampleOciJson sampleNetbird bareExtractors sampleConfig bareRequest
  have hreach := steps_reach agentAnswer_env [0] ([], calls, emptyAgent) .init
  refine ⟨_, _, _, hreach, rfl, fun e he => ?_⟩
  have hget : bareRequest.method = .get := rfl
  exact (safe_methods (.inl hget) (i := 0) rfl hreach e he).1

end EdgeRoute
