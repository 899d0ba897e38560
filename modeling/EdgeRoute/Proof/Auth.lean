import EdgeRoute.Proof.Agent
import Mathlib.Data.Nat.Bitwise

/-!
# Authentication

There is no middleware: each handler checks the token itself.

* `constantTimeEq_iff`: the padded comparison is equality.
* `requireAuth_ok`: the verdict on a request.
* `auth_covers_api`: **without the token every request is answered with an error and nothing is asked of the
  world; with it no handler answers that the request is unauthorized.**
-/

namespace EdgeRoute

open Effect

/-! ## Comparing tokens -/

section Compare

variable {left right : List UInt8}

theorem constantTimeDiff_eq_zero {diff : ℕ} {indices : List ℕ} :
    constantTimeDiff left right diff indices = 0 ↔
      diff = 0 ∧ ∀ idx ∈ indices, left.getD idx 0 = right.getD idx 0 := by
  induction indices generalizing diff with
  | nil => simp [constantTimeDiff]
  | cons idx indices ih =>
    have hstep : constantTimeDiff left right diff (idx :: indices) =
        constantTimeDiff left right (diff ||| (left.getD idx 0 ^^^ right.getD idx 0).toNat) indices := rfl
    have hbyte : (left.getD idx 0 ^^^ right.getD idx 0).toNat = 0 ↔ left.getD idx 0 = right.getD idx 0 := by
      rw [UInt8.toNat_xor]
      exact Nat.xor_eq_zero_iff.trans UInt8.toNat_inj
    rw [hstep, ih, Nat.or_eq_zero_iff, hbyte, List.forall_mem_cons, and_assoc]

/-- **The comparison is equality**: a padded string differs from the shorter one in its length. -/
theorem constantTimeEq_iff : constantTimeEq left right = true ↔ left = right := by
  rw [constantTimeEq, beq_iff_eq, constantTimeDiff_eq_zero, Nat.xor_eq_zero_iff]
  constructor
  · rintro ⟨hlen, hbytes⟩
    refine List.ext_getElem hlen fun idx hl hr => ?_
    have := hbytes idx (by simp; omega)
    rwa [List.getD_eq_getElem _ _ hl, List.getD_eq_getElem _ _ hr] at this
  · rintro rfl
    exact ⟨rfl, fun _ _ => rfl⟩

end Compare

/-! ## The verdict -/

variable {C : Codec} {J : OciJson} {N : String → Except String NetbirdStatus} {X : Extractors}
  {config : EdgeConfig} {headers : HeaderMap} {token : String}

/-- The first Authorization header is the visible text `Bearer ` and the bytes of the token. -/
def Authorized (headers : HeaderMap) (token : String) : Prop :=
  ∃ value, headers.get "authorization" = some value ∧ (∀ b ∈ value, isVisibleAscii b = true) ∧
    value = asBytes "Bearer " ++ asBytes token

theorem stripBytes_some {pre value rest : List UInt8} : stripBytes pre value = some rest ↔ value = pre ++ rest := by
  unfold stripBytes
  split
  · rename_i h
    obtain ⟨t, rfl⟩ := List.isPrefixOf_iff_prefix.1 h
    simp
  · rename_i h
    constructor
    · intro h'; cases h'
    · rintro rfl
      exact absurd (List.isPrefixOf_iff_prefix.2 (List.prefix_append pre rest)) h

theorem bearer_some {actual : List UInt8} :
    ((headers.get "authorization").bind headerToStr).bind (stripBytes (asBytes "Bearer ")) = some actual ↔
      ∃ value, headers.get "authorization" = some value ∧ (∀ b ∈ value, isVisibleAscii b = true) ∧
        value = asBytes "Bearer " ++ actual := by
  simp only [Option.bind_eq_some_iff, stripBytes_some, headerToStr, Option.ite_none_right_eq_some, List.all_eq_true,
    Option.some.injEq]
  constructor
  · rintro ⟨text, ⟨value, hget, hvisible, rfl⟩, hvalue⟩
    exact ⟨value, hget, hvisible, hvalue⟩
  · rintro ⟨value, hget, hvisible, hvalue⟩
    exact ⟨value, ⟨value, hget, hvisible, rfl⟩, hvalue⟩

/-- **The verdict.** -/
theorem requireAuth_ok (h : config.apiToken = some token) :
    requireAuth config headers = .ok () ↔ Authorized headers token := by
  rw [requireAuth, h]
  simp only
  constructor
  · intro hok
    split at hok
    · cases hok
    · rename_i actual hactual
      split at hok
      · rename_i heq
        rw [constantTimeEq_iff] at heq
        subst heq
        exact bearer_some.1 hactual
      · cases hok
  · intro hauth
    rw [bearer_some.2 hauth]
    simp only
    rw [if_pos (constantTimeEq_iff.2 rfl)]

theorem requireAuth_error (h : config.apiToken = some token) (hno : ¬ Authorized headers token) :
    ∃ e, requireAuth config headers = .error e := by
  cases hx : requireAuth config headers with
  | ok u => exact absurd ((requireAuth_ok h).1 hx) hno
  | error e => exact ⟨e, rfl⟩

/-! ## Handlers -/

/-- **Every handler checks the token first.** -/
theorem prog_checks_first (call : ApiCall) : ∃ rest : Unit → ApiProg ApiResponse,
    call.prog C J N config headers = (Prog.ofExcept (requireAuth config headers)).bind rest := by
  cases call <;> exact ⟨_, rfl⟩

/-- An answer other than that the request is unauthorized. -/
def ApiFailure.NotAuth : ApiFailure → Prop
  | .error e => e.status ≠ .unauthorized
  | _ => True

theorem notAuth_ofCore (e : EdgeCoreError) : (ApiFailure.ofCore e).NotAuth := by
  cases e <;> exact StatusCode.noConfusion

theorem notAuth_fromReconcile (e : ReconcileError) : (ApiFailure.fromReconcile e).NotAuth := by
  cases e <;> first | exact StatusCode.noConfusion | trivial

theorem notAuth_ofRender (e : RenderFault) : (ApiFailure.ofRender e).NotAuth := by
  cases e with
  | err e => exact notAuth_ofCore e
  | panic message => trivial

section Errs

variable {α : Type}

/-- The program never answers that the request is unauthorized. -/
abbrev NeverAuth (p : ApiProg α) : Prop := p.Errs ApiFailure.NotAuth

theorem neverAuth_store {p : StoreProg α} : NeverAuth (Api.store p) := Prog.errs_mapErr notAuth_ofCore

theorem neverAuth_oci {p : OciProg α} : NeverAuth (Api.oci p) :=
  Prog.errs_mapErr fun _ => StatusCode.noConfusion

theorem neverAuth_mappingId {id : String} : NeverAuth (Api.mappingId id) := by
  refine Prog.errs_ofExcept fun e he => ?_
  cases hx : MappingId.fromStr id with
  | ok a => rw [hx] at he; cases he
  | error e' =>
    rw [hx] at he
    cases he
    exact notAuth_ofCore e'

theorem neverAuth_confirm {value expected : String} : NeverAuth (Api.check (requireConfirm value expected)) := by
  refine Prog.errs_ofExcept fun e he => ?_
  unfold requireConfirm at he
  split at he <;> cases he
  exact StatusCode.noConfusion

theorem neverAuth_rejectIf {bad : Bool} {message : String} :
    NeverAuth (Api.check (rejectIf bad (.badRequest message))) := by
  refine Prog.errs_ofExcept fun e he => ?_
  unfold rejectIf at he
  split at he <;> cases he
  exact StatusCode.noConfusion

theorem neverAuth_orBadRequest {value : Option α} {message : String} :
    NeverAuth (Api.check (orBadRequest value message)) := by
  refine Prog.errs_ofExcept fun e he => ?_
  unfold orBadRequest at he
  split at he <;> cases he
  exact StatusCode.noConfusion

theorem neverAuth_deleteIfSome {delete : String → OciProg Unit} {id : Option String} :
    NeverAuth (Api.deleteIfSome delete id) := by
  cases id with
  | some id => exact neverAuth_oci
  | none => exact Prog.errs_ret

theorem neverAuth_deleteIps {publicIpId privateIpId : Option String} :
    NeverAuth (Api.deleteIps publicIpId privateIpId) :=
  Prog.errs_bind neverAuth_deleteIfSome fun _ => neverAuth_deleteIfSome

theorem neverAuth_newMapping {name : String} {publicIp : Option Ipv4Addr} {edgePrivateIp targetIp : Ipv4Addr} :
    NeverAuth (newMapping name publicIp edgePrivateIp targetIp) :=
  Prog.errs_call fun _ => Prog.errs_call fun _ => Prog.errs_ret

theorem neverAuth_markStatus {mapping : Mapping} {status : MappingStatus} : NeverAuth (markStatus mapping status) :=
  Prog.errs_call fun _ => Prog.errs_ret

theorem neverAuth_listEvents {limit : ℤ} : NeverAuth ((listEvents C limit).mapErr ApiFailure.ofCore) :=
  Prog.errs_mapErr notAuth_ofCore

theorem neverAuth_netbirdStatus : NeverAuth ((netbirdStatus N).mapErr ApiFailure.ofNetbird) :=
  Prog.errs_mapErr fun _ => StatusCode.noConfusion

theorem neverAuth_storeAllocation {mapping : Mapping} {allocation : Allocation} :
    NeverAuth (storeAllocation C (fun error _ _ => ApiFailure.ofCore error) mapping allocation) := by
  refine Prog.errs_bind neverAuth_markStatus fun m => Prog.errs_bind Prog.errs_attempt fun x => ?_
  cases x with
  | ok u => exact Prog.errs_ret
  | error e =>
    refine Prog.errs_bind Prog.errs_attempt fun _ => Prog.errs_bind Prog.errs_attempt fun _ => ?_
    exact Prog.errs_fail (notAuth_ofCore e)

theorem neverAuth_auth (h : requireAuth config headers = .ok ()) :
    NeverAuth (Api.check (requireAuth config headers)) := by
  rw [h]
  exact Prog.errs_ret

theorem neverAuth_deleteMapping {id : String} (h : requireAuth config headers = .ok ()) :
    NeverAuth (Api.deleteMapping C config headers id) := by
  refine Prog.errs_bind (neverAuth_auth h) fun _ => ?_
  refine Prog.errs_bind neverAuth_mappingId fun id => Prog.errs_bind neverAuth_store fun _ => ?_
  refine Prog.errs_bind Prog.errs_attempt fun x => ?_
  cases x with
  | ok report => exact Prog.errs_bind neverAuth_store fun _ => Prog.errs_ret
  | error e => exact Prog.errs_bind neverAuth_store fun _ => Prog.errs_fail (notAuth_fromReconcile e)

theorem neverAuth_ociAllocate {request : OciAllocateRequest} (h : requireAuth config headers = .ok ()) :
    NeverAuth (Api.ociAllocate C J config headers request) := by
  refine Prog.errs_bind (neverAuth_auth h) fun _ => ?_
  refine Prog.errs_bind neverAuth_confirm fun _ => Prog.errs_bind neverAuth_mappingId fun id => ?_
  refine Prog.errs_bind neverAuth_store fun m => Prog.errs_bind neverAuth_rejectIf fun _ => ?_
  refine Prog.errs_bind neverAuth_orBadRequest fun _ => Prog.errs_bind neverAuth_orBadRequest fun _ => ?_
  refine Prog.errs_bind neverAuth_oci fun allocation => Prog.errs_bind neverAuth_storeAllocation fun _ => ?_
  exact Prog.errs_bind Prog.errs_attempt fun _ => Prog.errs_ret

theorem neverAuth_ociRelease {request : OciReleaseRequest} (h : requireAuth config headers = .ok ()) :
    NeverAuth (Api.ociRelease C config headers request) := by
  refine Prog.errs_bind (neverAuth_auth h) fun _ => ?_
  refine Prog.errs_bind neverAuth_confirm fun _ => ?_
  cases resolve request.mappingId none with
  | some id =>
    refine Prog.errs_bind neverAuth_mappingId fun id => Prog.errs_bind neverAuth_store fun m => ?_
    refine Prog.errs_bind neverAuth_rejectIf fun _ => Prog.errs_bind neverAuth_deleteIps fun _ => ?_
    refine Prog.errs_bind neverAuth_markStatus fun _ => Prog.errs_bind neverAuth_store fun _ => ?_
    exact Prog.errs_bind Prog.errs_attempt fun _ => Prog.errs_ret
  | none => exact Prog.errs_bind neverAuth_rejectIf fun _ => Prog.errs_bind neverAuth_deleteIps fun _ => Prog.errs_ret

end Errs

/-- **With the token no handler answers that the request is unauthorized.** -/
theorem prog_neverAuth (call : ApiCall) (h : requireAuth config headers = .ok ()) :
    NeverAuth (call.prog C J N config headers) := by
  have hauth := neverAuth_auth h
  cases call with
  | deleteMapping id => exact neverAuth_deleteMapping h
  | ociAllocate request => exact neverAuth_ociAllocate h
  | ociRelease request => exact neverAuth_ociRelease h
  | status | listMappings | topology =>
    exact Prog.errs_bind hauth fun _ => Prog.errs_bind neverAuth_store fun _ => Prog.errs_ret
  | createMapping request =>
    refine Prog.errs_bind hauth fun _ => Prog.errs_bind neverAuth_newMapping fun _ => ?_
    exact Prog.errs_bind neverAuth_store fun _ => Prog.errs_ret
  | getMapping id | enableMapping id | disableMapping id =>
    refine Prog.errs_bind hauth fun _ => Prog.errs_bind neverAuth_mappingId fun _ => ?_
    exact Prog.errs_bind neverAuth_store fun _ => Prog.errs_ret
  | dryRunApply =>
    refine Prog.errs_bind hauth fun _ => Prog.errs_bind neverAuth_store fun mappings => ?_
    refine Prog.errs_bind (Prog.errs_ofExcept fun e he => ?_) fun _ => Prog.errs_ret
    cases hx : renderNftables mappings config {} with
    | ok text => rw [hx] at he; cases he
    | error fault => rw [hx] at he; cases he; exact notAuth_ofRender fault
  | reconcile request =>
    exact Prog.errs_bind hauth fun _ => Prog.errs_bind (Prog.errs_mapErr notAuth_fromReconcile) fun _ => Prog.errs_ret
  | netbirdStatus | netbirdNetworks =>
    exact Prog.errs_bind hauth fun _ => Prog.errs_bind neverAuth_netbirdStatus fun _ => Prog.errs_ret
  | events => exact Prog.errs_bind hauth fun _ => Prog.errs_bind neverAuth_listEvents fun _ => Prog.errs_ret
  | analytics =>
    refine Prog.errs_bind hauth fun _ => Prog.errs_bind neverAuth_store fun _ => ?_
    exact Prog.errs_bind neverAuth_listEvents fun _ => Prog.errs_ret
  | ociStatus =>
    refine Prog.errs_bind hauth fun _ => Prog.errs_bind Prog.errs_attempt fun _ => ?_
    have henv : ∀ name, NeverAuth (envVarSet name) := fun _ => Prog.errs_call fun _ => Prog.errs_ret
    refine Prog.errs_bind (henv _) fun _ => Prog.errs_bind (henv _) fun _ => ?_
    exact Prog.errs_bind (henv _) fun _ => Prog.errs_bind (henv _) fun _ => Prog.errs_ret
  | ociVnicCheck id | ociPublicIps id =>
    refine Prog.errs_bind hauth fun _ => Prog.errs_bind neverAuth_orBadRequest fun _ => ?_
    exact Prog.errs_bind neverAuth_oci fun _ => Prog.errs_ret
  | ociNsgAdd request =>
    refine Prog.errs_bind hauth fun _ => Prog.errs_bind neverAuth_confirm fun _ => ?_
    exact Prog.errs_bind neverAuth_orBadRequest fun _ => Prog.errs_bind neverAuth_oci fun _ => Prog.errs_ret
  | ociNsgRemove request =>
    refine Prog.errs_bind hauth fun _ => Prog.errs_bind neverAuth_confirm fun _ => ?_
    refine Prog.errs_bind neverAuth_orBadRequest fun _ => Prog.errs_bind neverAuth_rejectIf fun _ => ?_
    exact Prog.errs_bind neverAuth_oci fun _ => Prog.errs_ret

/-- **Authentication covers the API.** Whatever the world is and answers: without the token a request is answered
with an error and nothing is asked of the world; with it no handler answers that it is unauthorized. -/
theorem auth_covers_api {σ : Type} {E : Env AgentSig σ} {request : HttpRequest} {s s' : σ}
    {tr : List (Event AgentSig)} {x : Except ApiFailure ApiResponse} (h : config.apiToken = some token)
    (hr : (serve C J N X config request).Run E s tr s' x) :
    (¬ Authorized request.headers token → (∃ e, x = .error e) ∧ tr = [] ∧ s' = s) ∧
    (Authorized request.headers token → ∀ e, x = .error (.error e) → e.status ≠ .unauthorized) := by
  cases hroute : route X request with
  | error r =>
    rw [serve, hroute] at hr
    obtain ⟨rfl, rfl, rfl⟩ := Prog.run_fail.1 hr
    exact ⟨fun _ => ⟨⟨_, rfl⟩, rfl, rfl⟩, fun _ e he => nomatch he⟩
  | ok call =>
    rw [serve, hroute] at hr
    change (call.prog C J N config request.headers).Run E s tr s' x at hr
    constructor
    · intro hno
      obtain ⟨rest, hrest⟩ : ∃ rest, call.prog C J N config request.headers =
          (Prog.ofExcept (requireAuth config request.headers)).bind rest := prog_checks_first call
      obtain ⟨e, he⟩ := requireAuth_error h hno
      rw [hrest, he] at hr
      obtain ⟨rfl, rfl, rfl⟩ := Prog.run_fail.1 hr
      exact ⟨⟨e, rfl⟩, rfl, rfl⟩
    · rintro hauth e rfl
      exact (prog_neverAuth call ((requireAuth_ok h).2 hauth)).of_run hr

/-- `GET /v1/status` without headers. -/
def bareRequest : HttpRequest := ⟨.get, ["v1", "status"], "", [], []⟩

/-- The extractors where a body is missing. -/
def bareExtractors : Extractors where
  path id := .ok id
  vnicQuery _ := .ok none
  compartmentQuery _ := .ok none
  createMapping _ := .error ⟨415, "Expected request with `Content-Type: application/json`"⟩
  reconcile _ := .error ⟨415, "Expected request with `Content-Type: application/json`"⟩
  allocate _ := .error ⟨415, "Expected request with `Content-Type: application/json`"⟩
  release _ := .error ⟨415, "Expected request with `Content-Type: application/json`"⟩
  nsgAdd _ := .error ⟨415, "Expected request with `Content-Type: application/json`"⟩
  nsgRemove _ := .error ⟨415, "Expected request with `Content-Type: application/json`"⟩

def guardedConfig : EdgeConfig := { sampleConfig with apiToken := some "secret" }

/-- A request without the header, to an agent with a token. -/
theorem auth_covers_api_bare : ∃ (w : AgentWorld) (x : Except ApiFailure ApiResponse),
    guardedConfig.apiToken = some "secret" ∧
    (serve sampleCodec sampleOciJson (fun _ => .error "no status") bareExtractors guardedConfig bareRequest).Run
      (agentEnv sampleOciJson) w [] w x ∧ ∃ e, x = .error e := by
  have hr : (serve sampleCodec sampleOciJson (fun _ => .error "no status") bareExtractors guardedConfig
      bareRequest).Run (agentEnv sampleOciJson) ⟨emptyHost, ⟨[], [], []⟩⟩ [] ⟨emptyHost, ⟨[], [], []⟩⟩
      (.error (.error .unauthorized)) := Prog.run_fail.2 ⟨rfl, rfl, rfl⟩
  have hno : ¬ Authorized bareRequest.headers "secret" := fun h => nomatch h
  exact ⟨_, _, rfl, hr, ((auth_covers_api rfl hr).1 hno).1⟩

end EdgeRoute
