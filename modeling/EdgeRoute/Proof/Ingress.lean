import EdgeRoute.Proof.Agent

/-!
# What an ingress rule admits

`oci_nsg_add` takes port bounds for every protocol, and puts them in the rule for two.

* `ociNsgAdd_asks`: the one command of the handler carries the rule of the request.
* `neverWider_iff`: which rules admit no port but those asked for.
* `nsg_add_narrow_iff`: **the rule is never wider than the request exactly where no bound is given, or the bounds are
  in order and the protocol is TCP or UDP or the range is all ports.**
-/

namespace EdgeRoute

open Effect

/-! ## Ports -/

/-- A packet to the port may pass, if its protocol is the rule's. Options count for their own protocol only. -/
def NsgRuleCli.AdmitsPort (rule : NsgRuleCli) (port : UInt16) : Prop :=
  (rule.protocol = "6" → ∀ o ∈ rule.tcpOptions, o.destinationPortRange.min ≤ port ∧ port ≤ o.destinationPortRange.max) ∧
  (rule.protocol = "17" → ∀ o ∈ rule.udpOptions, o.destinationPortRange.min ≤ port ∧ port ≤ o.destinationPortRange.max)

namespace OciNsgAddRequest

variable (request : OciNsgAddRequest)

/-- The lower bound that is asked for. One bound alone is a single port. -/
def lower : Option UInt16 := request.portMin.or request.portMax

def upper : Option UInt16 := request.portMax.or request.portMin

/-- The request gives a bound. -/
def Bounded : Prop := request.portMin ≠ none ∨ request.portMax ≠ none

/-- The bounds are in order. -/
def Ordered : Prop := ∀ lo ∈ request.lower, ∀ hi ∈ request.upper, lo ≤ hi

/-- The port is in the range that is asked for. -/
def Asks (port : UInt16) : Prop := (∀ lo ∈ request.lower, lo ≤ port) ∧ ∀ hi ∈ request.upper, port ≤ hi

/-- The protocol has ports that a rule can bound. -/
def HasPorts : Prop := asciiLower (Text.trim request.protocol) ∈ ["tcp", "6", "udp", "17"]

/-- The range is all ports. -/
def AllPorts : Prop := request.lower = some 0 ∧ request.upper = some 65535

/-- The range can be expressed in a rule, or none is asked for. -/
def Expressible : Prop := request.Bounded → request.Ordered ∧ (request.HasPorts ∨ request.AllPorts)

/-- **The rule is never wider than the request**: where the request gives a bound, no other port may pass, and the
range is not inverted. -/
def NeverWider (rule : NsgRuleCli) : Prop :=
  request.Bounded → (∀ port, rule.AdmitsPort port → request.Asks port) ∧ request.Ordered

variable {request}

/-- The bounds of a request, and what the handler makes of them. -/
theorem bounds_of_bounded (h : request.Bounded) : ∃ lo hi, request.lower = some lo ∧ request.upper = some hi ∧
    Api.nsgPortOptions request.portMin request.portMax = some ⟨⟨lo, hi⟩⟩ := by
  unfold lower upper
  cases hmin : request.portMin with
  | none =>
    cases hmax : request.portMax with
    | none => exact absurd hmax (h.resolve_left fun hne => hne hmin)
    | some port => exact ⟨port, port, rfl, rfl, rfl⟩
  | some min =>
    cases hmax : request.portMax with
    | none => exact ⟨min, min, rfl, rfl, rfl⟩
    | some max => exact ⟨min, max, rfl, rfl, rfl⟩

theorem asks_iff {lo hi port : UInt16} (hlo : request.lower = some lo) (hhi : request.upper = some hi) :
    request.Asks port ↔ lo ≤ port ∧ port ≤ hi := by
  unfold Asks
  rw [hlo, hhi]
  simp

/-- Every port is asked for in the full range only. -/
theorem forall_asks_iff {lo hi : UInt16} (hlo : request.lower = some lo) (hhi : request.upper = some hi) :
    (∀ port, request.Asks port) ↔ request.AllPorts := by
  have hbounds : (∀ port, request.Asks port) ↔ lo = 0 ∧ hi = 65535 := by
    simp only [asks_iff hlo hhi, UInt16.le_iff_toNat_le, ← UInt16.toNat_inj]
    constructor
    · intro h
      have h0 := (h 0).1
      have h1 := (h 65535).2
      have hlt := hi.toNat_lt
      simp only [UInt16.reduceToNat] at h0 h1 ⊢
      omega
    · intro h port
      have hlt := port.toNat_lt
      simp only [UInt16.reduceToNat] at h
      omega
  rw [hbounds, AllPorts, hlo, hhi, Option.some.injEq, Option.some.injEq]

end OciNsgAddRequest

/-! ## Rules -/

theorem nsgProtocol_tcp {protocol : String} :
    Api.nsgProtocol protocol = "6" ↔ asciiLower (Text.trim protocol) ∈ ["tcp", "6"] := by
  unfold Api.nsgProtocol
  by_cases htcp : asciiLower (Text.trim protocol) = "tcp" ∨ asciiLower (Text.trim protocol) = "6"
  · simp [htcp]
  · simp only [htcp, if_false]
    split
    · simp [htcp]
    · rw [not_or] at htcp
      simp [htcp]

theorem nsgProtocol_udp {protocol : String} :
    Api.nsgProtocol protocol = "17" ↔ asciiLower (Text.trim protocol) ∈ ["udp", "17"] := by
  unfold Api.nsgProtocol
  by_cases htcp : asciiLower (Text.trim protocol) = "tcp" ∨ asciiLower (Text.trim protocol) = "6"
  · simp only [htcp, if_true]
    rcases htcp with htcp | htcp <;> simp [htcp]
  · simp only [htcp, if_false]
    by_cases hudp : asciiLower (Text.trim protocol) = "udp" ∨ asciiLower (Text.trim protocol) = "17"
    · simp [hudp]
    · rw [not_or] at hudp
      simp [hudp]

variable {request : OciNsgAddRequest}

theorem hasPorts_iff : request.HasPorts ↔
    Api.nsgProtocol request.protocol = "6" ∨ Api.nsgProtocol request.protocol = "17" := by
  rw [nsgProtocol_tcp, nsgProtocol_udp]
  unfold OciNsgAddRequest.HasPorts
  simp only [List.mem_cons, List.not_mem_nil, or_false, or_assoc]

theorem protocol_nsgRule : (NsgRuleCli.ingress (Api.nsgRule request)).protocol = Api.nsgProtocol request.protocol := by
  simp only [NsgRuleCli.ingress, Api.nsgRule]

/-- The ports of the rule are those of its own options, if it has any. -/
theorem admitsPort_nsgRule {lo hi port : UInt16}
    (hoptions : Api.nsgPortOptions request.portMin request.portMax = some ⟨⟨lo, hi⟩⟩) :
    (NsgRuleCli.ingress (Api.nsgRule request)).AdmitsPort port ↔ (request.HasPorts → lo ≤ port ∧ port ≤ hi) := by
  have htcp : Api.nsgProtocol request.protocol = "6" →
      (NsgRuleCli.ingress (Api.nsgRule request)).tcpOptions = some ⟨⟨lo, hi⟩⟩ := by
    intro h
    rw [NsgRuleCli.ingress, Api.nsgRule, h, if_pos rfl, hoptions]
  have hudp : Api.nsgProtocol request.protocol = "17" →
      (NsgRuleCli.ingress (Api.nsgRule request)).udpOptions = some ⟨⟨lo, hi⟩⟩ := by
    intro h
    rw [NsgRuleCli.ingress, Api.nsgRule, h, if_pos rfl, hoptions]
  unfold NsgRuleCli.AdmitsPort
  rw [hasPorts_iff, protocol_nsgRule]
  constructor
  · rintro ⟨h6, h17⟩ (h | h)
    · exact h6 h _ (htcp h)
    · exact h17 h _ (hudp h)
  · intro h
    refine ⟨fun h6 o ho => ?_, fun h17 o ho => ?_⟩
    · rw [htcp h6] at ho
      cases ho
      exact h (.inl h6)
    · rw [hudp h17] at ho
      cases ho
      exact h (.inr h17)

/-- **Which rules are never wider than the request.** -/
theorem neverWider_iff : request.NeverWider (.ingress (Api.nsgRule request)) ↔ request.Expressible := by
  refine imp_congr_right fun hbounded => ?_
  obtain ⟨lo, hi, hlo, hhi, hoptions⟩ := OciNsgAddRequest.bounds_of_bounded hbounded
  rw [and_comm]
  refine and_congr_right fun _ => ?_
  simp only [admitsPort_nsgRule hoptions]
  by_cases hports : request.HasPorts
  · simp only [hports, true_imp_iff, true_or, iff_true]
    exact fun port h => (OciNsgAddRequest.asks_iff hlo hhi).2 h
  · simp only [hports, false_imp_iff, false_or, true_imp_iff]
    exact OciNsgAddRequest.forall_asks_iff hlo hhi

/-! ## The handler -/

variable {J : OciJson} {config : EdgeConfig} {headers : HeaderMap} {E : Env AgentSig AgentWorld} {w w' : AgentWorld}
  {tr : List (Event AgentSig)} {x : Except ApiFailure ApiResponse}

/-- The command of the handler carries the rule of the request. -/
theorem ociNsgAdd_asks : (Api.ociNsgAdd J config headers request).Uses fun o => ∃ nsgId json,
    o = AgentOp.oci (.addNsgRules nsgId json) ∧ J.nsgRules [.ingress (Api.nsgRule request)] = .ok json := by
  refine Prog.uses_bind Prog.uses_ofExcept fun _ => Prog.uses_bind Prog.uses_ofExcept fun _ => ?_
  refine Prog.uses_bind Prog.uses_ofExcept fun nsgId => Prog.uses_bind (apiOci_uses ?_) fun _ => Prog.uses_ret
  refine Prog.uses_ofExcept_bind fun json hjson => ?_
  have hencoded : J.nsgRules [.ingress (Api.nsgRule request)] = .ok json := except_mapError_ok.1 hjson
  exact Prog.uses_bind (Prog.uses_call ⟨nsgId, json, rfl, hencoded⟩ fun _ => Prog.uses_ofExcept) fun _ => Prog.uses_ret

/-- **The rule of a call is never wider than its request exactly where the request can be expressed.** -/
theorem nsg_add_narrow_iff {nsgId json : String} {r : Outcome}
    (hr : (Api.ociNsgAdd J config headers request).Run E w tr w' x)
    (hcall : (⟨.oci (.addNsgRules nsgId json), r⟩ : Event AgentSig) ∈ tr) :
    J.nsgRules [.ingress (Api.nsgRule request)] = .ok json ∧
      (request.NeverWider (.ingress (Api.nsgRule request)) ↔ request.Expressible) := by
  obtain ⟨nsgId', json', ho, hjson⟩ := ociNsgAdd_asks.mem hr _ hcall
  cases ho
  exact ⟨hjson, neverWider_iff⟩

/-! ## Two requests -/

/-- A request that opens one port, for a protocol. -/
def openPort (protocol : String) : OciNsgAddRequest where
  nsgId := some "ocid1.nsg.x"
  protocol := protocol
  source := "0.0.0.0/0"
  portMin := some 443
  confirm := "confirm"

/-- The rule that bounds the port, and the rule that bounds nothing. -/
def portRule : NsgRuleCli := ⟨"INGRESS", "6", "0.0.0.0/0", "CIDR_BLOCK", false, some ⟨⟨443, 443⟩⟩, none, none⟩

def wideRule : NsgRuleCli := ⟨"INGRESS", "all", "0.0.0.0/0", "CIDR_BLOCK", false, none, none, none⟩

def portRuleText : String :=
  "[\x7b\"direction\":\"INGRESS\",\"protocol\":\"6\",\"source\":\"0.0.0.0/0\",\"sourceType\":\"CIDR_BLOCK\"," ++
    "\"isStateless\":false,\"tcpOptions\":\x7b\"destinationPortRange\":\x7b\"min\":443,\"max\":443\x7d\x7d\x7d]"

def wideRuleText : String :=
  "[\x7b\"direction\":\"INGRESS\",\"protocol\":\"all\",\"source\":\"0.0.0.0/0\",\"sourceType\":\"CIDR_BLOCK\"," ++
    "\"isStateless\":false\x7d]"

/-- `serde_json` on these rules. -/
def ingressJson : OciJson :=
  { sampleOciJson with
    nsgRules := fun rules =>
      if rules = [portRule] then .ok portRuleText else if rules = [wideRule] then .ok wideRuleText
      else .error "not a sample" }

theorem ingressJson_env (w : AgentWorld) (o : AgentOp) :
    agentEnv ingressJson w o (agentAnswer w o).1 (agentAnswer w o).2 := agentAnswer_env w o

/-- The event submits the text. -/
def submits (json : String) : Event AgentSig → Bool
  | ⟨.oci (.addNsgRules _ json'), _⟩ => json' = json
  | _ => false

/-- The request, answered by a world without failures of its own. -/
def openPortRun (protocol : String) : List (Event AgentSig) × AgentWorld × Except ApiFailure ApiResponse :=
  (Api.ociNsgAdd ingressJson sampleConfig [] (openPort protocol)).eval agentAnswer emptyAgent

theorem openPortRun_submits {protocol json : String} (h : (openPortRun protocol).1.any (submits json) = true) :
    ∃ tr w' x nsgId r, (Api.ociNsgAdd ingressJson sampleConfig [] (openPort protocol)).Run (agentEnv ingressJson)
      emptyAgent tr w' x ∧ (⟨.oci (.addNsgRules nsgId json), r⟩ : Event AgentSig) ∈ tr := by
  obtain ⟨e, he, hsubmits⟩ := List.any_eq_true.1 h
  have hr : (Api.ociNsgAdd ingressJson sampleConfig [] (openPort protocol)).Run (agentEnv ingressJson) emptyAgent
      (openPortRun protocol).1 (openPortRun protocol).2.1 (openPortRun protocol).2.2 := by
    unfold openPortRun
    exact eval_run ingressJson_env _ _
  unfold submits at hsubmits
  split at hsubmits
  · obtain rfl := of_decide_eq_true hsubmits
    exact ⟨_, _, _, _, _, hr, he⟩
  · cases hsubmits

/-- **A TCP port is opened, and no other.** -/
theorem nsg_add_narrow_tcp : ∃ tr w' x nsgId json r,
    (Api.ociNsgAdd ingressJson sampleConfig [] (openPort "TCP")).Run (agentEnv ingressJson) emptyAgent tr w' x ∧
      (⟨.oci (.addNsgRules nsgId json), r⟩ : Event AgentSig) ∈ tr ∧
      (openPort "TCP").NeverWider (.ingress (Api.nsgRule (openPort "TCP"))) := by
  have hsubmits : (openPortRun "TCP").1.any (submits portRuleText) = true := by decide +kernel
  obtain ⟨tr, w', x, nsgId, r, hr, hcall⟩ := openPortRun_submits hsubmits
  refine ⟨tr, w', x, nsgId, portRuleText, r, hr, hcall, (nsg_add_narrow_iff hr hcall).2.2 fun _ => ⟨?_, .inl ?_⟩⟩
  · intro lo hlo hi hhi
    cases hlo
    cases hhi
    exact UInt16.le_refl 443
  · have htext : asciiLower (Text.trim "TCP") = "tcp" := by decide +kernel
    change asciiLower (Text.trim "TCP") ∈ _
    rw [htext]
    exact List.mem_cons_self

/-- **With protocol `all` the bound is dropped**: the request asks for one port, and the rule that is submitted lets
every port pass. -/
theorem nsg_add_opens_all : ∃ tr w' x nsgId json r,
    (Api.ociNsgAdd ingressJson sampleConfig [] (openPort "all")).Run (agentEnv ingressJson) emptyAgent tr w' x ∧
      (⟨.oci (.addNsgRules nsgId json), r⟩ : Event AgentSig) ∈ tr ∧ ingressJson.nsgRules [wideRule] = .ok json ∧
      (∀ port, wideRule.AdmitsPort port) ∧ ¬ (openPort "all").NeverWider wideRule := by
  have hfacts : (openPortRun "all").1.any (submits wideRuleText) = true ∧
      ingressJson.nsgRules [wideRule] = .ok wideRuleText := by decide +kernel
  obtain ⟨tr, w', x, nsgId, r, hr, hcall⟩ := openPortRun_submits hfacts.1
  have hall : ∀ port, wideRule.AdmitsPort port := by
    intro port
    exact ⟨fun h => absurd h (by decide), fun h => absurd h (by decide)⟩
  refine ⟨tr, w', x, nsgId, wideRuleText, r, hr, hcall, hfacts.2, hall, fun hnever => ?_⟩
  -- port 80 is not the port that was asked for
  have hbounded : (openPort "all").Bounded := .inl (by decide)
  have hasks := ((hnever hbounded).1 80 (hall 80)).1 443 rfl
  exact absurd hasks (by decide)

end EdgeRoute
