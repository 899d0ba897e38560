import EdgeRoute.Proof.Validation

/-!
# The spelling of the target networks

`target_cidrs` is a list of addresses with prefix lengths, host bits kept as
written. What is configured is a set of networks; two places of the validation
look at more than that. `validate_edge_config` tests the address as written, and
`validate_target_ip` judges an address by the first network that contains it.

* `validateTargetIp_iff`: where the containing networks agree, they are one judge.
* `spellingProof_iff`: the configs for which the spelling plays no part.
* `spelling_matters`: a spelling that changes the verdict, at each of the two places.
-/

namespace EdgeRoute

open Effect

variable {n n' : Ipv4Net} {ip : Ipv4Addr} {c c' : EdgeConfig} {l l' : List Ipv4Net}

/-- The network a CIDR stands for, its host bits masked. -/
def Ipv4Net.masked (n : Ipv4Net) : Ipv4Addr × ℕ := (n.network, n.prefixLen)

/-- The lists spell the same set of networks. -/
def SameMasked (l l' : List Ipv4Net) : Prop := ∀ x, x ∈ l.map Ipv4Net.masked ↔ x ∈ l'.map Ipv4Net.masked

/-- The configs differ only in how their target networks are spelled. -/
def SameNetworks (c c' : EdgeConfig) : Prop :=
  c' = { c with targetCidrs := c'.targetCidrs } ∧ SameMasked c.targetCidrs c'.targetCidrs

/-- **The spelling plays no part**: every other spelling gets the same verdicts. -/
def SpellingProof (c : EdgeConfig) : Prop :=
  ∀ c', SameNetworks c c' →
    (validateEdgeConfig c = .ok () ↔ validateEdgeConfig c' = .ok ()) ∧
      ∀ m, validateMapping m c = .ok () ↔ validateMapping m c' = .ok ()

/-! ## One network -/

theorem size_of_masked (h : n.masked = n'.masked) : n.size = n'.size := by
  have hp : n.prefixLen = n'.prefixLen := congrArg Prod.snd h
  rw [Ipv4Net.size, Ipv4Net.size, hp]

theorem network_of_masked (h : n.masked = n'.masked) : n.network = n'.network := congrArg Prod.fst h

theorem broadcast_of_masked (h : n.masked = n'.masked) : n.broadcast = n'.broadcast := by
  apply Ipv4Addr.toNat_injective
  have hnet := congrArg Ipv4Addr.toNat (network_of_masked h)
  rw [Ipv4Net.toNat_network, Ipv4Net.toNat_network] at hnet
  rw [Ipv4Net.toNat_broadcast, Ipv4Net.toNat_broadcast, hnet, size_of_masked h]

theorem contains_of_masked (h : n.masked = n'.masked) : n.contains ip = n'.contains ip := by
  rw [Ipv4Net.contains, Ipv4Net.contains, network_of_masked h, broadcast_of_masked h]

theorem isNetworkOrBroadcast_of_masked (h : n.masked = n'.masked) :
    isNetworkOrBroadcast ip n = isNetworkOrBroadcast ip n' := by
  have hp : n.prefixLen = n'.prefixLen := congrArg Prod.snd h
  rw [isNetworkOrBroadcast, isNetworkOrBroadcast, network_of_masked h, broadcast_of_masked h, hp]

/-! ## The target -/

/-- Two configured networks that contain an address agree whether it is the first
or the last of its network. -/
def Agree (l : List Ipv4Net) : Prop :=
  ∀ n ∈ l, ∀ n' ∈ l, ∀ ip, n.contains ip = true → n'.contains ip = true →
    isNetworkOrBroadcast ip n = isNetworkOrBroadcast ip n'

/-- Where the networks agree, an address is accepted as soon as one of them does. -/
theorem validateTargetIp_iff (h : Agree l) : validateTargetIp ip l = .ok () ↔
    ∃ n ∈ l, n.contains ip = true ∧ isNetworkOrBroadcast ip n = false := by
  unfold validateTargetIp
  split
  · rename_i hnone
    have hout : ∀ n ∈ l, ¬ n.contains ip = true := by simpa using hnone
    refine iff_of_false (by simp) ?_
    intro ⟨n, hn, hc, _⟩
    exact hout n hn hc
  · rename_i first hfirst
    have hmem : first ∈ l := List.mem_of_find?_eq_some hfirst
    have hcon : first.contains ip = true := by simpa using List.find?_some hfirst
    rw [rejectIf_ok]
    constructor
    · intro hf
      exact ⟨first, hmem, hcon, hf⟩
    · intro ⟨n, hn, hc, hf⟩
      rw [h first hmem n hn ip hcon hc, hf]

/-- The first network decides. -/
theorem validateTargetIp_cons (h : n.contains ip = true) :
    validateTargetIp ip (n :: l) = .ok () ↔ isNetworkOrBroadcast ip n = false := by
  have hf : (n :: l).find? (fun cidr => cidr.contains ip) = some n := List.find?_cons_of_pos h
  rw [validateTargetIp, hf]
  exact rejectIf_ok

theorem SameMasked.symm (h : SameMasked l l') : SameMasked l' l := fun x => (h x).symm

theorem SameMasked.mem (h : SameMasked l l') (hn : n ∈ l) : ∃ n' ∈ l', n'.masked = n.masked :=
  List.mem_map.1 ((h n.masked).1 (List.mem_map_of_mem hn))

theorem SameMasked.ne_nil (h : SameMasked l l') (hl : l ≠ []) : l' ≠ [] := by
  obtain ⟨n, hn⟩ := List.exists_mem_of_ne_nil l hl
  obtain ⟨n', hn', -⟩ := h.mem hn
  exact List.ne_nil_of_mem hn'

/-- Moving a network of the list to its front changes the spelling only. -/
theorem SameMasked.cons (hn : n ∈ l) : SameMasked l (n :: l) := by
  intro x
  rw [List.map_cons, List.mem_cons]
  refine ⟨.inr, fun h => h.elim (fun hx => ?_) id⟩
  rw [hx]
  exact List.mem_map_of_mem hn

theorem Agree.of_sameMasked (h : Agree l) (hs : SameMasked l l') : Agree l' := by
  intro n hn n' hn' ip hc hc'
  obtain ⟨a, ha, hma⟩ := hs.symm.mem hn
  obtain ⟨b, hb, hmb⟩ := hs.symm.mem hn'
  rw [← contains_of_masked hma] at hc
  rw [← contains_of_masked hmb] at hc'
  have hab := h a ha b hb ip hc hc'
  rw [← isNetworkOrBroadcast_of_masked hma, hab, isNetworkOrBroadcast_of_masked hmb]

theorem validateTargetIp_sameMasked (h : Agree l) (hs : SameMasked l l') :
    validateTargetIp ip l = .ok () ↔ validateTargetIp ip l' = .ok () := by
  have half : ∀ {k k' : List Ipv4Net}, SameMasked k k' →
      (∃ n ∈ k, n.contains ip = true ∧ isNetworkOrBroadcast ip n = false) →
        ∃ n ∈ k', n.contains ip = true ∧ isNetworkOrBroadcast ip n = false := by
    intro k k' hk ⟨n, hn, hc, hf⟩
    obtain ⟨n', hn', hm⟩ := hk.mem hn
    rw [← contains_of_masked hm] at hc
    rw [← isNetworkOrBroadcast_of_masked hm] at hf
    exact ⟨n', hn', hc, hf⟩
  rw [validateTargetIp_iff h, validateTargetIp_iff (h.of_sameMasked hs)]
  exact ⟨half hs, half hs.symm⟩

/-! ## The config -/

theorem validateCidrs_ok : validateCidrs l = .ok () ↔ ∀ n ∈ l, n.addr.isUnspecified = false := by
  induction l with
  | nil => simp [validateCidrs]
  | cons n l ih => simp only [validateCidrs, except_seq_ok, rejectIf_ok, ih, List.forall_mem_cons]

/-- The two interface names pass. -/
def NamesOk (c : EdgeConfig) : Prop :=
  validateInterfaceName "wan_interface" c.wanInterface = .ok () ∧
    validateInterfaceName "netbird_interface" c.netbirdInterface = .ok ()

theorem validateEdgeConfig_ok : validateEdgeConfig c = .ok () ↔
    NamesOk c ∧ c.targetCidrs ≠ [] ∧ ∀ n ∈ c.targetCidrs, n.addr.isUnspecified = false := by
  unfold validateEdgeConfig NamesOk
  simp only [except_seq_ok, rejectIf_ok, validateCidrs_ok, List.isEmpty_eq_false_iff, and_assoc]

/-! ## Other spellings -/

/-- The network spelled with another of its addresses. -/
def Ipv4Net.spelled (n : Ipv4Net) (ip : Ipv4Addr) : Ipv4Net := ⟨ip, n.prefixLen, n.prefixLen_le⟩

theorem masked_spelled (h : n.contains ip = true) : (n.spelled ip).masked = n.masked := by
  have hsize : (n.spelled ip).size = n.size := rfl
  have hnet : (n.spelled ip).network = n.network := by
    apply Ipv4Addr.toNat_injective
    rw [Ipv4Net.toNat_network, Ipv4Net.toNat_network, hsize]
    exact congrArg (· * n.size) ((n.contains_iff ip).1 h)
  exact Prod.ext hnet rfl

theorem contains_network (n : Ipv4Net) : n.contains n.network = true := by
  rw [Ipv4Net.contains, Bool.and_eq_true, decide_eq_true_eq, decide_eq_true_eq]
  have h1 := n.toNat_network
  have h2 := n.toNat_broadcast
  omega

theorem contains_broadcast (n : Ipv4Net) : n.contains n.broadcast = true := by
  rw [Ipv4Net.contains, Bool.and_eq_true, decide_eq_true_eq, decide_eq_true_eq]
  have h1 := n.toNat_network
  have h2 := n.toNat_broadcast
  omega

theorem sameMasked_map {f : Ipv4Net → Ipv4Net} (h : ∀ n, (f n).masked = n.masked) : SameMasked l (l.map f) := by
  intro x
  have hcomp : Ipv4Net.masked ∘ f = Ipv4Net.masked := funext h
  rw [List.map_map, hcomp]

theorem network_unspecified (h : n.addr.isUnspecified = true) : n.network.isUnspecified = true := by
  rw [Ipv4Addr.isUnspecified, beq_iff_eq] at h ⊢
  rw [Ipv4Net.toNat_network, h, Nat.zero_div, Nat.zero_mul]

/-- A single address has one spelling. -/
theorem addr_unspecified (h : n.network.isUnspecified = true) (hp : n.prefixLen = 32) :
    n.addr.isUnspecified = true := by
  have hsize : n.size = 1 := by rw [Ipv4Net.size, hp]; rfl
  rw [Ipv4Addr.isUnspecified, beq_iff_eq] at h ⊢
  rw [Ipv4Net.toNat_network, hsize] at h
  omega

/-- A network of several addresses ends above `0.0.0.0`. -/
theorem broadcast_specified (h : n.network.isUnspecified = true → n.prefixLen ≠ 32) :
    n.broadcast.isUnspecified = false := by
  have h1 := n.toNat_network
  have h2 := n.toNat_broadcast
  rw [Ipv4Addr.isUnspecified, beq_eq_false_iff_ne]
  intro h0
  have hz : n.network.isUnspecified = true := by
    rw [Ipv4Addr.isUnspecified, beq_iff_eq]
    omega
  have hlt : n.prefixLen < 32 := Nat.lt_of_le_of_ne n.prefixLen_le (h hz)
  have hsize : 1 < n.size := Nat.one_lt_two_pow (by omega)
  omega

/-! ## The verdicts -/

/-- The target check is the only one that looks at the config. -/
theorem validateMapping_target {m : Mapping} (h : validateTargetIp m.targetIp c.targetCidrs = .ok () ↔
    validateTargetIp m.targetIp c'.targetCidrs = .ok ()) :
    validateMapping m c = .ok () ↔ validateMapping m c' = .ok () := by
  unfold validateMapping
  simp only [except_seq_ok, h]

/-- A mapping with the given target and nothing else to object to. -/
def probe (ip : Ipv4Addr) : Mapping :=
  Mapping.new sampleMapping.id sampleTime "vm" none
    (if ip = ⟨10, 0, 0, 1⟩ then ⟨10, 0, 0, 2⟩ else ⟨10, 0, 0, 1⟩) ip

theorem validateMapping_probe : validateMapping (probe ip) c = .ok () ↔
    validateTargetIp ip c.targetCidrs = .ok () := by
  have hedge : validateEdgePrivateIp (probe ip).edgePrivateIp = .ok () ∧
      ((probe ip).edgePrivateIp == (probe ip).targetIp) = false := by
    by_cases h : ip = ⟨10, 0, 0, 1⟩
    · rw [h]; decide
    · have he : (probe ip).edgePrivateIp = ⟨10, 0, 0, 1⟩ := if_neg h
      rw [he, beq_eq_false_iff_ne]
      exact ⟨by decide, fun ht => h ht.symm⟩
  have hname : validateName (probe ip).name = .ok () := by
    change validateName "vm" = .ok ()
    decide
  unfold validateMapping
  simp only [except_seq_ok, rejectIf_ok, hedge, hname]
  simp [probe, Mapping.new, validateOptionalPublicIp, validateBackend, validateMode, except_seq_ok]

/-- **When the spelling plays no part** in the verdict on the config: a name is
refused anyway, or no network starts at `0.0.0.0`, or `0.0.0.0/32` itself is configured. -/
def ZeroSafe (c : EdgeConfig) : Prop :=
  ¬ NamesOk c ∨ (∀ n ∈ c.targetCidrs, n.network.isUnspecified = false) ∨
    ∃ n ∈ c.targetCidrs, n.network.isUnspecified = true ∧ n.prefixLen = 32

theorem namesOk_of_sameNetworks (h : SameNetworks c c') : NamesOk c' ↔ NamesOk c := by
  rw [h.1]
  exact Iff.rfl

theorem sameNetworks_with (h : SameMasked c.targetCidrs l) : SameNetworks c { c with targetCidrs := l } :=
  ⟨rfl, h⟩

/-- A config that is safe in this sense gets one verdict under every spelling. -/
theorem validateEdgeConfig_sameNetworks (hz : ZeroSafe c) (hs : SameNetworks c c') :
    validateEdgeConfig c = .ok () ↔ validateEdgeConfig c' = .ok () := by
  rw [validateEdgeConfig_ok, validateEdgeConfig_ok, namesOk_of_sameNetworks hs]
  have hempty : c.targetCidrs ≠ [] ↔ c'.targetCidrs ≠ [] := ⟨hs.2.ne_nil, hs.2.symm.ne_nil⟩
  rcases hz with hno | hnone | ⟨n, hn, hzero, hp⟩
  · exact iff_of_false (fun h => hno h.1) (fun h => hno h.1)
  · -- no spelling of a network that starts above zero is unspecified
    have hall : ∀ n ∈ c.targetCidrs, n.addr.isUnspecified = false := by
      intro n hn
      by_contra hne
      have := network_unspecified (Bool.not_eq_false _ ▸ hne)
      rw [hnone n hn] at this
      exact Bool.false_ne_true this
    have hall' : ∀ n ∈ c'.targetCidrs, n.addr.isUnspecified = false := by
      intro n' hn'
      obtain ⟨n, hn, hm⟩ := hs.2.symm.mem hn'
      by_contra hne
      have := network_unspecified (Bool.not_eq_false _ ▸ hne)
      rw [← network_of_masked hm, hnone n hn] at this
      exact Bool.false_ne_true this
    rw [hempty]
    exact ⟨fun h => ⟨h.1, h.2.1, hall'⟩, fun h => ⟨h.1, h.2.1, hall⟩⟩
  · -- both lists hold `0.0.0.0/32`
    obtain ⟨n', hn', hm⟩ := hs.2.mem hn
    have h0 : n.addr.isUnspecified = true := addr_unspecified hzero hp
    have h0' : n'.addr.isUnspecified = true := by
      refine addr_unspecified ?_ ((congrArg Prod.snd hm).trans hp)
      rw [network_of_masked hm, hzero]
    refine iff_of_false (fun h => ?_) (fun h => ?_)
    · rw [h.2.2 n hn] at h0
      exact Bool.false_ne_true h0
    · rw [h.2.2 n' hn'] at h0'
      exact Bool.false_ne_true h0'

/-- A config whose verdict could turn on the spelling of a network at `0.0.0.0` has
an accepted and a refused spelling. -/
theorem zeroSafe_of_spellingProof (h : SpellingProof c) : ZeroSafe c := by
  by_contra hz
  unfold ZeroSafe at hz
  push Not at hz
  obtain ⟨hnames, ⟨n, hn, hzero⟩, hwide⟩ := hz
  have hfirst : SameMasked c.targetCidrs (c.targetCidrs.map fun n => n.spelled n.network) :=
    sameMasked_map fun n => masked_spelled (contains_network n)
  have hlast : SameMasked c.targetCidrs (c.targetCidrs.map fun n => n.spelled n.broadcast) :=
    sameMasked_map fun n => masked_spelled (contains_broadcast n)
  have hrefused := (h _ (sameNetworks_with hfirst)).1
  have haccepted := (h _ (sameNetworks_with hlast)).1
  rw [validateEdgeConfig_ok] at hrefused haccepted
  have hok : validateEdgeConfig { c with targetCidrs := c.targetCidrs.map fun n => n.spelled n.broadcast } =
      .ok () := by
    refine validateEdgeConfig_ok.2 ⟨hnames, ?_, ?_⟩
    · exact List.ne_nil_of_mem (List.mem_map_of_mem hn)
    · intro x hx
      obtain ⟨k, hk, rfl⟩ := List.mem_map.1 hx
      exact broadcast_specified (hwide k hk)
  have hbad := validateEdgeConfig_ok.1 (hrefused.1 (haccepted.2 hok))
  have hsp : (n.spelled n.network).addr.isUnspecified = false :=
    hbad.2.2 _ (List.mem_map_of_mem (f := fun n => n.spelled n.network) hn)
  have hsp' : n.network.isUnspecified = false := hsp
  simp [hsp'] at hzero

theorem agree_of_spellingProof (h : SpellingProof c) : Agree c.targetCidrs := by
  intro n hn n' hn' ip hc hc'
  have h1 := (h _ (sameNetworks_with (SameMasked.cons hn))).2 (probe ip)
  have h2 := (h _ (sameNetworks_with (SameMasked.cons hn'))).2 (probe ip)
  have h12 := h1.symm.trans h2
  rw [validateMapping_probe, validateMapping_probe, validateTargetIp_cons hc, validateTargetIp_cons hc'] at h12
  rw [Bool.eq_iff_iff, ← Bool.not_eq_false, ← Bool.not_eq_false, h12]

/-- **Exactly the configs for which only the networks count.** -/
theorem spellingProof_iff (c : EdgeConfig) : SpellingProof c ↔ ZeroSafe c ∧ Agree c.targetCidrs := by
  constructor
  · intro h
    exact ⟨zeroSafe_of_spellingProof h, agree_of_spellingProof h⟩
  · intro ⟨hz, ha⟩ c' hs
    refine ⟨validateEdgeConfig_sameNetworks hz hs, fun m => ?_⟩
    exact validateMapping_target (validateTargetIp_sameMasked ha hs.2)

def zeroNet (d : UInt8) : Ipv4Net := ⟨⟨0, 0, 0, d⟩, 8, by decide⟩

def wideNet : Ipv4Net := ⟨⟨10, 0, 0, 0⟩, 8, by decide⟩

def narrowNet : Ipv4Net := ⟨⟨10, 1, 0, 0⟩, 16, by decide⟩

/-- **The spelling matters** at both places: `0.0.0.0/8` is refused and `0.0.0.1/8`
accepted; `10.1.0.0` may be a target when `10.0.0.0/8` stands before `10.1.0.0/16`,
not after it. -/
theorem spelling_matters :
    (¬ ∀ c c', SameNetworks c c' → (validateEdgeConfig c = .ok () ↔ validateEdgeConfig c' = .ok ())) ∧
    ¬ ∀ c c' m, SameNetworks c c' → (validateMapping m c = .ok () ↔ validateMapping m c' = .ok ()) := by
  constructor
  · intro h
    have hs : SameMasked [zeroNet 0] [zeroNet 1] := by
      intro x
      have : (zeroNet 0).masked = (zeroNet 1).masked := by decide
      rw [List.map_singleton, List.map_singleton, this]
    have := (h { sampleConfig with targetCidrs := [zeroNet 0] } _ (sameNetworks_with hs)).2 (by decide)
    revert this
    decide
  · intro h
    have hs : SameMasked [wideNet, narrowNet] [narrowNet, wideNet] := by
      intro x
      simp [or_comm]
    have := (h { sampleConfig with targetCidrs := [wideNet, narrowNet] } _ (probe ⟨10, 1, 0, 0⟩)
      (sameNetworks_with hs)).1 (by decide)
    revert this
    decide

end EdgeRoute
