import EdgeRoute.Proof.Reading

/-!
# What the rendered ruleset means

* `prerouting_iff`: the prerouting chain sends a packet somewhere exactly when some mapping
  of the list is for it, and there.
* `rendered_means`: **the emitted text means the mapping list**, in whatever order the list is.
-/

namespace EdgeRoute

open Effect

variable {m m' : Mapping} {c : EdgeConfig} {rc : NftRenderConfig} {ms ms' : List Mapping} {p : Nft.Packet}
  {d : Ipv4Addr × UInt16}

/-! ## Mappings and packets -/

/-- The packet is for the port forward. -/
def Forwards (c : EdgeConfig) (p : Nft.Packet) (m : Mapping) : Prop :=
  isNftPortForward m = true ∧ p.iifname = c.wanInterface ∧ p.daddr = m.edgePrivateIp ∧
    m.protocol.l4 = some p.l4 ∧ m.publicPort = some p.dport

/-- The packet is for the one-to-one mapping. -/
def Owns (p : Nft.Packet) (m : Mapping) : Prop := isNftOneToOne m = true ∧ p.daddr = m.edgePrivateIp

instance : Decidable (Forwards c p m) := inferInstanceAs (Decidable (_ ∧ _))

instance : Decidable (Owns p m) := inferInstanceAs (Decidable (_ ∧ _))

/-- The mapping wants the packet sent to `d`: a port forward has a port of its own, a one-to-one
mapping keeps the port of the packet. -/
def SendsTo (c : EdgeConfig) (p : Nft.Packet) (m : Mapping) (d : Ipv4Addr × UInt16) : Prop :=
  (Forwards c p m ∧ m.targetPort = some d.2 ∧ m.targetIp = d.1) ∨ (Owns p m ∧ d = (m.targetIp, p.dport))

/-- **A table means a mapping list.** -/
structure Means (t : Nft.Table) (ms : List Mapping) (c : EdgeConfig) : Prop where
  forwarded : ∀ p, ∀ m ∈ ms, Forwards c p m →
    ∃ port, m.targetPort = some port ∧ t.prerouting p = some (m.targetIp, port)
  owned : ∀ p, (∀ m ∈ ms, ¬ Forwards c p m) → ∀ m ∈ ms, Owns p m →
    t.prerouting p = some (m.targetIp, p.dport)
  untouched : ∀ p, (∀ m ∈ ms, ¬ Forwards c p m ∧ ¬ Owns p m) → t.prerouting p = none
  unique : ∀ p, (ms.filter fun m => Forwards c p m ∨ Owns p m).length ≤ 1
  unshadowed : ∀ p, ∀ rule ∈ t.rulesAt "prerouting", ∀ d, rule.dnatTo t p = some d →
    t.prerouting p = some d
  keys : ∀ map ∈ t.maps, (map.2.map Prod.fst).Nodup
  masqueraded : ∀ p d, t.prerouting p = some d →
    t.masquerades { p with daddr := d.1, dport := d.2, oifname := some c.netbirdInterface } = true

/-! ## The packet picks one mapping -/

theorem l4_injective {pr pr' : Protocol} {l : Nft.L4} (h : pr.l4 = some l) (h' : pr'.l4 = some l) :
    pr = pr' := by
  have := h.trans h'.symm
  cases pr <;> cases pr' <;> first | rfl | cases this

/-- Two mappings for one packet conflict. -/
theorem conflicts_of_same_packet (h : Forwards c p m ∨ Owns p m) (h' : Forwards c p m' ∨ Owns p m') :
    conflicts m m' = true := by
  rcases h with ⟨hf, -, hd, hl, hp⟩ | ⟨hf, hd⟩ <;> rcases h' with ⟨hf', -, hd', hl', hp'⟩ | ⟨hf', hd'⟩
  · obtain ⟨he, -, hm⟩ := isNftPortForward_iff.1 hf
    obtain ⟨he', -, hm'⟩ := isNftPortForward_iff.1 hf'
    simp [conflicts, he, he', hm, hm', ← hd, ← hd', l4_injective hl hl', hp, hp']
  · obtain ⟨he, -, hm⟩ := isNftPortForward_iff.1 hf
    obtain ⟨he', -, hm'⟩ := isNftOneToOne_iff.1 hf'
    simp [conflicts, he, he', hm, hm', ← hd, ← hd']
  · obtain ⟨he, -, hm⟩ := isNftOneToOne_iff.1 hf
    obtain ⟨he', -, hm'⟩ := isNftPortForward_iff.1 hf'
    simp [conflicts, he, he', hm, hm', ← hd, ← hd']
  · obtain ⟨he, -, hm⟩ := isNftOneToOne_iff.1 hf
    obtain ⟨he', -, hm'⟩ := isNftOneToOne_iff.1 hf'
    simp [conflicts, he, he', hm, hm', ← hd, ← hd']

section Valid

variable (h : validateMappings ms c = .ok ())

include h

theorem eq_of_same_packet (hm : m ∈ ms) (hm' : m' ∈ ms) (hp : Forwards c p m ∨ Owns p m)
    (hp' : Forwards c p m' ∨ Owns p m') : m = m' := by
  by_contra hne
  have hc := (admissible_of_ne h hm hm' hne).1
  rw [conflicts_of_same_packet hp hp'] at hc
  cases hc

/-- At most one place of the list holds a mapping for the packet. -/
theorem length_filter_le (p : Nft.Packet) : (ms.filter fun m => Forwards c p m ∨ Owns p m).length ≤ 1 := by
  have hpair := (validateMappings_ok.1 h).2.sublist (List.filter_sublist (p := fun m =>
    decide (Forwards c p m ∨ Owns p m)))
  have hall : ∀ m ∈ ms.filter fun m => Forwards c p m ∨ Owns p m, Forwards c p m ∨ Owns p m :=
    fun m hm => by simpa using (List.mem_filter.1 hm).2
  match hl : ms.filter fun m => Forwards c p m ∨ Owns p m with
  | [] => simp
  | [m] => simp
  | m :: m' :: rest =>
    rw [hl] at hpair hall
    have hadm : Admissible m m' := (List.pairwise_cons.1 hpair).1 m' (by simp)
    have hc := conflicts_of_same_packet (hall m (by simp)) (hall m' (by simp))
    rw [hadm.1] at hc
    cases hc

theorem sendsTo_unique {d' : Ipv4Addr × UInt16} (hm : m ∈ ms) (hm' : m' ∈ ms) (hs : SendsTo c p m d)
    (hs' : SendsTo c p m' d') : d = d' := by
  have heq : m = m' := eq_of_same_packet h hm hm' (hs.imp (·.1) (·.1)) (hs'.imp (·.1) (·.1))
  subst heq
  rcases hs with ⟨hf, ht, hi⟩ | ⟨ho, hd⟩ <;> rcases hs' with ⟨hf', ht', hi'⟩ | ⟨ho', hd'⟩
  · exact Prod.ext (hi.symm.trans hi') (Option.some.inj (ht.symm.trans ht'))
  · have := (isNftPortForward_iff.1 hf.1).2.2.symm.trans (isNftOneToOne_iff.1 ho'.1).2.2
    cases this
  · have := (isNftPortForward_iff.1 hf'.1).2.2.symm.trans (isNftOneToOne_iff.1 ho.1).2.2
    cases this
  · exact hd.trans hd'.symm

end Valid

/-! ## The chains -/

theorem contains_host {ip x : Ipv4Addr} : (⟨ip, 32, le_rfl⟩ : Ipv4Net).contains x = true ↔ x = ip := by
  rw [Ipv4Net.contains_iff]
  simp only [Ipv4Net.size, Nat.sub_self, pow_zero, Nat.div_one]
  exact ⟨Ipv4Addr.toNat_injective, congrArg _⟩

/-- The rule of a port forward sends its packets to its target. -/
theorem dnatTo_forwardRule {t : Nft.Table} {rule : Nft.Rule} (hf : isNftPortForward m = true)
    (hr : forwardRule c.wanInterface m = some rule) :
    rule.dnatTo t p = some d ↔ Forwards c p m ∧ m.targetPort = some d.2 ∧ m.targetIp = d.1 := by
  unfold forwardRule at hr
  split at hr
  · rename_i l4 port target hl hp ht
    cases hr
    have hguards : ([Nft.Match.iifname c.wanInterface, .daddr ⟨m.edgePrivateIp, 32, le_rfl⟩,
        .dport l4 port].all (Nft.Match.holds p)) = true ↔ Forwards c p m := by
      simp only [List.all_cons, List.all_nil, Bool.and_true, Bool.and_eq_true, Nft.Match.holds,
        contains_host, beq_iff_eq, Forwards, hf, true_and, hl, hp, Option.some.injEq]
      constructor
      · rintro ⟨h1, h2, h3, h4⟩; exact ⟨h1, h2, h3.symm, h4.symm⟩
      · rintro ⟨h1, h2, h3, h4⟩; exact ⟨h1, h2, h3.symm, h4.symm⟩
    simp only [Nft.Rule.dnatTo, hguards]
    split
    · rename_i hfw
      simp only [hfw, true_and, ht, Option.some.injEq]
      exact ⟨fun hd => hd ▸ ⟨rfl, rfl⟩, fun ⟨h1, h2⟩ => Prod.ext h2 h1⟩
    · rename_i hfw
      simp [hfw]
  · cases hr

/-- The map rule sends the packets of the one-to-one mappings to their targets. -/
theorem dnatTo_mapRule : mapRule.dnatTo (intendedTable ms c rc) p = some d →
    ∃ m ∈ ms, Owns p m ∧ d = (m.targetIp, p.dport) := by
  simp only [Nft.Rule.dnatTo, mapRule, List.all_nil, if_true, Nft.Table.lookup, intendedTable,
    List.find?_cons, decide_true, Option.map_eq_some_iff, Option.map_map]
  rintro ⟨e, he, rfl⟩
  obtain ⟨m, hm, rfl⟩ := List.mem_map.1 (List.mem_of_find?_eq_some he)
  obtain ⟨hm, hf⟩ := List.mem_filter.1 hm
  have hkey : m.edgePrivateIp = p.daddr := by
    have := List.find?_some he
    exact of_decide_eq_true this
  exact ⟨m, hm, ⟨hf, hkey.symm⟩, rfl⟩

theorem dnatTo_mapRule_isSome (hm : m ∈ ms) (ho : Owns p m) :
    (mapRule.dnatTo (intendedTable ms c rc) p).isSome = true := by
  simp only [Nft.Rule.dnatTo, mapRule, List.all_nil, if_true, Nft.Table.lookup, intendedTable,
    List.find?_cons, decide_true, Option.isSome_map, List.find?_isSome]
  exact ⟨mapElement m, List.mem_map.2 ⟨m, List.mem_filter.2 ⟨hm, ho.1⟩, rfl⟩, by simp [mapElement, ho.2]⟩

theorem rulesAt_prerouting : (intendedTable ms c rc).rulesAt "prerouting" =
    (ms.filter isNftPortForward).filterMap (forwardRule c.wanInterface) ++ [mapRule] := by
  simp [Nft.Table.rulesAt, intendedTable]

theorem rulesAt_postrouting : (intendedTable ms c rc).rulesAt "postrouting" =
    c.targetCidrs.map (masqueradeRule c.netbirdInterface) := by
  simp [Nft.Table.rulesAt, intendedTable]

/-- Every rule of the prerouting chain speaks for a mapping. -/
theorem sendsTo_of_rule {rule : Nft.Rule} (hr : rule ∈ (intendedTable ms c rc).rulesAt "prerouting")
    (hd : rule.dnatTo (intendedTable ms c rc) p = some d) : ∃ m ∈ ms, SendsTo c p m d := by
  rw [rulesAt_prerouting, List.mem_append, List.mem_singleton] at hr
  rcases hr with hr | rfl
  · obtain ⟨m, hm, hrule⟩ := List.mem_filterMap.1 hr
    obtain ⟨hm, hf⟩ := List.mem_filter.1 hm
    exact ⟨m, hm, .inl ((dnatTo_forwardRule hf hrule).1 hd)⟩
  · obtain ⟨m, hm, ho⟩ := dnatTo_mapRule hd
    exact ⟨m, hm, .inr ho⟩

section Valid

variable (h : validateMappings ms c = .ok ())

include h

/-- A mapping that a packet is for makes some rule translate it. -/
theorem rule_of_sendsTo (rc : NftRenderConfig) (hm : m ∈ ms) (hs : SendsTo c p m d) :
    ∃ rule ∈ (intendedTable ms c rc).rulesAt "prerouting",
      (rule.dnatTo (intendedTable ms c rc) p).isSome = true := by
  rw [rulesAt_prerouting]
  rcases hs with hs | ⟨ho, -⟩
  · have hf := isNftPortForward_iff.1 hs.1.1
    have hmode := (validateMapping_parts ((validateMappings_ok.1 h).1 m hm)).2.2.2.2.2
    obtain ⟨port, target, hp, -, ht, -, hpr⟩ := portForward_shape hmode hf.2.2
    obtain ⟨rule, hrule⟩ : ∃ rule, forwardRule c.wanInterface m = some rule := by
      unfold forwardRule
      rw [hp, ht]
      cases hproto : m.protocol with
      | all => exact absurd hproto hpr
      | tcp => exact ⟨_, rfl⟩
      | udp => exact ⟨_, rfl⟩
    refine ⟨rule, List.mem_append_left _ (List.mem_filterMap.2 ⟨m, List.mem_filter.2 ⟨hm, hs.1.1⟩, hrule⟩), ?_⟩
    rw [(dnatTo_forwardRule hs.1.1 hrule).2 hs]
    rfl
  · exact ⟨mapRule, by simp, dnatTo_mapRule_isSome hm ho⟩

/-- **The chain sends a packet to `d` exactly when a mapping of the list wants it there.** -/
theorem prerouting_iff : (intendedTable ms c rc).prerouting p = some d ↔ ∃ m ∈ ms, SendsTo c p m d := by
  have sound : ∀ {d}, (intendedTable ms c rc).prerouting p = some d → ∃ m ∈ ms, SendsTo c p m d := by
    intro d hd
    obtain ⟨rule, hr, hd⟩ := List.exists_of_findSome?_eq_some hd
    exact sendsTo_of_rule hr hd
  refine ⟨sound, fun ⟨m, hm, hs⟩ => ?_⟩
  -- some rule translates the packet, and any rule that does agrees with the mapping
  obtain ⟨d', hd'⟩ := Option.isSome_iff_exists.1 
    (List.findSome?_isSome_iff.2 (rule_of_sendsTo h rc hm hs))
  obtain ⟨m', hm', hs'⟩ := sound hd'
  rw [sendsTo_unique h hm hm' hs hs']
  exact hd'

theorem means_intendedTable : Means (intendedTable ms c rc) ms c where
  forwarded p m hm hf := by
    have hmode := (validateMapping_parts ((validateMappings_ok.1 h).1 m hm)).2.2.2.2.2
    obtain ⟨-, port, -, -, ht, -⟩ := portForward_shape hmode (isNftPortForward_iff.1 hf.1).2.2
    exact ⟨port, ht, (prerouting_iff h).2 ⟨m, hm, .inl ⟨hf, ht, rfl⟩⟩⟩
  owned p _ m hm ho := (prerouting_iff h).2 ⟨m, hm, .inr ⟨ho, rfl⟩⟩
  untouched p hno := by
    cases hp : (intendedTable ms c rc).prerouting p with
    | none => rfl
    | some d =>
      obtain ⟨m, hm, hs⟩ := (prerouting_iff h).1 hp
      rcases hs with ⟨hf, -⟩ | ⟨ho, -⟩
      · exact absurd hf (hno m hm).1
      · exact absurd ho (hno m hm).2
  unique := length_filter_le h
  unshadowed p rule hr d hd := (prerouting_iff h).2 (sendsTo_of_rule hr hd)
  keys map hmap := by
    rw [intendedTable, List.mem_singleton] at hmap
    subst hmap
    -- two entries with one key would be two one-to-one mappings on one address
    have hpair : (ms.filter isNftOneToOne).Pairwise Admissible :=
      (validateMappings_ok.1 h).2.sublist List.filter_sublist
    simp only [List.map_map, List.Nodup, List.pairwise_map]
    refine hpair.imp_of_mem fun {m m'} hm hm' hadm heq => ?_
    obtain ⟨he, -, hmode⟩ := isNftOneToOne_iff.1 (List.mem_filter.1 hm).2
    obtain ⟨he', -, hmode'⟩ := isNftOneToOne_iff.1 (List.mem_filter.1 hm').2
    have hedge : m.edgePrivateIp = m'.edgePrivateIp := heq
    have hc := hadm.1
    simp [conflicts, he, he', hmode, hmode', hedge] at hc
  masqueraded p d hd := by
    obtain ⟨m, hm, hs⟩ := (prerouting_iff h).1 hd
    have htarget : m.targetIp = d.1 := by
      rcases hs with ⟨-, -, ht⟩ | ⟨-, ht⟩
      · exact ht
      · rw [ht]
    have hin := containsTarget_of_valid ((validateMappings_ok.1 h).1 m hm)
    obtain ⟨cidr, hcidr, hc⟩ := List.any_eq_true.1 hin
    refine List.any_eq_true.2 ⟨masqueradeRule c.netbirdInterface cidr, ?_, ?_⟩
    · rw [rulesAt_postrouting]; exact List.mem_map.2 ⟨cidr, hcidr, rfl⟩
    · simp [masqueradeRule, Nft.Match.holds, ← htarget, hc]

end Valid

/-! ## The text -/

/-- **The emitted text means the mapping list.** The renderer never panics; and if it returns a
text, this defines one table, in which every packet meets at most one mapping and is sent where that
mapping says, translated packets that leave by the overlay interface are masqueraded, and all this
stays the same for every order of the list. -/
theorem rendered_means :
    (∀ ms c rc message, renderNftables ms c rc ≠ .error (.panic message)) ∧
    ∀ ms c rc text, PlainToken c.wanInterface → PlainToken c.netbirdInterface →
      PlainToken rc.tableName → renderNftables ms c rc = .ok text →
      ∃ t, Nft.read text = some [t] ∧ Means t ms c ∧
        ∀ ms', ms'.Perm ms → ∃ text' t', renderNftables ms' c rc = .ok text' ∧
          Nft.read text' = some [t'] ∧ (∀ p, t'.prerouting p = t.prerouting p) ∧
          ∀ p, t'.masquerades p = t.masquerades p := by
  constructor
  · intro ms c rc message h
    cases hv : validateMappings ms c with
    | error e => simp [renderNftables, hv] at h
    | ok u =>
      obtain ⟨text, htext⟩ := renderNftables_ok rc hv
      rw [htext] at h
      cases h
  · intro ms c rc text hwan hnetbird hname h
    have hv := validateMappings_of_render h
    refine ⟨_, read_renderNftables hwan hnetbird hname h, means_intendedTable hv, fun ms' hperm => ?_⟩
    have hv' := (validateMappings_perm hperm).2 hv
    obtain ⟨text', htext'⟩ := renderNftables_ok rc hv'
    refine ⟨text', _, htext', read_renderNftables hwan hnetbird hname htext', fun p => ?_, fun p => ?_⟩
    · refine Option.ext fun d => ?_
      rw [prerouting_iff hv', prerouting_iff hv]
      simp only [hperm.mem_iff]
    · simp only [Nft.Table.masquerades, rulesAt_postrouting]

/-- Two services of one address: the packet for the first goes to its target. -/
theorem rendered_means_two_services : ∃ text t,
    renderNftables [samplePortForward, sampleDns] sampleConfig {} = .ok text ∧ Nft.read text = some [t] ∧
      t.prerouting ⟨"ens3", none, ⟨10, 0, 0, 101⟩, .tcp, 443⟩ = some (⟨192, 168, 20, 42⟩, 8443) := by
  have hv : validateMappings [samplePortForward, sampleDns] sampleConfig = .ok () := by decide
  obtain ⟨text, htext⟩ := renderNftables_ok {} hv
  obtain ⟨t, hread, hmeans, -⟩ :=
    rendered_means.2 _ _ _ text (by decide) (by decide) (by decide) htext
  obtain ⟨port, hport, hp⟩ := hmeans.forwarded ⟨"ens3", none, ⟨10, 0, 0, 101⟩, .tcp, 443⟩
    samplePortForward (by simp) (by decide)
  cases hport
  exact ⟨text, t, htext, hread, hp⟩

end EdgeRoute
