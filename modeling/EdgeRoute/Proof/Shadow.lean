import EdgeRoute.Proof.RowCalls

/-!
# Worlds that differ in some addresses

An address that a call creates and deletes again shows to no other call. The world without such addresses gives the
other calls the same answers.

* `createdBy`, `deletedBy`: the address that a command with status zero has created, or deleted.
* `Shadow`, `Apart`: the second cloud, or world, is the first without some addresses.
* `Shadow.replay`, `Apart.replay`: **an operation has the same answer in the second world**, where it creates and
  deletes none of these addresses.
* `Apart.hidden`: what happens to one of them does not show there.
-/

namespace EdgeRoute

open Effect

variable {J : OciJson} {c c' d d' : Cloud} {command : OciCommand} {α : Type}

section Commands

variable {r : Outcome}

/-! ## Addresses -/

/-- An address of the cloud. -/
inductive Address where
  | privateIp (id : String)
  | publicIp (id : String)
deriving DecidableEq

def Address.id : Address → String
  | .privateIp id | .publicIp id => id

namespace Cloud

/-- The address is live. -/
def Has (c : Cloud) : Address → Prop
  | .privateIp id => id ∈ c.privateIps
  | .publicIp id => id ∈ c.publicIps

def add (c : Cloud) : Address → Cloud
  | .privateIp id => c.addPrivate id
  | .publicIp id => c.addPublic id

def drop (c : Cloud) : Address → Cloud
  | .privateIp id => c.dropPrivate id
  | .publicIp id => c.dropPublic id

@[simp] theorem issued_add (a : Address) : (c.add a).issued = a.id :: c.issued := by cases a <;> rfl

@[simp] theorem issued_drop (a : Address) : (c.drop a).issued = c.issued := by cases a <;> rfl

theorem has_add {a b : Address} : (c.add a).Has b ↔ b = a ∨ c.Has b := by
  cases a <;> cases b <;> simp [add, Has, addPrivate, addPublic]

theorem has_drop {a b : Address} : (c.drop a).Has b ↔ c.Has b ∧ b ≠ a := by
  cases a <;> cases b <;> simp [drop, Has, dropPrivate, dropPublic]

end Cloud

/-! ## Commands -/

/-- The address that a create with status zero has made. -/
def createdBy (J : OciJson) : Event AgentSig → Option Address
  | ⟨.oci (.createPrivateIp _ _), .exited output⟩ =>
    if output.isSuccess then (J.privateIp output.stdout).toOption.map fun ip => .privateIp ip.id else none
  | ⟨.oci (.createReservedPublicIp _ _ _), .exited output⟩ =>
    if output.isSuccess then (J.publicIp output.stdout).toOption.map fun ip => .publicIp ip.id else none
  | _ => none

/-- The address that a command is to delete. -/
def OciCommand.deletes : OciCommand → Option Address
  | .deletePrivateIp id => some (.privateIp id)
  | .deletePublicIp id => some (.publicIp id)
  | _ => none

/-- The address that a delete with status zero has deleted. -/
def deletedBy : Event AgentSig → Option Address
  | ⟨.oci command, r⟩ => if r.Succeeded then command.deletes else none
  | _ => none

/-- A command of the cloud came to its end with a status. -/
def Answered : Event AgentSig → Prop
  | ⟨.oci _, r⟩ => r.Succeeded ∨ r.Rejected
  | _ => True

theorem creates_issued {parse : String → Except String α} {ocid : α → String} (mk : String → Address)
    (h : Creates parse ocid c (fun id => c.add (mk id)) r c') : ∀ id ∈ c.issued, id ∈ c'.issued := by
  intro id hid
  rcases h.either with rfl | ⟨new, -, rfl⟩
  · exact hid
  · rw [Cloud.issued_add]
    exact List.mem_cons_of_mem _ hid

/-- What was given out stays given out. -/
theorem issued_mono (h : cloudEnv J c command r c') : ∀ id ∈ c.issued, id ∈ c'.issued := by
  cases command with
  | createPrivateIp vnicId name => exact creates_issued .privateIp h
  | createReservedPublicIp compartmentId privateIpId name => exact creates_issued .publicIp h
  | deletePublicIp id | deletePrivateIp id =>
    intro id hid
    rcases h.either with rfl | ⟨-, rfl⟩ <;> exact hid
  | version | listPublicIps | getVnic | addNsgRules | removeNsgRules =>
    rw [show c' = c from h]
    exact fun _ hid => hid

theorem creates_made {parse : String → Except String α} {ocid : α → String} (mk : String → Address) {a : Address}
    {output : CommandOutput} (h : Creates parse ocid c (fun id => c.add (mk id)) (.exited output) c')
    (hmk : ∀ id, (mk id).id = id)
    (ha : (if output.isSuccess then (parse output.stdout).toOption.map fun ip => mk (ocid ip) else none) = some a) :
    a.id ∉ c.issued ∧ c' = c.add a := by
  split at ha
  · rename_i hs
    obtain ⟨ip, hparse, hnew, rfl⟩ := h.succeeded output rfl hs
    rw [hparse] at ha
    obtain rfl := Option.some.inj ha
    rw [hmk]
    exact ⟨hnew, rfl⟩
  · cases ha

/-- A create with status zero gives out a new address. -/
theorem created_step {a : Address} (h : cloudEnv J c command r c') (ha : createdBy J ⟨.oci command, r⟩ = some a) :
    a.id ∉ c.issued ∧ c' = c.add a := by
  cases command with
  | createPrivateIp vnicId name =>
    cases r with
    | exited output => exact creates_made .privateIp h (fun _ => rfl) ha
    | _ => cases ha
  | createReservedPublicIp compartmentId privateIpId name =>
    cases r with
    | exited output => exact creates_made .publicIp h (fun _ => rfl) ha
    | _ => cases ha
  | _ => cases ha

theorem creates_answered {parse : String → Except String α} {ocid : α → String} (mk : String → Address)
    (h : Creates parse ocid c (fun id => c.add (mk id)) r c') (hr : r.Succeeded ∨ r.Rejected) :
    c' = c ∨ ∃ output ip, r = .exited output ∧ output.isSuccess = true ∧ parse output.stdout = .ok ip ∧
      c' = c.add (mk (ocid ip)) := by
  rcases hr with hr | hr
  · cases r with
    | exited output =>
      obtain ⟨ip, hparse, -, hc⟩ := h.succeeded output rfl hr
      exact .inr ⟨output, ip, rfl, hr, hparse, hc⟩
    | _ => exact absurd hr id
  · exact .inl (h.rejected hr)

/-- A command with a status did what the status says. -/
theorem answered_step (h : cloudEnv J c command r c') (hr : r.Succeeded ∨ r.Rejected) : c' = c ∨
    (∃ a, createdBy J ⟨.oci command, r⟩ = some a ∧ c' = c.add a) ∨
    ∃ a, deletedBy ⟨.oci command, r⟩ = some a ∧ c' = c.drop a := by
  cases command with
  | createPrivateIp vnicId name =>
    rcases creates_answered .privateIp h hr with hc | ⟨output, ip, rfl, hs, hparse, hc⟩
    · exact .inl hc
    · exact .inr (.inl ⟨.privateIp ip.id, by simp [createdBy, hs, hparse, Except.toOption], hc⟩)
  | createReservedPublicIp compartmentId privateIpId name =>
    rcases creates_answered .publicIp h hr with hc | ⟨output, ip, rfl, hs, hparse, hc⟩
    · exact .inl hc
    · exact .inr (.inl ⟨.publicIp ip.id, by simp [createdBy, hs, hparse, Except.toOption], hc⟩)
  | deletePublicIp id =>
    rcases hr with hr | hr
    · exact .inr (.inr ⟨.publicIp id, if_pos hr, (h.succeeded hr).2⟩)
    · exact .inl (h.rejected hr)
  | deletePrivateIp id =>
    rcases hr with hr | hr
    · exact .inr (.inr ⟨.privateIp id, if_pos hr, (h.succeeded hr).2⟩)
    · exact .inl (h.rejected hr)
  | version | listPublicIps | getVnic | addNsgRules | removeNsgRules => exact .inl h

theorem creates_live {parse : String → Except String α} {ocid : α → String} (mk : String → Address) {a : Address}
    (hmk : ∀ id, (mk id).id = id) (h : Creates parse ocid c (fun id => c.add (mk id)) r c') (ha : c'.Has a) :
    c.Has a ∨ (a.id ∉ c.issued ∧ a.id ∈ c'.issued) := by
  rcases h.either with rfl | ⟨id, hid, rfl⟩
  · exact .inl ha
  · rcases Cloud.has_add.1 ha with rfl | ha
    · rw [Cloud.issued_add, hmk]
      exact .inr ⟨hid, List.mem_cons_self⟩
    · exact .inl ha

/-- A live address was live before, or is new. -/
theorem live_step {a : Address} (h : cloudEnv J c command r c') (ha : c'.Has a) :
    c.Has a ∨ (a.id ∉ c.issued ∧ a.id ∈ c'.issued) := by
  cases command with
  | createPrivateIp vnicId name => exact creates_live .privateIp (fun _ => rfl) h ha
  | createReservedPublicIp compartmentId ip name => exact creates_live .publicIp (fun _ => rfl) h ha
  | deletePublicIp ip =>
    rcases h.either with rfl | ⟨-, rfl⟩
    · exact .inl ha
    · exact .inl (Cloud.has_drop (a := .publicIp ip).1 ha).1
  | deletePrivateIp ip =>
    rcases h.either with rfl | ⟨-, rfl⟩
    · exact .inl ha
    · exact .inl (Cloud.has_drop (a := .privateIp ip).1 ha).1
  | version | listPublicIps | getVnic | addNsgRules | removeNsgRules =>
    rw [show c' = c from h] at ha
    exact .inl ha

theorem deletedBy_iff {a : Address} :
    deletedBy ⟨.oci command, r⟩ = some a ↔ r.Succeeded ∧ command.deletes = some a := by
  change (if r.Succeeded then command.deletes else none) = some a ↔ _
  split <;> simp [*]

/-- A delete with status zero found the address, and it is gone. -/
theorem deleted_step {a : Address} (h : cloudEnv J c command r c') (ha : deletedBy ⟨.oci command, r⟩ = some a) :
    c.Has a ∧ ¬ c'.Has a := by
  obtain ⟨hs, ha⟩ := deletedBy_iff.1 ha
  cases command with
  | deletePublicIp ip =>
    obtain rfl := Option.some.inj ha
    obtain ⟨hlive, rfl⟩ := h.succeeded hs
    exact ⟨hlive, fun h' => (Cloud.has_drop (a := .publicIp ip).1 h').2 rfl⟩
  | deletePrivateIp ip =>
    obtain rfl := Option.some.inj ha
    obtain ⟨hlive, rfl⟩ := h.succeeded hs
    exact ⟨hlive, fun h' => (Cloud.has_drop (a := .privateIp ip).1 h').2 rfl⟩
  | _ => cases ha

theorem not_rejected (hs : r.Succeeded) : ¬ r.Rejected := by
  cases r with
  | exited output => exact fun hr => Bool.false_ne_true (hr.2.symm.trans hs)
  | _ => exact absurd hs id

/-! ## A cloud without some of its addresses -/

variable {made : Address → Prop}

/-- The second cloud is the first without the addresses in `made`. -/
structure Shadow (made : Address → Prop) (c d : Cloud) : Prop where
  live : ∀ a, d.Has a ↔ c.Has a ∧ ¬ made a
  issued : ∀ id ∈ d.issued, id ∈ c.issued

theorem Shadow.add (h : Shadow made c d) {a : Address} (ha : ¬ made a) : Shadow made (c.add a) (d.add a) where
  live b := by
    rw [Cloud.has_add, Cloud.has_add, h.live b]
    constructor
    · rintro (rfl | ⟨hb, hm⟩)
      · exact ⟨.inl rfl, ha⟩
      · exact ⟨.inr hb, hm⟩
    · rintro ⟨rfl | hb, hm⟩
      · exact .inl rfl
      · exact .inr ⟨hb, hm⟩
  issued id hid := by
    rw [Cloud.issued_add] at hid ⊢
    rcases List.mem_cons.1 hid with rfl | hid
    · exact List.mem_cons_self
    · exact List.mem_cons_of_mem _ (h.issued id hid)

theorem Shadow.drop (h : Shadow made c d) (a : Address) : Shadow made (c.drop a) (d.drop a) where
  live b := by
    rw [Cloud.has_drop, Cloud.has_drop, h.live b]
    exact ⟨fun ⟨⟨hb, hm⟩, hne⟩ => ⟨⟨hb, hne⟩, hm⟩, fun ⟨⟨hb, hne⟩, hm⟩ => ⟨⟨hb, hm⟩, hne⟩⟩
  issued id hid := by
    rw [Cloud.issued_drop] at hid ⊢
    exact h.issued id hid

/-- The second cloud does not see what happens to the addresses in `made`. -/
theorem Shadow.hidden (h : Shadow made c d) {a : Address} (ha : made a) :
    Shadow made (c.add a) d ∧ Shadow made (c.drop a) d := by
  refine ⟨⟨fun b => ?_, fun id hid => ?_⟩, ⟨fun b => ?_, fun id hid => ?_⟩⟩
  · rw [h.live b, Cloud.has_add]
    refine ⟨fun ⟨hb, hm⟩ => ⟨.inr hb, hm⟩, ?_⟩
    rintro ⟨rfl | hb, hm⟩
    · exact absurd ha hm
    · exact ⟨hb, hm⟩
  · rw [Cloud.issued_add]
    exact List.mem_cons_of_mem _ (h.issued id hid)
  · rw [h.live b, Cloud.has_drop]
    refine ⟨fun ⟨hb, hm⟩ => ⟨⟨hb, fun hba => hm (hba ▸ ha)⟩, hm⟩, fun ⟨⟨hb, _⟩, hm⟩ => ⟨hb, hm⟩⟩
  · rw [Cloud.issued_drop]
    exact h.issued id hid

/-- A create, told of the second cloud. -/
theorem Shadow.creates (h : Shadow made c d) {parse : String → Except String α} {ocid : α → String}
    (mk : String → Address) (hmk : ∀ id, (mk id).id = id) (hc : Creates parse ocid c (fun id => c.add (mk id)) r c')
    (hnew : ∀ a : Address, a.id ∉ c.issued → a.id ∈ c'.issued → ¬ made a) :
    ∃ d', Creates parse ocid d (fun id => d.add (mk id)) r d' ∧ Shadow made c' d' := by
  have hfresh : ∀ id, id ∉ c.issued → id ∉ d.issued := fun id hid hd => hid (h.issued id hd)
  have hadd : ∀ id, id ∉ c.issued → c' = c.add (mk id) → Shadow made c' (d.add (mk id)) := by
    rintro id hid rfl
    refine h.add (hnew (mk id) (by rwa [hmk]) ?_)
    rw [Cloud.issued_add]
    exact List.mem_cons_self
  by_cases hs : r.Succeeded
  · -- the cloud has named the new address, which is new to the second cloud too
    cases r with
    | exited output =>
      obtain ⟨ip, hparse, hid, hc'⟩ := hc.succeeded output rfl hs
      refine ⟨d.add (mk (ocid ip)), ⟨?_, fun hr => absurd hr (not_rejected hs), .inr ⟨_, hfresh _ hid, rfl⟩⟩,
        hadd _ hid hc'⟩
      rintro output' ho -
      cases ho
      exact ⟨ip, hparse, hfresh _ hid, rfl⟩
    | _ => exact absurd hs id
  · -- without a status, or with another one, the second cloud does whatever the first did
    have hno : ∀ output, r = .exited output → output.isSuccess = true → False := by
      rintro output rfl ho
      exact hs ho
    by_cases hsame : c' = c
    · subst hsame
      exact ⟨d, ⟨fun output ho ho' => (hno output ho ho').elim, fun _ => rfl, .inl rfl⟩, h⟩
    · obtain ⟨id, hid, hc'⟩ := hc.either.resolve_left hsame
      refine ⟨d.add (mk id), ⟨fun output ho ho' => (hno output ho ho').elim, fun hr => ?_, ?_⟩, hadd id hid hc'⟩
      · exact absurd (hc.rejected hr) hsame
      · exact .inr ⟨id, hfresh id hid, rfl⟩

/-- A delete, told of the second cloud. -/
theorem Shadow.deletes (h : Shadow made c d) {a : Address} (ha : ¬ made a) (hc : Deletes (c.Has a) c (c.drop a) r c') :
    ∃ d', Deletes (d.Has a) d (d.drop a) r d' ∧ Shadow made c' d' := by
  have hlive : c.Has a → d.Has a := fun hl => (h.live a).2 ⟨hl, ha⟩
  by_cases hs : r.Succeeded
  · obtain ⟨hl, rfl⟩ := hc.succeeded hs
    exact ⟨d.drop a, ⟨fun _ => ⟨hlive hl, rfl⟩, fun hr => absurd hr (not_rejected hs), .inr ⟨hlive hl, rfl⟩⟩, h.drop a⟩
  · by_cases hsame : c' = c
    · subst hsame
      exact ⟨d, ⟨fun hs' => absurd hs' hs, fun _ => rfl, .inl rfl⟩, h⟩
    · obtain ⟨hl, rfl⟩ := hc.either.resolve_left hsame
      exact ⟨d.drop a, ⟨fun hs' => absurd hs' hs, fun hr => absurd (hc.rejected hr) hsame, .inr ⟨hlive hl, rfl⟩⟩,
        h.drop a⟩

/-- **A command has the same answer in the second cloud**, where it makes and deletes none of the addresses in
`made`. -/
theorem Shadow.replay (h : Shadow made c d) (hc : cloudEnv J c command r c')
    (hnew : ∀ a : Address, a.id ∉ c.issued → a.id ∈ c'.issued → ¬ made a)
    (hdel : ∀ a, command.deletes = some a → ¬ made a) : ∃ d', cloudEnv J d command r d' ∧ Shadow made c' d' := by
  cases command with
  | createPrivateIp vnicId name => exact h.creates .privateIp (fun _ => rfl) hc hnew
  | createReservedPublicIp compartmentId privateIpId name => exact h.creates .publicIp (fun _ => rfl) hc hnew
  | deletePublicIp id => exact h.deletes (a := .publicIp id) (hdel _ rfl) hc
  | deletePrivateIp id => exact h.deletes (a := .privateIp id) (hdel _ rfl) hc
  | version | listPublicIps | getVnic | addNsgRules | removeNsgRules =>
    rw [show c' = c from hc]
    exact ⟨d, rfl, h⟩

end Commands

/-! ## A world without some of its addresses -/

section Worlds

variable {w w' u v : AgentWorld} {o : AgentOp} {r : o.Reply} {made : Address → Prop}

/-- The second world is the first without the addresses in `made`. -/
structure Apart (made : Address → Prop) (w u : AgentWorld) : Prop where
  data : SameData w.host.db u.host.db
  cloud : Shadow made w.cloud u.cloud

theorem updateMappings_same {db db₁ db₂ : Db} {key : String} {f : Row → Row} {hf : ∀ row, (f row).id = row.id}
    {guarded : Bool} {r : Except Sql.SqlError ℕ} (hs : SameData db db₂)
    (h : (r, db₁) = db.updateMappings key f hf guarded) :
    ∃ db₃, (r, db₃) = db₂.updateMappings key f hf guarded ∧ SameData db₁ db₃ := by
  unfold Db.updateMappings at h ⊢
  rw [hs.mappings]
  cases hu : db.mappings.update key f hf guarded with
  | error e =>
    rw [hu] at h
    obtain ⟨rfl, rfl⟩ := Prod.mk.inj h
    exact ⟨db₂, rfl, hs⟩
  | ok p =>
    obtain ⟨t, n⟩ := p
    rw [hu] at h
    obtain ⟨rfl, rfl⟩ := Prod.mk.inj h
    exact ⟨_, rfl, rfl, hs.config⟩

/-- A statement before the write, told of the second database. -/
theorem SameData.replay {db db₁ db₂ : Db} {o : StoreOp} {r : o.Reply} (hs : SameData db db₂) (ho : o.BeforeWrite)
    (hE : storeEnv db o r db₁) : ∃ db₃, storeEnv db₂ o r db₃ ∧ SameData db₁ db₃ := by
  cases o with
  | now =>
    rw [show db₁ = db from hE]
    exact ⟨db₂, rfl, hs⟩
  | sql s =>
    rcases hE with hE | ⟨message, rfl, rfl⟩
    · cases s with
      | selectConfig =>
        cases hE
        exact ⟨db₂, .inl (by rw [← hs.config]; rfl), hs⟩
      | selectMapping id | selectOthers id =>
        cases hE
        exact ⟨db₂, .inl (by rw [← hs.mappings]; rfl), hs⟩
      | updateMapping | updateEnabled | updateHealth =>
        obtain ⟨db₃, h, hsame⟩ := updateMappings_same hs hE
        exact ⟨db₃, .inl h, hsame⟩
      | _ => exact absurd ho id
    · exact ⟨db₂, .inr ⟨message, rfl, rfl⟩, hs⟩

/-- **An operation before the write has the same answer in the second world**, where it makes and deletes none of the
addresses in `made`. -/
theorem Apart.replay (h : Apart made w u) (ho : o.BeforeWrite) (hE : agentEnv J w o r w')
    (hnew : ∀ a : Address, a.id ∉ w.cloud.issued → a.id ∈ w'.cloud.issued → ¬ made a)
    (hdel : ∀ command a, o = .oci command → command.deletes = some a → ¬ made a) :
    ∃ u', agentEnv J u o r u' ∧ Apart made w' u' := by
  cases o with
  | host o =>
    cases o with
    | store o =>
      obtain ⟨host, ⟨db, hdb, rfl⟩, rfl⟩ := hE
      obtain ⟨db', hdb', hsame⟩ := h.data.replay ho hdb
      exact ⟨u.setDb db', ⟨_, ⟨db', hdb', rfl⟩, rfl⟩, hsame, h.cloud⟩
    | _ => exact absurd ho id
  | oci command =>
    obtain ⟨cloud, hc, rfl⟩ := hE
    obtain ⟨d, hd, hshadow⟩ := h.cloud.replay hc hnew fun a ha => hdel command a rfl ha
    exact ⟨u.setCloud d, ⟨d, hd, rfl⟩, h.data, hshadow⟩
  | _ => exact absurd ho id

/-- What writes no row leaves the rows. -/
theorem sameData_of_unwritten (ho : o.BeforeWrite) (hno : ¬ WritesRow ⟨o, r⟩) (hE : agentEnv J w o r w') :
    SameData w.host.db w'.host.db := by
  cases o with
  | host o =>
    cases o with
    | store o =>
      obtain ⟨host, ⟨db, hdb, rfl⟩, rfl⟩ := hE
      have hstep := storeEnv_step hdb
      refine ⟨?_, ?_⟩
      · generalize he : (⟨o, r⟩ : Event StoreSig) = e at hstep
        cases hstep with
        | same _ ht => exact ht
        | insert row => cases he; exact absurd ho id
        | update => cases he; exact absurd one_ne_zero hno
        | enable => cases he; exact absurd trivial hno
        | health => cases he; exact absurd trivial hno
        | delete id => cases he; exact False.elim ho
      · cases o with
        | now => rw [show db = w.host.db from hdb]
        | sql s =>
          refine storeEnv_config hdb ?_
          rintro value rfl
          exact ho
    | _ => exact absurd ho id
  | oci command =>
    obtain ⟨cloud, -, rfl⟩ := hE
    exact ⟨rfl, rfl⟩
  | _ => exact absurd ho id

theorem Apart.settled (h : Apart made w u) (hs : Settled w w') : Apart made w' u where
  data := ⟨h.data.mappings.trans hs.data.mappings.symm, h.data.config.trans hs.data.config.symm⟩
  cloud := by
    rw [hs.cloud]
    exact h.cloud

theorem Apart.finished (h : Apart made w u) (hs : Settled u v) : Apart made w v where
  data := ⟨hs.data.mappings.trans h.data.mappings, hs.data.config.trans h.data.config⟩
  cloud := by
    rw [hs.cloud]
    exact h.cloud

/-- What a call that leaves nothing behind asks for does not show. -/
theorem Apart.hidden {o : AgentOp} {r : o.Reply} (h : Apart made w u) (ho : o.BeforeWrite)
    (hw : ¬ WritesRow ⟨o, r⟩) (hanswered : Answered ⟨o, r⟩) (hE : agentEnv J w o r w')
    (hcreated : ∀ a, createdBy J ⟨o, r⟩ = some a → made a) (hdeleted : ∀ a, deletedBy ⟨o, r⟩ = some a → made a) :
    Apart made w' u := by
  have hdata := sameData_of_unwritten ho hw hE
  refine ⟨⟨h.data.mappings.trans hdata.mappings.symm, h.data.config.trans hdata.config.symm⟩, ?_⟩
  cases o with
  | oci command =>
    obtain ⟨cloud, hc, rfl⟩ := hE
    rcases answered_step hc hanswered with hcloud | ⟨a, ha, hcloud⟩ | ⟨a, ha, hcloud⟩
    · rw [show cloud = w.cloud from hcloud]
      exact h.cloud
    · rw [show cloud = w.cloud.add a from hcloud]
      exact (h.cloud.hidden (hcreated a ha)).1
    · rw [show cloud = w.cloud.drop a from hcloud]
      exact (h.cloud.hidden (hdeleted a ha)).2
  | host o =>
    obtain ⟨host, -, rfl⟩ := hE
    exact h.cloud
  | _ => exact absurd ho id

end Worlds

end EdgeRoute
