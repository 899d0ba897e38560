import EdgeRoute.Proof.Frame
import EdgeRoute.Proof.Ownership

/-!
# An allocation happens or does not

`oci_allocate` alone, on a cloud where a create that fails created nothing and a delete succeeds.
The undo stands in two places: the private address is given back inside `allocate_forwarding_ip`, both
are given back by the handler.

* `sat_allocateWith_tidy`: the first undo; `sat_storeAllocation_tidy`: the second.
* `allocate_atomic`: **two new addresses and a row that names them, or nothing.**
-/

namespace EdgeRoute

open Effect

variable {C : Codec} {J : OciJson} {config : EdgeConfig} {headers : HeaderMap} {ε α : Type} {w w' : AgentWorld}
  {c c' : Cloud} {m : Mapping} {id : MappingId}

/-! ## The cloud of an allocation -/

/-- What the call of a create returns. -/
def created (parse : String → Except String α) (r : Outcome) : Except OciError α :=
  ociOutput r >>= fun output => (parse output.stdout).mapError .json

/-- A create returns the one new address it created, or fails and created nothing. -/
def CreatesOrFails (parse : String → Except String α) (ocid : α → String) (c : Cloud) (add : String → Cloud)
    (r : Outcome) (c' : Cloud) : Prop :=
  match created parse r with
  | .ok a => ocid a ∉ c.issued ∧ c' = add (ocid a)
  | .error _ => c' = c

/-- **A tidy cloud**: a create that fails created nothing, and a delete succeeds. -/
def tidyCloud (J : OciJson) : Env OciSig Cloud := fun c o r c' =>
  match o with
  | .createPrivateIp _ _ => CreatesOrFails J.privateIp PrivateIp.id c c.addPrivate r c'
  | .createReservedPublicIp _ _ _ => CreatesOrFails J.publicIp PublicIp.id c c.addPublic r c'
  | .deletePublicIp id => Outcome.Succeeded r ∧ c' = c.dropPublic id
  | .deletePrivateIp id => Outcome.Succeeded r ∧ c' = c.dropPrivate id
  | _ => c' = c

/-- The world of a front end with a tidy cloud. The store may refuse or fail any statement. -/
def tidyEnv (J : OciJson) : Env AgentSig AgentWorld := fun w o r w' =>
  match o, r with
  | .oci command, r => ∃ cloud, tidyCloud J w.cloud command r cloud ∧ w' = w.setCloud cloud
  | o, r => agentEnv J w o r w'

theorem tidyEnv_onHost : ActsOnHost (tidyEnv J) := fun _ _ _ _ h => h

theorem tidyEnv_oci (w : AgentWorld) (o : OciCommand) (r : Outcome) (w' : AgentWorld) (h : tidyEnv J w (.oci o) r w') :
    ∃ cloud, tidyCloud J w.cloud o r cloud ∧ w' = w.setCloud cloud := h

/-- Every live address was given out. -/
structure Cloud.Known (c : Cloud) : Prop where
  privateIps : ∀ id ∈ c.privateIps, id ∈ c.issued
  publicIps : ∀ id ∈ c.publicIps, id ∈ c.issued

/-- The same addresses are live. -/
structure SameLive (c c' : Cloud) : Prop where
  privateIps : c'.privateIps = c.privateIps
  publicIps : c'.publicIps = c.publicIps

theorem SameLive.refl : SameLive c c := ⟨rfl, rfl⟩

/-- A new address, given back. -/
theorem filter_cons_new {id : String} {ids issued : List String} (hids : ∀ i ∈ ids, i ∈ issued) (hnew : id ∉ issued) :
    (id :: ids).filter (· ≠ id) = ids := by
  rw [List.filter_cons_of_neg (p := fun i => decide (i ≠ id)) (by simp), List.filter_eq_self]
  intro i hi
  have hne : i ≠ id := fun h => hnew (h ▸ hids i hi)
  exact decide_eq_true hne

theorem sameLive_undoPrivate {id : String} (hk : c.Known) (hnew : id ∉ c.issued) :
    SameLive c ((c.addPrivate id).dropPrivate id) :=
  ⟨filter_cons_new hk.privateIps hnew, rfl⟩

theorem sameLive_undo {id id' : String} (hk : c.Known) (hnew : id ∉ c.issued) (hnew' : id' ∉ c.issued) :
    SameLive c ((((c.addPrivate id).addPublic id').dropPublic id').dropPrivate id) :=
  ⟨filter_cons_new hk.privateIps hnew, filter_cons_new hk.publicIps hnew'⟩

/-! ## The two creates -/

theorem sat_created {command : OciCommand} {parse : String → Except String α} {post : Cloud → Except OciError α → Prop}
    (h : ∀ r c', tidyCloud J c command r c' → post c' (created parse r)) :
    (runOciJson command parse).Sat (tidyCloud J) c post := by
  refine Prog.sat_call fun r c' hE => ?_
  have hpost := h r c' hE
  unfold created at hpost
  beta_reduce
  cases hr : ociOutput r with
  | error e =>
    rw [hr] at hpost
    exact Prog.sat_fail hpost
  | ok output =>
    rw [hr] at hpost
    exact Prog.sat_ofExcept hpost

/-- One create: a new address is returned, or there is none. -/
theorem sat_createsOrFails {command : OciCommand} {parse : String → Except String α} (ocid : α → String)
    (add : Cloud → String → Cloud)
    (hE : ∀ r c', tidyCloud J c command r c' → CreatesOrFails parse ocid c (add c) r c') :
    (runOciJson command parse).Sat (tidyCloud J) c fun c' x =>
      (∃ a, x = .ok a ∧ ocid a ∉ c.issued ∧ c' = add c (ocid a)) ∨ ((∃ e, x = .error e) ∧ c' = c) := by
  refine sat_created fun r c' hr => ?_
  have hcreated := hE r c' hr
  unfold CreatesOrFails at hcreated
  cases hx : created parse r with
  | ok a =>
    rw [hx] at hcreated
    exact .inl ⟨a, rfl, hcreated⟩
  | error e =>
    rw [hx] at hcreated
    exact .inr ⟨⟨e, rfl⟩, hcreated⟩

theorem sat_deletes_tidy {command : OciCommand} {dropped : Cloud}
    (hE : ∀ r c', tidyCloud J c command r c' → Outcome.Succeeded r ∧ c' = dropped) :
    (runOciUnit command).Sat (tidyCloud J) c fun c' x => x = .ok () ∧ c' = dropped := by
  refine Prog.sat_call fun r c' hr => ?_
  obtain ⟨hs, rfl⟩ := hE r c' hr
  obtain ⟨output, -, -, hout⟩ := ociOutput_of_succeeded hs
  beta_reduce
  rw [hout]
  exact Prog.sat_ret ⟨rfl, rfl⟩

/-- The addresses of the allocation are new, and live beside those that were. -/
structure Adds (c : Cloud) (a : Allocation) (c' : Cloud) : Prop where
  privateIp : a.privateIp.id ∉ c.issued
  publicIp : a.publicIp.id ∉ c.issued
  cloud : c' = (c.addPrivate a.privateIp.id).addPublic a.publicIp.id

/-- **The first undo.** An allocation that fails leaves the addresses that were live. -/
theorem sat_allocateWith_tidy {lift : OciError → ε} {onFailure : OciError → Except OciError Unit → ε} (hk : c.Known)
    (compartmentId vnicId : String) (name : Option String) :
    (allocateWith J lift onFailure compartmentId vnicId name).Sat (tidyCloud J) c fun c' x =>
      (∀ e, x = .error e → SameLive c c') ∧ ∀ a, x = .ok a → Adds c a c' := by
  have hvnic : (validateForwardingVnic J vnicId).Sat (tidyCloud J) c fun c' _ => c' = c :=
    sat_validateForwardingVnic fun _ _ _ hE => hE
  refine Prog.sat_bind (Prog.sat_mapErr (Prog.sat_mono ?_ hvnic))
  rintro c₁ x rfl
  refine ⟨fun _ _ => ?_, fun _ _ => ⟨fun _ _ => .refl, fun a h => nomatch h⟩⟩
  refine Prog.sat_bind (Prog.sat_mapErr (Prog.sat_mono ?_
    (sat_createsOrFails PrivateIp.id Cloud.addPrivate fun _ _ h => h)))
  rintro c₂ x (⟨ip, rfl, hnew, rfl⟩ | ⟨⟨e, rfl⟩, rfl⟩)
  · refine ⟨fun ip' hip => ?_, fun _ h => nomatch h⟩
    obtain rfl := Except.ok.inj hip
    refine Prog.sat_bind (Prog.sat_attempt (Prog.sat_mono ?_
      (sat_createsOrFails PublicIp.id Cloud.addPublic fun _ _ h => h)))
    rintro c₃ x (⟨pub, rfl, hnew', rfl⟩ | ⟨⟨e, rfl⟩, rfl⟩)
    · refine ⟨fun y hy => ?_, fun _ h => nomatch h⟩
      obtain rfl := Except.ok.inj hy
      refine Prog.sat_ret ⟨fun _ h => (nomatch h), fun a ha => ?_⟩
      obtain rfl := Except.ok.inj ha
      exact ⟨hnew, fun h => hnew' (List.mem_cons_of_mem _ h), rfl⟩
    · -- the public address could not be had, so the private one is given back
      refine ⟨fun y hy => ?_, fun _ h => nomatch h⟩
      obtain rfl := Except.ok.inj hy
      refine Prog.sat_bind (Prog.sat_attempt (Prog.sat_mono ?_ (sat_deletes_tidy fun _ _ h => h)))
      rintro c₄ x ⟨rfl, rfl⟩
      refine ⟨fun _ _ => Prog.sat_fail ⟨fun _ _ => ?_, fun _ h => nomatch h⟩, fun _ h => nomatch h⟩
      exact sameLive_undoPrivate hk hnew
  · exact ⟨fun _ h => (nomatch h), fun _ _ => ⟨fun _ _ => .refl, fun a h => nomatch h⟩⟩

/-! ## The row -/

theorem portsOk_of_columns {row : Row} (h : Columns C row m) : PortsOk m := by
  have hport : ∀ {value : Option ℤ} {column : String} {port : Option UInt16},
      decodePort value column = .ok port → port ≠ some 0 := by
    intro value column port hd hzero
    subst hzero
    unfold decodePort at hd
    split at hd
    · split at hd
      · rename_i n hn
        have hsome : UInt16.ofNat n.toNat = 0 := Option.some.inj (Except.ok.inj hd)
        have hnat : (UInt16.ofNat n.toNat).toNat = n.toNat := UInt16.toNat_ofNat_of_lt' (by show n.toNat < 65536; omega)
        rw [hsome] at hnat
        have hzero : (0 : UInt16).toNat = 0 := rfl
        omega
      · cases hd
    · cases hd
  exact ⟨hport h.publicPort, hport h.targetPort⟩

/-- A mapping that was read and changed in its addresses, status and times is read back as it was written. -/
theorem wrote_updated {m' : Mapping} {cols old : Row} {db db' : Db} (hm : StoredAs C db id m)
    (hu : Updated C m' db.mappings db'.mappings cols old) (hid : m'.id = m.id) (hcreated : m'.createdAt = m.createdAt)
    (hports : PortsOk m → PortsOk m') : db.mapping C id = some m ∧ Wrote C id m' db db' := by
  obtain ⟨row, hrow, hrid, hdec, hmid⟩ := hm
  have hfind : db.mappings.find id.val = some row := Sql.Table.find_of_mem hrow hrid
  have hcid : cols.id = id.val := by rw [(updateRow_columns hu.bound).1, hid, hmid]
  have hold : old = row := Sql.Table.eq_of_key_eq hu.mem hrow (hu.id.trans (hcid.trans hrid.symm))
  subst hold
  have hcols := rowToMapping_ok.1 hdec
  refine ⟨mapping_of_find hfind hdec, ?_⟩
  have hback : C.rowToMapping (cols.replaced old) = .ok m' := by
    have h := encodes_replaced_of_created (hports (portsOk_of_columns hcols)) hu.bound hcols.createdAt hu.id
    rw [← hcreated] at h
    exact h.decoded
  exact wrote_set cols.replaced_id hcid (hcid ▸ hfind) hback hu.table

/-! ## The handler -/

/-- **All or nothing.** An answer comes with two new live addresses and a row that differs in its addresses, status and
time of change only; an error leaves the rows and the live addresses. -/
structure AllOrNothing (C : Codec) (requested : String) (w w' : AgentWorld) (x : Except ApiFailure ApiResponse) :
    Prop where
  returned : ∀ response, x = .ok response → ∃ id m a now, MappingId.fromStr requested = .ok id ∧
    w.host.db.mapping C id = some m ∧ Adds w.cloud a w'.cloud ∧
    response = .mapping { m.allocated a with status := .pending, updatedAt := now } ∧
    Wrote C id { m.allocated a with status := .pending, updatedAt := now } w.host.db w'.host.db
  failed : ∀ e, x = .error e → w'.host.db.mappings = w.host.db.mappings ∧ SameLive w.cloud w'.cloud

theorem allOrNothing_fail {requested : String} {e : ApiFailure} : AllOrNothing C requested w w (.error e) :=
  ⟨fun _ h => (nomatch h), fun _ _ => ⟨rfl, .refl⟩⟩

/-- **The second undo.** The row names the two addresses, or both are given back. -/
theorem sat_storeAllocation_tidy
    {onFailure : EdgeCoreError → Except OciError Unit → Except OciError Unit → ε} {a : Allocation} (hk : w.cloud.Known)
    (hm : StoredAs C w.host.db id m) (ha : Adds w.cloud a c) :
    (storeAllocation C onFailure m a).Sat (tidyEnv J) (w.setCloud c) fun w' x =>
      (∀ m', x = .ok m' → w'.cloud = c ∧ ∃ now, m' = { m.allocated a with status := .pending, updatedAt := now } ∧
        w.host.db.mapping C id = some m ∧ Wrote C id m' w.host.db w'.host.db) ∧
      ∀ e, x = .error e → w'.host.db.mappings = w.host.db.mappings ∧ SameLive w.cloud w'.cloud := by
  refine Prog.sat_bind (Prog.sat_mono ?_ (sat_markStatus tidyEnv_onHost _ _))
  rintro w₁ x ⟨rfl, now, rfl⟩
  refine ⟨fun m' hm' => ?_, fun _ h => nomatch h⟩
  obtain rfl := Except.ok.inj hm'
  refine Prog.sat_bind (Prog.sat_attempt (Prog.sat_mono ?_ (sat_onStore tidyEnv_onHost (sat_updateMapping _))))
  rintro w₂ x ⟨db', rfl, herror, hok⟩
  refine ⟨fun y hy => ?_, fun _ h => nomatch h⟩
  obtain rfl := Except.ok.inj hy
  cases x with
  | ok u =>
    obtain ⟨cols, old, hupdated⟩ := hok rfl
    refine Prog.sat_ret ⟨fun m' hm' => ?_, fun _ h => nomatch h⟩
    obtain rfl := Except.ok.inj hm'
    obtain ⟨hfound, hwrote⟩ := wrote_updated hm hupdated rfl rfl fun h => h
    exact ⟨rfl, now, rfl, hfound, hwrote⟩
  | error e =>
    refine Prog.sat_bind (Prog.sat_attempt (Prog.sat_mono ?_
      (sat_liftOci tidyEnv_oci (sat_deletes_tidy fun _ _ h => h))))
    rintro w₃ x ⟨cloud, rfl, rfl, rfl⟩
    refine ⟨fun _ _ => ?_, fun _ h => nomatch h⟩
    refine Prog.sat_bind (Prog.sat_attempt (Prog.sat_mono ?_
      (sat_liftOci tidyEnv_oci (sat_deletes_tidy fun _ _ h => h))))
    rintro w₄ x ⟨cloud, rfl, rfl, rfl⟩
    refine ⟨fun _ _ => Prog.sat_fail ⟨fun _ h => (nomatch h), fun _ _ => ⟨herror e rfl, ?_⟩⟩, fun _ h => nomatch h⟩
    have hundo := sameLive_undo hk ha.privateIp ha.publicIp
    rw [← ha.cloud] at hundo
    exact hundo

theorem sat_ociAllocate_tidy {request : OciAllocateRequest} (hk : w.cloud.Known) :
    (Api.ociAllocate C J config headers request).Sat (tidyEnv J) w fun w' x =>
      AllOrNothing C request.mappingId w w' x := by
  refine Prog.sat_bind (Prog.sat_ofExcept ⟨fun _ _ => ?_, fun _ _ => allOrNothing_fail⟩)
  refine Prog.sat_bind (Prog.sat_ofExcept ⟨fun _ _ => ?_, fun _ _ => allOrNothing_fail⟩)
  refine Prog.sat_bind (Prog.sat_ofExcept ⟨fun id hid => ?_, fun _ _ => allOrNothing_fail⟩)
  refine Prog.sat_bind (Prog.sat_mono ?_ (sat_read tidyEnv_onHost id))
  rintro w₁ x ⟨rfl, hx⟩
  refine ⟨fun m hm => ?_, fun _ _ => allOrNothing_fail⟩
  refine Prog.sat_bind (Prog.sat_ofExcept ⟨fun _ _ => ?_, fun _ _ => allOrNothing_fail⟩)
  refine Prog.sat_bind (Prog.sat_ofExcept ⟨fun _ _ => ?_, fun _ _ => allOrNothing_fail⟩)
  refine Prog.sat_bind (Prog.sat_ofExcept ⟨fun _ _ => ?_, fun _ _ => allOrNothing_fail⟩)
  refine Prog.sat_bind (Prog.sat_mapErr (Prog.sat_mono ?_ (sat_liftOci tidyEnv_oci (sat_allocateWith_tidy hk _ _ _))))
  rintro w₂ y ⟨cloud, rfl, herror, hok⟩
  cases y with
  | error e =>
    exact ⟨fun _ h => (nomatch h), fun _ _ => ⟨fun _ h => (nomatch h), fun _ _ => ⟨rfl, herror e rfl⟩⟩⟩
  | ok a =>
    refine ⟨fun a' ha' => ?_, fun _ h => nomatch h⟩
    obtain rfl := Except.ok.inj ha'
    have hadds := hok a rfl
    refine Prog.sat_bind (Prog.sat_mono ?_ (sat_storeAllocation_tidy hk (hx m hm) hadds))
    rintro w₃ x ⟨hstored, hfailed⟩
    refine ⟨fun m' hm' => ?_, fun e he => ⟨fun _ h => (nomatch h), fun _ _ => hfailed e he⟩⟩
    obtain ⟨rfl, now, rfl, hfound, hwrote⟩ := hstored m' hm'
    -- the event of the allocation may fail, and its failure is not reported
    refine Prog.sat_bind (Prog.sat_attempt (Prog.sat_mono ?_ (sat_onStore tidyEnv_onHost (sat_leavesMappings ?_))))
    · rintro w₄ y ⟨db', rfl, hdb⟩
      refine ⟨fun _ _ => Prog.sat_ret ⟨fun response hresponse => ?_, fun _ h => nomatch h⟩, fun _ h => nomatch h⟩
      obtain rfl := Except.ok.inj hresponse
      exact ⟨id, m, a, now, except_mapError_ok.1 hid, hfound, hadds, rfl, hwrote.of_mappings hdb⟩
    · exact recordEvent_uses C trivial fun _ _ => ⟨fun h => h, fun h => h⟩

/-- **An allocation is atomic.** On a cloud whose live addresses were all given out, where a create that fails created
nothing and a delete succeeds, whatever the check of the VNIC, the creates and the statements of the store answer:
`oci_allocate` returns with two new live addresses and a row that names them, or fails with the rows and the live
addresses as they were. -/
theorem allocate_atomic {request : OciAllocateRequest} {tr : List (Event AgentSig)} {x : Except ApiFailure ApiResponse}
    (hk : w.cloud.Known) (hr : (Api.ociAllocate C J config headers request).Run (tidyEnv J) w tr w' x) :
    AllOrNothing C request.mappingId w w' x := (sat_ociAllocate_tidy hk).of_run hr

/-! ## A tidy cloud -/

/-- The sample world, where a delete always succeeds. -/
def tidyAnswer : Handler AgentSig AgentWorld
  | w, .oci (.deletePublicIp id) => (.exited ⟨some 0, "", ""⟩, w.setCloud (w.cloud.dropPublic id))
  | w, .oci (.deletePrivateIp id) => (.exited ⟨some 0, "", ""⟩, w.setCloud (w.cloud.dropPrivate id))
  | w, o => agentAnswer w o

theorem createsOrFails_createOnce {parse : String → Except String α} {text : String} (ocid : α → String) (a : α)
    (c : Cloud) (add : String → Cloud) (hparse : parse text = .ok a) :
    CreatesOrFails parse ocid c add (createOnce c (ocid a) text add).1 (createOnce c (ocid a) text add).2 := by
  unfold createOnce
  split
  · exact rfl
  · rename_i hnew
    have hok : created parse (.exited ⟨some 0, text, ""⟩) = .ok a := by
      show (parse text).mapError OciError.json = .ok a
      rw [hparse]
      rfl
    unfold CreatesOrFails
    rw [hok]
    exact ⟨hnew, rfl⟩

theorem tidyAnswer_env (w : AgentWorld) (o : AgentSig.Op) :
    tidyEnv sampleOciJson w o (tidyAnswer w o).1 (tidyAnswer w o).2 := by
  cases o with
  | oci command =>
    cases command with
    | createPrivateIp =>
      exact ⟨_, createsOrFails_createOnce PrivateIp.id samplePrivateIp w.cloud _ sample_privateIp, rfl⟩
    | createReservedPublicIp =>
      exact ⟨_, createsOrFails_createOnce PublicIp.id samplePublicIp w.cloud _ sample_publicIp, rfl⟩
    | deletePublicIp id | deletePrivateIp id => exact ⟨_, ⟨rfl, rfl⟩, rfl⟩
    | version | listPublicIps | getVnic | addNsgRules | removeNsgRules => exact ⟨_, rfl, rfl⟩
  | host o => exact agentAnswer_env w (.host o)
  | selectEvents limit => exact ⟨rfl, .inl rfl⟩
  | newId | netbirdStatus | routeGet | envVar => exact rfl

/-- The allocation of the sample, on a tidy cloud. -/
@[irreducible] def tidyAllocation : List (Event AgentSig) × AgentWorld × Except ApiFailure ApiResponse :=
  (sampleAllocate.prog sampleCodec sampleOciJson sampleNetbird sampleConfig []).eval tidyAnswer createdAgent

theorem tidyAllocation_run :
    (sampleAllocate.prog sampleCodec sampleOciJson sampleNetbird sampleConfig []).Run (tidyEnv sampleOciJson)
      createdAgent tidyAllocation.1 tidyAllocation.2.1 tidyAllocation.2.2 := by
  unfold tidyAllocation
  exact eval_run tidyAnswer_env _ _

theorem tidyAllocation_facts : createdAgent.cloud.privateIps = [] ∧ createdAgent.cloud.publicIps = [] ∧
    tidyAllocation.2.2.isOk = true ∧ tidyAllocation.2.1.cloud.privateIps = [samplePrivateIp.id] := by
  decide +kernel

/-- The allocation of the sample goes through. -/
theorem allocate_atomic_sample : tidyAllocation.2.2.isOk = true ∧
    tidyAllocation.2.1.cloud.privateIps = [samplePrivateIp.id] ∧
    AllOrNothing sampleCodec "vm" createdAgent tidyAllocation.2.1 tidyAllocation.2.2 := by
  obtain ⟨hpriv, hpub, hok, hlive⟩ := tidyAllocation_facts
  have hk : createdAgent.cloud.Known := by
    constructor
    · rw [hpriv]
      simp
    · rw [hpub]
      simp
  exact ⟨hok, hlive, allocate_atomic hk tidyAllocation_run⟩

end EdgeRoute
