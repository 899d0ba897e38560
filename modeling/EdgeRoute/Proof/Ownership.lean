import EdgeRoute.Proof.Agent
import Mathlib.Tactic.MkIffOfInductiveProp

/-!
# Who owns an address of the cloud

An address that an allocation created is live until a command deletes it. The row of its mapping is
all that remembers it.

* `held_of_runs`: **no live address is forgotten**, as long as no delete of the API hits the last row that
  names one.
* `api_delete_forgets`: the delete of the API drops the row and leaves the addresses.
-/

namespace EdgeRoute

open Effect

variable {C : Codec} {J : OciJson} {N : String → Except String NetbirdStatus} {D : Option OciError → String}
  {config : EdgeConfig} {headers : HeaderMap} {ε α β : Type} {w w' : AgentWorld} {db db' : Db} {m : Mapping}

/-! ## References -/

/-- What a row names. -/
structure Ref where
  id : String
  privateIp : Option String
  publicIp : Option String
deriving DecidableEq

def Row.ref (row : Row) : Ref := ⟨row.id, row.ociPrivateIpOcid, row.ociPublicIpOcid⟩

def Db.refs (db : Db) : List Ref := db.mappings.rows.map Row.ref

def Mapping.ref (m : Mapping) : Ref := ⟨m.id.val, m.ociPrivateIpOcid, m.ociPublicIpOcid⟩

/-- **Every live address is named**, but for foreign ones. -/
structure Held (foreign : List String) (refs : List Ref) (cloud : Cloud) : Prop where
  privateIps : ∀ ip ∈ cloud.privateIps, ip ∉ foreign → ∃ ref ∈ refs, ref.privateIp = some ip
  publicIps : ∀ ip ∈ cloud.publicIps, ip ∉ foreign → ∃ ref ∈ refs, ref.publicIp = some ip

/-- No address that the row of `id` names is live. -/
structure Idle (refs : List Ref) (cloud : Cloud) (id : String) : Prop where
  privateIps : ∀ ref ∈ refs, ref.id = id → ∀ ip ∈ cloud.privateIps, ref.privateIp ≠ some ip
  publicIps : ∀ ref ∈ refs, ref.id = id → ∀ ip ∈ cloud.publicIps, ref.publicIp ≠ some ip

/-- Nothing is live that was not before, and the two addresses are not. -/
structure Dropped (cloud cloud' : Cloud) (privateIp publicIp : Option String) : Prop where
  privateIps : ∀ ip ∈ cloud'.privateIps, ip ∈ cloud.privateIps ∧ privateIp ≠ some ip
  publicIps : ∀ ip ∈ cloud'.publicIps, ip ∈ cloud.publicIps ∧ publicIp ≠ some ip

section Refs

variable {foreign : List String} {refs refs' : List Ref} {cloud cloud' : Cloud} {id : String} {new : Ref}

theorem Held.mono (h : Held foreign refs cloud) (hrefs : ∀ ref ∈ refs, ref ∈ refs')
    (hpriv : ∀ ip ∈ cloud'.privateIps, ip ∈ cloud.privateIps) (hpub : ∀ ip ∈ cloud'.publicIps, ip ∈ cloud.publicIps) :
    Held foreign refs' cloud' where
  privateIps ip hip hf := by
    obtain ⟨ref, href, hname⟩ := h.privateIps ip (hpriv ip hip) hf
    exact ⟨ref, hrefs ref href, hname⟩
  publicIps ip hip hf := by
    obtain ⟨ref, href, hname⟩ := h.publicIps ip (hpub ip hip) hf
    exact ⟨ref, hrefs ref href, hname⟩

theorem Held.dropPublic (h : Held foreign refs cloud) (ip : String) : Held foreign refs (cloud.dropPublic ip) :=
  h.mono (fun _ h => h) (fun _ h => h) fun _ h => List.mem_of_mem_filter h

theorem Held.dropPrivate (h : Held foreign refs cloud) (ip : String) : Held foreign refs (cloud.dropPrivate ip) :=
  h.mono (fun _ h => h) (fun _ h => List.mem_of_mem_filter h) fun _ h => h

theorem Held.dropped {a b : Option String} (h : Held foreign refs cloud) (hd : Dropped cloud cloud' a b) :
    Held foreign refs cloud' :=
  h.mono (fun _ h => h) (fun ip hip => (hd.privateIps ip hip).1) fun ip hip => (hd.publicIps ip hip).1

/-- Dropping a row that names nothing live. -/
theorem Held.delete (h : Held foreign refs cloud) (hs : Idle refs cloud id) :
    Held foreign (refs.filter (·.id ≠ id)) cloud where
  privateIps ip hip hf := by
    obtain ⟨ref, href, hname⟩ := h.privateIps ip hip hf
    refine ⟨ref, List.mem_filter.2 ⟨href, decide_eq_true fun hid => ?_⟩, hname⟩
    exact hs.privateIps ref href hid ip hip hname
  publicIps ip hip hf := by
    obtain ⟨ref, href, hname⟩ := h.publicIps ip hip hf
    refine ⟨ref, List.mem_filter.2 ⟨href, decide_eq_true fun hid => ?_⟩, hname⟩
    exact hs.publicIps ref href hid ip hip hname

/-- The references after the row of `id` is replaced. -/
def replaceRef (refs : List Ref) (new : Ref) : List Ref := refs.map fun ref => if ref.id = new.id then new else ref

theorem mem_replaceRef_self {ref : Ref} (href : ref ∈ refs) (hid : ref.id = new.id) : new ∈ replaceRef refs new :=
  List.mem_map.2 ⟨ref, href, if_pos hid⟩

theorem mem_replaceRef_of_ne {ref : Ref} (href : ref ∈ refs) (hid : ref.id ≠ new.id) : ref ∈ replaceRef refs new :=
  List.mem_map.2 ⟨ref, href, if_neg hid⟩

/-- Replacing a row that names nothing live. -/
theorem Held.replace (h : Held foreign refs cloud) (hs : Idle refs cloud new.id) :
    Held foreign (replaceRef refs new) cloud := by
  refine (h.delete hs).mono (fun ref href => ?_) (fun _ h => h) fun _ h => h
  rw [List.mem_filter] at href
  exact mem_replaceRef_of_ne href.1 (by simpa using href.2)

/-- A new pair of addresses in a row that named nothing live. -/
theorem Held.allocate {ref : Ref} {ip ip' : String} (h : Held foreign refs cloud) (hs : Idle refs cloud new.id)
    (href : ref ∈ refs) (hid : ref.id = new.id) (hpriv : new.privateIp = some ip) (hpub : new.publicIp = some ip') :
    Held foreign (replaceRef refs new) ((cloud.addPrivate ip).addPublic ip') where
  privateIps a ha hf := by
    rcases List.mem_cons.1 ha with rfl | ha
    · exact ⟨new, mem_replaceRef_self href hid, hpriv⟩
    · exact (h.replace hs).privateIps a ha hf
  publicIps a ha hf := by
    rcases List.mem_cons.1 ha with rfl | ha
    · exact ⟨new, mem_replaceRef_self href hid, hpub⟩
    · exact (h.replace hs).publicIps a ha hf

/-- A new pair of addresses given back. -/
theorem Held.undo {ip ip' : String} (h : Held foreign refs cloud) :
    Held foreign refs ((((cloud.addPrivate ip).addPublic ip').dropPublic ip').dropPrivate ip) := by
  refine h.mono (fun _ h => h) (fun a ha => ?_) fun a ha => ?_
  · obtain ⟨ha, hne⟩ := List.mem_filter.1 ha
    exact (List.mem_cons.1 ha).resolve_left (of_decide_eq_true hne)
  · obtain ⟨ha, hne⟩ := List.mem_filter.1 ha
    exact (List.mem_cons.1 ha).resolve_left (of_decide_eq_true hne)

end Refs

/-! ## Statements -/

theorem map_ref_set {t : Sql.Table mappingsSchema} {id : String} {f : Row → Row} {hf : ∀ row, (f row).id = row.id}
    (href : ∀ row, (f row).ref = row.ref) : (t.set id f hf).rows.map Row.ref = t.rows.map Row.ref := by
  simp only [Sql.Table.set, List.map_map]
  refine List.map_congr_left fun row _ => ?_
  simp only [Function.comp]
  split
  · exact href row
  · rfl

theorem map_ref_replaced {t : Sql.Table mappingsSchema} (cols : Row) :
    (t.set cols.id cols.replaced cols.replaced_id).rows.map Row.ref = replaceRef (t.rows.map Row.ref) cols.ref := by
  simp only [Sql.Table.set, replaceRef, List.map_map]
  refine List.map_congr_left fun row _ => ?_
  simp only [Function.comp]
  by_cases hid : row.id = cols.id
  · rw [if_pos (show mappingsSchema.key row = cols.id from hid), if_pos (show row.ref.id = cols.ref.id from hid),
      Row.ref, Row.ref, Row.replaced, hid]
  · rw [if_neg (show ¬ mappingsSchema.key row = cols.id from hid), if_neg (show ¬ row.ref.id = cols.ref.id from hid)]

theorem map_ref_delete {t : Sql.Table mappingsSchema} (id : String) :
    (t.delete id).rows.map Row.ref = (t.rows.map Row.ref).filter (·.id ≠ id) := by
  simp only [Sql.Table.delete, Sql.Table.others, List.filter_map]
  rfl

/-- A statement that leaves every reference. -/
def KeepsRefs : StoreOp → Prop
  | .sql (.insertMapping _) | .sql (.updateMapping _) | .sql (.deleteMapping _) => False
  | _ => True

theorem refs_step {o : StoreOp} {r : o.Reply} (ho : KeepsRefs o) (hE : storeEnv db o r db') : db'.refs = db.refs := by
  have hstep := storeEnv_step hE
  unfold Db.refs
  generalize he : (⟨o, r⟩ : Event StoreSig) = e at hstep
  cases hstep with
  | same _ ht => rw [ht]
  | insert row _ _ ht => cases he; exact absurd ho id
  | update cols old _ _ _ ht => cases he; exact absurd ho id
  | enable id old enabled status updatedAt _ _ _ ht => rw [ht]; exact map_ref_set fun _ => rfl
  | health id old status healthStatus lastError checked updated _ _ ht => rw [ht]; exact map_ref_set fun _ => rfl
  | delete id ht => cases he; exact absurd ho (fun h => h)

theorem ref_of_stored {id : MappingId} (h : StoredAs C db id m) : m.ref ∈ db.refs := by
  obtain ⟨row, hmem, hid, hrow, hmid⟩ := h
  have hcols := rowToMapping_ok.1 hrow
  refine List.mem_map.2 ⟨row, hmem, ?_⟩
  rw [Row.ref, Mapping.ref, hcols.ociPrivateIpOcid, hcols.ociPublicIpOcid, hid, hmid]

/-- **One row for an id.** -/
theorem ref_unique {ref ref' : Ref} (h : ref ∈ db.refs) (h' : ref' ∈ db.refs) (hid : ref.id = ref'.id) :
    ref = ref' := by
  obtain ⟨row, hrow, rfl⟩ := List.mem_map.1 h
  obtain ⟨row', hrow', rfl⟩ := List.mem_map.1 h'
  rw [Sql.Table.eq_of_key_eq hrow hrow' hid]

theorem refs_of_updated {m : Mapping} {cols old : Row} (h : Updated C m db.mappings db'.mappings cols old) :
    db'.refs = replaceRef db.refs m.ref := by
  have hcols : cols.ref = m.ref := by
    have hb := h.bound
    simp only [Codec.updateRow, Codec.bindMapping, except_bind_ok] at hb
    obtain ⟨_, -, _, -, _, -, _, -, _, -, _, -, hb⟩ := hb
    cases hb
    rfl
  unfold Db.refs
  rw [h.table, map_ref_replaced, hcols]

/-! ## Commands that succeed -/

/-- Every `oci` command of the event succeeded. -/
def OciOk : Event AgentSig → Prop
  | ⟨.oci _, r⟩ => Outcome.Succeeded r
  | _ => True

/-- The world of a front end, where every `oci` command succeeds. -/
def okEnv (J : OciJson) : Env AgentSig AgentWorld := fun w o r w' => agentEnv J w o r w' ∧ OciOk ⟨o, r⟩

/-- The cloud, where every command succeeds. -/
def okCloud (J : OciJson) : Env OciSig Cloud := fun c o r c' => cloudEnv J c o r c' ∧ Outcome.Succeeded r

theorem okEnv_refines : Refines J (okEnv J) := fun _ _ _ _ h => h.1

theorem okEnv_oci (w : AgentWorld) (o : OciCommand) (r : Outcome) (w' : AgentWorld) (h : okEnv J w (.oci o) r w') :
    ∃ cloud, okCloud J w.cloud o r cloud ∧ w' = w.setCloud cloud := by
  obtain ⟨⟨cloud, hc, rfl⟩, hs⟩ := h
  exact ⟨cloud, ⟨hc, hs⟩, rfl⟩

section Cloud

variable {c c' : Cloud} {r : Outcome}

theorem ociOutput_of_succeeded (h : r.Succeeded) : ∃ output, r = .exited output ∧ output.isSuccess = true ∧
    ociOutput r = .ok output := by
  cases r with
  | timedOut => exact absurd h id
  | ioError message => exact absurd h id
  | exited output => exact ⟨output, rfl, h, if_pos h⟩

/-- A create that succeeds returns the address it created. -/
theorem sat_create {command : OciCommand} {parse : String → Except String β} (ocid : β → String)
    (add : Cloud → String → Cloud)
    (hE : ∀ r c', cloudEnv J c command r c' → Creates parse ocid c (add c) r c') :
    (runOciJson command parse).Sat (okCloud J) c fun c' x => ∃ b, x = .ok b ∧ ocid b ∉ c.issued ∧
      c' = add c (ocid b) := by
  refine Prog.sat_call fun r c' ⟨hcloud, hs⟩ => ?_
  obtain ⟨output, rfl, hok, hout⟩ := ociOutput_of_succeeded hs
  obtain ⟨b, hb, hfresh, rfl⟩ := (hE _ _ hcloud).succeeded output rfl hok
  beta_reduce
  rw [hout]
  refine Prog.sat_ofExcept ⟨b, ?_, hfresh, rfl⟩
  rw [hb]
  rfl

/-- A delete that succeeds removes the address. -/
theorem sat_delete {command : OciCommand} {able : Prop} {dropped : Cloud}
    (hE : ∀ r c', cloudEnv J c command r c' → Deletes able c dropped r c') :
    (runOciUnit command).Sat (okCloud J) c fun c' x => x = .ok () ∧ c' = dropped := by
  refine Prog.sat_call fun r c' ⟨hcloud, hs⟩ => ?_
  obtain ⟨output, rfl, hok, hout⟩ := ociOutput_of_succeeded hs
  obtain ⟨-, rfl⟩ := (hE _ _ hcloud).succeeded hs
  beta_reduce
  rw [hout]
  exact Prog.sat_ret ⟨rfl, rfl⟩

theorem sat_deletePublicIp (id : String) :
    (deletePublicIp id).Sat (okCloud J) c fun c' x => x = .ok () ∧ c' = c.dropPublic id :=
  sat_delete fun _ _ h => h

theorem sat_deletePrivateIp (id : String) :
    (deletePrivateIp id).Sat (okCloud J) c fun c' x => x = .ok () ∧ c' = c.dropPrivate id :=
  sat_delete fun _ _ h => h

/-- The check of the VNIC leaves the cloud. -/
theorem sat_validateForwardingVnic {G : Env OciSig Cloud} {vnicId : String}
    (hG : ∀ c r c', G c (.getVnic vnicId) r c' → c' = c) :
    (validateForwardingVnic J vnicId).Sat G c fun c' _ => c' = c := by
  refine Prog.sat_of_uses (P := fun o : OciCommand => o = .getVnic vnicId) (I := fun c' : Cloud => c' = c) ?_ ?_ rfl
  · refine Prog.uses_bind (Prog.uses_bind (Prog.uses_call rfl fun _ => Prog.uses_ofExcept) fun _ =>
      Prog.uses_ofExcept) fun _ => Prog.uses_bind Prog.uses_ofExcept fun _ => Prog.uses_ret
  · rintro c₁ o r c₂ rfl hE rfl
    exact hG _ _ _ hE

/-- **An allocation** creates a pair of addresses, or fails its check of the VNIC before it creates any. -/
theorem sat_allocateWith {lift : OciError → ε} {onFailure : OciError → Except OciError Unit → ε}
    (compartmentId vnicId : String) (name : Option String) :
    (allocateWith J lift onFailure compartmentId vnicId name).Sat (okCloud J) c fun c' x =>
      (∀ e, x = .error e → c' = c) ∧
      ∀ a, x = .ok a → c' = (c.addPrivate a.privateIp.id).addPublic a.publicIp.id := by
  have hvnic : (validateForwardingVnic J vnicId).Sat (okCloud J) c fun c' _ => c' = c :=
    sat_validateForwardingVnic fun _ _ _ hE => hE.1
  refine Prog.sat_bind (Prog.sat_mapErr (Prog.sat_mono ?_ hvnic))
  rintro c₁ x rfl
  refine ⟨fun _ _ => ?_, fun _ _ => ⟨fun _ _ => rfl, fun a h => nomatch h⟩⟩
  refine Prog.sat_bind (Prog.sat_mapErr (Prog.sat_mono ?_
    (sat_create PrivateIp.id Cloud.addPrivate fun _ _ h => h)))
  rintro c₂ x ⟨ip, rfl, -, rfl⟩
  refine ⟨fun ip' hip => ?_, fun _ h => nomatch h⟩
  obtain rfl := Except.ok.inj hip
  refine Prog.sat_bind (Prog.sat_attempt (Prog.sat_mono ?_
    (sat_create PublicIp.id Cloud.addPublic fun _ _ h => h)))
  rintro c₃ x ⟨pub, rfl, -, rfl⟩
  refine ⟨fun y hy => ?_, fun _ h => nomatch h⟩
  obtain rfl := Except.ok.inj hy
  refine Prog.sat_ret ⟨fun _ h => (nomatch h), fun a ha => ?_⟩
  obtain rfl := Except.ok.inj ha
  rfl

end Cloud

/-! ## Operations -/

variable {foreign : List String} {F : Env AgentSig AgentWorld}

def HeldIn (foreign : List String) (w : AgentWorld) : Prop := Held foreign w.host.db.refs w.cloud

/-- An operation that leaves the references and the cloud. -/
def Frozen : AgentOp → Prop
  | .host (.store o) => KeepsRefs o
  | .oci command => Inert (.oci command)
  | _ => True

/-- An operation that drops no reference and creates no address. -/
def Keeps : AgentOp → Prop
  | .host (.store (.sql (.insertMapping _))) | .oci (.deletePublicIp _) | .oci (.deletePrivateIp _) => True
  | o => Frozen o

theorem frozen_of_inert {o : AgentOp} (h : Inert o) : Frozen o := by
  cases o with
  | host o =>
    cases o with
    | store o =>
      cases o with
      | now => trivial
      | sql s => cases s <;> first | trivial | exact absurd trivial h
    | _ => trivial
  | oci command => exact h
  | _ => trivial

theorem keeps_of_frozen {o : AgentOp} (h : Frozen o) : Keeps o := by
  unfold Keeps
  split
  · trivial
  · trivial
  · trivial
  · exact h

theorem frozen_step {o : AgentOp} {r : o.Reply} (ho : Frozen o) (hE : agentEnv J w o r w') :
    w'.host.db.refs = w.host.db.refs ∧ w'.cloud = w.cloud := by
  cases o with
  | host o =>
    obtain ⟨host, hE, rfl⟩ := hE
    refine ⟨?_, rfl⟩
    cases o with
    | store o =>
      obtain ⟨db', hdb, rfl⟩ := hE
      exact refs_step ho hdb
    | atomicWrite path text | nft mode path | ip command | connect ip port =>
      refine congrArg Db.refs (db_of_hostEnv ?_ hE)
      exact fun h => h
  | oci command =>
    obtain ⟨cloud, hE, rfl⟩ := hE
    refine ⟨rfl, ?_⟩
    cases command <;> first | exact hE | exact absurd ho id
  | selectEvents limit => rw [hE.1]; exact ⟨rfl, rfl⟩
  | newId | netbirdStatus | routeGet target | envVar name => rw [show w' = w from hE]; exact ⟨rfl, rfl⟩

theorem keeps_step {o : AgentOp} {r : o.Reply} (ho : Keeps o) (hE : agentEnv J w o r w') (h : HeldIn foreign w) :
    HeldIn foreign w' := by
  unfold Keeps at ho
  split at ho
  · rename_i row
    obtain ⟨host, ⟨db', hdb, rfl⟩, rfl⟩ := hE
    refine h.mono (fun ref href => ?_) (fun _ h => h) fun _ h => h
    have hstep := storeEnv_step hdb
    generalize he : (⟨.sql (.insertMapping row), r⟩ : Event StoreSig) = e at hstep
    cases hstep with
    | same _ ht =>
      show ref ∈ db'.mappings.rows.map Row.ref
      exact ht ▸ href
    | insert row _ _ ht =>
      show ref ∈ db'.mappings.rows.map Row.ref
      rw [ht, List.map_append]
      exact List.mem_append_left _ href
    | update | enable | health | delete => cases he
  · obtain ⟨cloud, hE, rfl⟩ := hE
    rcases hE.either with rfl | ⟨-, rfl⟩
    · exact h
    · exact h.dropPublic _
  · obtain ⟨cloud, hE, rfl⟩ := hE
    rcases hE.either with rfl | ⟨-, rfl⟩
    · exact h
    · exact h.dropPrivate _
  · obtain ⟨hrefs, hcloud⟩ := frozen_step ho hE
    unfold HeldIn
    rw [hrefs, hcloud]
    exact h

theorem sat_frozen {p : AgentProg ε α} (hF : Refines J F) (h : p.Uses Frozen) :
    p.Sat F w fun w' _ => w'.host.db.refs = w.host.db.refs ∧ w'.cloud = w.cloud := by
  refine Prog.sat_of_uses (I := fun w' : AgentWorld => w'.host.db.refs = w.host.db.refs ∧ w'.cloud = w.cloud) h
    (fun w₁ o r w₂ ho hE hI => ?_) ⟨rfl, rfl⟩
  obtain ⟨hrefs, hcloud⟩ := frozen_step ho (hF _ _ _ _ hE)
  exact ⟨hrefs.trans hI.1, hcloud.trans hI.2⟩

theorem sat_keeps {p : AgentProg ε α} (hF : Refines J F) (h : p.Uses Keeps) (hw : HeldIn foreign w) :
    p.Sat F w fun w' _ => HeldIn foreign w' :=
  Prog.sat_of_uses (I := HeldIn foreign) h (fun _ _ _ _ ho hE hI => keeps_step ho (hF _ _ _ _ hE) hI) hw

theorem sat_held_of_inert {p : AgentProg ε α} (h : p.Uses Inert) (hw : HeldIn foreign w) :
    p.Sat (okEnv J) w fun w' _ => HeldIn foreign w' :=
  sat_keeps okEnv_refines (Prog.uses_mono (fun _ ho => keeps_of_frozen (frozen_of_inert ho)) h) hw

/-! ## Parts of calls -/

/-- The row that a call reads. -/
theorem sat_read {f : EdgeCoreError → ε} (hF : ActsOnHost F) (id : MappingId) :
    ((onStore (getMapping C id)).mapErr f).Sat F w fun w' x =>
      w' = w ∧ ∀ m, x = .ok m → StoredAs C w.host.db id m := by
  refine Prog.sat_mapErr (Prog.sat_mono ?_ (sat_onStore hF (sat_getMapping_stored id)))
  rintro w₁ x ⟨db', rfl, rfl, hx⟩
  refine ⟨rfl, fun m hm => ?_⟩
  cases x with
  | error e => cases hm
  | ok m' => cases hm; exact hx _ rfl

/-- The row of `id` names nothing live where the mapping it decodes to does not. -/
theorem StoredAs.idle {id : MappingId} {cloud : Cloud} (h : StoredAs C db id m)
    (hpriv : ∀ ip ∈ cloud.privateIps, m.ociPrivateIpOcid ≠ some ip)
    (hpub : ∀ ip ∈ cloud.publicIps, m.ociPublicIpOcid ≠ some ip) : Idle db.refs cloud id.val := by
  have hmem := ref_of_stored h
  obtain ⟨-, -, -, -, rfl⟩ := h
  refine ⟨fun ref href hid ip hip hname => ?_, fun ref href hid ip hip hname => ?_⟩
  · rw [ref_unique href hmem hid] at hname
    exact hpriv ip hip hname
  · rw [ref_unique href hmem hid] at hname
    exact hpub ip hip hname

theorem sat_markStatus (hF : ActsOnHost F) (m : Mapping) (status : MappingStatus) :
    (markStatus m status : AgentProg ε Mapping).Sat F w fun w' x =>
      w' = w ∧ ∃ now, x = .ok { m with status, updatedAt := now } := by
  refine Prog.sat_call fun now w' hE => ?_
  obtain ⟨host, ⟨db', rfl, rfl⟩, rfl⟩ := hF _ _ _ _ hE
  exact Prog.sat_ret ⟨rfl, now, rfl⟩

/-- **The end of an allocation** names the new addresses in the row, or gives them back. -/
theorem held_storeAllocation {id : MappingId}
    {onFailure : EdgeCoreError → Except OciError Unit → Except OciError Unit → ε}
    (h : HeldIn foreign w) (hm : StoredAs C w.host.db id m) (hno : m.hasAllocation = false) (a : Allocation) :
    (storeAllocation C onFailure m a).Sat (okEnv J)
      (w.setCloud ((w.cloud.addPrivate a.privateIp.id).addPublic a.publicIp.id)) fun w' _ => HeldIn foreign w' := by
  have hidle : Idle w.host.db.refs w.cloud id.val := by
    simp only [Mapping.hasAllocation, Bool.or_eq_false_iff, Option.isSome_eq_false_iff,
      Option.isNone_iff_eq_none] at hno
    refine hm.idle (fun ip _ hname => ?_) fun ip _ hname => ?_
    · exact nomatch hno.2.symm.trans hname
    · exact nomatch hno.1.2.symm.trans hname
  have href := ref_of_stored hm
  obtain ⟨-, -, -, -, rfl⟩ := hm
  refine Prog.sat_bind (Prog.sat_mono ?_ (sat_markStatus okEnv_refines.onHost _ _))
  rintro w₁ x ⟨rfl, now, rfl⟩
  refine ⟨fun m' hm' => ?_, fun _ h => nomatch h⟩
  obtain rfl := Except.ok.inj hm'
  refine Prog.sat_bind (Prog.sat_attempt (Prog.sat_mono ?_ (sat_onStore okEnv_refines.onHost (sat_updateMapping _))))
  rintro w₂ x ⟨db', rfl, herror, hok⟩
  refine ⟨fun y hy => ?_, fun _ h => nomatch h⟩
  obtain rfl := Except.ok.inj hy
  cases x with
  | ok u =>
    obtain ⟨cols, old, hupdated⟩ := hok rfl
    refine Prog.sat_ret ?_
    unfold HeldIn
    rw [setDb_db, refs_of_updated hupdated]
    exact h.allocate hidle href rfl rfl rfl
  | error e =>
    have hrefs : db'.refs = w.host.db.refs := congrArg (fun t => t.rows.map Row.ref) (herror e rfl)
    refine Prog.sat_bind (Prog.sat_attempt (Prog.sat_mono ?_ (sat_liftOci okEnv_oci (sat_deletePublicIp _))))
    rintro w₃ x ⟨cloud, rfl, rfl, rfl⟩
    refine ⟨fun _ _ => ?_, fun _ h => nomatch h⟩
    refine Prog.sat_bind (Prog.sat_attempt (Prog.sat_mono ?_ (sat_liftOci okEnv_oci (sat_deletePrivateIp _))))
    rintro w₄ x ⟨cloud, rfl, rfl, rfl⟩
    refine ⟨fun _ _ => Prog.sat_fail ?_, fun _ h => nomatch h⟩
    unfold HeldIn
    rw [setCloud_host, setCloud_host, setDb_db, hrefs]
    exact h.undo

/-- A delete of an address, in a front end. -/
theorem sat_deleteIp {f : OciError → ε} {delete : String → OciProg Unit} {drop : Cloud → String → Cloud}
    (hdelete : ∀ c id, (delete id).Sat (okCloud J) c fun c' x => x = .ok () ∧ c' = drop c id) (id : String) :
    ((liftOci (delete id)).mapErr f).Sat (okEnv J) w fun w' x => x = .ok () ∧ w' = w.setCloud (drop w.cloud id) := by
  refine Prog.sat_mapErr (Prog.sat_mono ?_ (sat_liftOci okEnv_oci (hdelete _ id)))
  rintro w₁ x ⟨cloud, rfl, rfl, rfl⟩
  exact ⟨rfl, rfl⟩

/-- The cloud without an address that may not be there. -/
def dropIfSome (drop : Cloud → String → Cloud) (c : Cloud) (id : Option String) : Cloud := id.elim c (drop c)

theorem dropped_dropIfSome (c : Cloud) (privateIp publicIp : Option String) :
    Dropped c (dropIfSome Cloud.dropPrivate (dropIfSome Cloud.dropPublic c publicIp) privateIp) privateIp publicIp := by
  have hmem : ∀ {xs : List String} {a b : String}, b ∈ xs.filter (· ≠ a) → b ∈ xs ∧ some a ≠ some b := by
    intro xs a b h
    obtain ⟨hb, hne⟩ := List.mem_filter.1 h
    exact ⟨hb, fun h => of_decide_eq_true hne (Option.some.inj h).symm⟩
  cases privateIp with
  | none =>
    cases publicIp with
    | none => exact ⟨fun ip h => ⟨h, nofun⟩, fun ip h => ⟨h, nofun⟩⟩
    | some b => exact ⟨fun ip h => ⟨h, nofun⟩, fun ip h => hmem h⟩
  | some a =>
    cases publicIp with
    | none => exact ⟨fun ip h => hmem h, fun ip h => ⟨h, nofun⟩⟩
    | some b => exact ⟨fun ip h => hmem h, fun ip h => hmem h⟩

theorem sat_deleteIfSome {delete : String → OciProg Unit} {drop : Cloud → String → Cloud}
    (hdelete : ∀ c id, (delete id).Sat (okCloud J) c fun c' x => x = .ok () ∧ c' = drop c id) (id : Option String) :
    (Api.deleteIfSome delete id).Sat (okEnv J) w fun w' x =>
      x = .ok () ∧ w' = w.setCloud (dropIfSome drop w.cloud id) := by
  cases id with
  | none => exact Prog.sat_ret ⟨rfl, rfl⟩
  | some id => exact sat_deleteIp hdelete id

theorem sat_deleteIps (publicIpId privateIpId : Option String) :
    (Api.deleteIps publicIpId privateIpId).Sat (okEnv J) w fun w' x =>
      x = .ok () ∧ ∃ cloud, w' = w.setCloud cloud ∧ Dropped w.cloud cloud privateIpId publicIpId := by
  refine Prog.sat_bind (Prog.sat_mono ?_ (sat_deleteIfSome (fun _ => sat_deletePublicIp) publicIpId))
  rintro w₁ x ⟨rfl, rfl⟩
  refine ⟨fun _ _ => ?_, fun _ h => nomatch h⟩
  refine Prog.sat_mono ?_ (sat_deleteIfSome (fun _ => sat_deletePrivateIp) privateIpId)
  rintro w₂ x ⟨rfl, rfl⟩
  exact ⟨rfl, _, rfl, dropped_dropIfSome _ _ _⟩

theorem sat_cleanupIp {delete : String → OciProg Unit} {drop : Cloud → String → Cloud}
    (hdelete : ∀ c id, (delete id).Sat (okCloud J) c fun c' x => x = .ok () ∧ c' = drop c id) (kind : String)
    (id : Option String) : (Cli.cleanupIp delete kind id).Sat (okEnv J) w fun w' x =>
      x = .ok [] ∧ w' = w.setCloud (dropIfSome drop w.cloud id) := by
  cases id with
  | none => exact Prog.sat_ret ⟨rfl, rfl⟩
  | some id =>
    refine Prog.sat_bind (Prog.sat_attempt (Prog.sat_mono ?_ (sat_liftOci okEnv_oci (hdelete _ id))))
    rintro w₁ x ⟨cloud, rfl, rfl, rfl⟩
    refine ⟨fun y hy => ?_, fun _ h => nomatch h⟩
    obtain rfl := Except.ok.inj hy
    exact Prog.sat_ret ⟨rfl, rfl⟩

theorem sat_cleanupMappingOci (m : Mapping) : (Cli.cleanupMappingOci m).Sat (okEnv J) w fun w' x =>
    x = .ok () ∧ ∃ cloud, w' = w.setCloud cloud ∧ Dropped w.cloud cloud m.ociPrivateIpOcid m.ociPublicIpOcid := by
  refine Prog.sat_bind (Prog.sat_mono ?_ (sat_cleanupIp (fun _ => sat_deletePublicIp) _ _))
  rintro w₁ x ⟨rfl, rfl⟩
  refine ⟨fun a ha => ?_, fun _ h => nomatch h⟩
  obtain rfl := Except.ok.inj ha
  refine Prog.sat_bind (Prog.sat_mono ?_ (sat_cleanupIp (fun _ => sat_deletePrivateIp) _ _))
  rintro w₂ x ⟨rfl, rfl⟩
  refine ⟨fun b hb => ?_, fun _ h => nomatch h⟩
  obtain rfl := Except.ok.inj hb
  exact Prog.sat_ofExcept ⟨rfl, _, rfl, dropped_dropIfSome _ _ _⟩

/-- A row is deleted that names nothing live. -/
theorem held_deleteMapping {f : EdgeCoreError → ε} {id : MappingId} (h : HeldIn foreign w)
    (hidle : Idle w.host.db.refs w.cloud id.val) :
    ((onStore (deleteMapping C id)).mapErr f).Sat (okEnv J) w fun w' _ => HeldIn foreign w' := by
  refine Prog.sat_mapErr (Prog.sat_mono ?_ (sat_onStore okEnv_refines.onHost (sat_deleteMapping id)))
  rintro w₁ x ⟨db', rfl, herror, hok⟩
  cases x with
  | error e =>
    have hrefs : db'.refs = w.host.db.refs := congrArg (fun t => t.rows.map Row.ref) (herror e rfl)
    unfold HeldIn
    rw [setDb_db, hrefs]
    exact h
  | ok m =>
    have hrefs : db'.refs = w.host.db.refs.filter (·.id ≠ id.val) := by
      rw [Db.refs, (hok m rfl).2, map_ref_delete]
      rfl
    unfold HeldIn
    rw [setDb_db, hrefs]
    exact h.delete hidle

/-- The row of a release is written after the addresses are gone. -/
theorem held_updateReleased {f : EdgeCoreError → ε} {now : OffsetDateTime} {status : MappingStatus}
    (h : HeldIn foreign w) (hidle : Idle w.host.db.refs w.cloud m.id.val) :
    ((onStore (updateMapping C { m.released with status, updatedAt := now })).mapErr f).Sat (okEnv J) w
      fun w' _ => HeldIn foreign w' := by
  refine Prog.sat_mapErr (Prog.sat_mono ?_ (sat_onStore okEnv_refines.onHost (sat_updateMapping _)))
  rintro w₁ x ⟨db', rfl, herror, hok⟩
  cases x with
  | error e =>
    have hrefs : db'.refs = w.host.db.refs := congrArg (fun t => t.rows.map Row.ref) (herror e rfl)
    unfold HeldIn
    rw [setDb_db, hrefs]
    exact h
  | ok u =>
    obtain ⟨cols, old, hupdated⟩ := hok rfl
    unfold HeldIn
    rw [setDb_db, refs_of_updated hupdated]
    exact h.replace hidle

/-! ## Calls -/

theorem held_ociAllocate {request : OciAllocateRequest} (h : HeldIn foreign w) :
    (Api.ociAllocate C J config headers request).Sat (okEnv J) w fun w' _ => HeldIn foreign w' := by
  refine Prog.sat_bind (Prog.sat_ofExcept ⟨fun _ _ => ?_, fun _ _ => h⟩)
  refine Prog.sat_bind (Prog.sat_ofExcept ⟨fun _ _ => ?_, fun _ _ => h⟩)
  refine Prog.sat_bind (Prog.sat_ofExcept ⟨fun id _ => ?_, fun _ _ => h⟩)
  refine Prog.sat_bind (Prog.sat_mono ?_ (sat_read okEnv_refines.onHost id))
  rintro w₁ x ⟨rfl, hx⟩
  refine ⟨fun m hm => ?_, fun _ _ => h⟩
  refine Prog.sat_bind (Prog.sat_ofExcept ⟨fun _ hno => ?_, fun _ _ => h⟩)
  refine Prog.sat_bind (Prog.sat_ofExcept ⟨fun _ _ => ?_, fun _ _ => h⟩)
  refine Prog.sat_bind (Prog.sat_ofExcept ⟨fun _ _ => ?_, fun _ _ => h⟩)
  refine Prog.sat_bind (Prog.sat_mapErr (Prog.sat_mono ?_ (sat_liftOci okEnv_oci (sat_allocateWith _ _ _))))
  rintro w₂ y ⟨cloud, rfl, herror, hok⟩
  cases y with
  | error e =>
    refine ⟨fun _ h => (nomatch h), fun _ _ => ?_⟩
    rw [herror e rfl]
    exact h
  | ok a =>
    refine ⟨fun a' ha' => ?_, fun _ h => nomatch h⟩
    obtain rfl := Except.ok.inj ha'
    rw [hok a rfl]
    refine Prog.sat_bind (Prog.sat_mono ?_ (held_storeAllocation h (hx m hm) (rejectIf_ok.1 hno) a))
    intro w₃ x h₃
    refine ⟨fun _ _ => ?_, fun _ _ => h₃⟩
    exact sat_held_of_inert (Prog.uses_bind inert_attemptEvent fun _ => Prog.uses_ret) h₃

theorem held_releaseMapping {id : String} (h : HeldIn foreign w) :
    (Api.releaseMapping C id).Sat (okEnv J) w fun w' _ => HeldIn foreign w' := by
  refine Prog.sat_bind (Prog.sat_ofExcept ⟨fun id _ => ?_, fun _ _ => h⟩)
  refine Prog.sat_bind (Prog.sat_mono ?_ (sat_read okEnv_refines.onHost id))
  rintro w₁ x ⟨rfl, hx⟩
  refine ⟨fun m hm => ?_, fun _ _ => h⟩
  refine Prog.sat_bind (Prog.sat_ofExcept ⟨fun _ _ => ?_, fun _ _ => h⟩)
  refine Prog.sat_bind (Prog.sat_mono ?_ (sat_deleteIps _ _))
  rintro w₂ x ⟨rfl, cloud, rfl, hd⟩
  have h₂ : HeldIn foreign (w₁.setCloud cloud) := h.dropped hd
  have hstored := hx m hm
  have hidle : Idle w₁.host.db.refs cloud id.val :=
    hstored.idle (fun ip hip => (hd.privateIps ip hip).2) fun ip hip => (hd.publicIps ip hip).2
  obtain ⟨-, -, -, -, rfl⟩ := hstored
  refine ⟨fun _ _ => ?_, fun _ h => nomatch h⟩
  refine Prog.sat_bind (Prog.sat_mono ?_ (sat_markStatus okEnv_refines.onHost _ _))
  rintro w₃ x ⟨rfl, now, rfl⟩
  refine ⟨fun m' hm' => ?_, fun _ h => nomatch h⟩
  obtain rfl := Except.ok.inj hm'
  refine Prog.sat_bind (Prog.sat_mono ?_ (held_updateReleased h₂ hidle))
  intro w₄ x h₄
  refine ⟨fun _ _ => ?_, fun _ _ => h₄⟩
  exact sat_held_of_inert (Prog.uses_bind inert_attemptEvent fun _ => Prog.uses_ret) h₄

theorem held_ociRelease {request : OciReleaseRequest} (h : HeldIn foreign w) :
    (Api.ociRelease C config headers request).Sat (okEnv J) w fun w' _ => HeldIn foreign w' := by
  refine Prog.sat_bind (Prog.sat_ofExcept ⟨fun _ _ => ?_, fun _ _ => h⟩)
  refine Prog.sat_bind (Prog.sat_ofExcept ⟨fun _ _ => ?_, fun _ _ => h⟩)
  cases resolve request.mappingId none with
  | some id => exact held_releaseMapping h
  | none =>
    refine Prog.sat_bind (Prog.sat_ofExcept ⟨fun _ _ => ?_, fun _ _ => h⟩)
    refine Prog.sat_bind (Prog.sat_mono ?_ (sat_deleteIps _ _))
    rintro w₂ x ⟨rfl, cloud, rfl, hd⟩
    exact ⟨fun _ _ => Prog.sat_ret (h.dropped hd), fun _ h => nomatch h⟩

theorem frozen_setMappingEnabled {id : MappingId} {enabled : Bool} :
    (setMappingEnabled C id enabled).Uses fun o => Frozen (.host (.store o)) :=
  setMappingEnabled_uses C trivial trivial fun _ _ _ => trivial

theorem frozen_reconcile {options : ReconcileOptions} :
    (liftHost (reconcile C config options)).Uses Frozen :=
  Prog.uses_mono (fun _ => frozen_of_inert) (liftHost_uses (P := Inert) (noEdit_reconcile config options))

/-- **The delete of the API**, where the row names nothing live. -/
theorem held_apiDelete {id : String} (h : HeldIn foreign w)
    (hidle : requireAuth config headers = .ok () → ∀ mid, MappingId.fromStr id = .ok mid →
      Idle w.host.db.refs w.cloud mid.val) :
    (Api.deleteMapping C config headers id).Sat (okEnv J) w fun w' _ => HeldIn foreign w' := by
  have hsame : ∀ {w' : AgentWorld}, w'.host.db.refs = w.host.db.refs ∧ w'.cloud = w.cloud → HeldIn foreign w' := by
    rintro w' ⟨hrefs, hcloud⟩
    unfold HeldIn
    rw [hrefs, hcloud]
    exact h
  refine Prog.sat_bind (Prog.sat_ofExcept ⟨fun _ hauth => ?_, fun _ _ => h⟩)
  refine Prog.sat_bind (Prog.sat_ofExcept ⟨fun mid hmid => ?_, fun _ _ => h⟩)
  refine Prog.sat_bind (Prog.sat_mono ?_ (sat_frozen okEnv_refines (apiStore_uses frozen_setMappingEnabled)))
  intro w₁ x h₁
  refine ⟨fun _ _ => ?_, fun _ _ => hsame h₁⟩
  refine Prog.sat_bind (Prog.sat_mono ?_ (sat_frozen okEnv_refines (Prog.uses_attempt frozen_reconcile)))
  intro w₂ x h₂
  have h₂' := And.intro (h₂.1.trans h₁.1) (h₂.2.trans h₁.2)
  refine ⟨fun y _ => ?_, fun _ _ => hsame h₂'⟩
  cases y with
  | error e =>
    refine sat_held_of_inert (Prog.uses_bind (inert_store inert_recordEvent) fun _ => Prog.uses_fail) (hsame h₂')
  | ok report =>
    refine Prog.sat_bind (Prog.sat_mono ?_ (held_deleteMapping (hsame h₂') ?_))
    · exact fun w₃ x h₃ => ⟨fun _ _ => Prog.sat_ret h₃, fun _ _ => h₃⟩
    · rw [h₂'.1, h₂'.2]
      exact hidle hauth mid (except_mapError_ok.1 hmid)

theorem keeps_newMapping {name : String} {publicIp : Option Ipv4Addr} {edgePrivateIp targetIp : Ipv4Addr} :
    (newMapping name publicIp edgePrivateIp targetIp : AgentProg ε Mapping).Uses Keeps :=
  Prog.uses_call trivial fun _ => Prog.uses_call trivial fun _ => Prog.uses_ret

theorem keeps_insertMapping {m : Mapping} : (insertMapping C m).Uses fun o => Keeps (.host (.store o)) :=
  insertMapping_uses C trivial trivial fun _ _ => trivial

/-- **A request of the API** keeps every live address named, where a delete finds the row idle. -/
theorem held_api (call : ApiCall) (h : HeldIn foreign w)
    (hidle : ∀ id, call = .deleteMapping id → requireAuth config headers = .ok () → ∀ mid,
      MappingId.fromStr id = .ok mid → Idle w.host.db.refs w.cloud mid.val) :
    (call.prog C J N config headers).Sat (okEnv J) w fun w' _ => HeldIn foreign w' := by
  have hcheck : ∀ {β : Type} {x : Except ApiFailure β}, (Api.check x).Uses Keeps := Prog.uses_ofExcept
  have henable : ∀ id enabled, (Api.setEnabled C config headers id enabled).Sat (okEnv J) w fun w' _ =>
      HeldIn foreign w' := fun id enabled => by
    refine sat_keeps okEnv_refines (Prog.uses_bind hcheck fun _ => Prog.uses_bind Prog.uses_ofExcept fun _ => ?_) h
    refine Prog.uses_bind (Prog.uses_mono (fun _ => keeps_of_frozen) ?_) fun _ => Prog.uses_ret
    exact apiStore_uses frozen_setMappingEnabled
  cases call with
  | createMapping request =>
    refine sat_keeps okEnv_refines (Prog.uses_bind hcheck fun _ => Prog.uses_bind keeps_newMapping fun _ => ?_) h
    exact Prog.uses_bind (apiStore_uses keeps_insertMapping) fun _ => Prog.uses_ret
  | enableMapping id => exact henable id true
  | disableMapping id => exact henable id false
  | deleteMapping id => exact held_apiDelete h (hidle id rfl)
  | ociAllocate request => exact held_ociAllocate h
  | ociRelease request => exact held_ociRelease h
  | status | listMappings | getMapping | dryRunApply | reconcile | netbirdStatus | netbirdNetworks | events
  | analytics | topology | ociStatus | ociVnicCheck | ociPublicIps | ociNsgAdd | ociNsgRemove =>
    exact sat_held_of_inert (inert_api _ fun h => h) h

theorem frozen_deleteReconcile {id : MappingId} {args : DeleteMappingArgs} :
    (Cli.deleteReconcile C config id args).Uses Frozen := by
  unfold Cli.deleteReconcile
  split
  · exact Prog.uses_ret
  · exact Prog.uses_bind (Prog.uses_mapErr frozen_reconcile) fun _ => Prog.uses_ret

/-- **The delete of the command line** deletes the addresses of the row before the row. -/
theorem held_cliDelete {args : DeleteMappingArgs} (h : HeldIn foreign w) (hkeep : args.keepOciResources = false) :
    (Cli.delete C config args).Sat (okEnv J) w fun w' _ => HeldIn foreign w' := by
  have hsame : ∀ {w' : AgentWorld}, w'.host.db.refs = w.host.db.refs ∧ w'.cloud = w.cloud → HeldIn foreign w' := by
    rintro w' ⟨hrefs, hcloud⟩
    unfold HeldIn
    rw [hrefs, hcloud]
    exact h
  refine Prog.sat_bind (Prog.sat_ofExcept ⟨fun id _ => ?_, fun _ _ => h⟩)
  refine Prog.sat_bind (Prog.sat_mono ?_ (sat_read okEnv_refines.onHost id))
  rintro w₀ x ⟨hw, hx⟩
  refine ⟨fun m hm => ?_, fun _ _ => hw ▸ h⟩
  rw [hw]
  refine Prog.sat_bind (Prog.sat_mono ?_ (sat_frozen okEnv_refines (cliStore_uses frozen_setMappingEnabled)))
  intro w₁ x h₁
  refine ⟨fun _ _ => ?_, fun _ _ => hsame h₁⟩
  refine Prog.sat_bind (Prog.sat_mono ?_ (sat_frozen okEnv_refines frozen_deleteReconcile))
  intro w₂ x h₂
  have h₂' := And.intro (h₂.1.trans h₁.1) (h₂.2.trans h₁.2)
  refine ⟨fun _ _ => ?_, fun _ _ => hsame h₂'⟩
  rw [hkeep]
  refine Prog.sat_bind (Prog.sat_mono ?_ (sat_cleanupMappingOci m))
  rintro w₃ x ⟨rfl, cloud, rfl, hd⟩
  refine ⟨fun _ _ => ?_, fun _ h => nomatch h⟩
  have hheld : HeldIn foreign w₂ := hsame h₂'
  have h₃ : HeldIn foreign (w₂.setCloud cloud) := hheld.dropped hd
  refine Prog.sat_bind (Prog.sat_mono ?_ (held_deleteMapping h₃ ?_))
  · exact fun w₄ x h₄ => ⟨fun _ _ => Prog.sat_ret h₄, fun _ _ => h₄⟩
  · rw [setCloud_host, setCloud_cloud, h₂'.1]
    exact (hx m hm).idle (fun ip hip => (hd.privateIps ip hip).2) fun ip hip => (hd.publicIps ip hip).2

theorem held_cliAllocate {args : AllocateArgs} (h : HeldIn foreign w) :
    (Cli.allocate C J D args).Sat (okEnv J) w fun w' _ => HeldIn foreign w' := by
  refine Prog.sat_bind (Prog.sat_ofExcept ⟨fun id _ => ?_, fun _ _ => h⟩)
  refine Prog.sat_bind (Prog.sat_mono ?_ (sat_read okEnv_refines.onHost id))
  rintro w₁ x ⟨rfl, hx⟩
  refine ⟨fun m hm => ?_, fun _ _ => h⟩
  refine Prog.sat_bind (Prog.sat_ofExcept ⟨fun _ hno => ?_, fun _ _ => h⟩)
  refine Prog.sat_bind (Prog.sat_mono ?_ (sat_liftOci okEnv_oci (sat_allocateWith _ _ _)))
  rintro w₂ y ⟨cloud, rfl, herror, hok⟩
  refine ⟨fun a ha => ?_, fun e he => ?_⟩
  · rw [hok a ha]
    refine Prog.sat_bind (Prog.sat_mono ?_ (held_storeAllocation h (hx m hm) (rejectIf_ok.1 hno) a))
    exact fun w₃ x h₃ => ⟨fun _ _ => Prog.sat_ret h₃, fun _ _ => h₃⟩
  · rw [herror e he]
    exact h

theorem keeps_release {publicIpId : String} {privateIpId : Option String} :
    (Cli.release publicIpId privateIpId).Uses Keeps := by
  have hunit : ∀ (command : OciCommand), Keeps (.oci command) → ((liftOci (runOciUnit command)).mapErr
      OciError.toText).Uses Keeps := fun command h => Prog.uses_mapErr (liftOci_uses (Prog.uses_bind
    (Prog.uses_call h fun _ => Prog.uses_ofExcept) fun _ => Prog.uses_ret))
  refine Prog.uses_bind (hunit (.deletePublicIp publicIpId) trivial) fun _ => ?_
  cases privateIpId with
  | none => exact Prog.uses_ret
  | some id => exact hunit (.deletePrivateIp id) trivial

/-- **A run of the command line** keeps every live address named, unless it is told to keep them. -/
theorem held_cli (requested : EdgeConfig) (authoritative : Bool) (command : CliCommand) (h : HeldIn foreign w)
    (hkeep : ∀ args, command = .delete args → args.keepOciResources = false) :
    (cliMain C J D requested authoritative command).Sat (okEnv J) w fun w' _ => HeldIn foreign w' := by
  refine Prog.sat_bind (Prog.sat_mono ?_ (sat_held_of_inert (cliStore_uses (inert_resolveEdgeConfig _ _)) h))
  intro w₁ x h₁
  refine ⟨fun config _ => ?_, fun _ _ => h₁⟩
  have henable : ∀ id enabled, (Cli.setEnabled C id enabled).Sat (okEnv J) w₁ fun w' _ => HeldIn foreign w' :=
    fun id enabled => by
      refine sat_keeps okEnv_refines (Prog.uses_bind Prog.uses_ofExcept fun _ => ?_) h₁
      refine Prog.uses_bind (Prog.uses_mono (fun _ => keeps_of_frozen) ?_) fun _ => Prog.uses_ret
      exact cliStore_uses frozen_setMappingEnabled
  cases command with
  | create args =>
    refine sat_keeps okEnv_refines (Prog.uses_bind ?_ fun _ => Prog.uses_bind keeps_newMapping fun _ =>
      cliStore_uses keeps_insertMapping) h₁
    split
    · exact Prog.uses_ret
    · refine Prog.uses_bind (Prog.uses_mapErr (Prog.uses_call trivial fun _ => Prog.uses_ofExcept)) fun _ => ?_
      exact Prog.uses_ofExcept
  | delete args => exact held_cliDelete h₁ (hkeep args rfl)
  | enable id => exact henable id true
  | disable id => exact henable id false
  | allocate args => exact held_cliAllocate h₁
  | release publicIpId privateIpId => exact sat_keeps okEnv_refines keeps_release h₁
  | apply | reconcile | rollback => exact sat_held_of_inert (inert_cli _ fun h => h) h₁

/-! ## Runs -/

/-- A call that the front ends are used for here: no delete of the command line is told to keep the addresses, and
a delete of the API finds no live address named by the row. -/
def SparesLive (w : AgentWorld) : FrontCall → Prop
  | .api config headers (.deleteMapping id) =>
    requireAuth config headers = .ok () → ∀ mid, MappingId.fromStr id = .ok mid →
      Idle w.host.db.refs w.cloud mid.val
  | .cli _ _ (.delete args) => args.keepOciResources = false
  | _ => True

theorem held_call (call : FrontCall) (h : HeldIn foreign w) (hspares : SparesLive w call) :
    (call.prog C J N D).Sat (okEnv J) w fun w' _ => HeldIn foreign w' := by
  cases call with
  | api config headers call =>
    refine Prog.sat_bind (Prog.sat_mapErr (Prog.sat_mono ?_ (held_api call h ?_)))
    · exact fun w' x h' => ⟨fun _ _ => Prog.sat_ret h', fun _ _ => h'⟩
    · rintro id rfl
      exact hspares
  | cli requested authoritative command =>
    refine Prog.sat_mapErr (held_cli requested authoritative command h ?_)
    rintro args rfl
    exact hspares

/-- **No live address is forgotten.** In calls of both front ends in turn where every `oci` command succeeds, every
address that is live and was not there before is named by a row after every call, as long as no delete of the API
finds a live address in its row. -/
theorem held_of_runs {w₀ : AgentWorld} {ts : List (Turn AgentSig FrontFailure Unit FrontCall AgentWorld)}
    (hrun : InTurn (agentEnv J) (FrontCall.prog C J N D) w₀ ts w) (h₀ : HeldIn foreign w₀)
    (hok : ∀ t ∈ ts, ∀ e ∈ t.trace, OciOk e) (hspares : ∀ t ∈ ts, SparesLive t.before t.call) : HeldIn foreign w := by
  refine hrun.inv (fun ts w => (∀ t ∈ ts, ∀ e ∈ t.trace, OciOk e) → (∀ t ∈ ts, SparesLive t.before t.call) →
    HeldIn foreign w) (fun _ _ => h₀) (fun ts t ih hr hok hspares => ?_) hok hspares
  rw [List.forall_mem_append] at hok hspares
  have hran := Prog.run_restrict.2 ⟨hr, show ∀ e ∈ t.trace, OciOk e by simpa using hok.2⟩
  exact (held_call t.call (ih hok.1 hspares.1) (by simpa using hspares.2)).of_run hran

/-! ## The delete of the API -/

instance : (e : Event AgentSig) → Decidable (OciOk e)
  | ⟨.oci _, r⟩ => inferInstanceAs (Decidable (Outcome.Succeeded r))
  | ⟨.host _, _⟩ | ⟨.selectEvents _, _⟩ | ⟨.newId, _⟩ | ⟨.netbirdStatus, _⟩ | ⟨.routeGet _, _⟩ | ⟨.envVar _, _⟩ =>
    inferInstanceAs (Decidable True)

theorem okEnv_host (w : AgentWorld) (o : HostOp) (r : o.Reply) (host : World) (h : hostEnv w.host o r host) :
    okEnv J w (.host o) r (w.setHost host) := ⟨⟨host, h, rfl⟩, trivial⟩

theorem created_ociOk : ∀ e ∈ (evalApi emptyAgent sampleCreate).1, OciOk e := by decide +kernel

/-- What the allocation left behind. -/
theorem allocated_facts : (∀ e ∈ (evalApi createdAgent sampleAllocate).1, OciOk e) ∧
    allocatedAgent.cloud.privateIps = [samplePrivateIp.id] ∧ allocatedAgent.cloud.publicIps = [samplePublicIp.id] := by
  decide +kernel

/-- Both addresses, by their own ids. -/
def sampleDrop : ApiCall :=
  .ociRelease { publicIpId := some samplePublicIp.id, privateIpId := some samplePrivateIp.id, confirm := "delete" }

/-- The addresses are deleted, and the row still names them. -/
@[irreducible] def droppedAgent : AgentWorld := (evalApi allocatedAgent sampleDrop).2.1

theorem dropped_run : (sampleProg (.api sampleConfig [] sampleDrop)).Run (agentEnv sampleOciJson) allocatedAgent
    (evalApi allocatedAgent sampleDrop).1 droppedAgent (.ok ()) := by
  unfold droppedAgent
  exact evalApi_run (by decide +kernel)

theorem dropped_facts : (∀ e ∈ (evalApi allocatedAgent sampleDrop).1, OciOk e) ∧
    droppedAgent.cloud.privateIps = [] ∧ droppedAgent.cloud.publicIps = [] ∧
    droppedAgent.host.db.refs.map Ref.publicIp = [some samplePublicIp.id] := by
  decide +kernel

/-- The database after the mapping is disabled. -/
@[irreducible] def disabledDb (w : AgentWorld) : Db :=
  ((setMappingEnabled sampleCodec sampleMapping.id false).eval sampleHandler w.host.db).2.1

/-- A world in which the API can delete the mapping, which is the only one. -/
@[mk_iff] structure ApiDeletable (w : AgentWorld) : Prop where
  disables : ((setMappingEnabled sampleCodec sampleMapping.id false).eval sampleHandler w.host.db).2.2.isOk = true
  listing : (sampleListing (disabledDb w)).isSome = true
  stored : sampleMapping.id.val ∈ (disabledDb w).mappings.rows.map Row.id
  alone : (disabledDb w).refs.filter (·.id ≠ sampleMapping.id.val) = []
  addrs : (w.host.addrs sampleConfig.wanInterface).entries = []

theorem allocated_apiDeletable : ApiDeletable allocatedAgent := (apiDeletable_iff _).2 (by decide +kernel)

theorem dropped_apiDeletable : ApiDeletable droppedAgent := (apiDeletable_iff _).2 (by decide +kernel)

theorem disabled_can (h : ApiDeletable w) :
    (setMappingEnabled sampleCodec sampleMapping.id false).Can storeEnv w.host.db
    fun db' _ => db' = disabledDb w := by
  obtain ⟨m, hm⟩ := exists_of_isOk h.disables
  have hrun := eval_run sampleHandler_env (setMappingEnabled sampleCodec sampleMapping.id false) w.host.db
  rw [hm] at hrun
  unfold disabledDb
  exact ⟨_, _, m, hrun, rfl⟩

theorem refs_refreshed {t t' : Sql.Table mappingsSchema} (h : Refreshed C t t') :
    t'.rows.map Row.ref = t.rows.map Row.ref := by
  have hcore : ∀ t : Sql.Table mappingsSchema, t.rows.map Row.ref = (t.rows.map Row.core).map Row.ref := by
    intro t
    rw [List.map_map]
    rfl
  rw [hcore, h.core, ← hcore]

/-- A delete that goes through, where `db` is the database after the mapping is disabled. -/
theorem apiDelete_can {id : MappingId} {ms : List Mapping}
    (hdisable : (setMappingEnabled sampleCodec id false).Can storeEnv w.host.db fun db' _ => db' = db)
    (hms : sampleListing db = some ms) (hempty : (w.host.addrs sampleConfig.wanInterface).entries = [])
    (hmem : id.val ∈ db.mappings.rows.map Row.id) :
    (Api.deleteMapping sampleCodec sampleConfig [] id.val).Can (okEnv J) w fun w' _ =>
      w'.host.db.refs = db.refs.filter (·.id ≠ id.val) ∧ w'.cloud = w.cloud := by
  obtain ⟨hd, -⟩ := sampleListing_some (w := { w.host with db }) hms
  refine Prog.can_bind (Prog.can_ofExcept rfl ?_)
  refine Prog.can_bind (Prog.can_ofExcept (a := id) (by rw [MappingId.fromStr_val]; rfl) ?_)
  refine Prog.can_bind (Prog.can_mono ?_ (Prog.can_mapErr (can_onStore okEnv_host hdisable)))
  rintro w₁ - ⟨db₁, rfl, rfl⟩
  obtain ⟨text, -, hrec⟩ := sample_can (w := (w.setDb db₁).host) {} hms rfl rfl
    fun _ m _ entry h => absurd (hempty ▸ h) List.not_mem_nil
  refine Prog.can_bind (Prog.can_mono ?_ (Prog.can_attempt (can_liftHost okEnv_host hrec)))
  rintro w₂ x ⟨report, rfl, host, rfl, hdone⟩
  obtain ⟨row, hrow, hid⟩ := List.mem_map.1 (mem_ids_refreshed hdone.mappings hmem)
  obtain ⟨m, hm⟩ := (decodes_of_listed hd).refreshed hdone.mappings row hrow
  refine Prog.can_bind (Prog.can_mono ?_ (Prog.can_mapErr (can_onStore okEnv_host (deleteMapping_can hrow hid hm))))
  rintro w₃ - ⟨db₃, rfl, rfl⟩
  refine Prog.can_ret ⟨?_, rfl⟩
  show (host.db.mappings.delete id.val).rows.map Row.ref = _
  rw [map_ref_delete, refs_refreshed hdone.mappings]
  rfl

/-- A request that goes through, as a turn. -/
theorem ran_of_api {call : ApiCall} {a : ApiResponse} {tr : List (Event AgentSig)}
    (h : (call.prog sampleCodec sampleOciJson sampleNetbird sampleConfig []).Run
      (agentEnv sampleOciJson) w tr w' (.ok a)) :
    (sampleProg (.api sampleConfig [] call)).Run (agentEnv sampleOciJson) w tr w' (.ok ()) :=
  Prog.run_bind_ok.2 ⟨a, w', tr, [], (List.append_nil tr).symm, Prog.run_mapErr.2 ⟨.ok a, rfl, h⟩,
    Prog.run_ret.2 ⟨rfl, rfl, rfl⟩⟩

/-- A mapping is created, and addresses are allocated to it. -/
theorem allocated_turns : ∃ ts : List (Turn AgentSig FrontFailure Unit FrontCall AgentWorld),
    InTurn (agentEnv sampleOciJson) sampleProg emptyAgent ts allocatedAgent ∧
      ts.map (·.call) = [.api sampleConfig [] sampleCreate, .api sampleConfig [] sampleAllocate] ∧
      ∀ t ∈ ts, t.result = .ok () ∧ ∀ e ∈ t.trace, OciOk e := by
  obtain ⟨tr₁, h₁, hok₁⟩ : ∃ tr, (sampleProg (.api sampleConfig [] sampleCreate)).Run (agentEnv sampleOciJson)
      emptyAgent tr createdAgent (.ok ()) ∧ ∀ e ∈ tr, OciOk e := ⟨_, created_run, created_ociOk⟩
  obtain ⟨tr₂, h₂, hok₂⟩ : ∃ tr, (sampleProg (.api sampleConfig [] sampleAllocate)).Run (agentEnv sampleOciJson)
      createdAgent tr allocatedAgent (.ok ()) ∧ ∀ e ∈ tr, OciOk e := ⟨_, allocated_run, allocated_facts.1⟩
  refine ⟨_, (InTurn.init.snoc h₁).snoc h₂, rfl, ?_⟩
  simp only [List.nil_append, List.forall_mem_append, List.forall_mem_singleton]
  exact ⟨⟨trivial, hok₁⟩, trivial, hok₂⟩

/-- The delete of the API. -/
abbrev sampleApiDelete : FrontCall := .api sampleConfig [] (.deleteMapping "vm")

/-- It goes through, and leaves the cloud as it is. -/
theorem deleted_run (h : ApiDeletable w) : ∃ tr w',
    (sampleProg sampleApiDelete).Run (agentEnv sampleOciJson) w tr w' (.ok ()) ∧
    (∀ e ∈ tr, OciOk e) ∧ w'.cloud = w.cloud ∧ w'.host.db.refs = [] := by
  obtain ⟨ms, hms⟩ := Option.isSome_iff_exists.1 h.listing
  obtain ⟨tr, w', a, hrun, hrefs, hcloud⟩ := apiDelete_can (J := sampleOciJson) (disabled_can h) hms h.addrs h.stored
  obtain ⟨hrun, hok⟩ := Prog.run_restrict.1 hrun
  have hran := ran_of_api (w := w) (show ((ApiCall.deleteMapping "vm").prog sampleCodec sampleOciJson
    sampleNetbird sampleConfig []).Run (agentEnv sampleOciJson) w tr w' (.ok a) from hrun)
  exact ⟨tr, w', hran, hok, hcloud, hrefs.trans h.alone⟩

/-- **The delete of the API forgets the addresses.** A mapping is created, addresses are allocated to it, and the API
deletes it: both addresses are live and no row is left. -/
theorem api_delete_forgets :
    ∃ (ts : List (Turn AgentSig FrontFailure Unit FrontCall AgentWorld)) (w : AgentWorld),
      InTurn (agentEnv sampleOciJson) sampleProg emptyAgent ts w ∧
      ts.map (·.call) = [.api sampleConfig [] sampleCreate, .api sampleConfig [] sampleAllocate,
        .api sampleConfig [] (.deleteMapping "vm")] ∧
      (∀ t ∈ ts, t.result = .ok () ∧ ∀ e ∈ t.trace, OciOk e) ∧
      samplePrivateIp.id ∈ w.cloud.privateIps ∧ samplePublicIp.id ∈ w.cloud.publicIps ∧ w.host.db.refs = [] := by
  obtain ⟨-, hprivate, hpublic⟩ := allocated_facts
  obtain ⟨tr, w, hran, hok, hcloud, hrefs⟩ := deleted_run allocated_apiDeletable
  obtain ⟨ts, hturns, hcalls, hts⟩ := allocated_turns
  refine ⟨_, w, hturns.snoc hran, ?_, ?_, ?_, ?_, hrefs⟩
  · rw [List.map_append, hcalls]
    rfl
  · simp only [List.forall_mem_append, List.forall_mem_singleton]
    exact ⟨hts, trivial, hok⟩
  · rw [hcloud, hprivate]
    exact List.mem_singleton_self _
  · rw [hcloud, hpublic]
    exact List.mem_singleton_self _

/-- Addresses are allocated to a mapping and deleted by their ids, and then the API deletes the mapping: its row names
addresses, but none that is live. -/
theorem held_of_runs_dropped : ∃ (ts : List (Turn AgentSig FrontFailure Unit FrontCall AgentWorld)) (w : AgentWorld),
    InTurn (agentEnv sampleOciJson) sampleProg emptyAgent ts w ∧
      ts.map (·.call) = [.api sampleConfig [] sampleCreate, .api sampleConfig [] sampleAllocate,
        .api sampleConfig [] sampleDrop, sampleApiDelete] ∧
      droppedAgent.host.db.refs.map Ref.publicIp = [some samplePublicIp.id] ∧ HeldIn [] w := by
  obtain ⟨hdropped, hprivate, hpublic, hnamed⟩ := dropped_facts
  obtain ⟨tr, w, hran, hok, -⟩ := deleted_run dropped_apiDeletable
  obtain ⟨ts, hturns, hcalls, hts⟩ := allocated_turns
  refine ⟨_, w, (hturns.snoc dropped_run).snoc hran, ?_, hnamed, ?_⟩
  · rw [List.map_append, List.map_append, hcalls]
    rfl
  have hidle : ∀ id, Idle droppedAgent.host.db.refs droppedAgent.cloud id := fun id =>
    ⟨fun ref _ _ ip hip _ => List.not_mem_nil (hprivate ▸ hip),
      fun ref _ _ ip hip _ => List.not_mem_nil (hpublic ▸ hip)⟩
  refine held_of_runs ((hturns.snoc dropped_run).snoc hran) ⟨fun _ h => (nomatch h), fun _ h => (nomatch h)⟩ ?_ ?_
  · simp only [List.forall_mem_append, List.forall_mem_singleton]
    exact ⟨⟨fun t ht => (hts t ht).2, hdropped⟩, hok⟩
  · simp only [List.forall_mem_append, List.forall_mem_singleton]
    refine ⟨⟨fun t ht => ?_, trivial⟩, fun _ mid _ => hidle mid.val⟩
    have hmem : t.call ∈ ts.map (·.call) := List.mem_map_of_mem ht
    rw [hcalls] at hmem
    rcases List.mem_pair.1 hmem with h | h <;> rw [h] <;> trivial

end EdgeRoute
