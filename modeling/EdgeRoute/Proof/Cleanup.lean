import EdgeRoute.Proof.Release

/-!
# The cleanup of a delete

`edge map delete` deletes the addresses of a mapping before its row. A delete that fails is passed over where its text
says that there was nothing to delete, and whether it says so is decided by three words in it.

* `sat_cleanupMapping_sound`: where no other failure has one of the words, nothing is left after the cleanup.
* `clean_delete_iff`: **a delete leaves nothing behind exactly where no other failure has one of the words.**
* `delete_leaves_addresses`: a failure with a request id that has.
-/

namespace EdgeRoute

open Effect

variable {C : Codec} {J : OciJson} {config : EdgeConfig} {w w' : AgentWorld} {m : Mapping} {id : MappingId}
  {other : Outcome → Prop}

/-! ## Outcomes of a delete -/

/-- A delete of an address. It succeeds; or it fails with status 404, as there is no such address; or it fails for
another reason, with an outcome in `other`, and the address is still there. -/
structure DeletesOrFails (other : Outcome → Prop) (able : Prop) (c dropped : Cloud) (r : Outcome) (c' : Cloud) :
    Prop where
  succeeded : r.Succeeded → able ∧ c' = dropped
  failed : ¬ r.Succeeded → c' = c ∧ (able → other r)

/-- **The world of the command line**, where `other` has the outcomes of deletes that fail with a status other than
404. What the tool prints is free. -/
def deleteEnv (J : OciJson) (other : Outcome → Prop) : Env AgentSig AgentWorld := fun w o r w' =>
  match o, r with
  | .oci (.deletePublicIp id), r =>
    ∃ cloud, DeletesOrFails other (id ∈ w.cloud.publicIps) w.cloud (w.cloud.dropPublic id) r cloud ∧
      w' = w.setCloud cloud
  | .oci (.deletePrivateIp id), r =>
    ∃ cloud, DeletesOrFails other (id ∈ w.cloud.privateIps) w.cloud (w.cloud.dropPrivate id) r cloud ∧
      w' = w.setCloud cloud
  | o, r => agentEnv J w o r w'

/-- No address that the mapping names is there. -/
structure NoneLeft (m : Mapping) (c : Cloud) : Prop where
  publicIp : ∀ ip, m.ociPublicIpOcid = some ip → ip ∉ c.publicIps
  privateIp : ∀ ip, m.ociPrivateIpOcid = some ip → ip ∉ c.privateIps

/-- **A delete leaves nothing behind**: where `edge map delete`, not told to keep the addresses, returns and the row is
removed, no address of the mapping is there. -/
def CleanDelete (other : Outcome → Prop) : Prop :=
  ∀ (C : Codec) (J : OciJson) (config : EdgeConfig) (args : DeleteMappingArgs) (id : MappingId) (m : Mapping)
    (w w' : AgentWorld) (tr : List (Event AgentSig)),
    args.keepOciResources = false → MappingId.fromStr args.id = .ok id → w.host.db.mapping C id = some m →
    (Cli.delete C config args).Run (deleteEnv J other) w tr w' (.ok ()) → w'.host.db.mapping C id = none →
    NoneLeft m w'.cloud

/-- No failure in `other` is taken for one with status 404. -/
def ToldApart (other : Outcome → Prop) : Prop :=
  ∀ r e, other r → ociOutput r = .error e → Cli.isOciNotFound e = false

theorem DeletesOrFails.deletes {able : Prop} {c dropped c' : Cloud} {r : Outcome}
    (h : DeletesOrFails other able c dropped r c') : Deletes able c dropped r c' := by
  refine ⟨h.succeeded, fun hr => (h.failed ?_).1, ?_⟩
  · intro hs
    cases r with
    | timedOut => exact hs
    | ioError message => exact hs
    | exited output => exact Bool.false_ne_true (hr.2.symm.trans hs)
  · by_cases hs : r.Succeeded
    · exact .inr (h.succeeded hs)
    · exact .inl (h.failed hs).1

theorem deleteEnv_refines : Refines J (deleteEnv J other) := by
  intro w o r w' h
  cases o with
  | oci command =>
    cases command with
    | deletePublicIp id | deletePrivateIp id =>
      obtain ⟨cloud, hd, rfl⟩ := h
      exact ⟨cloud, hd.deletes, rfl⟩
    | _ => exact h
  | _ => exact h

/-! ## The cleanup -/

theorem succeeded_of_output {r : Outcome} {output : CommandOutput} (h : ociOutput r = .ok output) : r.Succeeded := by
  cases r with
  | timedOut => cases h
  | ioError message => cases h
  | exited output' =>
    by_contra hns
    have hout : ociOutput (.exited output') = .error (.command output'.errorMessage) := if_neg hns
    cases hout.symm.trans h

theorem not_succeeded_of_error {r : Outcome} {e : OciError} (h : ociOutput r = .error e) : ¬ r.Succeeded := by
  intro hs
  obtain ⟨output, -, -, hok⟩ := ociOutput_of_succeeded hs
  cases h.symm.trans hok

/-- One address: where nothing is reported of it, it is gone. -/
theorem sat_cleanupIp_sound (command : String → OciCommand) (live : Cloud → List String) (drop : Cloud → String → Cloud)
    (htold : ToldApart other)
    (hE : ∀ (w : AgentWorld) ip r w', deleteEnv J other w (.oci (command ip)) r w' →
      ∃ cloud, DeletesOrFails other (ip ∈ live w.cloud) w.cloud (drop w.cloud ip) r cloud ∧ w' = w.setCloud cloud)
    (hdrop : ∀ c ip, ip ∉ live (drop c ip)) (kind : String) (ip : Option String) :
    (Cli.cleanupIp (fun ip => runOciUnit (command ip)) kind ip).Sat (deleteEnv J other) w fun w' x =>
      x = .ok [] → ∀ i, ip = some i → i ∉ live w'.cloud := by
  cases ip with
  | none => exact Prog.sat_ret fun _ i hi => nomatch hi
  | some ip =>
    refine Prog.sat_bind (Prog.sat_attempt (Prog.sat_call fun r w' hr => ?_))
    obtain ⟨cloud, hd, rfl⟩ := hE w ip r w' hr
    beta_reduce
    cases hout : ociOutput r with
    | ok output =>
      refine Prog.sat_ret ⟨fun y hy => ?_, fun _ h => nomatch h⟩
      obtain rfl := Except.ok.inj hy
      have hs := succeeded_of_output hout
      refine Prog.sat_ret fun _ i hi => ?_
      rw [← Option.some.inj hi, setCloud_cloud, (hd.succeeded hs).2]
      exact hdrop _ _
    | error e =>
      refine Prog.sat_fail ⟨fun y hy => ?_, fun _ h => nomatch h⟩
      obtain rfl := Except.ok.inj hy
      obtain ⟨rfl, hother⟩ := hd.failed (not_succeeded_of_error hout)
      refine Prog.sat_ret fun hx i hi hmem => ?_
      -- the address is still there, so the text does not have the words and the failure is reported
      rw [← Option.some.inj hi] at hmem
      rw [htold r e (hother hmem) hout] at hx
      cases hx

theorem not_mem_filter_self {ids : List String} {ip : String} : ip ∉ ids.filter (· ≠ ip) := by
  intro h
  exact of_decide_eq_true (List.mem_filter.1 h).2 rfl

/-- An operation that does not touch the public addresses. -/
def KeepsPublic : AgentOp → Prop
  | .oci (.createReservedPublicIp _ _ _) | .oci (.deletePublicIp _) => False
  | _ => True

theorem keepsPublic_step {o : AgentOp} {r : o.Reply} (ho : KeepsPublic o) (hE : agentEnv J w o r w') :
    w'.cloud.publicIps = w.cloud.publicIps := by
  cases o with
  | host o =>
    obtain ⟨host, -, rfl⟩ := hE
    rfl
  | oci command =>
    obtain ⟨cloud, hE, rfl⟩ := hE
    cases command with
    | createReservedPublicIp | deletePublicIp => exact absurd ho id
    | createPrivateIp => rcases hE.either with rfl | ⟨id, -, rfl⟩ <;> rfl
    | deletePrivateIp => rcases hE.either with rfl | ⟨-, rfl⟩ <;> rfl
    | version | listPublicIps | getVnic | addNsgRules | removeNsgRules => exact congrArg Cloud.publicIps hE
  | selectEvents limit => rw [hE.1]
  | newId | netbirdStatus | routeGet | envVar => rw [show w' = w from hE]

theorem cleanupIp_uses {P : AgentOp → Prop} (command : String → OciCommand) (h : ∀ ip, P (.oci (command ip)))
    (kind : String) (ip : Option String) : (Cli.cleanupIp (fun ip => runOciUnit (command ip)) kind ip).Uses P := by
  cases ip with
  | none => exact Prog.uses_ret
  | some ip =>
    refine Prog.uses_bind (Prog.uses_attempt (liftOci_uses ?_)) fun y => ?_
    · exact Prog.uses_bind (Prog.uses_call (h ip) fun _ => Prog.uses_ofExcept) fun _ => Prog.uses_ret
    · cases y with
      | ok u => exact Prog.uses_ret
      | error e => exact Prog.uses_ret

/-- **The cleanup.** Where no other failure has one of the words, it returns only when both addresses are gone. -/
theorem sat_cleanupMapping_sound (htold : ToldApart other) (m : Mapping) :
    (Cli.cleanupMappingOci m).Sat (deleteEnv J other) w fun w' x => x = .ok () → NoneLeft m w'.cloud := by
  have hpublic : ∀ w : AgentWorld, (Cli.cleanupIp deletePublicIp "public IP" m.ociPublicIpOcid).Sat
      (deleteEnv J other) w fun w' x => x = .ok [] → ∀ i, m.ociPublicIpOcid = some i → i ∉ w'.cloud.publicIps :=
    fun w => sat_cleanupIp_sound .deletePublicIp Cloud.publicIps Cloud.dropPublic htold (fun _ _ _ _ h => h)
      (fun _ _ => not_mem_filter_self) _ _
  have hprivate : ∀ w : AgentWorld, (Cli.cleanupIp deletePrivateIp "private IP" m.ociPrivateIpOcid).Sat
      (deleteEnv J other) w fun w' x => x = .ok [] → ∀ i, m.ociPrivateIpOcid = some i → i ∉ w'.cloud.privateIps :=
    fun w => sat_cleanupIp_sound .deletePrivateIp Cloud.privateIps Cloud.dropPrivate htold (fun _ _ _ _ h => h)
      (fun _ _ => not_mem_filter_self) _ _
  have hkeeps : ∀ w : AgentWorld, (Cli.cleanupIp deletePrivateIp "private IP" m.ociPrivateIpOcid).Sat
      (deleteEnv J other) w fun w' _ => w'.cloud.publicIps = w.cloud.publicIps := fun w =>
    Prog.sat_of_uses (I := fun w' : AgentWorld => w'.cloud.publicIps = w.cloud.publicIps)
      (cleanupIp_uses (P := KeepsPublic) .deletePrivateIp (fun _ => trivial) _ _)
      (fun _ _ _ _ ho hE hI => (keepsPublic_step ho (deleteEnv_refines _ _ _ _ hE)).trans hI) rfl
  refine Prog.sat_bind (Prog.sat_mono ?_ (hpublic w))
  intro w₁ x hx
  refine ⟨fun failures hf => ?_, fun _ _ h => nomatch h⟩
  refine Prog.sat_bind (Prog.sat_mono ?_ (Prog.sat_and (hprivate w₁) (hkeeps w₁)))
  rintro w₂ y ⟨hy, hsame⟩
  refine ⟨fun failures' hf' => Prog.sat_ofExcept fun hok => ?_, fun _ _ h => nomatch h⟩
  have hempty : failures ++ failures' = [] := by
    have hempty := rejectIf_ok.1 hok
    rwa [Bool.not_eq_false', List.isEmpty_iff] at hempty
  obtain ⟨rfl, rfl⟩ := List.append_eq_nil_iff.1 hempty
  refine ⟨fun ip hip => ?_, hy hf'⟩
  rw [hsame]
  exact hx hf ip hip

/-! ## The command -/

theorem clean_of_toldApart (htold : ToldApart other) : CleanDelete other := by
  intro C J config args id m w w' tr hkeep hid hm hr _
  have hsat : (Cli.delete C config args).Sat (deleteEnv J other) w fun w' x => x = .ok () → NoneLeft m w'.cloud := by
    refine Prog.sat_bind (Prog.sat_ofExcept ⟨fun id' hid' => ?_, fun _ _ h => nomatch h⟩)
    obtain rfl : id = id' := Except.ok.inj (hid.symm.trans (except_mapError_ok.1 hid'))
    refine Prog.sat_bind (Prog.sat_mono ?_ (sat_read deleteEnv_refines.onHost id))
    rintro w₁ x ⟨rfl, hx⟩
    refine ⟨fun m' hm' => ?_, fun _ _ h => nomatch h⟩
    have hsame : m' = m := storedAs_unique (hx m' hm') (storedAs_of_mapping hm)
    subst hsame
    refine Prog.sat_bind (Prog.sat_iff.2 fun _ w₂ _ _ => ⟨fun _ _ => ?_, fun _ _ h => nomatch h⟩)
    refine Prog.sat_bind (Prog.sat_iff.2 fun _ w₃ _ _ => ⟨fun _ _ => ?_, fun _ _ h => nomatch h⟩)
    rw [hkeep]
    refine Prog.sat_bind (Prog.sat_mono ?_ (sat_cleanupMapping_sound htold m'))
    intro w₄ x hgone
    refine ⟨fun _ hok => ?_, fun _ _ h => nomatch h⟩
    -- the rest asks the store only
    refine Prog.sat_bind (Prog.sat_mapErr (Prog.sat_iff.2 fun tr w₅ y hy => ?_))
    obtain ⟨-, db, -, rfl⟩ := onStore_run deleteEnv_refines.onHost hy
    exact ⟨fun _ _ => Prog.sat_ret fun _ => hgone hok, fun _ _ h => nomatch h⟩
  exact hsat.of_run hr rfl

/-! ## A failure that is taken for another -/

theorem deleteEnv_host (w : AgentWorld) (o : HostOp) (r : o.Reply) (host : World) (h : hostEnv w.host o r host) :
    deleteEnv J other w (.host o) r (w.setHost host) := ⟨host, h, rfl⟩

/-- A delete that failed is passed over where its text has one of the words. -/
theorem cleanupIp_can (command : String → OciCommand) {r : Outcome} {e : OciError} {ip : String}
    (hE : deleteEnv J other w (.oci (command ip)) r w) (hout : ociOutput r = .error e)
    (hword : Cli.isOciNotFound e = true) (kind : String) :
    (Cli.cleanupIp (fun ip => runOciUnit (command ip)) kind (some ip)).Can (deleteEnv J other) w fun w' x =>
      w' = w ∧ x = [] := by
  have hrun : (liftOci (runOciUnit (command ip))).Run (deleteEnv J other) w [⟨.oci (command ip), r⟩] w (.error e) := by
    refine Prog.run_call.2 ⟨r, w, [], rfl, hE, ?_⟩
    beta_reduce
    rw [hout]
    exact Prog.run_fail.2 ⟨rfl, rfl, rfl⟩
  refine Prog.can_bind ⟨_, w, .error e, Prog.run_attempt.2 ⟨.error e, rfl, hrun⟩, ?_⟩
  refine Prog.can_ret ⟨rfl, ?_⟩
  rw [hword]
  rfl

theorem cleanupMapping_can {r : Outcome} {e : OciError} {ip ip' : String} (hpublic : m.ociPublicIpOcid = some ip)
    (hprivate : m.ociPrivateIpOcid = some ip') (hE : deleteEnv J other w (.oci (.deletePublicIp ip)) r w)
    (hE' : deleteEnv J other w (.oci (.deletePrivateIp ip')) r w) (hout : ociOutput r = .error e)
    (hword : Cli.isOciNotFound e = true) :
    (Cli.cleanupMappingOci m).Can (deleteEnv J other) w fun w' _ => w' = w := by
  unfold Cli.cleanupMappingOci
  rw [hpublic, hprivate]
  refine Prog.can_bind (Prog.can_mono ?_ (cleanupIp_can .deletePublicIp hE hout hword _))
  rintro w₁ failures ⟨rfl, rfl⟩
  refine Prog.can_bind (Prog.can_mono ?_ (cleanupIp_can .deletePrivateIp hE' hout hword _))
  rintro w₂ failures ⟨rfl, rfl⟩
  exact Prog.can_ofExcept rfl rfl

/-- The delete of the sample mapping. -/
def sampleDelete : DeleteMappingArgs := { id := "vm", skipReconcile := true }

/-- **A failure in `other` with one of the words** lets the delete of a mapping drop the row and leave both
addresses. -/
theorem sampleDelete_can {r : Outcome} {e : OciError} (hr : other r) (hout : ociOutput r = .error e)
    (hword : Cli.isOciNotFound e = true) :
    (Cli.delete sampleCodec sampleConfig sampleDelete).Can (deleteEnv sampleOciJson other) allocatedAgent fun w' _ =>
      w'.host.db.mapping sampleCodec sampleMapping.id = none ∧ w'.cloud = allocatedAgent.cloud := by
  obtain ⟨hm, ⟨hpublic, hprivate⟩, -⟩ := broken_facts
  obtain ⟨row, hrow, hid, hdec, -⟩ := storedAs_of_mapping hm
  have hdeletable := allocated_apiDeletable
  obtain ⟨ms, hms⟩ := Option.isSome_iff_exists.1 hdeletable.listing
  obtain ⟨hlisted, -⟩ := sampleListing_some (w := { allocatedAgent.host with db := disabledDb allocatedAgent }) hms
  obtain ⟨row', hrow', hid'⟩ := List.mem_map.1 hdeletable.stored
  obtain ⟨m', hm'⟩ := decodes_of_listed hlisted row' hrow'
  have hfails : ∀ {able : Prop} {c dropped : Cloud}, DeletesOrFails other able c dropped r c :=
    ⟨fun hs => absurd hs (not_succeeded_of_error hout), fun _ => ⟨rfl, fun _ => hr⟩⟩
  refine Prog.can_bind (Prog.can_ofExcept (a := sampleMapping.id) (by decide +kernel) ?_)
  refine Prog.can_bind (Prog.can_mono ?_ (Prog.can_mapErr (can_onStore deleteEnv_host (getMapping_can hrow hid hdec))))
  rintro w₁ m ⟨db₁, rfl, rfl, rfl⟩
  refine Prog.can_bind (Prog.can_mono ?_ (Prog.can_mapErr (can_onStore deleteEnv_host (disabled_can hdeletable))))
  rintro w₂ - ⟨db₂, rfl, rfl⟩
  refine Prog.can_bind (Prog.can_ret ?_)
  refine Prog.can_bind (Prog.can_mono ?_
    (cleanupMapping_can (w := allocatedAgent.setDb (disabledDb allocatedAgent)) hpublic hprivate
    ⟨_, hfails, rfl⟩ ⟨_, hfails, rfl⟩ hout hword))
  rintro w₃ - rfl
  refine Prog.can_bind (Prog.can_mono ?_
    (Prog.can_mapErr (can_onStore deleteEnv_host (deleteMapping_can hrow' hid' hm'))))
  rintro w₄ - ⟨db₄, rfl, rfl⟩
  refine Prog.can_ret ⟨?_, rfl⟩
  rw [Db.mapping]
  exact congrArg (Option.bind · _) Sql.Table.find_delete

theorem not_clean {r : Outcome} {e : OciError} (hr : other r) (hout : ociOutput r = .error e)
    (hword : Cli.isOciNotFound e = true) : ¬ CleanDelete other := by
  intro h
  obtain ⟨hm, ⟨hpublic, -⟩, -⟩ := broken_facts
  obtain ⟨tr, w', u, hrun, hgone, hcloud⟩ := sampleDelete_can hr hout hword
  have hnone := h sampleCodec sampleOciJson sampleConfig sampleDelete sampleMapping.id allocatedMapping allocatedAgent
    w' tr
    rfl (by decide +kernel) hm hrun hgone
  have hlive : samplePublicIp.id ∈ w'.cloud.publicIps := by
    rw [hcloud, allocated_facts.2.2]
    exact List.mem_singleton_self _
  exact hnone.publicIp _ hpublic hlive

/-- **When a delete leaves nothing behind.** For every mapping, whatever the delete commands of the cloud answer:
exactly where no delete that fails with a status other than 404 has "notfound", "not found" or "404" in its text,
in lower case. -/
theorem clean_delete_iff (other : Outcome → Prop) : CleanDelete other ↔ ToldApart other := by
  refine ⟨fun h r e hr hout => ?_, clean_of_toldApart⟩
  by_contra hword
  rw [Bool.not_eq_false] at hword
  exact not_clean hr hout hword h

/-- The cloud is not done with the address, and says so under a request id. -/
def conflictOutcome : Outcome :=
  .exited ⟨some 1, "", "ServiceError: status 409, code IncorrectState, opc-request-id 7F404D"⟩

/-- **A delete that leaves both addresses.** Both delete commands fail with status 409; the request id has "404" in it,
the row is deleted and the command returns. -/
theorem delete_leaves_addresses : ¬ CleanDelete fun r => r = conflictOutcome := by
  refine not_clean (r := conflictOutcome)
    (e := .command "ServiceError: status 409, code IncorrectState, opc-request-id 7F404D") rfl ?_ ?_
  · decide +kernel
  · decide +kernel

end EdgeRoute
