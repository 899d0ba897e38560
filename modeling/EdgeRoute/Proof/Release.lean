import EdgeRoute.Proof.Atomic
import EdgeRoute.Proof.Duplicates

/-!
# A release after failed releases

`oci_release` deletes two addresses and then clears the row, and keeps no record of how far it got.

* `failed_releases`: a release that fails leaves the row and the config as they were.
* `release_resumes_iff`: **a later release succeeds exactly where both addresses of the row are still there** and the
  store takes the cleared mapping.
* `release_stuck`: a release that deleted the first address and failed at the second one.
-/

namespace EdgeRoute

open Effect

variable {C : Codec} {J : OciJson} {config : EdgeConfig} {headers : HeaderMap} {α : Type} {w w' w₀ : AgentWorld}
  {c c' : Cloud} {m : Mapping} {id : MappingId} {db db' : Db} {T : OffsetDateTime → Prop}

/-! ## A later attempt -/

/-- A delete of an address that is there succeeds, one of an address that is not reports that. -/
structure DeletesOrReports (able : Prop) (c dropped : Cloud) (r : Outcome) (c' : Cloud) : Prop where
  there : able → r.Succeeded ∧ c' = dropped
  missing : ¬ able → (∃ e, ociOutput r = .error e ∧ Cli.isOciNotFound e = true) ∧ c' = c

/-- **An attempt during which the cloud and the store work**: every statement is executed, and the clock shows a time
in `T`. -/
def workingEnv (J : OciJson) (T : OffsetDateTime → Prop) : Env AgentSig AgentWorld := fun w o r w' =>
  match o, r with
  | .host (.store .now), now => T now ∧ w' = w
  | .host (.store (.sql s)), r => ∃ db, (r, db) = w.host.db.exec s ∧ w' = w.setDb db
  | .oci (.deletePublicIp id), r =>
    ∃ cloud, DeletesOrReports (id ∈ w.cloud.publicIps) w.cloud (w.cloud.dropPublic id) r cloud ∧ w' = w.setCloud cloud
  | .oci (.deletePrivateIp id), r =>
    ∃ cloud, DeletesOrReports (id ∈ w.cloud.privateIps) w.cloud (w.cloud.dropPrivate id) r cloud ∧ w' = w.setCloud cloud
  | o, r => agentEnv J w o r w'

/-- A request, authorised and confirmed, to release the mapping `id`. -/
structure ReleasesById (config : EdgeConfig) (headers : HeaderMap) (request : OciReleaseRequest) (id : MappingId) :
    Prop where
  authorized : requireAuth config headers = .ok ()
  confirmed : requireConfirm request.confirm "delete" = .ok ()
  mapping : resolve request.mappingId none = some id.val

/-- The addresses that the mapping names are there. -/
structure Intact (c : Cloud) (m : Mapping) : Prop where
  publicIp : ∀ ip, m.ociPublicIpOcid = some ip → ip ∈ c.publicIps
  privateIp : ∀ ip, m.ociPrivateIpOcid = some ip → ip ∈ c.privateIps

/-- The addresses that the mapping named are gone, and its row is cleared. -/
structure Released (C : Codec) (id : MappingId) (m : Mapping) (w : AgentWorld) : Prop where
  publicIp : ∀ ip, m.ociPublicIpOcid = some ip → ip ∉ w.cloud.publicIps
  privateIp : ∀ ip, m.ociPrivateIpOcid = some ip → ip ∉ w.cloud.privateIps
  row : ∃ m', w.host.db.mapping C id = some m' ∧ m'.publicIp = none ∧ m'.ociPublicIpOcid = none ∧
    m'.ociPrivateIpOcid = none

/-- **The release resumes**: during an attempt in which everything works it returns, and the mapping is released. -/
def Resumes (C : Codec) (J : OciJson) (config : EdgeConfig) (headers : HeaderMap) (request : OciReleaseRequest)
    (id : MappingId) (m : Mapping) (w : AgentWorld) : Prop :=
  ∀ tr w' x, (Api.ociRelease C config headers request).Run (workingEnv J (Formats C)) w tr w' x →
    (∃ response, x = .ok response) ∧ Released C id m w'

/-- What `update_mapping` asks of a mapping: it is valid under the stored config, a duplicate of no other row, and no
constraint refuses its row. -/
structure Storable (C : Codec) (db : Db) (m : Mapping) : Prop where
  valid : ∃ config, (∃ text, db.config = some text ∧ C.configFromJson text = .ok config) ∧
    validateMapping m config = .ok ()
  distinct : ∀ row ∈ db.mappings.others m.id.val, ∃ m', C.rowToMapping row = .ok m' ∧ Distinct m m'
  written : ∃ cols t, C.updateRow m = .ok cols ∧
    db.mappings.update cols.id cols.replaced cols.replaced_id true = .ok (t, 1)

theorem Storable.congr (h : Storable C db m) (hrows : db.mappings = db'.mappings) (hconfig : db.config = db'.config) :
    Storable C db' m := by
  obtain ⟨hvalid, hdistinct, hwritten⟩ := h
  rw [hrows] at hdistinct hwritten
  rw [hconfig] at hvalid
  exact ⟨hvalid, hdistinct, hwritten⟩

/-! ## The store -/

theorem workingEnv_store (w : AgentWorld) (o : StoreOp) (r : o.Reply) (w' : AgentWorld)
    (h : workingEnv J T w (.host (.store o)) r w') : ∃ db, workingStore T w.host.db o r db ∧ w' = w.setDb db := by
  cases o with
  | now =>
    obtain ⟨hT, rfl⟩ := h
    exact ⟨w'.host.db, ⟨hT, rfl⟩, rfl⟩
  | sql s => exact h

/-- **When `update_mapping` returns**, its statements executed. -/
theorem updates_iff : (∃ db', (updateMapping C m).Returns execEnv db db' ()) ↔ Storable C db m := by
  unfold updateMapping
  simp only [Prog.bind_eq, Prog.returns_bind, returns_requireEdgeConfig, Prog.returns_ofExcept,
    returns_rejectDuplicates]
  constructor
  · rintro ⟨db', config, db₁, ⟨hdb₁, hconfig⟩, _, db₂, ⟨hdb₂, hv⟩, _, db₃, ⟨hdb₃, hdup⟩, cols, db₄, ⟨hdb₄, hcols⟩, n,
      db₅, hn, hret⟩
    rw [hdb₂, hdb₁] at hdup
    rw [hdb₄, hdb₃, hdb₂, hdb₁] at hn
    refine ⟨⟨config, hconfig, hv⟩, hdup, cols, ?_⟩
    have hexec := returns_sql.1 hn
    rw [Db.exec_updateMapping, Db.updateMappings] at hexec
    cases hu : db.mappings.update cols.id cols.replaced cols.replaced_id true with
    | error e => rw [hu] at hexec; cases hexec
    | ok p =>
      obtain ⟨t, k⟩ := p
      rw [hu] at hexec
      cases hexec
      refine ⟨t, hcols, ?_⟩
      rcases Sql.Table.update_ok hu with ⟨-, -, rfl⟩ | ⟨old, -, -, rfl, -⟩
      · exact absurd hret Prog.not_returns_fail
      · rfl
  · rintro ⟨⟨config, hconfig, hv⟩, hdup, cols, t, hcols, hu⟩
    refine ⟨{ db with mappings := t }, config, db, ⟨rfl, hconfig⟩, (), db, ⟨rfl, hv⟩, (), db, ⟨rfl, hdup⟩, cols, db,
      ⟨rfl, hcols⟩, 1, { db with mappings := t }, returns_sql.2 ?_, Prog.returns_ret.2 ⟨rfl, rfl⟩⟩
    rw [Db.exec_updateMapping, Db.updateMappings, hu]

/-- A statement, not the clock. -/
def IsSql : StoreOp → Prop
  | .now => False
  | .sql _ => True

theorem exec_unique (db : Db) (o : StoreOp) (r : o.Reply) (db' : Db) (r' : o.Reply) (db'' : Db) (ho : IsSql o)
    (h : execEnv db o r db') (h' : execEnv db o r' db'') : r = r' ∧ db' = db'' := by
  cases o with
  | now => exact absurd ho id
  | sql s => exact Prod.mk.inj ((show (r, db') = db.exec s from h).trans (show (r', db'') = db.exec s from h').symm)

theorem updateMapping_isSql : (updateMapping C m).Uses IsSql :=
  updateMapping_uses C trivial trivial fun _ _ => trivial

/-- `update_mapping` in such an attempt returns exactly where the mapping is storable, and then has replaced its row. -/
theorem sat_updateMapping_working : (updateMapping C m).Sat (workingStore T) db fun db' x =>
    (x = .ok () ↔ Storable C db m) ∧ (x = .ok () → ∃ cols old, Updated C m db.mappings db'.mappings cols old) := by
  refine Prog.sat_iff.2 fun tr db' x hr => ?_
  have hexec := Prog.run_mono exec_of_workingStore hr
  refine ⟨⟨fun hx => ?_, fun hs => ?_⟩, fun hx => ?_⟩
  · subst hx
    exact updates_iff.1 ⟨db', tr, hexec⟩
  · obtain ⟨db₂, tr₂, h₂⟩ := updates_iff.2 hs
    exact (Prog.run_unique updateMapping_isSql exec_unique hexec h₂).2
  · exact ((sat_updateMapping m).of_run (Prog.run_mono storeEnv_of_exec hexec)).2 hx

theorem sat_getMapping_working (hm : db.mapping C id = some m) :
    (getMapping C id).Sat (workingStore T) db fun db' x => db' = db ∧ x = .ok m := by
  refine Prog.sat_iff.2 fun tr db' x hr => ?_
  have hexec := Prog.run_mono exec_of_workingStore hr
  exact ⟨(sat_getMapping id).of_run (Prog.run_mono storeEnv_of_exec hexec), getMapping_exec hm hexec⟩

/-! ## The deletes -/

theorem privateIps_dropIfSome (c : Cloud) (ip : Option String) :
    (dropIfSome Cloud.dropPublic c ip).privateIps = c.privateIps := by cases ip <;> rfl

theorem sat_deleteIfSome_working {delete : String → OciProg Unit} {live : Cloud → List String}
    {drop : Cloud → String → Cloud}
    (hdelete : ∀ (w : AgentWorld) (ip : String), (liftOci (delete ip)).Sat (workingEnv J T) w fun w' x =>
      ∃ cloud r, DeletesOrReports (ip ∈ live w.cloud) w.cloud (drop w.cloud ip) r cloud ∧ w' = w.setCloud cloud ∧
        x = (ociOutput r).map fun _ => ()) (ip : Option String) :
    (Api.deleteIfSome delete ip).Sat (workingEnv J T) w fun w' x =>
      (x = .ok () ↔ ∀ i, ip = some i → i ∈ live w.cloud) ∧
        (x = .ok () → w' = w.setCloud (dropIfSome drop w.cloud ip)) := by
  cases ip with
  | none => exact Prog.sat_ret ⟨⟨fun _ i hi => (nomatch hi), fun _ => rfl⟩, fun _ => rfl⟩
  | some ip =>
    refine Prog.sat_mapErr (Prog.sat_mono ?_ (hdelete w ip))
    rintro w' x ⟨cloud, r, hr, rfl, rfl⟩
    by_cases hlive : ip ∈ live w.cloud
    · obtain ⟨hs, rfl⟩ := hr.there hlive
      obtain ⟨output, -, -, hout⟩ := ociOutput_of_succeeded hs
      rw [hout]
      exact ⟨⟨fun _ i hi => Option.some.inj hi ▸ hlive, fun _ => rfl⟩, fun _ => rfl⟩
    · obtain ⟨⟨e, he, -⟩, -⟩ := hr.missing hlive
      rw [he]
      exact ⟨⟨fun h => (nomatch h), fun h => absurd (h ip rfl) hlive⟩, fun h => nomatch h⟩

theorem sat_runUnit {command : OciCommand} :
    (liftOci (runOciUnit command)).Sat (workingEnv J T) w fun w' x =>
      ∃ r, workingEnv J T w (.oci command) r w' ∧ x = (ociOutput r).map fun _ => () := by
  refine Prog.sat_call fun r w' hE => ?_
  cases hr : ociOutput r with
  | error e =>
    beta_reduce
    rw [hr]
    exact Prog.sat_fail ⟨r, hE, by rw [hr]; rfl⟩
  | ok output =>
    beta_reduce
    rw [hr]
    exact Prog.sat_ret ⟨r, hE, by rw [hr]; rfl⟩

theorem sat_deleteIps_working (m : Mapping) :
    (Api.deleteIps m.ociPublicIpOcid m.ociPrivateIpOcid).Sat (workingEnv J T) w fun w' x =>
      (x = .ok () ↔ Intact w.cloud m) ∧ (x = .ok () → ∃ cloud, w' = w.setCloud cloud ∧
        Dropped w.cloud cloud m.ociPrivateIpOcid m.ociPublicIpOcid) := by
  have hpublic : ∀ (w : AgentWorld) (ip : String), (liftOci (deletePublicIp ip)).Sat (workingEnv J T) w fun w' x =>
      ∃ cloud r, DeletesOrReports (ip ∈ w.cloud.publicIps) w.cloud (w.cloud.dropPublic ip) r cloud ∧
        w' = w.setCloud cloud ∧ x = (ociOutput r).map fun _ => () := by
    intro w ip
    refine Prog.sat_mono ?_ sat_runUnit
    rintro w' x ⟨r, ⟨cloud, hr, hw⟩, hx⟩
    exact ⟨cloud, r, hr, hw, hx⟩
  have hprivate : ∀ (w : AgentWorld) (ip : String), (liftOci (deletePrivateIp ip)).Sat (workingEnv J T) w fun w' x =>
      ∃ cloud r, DeletesOrReports (ip ∈ w.cloud.privateIps) w.cloud (w.cloud.dropPrivate ip) r cloud ∧
        w' = w.setCloud cloud ∧ x = (ociOutput r).map fun _ => () := by
    intro w ip
    refine Prog.sat_mono ?_ sat_runUnit
    rintro w' x ⟨r, ⟨cloud, hr, hw⟩, hx⟩
    exact ⟨cloud, r, hr, hw, hx⟩
  refine Prog.sat_bind (Prog.sat_mono ?_ (sat_deleteIfSome_working hpublic m.ociPublicIpOcid))
  rintro w₁ x ⟨hx, hw₁⟩
  refine ⟨fun u hu => ?_, fun e he => ⟨⟨fun h => (nomatch h), fun h => ?_⟩, fun h => nomatch h⟩⟩
  · have hok : x = .ok () := hu
    obtain rfl := hw₁ hok
    refine Prog.sat_mono ?_ (sat_deleteIfSome_working hprivate m.ociPrivateIpOcid)
    rintro w₂ y ⟨hy, hw₂⟩
    refine ⟨⟨fun h => ⟨hx.1 hok, ?_⟩, fun h => hy.2 ?_⟩, fun h => ?_⟩
    · have hlive := hy.1 h
      rwa [setCloud_cloud, privateIps_dropIfSome] at hlive
    · rw [setCloud_cloud, privateIps_dropIfSome]
      exact h.privateIp
    · exact ⟨_, hw₂ h, dropped_dropIfSome _ _ _⟩
  · rw [hx.2 h.publicIp] at he
    cases he

/-! ## The handler -/

/-- The mapping that a release writes. -/
def Mapping.cleared (m : Mapping) (now : OffsetDateTime) : Mapping :=
  { m.released with status := .disabled, updatedAt := now }

theorem workingEnv_onHost : ActsOnHost (workingEnv J T) := by
  intro w o r w' h
  cases o with
  | store o =>
    obtain ⟨db, hdb, rfl⟩ := workingEnv_store w o r w' h
    exact ⟨_, ⟨db, storeEnv_of_exec _ _ _ _ (exec_of_workingStore _ _ _ _ hdb), rfl⟩, rfl⟩
  | atomicWrite path text | nft mode path | ip command | connect ip port => exact h

theorem sat_markStatus_working (m : Mapping) (status : MappingStatus) {ε : Type} :
    (markStatus m status : AgentProg ε Mapping).Sat (workingEnv J T) w fun w' x =>
      w' = w ∧ ∃ now, T now ∧ x = .ok { m with status, updatedAt := now } := by
  refine Prog.sat_call fun now w' hE => ?_
  obtain ⟨hT, rfl⟩ := hE
  exact Prog.sat_ret ⟨rfl, now, hT, rfl⟩

theorem storedAs_of_mapping (h : db.mapping C id = some m) : StoredAs C db id m := by
  obtain ⟨row, hfind, hdec⟩ := row_of_mapping h
  obtain ⟨hmem, hid⟩ := Sql.Table.find_some hfind
  have hmid := (rowToMapping_ok.1 hdec).id
  rw [show row.id = id.val from hid, MappingId.fromStr_val] at hmid
  exact ⟨row, hmem, hid, hdec, (Except.ok.inj hmid).symm⟩

theorem storedAs_unique {m' : Mapping} (h : StoredAs C db id m) (h' : StoredAs C db id m') : m = m' := by
  obtain ⟨row, hrow, hid, hdec, -⟩ := h
  obtain ⟨row', hrow', hid', hdec', -⟩ := h'
  obtain rfl : row = row' := Sql.Table.eq_of_key_eq hrow hrow' (hid.trans hid'.symm)
  exact Except.ok.inj (hdec.symm.trans hdec')

/-- What an attempt in which everything works comes to: where it returned, the addresses were there and the store took
the cleared mapping; where these are so, it returns and the mapping is released. -/
structure Attempt (C : Codec) (T : OffsetDateTime → Prop) (id : MappingId) (m : Mapping) (w w' : AgentWorld)
    (x : Except ApiFailure ApiResponse) : Prop where
  needs : (∃ response, x = .ok response) →
    Intact w.cloud m ∧ ∃ now, T now ∧ Storable C w.host.db (m.cleared now)
  enough : Intact w.cloud m → (∀ now, T now → Storable C w.host.db (m.cleared now)) →
    (∃ response, x = .ok response) ∧ Released C id m w'

theorem sat_releaseMapping_working (hm : w.host.db.mapping C id = some m)
    (hocid : m.ociPublicIpOcid ≠ none ∨ m.ociPrivateIpOcid ≠ none) :
    (Api.releaseMapping C id.val).Sat (workingEnv J T) w fun w' x => Attempt C T id m w w' x := by
  have hid : Except.mapError ApiFailure.ofCore (MappingId.fromStr id.val) = .ok id := by
    rw [MappingId.fromStr_val]
    rfl
  refine Prog.sat_bind (Prog.sat_ofExcept ⟨fun id' hid' => ?_, fun e he => ?_⟩)
  swap
  · rw [hid] at he
    cases he
  obtain rfl : id = id' := Except.ok.inj (hid.symm.trans hid')
  refine Prog.sat_bind (Prog.sat_mapErr (Prog.sat_mono ?_
    (sat_onStore_of workingEnv_store (sat_getMapping_working hm))))
  rintro w₁ x ⟨db₁, rfl, rfl, rfl⟩
  refine ⟨fun m' hm' => ?_, fun _ h => nomatch h⟩
  obtain rfl : m = m' := Except.ok.inj hm'
  refine Prog.sat_bind (Prog.sat_ofExcept ⟨fun _ _ => ?_, fun e he => ?_⟩)
  swap
  · obtain ⟨hnone, -⟩ := rejectIf_error.1 he
    rw [Bool.and_eq_true, Option.isNone_iff_eq_none, Option.isNone_iff_eq_none] at hnone
    rcases hocid with h | h
    · exact absurd hnone.1 h
    · exact absurd hnone.2 h
  refine Prog.sat_bind (Prog.sat_mono ?_ (sat_deleteIps_working m))
  rintro w₂ x ⟨hx, hdropped⟩
  refine ⟨fun u hu => ?_, fun e he => ⟨fun ⟨_, h⟩ => (nomatch h), fun hintact _ => ?_⟩⟩
  swap
  · rw [hx.2 hintact] at he
    cases he
  have hintact := hx.1 hu
  obtain ⟨cloud, rfl, hd⟩ := hdropped hu
  refine Prog.sat_bind (Prog.sat_mono ?_ (sat_markStatus_working _ _))
  rintro w₃ y ⟨rfl, now, hT, rfl⟩
  refine ⟨fun m' hm' => ?_, fun _ h => nomatch h⟩
  obtain rfl := Except.ok.inj hm'
  refine Prog.sat_bind (Prog.sat_mapErr (Prog.sat_mono ?_
    (sat_onStore_of workingEnv_store sat_updateMapping_working)))
  rintro w₄ y ⟨db', rfl, hy, hupdated⟩
  cases y with
  | error e =>
    refine ⟨fun _ h => (nomatch h), fun _ _ => ⟨fun ⟨_, h⟩ => (nomatch h), fun _ hstorable => ?_⟩⟩
    cases hy.2 (hstorable now hT)
  | ok u =>
    refine ⟨fun _ _ => ?_, fun _ h => nomatch h⟩
    obtain ⟨cols, old, hu'⟩ := hupdated rfl
    obtain ⟨-, hwrote⟩ := wrote_updated (storedAs_of_mapping hm) hu' rfl rfl fun h => h
    refine Prog.sat_bind (Prog.sat_attempt (Prog.sat_mono ?_ (sat_onStore workingEnv_onHost (sat_leavesMappings ?_))))
    · rintro w₅ z ⟨db'', rfl, hdb''⟩
      refine ⟨fun _ _ => Prog.sat_ret ⟨fun _ => ⟨hintact, now, hT, hy.1 rfl⟩, fun _ _ => ⟨⟨_, rfl⟩, ?_⟩⟩,
        fun _ h => nomatch h⟩
      refine ⟨fun ip hip hmem => ?_, fun ip hip hmem => ?_, _, (hwrote.of_mappings hdb'').row, rfl, rfl, rfl⟩
      · exact (hd.publicIps ip hmem).2 hip
      · exact (hd.privateIps ip hmem).2 hip
    · exact recordEvent_uses C trivial fun _ _ => ⟨fun h => h, fun h => h⟩

theorem sat_ociRelease_working {request : OciReleaseRequest} (hrequest : ReleasesById config headers request id)
    (hm : w.host.db.mapping C id = some m) (hocid : m.ociPublicIpOcid ≠ none ∨ m.ociPrivateIpOcid ≠ none) :
    (Api.ociRelease C config headers request).Sat (workingEnv J T) w fun w' x => Attempt C T id m w w' x := by
  refine Prog.sat_bind (Prog.sat_ofExcept ⟨fun _ _ => ?_, fun e he => ?_⟩)
  swap
  · rw [hrequest.authorized] at he
    cases he
  refine Prog.sat_bind (Prog.sat_ofExcept ⟨fun _ _ => ?_, fun e he => ?_⟩)
  swap
  · rw [hrequest.confirmed] at he
    cases he
  rw [hrequest.mapping]
  exact sat_releaseMapping_working hm hocid

/-! ## Every attempt ends -/

/-- A delete where the cloud works. -/
def deleteOrReport (able : Prop) [Decidable able] (c dropped : Cloud) : Outcome × Cloud :=
  if able then (.exited ⟨some 0, "", ""⟩, dropped) else (.exited ⟨some 1, "", "404 NotAuthorizedOrNotFound"⟩, c)

theorem reported_missing : ∃ e, ociOutput (.exited ⟨some 1, "", "404 NotAuthorizedOrNotFound"⟩) = .error e ∧
    Cli.isOciNotFound e = true :=
  ⟨.command "404 NotAuthorizedOrNotFound", by decide +kernel, by decide +kernel⟩

theorem deletesOrReports_deleteOrReport (able : Prop) [Decidable able] (c dropped : Cloud) :
    DeletesOrReports able c dropped (deleteOrReport able c dropped).1 (deleteOrReport able c dropped).2 := by
  unfold deleteOrReport
  split
  · rename_i h
    exact ⟨fun _ => ⟨rfl, rfl⟩, fun hn => absurd h hn⟩
  · rename_i h
    exact ⟨fun ha => absurd ha h, fun _ => ⟨reported_missing, rfl⟩⟩

theorem workingEnv_total {now : OffsetDateTime} (hT : T now) (w : AgentWorld) (o : AgentOp) :
    ∃ r w', workingEnv J T w o r w' := by
  cases o with
  | host o =>
    cases o with
    | store o =>
      cases o with
      | now => exact ⟨now, w, hT, rfl⟩
      | sql s => exact ⟨_, _, _, rfl, rfl⟩
    | atomicWrite path text =>
      obtain ⟨r, host, h⟩ := hostEnv_total w.host (.atomicWrite path text)
      exact ⟨r, _, host, h, rfl⟩
    | nft mode path =>
      obtain ⟨r, host, h⟩ := hostEnv_total w.host (.nft mode path)
      exact ⟨r, _, host, h, rfl⟩
    | ip command =>
      obtain ⟨r, host, h⟩ := hostEnv_total w.host (.ip command)
      exact ⟨r, _, host, h, rfl⟩
    | connect ip port =>
      obtain ⟨r, host, h⟩ := hostEnv_total w.host (.connect ip port)
      exact ⟨r, _, host, h, rfl⟩
  | oci command =>
    cases command with
    | deletePublicIp id | deletePrivateIp id => exact ⟨_, _, _, deletesOrReports_deleteOrReport _ _ _, rfl⟩
    | createPrivateIp vnicId name | createReservedPublicIp compartmentId privateIpId name =>
      refine ⟨.timedOut, w, w.cloud, ⟨fun output h => (nomatch h), fun _ => rfl, .inl rfl⟩, rfl⟩
    | version | listPublicIps | getVnic | addNsgRules | removeNsgRules => exact ⟨.timedOut, w, w.cloud, rfl, rfl⟩
  | selectEvents limit => exact ⟨_, w, rfl, .inl rfl⟩
  | newId => exact ⟨sampleMapping.id, w, rfl⟩
  | netbirdStatus | routeGet => exact ⟨.error "", w, rfl⟩
  | envVar name => exact ⟨false, w, rfl⟩

theorem workingEnv_mono {T' : OffsetDateTime → Prop} (hT : ∀ t, T t → T' t) {o : AgentOp} {r : o.Reply}
    (h : workingEnv J T w o r w') : workingEnv J T' w o r w' := by
  cases o with
  | host o =>
    cases o with
    | store o =>
      cases o with
      | now => exact ⟨hT _ h.1, h.2⟩
      | sql s => exact h
    | atomicWrite path text | nft mode path | ip command | connect ip port => exact h
  | oci command => cases command <;> exact h
  | selectEvents | newId | netbirdStatus | routeGet | envVar => exact h

/-- **When a release resumes**, from any world: both addresses of the row are there, and the store takes the cleared
mapping. -/
theorem resumes_iff {request : OciReleaseRequest} (hrequest : ReleasesById config headers request id)
    (hm : w.host.db.mapping C id = some m) (hocid : m.ociPublicIpOcid ≠ none ∨ m.ociPrivateIpOcid ≠ none)
    (hclock : Clock C) :
    Resumes C J config headers request id m w ↔
      Intact w.cloud m ∧ ∀ now, Formats C now → Storable C w.host.db (m.cleared now) := by
  constructor
  · intro h
    -- one attempt for each time that the clock may show
    have hat : ∀ now, Formats C now → Intact w.cloud m ∧ Storable C w.host.db (m.cleared now) := by
      intro now hnow
      obtain ⟨tr, w', x, hr⟩ := Prog.exists_run (workingEnv_total (J := J) (T := (· = now)) rfl)
        (Api.ociRelease C config headers request) w
      have hattempt := (sat_ociRelease_working hrequest hm hocid).of_run hr
      have hlater : (Api.ociRelease C config headers request).Run (workingEnv J (Formats C)) w tr w' x := by
        refine Prog.run_mono (fun w o r w' hE => ?_) hr
        exact workingEnv_mono (fun t ht => ht ▸ hnow) hE
      obtain ⟨hintact, now', rfl, hs⟩ := hattempt.needs (h tr w' x hlater).1
      exact ⟨hintact, hs⟩
    obtain ⟨now, hnow⟩ := hclock
    exact ⟨(hat now hnow).1, fun now hnow => (hat now hnow).2⟩
  · intro ⟨hintact, hs⟩ tr w' x hr
    exact ((sat_ociRelease_working hrequest hm hocid).of_run hr).enough hintact hs

/-! ## Attempts that failed -/

/-- A release attempt: the config of the agent, and what was asked of it. -/
structure ReleaseAttempt where
  config : EdgeConfig
  headers : HeaderMap
  request : OciReleaseRequest

def ReleaseAttempt.prog (C : Codec) (a : ReleaseAttempt) : ApiProg ApiResponse :=
  Api.ociRelease C a.config a.headers a.request

/-- An operation of a release: no statement that stores a config. -/
def KeepsConfig : AgentOp → Prop
  | .host (.store (.sql (.upsertConfig _))) => False
  | .host (.store _) | .oci _ => True
  | _ => False

theorem config_step {o : AgentOp} {r : o.Reply} (ho : KeepsConfig o) (hE : agentEnv J w o r w') :
    w'.host.db.config = w.host.db.config := by
  cases o with
  | host o =>
    obtain ⟨host, hE, rfl⟩ := hE
    cases o with
    | store o =>
      obtain ⟨db', hdb, rfl⟩ := hE
      cases o with
      | now => rw [show db' = w.host.db from hdb]
      | sql s =>
        refine storeEnv_config hdb ?_
        rintro value rfl
        exact ho
    | atomicWrite | nft | ip | connect => exact absurd ho id
  | oci command =>
    obtain ⟨cloud, -, rfl⟩ := hE
    rfl
  | selectEvents | newId | netbirdStatus | routeGet | envVar => exact absurd ho id

theorem deleteIps_uses {P : AgentOp → Prop} (h : ∀ command, P (.oci command)) (publicIpId privateIpId : Option String) :
    (Api.deleteIps publicIpId privateIpId).Uses P := by
  have hone : ∀ {delete : String → OciProg Unit} (ip : Option String),
      (∀ id, (delete id).Uses fun o => P (.oci o)) → (Api.deleteIfSome delete ip).Uses P := by
    intro delete ip hdelete
    cases ip with
    | none => exact Prog.uses_ret
    | some id => exact apiOci_uses (hdelete id)
  have hunit : ∀ command, (runOciUnit command).Uses fun o => P (.oci o) := fun command =>
    Prog.uses_bind (Prog.uses_call (h command) fun _ => Prog.uses_ofExcept) fun _ => Prog.uses_ret
  exact Prog.uses_bind (hone _ fun _ => hunit _) fun _ => hone _ fun _ => hunit _

theorem keepsConfig_release {request : OciReleaseRequest} :
    (Api.ociRelease C config headers request).Uses KeepsConfig := by
  refine Prog.uses_bind Prog.uses_ofExcept fun _ => Prog.uses_bind Prog.uses_ofExcept fun _ => ?_
  cases resolve request.mappingId none with
  | none =>
    refine Prog.uses_bind Prog.uses_ofExcept fun _ => ?_
    exact Prog.uses_bind (deleteIps_uses (fun _ => trivial) _ _) fun _ => Prog.uses_ret
  | some id =>
    refine Prog.uses_bind Prog.uses_ofExcept fun _ => Prog.uses_bind ?_ fun _ => ?_
    · exact apiStore_uses (getMapping_uses C trivial)
    refine Prog.uses_bind Prog.uses_ofExcept fun _ => Prog.uses_bind (deleteIps_uses (fun _ => trivial) _ _) fun _ => ?_
    refine Prog.uses_bind (Prog.uses_call trivial fun _ => Prog.uses_ret) fun _ => Prog.uses_bind ?_ fun _ => ?_
    · exact apiStore_uses (updateMapping_uses C trivial trivial fun _ _ => trivial)
    refine Prog.uses_bind (Prog.uses_attempt (onStore_uses ?_)) fun _ => Prog.uses_ret
    exact recordEvent_uses C trivial fun _ _ => trivial

theorem sat_deleteIps_host (publicIpId privateIpId : Option String) :
    (Api.deleteIps publicIpId privateIpId).Sat (agentEnv J) w fun w' _ => w'.host = w.host := by
  refine Prog.sat_of_uses (P := fun o => ∃ command, o = AgentOp.oci command)
    (I := fun w' : AgentWorld => w'.host = w.host)
    (deleteIps_uses (fun command => ⟨command, rfl⟩) _ _) ?_ rfl
  rintro w₁ o r w₂ ⟨command, rfl⟩ ⟨cloud, -, rfl⟩ hI
  exact hI

/-- **A release that fails leaves the rows.** The only statement that writes one is the last that can fail. -/
theorem sat_release_failed {request : OciReleaseRequest} :
    (Api.ociRelease C config headers request).Sat (agentEnv J) w fun w' x =>
      ∀ e, x = .error e → w'.host.db.mappings = w.host.db.mappings := by
  refine Prog.sat_bind (Prog.sat_ofExcept ⟨fun _ _ => ?_, fun _ _ _ _ => rfl⟩)
  refine Prog.sat_bind (Prog.sat_ofExcept ⟨fun _ _ => ?_, fun _ _ _ _ => rfl⟩)
  cases resolve request.mappingId none with
  | none =>
    refine Prog.sat_bind (Prog.sat_ofExcept ⟨fun _ _ => ?_, fun _ _ _ _ => rfl⟩)
    refine Prog.sat_bind (Prog.sat_mono ?_ (sat_deleteIps_host _ _))
    intro w₁ x hw
    exact ⟨fun _ _ => Prog.sat_ret fun _ h => (nomatch h), fun _ _ _ _ => by rw [hw]⟩
  | some id =>
    refine Prog.sat_bind (Prog.sat_ofExcept ⟨fun id _ => ?_, fun _ _ _ _ => rfl⟩)
    refine Prog.sat_bind (Prog.sat_mono ?_ (sat_read Refines.self.onHost id))
    rintro w₁ x ⟨rfl, -⟩
    refine ⟨fun m _ => ?_, fun _ _ _ _ => rfl⟩
    refine Prog.sat_bind (Prog.sat_ofExcept ⟨fun _ _ => ?_, fun _ _ _ _ => rfl⟩)
    refine Prog.sat_bind (Prog.sat_mono ?_ (sat_deleteIps_host _ _))
    intro w₂ x hw₂
    refine ⟨fun _ _ => ?_, fun _ _ _ _ => by rw [hw₂]⟩
    refine Prog.sat_bind (Prog.sat_mono ?_ (sat_markStatus Refines.self.onHost _ _))
    rintro w₃ x ⟨rfl, now, rfl⟩
    refine ⟨fun m' _ => ?_, fun _ h => nomatch h⟩
    refine Prog.sat_bind (Prog.sat_mapErr (Prog.sat_mono ?_ (sat_onStore Refines.self.onHost (sat_updateMapping m'))))
    rintro w₄ x ⟨db', rfl, herror, -⟩
    cases x with
    | error e =>
      refine ⟨fun _ h => (nomatch h), fun _ _ _ _ => ?_⟩
      rw [setDb_db, herror e rfl, hw₂]
    | ok u =>
      refine ⟨fun _ _ => ?_, fun _ h => nomatch h⟩
      refine Prog.sat_bind (Prog.sat_attempt (Prog.sat_iff.2 fun _ _ _ _ => ?_))
      exact ⟨fun _ _ => Prog.sat_ret fun _ h => (nomatch h), fun _ h => nomatch h⟩

/-- **Failed releases leave the rows and the config**, however many there were. -/
theorem failed_releases {ts : List (Turn AgentSig ApiFailure ApiResponse ReleaseAttempt AgentWorld)}
    (hturns : InTurn (agentEnv J) (ReleaseAttempt.prog C) w₀ ts w) (hfailed : ∀ t ∈ ts, ∃ e, t.result = .error e) :
    w.host.db.mappings = w₀.host.db.mappings ∧ w.host.db.config = w₀.host.db.config := by
  refine hturns.inv (fun ts w => (∀ t ∈ ts, ∃ e, t.result = .error e) →
    w.host.db.mappings = w₀.host.db.mappings ∧ w.host.db.config = w₀.host.db.config) (fun _ => ⟨rfl, rfl⟩) ?_ hfailed
  intro ts t ih hr hfailed
  rw [List.forall_mem_append] at hfailed
  obtain ⟨hrows, hconfig⟩ := ih hfailed.1
  obtain ⟨e, he⟩ := hfailed.2 t (List.mem_singleton_self t)
  have hkeep : t.after.host.db.config = t.before.host.db.config :=
    (Prog.sat_of_uses (I := fun w' : AgentWorld => w'.host.db.config = t.before.host.db.config) keepsConfig_release
      (fun _ _ _ _ ho hE hI => (config_step ho hE).trans hI) rfl).of_run hr
  exact ⟨(sat_release_failed.of_run hr e he).trans hrows, hkeep.trans hconfig⟩

/-- **A release after failed ones.** After any release attempts that failed, at whatever step, an attempt in which the
cloud and the store work releases the mapping exactly where both addresses that its row names are still there and the
store takes the cleared mapping. -/
theorem release_resumes_iff {ts : List (Turn AgentSig ApiFailure ApiResponse ReleaseAttempt AgentWorld)}
    {request : OciReleaseRequest} (hturns : InTurn (agentEnv J) (ReleaseAttempt.prog C) w₀ ts w)
    (hfailed : ∀ t ∈ ts, ∃ e, t.result = .error e) (hrequest : ReleasesById config headers request id)
    (hm : w₀.host.db.mapping C id = some m) (hocid : m.ociPublicIpOcid ≠ none ∨ m.ociPrivateIpOcid ≠ none)
    (hclock : Clock C) :
    Resumes C J config headers request id m w ↔
      Intact w.cloud m ∧ ∀ now, Formats C now → Storable C w₀.host.db (m.cleared now) := by
  obtain ⟨hrows, hconfig⟩ := failed_releases hturns hfailed
  have hstorable : ∀ m, Storable C w.host.db m ↔ Storable C w₀.host.db m :=
    fun m => ⟨fun h => h.congr hrows hconfig, fun h => h.congr hrows.symm hconfig.symm⟩
  rw [resumes_iff hrequest ((mapping_congr hrows).trans hm) hocid hclock]
  exact and_congr_right fun _ => forall₂_congr fun now _ => hstorable _

/-! ## A release that is stuck -/

/-- The release of the sample mapping, asked for as it should be. -/
def sampleRelease : ReleaseAttempt := ⟨sampleConfig, [], { mappingId := some "vm", confirm := "delete" }⟩

theorem sampleRelease_byId :
    ReleasesById sampleRelease.config sampleRelease.headers sampleRelease.request sampleMapping.id where
  authorized := rfl
  confirmed := by decide +kernel
  mapping := by decide +kernel

/-- The sample world, where the cloud has no time for one of the deletes. -/
def busyAnswer (busy : OciCommand → Bool) : Handler AgentSig AgentWorld
  | w, .oci o => if busy o then (.exited ⟨some 1, "", "429 TooManyRequests"⟩, w) else agentAnswer w (.oci o)
  | w, o => agentAnswer w o

theorem busyAnswer_env (busy : OciCommand → Bool) (hbusy : ∀ o, busy o = true →
      (∃ ip, o = .deletePublicIp ip) ∨ ∃ ip, o = .deletePrivateIp ip) (w : AgentWorld) (o : AgentSig.Op) :
    agentEnv sampleOciJson w o (busyAnswer busy w o).1 (busyAnswer busy w o).2 := by
  have hrefused : ∀ {able : Prop} {dropped : Cloud},
      Deletes able w.cloud dropped (.exited ⟨some 1, "", "429 TooManyRequests"⟩) w.cloud := by
    intro able dropped
    refine ⟨fun hs => ?_, fun _ => rfl, .inl rfl⟩
    simp [Outcome.Succeeded, CommandOutput.isSuccess] at hs
  cases o with
  | oci o =>
    by_cases h : busy o = true
    · rw [show busyAnswer busy w (.oci o) = (.exited ⟨some 1, "", "429 TooManyRequests"⟩, w) from if_pos h]
      rcases hbusy o h with ⟨ip, rfl⟩ | ⟨ip, rfl⟩
      · exact ⟨w.cloud, hrefused, rfl⟩
      · exact ⟨w.cloud, hrefused, rfl⟩
    · rw [show busyAnswer busy w (.oci o) = agentAnswer w (.oci o) from if_neg h]
      exact agentAnswer_env w (.oci o)
  | host o => exact agentAnswer_env w (.host o)
  | selectEvents limit => exact ⟨rfl, .inl rfl⟩
  | newId | netbirdStatus | routeGet | envVar => exact rfl

/-- The cloud refuses to delete a private address. -/
def busyPrivate : OciCommand → Bool
  | .deletePrivateIp _ => true
  | _ => false

/-- The cloud refuses to delete a public address. -/
def busyPublic : OciCommand → Bool
  | .deletePublicIp _ => true
  | _ => false

theorem busyPrivate_env (w : AgentWorld) (o : AgentSig.Op) :
    agentEnv sampleOciJson w o (busyAnswer busyPrivate w o).1 (busyAnswer busyPrivate w o).2 := by
  refine busyAnswer_env busyPrivate (fun o h => .inr ?_) w o
  cases o <;> first | exact ⟨_, rfl⟩ | cases h

theorem busyPublic_env (w : AgentWorld) (o : AgentSig.Op) :
    agentEnv sampleOciJson w o (busyAnswer busyPublic w o).1 (busyAnswer busyPublic w o).2 := by
  refine busyAnswer_env busyPublic (fun o h => .inl ?_) w o
  cases o <;> first | exact ⟨_, rfl⟩ | cases h

/-- A release of the allocated addresses that failed at one of its deletes. -/
@[irreducible] def brokenRelease (busy : OciCommand → Bool) :
    List (Event AgentSig) × AgentWorld × Except ApiFailure ApiResponse :=
  (sampleRelease.prog sampleCodec).eval (busyAnswer busy) allocatedAgent

/-- The mapping with its addresses. -/
@[irreducible] def allocatedMapping : Mapping :=
  (allocatedAgent.host.db.mapping sampleCodec sampleMapping.id).getD sampleMapping

theorem broken_turns (busy : OciCommand → Bool) (hbusy : ∀ (w : AgentWorld) (o : AgentSig.Op),
      agentEnv sampleOciJson w o (busyAnswer busy w o).1 (busyAnswer busy w o).2) :
    InTurn (agentEnv sampleOciJson) (ReleaseAttempt.prog sampleCodec) allocatedAgent
      [⟨sampleRelease, allocatedAgent, (brokenRelease busy).1, (brokenRelease busy).2.2, (brokenRelease busy).2.1⟩]
      (brokenRelease busy).2.1 := by
  refine InTurn.init.snoc ?_
  unfold brokenRelease
  exact eval_run hbusy _ _

theorem exists_of_not_isOk {ε α : Type} {x : Except ε α} (h : x.isOk = false) : ∃ e, x = .error e := by
  cases x with
  | ok a => cases h
  | error e => exact ⟨e, rfl⟩

/-- What the allocation left behind, and what the two broken releases made of it. -/
theorem broken_facts : allocatedAgent.host.db.mapping sampleCodec sampleMapping.id = some allocatedMapping ∧
    (allocatedMapping.ociPublicIpOcid = some samplePublicIp.id ∧
      allocatedMapping.ociPrivateIpOcid = some samplePrivateIp.id) ∧
    ((brokenRelease busyPrivate).2.2.isOk = false ∧ (brokenRelease busyPrivate).2.1.cloud.publicIps = []) ∧
    ((brokenRelease busyPublic).2.2.isOk = false ∧
      (brokenRelease busyPublic).2.1.cloud.publicIps = [samplePublicIp.id] ∧
      (brokenRelease busyPublic).2.1.cloud.privateIps = [samplePrivateIp.id]) ∧
    ((updateMapping sampleCodec (allocatedMapping.cleared sampleTime)).eval sampleHandler
      allocatedAgent.host.db).2.2 = .ok () := by
  decide +kernel

/-- **A release that no later one can finish.** The first attempt deletes the public address and fails at the private
one. An attempt in which everything works then fails at the public address, which is gone. -/
theorem release_stuck : ¬ ∀ (C : Codec) (J : OciJson) (w₀ w : AgentWorld)
    (ts : List (Turn AgentSig ApiFailure ApiResponse ReleaseAttempt AgentWorld)) (a : ReleaseAttempt) (id : MappingId)
    (m : Mapping), InTurn (agentEnv J) (ReleaseAttempt.prog C) w₀ ts w → (∀ t ∈ ts, ∃ e, t.result = .error e) →
    ReleasesById a.config a.headers a.request id → w₀.host.db.mapping C id = some m →
    (m.ociPublicIpOcid ≠ none ∨ m.ociPrivateIpOcid ≠ none) → Clock C →
    Resumes C J a.config a.headers a.request id m w := by
  intro h
  obtain ⟨hm, ⟨hpublic, -⟩, ⟨hfails, hgone⟩, -, -⟩ := broken_facts
  have hocid : allocatedMapping.ociPublicIpOcid ≠ none ∨ allocatedMapping.ociPrivateIpOcid ≠ none :=
    .inl (by rw [hpublic]; simp)
  have hturns := broken_turns busyPrivate busyPrivate_env
  have hfailed : ∀ t ∈ [(⟨sampleRelease, allocatedAgent, (brokenRelease busyPrivate).1, (brokenRelease busyPrivate).2.2,
      (brokenRelease busyPrivate).2.1⟩ : Turn AgentSig ApiFailure ApiResponse ReleaseAttempt AgentWorld)],
      ∃ e, t.result = .error e := by
    rw [List.forall_mem_singleton]
    exact exists_of_not_isOk hfails
  have hrows := (failed_releases hturns hfailed).1
  have hresumes := h _ _ _ _ _ sampleRelease _ _ hturns hfailed sampleRelease_byId hm hocid sampleClock
  rw [resumes_iff sampleRelease_byId ((mapping_congr hrows).trans hm) hocid sampleClock] at hresumes
  have hlive := hresumes.1.publicIp _ hpublic
  rw [hgone] at hlive
  cases hlive

theorem allocated_storable (now : OffsetDateTime) (h : Formats sampleCodec now) :
    Storable sampleCodec allocatedAgent.host.db (allocatedMapping.cleared now) := by
  have hnow : now = sampleTime := by
    obtain ⟨s, hs⟩ := h
    by_contra hne
    rw [Codec.formatTime, show sampleCodec.formatRfc3339 now = .error "not a sample" from if_neg hne] at hs
    cases hs
  subst hnow
  obtain ⟨-, -, -, -, hok⟩ := broken_facts
  have hrun := eval_run sampleHandler_exec (updateMapping sampleCodec (allocatedMapping.cleared sampleTime))
    allocatedAgent.host.db
  rw [hok] at hrun
  exact updates_iff.1 ⟨_, _, hrun⟩

/-- A release that failed at its first delete is finished by the next one. -/
theorem release_resumes_after_refusal : (brokenRelease busyPublic).2.2.isOk = false ∧
    Resumes sampleCodec sampleOciJson sampleRelease.config sampleRelease.headers sampleRelease.request sampleMapping.id
      allocatedMapping (brokenRelease busyPublic).2.1 := by
  obtain ⟨hm, ⟨hpublic, hprivate⟩, -, ⟨hfails, hpub, hpriv⟩, -⟩ := broken_facts
  refine ⟨hfails, ?_⟩
  refine (release_resumes_iff (broken_turns busyPublic busyPublic_env) ?_ sampleRelease_byId hm ?_ sampleClock).2
    ⟨⟨fun ip hip => ?_, fun ip hip => ?_⟩, allocated_storable⟩
  · rw [List.forall_mem_singleton]
    exact exists_of_not_isOk hfails
  · exact .inl (by rw [hpublic]; simp)
  · rw [hpublic] at hip
    rw [hpub, ← Option.some.inj hip]
    exact List.mem_singleton_self _
  · rw [hprivate] at hip
    rw [hpriv, ← Option.some.inj hip]
    exact List.mem_singleton_self _

end EdgeRoute
