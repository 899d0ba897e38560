import EdgeRoute.Lib.Turns
import EdgeRoute.Proof.Active
import EdgeRoute.Proof.Sequence
import EdgeRoute.Spec.Cli

/-!
# Front ends on the host and the cloud

A part of a front end that asks the host, the store or the cloud only runs as it does there.

* `liftHost_run`, `onStore_run`: a run of the part, on the part of the world it sees.
* `sat_onStore`, `sat_liftOci`: the same for postconditions.
-/

namespace EdgeRoute

open Effect

variable {J : OciJson} {C : Codec} {ε α : Type} {w w' : AgentWorld} {tr : List (Event AgentSig)}
    {F : Env AgentSig AgentWorld}

/-! ## Parts of the world -/

def AgentWorld.setHost (w : AgentWorld) (host : World) : AgentWorld := { w with host }

def AgentWorld.setCloud (w : AgentWorld) (cloud : Cloud) : AgentWorld := { w with cloud }

def AgentWorld.setDb (w : AgentWorld) (db : Db) : AgentWorld := { w with host := { w.host with db } }

@[simp] theorem setHost_host (host : World) : (w.setHost host).host = host := rfl

@[simp] theorem setHost_cloud (host : World) : (w.setHost host).cloud = w.cloud := rfl

@[simp] theorem setCloud_host (cloud : Cloud) : (w.setCloud cloud).host = w.host := rfl

@[simp] theorem setCloud_cloud (cloud : Cloud) : (w.setCloud cloud).cloud = cloud := rfl

@[simp] theorem setDb_cloud (db : Db) : (w.setDb db).cloud = w.cloud := rfl

@[simp] theorem setDb_db (db : Db) : (w.setDb db).host.db = db := rfl

/-- The environment does nothing that the world of a front end cannot do. -/
def Refines (J : OciJson) (F : Env AgentSig AgentWorld) : Prop := ∀ w o r w', F w o r w' → agentEnv J w o r w'

theorem Refines.self : Refines J (agentEnv J) := fun _ _ _ _ h => h

/-- On the host the environment does nothing that the host cannot do. -/
def ActsOnHost (F : Env AgentSig AgentWorld) : Prop :=
  ∀ w o (r : HostOp.Reply o) w', F w (.host o) r w' → ∃ host, hostEnv w.host o r host ∧ w' = w.setHost host

theorem Refines.onHost (hF : Refines J F) : ActsOnHost F := fun w o r w' h => hF w (.host o) r w' h

/-! ## Runs of parts -/

theorem liftHost_run {p : Prog HostSig ε α} {x : Except ε α} (hF : ActsOnHost F) (h : (liftHost p).Run F w tr w' x) :
    ∃ tr' host, p.Run hostEnv w.host tr' host x ∧ w' = w.setHost host := by
  have hstep : ∀ (t : AgentWorld) (o : HostOp) (r : o.Reply) (t' : AgentWorld), F t (.host o) r t' →
      ∃ host, hostEnv t.host o r host ∧ t' = t.setHost host := hF
  exact Prog.run_embed AgentWorld.setHost (fun _ => rfl) (fun _ _ => rfl) (fun _ _ _ => rfl) hstep h

theorem onStore_run_of {p : StoreProg α} {G : Env StoreSig Db} {x : Except EdgeCoreError α}
    (hF : ∀ w o (r : StoreOp.Reply o) w', F w (.host (.store o)) r w' →
      ∃ db, G w.host.db o r db ∧ w' = w.setDb db)
    (h : (onStore p).Run F w tr w' x) : ∃ tr' db, p.Run G w.host.db tr' db x ∧ w' = w.setDb db := by
  unfold onStore liftHost at h
  rw [Prog.embed_embed] at h
  exact Prog.run_embed AgentWorld.setDb (fun _ => rfl) (fun _ _ => rfl) (fun _ _ _ => rfl) hF h

theorem onStore_run {p : StoreProg α} {x : Except EdgeCoreError α} (hF : ActsOnHost F)
    (h : (onStore p).Run F w tr w' x) : ∃ tr' db, p.Run storeEnv w.host.db tr' db x ∧ w' = w.setDb db := by
  refine onStore_run_of (fun w o r w' hE => ?_) h
  obtain ⟨host, ⟨db, hdb, rfl⟩, rfl⟩ := hF w (.store o) r w' hE
  exact ⟨db, hdb, rfl⟩

def HostOp.IsStore : HostOp → Prop
  | .store _ => True
  | _ => False

/-- Nothing but a statement changes the database. -/
theorem db_of_hostEnv {v v' : World} {o : HostOp} {r : o.Reply} (ho : ¬ o.IsStore) (hE : hostEnv v o r v') :
    v'.db = v.db := by
  cases o with
  | store so => exact absurd trivial ho
  | atomicWrite path text =>
    rcases hE with ⟨-, rfl⟩ | ⟨e, -, rfl⟩ <;> rfl
  | nft mode path =>
    cases mode with
    | check => rw [hE.1]
    | apply => rcases hE.either with rfl | ⟨-, rfl⟩ <;> rfl
  | ip command =>
    cases command with
    | «show» interface => rw [hE.1]
    | add interface a => rcases hE.either with rfl | ⟨-, rfl⟩ <;> rfl
    | del interface a => rcases hE.either with rfl | ⟨-, rfl⟩ <;> rfl
  | connect ip port => rw [show v' = v from hE]

/-! ## Postconditions -/

theorem sat_onStore {p : StoreProg α} {post : Db → Except EdgeCoreError α → Prop} (hF : ActsOnHost F)
    (h : p.Sat storeEnv w.host.db post) :
    (onStore p).Sat F w fun w' x => ∃ db, w' = w.setDb db ∧ post db x := by
  refine Prog.sat_iff.2 fun tr w' x hr => ?_
  obtain ⟨tr', db, hrun, rfl⟩ := onStore_run hF hr
  exact ⟨db, rfl, h.of_run hrun⟩

/-- The same where the statements are answered as `G` says. -/
theorem sat_onStore_of {p : StoreProg α} {G : Env StoreSig Db} {post : Db → Except EdgeCoreError α → Prop}
    (hF : ∀ w o (r : StoreOp.Reply o) w', F w (.host (.store o)) r w' →
      ∃ db, G w.host.db o r db ∧ w' = w.setDb db)
    (h : p.Sat G w.host.db post) : (onStore p).Sat F w fun w' x => ∃ db, w' = w.setDb db ∧ post db x := by
  refine Prog.sat_iff.2 fun tr w' x hr => ?_
  obtain ⟨tr', db, hrun, rfl⟩ := onStore_run_of hF hr
  exact ⟨db, rfl, h.of_run hrun⟩

theorem sat_liftOci {p : Prog OciSig ε α} {G : Env OciSig Cloud} {post : Cloud → Except ε α → Prop}
    (hF : ∀ w o r w', F w (.oci o) r w' → ∃ cloud, G w.cloud o r cloud ∧ w' = w.setCloud cloud)
    (h : p.Sat G w.cloud post) : (liftOci p).Sat F w fun w' x => ∃ cloud, w' = w.setCloud cloud ∧ post cloud x := by
  refine Prog.sat_iff.2 fun tr w' x hr => ?_
  obtain ⟨tr', cloud, hrun, rfl⟩ := Prog.run_embed AgentWorld.setCloud (fun _ => rfl) (fun _ _ => rfl)
    (fun _ _ _ => rfl) hF hr
  exact ⟨cloud, rfl, h.of_run hrun⟩

/-! ## Runs that can be -/

theorem can_liftHost {p : Prog HostSig ε α} {post : World → α → Prop}
    (hF : ∀ (w : AgentWorld) (o : HostOp) (r : o.Reply) (host : World), hostEnv w.host o r host →
      F w (.host o) r (w.setHost host))
    (h : p.Can hostEnv w.host post) : (liftHost p).Can F w fun w' a => ∃ host, w' = w.setHost host ∧ post host a := by
  refine Prog.can_embed (T := AgentSig) (F := F) (t := w) AgentWorld.setHost ?_ ?_ ?_ ?_ h
  · exact fun _ => rfl
  · exact fun _ _ => rfl
  · exact fun _ _ _ => rfl
  · exact fun w o r host hE => ⟨r, rfl, hF w o r host hE⟩

theorem can_onStore {p : StoreProg α} {post : Db → α → Prop}
    (hF : ∀ (w : AgentWorld) (o : HostOp) (r : o.Reply) (host : World), hostEnv w.host o r host →
      F w (.host o) r (w.setHost host))
    (h : p.Can storeEnv w.host.db post) : (onStore p).Can F w fun w' a => ∃ db, w' = w.setDb db ∧ post db a := by
  have hhost : (p.embed (T := HostSig) HostOp.store fun _ r => r).Can hostEnv w.host fun host a =>
      ∃ db, host = { w.host with db } ∧ post db a := by
    refine Prog.can_embed (T := HostSig) (F := hostEnv) (t := w.host) (fun w db => { w with db }) ?_ ?_ ?_ ?_ h
    · exact fun _ => rfl
    · exact fun _ _ => rfl
    · exact fun _ _ _ => rfl
    · exact fun w o r db hE => ⟨r, rfl, db, hE, rfl⟩
  refine Prog.can_mono ?_ (can_liftHost hF hhost)
  rintro w' a ⟨host, rfl, db, rfl, hpost⟩
  exact ⟨db, rfl, hpost⟩

/-! ## Operations of parts -/

theorem liftHost_uses {p : Prog HostSig ε α} {P : AgentOp → Prop} (h : p.Uses fun o => P (.host o)) :
    (liftHost p).Uses P := Prog.uses_embed (fun _ ho => ho) h

theorem liftOci_uses {p : Prog OciSig ε α} {P : AgentOp → Prop} (h : p.Uses fun o => P (.oci o)) :
    (liftOci p).Uses P := Prog.uses_embed (fun _ ho => ho) h

theorem onStore_uses {p : StoreProg α} {P : AgentOp → Prop} (h : p.Uses fun o => P (.host (.store o))) :
    (onStore p).Uses P := liftHost_uses (Prog.uses_embed (fun _ ho => ho) h)

theorem apiStore_uses {p : StoreProg α} {P : AgentOp → Prop} (h : p.Uses fun o => P (.host (.store o))) :
    (Api.store p).Uses P := Prog.uses_mapErr (onStore_uses h)

theorem cliStore_uses {p : StoreProg α} {P : AgentOp → Prop} (h : p.Uses fun o => P (.host (.store o))) :
    (Cli.store p).Uses P := Prog.uses_mapErr (onStore_uses h)

theorem apiOci_uses {p : OciProg α} {P : AgentOp → Prop} (h : p.Uses fun o => P (.oci o)) : (Api.oci p).Uses P :=
  Prog.uses_mapErr (liftOci_uses h)

/-! ## Calls that edit nothing -/

/-- An operation of the host that edits no mapping. Health may be written, as good or bad. -/
def NoEdit : HostOp → Prop
  | .store (.sql (.updateHealth _ status _ _ _ _)) => status = "active" ∨ status = "degraded"
  | .store (.sql s) => ¬ s.IsEdit
  | _ => True

/-- An operation that edits no mapping and creates and deletes no address of the cloud. -/
def Inert : AgentOp → Prop
  | .host o => NoEdit o
  | .oci (.createPrivateIp _ _) | .oci (.createReservedPublicIp _ _ _) => False
  | .oci (.deletePublicIp _) | .oci (.deletePrivateIp _) => False
  | _ => True

theorem noEdit_all : AdmitsAll C NoEdit where
  now := trivial
  event _ _ _ _ h := h
  generation _ _ _ _ _ _ h := h
  write _ _ := trivial
  nft _ _ := trivial
  active _ _ _ _ h := h
  connect _ _ := trivial
  row _ h := h
  health _ _ _ _ _ _ hstatus _ := hstatus
  listing h := h
  ip _ := trivial

theorem noEdit_reconcile (config : EdgeConfig) (options : ReconcileOptions) :
    (reconcile C config options).Uses NoEdit := reconcile_uses noEdit_all

theorem noEdit_rollback (id : ℤ) (path : String) : (rollback C id path).Uses NoEdit :=
  rollback_uses (noEdit_all (C := C)).toAdmitsLoad fun h => h

theorem inert_store {p : StoreProg α} (h : p.Uses fun o => NoEdit (.store o)) : (Api.store p).Uses Inert :=
  apiStore_uses h

theorem inert_listMappings : (listMappings C).Uses fun o => NoEdit (.store o) :=
  Prog.uses_bind (uses_sql fun h => h) fun _ => Prog.uses_ofExcept

theorem inert_getMapping {id : MappingId} : (getMapping C id).Uses fun o => NoEdit (.store o) :=
  getMapping_uses C fun h => h

theorem inert_recordEvent {level : EventLevel} {message : String} {data : Option String} :
    (recordEvent C level message data).Uses fun o => NoEdit (.store o) :=
  recordEvent_uses C trivial fun _ _ h => h

/-- An event that a handler records, come what may. -/
theorem inert_attemptEvent {level : EventLevel} {message : String} {data : Option String} :
    ((onStore (recordEvent C level message data)).attempt :
      AgentProg ε (Except EdgeCoreError EventRecord)).Uses Inert :=
  Prog.uses_attempt (onStore_uses inert_recordEvent)

theorem inert_resolveEdgeConfig (requested : EdgeConfig) (authoritative : Bool) :
    (resolveEdgeConfig C requested authoritative).Uses fun o => NoEdit (.store o) := by
  have hset : (setEdgeConfig C requested).Uses fun o => NoEdit (.store o) :=
    Prog.uses_bind Prog.uses_ofExcept fun _ => Prog.uses_bind Prog.uses_ofExcept fun _ => uses_sql fun h => h
  unfold resolveEdgeConfig
  split
  · exact Prog.uses_bind hset fun _ => Prog.uses_ret
  · refine Prog.uses_bind (Prog.uses_bind (uses_sql fun h => h) fun _ => Prog.uses_ofExcept) fun existing => ?_
    cases existing with
    | some existing => exact Prog.uses_ret
    | none => exact Prog.uses_bind hset fun _ => Prog.uses_ret

/-- A call that edits mappings or changes the cloud. -/
def ApiCall.IsEdit : ApiCall → Prop
  | .createMapping _ | .deleteMapping _ | .enableMapping _ | .disableMapping _ | .ociAllocate _ | .ociRelease _ => True
  | _ => False

def CliCommand.IsEdit : CliCommand → Prop
  | .create _ | .delete _ | .enable _ | .disable _ | .allocate _ | .release _ _ => True
  | _ => False

/-- **The other calls are inert.** -/
theorem inert_api {N : String → Except String NetbirdStatus} {config : EdgeConfig} {headers : HeaderMap}
    (call : ApiCall)
    (h : ¬ call.IsEdit) : (call.prog C J N config headers).Uses Inert := by
  have hcheck : ∀ {β : Type} {x : Except ApiFailure β}, (Api.check x).Uses Inert := Prog.uses_ofExcept
  have hstatus : (netbirdStatus N).Uses Inert := Prog.uses_call trivial fun _ => Prog.uses_ofExcept
  have hevents : ((listEvents C 100).mapErr ApiFailure.ofCore).Uses Inert :=
    Prog.uses_mapErr (Prog.uses_call trivial fun _ => Prog.uses_ofExcept)
  have henv : ∀ {ε : Type} name, (envVarSet name : AgentProg ε Bool).Uses Inert := fun _ =>
    Prog.uses_call trivial fun _ => Prog.uses_ret
  cases call with
  | createMapping request | deleteMapping id | enableMapping id | disableMapping id => exact absurd trivial h
  | ociAllocate request | ociRelease request => exact absurd trivial h
  | status | listMappings | topology =>
    exact Prog.uses_bind hcheck fun _ => Prog.uses_bind (inert_store inert_listMappings) fun _ => Prog.uses_ret
  | getMapping id =>
    refine Prog.uses_bind hcheck fun _ => Prog.uses_bind Prog.uses_ofExcept fun _ => ?_
    exact Prog.uses_bind (inert_store inert_getMapping) fun _ => Prog.uses_ret
  | dryRunApply =>
    refine Prog.uses_bind hcheck fun _ => Prog.uses_bind (inert_store inert_listMappings) fun _ => ?_
    exact Prog.uses_bind Prog.uses_ofExcept fun _ => Prog.uses_ret
  | reconcile request =>
    refine Prog.uses_bind hcheck fun _ => Prog.uses_bind (Prog.uses_mapErr ?_) fun _ => Prog.uses_ret
    exact liftHost_uses (noEdit_reconcile _ _)
  | netbirdStatus | netbirdNetworks =>
    exact Prog.uses_bind hcheck fun _ => Prog.uses_bind (Prog.uses_mapErr hstatus) fun _ => Prog.uses_ret
  | events => exact Prog.uses_bind hcheck fun _ => Prog.uses_bind hevents fun _ => Prog.uses_ret
  | analytics =>
    refine Prog.uses_bind hcheck fun _ => Prog.uses_bind (inert_store inert_listMappings) fun _ => ?_
    exact Prog.uses_bind hevents fun _ => Prog.uses_ret
  | ociStatus =>
    refine Prog.uses_bind hcheck fun _ => Prog.uses_bind (Prog.uses_attempt (liftOci_uses ?_)) fun _ => ?_
    · exact Prog.uses_call trivial fun _ => Prog.uses_ofExcept
    refine Prog.uses_bind (henv _) fun _ => Prog.uses_bind (henv _) fun _ => ?_
    exact Prog.uses_bind (henv _) fun _ => Prog.uses_bind (henv _) fun _ => Prog.uses_ret
  | ociVnicCheck id | ociPublicIps id =>
    refine Prog.uses_bind hcheck fun _ => Prog.uses_bind hcheck fun _ => Prog.uses_bind (apiOci_uses ?_)
      fun _ => Prog.uses_ret
    exact Prog.uses_bind (Prog.uses_call trivial fun _ => Prog.uses_ofExcept) fun _ => Prog.uses_ofExcept
  | ociNsgAdd request =>
    refine Prog.uses_bind hcheck fun _ => Prog.uses_bind hcheck fun _ => Prog.uses_bind hcheck fun _ => ?_
    refine Prog.uses_bind (apiOci_uses ?_) fun _ => Prog.uses_ret
    refine Prog.uses_bind Prog.uses_ofExcept fun _ => ?_
    exact Prog.uses_bind (Prog.uses_call trivial fun _ => Prog.uses_ofExcept) fun _ => Prog.uses_ret
  | ociNsgRemove request =>
    refine Prog.uses_bind hcheck fun _ => Prog.uses_bind hcheck fun _ => Prog.uses_bind hcheck fun _ => ?_
    refine Prog.uses_bind hcheck fun _ => Prog.uses_bind (apiOci_uses ?_) fun _ => Prog.uses_ret
    refine Prog.uses_bind Prog.uses_ofExcept fun _ => ?_
    exact Prog.uses_bind (Prog.uses_call trivial fun _ => Prog.uses_ofExcept) fun _ => Prog.uses_ret

theorem inert_cli {D : Option OciError → String} {config : EdgeConfig} (command : CliCommand) (h : ¬ command.IsEdit) :
    (command.prog C J D config).Uses Inert := by
  have hrec : ∀ options {f : ReconcileError → String},
      ((liftHost (EdgeRoute.reconcile C config options)).mapErr f).Uses Inert :=
    fun options _ => Prog.uses_mapErr (liftHost_uses (noEdit_reconcile _ _))
  cases command with
  | create args | delete args | enable id | disable id => exact absurd trivial h
  | allocate args => exact absurd trivial h
  | release publicIpId privateIpId => exact absurd trivial h
  | apply args =>
    refine Prog.uses_bind (cliStore_uses inert_listMappings) fun _ => Prog.uses_bind Prog.uses_ofExcept fun _ => ?_
    refine Prog.uses_bind Prog.uses_ofExcept fun _ => ?_
    split
    · exact Prog.uses_ret
    · exact Prog.uses_bind (hrec _) fun _ => Prog.uses_ret
  | reconcile args => exact Prog.uses_bind (hrec _) fun _ => Prog.uses_ret
  | rollback generationId output => exact Prog.uses_mapErr (liftHost_uses (noEdit_rollback _ _))

/-! ## Store methods -/

section Store

variable {db db' : Db} {m : Mapping} {id : MappingId}

/-- A statement that leaves the table of mappings. -/
def LeavesMappings : StoreOp → Prop
  | .now => True
  | .sql s => ¬ s.IsEdit ∧ ¬ s.IsHealth

theorem sat_leavesMappings {p : StoreProg α} (h : p.Uses LeavesMappings) :
    p.Sat storeEnv db fun db' _ => db'.mappings = db.mappings := by
  refine Prog.sat_of_uses (I := fun db' : Db => db'.mappings = db.mappings) h (fun db₁ o r db₂ ho hE hI => ?_) rfl
  refine (mappings_of_storeEnv hE fun s hs => ?_).trans hI
  subst hs
  exact ho

/-- The row of `id` decodes to `m`. -/
def StoredAs (C : Codec) (db : Db) (id : MappingId) (m : Mapping) : Prop :=
  ∃ row ∈ db.mappings.rows, row.id = id.val ∧ C.rowToMapping row = .ok m ∧ m.id = id

theorem sat_getMapping_stored (id : MappingId) : (getMapping C id).Sat storeEnv db fun db' x =>
    db' = db ∧ ∀ m, x = .ok m → StoredAs C db id m := by
  refine Prog.sat_bind (Prog.sat_mono ?_ (sat_select fun _ => rfl))
  rintro db₁ x ⟨rfl, hx⟩
  refine ⟨fun row hrow => ?_, fun _ he => ⟨rfl, fun m hm => nomatch hm⟩⟩
  have hfind : db₁.mappings.find id.val = row := Except.ok.inj (hx row hrow)
  cases row with
  | none => exact Prog.sat_fail ⟨rfl, fun m hm => nomatch hm⟩
  | some row =>
    refine Prog.sat_ofExcept ⟨rfl, fun m hm => ?_⟩
    obtain ⟨hmem, hid⟩ := Sql.Table.find_some hfind
    have hid' : row.id = id.val := hid
    have hmid := (rowToMapping_ok.1 hm).id
    rw [hid', MappingId.fromStr_val] at hmid
    exact ⟨row, hmem, hid, hm, (Except.ok.inj hmid).symm⟩

/-- The full UPDATE replaced the row `old` of the mapping by the columns `cols`. -/
structure Updated (C : Codec) (m : Mapping) (t t' : Sql.Table mappingsSchema) (cols old : Row) : Prop where
  bound : C.updateRow m = .ok cols
  mem : old ∈ t.rows
  id : old.id = cols.id
  table : t' = t.set cols.id cols.replaced cols.replaced_id

/-- **`update_mapping`** replaces the row of the mapping, or fails and leaves the table. -/
theorem sat_updateMapping (m : Mapping) : (updateMapping C m).Sat storeEnv db fun db' x =>
    (∀ e, x = .error e → db'.mappings = db.mappings) ∧
      (x = .ok () → ∃ cols old, Updated C m db.mappings db'.mappings cols old) := by
  have hfail : ∀ {db' : Db} {e : EdgeCoreError}, db'.mappings = db.mappings →
      (∀ e', (.error e : Except EdgeCoreError Unit) = .error e' → db'.mappings = db.mappings) ∧
      ((.error e : Except EdgeCoreError Unit) = .ok () → ∃ cols old, Updated C m db.mappings db'.mappings cols old) :=
    fun h => ⟨fun _ _ => h, fun h => by cases h⟩
  refine Prog.sat_bind (Prog.sat_mono ?_ (sat_leavesMappings (requireEdgeConfig_uses C ⟨fun h => h, fun h => h⟩)))
  intro db₁ x h₁
  refine ⟨fun config _ => ?_, fun _ _ => hfail h₁⟩
  refine Prog.sat_bind (Prog.sat_ofExcept ⟨fun _ _ => ?_, fun _ _ => hfail h₁⟩)
  refine Prog.sat_bind (Prog.sat_mono ?_ (sat_leavesMappings (rejectDuplicates_uses C ⟨fun h => h, fun h => h⟩)))
  intro db₂ x h₂
  rw [h₁] at h₂
  refine ⟨fun _ _ => ?_, fun _ _ => hfail h₂⟩
  refine Prog.sat_bind (Prog.sat_ofExcept ⟨fun cols hcols => ?_, fun _ _ => hfail h₂⟩)
  refine Prog.sat_bind (sat_sql fun r db₃ hE => ?_)
  have hupdate : (r ≠ .ok 0 → (∃ e, r = .error e) ∨ ∃ old, Updated C m db.mappings db₃.mappings cols old) ∧
      (r = .ok 0 ∨ (∃ e, r = .error e) → db₃.mappings = db.mappings) := by
    rcases hE with hE | ⟨message, rfl, rfl⟩
    · rw [Db.exec_updateMapping, Db.updateMappings] at hE
      cases hu : db₂.mappings.update cols.id cols.replaced cols.replaced_id true with
      | error e =>
        rw [hu] at hE
        obtain ⟨rfl, rfl⟩ := Prod.mk.inj hE
        exact ⟨fun _ => .inl ⟨e, rfl⟩, fun _ => h₂⟩
      | ok p =>
        obtain ⟨t, n⟩ := p
        rw [hu] at hE
        obtain ⟨rfl, rfl⟩ := Prod.mk.inj hE
        rcases Sql.Table.update_ok hu with ⟨-, rfl, rfl⟩ | ⟨old, ho, rfl, rfl, -⟩
        · exact ⟨fun h => absurd rfl h, fun _ => h₂⟩
        · obtain ⟨hmem, hid⟩ := Sql.Table.find_some ho
          rw [h₂] at hmem
          refine ⟨fun _ => .inr ⟨old, hcols, hmem, hid, by rw [h₂]⟩, ?_⟩
          rintro (h | ⟨e, h⟩) <;> cases h
    · exact ⟨fun _ => .inl ⟨_, rfl⟩, fun _ => h₂⟩
  cases r with
  | error e => exact ⟨fun _ h => (by cases h), fun _ _ => hfail (hupdate.2 (.inr ⟨e, rfl⟩))⟩
  | ok n =>
    refine ⟨fun n' hn' => ?_, fun _ h => by cases h⟩
    obtain rfl : n = n' := Except.ok.inj hn'
    split
    · rename_i hn
      exact Prog.sat_fail (hfail (hupdate.2 (.inl (by rw [hn]))))
    · rename_i hn
      refine Prog.sat_ret ⟨fun _ h => (by cases h), fun _ => ?_⟩
      rcases hupdate.1 (fun h => hn (Except.ok.inj h)) with ⟨e, he⟩ | ⟨old, hold⟩
      · cases he
      · exact ⟨cols, old, hold⟩

/-- **`delete_mapping`** deletes the row of the mapping, or fails and leaves the table. -/
theorem sat_deleteMapping (id : MappingId) : (deleteMapping C id).Sat storeEnv db fun db' x =>
    (∀ e, x = .error e → db'.mappings = db.mappings) ∧
      ∀ m, x = .ok m → StoredAs C db id m ∧ db'.mappings = db.mappings.delete id.val := by
  refine Prog.sat_bind (Prog.sat_mono ?_ (sat_getMapping_stored id))
  rintro db₁ x ⟨rfl, hx⟩
  refine ⟨fun m hm => ?_, fun e _ => ⟨fun _ _ => rfl, fun m h => nomatch h⟩⟩
  refine Prog.sat_bind (sat_sql fun r db₂ hE => ?_)
  rcases hE with hE | ⟨message, rfl, rfl⟩
  · obtain ⟨rfl, rfl⟩ : r = .ok () ∧ db₂ = { db₁ with mappings := db₁.mappings.delete id.val } := Prod.mk.inj hE
    refine ⟨fun _ _ => Prog.sat_ret ⟨fun _ h => (nomatch h), fun m' hm' => ?_⟩, fun _ h => (nomatch h)⟩
    obtain rfl := Except.ok.inj hm'
    exact ⟨hx m hm, rfl⟩
  · exact ⟨fun _ h => (nomatch h), fun _ _ => ⟨fun _ _ => rfl, fun m h => nomatch h⟩⟩

end Store

/-! ## Samples -/

def samplePrivateIp : PrivateIp := ⟨"ocid1.privateip.x", ⟨10, 0, 0, 102⟩, some "ocid1.vnic.x", some "prod"⟩

def samplePublicIp : PublicIp :=
  ⟨"ocid1.publicip.x", ⟨8, 8, 4, 4⟩, some "ocid1.privateip.x", some "RESERVED", some "REGION", some "AVAILABLE",
    some "prod"⟩

def sampleVnic : Vnic := ⟨"ocid1.vnic.x", some "edge", some true⟩

def samplePrivateIpText : String :=
  "\x7b\"data\":\x7b\"id\":\"ocid1.privateip.x\",\"ip-address\":\"10.0.0.102\",\"vnic-id\":\"ocid1.vnic.x\"," ++
  "\"display-name\":\"prod\"\x7d\x7d"

def samplePublicIpText : String :=
  "\x7b\"data\":\x7b\"id\":\"ocid1.publicip.x\",\"ip-address\":\"8.8.4.4\"," ++
  "\"private-ip-id\":\"ocid1.privateip.x\",\"lifetime\":\"RESERVED\",\"scope\":\"REGION\"," ++
  "\"lifecycle-state\":\"AVAILABLE\",\"display-name\":\"prod\"\x7d\x7d"

def sampleVnicText : String :=
  "\x7b\"data\":\x7b\"id\":\"ocid1.vnic.x\",\"display-name\":\"edge\",\"skip-source-dest-check\":true\x7d\x7d"

/-- `serde_json` on the sample texts. -/
def sampleOciJson : OciJson where
  publicIps _ := .error "not a sample"
  publicIp s := if s = samplePublicIpText then .ok samplePublicIp else .error "not a sample"
  privateIp s := if s = samplePrivateIpText then .ok samplePrivateIp else .error "not a sample"
  vnic s := if s = sampleVnicText then .ok sampleVnic else .error "not a sample"
  nsgRules _ := .error "not a sample"
  ruleIds _ := .error "not a sample"

theorem sample_privateIp : sampleOciJson.privateIp samplePrivateIpText = .ok samplePrivateIp := by
  simp only [sampleOciJson, if_true]

theorem sample_publicIp : sampleOciJson.publicIp samplePublicIpText = .ok samplePublicIp := by
  simp only [sampleOciJson, if_true]

theorem sample_vnic : sampleOciJson.vnic sampleVnicText = .ok sampleVnic := by
  simp only [sampleOciJson, if_true]

/-- A create that hands out one address, once. -/
def createOnce (c : Cloud) (id text : String) (add : String → Cloud) : Outcome × Cloud :=
  if id ∈ c.issued then (.exited ⟨some 1, "", "LimitExceeded"⟩, c) else (.exited ⟨some 0, text, ""⟩, add id)

/-- A delete of an address that is there. -/
def deleteLive (ids : List String) (id : String) (c dropped : Cloud) : Outcome × Cloud :=
  if id ∈ ids then (.exited ⟨some 0, "", ""⟩, dropped) else (.exited ⟨some 1, "", "NotAuthorizedOrNotFound"⟩, c)

/-- A cloud without failures of its own, whose addresses are the samples. -/
def sampleCloud (c : Cloud) : OciCommand → Outcome × Cloud
  | .getVnic _ => (.exited ⟨some 0, sampleVnicText, ""⟩, c)
  | .createPrivateIp _ _ => createOnce c samplePrivateIp.id samplePrivateIpText c.addPrivate
  | .createReservedPublicIp _ _ _ => createOnce c samplePublicIp.id samplePublicIpText c.addPublic
  | .deletePublicIp id => deleteLive c.publicIps id c (c.dropPublic id)
  | .deletePrivateIp id => deleteLive c.privateIps id c (c.dropPrivate id)
  | _ => (.exited ⟨some 0, "", ""⟩, c)

theorem creates_createOnce {parse : String → Except String α} {text : String} (ocid : α → String) (a : α)
    (c : Cloud) (add : String → Cloud) (hparse : parse text = .ok a) :
    Creates parse ocid c add (createOnce c (ocid a) text add).1 (createOnce c (ocid a) text add).2 := by
  unfold createOnce
  split
  · refine ⟨fun output ho hs => ?_, fun _ => rfl, .inl rfl⟩
    obtain rfl := Outcome.exited.inj ho
    simp [CommandOutput.isSuccess] at hs
  · rename_i hfresh
    refine ⟨fun output ho _ => ?_, fun hr => ?_, .inr ⟨_, hfresh, rfl⟩⟩
    · obtain rfl := Outcome.exited.inj ho
      exact ⟨a, hparse, hfresh, rfl⟩
    · simp [Outcome.Rejected, CommandOutput.isSuccess] at hr

theorem deletes_deleteLive (ids : List String) (id : String) (c dropped : Cloud) :
    Deletes (id ∈ ids) c dropped (deleteLive ids id c dropped).1 (deleteLive ids id c dropped).2 := by
  unfold deleteLive
  split
  · rename_i h
    exact ⟨fun _ => ⟨h, rfl⟩, fun hr => absurd hr.2 (by decide), .inr ⟨h, rfl⟩⟩
  · refine ⟨fun hs => ?_, fun _ => rfl, .inl rfl⟩
    simp [Outcome.Succeeded, CommandOutput.isSuccess] at hs

theorem sampleCloud_env (c : Cloud) (o : OciCommand) :
    cloudEnv sampleOciJson c o (sampleCloud c o).1 (sampleCloud c o).2 := by
  cases o with
  | createPrivateIp => exact creates_createOnce PrivateIp.id samplePrivateIp c _ sample_privateIp
  | createReservedPublicIp => exact creates_createOnce PublicIp.id samplePublicIp c _ sample_publicIp
  | deletePublicIp | deletePrivateIp => exact deletes_deleteLive _ _ _ _
  | version | listPublicIps | getVnic | addNsgRules | removeNsgRules => exact rfl

/-- A world of a front end without failures of its own. The only new id is that of the sample. -/
def agentAnswer : Handler AgentSig AgentWorld
  | w, .host o => ((answer (fun _ => true) w.host o).1, { w with host := (answer (fun _ => true) w.host o).2 })
  | w, .oci o => ((sampleCloud w.cloud o).1, { w with cloud := (sampleCloud w.cloud o).2 })
  | w, .selectEvents limit => (.ok (w.host.db.latestEvents limit), w)
  | w, .newId => (sampleMapping.id, w)
  | w, .netbirdStatus => (.error "netbird is not installed", w)
  | w, .routeGet _ => (.error "no route", w)
  | w, .envVar _ => (false, w)

theorem agentAnswer_env (w : AgentWorld) (o : AgentSig.Op) :
    agentEnv sampleOciJson w o (agentAnswer w o).1 (agentAnswer w o).2 := by
  cases o with
  | host o => exact ⟨_, answer_env _ _ _, rfl⟩
  | oci o => exact ⟨_, sampleCloud_env _ _, rfl⟩
  | selectEvents limit => exact ⟨rfl, .inl rfl⟩
  | newId | netbirdStatus | routeGet | envVar => exact rfl

/-- The empty host, and a cloud without addresses. -/
def emptyAgent : AgentWorld := ⟨emptyHost, ⟨[], [], []⟩⟩

def sampleNetbird : String → Except String NetbirdStatus := fun _ => .error "expected value at line 1 column 1"

def sampleDebug : Option OciError → String := fun _ => "None"

/-- The front ends of the samples. -/
abbrev sampleProg : FrontCall → AgentProg FrontFailure Unit :=
  FrontCall.prog sampleCodec sampleOciJson sampleNetbird sampleDebug

/-- A request under the sample config, answered. -/
@[irreducible] def evalApi (w : AgentWorld) (call : ApiCall) :
    List (Event AgentSig) × AgentWorld × Except FrontFailure Unit :=
  (sampleProg (.api sampleConfig [] call)).eval agentAnswer w

theorem evalApi_run {w : AgentWorld} {call : ApiCall} (h : (evalApi w call).2.2 = .ok ()) :
    (sampleProg (.api sampleConfig [] call)).Run (agentEnv sampleOciJson) w (evalApi w call).1 (evalApi w call).2.1
      (.ok ()) := by
  rw [← h]
  unfold evalApi
  exact eval_run agentAnswer_env _ _

def sampleCreate : ApiCall :=
  .createMapping { name := "prod_vm_1", edgePrivateIp := ⟨10, 0, 0, 101⟩, targetIp := ⟨192, 168, 20, 42⟩ }

def sampleAllocate : ApiCall :=
  .ociAllocate
    { mappingId := "vm", compartmentId := some "ocid1.compartment.x", vnicId := some "ocid1.vnic.x"
      confirm := "confirm" }

/-- A mapping was created. -/
@[irreducible] def createdAgent : AgentWorld := (evalApi emptyAgent sampleCreate).2.1

/-- And addresses were allocated to it. -/
@[irreducible] def allocatedAgent : AgentWorld := (evalApi createdAgent sampleAllocate).2.1

theorem created_run : (sampleProg (.api sampleConfig [] sampleCreate)).Run (agentEnv sampleOciJson) emptyAgent
    (evalApi emptyAgent sampleCreate).1 createdAgent (.ok ()) := by
  unfold createdAgent
  exact evalApi_run (by decide +kernel)

theorem created_facts : createdAgent.host.db.mappings.rows.map
    (fun row => (row.id, (sampleCodec.rowToMapping row).toOption)) =
      [("vm", some sampleMapping)] ∧ createdAgent.host.db.config = some sampleJson ∧ createdAgent.cloud.issued = [] ∧
    (createdAgent.host.addrs sampleConfig.wanInterface).entries = [] := by
  decide +kernel

theorem allocated_run : (sampleProg (.api sampleConfig [] sampleAllocate)).Run (agentEnv sampleOciJson) createdAgent
    (evalApi createdAgent sampleAllocate).1 allocatedAgent (.ok ()) := by
  unfold allocatedAgent
  exact evalApi_run (by decide +kernel)

end EdgeRoute
