import EdgeRoute.Proof.Addresses

/-!
# Runs that succeed

Where nothing refuses, `reconcile` has a run that returns: the statements are executed, the tools exit
with status zero and the targets answer.

* `applyReconcile_can`, `reconcile_can`: such a run loads the ruleset of the listing, leaves the addresses
  that the loop makes and writes nothing but health into the rows.
-/

namespace EdgeRoute

open Effect

variable {C : Codec} {config : EdgeConfig} {options : ReconcileOptions} {w w' : World} {db db' : Db}
  {wan path text : String} {a : Ipv4Addr} {t : AddrTable} {m : Mapping} {ms : List Mapping} {row : Row}

/-! ## Statements -/

/-- The time can be written. -/
def Formats (C : Codec) (t : OffsetDateTime) : Prop := ∃ text, C.formatTime t = .ok text

/-- **A store that works**: every statement is executed, and the clock shows a time in `T`. -/
def workingStore (T : OffsetDateTime → Prop) : Env StoreSig Db := fun db o r db' =>
  match o, r with
  | .now, now => T now ∧ db' = db
  | .sql s, r => (r, db') = db.exec s

theorem exec_of_workingStore {T : OffsetDateTime → Prop} (db : Db) (o : StoreOp) (r : o.Reply) (db' : Db)
    (h : workingStore T db o r db') : execEnv db o r db' := by
  cases o with
  | now => exact h.2
  | sql s => exact h

theorem storeEnv_of_exec (db : Db) (o : StoreOp) (r : o.Reply) (db' : Db) (h : execEnv db o r db') :
    storeEnv db o r db' := by
  cases o with
  | now => exact h
  | sql s => exact .inl h

/-- Some time can be written. -/
def Clock (C : Codec) : Prop := ∃ now text, C.formatTime now = .ok text

theorem nowUtc_can {post : Db → OffsetDateTime → Prop} (now : OffsetDateTime) (h : post db now) :
    nowUtc.Can storeEnv db post :=
  Prog.can_call (S := StoreSig) (r := now) rfl (Prog.can_ret h)

theorem sql_can {s : Stmt} {out : s.Out} {post : Db → s.Out → Prop} (hout : (db.exec s).1 = .ok out)
    (h : post (db.exec s).2 out) : (sql s).Can storeEnv db post := by
  refine Prog.can_call (S := StoreSig) (r := .ok out) (.inl ?_) (Prog.can_ret h)
  rw [← hout]

/-- Both databases hold the same mappings under the same config. -/
structure SameMappings (db db' : Db) : Prop where
  mappings : db'.mappings = db.mappings
  config : db'.config = db.config

theorem recordGeneration_can {status : GenerationStatus} {appliedAt : Option OffsetDateTime} {error : Option String}
    (hclock : Clock C) (htext : Text.trim text ≠ "")
    (happlied : ∃ s, transposeMap C.formatTime appliedAt = .ok s) :
    (recordGeneration C status text appliedAt error).Can storeEnv db fun db' g =>
      SameMappings db db' ∧ g.id = db.nextGeneration := by
  obtain ⟨now, created, hnow⟩ := hclock
  obtain ⟨applied, happlied⟩ := happlied
  obtain ⟨s, hs⟩ : ∃ s, enumString GenerationStatus.names status = .ok s := by cases status <;> exact ⟨_, rfl⟩
  unfold recordGeneration
  rw [if_neg htext]
  refine Prog.can_bind (nowUtc_can now (Prog.can_bind (Prog.can_ofExcept hs ?_)))
  refine Prog.can_bind (Prog.can_ofExcept hnow (Prog.can_bind (Prog.can_ofExcept happlied ?_)))
  exact Prog.can_bind (sql_can (s := .insertGeneration s text created applied error) rfl
    (Prog.can_ret ⟨⟨rfl, rfl⟩, rfl⟩))

theorem recordEvent_can {level : EventLevel} {message : String} {data : Option String} (hclock : Clock C)
    (hmessage : Text.trim message ≠ "") :
    (recordEvent C level message data).Can storeEnv db fun db' _ => SameMappings db db' := by
  obtain ⟨now, created, hnow⟩ := hclock
  obtain ⟨l, hl⟩ : ∃ l, enumString EventLevel.names level = .ok l := by cases level <;> exact ⟨_, rfl⟩
  unfold recordEvent
  rw [if_neg hmessage]
  refine Prog.can_bind (nowUtc_can now (Prog.can_bind (Prog.can_ofExcept hl ?_)))
  refine Prog.can_bind (Prog.can_ofExcept hnow (Prog.can_bind ?_))
  exact sql_can (s := .insertEvent l message data created) rfl (Prog.can_ret ⟨rfl, rfl⟩)

/-- Every row decodes. -/
def Decodes (C : Codec) (t : Sql.Table mappingsSchema) : Prop := ∀ row ∈ t.rows, ∃ m, C.rowToMapping row = .ok m

theorem Decodes.refreshed {t t' : Sql.Table mappingsSchema} (h : Decodes C t) (hr : Refreshed C t t') :
    Decodes C t' := by
  intro row hrow
  have hcore : row.core ∈ t.rows.map Row.core := hr.core ▸ List.mem_map_of_mem hrow
  obtain ⟨old, hold, hc⟩ := List.mem_map.1 hcore
  obtain ⟨m, hm⟩ := h old hold
  have hh := hr.health (fun row hrow => healthDecodes_of_decoded (h row hrow).choose_spec) row hrow
  obtain ⟨m', hm', -⟩ := rowToMapping_of_core (hc ▸ rowToMapping_core hm) hh
  exact ⟨m', hm'⟩

theorem mem_ids_refreshed {t t' : Sql.Table mappingsSchema} (hr : Refreshed C t t') {id : String}
    (h : id ∈ t.rows.map Row.id) : id ∈ t'.rows.map Row.id := by
  have hids : ∀ t : Sql.Table mappingsSchema, t.rows.map Row.id = (t.rows.map Row.core).map Row.id := by
    intro t
    rw [List.map_map]
    rfl
  rw [hids, hr.core, ← hids]
  exact h

theorem getMapping_can {id : MappingId} {row : Row} (hrow : row ∈ db.mappings.rows) (hid : row.id = id.val)
    (hm : C.rowToMapping row = .ok m) : (getMapping C id).Can storeEnv db fun db' x => db' = db ∧ x = m := by
  refine Prog.can_bind (sql_can (s := .selectMapping id.val) (congrArg Except.ok (Sql.Table.find_of_mem hrow hid)) ?_)
  exact Prog.can_ofExcept hm ⟨rfl, rfl⟩

theorem deleteMapping_can {id : MappingId} {row : Row} (hrow : row ∈ db.mappings.rows) (hid : row.id = id.val)
    (hm : C.rowToMapping row = .ok m) : (deleteMapping C id).Can storeEnv db fun db' _ =>
      db' = { db with mappings := db.mappings.delete id.val } := by
  refine Prog.can_bind (Prog.can_mono ?_ (getMapping_can hrow hid hm))
  rintro db₁ m' ⟨rfl, rfl⟩
  exact Prog.can_bind (sql_can (s := .deleteMapping id.val) rfl (Prog.can_ret rfl))

/-- The table after a health write of a row that is there. -/
theorem setMappingHealth_can {id : MappingId} {status : MappingStatus} {health error : Option String}
    (hclock : Clock C) (hdec : Decodes C db.mappings) (hid : id.val ∈ db.mappings.rows.map Row.id) :
    (setMappingHealth C id status health error).Can storeEnv db fun db' _ =>
      Refreshed C db.mappings db'.mappings ∧ db'.config = db.config := by
  obtain ⟨now, text, hnow⟩ := hclock
  obtain ⟨s, hs⟩ : ∃ s, enumString MappingStatus.names status = .ok s := by cases status <;> exact ⟨_, rfl⟩
  obtain ⟨old, hold, hoid⟩ := List.mem_map.1 hid
  have hfind : db.mappings.find id.val = some old := Sql.Table.find_of_mem hold hoid
  have hwrite : db.exec (.updateHealth id.val s health error text text) =
      (.ok 1, { db with
        mappings := (db.mappings.set id.val (Row.withHealth s health error text text)
          (Row.withHealth_id s health error text text)) }) := by
    simp [Db.updateMappings, Sql.Table.update, hfind]
  have hok : HealthOk C s text text := ⟨⟨status, hs⟩, ⟨now, hnow⟩, now, hnow⟩
  have hrefreshed := refreshed_health db.mappings id.val health error hok
  have hnew : old.withHealth s health error text text ∈ (db.mappings.set id.val
      (Row.withHealth s health error text text) (Row.withHealth_id s health error text text)).rows :=
    Sql.Table.mem_set.2 (.inr ⟨old, hold, hoid, rfl⟩)
  obtain ⟨m, hm⟩ := (hdec.refreshed hrefreshed) _ hnew
  refine Prog.can_bind (Prog.can_ofExcept hs (Prog.can_bind (nowUtc_can now ?_)))
  refine Prog.can_bind (Prog.can_ofExcept hnow (Prog.can_bind (nowUtc_can now ?_)))
  refine Prog.can_bind (Prog.can_ofExcept hnow (Prog.can_bind ?_))
  refine sql_can (s := .updateHealth id.val s health error text text) (congrArg Prod.fst hwrite) ?_
  rw [hwrite]
  refine Prog.can_mono ?_ (getMapping_can hnew hoid hm)
  rintro db' - ⟨rfl, -⟩
  exact ⟨hrefreshed, rfl⟩

/-! ## Commands -/

theorem liftStore_can {α : Type} {p : StoreProg α} {post : Db → α → Prop} (h : p.Can storeEnv w.db post) :
    (liftStore p).Can hostEnv w fun w' x => ∃ db', w' = { w with db := db' } ∧ post db' x := by
  refine Prog.can_mapErr (Prog.can_embed (T := HostSig) (F := hostEnv) (t := w)
    (fun w db => { w with db }) ?_ ?_ ?_ ?_ h)
  · exact fun _ => rfl
  · exact fun _ _ => rfl
  · exact fun _ _ _ => rfl
  · exact fun w o r db' hE => ⟨r, rfl, db', hE, rfl⟩

/-- A run of a store method on the host is one on its database. -/
theorem liftStore_run {α : Type} {p : StoreProg α} {tr : List (Event HostSig)} {x : Except ReconcileError α}
    (h : (liftStore p).Run hostEnv w tr w' x) : ∃ tr' db' y, p.Run storeEnv w.db tr' db' y ∧
      w' = { w with db := db' } ∧ x = y.mapError .core := by
  obtain ⟨y, rfl, hr⟩ := Prog.run_mapErr.1 h
  obtain ⟨tr', db', hp, rfl⟩ := Prog.run_embed (fun w db => { w with db }) (fun _ => rfl) (fun _ _ => rfl)
    (fun _ _ _ => rfl) (fun w o r w' hE => hE) hr
  exact ⟨tr', db', y, hp, rfl, rfl⟩

/-- What a command that does what it says prints. -/
def done (stdout : String) : Outcome := .exited ⟨some 0, stdout, ""⟩

theorem commanded_done {able : Prop} {stdout : String} (h : able) : Commanded able w w' (done stdout) w' :=
  ⟨fun _ => ⟨h, rfl⟩, fun hr => absurd hr.2 (by simp [CommandOutput.isSuccess]), .inr ⟨h, rfl⟩⟩

theorem runIp_can {command : IpCommand} (stdout : String) {post : World → CommandOutput → Prop}
    (hE : hostEnv w (.ip command) (done stdout) w') (h : post w' ⟨some 0, stdout, ""⟩) :
    (runIp command).Can hostEnv w post :=
  Prog.can_call (S := HostSig) (r := done stdout) hE (Prog.can_ret h)

theorem interfaceAddresses_can :
    (interfaceAddresses wan).Can hostEnv w fun w' existing =>
      w' = w ∧ ∀ a, a ∈ existing ↔ (w.addrs wan).Has a := by
  refine Prog.can_bind (runIp_can (w.addrs wan).listing ?_ (Prog.can_ret ⟨rfl, fun a => ?_⟩))
  · refine ⟨rfl, fun output h _ => ?_⟩
    cases h
    exact lists_listing _
  · exact mem_parse_of_lists (lists_listing _)

theorem ensureAddr_can : (ensureAddr wan a).Can hostEnv w fun w' _ =>
    w' = if (w.addrs wan).Has a then w else w.addAddr wan a := by
  refine Prog.can_bind (Prog.can_mono ?_ interfaceAddresses_can)
  rintro w₁ existing ⟨rfl, hmem⟩
  split
  · rename_i hin
    exact Prog.can_ret (if_pos ((hmem a).1 hin)).symm
  · rename_i hout
    have hno := mt (hmem a).2 hout
    refine Prog.can_bind (runIp_can "" ?_ (Prog.can_ret (if_neg hno).symm))
    exact commanded_done fun h => hno (has_of_host h)

/-- The interface has no address of the list in another form than the one the controller adds. -/
def Plain (t : AddrTable) (ms : List Mapping) : Prop :=
  ∀ m ∈ ms, ∀ entry ∈ t.entries, entry.addr = m.edgePrivateIp → entry = .host m.edgePrivateIp

theorem deleteAddrIfPresent_can (hplain : ∀ entry ∈ (w.addrs wan).entries, entry.addr = a → entry = .host a) :
    (deleteAddrIfPresent wan a).Can hostEnv w fun w' _ =>
      w' = if (w.addrs wan).Has a then w.delAddr wan a else w := by
  refine Prog.can_bind (Prog.can_mono ?_ interfaceAddresses_can)
  rintro w₁ existing ⟨rfl, hmem⟩
  split
  · rename_i hout
    exact Prog.can_ret (if_neg (mt (hmem a).2 hout)).symm
  · rename_i hin
    have hhas := (hmem a).1 (not_not.1 hin)
    refine Prog.can_bind (runIp_can "" ?_ (Prog.can_ret (if_pos hhas).symm))
    obtain ⟨entry, hentry, haddr⟩ := hhas
    exact commanded_done (hplain entry hentry haddr ▸ hentry)

theorem mem_syncEntry {entry : InetAddr} (h : entry ∈ (syncEntry m t).entries) :
    entry ∈ t.entries ∨ entry = .host m.edgePrivateIp := by
  unfold syncEntry at h
  split at h
  · split at h
    · exact .inl h
    · exact AddrTable.mem_add.1 h
  split at h
  · split at h
    · exact .inl (AddrTable.mem_del.1 h).1
    · exact .inl h
  · exact .inl h

theorem Plain.syncEntry (h : Plain t ms) : Plain (syncEntry m t) ms := by
  intro m' hm' entry hentry haddr
  rcases mem_syncEntry hentry with hmem | rfl
  · exact h m' hm' entry hmem haddr
  · exact congrArg InetAddr.host haddr

theorem Plain.syncTable {ms' : List Mapping} (h : Plain t ms) : Plain (syncTable ms' t) ms := by
  induction ms' generalizing t with
  | nil => exact h
  | cons m ms' ih => exact ih h.syncEntry

/-- **The loop can go through.** -/
theorem syncAddresses_can (h : Plain (w.addrs wan) ms) :
    (syncAddresses wan ms).Can hostEnv w fun w' _ => w' = w.setAddrs wan (syncTable ms (w.addrs wan)) := by
  suffices hcan : (syncAddresses wan ms).Can hostEnv w fun _ _ => True by
    obtain ⟨tr, w', changes, hr, -⟩ := hcan
    exact ⟨tr, w', changes, hr, syncAddresses_ok hr⟩
  induction ms generalizing w with
  | nil => exact Prog.can_ret trivial
  | cons m ms ih =>
    have hrest : ∀ {w' : World}, Plain (w'.addrs wan) (m :: ms) →
        (syncAddresses wan ms).Can hostEnv w' fun _ _ => True :=
      fun h' => ih fun m' hm' => h' m' (List.mem_cons_of_mem _ hm')
    unfold syncAddresses
    split
    · rename_i hwants
      refine Prog.can_bind (Prog.can_mono ?_ ensureAddr_can)
      rintro w₁ changed hw₁
      have haddrs : w₁.addrs wan = syncEntry m (w.addrs wan) := by
        rw [hw₁, syncEntry, if_pos (show Wants m from hwants)]
        split <;> simp [World.addAddr]
      exact Prog.can_bind (Prog.can_mono (fun _ _ _ => Prog.can_ret trivial) (hrest (haddrs ▸ h.syncEntry)))
    rename_i hwants
    split
    · rename_i hb
      refine Prog.can_bind (Prog.can_mono ?_ (deleteAddrIfPresent_can (h m List.mem_cons_self)))
      rintro w₁ changed hw₁
      have haddrs : w₁.addrs wan = syncEntry m (w.addrs wan) := by
        rw [hw₁, syncEntry, if_neg (show ¬ Wants m from hwants), if_pos ((not_wants_iff hb).1 hwants)]
        split <;> simp [World.delAddr]
      exact Prog.can_bind (Prog.can_mono (fun _ _ _ => Prog.can_ret trivial) (hrest (haddrs ▸ h.syncEntry)))
    · exact hrest h

theorem writeRuleset_can : (writeRuleset C path text).Can hostEnv w fun w' _ => w' = w.write path text :=
  Prog.can_call (S := HostSig) (r := .ok ()) (.inl ⟨rfl, rfl⟩) (Prog.can_ret rfl)

theorem runNft_can (mode : NftMode) {post : World → CommandOutput → Prop}
    (hE : hostEnv w (.nft mode path) (done "") w') (h : post w' ⟨some 0, "", ""⟩) :
    (runNft mode path).Can hostEnv w post :=
  Prog.can_call (S := HostSig) (r := done "") hE (Prog.can_ret h)

theorem checkRuleset_can (hclock : Clock C) (htext : Text.trim text ≠ "") (hfile : w.files path ≠ none) :
    (checkRuleset C path text).Can hostEnv w fun w' _ =>
      ∃ db', w' = { w with db := db' } ∧ SameMappings w.db db' := by
  refine Prog.can_bind (runNft_can .check ⟨rfl, fun _ => hfile⟩ ?_)
  rw [if_pos (show CommandOutput.isSuccess ⟨some 0, "", ""⟩ = true from rfl)]
  refine Prog.can_bind (Prog.can_mono ?_ (liftStore_can (recordGeneration_can hclock htext ⟨none, rfl⟩)))
  rintro w₁ generation ⟨db', rfl, hdb, -⟩
  exact Prog.can_ret ⟨db', rfl, hdb⟩

theorem applyRuleset_can (hfile : w.files path ≠ none) :
    (applyRuleset C path text).Can hostEnv w fun w' _ => w' = w.load path :=
  Prog.can_bind (runNft_can .apply (commanded_done hfile) (Prog.can_ret rfl))

/-! ## Health -/

/-- The host but for its database. -/
structure SameHost (w w' : World) : Prop where
  files : w'.files = w.files
  kernel : w'.kernel = w.kernel
  addrs : w'.addrs = w.addrs

theorem healthCheck_can {ip : Ipv4Addr} {port : Option UInt16} {protocol : Protocol} :
    (healthCheck ip port protocol).Can hostEnv w fun w' _ => w' = w := by
  unfold healthCheck
  split
  · exact Prog.can_ret rfl
  cases port with
  | none => exact Prog.can_ret rfl
  | some port => exact Prog.can_call (S := HostSig) (r := .connected) rfl (Prog.can_ret rfl)

/-- The health of mappings whose rows are there can be written. -/
theorem recordHealths_can (hclock : Clock C) (hdec : Decodes C w.db.mappings)
    (hids : ∀ m ∈ ms, m.id.val ∈ w.db.mappings.rows.map Row.id) :
    (recordHealths C ms).Can hostEnv w fun w' _ => SameHost w w' ∧
      Refreshed C w.db.mappings w'.db.mappings ∧ w'.db.config = w.db.config := by
  induction ms generalizing w with
  | nil => exact Prog.can_ret ⟨⟨rfl, rfl, rfl⟩, .refl _, rfl⟩
  | cons m ms ih =>
    rw [List.forall_mem_cons] at hids
    refine Prog.can_bind (Prog.can_bind (Prog.can_mono ?_ (Prog.can_attempt healthCheck_can)))
    rintro w₁ x ⟨status, rfl, rfl⟩
    refine Prog.can_bind (Prog.can_mono ?_ (liftStore_can (setMappingHealth_can hclock hdec hids.1)))
    rintro w₂ m' ⟨db', rfl, hrefreshed, hconfig⟩
    refine Prog.can_ret (Prog.can_mono ?_ (ih (w := { w₁ with db := db' }) (hdec.refreshed hrefreshed)
      fun m hm => mem_ids_refreshed hrefreshed (hids.2 m hm)))
    rintro w₃ - ⟨hhost, hrefreshed', hconfig'⟩
    exact ⟨⟨hhost.files, hhost.kernel, hhost.addrs⟩, hrefreshed.trans hrefreshed', hconfig'.trans hconfig⟩

/-! ## Reconcile -/

/-- **A rendered text is not blank.** -/
theorem trim_rendered {rc : NftRenderConfig} (h : renderNftables ms config rc = .ok text) : Text.trim text ≠ "" := by
  obtain ⟨rest, hrest⟩ : ∃ rest, text = "destroy" ++ rest := by
    unfold renderNftables at h
    split at h
    · cases h
    simp only [renderRuleset, except_bind_ok] at h
    obtain ⟨rules, -, h⟩ := h
    have hword : "destroy table ip " = "destroy" ++ " table ip " := by decide
    have htext := Except.ok.inj h
    unfold renderHead at htext
    rw [hword] at htext
    simp only [String.append_assoc] at htext
    exact Exists.intro _ htext.symm
  have htrim : Text.trimChars text.toList = "destroy".toList ++ rest.toList.rdropWhile Text.isWhite := by
    rw [hrest, String.toList_append]
    have hnone : ∀ c ∈ ([] : List Char), Text.isWhite c = true := by simp
    have hlast : "destroy".toList.getLast? = some 'y' := by decide
    exact Text.trimChars_append hnone (a := 'd') rfl (by decide) hlast (by decide)
  intro hblank
  have hnil : Text.trimChars text.toList = [] := by
    rw [← String.toList_ofList (l := Text.trimChars text.toList)]
    exact congrArg String.toList hblank
  rw [htrim] at hnil
  exact absurd (List.append_eq_nil_iff.1 hnil).1 (by decide)

/-- What a reconcile that goes through makes of the host. -/
structure Reconciled (C : Codec) (config : EdgeConfig) (options : ReconcileOptions) (ms : List Mapping)
    (text : String) (w w' : World) : Prop where
  kernel : w'.kernel = if options.applyNft then some text else w.kernel
  addrs : w'.addrs = if options.applyLinux then
    (w.setAddrs config.wanInterface (syncTable ms (w.addrs config.wanInterface))).addrs else w.addrs
  mappings : Refreshed C w.db.mappings w'.db.mappings
  config : w'.db.config = w.db.config

theorem applyStep_can (hfile : w.files options.nftOutput = some text) :
    (applyStep C options text).Can hostEnv w fun w' _ =>
      w' = { w with kernel := if options.applyNft then some text else w.kernel } := by
  unfold applyStep
  split
  · refine Prog.can_mono ?_ (applyRuleset_can (by simp [hfile]))
    rintro w' - rfl
    rw [World.load, hfile]
  · exact Prog.can_ret rfl

theorem addressStep_can (hplain : options.applyLinux = true → Plain (w.addrs config.wanInterface) ms) :
    (addressStep config options ms).Can hostEnv w fun w' _ => w' = { w with
      addrs := if options.applyLinux then
        (w.setAddrs config.wanInterface (syncTable ms (w.addrs config.wanInterface))).addrs else w.addrs } := by
  unfold addressStep
  split
  · rename_i h
    exact syncAddresses_can (hplain h)
  · exact Prog.can_ret rfl

theorem recordStep_can {generation : Generation} (hclock : Clock C) (htext : Text.trim text ≠ "")
    (hdec : Decodes C w.db.mappings) (hids : ∀ m ∈ ms, m.id.val ∈ w.db.mappings.rows.map Row.id) :
    (recordStep C options ms text generation).Can hostEnv w fun w' _ => SameHost w w' ∧
      Refreshed C w.db.mappings w'.db.mappings ∧ w'.db.config = w.db.config := by
  have hevent : ∀ level message data (w : World), Text.trim message ≠ "" →
      (liftStore (recordEvent C level message data)).Can hostEnv w fun w' _ =>
        ∃ db', w' = { w with db := db' } ∧ SameMappings w.db db' :=
    fun _ _ _ _ hmessage => liftStore_can (recordEvent_can hclock hmessage)
  unfold recordStep
  split
  · obtain ⟨now, nowText, hnow⟩ := hclock
    have happlied : ∃ s, transposeMap C.formatTime (some now) = .ok s := ⟨some nowText, by
      simp [transposeMap, hnow, Except.map]⟩
    have hnowUtc : (liftStore nowUtc).Can hostEnv w fun w' t => ∃ db', w' = { w with db := db' } ∧
        db' = w.db ∧ t = now := liftStore_can (nowUtc_can now ⟨rfl, rfl⟩)
    refine Prog.can_bind (Prog.can_mono ?_ hnowUtc)
    rintro w₁ t ⟨db', rfl, rfl, rfl⟩
    refine Prog.can_bind (Prog.can_mono ?_ (liftStore_can (recordGeneration_can ⟨t, nowText, hnow⟩ htext happlied)))
    rintro w₂ active ⟨db', rfl, hdb, -⟩
    refine Prog.can_bind (Prog.can_mono ?_ (recordHealths_can ⟨t, nowText, hnow⟩
      (show Decodes C db'.mappings from hdb.mappings ▸ hdec) fun m hm => ?_))
    · rintro w₃ - ⟨hhost, hrefreshed, hconfig⟩
      refine Prog.can_bind (Prog.can_mono ?_ (hevent _ _ _ _ (by decide)))
      rintro w₄ - ⟨db'', rfl, hdb'⟩
      refine Prog.can_ret ⟨⟨hhost.files, hhost.kernel, hhost.addrs⟩, ?_, ?_⟩
      · rw [hdb'.mappings, ← hdb.mappings]
        exact hrefreshed
      · rw [hdb'.config, ← hdb.config]
        exact hconfig
    · rw [show ({ w with db := db' } : World).db.mappings = w.db.mappings from hdb.mappings]
      exact hids m (List.mem_filter.1 hm).1
  · refine Prog.can_bind (Prog.can_mono ?_ (hevent _ _ _ _ (by decide)))
    rintro w₁ - ⟨db', rfl, hdb⟩
    exact Prog.can_ret ⟨⟨rfl, rfl, rfl⟩, hdb.mappings ▸ .refl _, hdb.config⟩

/-- **A ruleset can be applied**, whatever listing it was rendered from. -/
theorem applyReconcile_can {plan : XdpPlan} (hclock : Clock C) (htext : Text.trim text ≠ "")
    (hdec : Decodes C w.db.mappings) (hids : ∀ m ∈ ms, m.id.val ∈ w.db.mappings.rows.map Row.id)
    (hplain : options.applyLinux = true → Plain (w.addrs config.wanInterface) ms) :
    (applyReconcile C config options ms text plan).Can hostEnv w fun w' _ =>
      Reconciled C config options ms text w w' := by
  refine Prog.can_bind (Prog.can_mono ?_ (liftStore_can (recordGeneration_can hclock htext ⟨none, rfl⟩)))
  rintro w₁ generation ⟨db₁, rfl, hdb₁, -⟩
  refine Prog.can_bind (Prog.can_mono ?_ writeRuleset_can)
  rintro w₂ - rfl
  refine Prog.can_bind (Prog.can_mono ?_ (checkRuleset_can hclock htext (by simp [World.write])))
  rintro w₃ - ⟨db₃, rfl, hdb₃⟩
  refine Prog.can_bind (Prog.can_mono ?_ (applyStep_can (by simp [World.write])))
  rintro w₄ - rfl
  refine Prog.can_bind (Prog.can_mono ?_ (addressStep_can hplain))
  rintro w₅ changes rfl
  have hmappings : db₃.mappings = w.db.mappings := hdb₃.mappings.trans hdb₁.mappings
  refine Prog.can_bind (Prog.can_mono ?_ (recordStep_can hclock htext
    (show Decodes C db₃.mappings from hmappings ▸ hdec) fun m hm => ?_))
  · rintro w₆ id ⟨hhost, hrefreshed, hconfig⟩
    refine Prog.can_ret ⟨hhost.kernel, hhost.addrs, hmappings ▸ hrefreshed, ?_⟩
    exact hconfig.trans (hdb₃.config.trans hdb₁.config)
  · rw [show (World.db _).mappings = w.db.mappings from hmappings]
    exact hids m hm

theorem listMappings_can (hd : decodeRows C w.db.listed = .ok ms) :
    (liftStore (listMappings C)).Can hostEnv w fun w' ms' => w' = w ∧ ms' = ms := by
  have hcan : (listMappings C).Can storeEnv w.db fun db ms' => db = w.db ∧ ms' = ms :=
    Prog.can_bind (sql_can (s := .selectMappings) rfl (Prog.can_ofExcept hd ⟨rfl, rfl⟩))
  refine Prog.can_mono ?_ (liftStore_can hcan)
  rintro w' ms' ⟨db', rfl, rfl, rfl⟩
  exact ⟨rfl, rfl⟩

theorem decodes_of_listed {db : Db} (hd : decodeRows C db.listed = .ok ms) : Decodes C db.mappings := by
  have hrows : ∀ {rows : List Row} {ms : List Mapping}, decodeRows C rows = .ok ms →
      ∀ row ∈ rows, ∃ m, C.rowToMapping row = .ok m := by
    intro rows
    induction rows with
    | nil => simp
    | cons row rows ih =>
      intro ms h
      obtain ⟨m, hm, h⟩ := except_bind_ok.1 h
      obtain ⟨rest, hrest, -⟩ := except_bind_ok.1 h
      exact List.forall_mem_cons.2 ⟨⟨m, hm⟩, ih hrest⟩
  exact fun row hrow => hrows hd row ((List.mem_insertionSort _).2 hrow)

/-- **Reconcile can go through** where the rows decode, the plan has no XDP entries and no address is on the
interface in a form of its own. -/
theorem reconcile_can {plan : String × XdpPlan} (hclock : Clock C) (hdry : options.dryRun = false)
    (hd : decodeRows C w.db.listed = .ok ms) (hp : planReconcile config options ms = .ok plan)
    (hempty : plan.2.entries = []) (hids : ∀ m ∈ ms, m.id.val ∈ w.db.mappings.rows.map Row.id)
    (hplain : options.applyLinux = true → Plain (w.addrs config.wanInterface) ms) :
    (reconcile C config options).Can hostEnv w fun w' _ => Reconciled C config options ms plan.1 w w' := by
  have htext := trim_rendered (rendering_of_plan hd hp).1
  refine Prog.can_bind (Prog.can_mono ?_ (listMappings_can hd))
  rintro w₁ ms₁ ⟨rfl, rfl⟩
  refine Prog.can_bind (Prog.can_ofExcept hp ?_)
  rw [if_neg (by simp [hdry]), if_neg (by simp [hempty])]
  exact applyReconcile_can hclock htext (decodes_of_listed hd) hids hplain

theorem planReconcile_ok (options : ReconcileOptions) (hv : validateMappings ms config = .ok ())
    (hnft : ∀ m ∈ ms, isXdp m = false)
    (hxdp : options.xdp.enabled = false) :
    ∃ plan, planReconcile config options ms = .ok plan ∧ plan.2.entries = [] := by
  obtain ⟨text, htext⟩ := renderNftables_ok {} hv
  have hfilter : ms.filter isXdp = [] := List.filter_eq_nil_iff.2 fun m hm => by simp [hnft m hm]
  refine ⟨(text, ⟨options.xdp.interface, options.xdp.pinPath, options.xdp.attachMode, []⟩), ?_, rfl⟩
  simp [planReconcile, htext, XdpConfig.plan, XdpConfig.validate, hxdp, hfilter, planEntries, rejectIf,
    Except.mapError, bind, Except.bind]

/-- The listing of the database, if it is one that a reconcile under the sample config can apply. -/
def sampleListing (db : Db) : Option (List Mapping) :=
  match decodeRows sampleCodec db.listed with
  | .ok ms =>
    if validateMappings ms sampleConfig = .ok () ∧ (∀ m ∈ ms, isXdp m = false) ∧
        ∀ m ∈ ms, m.id.val ∈ db.mappings.rows.map Row.id then some ms else none
  | .error _ => none

theorem sampleListing_some (h : sampleListing w.db = some ms) : decodeRows sampleCodec w.db.listed = .ok ms ∧
    validateMappings ms sampleConfig = .ok () ∧ (∀ m ∈ ms, isXdp m = false) ∧
      ∀ m ∈ ms, m.id.val ∈ w.db.mappings.rows.map Row.id := by
  unfold sampleListing at h
  split at h
  · rename_i ms' hd
    split at h
    · rename_i hall
      cases h
      exact ⟨hd, hall⟩
    · cases h
  · cases h

theorem sampleClock : Clock sampleCodec := ⟨sampleTime, _, rfl⟩

/-- A reconcile of a sample listing can go through. -/
theorem sample_can (options : ReconcileOptions) (h : sampleListing w.db = some ms) (hdry : options.dryRun = false)
    (hxdp : options.xdp.enabled = false)
    (hplain : options.applyLinux = true → Plain (w.addrs sampleConfig.wanInterface) ms) :
    ∃ text, renderNftables ms sampleConfig {} = .ok text ∧
      (reconcile sampleCodec sampleConfig options).Can hostEnv w fun w' _ =>
        Reconciled sampleCodec sampleConfig options ms text w w' := by
  obtain ⟨hd, hv, hnft, hids⟩ := sampleListing_some h
  obtain ⟨plan, hp, hempty⟩ := planReconcile_ok options hv hnft hxdp
  exact ⟨plan.1, (rendering_of_plan hd hp).1, reconcile_can sampleClock hdry hd hp hempty hids hplain⟩

end EdgeRoute
