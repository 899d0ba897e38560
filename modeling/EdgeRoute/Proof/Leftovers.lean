import EdgeRoute.Proof.Agreement
import EdgeRoute.Proof.Reads
import EdgeRoute.Proof.Release

/-!
# Addresses that stay behind

A reconcile takes an address off the interface only for a row that has it now.

* `Covered`: every address on the interface was there at the start or is that of a stored nft mapping; every call keeps
  that but an allocation, which gives a row another address (`covered_api`).
* `tidy_of_covered`: from there a full reconcile leaves the addresses of the enabled nft mappings only.
* `no_leftovers`: **so it is in every run whose allocations abandon no address**; `allocate_abandons`: one that does.
-/

namespace EdgeRoute

open Effect

variable {C : Codec} {J : OciJson} {N : String → Except String NetbirdStatus} {config : EdgeConfig}
  {headers : HeaderMap} {options : ReconcileOptions} {foreign : List InetAddr} {wan : String} {w w' : World}
  {v v' : AgentWorld} {a : Ipv4Addr} {m : Mapping} {ms : List Mapping} {row : Row} {db : Db} {ε α : Type}

/-! ## Rows and addresses -/

/-- The row is of the nft plane, and its address at the edge is `a`. -/
def Row.Places (row : Row) (a : Ipv4Addr) : Prop :=
  parseIp row.edgePrivateIp = .ok a ∧ enumFromString MappingBackend.names row.backend = .ok .nft

theorem places_iff (h : C.rowToMapping row = .ok m) : row.Places a ↔ m.edgePrivateIp = a ∧ m.backend = .nft := by
  have hc := rowToMapping_ok.1 h
  rw [Row.Places, hc.edgePrivateIp, hc.backend, Except.ok.injEq, Except.ok.injEq]

theorem places_of_bind {checked : Option String} {created updated : String}
    (h : Codec.bindMapping m checked created updated = .ok row) :
    row.Places a ↔ m.edgePrivateIp = a ∧ m.backend = .nft := by
  unfold Codec.bindMapping at h
  simp only [except_bind_ok] at h
  obtain ⟨protocol, -, mode, -, backend, hb, status, -, h⟩ := h
  cases h
  rw [Row.Places, parseIp_toText, enumFromString_enumString (by decide) hb, Except.ok.injEq, Except.ok.injEq]

/-- A stored row places the address. -/
def Placed (t : Sql.Table mappingsSchema) (a : Ipv4Addr) : Prop := ∃ row ∈ t.rows, row.Places a

theorem placed_set {t : Sql.Table mappingsSchema} {k : String} {f : Row → Row} {hf : ∀ row, (f row).id = row.id}
    (hkeep : ∀ old ∈ t.rows, old.id = k → old.Places a → (f old).Places a) (h : Placed t a) :
      Placed (t.set k f hf) a := by
  obtain ⟨row, hrow, hp⟩ := h
  by_cases hk : row.id = k
  · exact ⟨f row, Sql.Table.mem_set.2 (.inr ⟨row, hrow, hk, rfl⟩), hkeep row hrow hk hp⟩
  · exact ⟨row, Sql.Table.mem_set.2 (.inl ⟨hrow, hk⟩), hp⟩

theorem placed_refreshed {t t' : Sql.Table mappingsSchema} (hr : Refreshed C t t') (h : Placed t a) : Placed t' a := by
  obtain ⟨row, hrow, hp⟩ := h
  have hmem : row.core ∈ t'.rows.map Row.core := hr.core ▸ List.mem_map_of_mem hrow
  obtain ⟨row', hrow', hcore⟩ := List.mem_map.1 hmem
  have haddr : row'.edgePrivateIp = row.edgePrivateIp := congrArg (·.edgePrivateIp) hcore
  have hplane : row'.backend = row.backend := congrArg (·.backend) hcore
  exact ⟨row', hrow', by rw [Row.Places, haddr, hplane]; exact hp⟩

theorem mem_listed {db : Db} : row ∈ db.listed ↔ row ∈ db.mappings.rows := List.mem_insertionSort _

/-! ## The invariant -/

/-- **Every address on the interface was there at the start, or is that of a stored nft mapping.** -/
def Covered (foreign : List InetAddr) (wan : String) (w : World) : Prop :=
  ∀ a, .host a ∈ (w.addrs wan).entries → .host a ∈ foreign ∨ Placed w.db.mappings a

/-- An operation that adds no address and takes none from a row. -/
def KeepsPlaces : AgentOp → Prop
  | .host (.store (.sql (.updateMapping _))) | .host (.store (.sql (.deleteMapping _))) => False
  | .host (.ip (.add _ _)) => False
  | _ => True

theorem placed_step {db db' : Db} {o : StoreOp} {r : o.Reply} (ho : KeepsPlaces (.host (.store o)))
    (hE : storeEnv db o r db') (h : Placed db.mappings a) : Placed db'.mappings a := by
  cases storeEnv_step hE with
  | same _ ht => exact ht ▸ h
  | insert row _ _ ht =>
    obtain ⟨row', hrow, hp⟩ := h
    exact ⟨row', ht ▸ List.mem_append_left _ hrow, hp⟩
  | update => exact absurd ho id
  | enable id old enabled status updatedAt _ _ _ ht => exact ht ▸ placed_set (fun _ _ _ hp => hp) h
  | health id old status health error checked updated _ _ ht => exact ht ▸ placed_set (fun _ _ _ hp => hp) h
  | delete => exact absurd ho id

theorem covered_step {o : AgentOp} {r : o.Reply} (ho : KeepsPlaces o) (hE : agentEnv J v o r v')
    (h : Covered foreign wan v.host) : Covered foreign wan v'.host := by
  cases o with
  | host o =>
    obtain ⟨host, hE, rfl⟩ := hE
    cases o with
    | store o =>
      obtain ⟨db, hdb, rfl⟩ := hE
      intro a ha
      exact (h a ha).imp_right (placed_step ho hdb)
    | atomicWrite path text =>
      rcases hE with ⟨-, rfl⟩ | ⟨e, -, rfl⟩
      · exact h
      · exact h
    | nft mode path =>
      cases mode with
      | check => exact hE.1 ▸ h
      | apply =>
        rcases hE.either with rfl | ⟨-, rfl⟩
        · exact h
        · exact h
    | ip command =>
      cases command with
      | «show» interface => exact hE.1 ▸ h
      | add interface a => exact absurd ho id
      | del interface b =>
        rcases hE.either with rfl | ⟨-, rfl⟩
        · exact h
        · intro a ha
          refine h a ?_
          by_cases hi : wan = interface
          · subst hi
            simp only [World.delAddr, Function.update_self] at ha
            exact (AddrTable.mem_del.1 ha).1
          · simpa only [World.delAddr, setHost_host, Function.update_of_ne hi] using ha
    | connect ip port =>
      obtain rfl : host = v.host := hE
      exact h
  | oci command =>
    obtain ⟨cloud, -, rfl⟩ := hE
    exact h
  | selectEvents limit => exact hE.1 ▸ h
  | newId | netbirdStatus | routeGet | envVar => exact (show v' = v from hE) ▸ h

theorem sat_keepsPlaces {p : AgentProg ε α} (hp : p.Uses KeepsPlaces) (h : Covered foreign wan v.host) :
    p.Sat (agentEnv J) v fun v' _ => Covered foreign wan v'.host :=
  Prog.sat_of_uses (I := fun v : AgentWorld => Covered foreign wan v.host) hp
    (fun _ _ _ _ ho hE hI => covered_step ho hE hI) h

/-! ## A reconcile -/

/-- An operation that adds no address but the wanted ones. -/
def AddsWanted (ms : List Mapping) : HostOp → Prop
  | .ip (.add _ a) => ∃ m ∈ ms, Wants m ∧ m.edgePrivateIp = a
  | _ => True

theorem uses_ensureAddr {P : HostOp → Prop} (hshow : P (.ip (.show wan))) (hadd : P (.ip (.add wan a))) :
    (ensureAddr wan a).Uses P := by
  refine Prog.uses_bind (Prog.uses_bind (Prog.uses_call hshow fun _ => Prog.uses_ofExcept) fun _ => Prog.uses_ret)
    fun _ => ?_
  split
  · exact Prog.uses_ret
  · exact Prog.uses_bind (Prog.uses_call hadd fun _ => Prog.uses_ofExcept) fun _ => Prog.uses_ret

theorem uses_deleteAddrIfPresent {P : HostOp → Prop} (hshow : P (.ip (.show wan))) (hdel : P (.ip (.del wan a))) :
    (deleteAddrIfPresent wan a).Uses P := by
  refine Prog.uses_bind (Prog.uses_bind (Prog.uses_call hshow fun _ => Prog.uses_ofExcept) fun _ => Prog.uses_ret)
    fun _ => ?_
  split
  · exact Prog.uses_ret
  · exact Prog.uses_bind (Prog.uses_call hdel fun _ => Prog.uses_ofExcept) fun _ => Prog.uses_ret

theorem syncAddresses_adds {all : List Mapping} (hms : ∀ m ∈ ms, m ∈ all) :
    (syncAddresses wan ms).Uses (AddsWanted all) := by
  induction ms with
  | nil => exact Prog.uses_ret
  | cons m ms ih =>
    rw [List.forall_mem_cons] at hms
    unfold syncAddresses
    split
    · rename_i hwants
      refine Prog.uses_bind (uses_ensureAddr trivial ⟨m, hms.1, hwants, rfl⟩) fun _ => ?_
      exact Prog.uses_bind (ih hms.2) fun _ => Prog.uses_ret
    split
    · refine Prog.uses_bind (uses_deleteAddrIfPresent trivial trivial) fun _ => ?_
      exact Prog.uses_bind (ih hms.2) fun _ => Prog.uses_ret
    · exact ih hms.2

/-- What such an operation makes of the addresses of any interface. -/
theorem entries_step {o : HostOp} {r : o.Reply} (ho : AddsWanted ms o) (hE : hostEnv w o r w') {entry : InetAddr}
    (he : entry ∈ (w'.addrs wan).entries) :
    entry ∈ (w.addrs wan).entries ∨ ∃ m ∈ ms, Wants m ∧ entry = .host m.edgePrivateIp := by
  by_cases hip : IsIp o
  · cases o with
    | ip command =>
      cases command with
      | «show» interface => exact .inl (hE.1 ▸ he)
      | add interface a =>
        rcases hE.either with rfl | ⟨-, rfl⟩
        · exact .inl he
        by_cases hi : wan = interface
        · subst hi
          simp only [World.addAddr, Function.update_self] at he
          refine (AddrTable.mem_add.1 he).imp_right fun heq => ?_
          obtain ⟨m, hm, hw, ha⟩ := ho
          exact ⟨m, hm, hw, heq.trans (congrArg InetAddr.host ha.symm)⟩
        · simp only [World.addAddr, Function.update_of_ne hi] at he
          exact .inl he
      | del interface a =>
        rcases hE.either with rfl | ⟨-, rfl⟩
        · exact .inl he
        by_cases hi : wan = interface
        · subst hi
          simp only [World.delAddr, Function.update_self] at he
          exact .inl (AddrTable.mem_del.1 he).1
        · simp only [World.delAddr, Function.update_of_ne hi] at he
          exact .inl he
    | store | atomicWrite | nft | connect => exact absurd hip id
  · rw [addrs_of_not_isIp hip hE] at he
    exact .inl he

/-- **A reconcile adds no address but those of the enabled nft mappings**, whatever becomes of it. -/
theorem entries_of_reconcile {x : Except ReconcileError ReconcileReport} {tr : List (Event HostSig)}
    (h : (reconcile C config options).Run hostEnv w tr w' x) {entry : InetAddr} (he : entry ∈ (w'.addrs wan).entries) :
    entry ∈ (w.addrs wan).entries ∨ ∃ ms, decodeRows C w.db.listed = .ok ms ∧
      ∃ m ∈ ms, Wants m ∧ entry = .host m.edgePrivateIp := by
  rcases reconcile_cases h with ⟨hu, -⟩ | ⟨ms, plan, hd, -, ⟨-, hu⟩ | ⟨-, -, r, tr', rfl, hrun⟩⟩
  · exact .inl (hu.world ▸ he)
  · exact .inl (hu.world ▸ he)
  rcases addresses_of_applyReconcile hrun with ⟨-, haddrs, -⟩ | ⟨w₁, t₁, t₂, t₃, w₂, y, -, haddrs, hloop, hend, -⟩
  · exact .inl (haddrs ▸ he)
  rw [hend] at he
  rw [← haddrs]
  have huses : (addressStep config options ms).Uses (AddsWanted ms) := by
    unfold addressStep
    split
    · exact syncAddresses_adds fun _ hm => hm
    · exact Prog.uses_ret
  have hsat : (addressStep config options ms).Sat hostEnv w₁ fun w' _ => ∀ entry ∈ (w'.addrs wan).entries,
      entry ∈ (w₁.addrs wan).entries ∨ ∃ m ∈ ms, Wants m ∧ entry = .host m.edgePrivateIp := by
    refine Prog.sat_of_uses (I := fun w' : World => ∀ entry ∈ (w'.addrs wan).entries,
      entry ∈ (w₁.addrs wan).entries ∨ ∃ m ∈ ms, Wants m ∧ entry = .host m.edgePrivateIp) huses ?_ fun _ h => .inl h
    intro s o r s' ho hE hI entry he
    exact (entries_step ho hE he).elim (hI entry) .inr
  exact (hsat.of_run hloop entry he).imp_right fun hm => ⟨ms, hd, hm⟩

/-- A reconcile keeps the addresses covered. -/
theorem covered_reconcile {x : Except ReconcileError ReconcileReport} {tr : List (Event HostSig)}
    (h : (reconcile C config options).Run hostEnv w tr w' x) (hc : Covered foreign wan w) : Covered foreign wan w' := by
  have hrows := refreshed_of_reconcile h
  intro a ha
  rcases entries_of_reconcile h ha with hold | ⟨ms, hd, m, hm, hwants, heq⟩
  · exact (hc a hold).imp_right (placed_refreshed hrows)
  · obtain ⟨row, hrow, hdec⟩ := (mem_decoded hd).1 m hm
    refine .inr (placed_refreshed hrows ⟨row, mem_listed.1 hrow, (places_iff hdec).2 ⟨?_, hwants.2⟩⟩)
    exact (congrArg InetAddr.addr heq).symm

/-- **Every address on the interface was there at the start, or is that of an enabled nft mapping.** -/
def Tidy (C : Codec) (foreign : List InetAddr) (wan : String) (w : World) : Prop :=
  ∃ ms, decodeRows C w.db.listed = .ok ms ∧
    ∀ a, .host a ∈ (w.addrs wan).entries → .host a ∈ foreign ∨ ∃ m ∈ ms, Wants m ∧ m.edgePrivateIp = a

/-- **A full reconcile that returns leaves no address behind** of those that the rows account for. -/
theorem tidy_of_covered {report : ReconcileReport} {tr : List (Event HostSig)} (hfull : options.Full)
    (h : (reconcile C config options).Run hostEnv w tr w' (.ok report)) (hc : Covered foreign config.wanInterface w) :
    Tidy C foreign config.wanInterface w' := by
  obtain ⟨ms, plan, hd, -, -, haddrs⟩ := reconcile_ok hfull h
  obtain ⟨ms', hd', hcores⟩ := listed_refreshed (refreshed_of_reconcile h) hd
  refine ⟨ms', hd', fun a ha => ?_⟩
  rw [haddrs] at ha
  by_cases hwanted : ∃ m ∈ ms, Wants m ∧ m.edgePrivateIp = a
  · obtain ⟨m, hm, hw, hma⟩ := hwanted
    obtain ⟨m', hm', hcore⟩ := exists_of_cores hcores hm
    obtain ⟨hw', -, ha'⟩ := wants_core hcore
    exact .inr ⟨m', hm', hw'.2 hw, ha'.trans hma⟩
  have hno : ∀ m ∈ ms, Wants m → m.edgePrivateIp ≠ a := fun m hm hw hma => hwanted ⟨m, hm, hw, hma⟩
  -- nothing wants the address: it was there before the loop
  have hbefore : .host a ∈ (w.addrs config.wanInterface).entries := by
    by_contra hout
    exact absent_syncTable hno hout ha
  refine (hc a hbefore).imp_right fun hplaced => ?_
  obtain ⟨row, hrow, hp⟩ := hplaced
  obtain ⟨m, hm, hdec⟩ := (mem_decoded hd).2 row (mem_listed.2 hrow)
  obtain ⟨hma, hb⟩ := (places_iff hdec).1 hp
  -- and the row that has it is off, so the loop took it away
  have hunwants : Unwants m := (not_wants_iff hb).1 fun hw => hno m hm hw hma
  exact absurd ha (absent_of_unwants hno hm hunwants hma)

/-! ## Parts of calls -/

/-- The full UPDATE of the row of `m₀`: its address stays covered where the new mapping keeps it, or another row has
it. -/
theorem covered_updated {db : Db} {m₀ : Mapping} {cols old : Row} (hu : Updated C m w.db.mappings db.mappings cols old)
    (hold : StoredAs C w.db m.id m₀) (h : Covered foreign wan w)
    (hmove : .host m₀.edgePrivateIp ∈ (w.addrs wan).entries → m₀.backend = .nft → .host m₀.edgePrivateIp ∈ foreign ∨
      (m.edgePrivateIp = m₀.edgePrivateIp ∧ m.backend = .nft) ∨
      ∃ row ∈ w.db.mappings.rows, row.id ≠ m.id.val ∧ row.Places m₀.edgePrivateIp) :
    Covered foreign wan { w with db } := by
  obtain ⟨row₀, hrow₀, hid₀, hdec₀, -⟩ := hold
  have hcid : cols.id = m.id.val := (updateRow_columns hu.bound).1
  have hnew : (cols.replaced old) ∈ db.mappings.rows := by
    rw [hu.table]
    exact Sql.Table.mem_set.2 (.inr ⟨old, hu.mem, hu.id, rfl⟩)
  have hother : ∀ row ∈ w.db.mappings.rows, row.id ≠ m.id.val → row ∈ db.mappings.rows := by
    intro row hrow hne
    rw [hu.table]
    exact Sql.Table.mem_set.2 (.inl ⟨hrow, fun hk => hne (Eq.trans hk hcid)⟩)
  have hplaces : ∀ a, m.edgePrivateIp = a ∧ m.backend = .nft → (cols.replaced old).Places a := by
    intro a ha
    have hbound := hu.bound
    unfold Codec.updateRow at hbound
    simp only [except_bind_ok] at hbound
    obtain ⟨checked, -, updated, -, hbind⟩ := hbound
    exact (places_of_bind hbind).2 ha
  intro a ha
  rcases h a ha with hf | ⟨row, hrow, hp⟩
  · exact .inl hf
  by_cases hk : row.id = m.id.val
  · -- the row that is written: its old address is `a`
    have hdec : C.rowToMapping row = .ok m₀ := by
      rw [Sql.Table.eq_of_key_eq hrow hrow₀ (hk.trans hid₀.symm)]
      exact hdec₀
    obtain ⟨rfl, hb⟩ := (places_iff hdec).1 hp
    rcases hmove ha hb with hf | hkeep | ⟨row', hrow', hne, hp'⟩
    · exact .inl hf
    · exact .inr ⟨_, hnew, hplaces _ hkeep⟩
    · exact .inr ⟨row', hother row' hrow' hne, hp'⟩
  · exact .inr ⟨row, hother row hrow hk, hp⟩

theorem sat_host_of_oci {p : AgentProg ε α} (hp : p.Uses fun o => ∃ command, o = AgentOp.oci command) :
    p.Sat (agentEnv J) v fun v' _ => v'.host = v.host := by
  refine Prog.sat_of_uses (I := fun v' : AgentWorld => v'.host = v.host) hp ?_ rfl
  rintro v₁ o r v₂ ⟨command, rfl⟩ ⟨cloud, -, rfl⟩ hI
  exact hI

theorem sat_liftOci_host {p : Prog OciSig ε α} : (liftOci p).Sat (agentEnv J) v fun v' _ => v'.host = v.host :=
  sat_host_of_oci (liftOci_uses (Prog.uses_of_forall fun command => ⟨command, rfl⟩))

/-- The row of a mapping is written, or the store is as it was. -/
theorem covered_updateMapping (m₀ : Mapping) (hold : StoredAs C v.host.db m.id m₀) (h : Covered foreign wan v.host)
    (hmove : .host m₀.edgePrivateIp ∈ (v.host.addrs wan).entries → m₀.backend = .nft →
      .host m₀.edgePrivateIp ∈ foreign ∨
      (m.edgePrivateIp = m₀.edgePrivateIp ∧ m.backend = .nft) ∨
      ∃ row ∈ v.host.db.mappings.rows, row.id ≠ m.id.val ∧ row.Places m₀.edgePrivateIp) :
    (onStore (updateMapping C m)).Sat (agentEnv J) v fun v' _ => Covered foreign wan v'.host := by
  refine Prog.sat_mono ?_ (sat_onStore Refines.self.onHost (sat_updateMapping m))
  rintro v' x ⟨db, rfl, herror, hok⟩
  cases x with
  | ok u =>
    obtain ⟨cols, old, hu⟩ := hok rfl
    exact covered_updated hu hold h hmove
  | error e =>
    intro a ha
    have hrows : (v.setDb db).host.db.mappings = v.host.db.mappings := herror e rfl
    rw [hrows]
    exact h a ha

/-- The event that a handler records, come what may. -/
theorem covered_attemptEvent {level : EventLevel} {message : String} {data : Option String} {β : Type} {b : β}
    (h : Covered foreign wan v.host) :
    (((onStore (recordEvent C level message data)).attempt : AgentProg ε (Except EdgeCoreError EventRecord)).bind
      fun _ => .ret b).Sat (agentEnv J) v fun v' _ => Covered foreign wan v'.host := by
  refine sat_keepsPlaces (Prog.uses_bind (Prog.uses_attempt (onStore_uses ?_)) fun _ => Prog.uses_ret) h
  exact recordEvent_uses C trivial fun _ _ => trivial

/-! ## Calls -/

/-- **The allocation abandons no address**: that of the mapping is not on the interface, was there at the start, or is
that of another stored nft mapping. -/
def SparesAddress (C : Codec) (foreign : List InetAddr) (wan : String) (w : World) : ApiCall → Prop
  | .ociAllocate request => ∀ id m, MappingId.fromStr request.mappingId = .ok id → StoredAs C w.db id m →
      m.hasAllocation = false → m.backend = .nft → .host m.edgePrivateIp ∈ (w.addrs wan).entries →
      .host m.edgePrivateIp ∈ foreign ∨ ∃ row ∈ w.db.mappings.rows, row.id ≠ id.val ∧ row.Places m.edgePrivateIp
  | _ => True

theorem covered_ociAllocate {request : OciAllocateRequest} (h : Covered foreign wan v.host)
    (hspares : SparesAddress C foreign wan v.host (.ociAllocate request)) :
    (Api.ociAllocate C J config headers request).Sat (agentEnv J) v fun v' _ => Covered foreign wan v'.host := by
  refine Prog.sat_bind (Prog.sat_ofExcept ⟨fun _ _ => ?_, fun _ _ => h⟩)
  refine Prog.sat_bind (Prog.sat_ofExcept ⟨fun _ _ => ?_, fun _ _ => h⟩)
  refine Prog.sat_bind (Prog.sat_ofExcept ⟨fun id hid => ?_, fun _ _ => h⟩)
  refine Prog.sat_bind (Prog.sat_mono ?_ (sat_read Refines.self.onHost id))
  rintro v₁ x ⟨rfl, hx⟩
  refine ⟨fun m hm => ?_, fun _ _ => h⟩
  refine Prog.sat_bind (Prog.sat_ofExcept ⟨fun _ hno => ?_, fun _ _ => h⟩)
  refine Prog.sat_bind (Prog.sat_ofExcept ⟨fun _ _ => ?_, fun _ _ => h⟩)
  refine Prog.sat_bind (Prog.sat_ofExcept ⟨fun _ _ => ?_, fun _ _ => h⟩)
  refine Prog.sat_bind (Prog.sat_mapErr (Prog.sat_mono ?_ sat_liftOci_host))
  intro v₂ x hhost
  refine ⟨fun allocation _ => ?_, fun _ _ => hhost ▸ h⟩
  have hstored := hx m hm
  have hmid : m.id = id := hstored.choose_spec.2.2.2
  have hstore : (storeAllocation C (fun error _ _ => ApiFailure.ofCore error) m allocation).Sat (agentEnv J) v₂
      fun v' _ => Covered foreign wan v'.host := by
    refine Prog.sat_bind (Prog.sat_mono ?_ (sat_markStatus Refines.self.onHost _ _))
    rintro v₃ x ⟨rfl, now, rfl⟩
    refine ⟨fun m' hm' => ?_, fun _ h => nomatch h⟩
    obtain rfl := Except.ok.inj hm'
    refine Prog.sat_bind (Prog.sat_attempt (Prog.sat_mono ?_ (covered_updateMapping m ?_ (hhost ▸ h) ?_)))
    · intro v₄ x h₄
      refine ⟨fun y _ => ?_, fun _ h => nomatch h⟩
      cases y with
      | ok u => exact Prog.sat_ret h₄
      | error e =>
        refine sat_keepsPlaces (Prog.uses_bind (Prog.uses_attempt ?_) fun _ => Prog.uses_bind (Prog.uses_attempt ?_)
          fun _ => Prog.uses_fail) h₄
        · exact liftOci_uses (Prog.uses_of_forall fun _ => trivial)
        · exact liftOci_uses (Prog.uses_of_forall fun _ => trivial)
    · rw [hhost]
      exact hmid ▸ hstored
    · rw [hhost]
      intro ha hb
      refine (hspares id m (except_mapError_ok.1 hid) hstored (rejectIf_ok.1 hno) hb ha).imp_right fun hrow => .inr ?_
      exact hmid ▸ hrow
  refine Prog.sat_bind (Prog.sat_mono ?_ hstore)
  intro v₅ x h₅
  exact ⟨fun _ _ => covered_attemptEvent h₅, fun _ _ => h₅⟩

theorem covered_ociRelease {request : OciReleaseRequest} (h : Covered foreign wan v.host) :
    (Api.ociRelease C config headers request).Sat (agentEnv J) v fun v' _ => Covered foreign wan v'.host := by
  refine Prog.sat_bind (Prog.sat_ofExcept ⟨fun _ _ => ?_, fun _ _ => h⟩)
  refine Prog.sat_bind (Prog.sat_ofExcept ⟨fun _ _ => ?_, fun _ _ => h⟩)
  cases resolve request.mappingId none with
  | none =>
    refine Prog.sat_bind (Prog.sat_ofExcept ⟨fun _ _ => ?_, fun _ _ => h⟩)
    refine Prog.sat_bind (Prog.sat_mono ?_ (sat_deleteIps_host _ _))
    intro v₁ x hhost
    exact ⟨fun _ _ => Prog.sat_ret (hhost ▸ h), fun _ _ => hhost ▸ h⟩
  | some id =>
    refine Prog.sat_bind (Prog.sat_ofExcept ⟨fun id _ => ?_, fun _ _ => h⟩)
    refine Prog.sat_bind (Prog.sat_mono ?_ (sat_read Refines.self.onHost id))
    rintro v₁ x ⟨rfl, hx⟩
    refine ⟨fun m hm => ?_, fun _ _ => h⟩
    refine Prog.sat_bind (Prog.sat_ofExcept ⟨fun _ _ => ?_, fun _ _ => h⟩)
    refine Prog.sat_bind (Prog.sat_mono ?_ (sat_deleteIps_host _ _))
    intro v₂ x hhost
    refine ⟨fun _ _ => ?_, fun _ _ => hhost ▸ h⟩
    refine Prog.sat_bind (Prog.sat_mono ?_ (sat_markStatus Refines.self.onHost _ _))
    rintro v₃ x ⟨rfl, now, rfl⟩
    refine ⟨fun m' hm' => ?_, fun _ h => nomatch h⟩
    obtain rfl := Except.ok.inj hm'
    have hstored := hx m hm
    have hmid : m.id = id := hstored.choose_spec.2.2.2
    refine Prog.sat_bind (Prog.sat_mapErr (Prog.sat_mono ?_ (covered_updateMapping m ?_ (hhost ▸ h) ?_)))
    · intro v₄ x h₄
      exact ⟨fun _ _ => covered_attemptEvent h₄, fun _ _ => h₄⟩
    · rw [hhost]
      exact hmid ▸ hstored
    · exact fun _ hb => .inr (.inl ⟨rfl, hb⟩)

/-- `set_mapping_enabled` that returns: the row of the id has the flag. -/
theorem sat_setMappingEnabled (id : MappingId) (enabled : Bool) : (setMappingEnabled C id enabled).Sat storeEnv db
    fun db' x => ∀ m, x = .ok m → ∀ row ∈ db'.mappings.rows, row.id = id.val →
      row.enabled = if enabled then 1 else 0 := by
  refine Prog.sat_bind (Prog.sat_ofExcept ⟨fun status _ => ?_, fun _ _ _ h => nomatch h⟩)
  refine Prog.sat_bind (sat_nowUtc fun now => ⟨fun _ _ => ?_, fun _ _ _ h => nomatch h⟩)
  refine Prog.sat_bind (Prog.sat_ofExcept ⟨fun updatedAt _ => ?_, fun _ _ _ h => nomatch h⟩)
  refine Prog.sat_bind (sat_sql fun r db₁ hE => ⟨fun n hn => ?_, fun _ _ _ h => nomatch h⟩)
  refine Prog.sat_mono ?_ (sat_getMapping id)
  rintro db₂ x rfl m -
  rcases hE with hE | ⟨message, rfl, -⟩
  · rw [Db.exec_updateEnabled] at hE
    rcases updateMappings_cases db id.val (Row.withEnabled_id enabled status updatedAt) true with
      ⟨e, hu⟩ | ⟨hnone, hu⟩ | ⟨old, ho, hu⟩
    · rw [hu] at hE
      cases hE
      cases hn
    · rw [hu] at hE
      cases hE
      intro row hrow hid
      rw [Sql.Table.find_of_mem hrow hid] at hnone
      cases hnone
    · rw [hu] at hE
      cases hE
      intro row hrow hid
      have hset : row ∈ (db.mappings.set id.val (Row.withEnabled enabled status updatedAt)
        (Row.withEnabled_id enabled status updatedAt)).rows := hrow
      rcases Sql.Table.mem_set.1 hset with ⟨-, hne⟩ | ⟨old', -, -, rfl⟩
      · exact absurd hid hne
      · rfl
  · cases hn

/-- A reconcile in a front end. -/
theorem sat_reconcile (h : Covered foreign wan v.host) :
    (liftHost (reconcile C config options)).Sat (agentEnv J) v fun v' x => Covered foreign wan v'.host ∧
      Refreshed C v.host.db.mappings v'.host.db.mappings ∧
      (options.Full → wan = config.wanInterface → ∀ report, x = .ok report → Tidy C foreign wan v'.host) := by
  refine Prog.sat_iff.2 fun tr v' x hr => ?_
  obtain ⟨tr', host, hrun, rfl⟩ := liftHost_run Refines.self.onHost hr
  refine ⟨covered_reconcile hrun h, refreshed_of_reconcile hrun, ?_⟩
  rintro hfull rfl report rfl
  exact tidy_of_covered hfull hrun h

/-- **The delete of the API**: its reconcile has left no address of the row that goes. -/
theorem covered_apiDelete {id : String} (h : Covered foreign config.wanInterface v.host) :
    (Api.deleteMapping C config headers id).Sat (agentEnv J) v fun v' _ =>
      Covered foreign config.wanInterface v'.host := by
  refine Prog.sat_bind (Prog.sat_ofExcept ⟨fun _ _ => ?_, fun _ _ => h⟩)
  refine Prog.sat_bind (Prog.sat_ofExcept ⟨fun id _ => ?_, fun _ _ => h⟩)
  have hkeep : (onStore (setMappingEnabled C id false)).Sat (agentEnv J) v fun v' _ =>
      Covered foreign config.wanInterface v'.host :=
    sat_keepsPlaces (onStore_uses (setMappingEnabled_uses C trivial trivial fun _ _ _ => trivial)) h
  refine Prog.sat_bind (Prog.sat_mapErr (Prog.sat_mono ?_
    (Prog.sat_and hkeep (sat_onStore Refines.self.onHost (sat_setMappingEnabled id false)))))
  rintro v₁ x ⟨h₁, db₁, rfl, hoff⟩
  cases x with
  | error e => exact ⟨fun _ h => (nomatch h), fun _ _ => h₁⟩
  | ok m =>
  refine ⟨fun _ _ => ?_, fun _ h => nomatch h⟩
  refine Prog.sat_bind (Prog.sat_attempt (Prog.sat_mono ?_ (sat_reconcile h₁)))
  rintro v₂ y ⟨h₂, hrefreshed, htidy⟩
  refine ⟨fun z hz => ?_, fun _ h => nomatch h⟩
  obtain rfl := Except.ok.inj hz
  cases y with
  | error e =>
    exact sat_keepsPlaces (Prog.uses_bind (apiStore_uses (recordEvent_uses C trivial fun _ _ => trivial))
      fun _ => Prog.uses_fail) h₂
  | ok report =>
    obtain ⟨ms, hd, htidy⟩ := htidy ⟨rfl, rfl, rfl⟩ rfl report rfl
    -- the row of the id is off, so no address that is left is only its
    have hrest : Covered foreign config.wanInterface
        { v₂.host with db := { v₂.host.db with mappings := v₂.host.db.mappings.delete id.val } } := by
      intro a ha
      refine (htidy a ha).imp_right fun hm => ?_
      obtain ⟨m', hm', hwants, hma⟩ := hm
      obtain ⟨row, hrow, hdec⟩ := (mem_decoded hd).1 m' hm'
      refine ⟨row, Sql.Table.mem_others.2 ⟨mem_listed.1 hrow, fun hk => ?_⟩, (places_iff hdec).2 ⟨hma, hwants.2⟩⟩
      have hon : (row.enabled != 0) = true := (rowToMapping_ok.1 hdec).enabled.trans hwants.1
      have hmem : row.core ∈ (v.setDb db₁).host.db.mappings.rows.map Row.core :=
        hrefreshed.core ▸ List.mem_map_of_mem (mem_listed.1 hrow)
      obtain ⟨row', hrow', hcore⟩ := List.mem_map.1 hmem
      have hid : row'.id = row.id := congrArg (·.id) hcore
      have henabled : row'.enabled = row.enabled := congrArg (·.enabled) hcore
      have hzero : row'.enabled = 0 := hoff m rfl row' hrow' (hid.trans hk)
      rw [← henabled, hzero] at hon
      cases hon
    refine Prog.sat_bind (Prog.sat_mapErr (Prog.sat_mono ?_ (sat_onStore Refines.self.onHost (sat_deleteMapping id))))
    rintro v₃ x ⟨db₃, rfl, herror, hok⟩
    have h₃ : Covered foreign config.wanInterface (v₂.setDb db₃).host := by
      cases x with
      | error e =>
        intro a ha
        have hrows : (v₂.setDb db₃).host.db.mappings = v₂.host.db.mappings := herror e rfl
        rw [hrows]
        exact h₂ a ha
      | ok deleted =>
        intro a ha
        have hrows : (v₂.setDb db₃).host.db.mappings = v₂.host.db.mappings.delete id.val := (hok deleted rfl).2
        rw [hrows]
        exact hrest a ha
    exact ⟨fun _ _ => Prog.sat_ret h₃, fun _ _ => h₃⟩

/-- **Every request keeps the addresses covered**, but for an allocation that abandons one. -/
theorem covered_api (call : ApiCall) (h : Covered foreign config.wanInterface v.host)
    (hspares : SparesAddress C foreign config.wanInterface v.host call) :
    (call.prog C J N config headers).Sat (agentEnv J) v fun v' _ => Covered foreign config.wanInterface v'.host := by
  have hcheck : ∀ {β : Type} {x : Except ApiFailure β}, (Api.check x).Uses KeepsPlaces := Prog.uses_ofExcept
  have hread : ∀ call : ApiCall, call.IsRead → (call.prog C J N config headers).Sat (agentEnv J) v fun v' _ =>
      Covered foreign config.wanInterface v'.host := by
    intro call hcall
    refine Prog.sat_of_uses (I := fun v : AgentWorld => Covered foreign config.wanInterface v.host)
      (reads_api hcall) ?_ h
    intro v₁ o r v₂ ho hE hI
    rw [reads_step ho hE]
    exact hI
  have henable : ∀ id enabled, (Api.setEnabled C config headers id enabled).Sat (agentEnv J) v fun v' _ =>
      Covered foreign config.wanInterface v'.host := by
    intro id enabled
    refine sat_keepsPlaces (Prog.uses_bind hcheck fun _ => Prog.uses_bind Prog.uses_ofExcept fun _ => ?_) h
    refine Prog.uses_bind (apiStore_uses ?_) fun _ => Prog.uses_ret
    exact setMappingEnabled_uses C trivial trivial fun _ _ _ => trivial
  have hcloud : ∀ {p : OciProg Unit}, (Api.oci p).Uses KeepsPlaces := apiOci_uses (Prog.uses_of_forall fun _ => trivial)
  cases call with
  | createMapping request =>
    refine sat_keepsPlaces (Prog.uses_bind hcheck fun _ => ?_) h
    refine Prog.uses_bind (Prog.uses_call trivial fun _ => Prog.uses_call trivial fun _ => Prog.uses_ret) fun _ => ?_
    exact Prog.uses_bind (apiStore_uses (insertMapping_uses C trivial trivial fun _ _ => trivial))
      fun _ => Prog.uses_ret
  | enableMapping id => exact henable id true
  | disableMapping id => exact henable id false
  | deleteMapping id => exact covered_apiDelete h
  | reconcile request =>
    refine Prog.sat_bind (Prog.sat_ofExcept ⟨fun _ _ => ?_, fun _ _ => h⟩)
    refine Prog.sat_bind (Prog.sat_mapErr (Prog.sat_mono ?_ (sat_reconcile h)))
    rintro v₁ x ⟨h₁, -⟩
    exact ⟨fun _ _ => Prog.sat_ret h₁, fun _ _ => h₁⟩
  | ociAllocate request => exact covered_ociAllocate h hspares
  | ociRelease request => exact covered_ociRelease h
  | ociNsgAdd request =>
    refine sat_keepsPlaces (Prog.uses_bind hcheck fun _ => Prog.uses_bind hcheck fun _ => ?_) h
    exact Prog.uses_bind hcheck fun _ => Prog.uses_bind hcloud fun _ => Prog.uses_ret
  | ociNsgRemove request =>
    refine sat_keepsPlaces (Prog.uses_bind hcheck fun _ => Prog.uses_bind hcheck fun _ => ?_) h
    refine Prog.uses_bind hcheck fun _ => Prog.uses_bind hcheck fun _ => ?_
    exact Prog.uses_bind hcloud fun _ => Prog.uses_ret
  | status => exact hread .status trivial
  | listMappings => exact hread .listMappings trivial
  | getMapping id => exact hread (.getMapping id) trivial
  | dryRunApply => exact hread .dryRunApply trivial
  | netbirdStatus => exact hread .netbirdStatus trivial
  | netbirdNetworks => exact hread .netbirdNetworks trivial
  | events => exact hread .events trivial
  | analytics => exact hread .analytics trivial
  | topology => exact hread .topology trivial
  | ociStatus => exact hread .ociStatus trivial
  | ociVnicCheck vnicId => exact hread (.ociVnicCheck vnicId) trivial
  | ociPublicIps compartmentId => exact hread (.ociPublicIps compartmentId) trivial

/-! ## Runs -/

/-- A request of the API with the headers it came with. -/
abbrev servedProg (C : Codec) (J : OciJson) (N : String → Except String NetbirdStatus) (config : EdgeConfig)
    (request : HeaderMap × ApiCall) : ApiProg ApiResponse := request.2.prog C J N config request.1

/-- A reconcile that applied everything and returned. -/
structure Applied (config : EdgeConfig)
    (t : Turn AgentSig ApiFailure ApiResponse (HeaderMap × ApiCall) AgentWorld) : Prop where
  full : ∃ request, t.call.2 = .reconcile request ∧ (Api.reconcileOptions config request).Full
  returned : ∃ response, t.result = .ok response

theorem tidy_of_applied {t : Turn AgentSig ApiFailure ApiResponse (HeaderMap × ApiCall) AgentWorld}
    (hr : t.Ran (agentEnv J) (servedProg C J N config)) (happlied : Applied config t)
    (h : Covered foreign config.wanInterface t.before.host) : Tidy C foreign config.wanInterface t.after.host := by
  obtain ⟨⟨request, hcall, hfull⟩, response, hok⟩ := happlied
  unfold Turn.Ran servedProg at hr
  rw [hcall, hok] at hr
  have hsat : (ApiCall.prog C J N config t.call.1 (.reconcile request)).Sat (agentEnv J) t.before fun v' x =>
      ∀ response, x = .ok response → Tidy C foreign config.wanInterface v'.host := by
    refine Prog.sat_bind (Prog.sat_ofExcept ⟨fun _ _ => ?_, fun _ _ _ h => nomatch h⟩)
    refine Prog.sat_bind (Prog.sat_mapErr (Prog.sat_mono ?_ (sat_reconcile h)))
    rintro v₁ x ⟨-, -, htidy⟩
    cases x with
    | ok report => exact ⟨fun _ _ => Prog.sat_ret fun _ _ => htidy hfull rfl report rfl, fun _ h => nomatch h⟩
    | error e => exact ⟨fun _ h => (nomatch h), fun _ _ _ h => nomatch h⟩
  exact hsat.of_run hr response rfl

/-- **No address stays behind in a run whose allocations abandon none**: after each full reconcile that returns, every
address on the interface that was not there at the start is that of an enabled nft mapping. -/
theorem no_leftovers {v₀ : AgentWorld}
    {ts : List (Turn AgentSig ApiFailure ApiResponse (HeaderMap × ApiCall) AgentWorld)}
    (h : InTurn (agentEnv J) (servedProg C J N config) v₀ ts v)
    (hspares : ∀ t ∈ ts, SparesAddress C (v₀.host.addrs config.wanInterface).entries config.wanInterface
      t.before.host t.call.2) :
    ∀ t ∈ ts, Applied config t →
      Tidy C (v₀.host.addrs config.wanInterface).entries config.wanInterface t.after.host := by
  have hinv := h.inv (fun ts v =>
    (∀ t ∈ ts, SparesAddress C (v₀.host.addrs config.wanInterface).entries config.wanInterface
      t.before.host t.call.2) → Covered (v₀.host.addrs config.wanInterface).entries config.wanInterface v.host ∧
      ∀ t ∈ ts, Applied config t →
        Tidy C (v₀.host.addrs config.wanInterface).entries config.wanInterface t.after.host)
    (fun _ => ⟨fun a ha => .inl ha, fun t ht => absurd ht List.not_mem_nil⟩) ?_
  · exact (hinv hspares).2
  intro ts t ih hr hspares
  rw [List.forall_mem_append] at hspares
  obtain ⟨hbefore, htidy⟩ := ih hspares.1
  refine ⟨(covered_api t.call.2 hbefore (hspares.2 t (List.mem_singleton.2 rfl))).of_run hr, ?_⟩
  refine List.forall_mem_append.2 ⟨htidy, fun u hu happlied => ?_⟩
  obtain rfl := List.mem_singleton.1 hu
  exact tidy_of_applied hr happlied hbefore

/-! ## An allocation that abandons an address -/

section Abandoned

variable {m m₀ : Mapping} {db' : Db} {w : AgentWorld}

/-- The mapping is the only one that is stored. -/
def Sole (C : Codec) (db : Db) (m : Mapping) : Prop :=
  ∃ row, db.mappings.rows = [row] ∧ row.id = m.id.val ∧ C.rowToMapping row = .ok m

theorem Sole.listed (h : Sole C db m) : decodeRows C db.listed = .ok [m] := by
  obtain ⟨row, hrows, -, hm⟩ := h
  rw [Db.listed, hrows]
  change decodeRows C [row] = .ok [m]
  simp only [decodeRows, hm]
  rfl

theorem Sole.refreshed (h : Sole C db m) (hr : Refreshed C db.mappings db'.mappings) :
    ∃ m', Sole C db' m' ∧ m'.core = m.core := by
  obtain ⟨row, hrows, hid, hm⟩ := h
  have hcores : db'.mappings.rows.map Row.core = [row.core] := by rw [hr.core, hrows]; rfl
  obtain ⟨row', hrows', hcore⟩ := List.map_eq_singleton_iff.1 hcores
  have hhealth : row'.HealthDecodes C := by
    refine hr.health (fun r hr => ?_) row' (hrows' ▸ List.mem_singleton_self _)
    obtain rfl := List.mem_singleton.1 (hrows ▸ hr)
    exact healthDecodes_of_decoded hm
  obtain ⟨m', hm', hmcore⟩ := rowToMapping_of_core (hcore ▸ rowToMapping_core hm) hhealth
  refine ⟨m', ⟨row', hrows', ?_, hm'⟩, hmcore⟩
  have hrid : row'.id = row.id := congrArg (·.id) hcore
  have hmid : m'.id = m.id := congrArg (·.id) hmcore
  rw [hrid, hid, hmid]

theorem sampleListing_sole (h : Sole sampleCodec db m) (hv : validateMappings [m] sampleConfig = .ok ())
    (hb : m.backend = .nft) : sampleListing db = some [m] := by
  unfold sampleListing
  rw [h.listed]
  obtain ⟨row, hrows, hid, -⟩ := h
  refine if_pos ⟨hv, ?_, ?_⟩
  · simp [isXdp, hb]
  · simp [hrows, hid]

theorem formatTime_sample : sampleCodec.formatTime sampleTime = .ok "2026-01-01T00:00:00Z" := rfl

theorem format_of_parsed {s : String} {t : OffsetDateTime} (h : sampleCodec.parseTime s = .ok t) : t = sampleTime := by
  by_cases hs : s = "2026-01-01T00:00:00Z"
  · subst hs
    exact (Except.ok.inj h).symm
  · rw [Codec.parseTime, show sampleCodec.parseRfc3339 s = .error "not a sample" from if_neg hs] at h
    cases h

/-- A stored mapping that is changed at the sample time can be written back. -/
theorem updateRow_sample (h : sampleCodec.rowToMapping row = .ok m₀) (hchecked : m.lastCheckedAt = m₀.lastCheckedAt)
    (hupdated : m.updatedAt = sampleTime) : ∃ cols, sampleCodec.updateRow m = .ok cols := by
  have hl : ∃ s, transposeMap sampleCodec.formatTime m.lastCheckedAt = .ok s := by
    rw [hchecked]
    have hcol := (rowToMapping_ok.1 h).lastCheckedAt
    cases hc : m₀.lastCheckedAt with
    | none => exact ⟨none, rfl⟩
    | some t =>
      rw [hc] at hcol
      cases hr : row.lastCheckedAt with
      | none => rw [hr] at hcol; cases hcol
      | some s =>
        rw [hr] at hcol
        cases hp : sampleCodec.parseTime s with
        | error e => rw [transposeMap, hp] at hcol; cases hcol
        | ok t' =>
          rw [transposeMap, hp] at hcol
          cases hcol
          rw [format_of_parsed hp]
          exact ⟨_, rfl⟩
  obtain ⟨checked, hchecked⟩ := hl
  unfold Codec.updateRow Codec.bindMapping
  rw [hchecked, hupdated, formatTime_sample]
  cases m.protocol <;> cases m.mode <;> cases m.backend <;> cases m.status <;> exact ⟨_, rfl⟩

theorem sample_config : sampleCodec.configFromJson sampleJson = .ok sampleConfig := by simp only [sampleCodec, if_true]

/-- The only row can be replaced. -/
theorem storable_sole (h : Sole sampleCodec db m₀) (hconfig : db.config = some sampleJson) (hid : m.id = m₀.id)
    (hv : validateMapping m sampleConfig = .ok ()) (hchecked : m.lastCheckedAt = m₀.lastCheckedAt)
    (hupdated : m.updatedAt = sampleTime) : Storable sampleCodec db m := by
  obtain ⟨row, hrows, hrid, hm₀⟩ := h
  obtain ⟨cols, hcols⟩ := updateRow_sample hm₀ hchecked hupdated
  have hcid : cols.id = row.id := by rw [(updateRow_columns hcols).1, hid, hrid]
  have hothers : db.mappings.others row.id = [] := by simp [Sql.Table.others, hrows, mappingsSchema]
  refine ⟨⟨sampleConfig, ⟨sampleJson, hconfig, sample_config⟩, hv⟩, ?_, cols,
    db.mappings.set cols.id cols.replaced cols.replaced_id, hcols, ?_⟩
  · rw [hid, ← hrid, hothers]
    simp
  · have hfind : db.mappings.find row.id = some row := Sql.Table.find_of_mem (by simp [hrows]) rfl
    have hfree : rejectConflictUpdate db.mappings.rows (cols.replaced row) = none := by
      simp [rejectConflictUpdate, hrows, raiseConflict]
    rw [hcid]
    simp only [Sql.Table.update, hfind, hothers]
    rw [show mappingsSchema.onUpdate = rejectConflictUpdate from rfl, hfree]
    rfl

theorem updateMapping_can (h : Storable C db m) : (updateMapping C m).Can storeEnv db fun db' _ =>
    ∃ cols old, Updated C m db.mappings db'.mappings cols old := by
  obtain ⟨db', tr, hrun⟩ := updates_iff.2 h
  have hrun' := Prog.run_mono storeEnv_of_exec hrun
  exact ⟨tr, db', (), hrun', ((sat_updateMapping m).of_run hrun').2 rfl⟩

theorem Sole.updated {cols old : Row} (h : Sole C db m₀) (hu : Updated C m db.mappings db'.mappings cols old)
    (hid : m.id = m₀.id) (hcreated : m.createdAt = m₀.createdAt) (hp : PortsOk m) : Sole C db' m := by
  obtain ⟨row, hrows, hrid, hm₀⟩ := h
  obtain rfl : old = row := List.mem_singleton.1 (hrows ▸ hu.mem)
  have hdec := (encodes_replaced_of_created hp hu.bound (rowToMapping_ok.1 hm₀).createdAt hu.id).decoded
  rw [← hcreated] at hdec
  refine ⟨cols.replaced old, ?_, hrid.trans (congrArg (·.val) hid.symm), hdec⟩
  rw [hu.table]
  simp [Sql.Table.set, hrows, mappingsSchema, hu.id]

/-! ### The cloud of the allocation -/

theorem can_liftOci {ε α : Type} {p : Prog OciSig ε α} {post : Cloud → α → Prop} (h : p.Can (okCloud J) w.cloud post) :
    (liftOci p).Can (okEnv J) w fun w' a => ∃ cloud, w' = w.setCloud cloud ∧ post cloud a := by
  refine Prog.can_embed (T := AgentSig) (F := okEnv J) (t := w) AgentWorld.setCloud ?_ ?_ ?_ ?_ h
  · exact fun _ => rfl
  · exact fun _ _ => rfl
  · exact fun _ _ _ => rfl
  · exact fun w o r cloud hE => ⟨r, rfl, ⟨cloud, hE.1, rfl⟩, hE.2⟩

theorem runOciJson_can {α : Type} {c : Cloud} {command : OciCommand} {text : String} {parse : String → Except String α}
    {a : α} (post : Cloud → α → Prop) (hr : (sampleCloud c command).1 = .exited ⟨some 0, text, ""⟩)
    (hp : parse text = .ok a) (h : post (sampleCloud c command).2 a) :
    (runOciJson command parse).Can (okCloud sampleOciJson) c post := by
  have hE := sampleCloud_env c command
  rw [hr] at hE
  refine Prog.can_bind (Prog.can_call (S := OciSig) (r := .exited ⟨some 0, text, ""⟩) ⟨hE, rfl⟩ ?_)
  refine Prog.can_ofExcept rfl (Prog.can_ofExcept (a := a) ?_ h)
  rw [hp]
  rfl

theorem allocateForwardingIp_can {c : Cloud} {compartmentId vnicId : String} {name : Option String}
    (hfresh : c.issued = []) :
    (allocateForwardingIp sampleOciJson compartmentId vnicId name).Can (okCloud sampleOciJson) c fun _ a =>
      a = ⟨samplePrivateIp, samplePublicIp⟩ := by
  have hprivate : sampleCloud c (.createPrivateIp vnicId name) =
      (.exited ⟨some 0, samplePrivateIpText, ""⟩, c.addPrivate samplePrivateIp.id) := by
    simp [sampleCloud, createOnce, hfresh]
  have hpublic : ∀ id, sampleCloud (c.addPrivate samplePrivateIp.id) (.createReservedPublicIp compartmentId id name) =
      (.exited ⟨some 0, samplePublicIpText, ""⟩, (c.addPrivate samplePrivateIp.id).addPublic samplePublicIp.id) := by
    intro id
    simp [sampleCloud, createOnce, Cloud.addPrivate, hfresh, samplePublicIp, samplePrivateIp]
  have hvnic : (sampleCloud c (.getVnic vnicId)).1 = .exited ⟨some 0, sampleVnicText, ""⟩ := rfl
  refine Prog.can_bind (Prog.can_mapErr (Prog.can_bind (runOciJson_can _ hvnic sample_vnic ?_)))
  refine Prog.can_bind (Prog.can_ofExcept rfl (Prog.can_ret ?_))
  refine Prog.can_bind (Prog.can_mapErr (runOciJson_can _ (congrArg Prod.fst hprivate) sample_privateIp ?_))
  rw [show (sampleCloud c (.getVnic vnicId)).2 = c from rfl, hprivate]
  refine Prog.can_bind (Prog.can_mono ?_ (Prog.can_attempt (runOciJson_can (fun _ a => a = samplePublicIp)
    (congrArg Prod.fst (hpublic _)) sample_publicIp rfl)))
  rintro c' x ⟨a, rfl, rfl⟩
  exact Prog.can_ret rfl

/-- The mapping with the addresses that the sample cloud hands out. -/
def sampleAllocated (m : Mapping) : Mapping :=
  { m.allocated ⟨samplePrivateIp, samplePublicIp⟩ with status := .pending, updatedAt := sampleTime }

theorem validate_allocated (hcore : m.core = sampleMapping.core) :
    validateMappings [sampleAllocated m] sampleConfig = .ok () := by
  have hm : (sampleAllocated m).core = (sampleAllocated sampleMapping).core := by
    cases m
    cases hcore
    rfl
  rw [← validateMappings_core, List.map_singleton, hm]
  decide

/-- An allocation to the only mapping goes through. -/
theorem sampleAllocate_can (hm : Sole sampleCodec w.host.db m) (hcore : m.core = sampleMapping.core)
    (hconfig : w.host.db.config = some sampleJson) (hfresh : w.cloud.issued = []) :
    (ApiCall.prog sampleCodec sampleOciJson sampleNetbird sampleConfig [] sampleAllocate).Can (okEnv sampleOciJson) w
      fun w' _ => ∃ m', Sole sampleCodec w'.host.db m' ∧ m'.enabled = true ∧ m'.backend = .nft ∧
        m'.edgePrivateIp = samplePrivateIp.ipAddress ∧ validateMappings [m'] sampleConfig = .ok () ∧
        w'.host.addrs = w.host.addrs := by
  obtain ⟨row, hrows, hid, hdec⟩ := hm
  have hmid : m.id = sampleMapping.id := congrArg (·.id) hcore
  have hnone : m.hasAllocation = false := by
    have h : m.hasAllocation = m.core.hasAllocation := rfl
    rw [h, hcore]
    rfl
  refine Prog.can_bind (Prog.can_ofExcept rfl ?_)
  refine Prog.can_bind (Prog.can_ofExcept rfl ?_)
  refine Prog.can_bind (Prog.can_ofExcept (a := sampleMapping.id) (by decide +kernel) ?_)
  have hrow : row ∈ w.host.db.mappings.rows := hrows ▸ List.mem_singleton_self _
  refine Prog.can_bind (Prog.can_mono ?_
    (Prog.can_mapErr (can_onStore okEnv_host (getMapping_can hrow (hmid ▸ hid) hdec))))
  rintro w₁ m₁ ⟨db₁, rfl, rfl, rfl⟩
  refine Prog.can_bind (Prog.can_ofExcept (a := ()) (rejectIf_ok.2 hnone) ?_)
  refine Prog.can_bind (Prog.can_ofExcept (a := "ocid1.compartment.x") (by decide +kernel) ?_)
  refine Prog.can_bind (Prog.can_ofExcept (a := "ocid1.vnic.x") (by decide +kernel) ?_)
  refine Prog.can_bind (Prog.can_mono ?_ (Prog.can_mapErr (can_liftOci (allocateForwardingIp_can hfresh))))
  rintro w₂ a ⟨cloud, rfl, rfl⟩
  have hnow : okEnv sampleOciJson ((w.setDb w.host.db).setCloud cloud) (.host (.store .now)) sampleTime
      ((w.setDb w.host.db).setCloud cloud) := ⟨⟨_, ⟨_, rfl, rfl⟩, rfl⟩, trivial⟩
  refine Prog.can_bind (Prog.can_bind (Prog.can_call hnow (Prog.can_ret ?_)))
  have hvalid := validate_allocated hcore
  have hsole : Sole sampleCodec w.host.db m₁ := ⟨row, hrows, hid, hdec⟩
  have hone := (validateMappings_ok.1 hvalid).1 _ (List.mem_singleton_self _)
  have hstorable := storable_sole (m := sampleAllocated m₁) hsole hconfig rfl hone rfl rfl
  refine Prog.can_bind (Prog.can_mono ?_ (Prog.can_attempt (can_onStore okEnv_host (updateMapping_can hstorable))))
  rintro w₃ x ⟨_, rfl, db₃, rfl, cols, old, hu⟩
  refine Prog.can_ret ?_
  have hevent : (recordEvent sampleCodec .info "oci allocate" (some ("mapping " ++ sampleMapping.id.val ++
      " public " ++ samplePublicIp.ipAddress.toText ++ " private " ++ samplePrivateIp.ipAddress.toText))).Can
      storeEnv db₃ fun db' _ => SameMappings db₃ db' := recordEvent_can sampleClock (by decide)
  refine Prog.can_bind (Prog.can_mono ?_ (Prog.can_attempt (can_onStore okEnv_host hevent)))
  rintro w₄ x ⟨_, -, db₄, rfl, hsame⟩
  have hports : PortsOk m₁ := portsOk_of_columns (rowToMapping_ok.1 hdec)
  have hsole₃ := hsole.updated hu rfl rfl hports
  have hsole₄ : Sole sampleCodec db₄ (sampleAllocated m₁) := by
    unfold Sole
    rw [hsame.mappings]
    exact hsole₃
  have henabled : m₁.enabled = true := (congrArg (·.enabled) hcore).trans rfl
  have hbackend : m₁.backend = .nft := (congrArg (·.backend) hcore).trans rfl
  exact Prog.can_ret ⟨sampleAllocated m₁, hsole₄, henabled, hbackend, rfl, hvalid, rfl⟩

/-- A reconcile of the only mapping goes through. -/
theorem sampleReconcile_can (hm : Sole sampleCodec w.host.db m) (hv : validateMappings [m] sampleConfig = .ok ())
    (hwants : Wants m) (hplain : Plain (w.host.addrs sampleConfig.wanInterface) [m]) :
    (ApiCall.prog sampleCodec sampleOciJson sampleNetbird sampleConfig [] (.reconcile {})).Can (okEnv sampleOciJson) w
      fun w' _ => w'.cloud = w.cloud ∧ w'.host.db.config = w.host.db.config ∧
        (∃ m', Sole sampleCodec w'.host.db m' ∧ m'.core = m.core) ∧
        w'.host.addrs sampleConfig.wanInterface = syncEntry m (w.host.addrs sampleConfig.wanInterface) := by
  obtain ⟨text, -, hcan⟩ := sample_can (w := w.host) (Api.reconcileOptions sampleConfig {})
    (sampleListing_sole hm hv hwants.2) rfl rfl fun _ => hplain
  refine Prog.can_bind (Prog.can_ofExcept rfl ?_)
  refine Prog.can_bind (Prog.can_mapErr (Prog.can_mono ?_ (can_liftHost okEnv_host hcan)))
  rintro w₁ report ⟨host, rfl, hdone⟩
  refine Prog.can_ret ⟨rfl, hdone.config, hm.refreshed hdone.mappings, ?_⟩
  have haddrs := hdone.addrs
  rw [if_pos (show (Api.reconcileOptions sampleConfig {}).applyLinux = true from rfl)] at haddrs
  rw [show ((w.setHost host).host.addrs) = host.addrs from rfl, haddrs, setAddrs_addrs]
  rfl

theorem created_sole : Sole sampleCodec createdAgent.host.db sampleMapping := by
  obtain ⟨row, hrows, hrow⟩ := List.map_eq_singleton_iff.1 created_facts.1
  obtain ⟨hid, hdec⟩ := Prod.mk.inj hrow
  refine ⟨row, hrows, hid, ?_⟩
  cases hx : sampleCodec.rowToMapping row with
  | ok m => rw [hx] at hdec; exact congrArg Except.ok (Option.some.inj hdec)
  | error e => rw [hx] at hdec; cases hdec

/-- A mapping is created and applied. -/
theorem applied_turns : ∃ (ts : List (Turn AgentSig ApiFailure ApiResponse (HeaderMap × ApiCall) AgentWorld))
    (w : AgentWorld),
    InTurn (agentEnv sampleOciJson) (servedProg sampleCodec sampleOciJson sampleNetbird sampleConfig) emptyAgent ts w ∧
      ts.map (·.call) = [([], sampleCreate), ([], .reconcile {})] ∧
      (∀ t ∈ ts, (∃ response, t.result = .ok response) ∧ ∀ e ∈ t.trace, OciOk e) ∧
      (∃ m, Sole sampleCodec w.host.db m ∧ m.core = sampleMapping.core) ∧ w.host.db.config = some sampleJson ∧
      w.cloud.issued = [] ∧
      (w.host.addrs sampleConfig.wanInterface).entries = [.host sampleMapping.edgePrivateIp] := by
  obtain ⟨-, hconfig, hissued, haddrs⟩ := created_facts
  obtain ⟨a, hcreate⟩ := api_of_ran created_run
  have hplain : Plain (createdAgent.host.addrs sampleConfig.wanInterface) [sampleMapping] := by
    intro m _ entry hentry
    rw [haddrs] at hentry
    cases hentry
  obtain ⟨tr, w, response, hrun, hcloud, hconfig', hsole, hsync⟩ :=
    sampleReconcile_can created_sole (by decide) (by decide) hplain
  obtain ⟨hrun, hok⟩ := Prog.run_restrict.1 hrun
  refine ⟨_, w, InTurn.next (t := ⟨([], ApiCall.reconcile {}), _, _, _, _⟩)
    (InTurn.next (t := ⟨([], sampleCreate), _, _, _, _⟩) .init hcreate) hrun, rfl, ?_, hsole,
    hconfig'.trans hconfig, hcloud ▸ hissued, ?_⟩
  · simp only [List.nil_append, List.forall_mem_append, List.forall_mem_singleton]
    exact ⟨⟨⟨a, rfl⟩, created_ociOk⟩, ⟨response, rfl⟩, hok⟩
  · have hnone : ¬ (createdAgent.host.addrs sampleConfig.wanInterface).Has sampleMapping.edgePrivateIp := by
      rintro ⟨entry, hentry, -⟩
      rw [haddrs] at hentry
      cases hentry
    rw [hsync, syncEntry, if_pos (by decide), if_neg hnone, AddrTable.add, dif_neg (by simp [haddrs])]
    simp [haddrs]

/-- **The address of a mapping that is given another stays behind.** A mapping is created and applied, addresses are
allocated to it, and a full reconcile returns: the old address is on the interface and no mapping has it. -/
theorem allocate_abandons : ¬ ∀ (ts : List (Turn AgentSig ApiFailure ApiResponse (HeaderMap × ApiCall) AgentWorld))
    (w : AgentWorld),
    InTurn (agentEnv sampleOciJson) (servedProg sampleCodec sampleOciJson sampleNetbird sampleConfig) emptyAgent ts w →
    (∀ t ∈ ts, (∃ response, t.result = .ok response) ∧ ∀ e ∈ t.trace, OciOk e) → ∀ t ∈ ts, Applied sampleConfig t →
      Tidy sampleCodec (emptyAgent.host.addrs sampleConfig.wanInterface).entries sampleConfig.wanInterface
        t.after.host := by
  intro htidy
  obtain ⟨ts, w₁, hturns, -, hts, ⟨m₁, hsole₁, hcore₁⟩, hconfig, hissued, haddrs⟩ := applied_turns
  obtain ⟨tr₂, w₂, a₂, hrun₂, m₂, hsole₂, henabled, hbackend, hip, hvalid, haddrs₂⟩ :=
    sampleAllocate_can hsole₁ hcore₁ hconfig hissued
  obtain ⟨hrun₂, hok₂⟩ := Prog.run_restrict.1 hrun₂
  have hplain : Plain (w₂.host.addrs sampleConfig.wanInterface) [m₂] := by
    rw [haddrs₂]
    intro m hm entry hentry ha
    rw [haddrs] at hentry
    obtain rfl := List.mem_singleton.1 hm
    obtain rfl := List.mem_singleton.1 hentry
    rw [hip] at ha
    exact absurd ha (by decide)
  obtain ⟨tr₃, w₃, a₃, hrun₃, -, -, ⟨m₃, hsole₃, hcore₃⟩, hsync⟩ :=
    sampleReconcile_can hsole₂ hvalid ⟨henabled, hbackend⟩ hplain
  obtain ⟨hrun₃, hok₃⟩ := Prog.run_restrict.1 hrun₃
  have hturns₃ := InTurn.next (t := ⟨([], ApiCall.reconcile {}), _, _, _, _⟩)
    (InTurn.next (t := ⟨([], sampleAllocate), _, _, _, _⟩) hturns hrun₂) hrun₃
  obtain ⟨ms, hd, htidy⟩ := htidy _ _ hturns₃ (by
    simp only [List.forall_mem_append, List.forall_mem_singleton]
    exact ⟨⟨hts, ⟨a₂, rfl⟩, hok₂⟩, ⟨a₃, rfl⟩, hok₃⟩) _ (List.mem_append_right _ (List.mem_singleton_self _))
    ⟨⟨{}, rfl, rfl, rfl, rfl⟩, a₃, rfl⟩
  cases hd.symm.trans hsole₃.listed
  -- the loop looks at the new address only
  have hold : .host sampleMapping.edgePrivateIp ∈ (w₃.host.addrs sampleConfig.wanInterface).entries := by
    rw [hsync, haddrs₂, syncEntry, if_pos ⟨henabled, hbackend⟩]
    split
    · rw [haddrs]
      exact List.mem_singleton_self _
    · exact AddrTable.mem_add.2 (.inl (haddrs ▸ List.mem_singleton_self _))
  rcases htidy _ hold with hforeign | ⟨m, hm, -, ha⟩
  · cases hforeign
  · obtain rfl := List.mem_singleton.1 hm
    have hip₃ : m.edgePrivateIp = m₂.edgePrivateIp := congrArg (·.edgePrivateIp) hcore₃
    rw [hip₃, hip] at ha
    exact absurd ha (by decide)

/-- Once the mapping is applied its address is the only one on the interface. -/
theorem no_leftovers_applied : ∃ (ts : List (Turn AgentSig ApiFailure ApiResponse (HeaderMap × ApiCall) AgentWorld))
    (w : AgentWorld),
    InTurn (agentEnv sampleOciJson) (servedProg sampleCodec sampleOciJson sampleNetbird sampleConfig) emptyAgent ts w ∧
      ts.map (·.call) = [([], sampleCreate), ([], .reconcile {})] ∧ ∀ t ∈ ts, Applied sampleConfig t →
        Tidy sampleCodec (emptyAgent.host.addrs sampleConfig.wanInterface).entries sampleConfig.wanInterface
          t.after.host := by
  obtain ⟨ts, w, hturns, hcalls, -⟩ := applied_turns
  refine ⟨ts, w, hturns, hcalls, no_leftovers hturns fun t ht => ?_⟩
  have hmem : t.call ∈ ts.map (·.call) := List.mem_map_of_mem ht
  rw [hcalls] at hmem
  rcases List.mem_pair.1 hmem with h | h <;> rw [h] <;> trivial

end Abandoned

end EdgeRoute
