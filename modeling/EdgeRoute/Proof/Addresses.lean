import EdgeRoute.Proof.FailsClosed

/-!
# The address loop

The loop of `reconcile` looks at one mapping at a time, and port forwards may share an address.

* `syncTable`: what the loop makes of the addresses of the interface; `syncAddresses_ok`: a loop that
  returns has made that.
* `syncTable_stable`: where no address is wanted and unwanted at once, the result is what the
  mappings want; `syncAddresses_stable`: the loop leaves that alone.
* `syncAddresses_quiet`: a loop that returns and changed nothing found what every mapping wants.
-/

namespace EdgeRoute

open Effect

variable {C : Codec} {config : EdgeConfig} {options : ReconcileOptions} {w w' w₁ : World} {wan : String}
  {a : Ipv4Addr} {t : AddrTable} {m : Mapping} {ms : List Mapping} {tr : List (Event HostSig)}

/-! ## One address -/

/-- The event is a command that added or deleted an address. -/
def ChangesAddr : Event HostSig → Prop
  | ⟨.ip (.add _ _), r⟩ => r.Succeeded
  | ⟨.ip (.del _ _), r⟩ => r.Succeeded
  | _ => False

instance : Decidable (t.Has a) := inferInstanceAs (Decidable (∃ entry ∈ t.entries, entry.addr = a))

theorem has_of_host (h : .host a ∈ t.entries) : t.Has a := ⟨_, h, rfl⟩

theorem runIp_run {command : IpCommand} {x : Except ReconcileError CommandOutput}
    (h : (runIp command).Run hostEnv w tr w' x) :
    ∃ r : Outcome, tr = [⟨.ip command, r⟩] ∧ hostEnv w (.ip command) r w' ∧
      x = (linuxOutput r).mapError .linux := by
  obtain ⟨r, w₁, tr₁, rfl, hE, h⟩ := Prog.run_call.1 h
  obtain ⟨rfl, rfl, rfl⟩ := Prog.run_ofExcept.1 h
  exact ⟨r, rfl, hE, rfl⟩

/-- A command that the caller takes for done has exited with status zero. -/
theorem succeeded_of_ok {r : Outcome} {output : CommandOutput}
    (h : (linuxOutput r).mapError ReconcileError.linux = .ok output) : r = .exited output ∧ r.Succeeded := by
  cases r with
  | timedOut => cases h
  | ioError message => cases h
  | exited output' =>
    cases hs : output'.isSuccess with
    | true => simp only [linuxOutput, hs, if_true] at h; cases h; exact ⟨rfl, hs⟩
    | false => simp [linuxOutput, hs, Except.mapError] at h

/-- A listing changes nothing, and what it returns are the addresses. -/
theorem interfaceAddresses_run {x : Except ReconcileError (List Ipv4Addr)}
    (h : (interfaceAddresses wan).Run hostEnv w tr w' x) :
    w' = w ∧ (∀ e ∈ tr, ¬ ChangesAddr e) ∧ ∀ existing, x = .ok existing → ∀ a, a ∈ existing ↔ (w.addrs wan).Has a := by
  rcases Prog.run_bind.1 h with ⟨output, w₁, tr₁, tr₂, rfl, hrun, hret⟩ | ⟨e, rfl, hrun⟩
  · obtain ⟨r, rfl, hE, hx⟩ := runIp_run hrun
    obtain ⟨rfl, rfl, rfl⟩ := Prog.run_ret.1 hret
    obtain ⟨hr, hs⟩ := succeeded_of_ok hx.symm
    subst hr
    refine ⟨hE.1, by simp [ChangesAddr], fun existing he a => ?_⟩
    cases he
    exact mem_parse_of_lists (hE.2 output rfl hs)
  · obtain ⟨r, rfl, hE, -⟩ := runIp_run hrun
    exact ⟨hE.1, by simp [ChangesAddr], fun existing he => nomatch he⟩

/-- `ensure_addr` that returns: the address is there, or was added. -/
theorem ensureAddr_ok {changed : Bool} (h : (ensureAddr wan a).Run hostEnv w tr w' (.ok changed)) :
    w' = if (w.addrs wan).Has a then w else w.addAddr wan a := by
  obtain ⟨existing, w₁, tr₁, tr₂, rfl, hlist, hrest⟩ := Prog.run_bind_ok.1 h
  obtain ⟨rfl, -, hmem⟩ := interfaceAddresses_run hlist
  have hhas := hmem existing rfl a
  split at hrest
  · rename_i hin
    obtain ⟨-, rfl, -⟩ := Prog.run_ret.1 hrest
    rw [if_pos (hhas.1 hin)]
  · rename_i hout
    obtain ⟨output, w₂, tr₃, tr₄, rfl, hadd, hret⟩ := Prog.run_bind_ok.1 hrest
    obtain ⟨r, -, hE, hx⟩ := runIp_run hadd
    obtain ⟨-, rfl, -⟩ := Prog.run_ret.1 hret
    rw [if_neg (mt hhas.2 hout)]
    exact (hE.succeeded (succeeded_of_ok hx.symm).2).2

/-- `ensure_addr` of an address that is there changes nothing, whether it returns or not. -/
theorem ensureAddr_has {x : Except ReconcileError Bool} (hhas : (w.addrs wan).Has a)
    (h : (ensureAddr wan a).Run hostEnv w tr w' x) : w' = w ∧ ∀ e ∈ tr, ¬ ChangesAddr e := by
  rcases Prog.run_bind.1 h with ⟨existing, w₁, tr₁, tr₂, rfl, hlist, hrest⟩ | ⟨e, rfl, hlist⟩
  · obtain ⟨rfl, hnone, hmem⟩ := interfaceAddresses_run hlist
    rw [if_pos ((hmem existing rfl a).2 hhas)] at hrest
    obtain ⟨rfl, rfl, -⟩ := Prog.run_ret.1 hrest
    rw [List.append_nil]
    exact ⟨rfl, hnone⟩
  · obtain ⟨rfl, hnone, -⟩ := interfaceAddresses_run hlist
    exact ⟨rfl, hnone⟩

/-- `delete_addr_if_present` that returns: the address is not there, or was deleted. -/
theorem deleteAddrIfPresent_ok {changed : Bool}
    (h : (deleteAddrIfPresent wan a).Run hostEnv w tr w' (.ok changed)) :
    w' = if (w.addrs wan).Has a then w.delAddr wan a else w := by
  obtain ⟨existing, w₁, tr₁, tr₂, rfl, hlist, hrest⟩ := Prog.run_bind_ok.1 h
  obtain ⟨rfl, -, hmem⟩ := interfaceAddresses_run hlist
  have hhas := hmem existing rfl a
  split at hrest
  · rename_i hout
    obtain ⟨-, rfl, -⟩ := Prog.run_ret.1 hrest
    rw [if_neg (mt hhas.2 hout)]
  · rename_i hin
    obtain ⟨output, w₂, tr₃, tr₄, rfl, hdel, hret⟩ := Prog.run_bind_ok.1 hrest
    obtain ⟨r, -, hE, hx⟩ := runIp_run hdel
    obtain ⟨-, rfl, -⟩ := Prog.run_ret.1 hret
    rw [if_pos (hhas.1 (not_not.1 hin))]
    exact (hE.succeeded (succeeded_of_ok hx.symm).2).2

/-- `delete_addr_if_present` without the `/32` entry changes nothing: if the address is there in another
form, the command fails. -/
theorem deleteAddrIfPresent_absent {x : Except ReconcileError Bool} (habsent : .host a ∉ (w.addrs wan).entries)
    (h : (deleteAddrIfPresent wan a).Run hostEnv w tr w' x) : w' = w ∧ ∀ e ∈ tr, ¬ ChangesAddr e := by
  have hdel : ∀ {tr w' x}, (runIp (.del wan a)).Run hostEnv w tr w' x → w' = w ∧ ∀ e ∈ tr, ¬ ChangesAddr e := by
    intro tr w' x h
    obtain ⟨r, rfl, hE, -⟩ := runIp_run h
    refine ⟨hE.either.elim id fun h => absurd h.1 habsent, fun e he hc => ?_⟩
    cases List.mem_singleton.1 he
    exact habsent (hE.succeeded hc).1
  rcases Prog.run_bind.1 h with ⟨existing, w₁, tr₁, tr₂, rfl, hlist, hrest⟩ | ⟨e, rfl, hlist⟩
  · obtain ⟨rfl, hnone, -⟩ := interfaceAddresses_run hlist
    split at hrest
    · obtain ⟨rfl, rfl, -⟩ := Prog.run_ret.1 hrest
      rw [List.append_nil]
      exact ⟨rfl, hnone⟩
    · have hrest' : w' = w₁ ∧ ∀ e ∈ tr₂, ¬ ChangesAddr e := by
        rcases Prog.run_bind.1 hrest with ⟨output, w₂, tr₃, tr₄, rfl, hrun, hret⟩ | ⟨e, rfl, hrun⟩
        · obtain ⟨rfl, rfl, -⟩ := Prog.run_ret.1 hret
          rw [List.append_nil]
          exact hdel hrun
        · exact hdel hrun
      exact ⟨hrest'.1, fun e he => (List.mem_append.1 he).elim (hnone e) (hrest'.2 e)⟩
  · obtain ⟨rfl, hnone, -⟩ := interfaceAddresses_run hlist
    exact ⟨rfl, hnone⟩

/-! ## The loop -/

/-- The mapping wants its address on the interface. -/
def Wants (m : Mapping) : Prop := m.enabled = true ∧ m.backend = .nft

/-- The mapping wants its address off the interface. -/
def Unwants (m : Mapping) : Prop := m.enabled = false ∧ m.backend = .nft

instance : Decidable (Wants m) := inferInstanceAs (Decidable (_ ∧ _))

instance : Decidable (Unwants m) := inferInstanceAs (Decidable (_ ∧ _))

/-- What one round of the loop makes of the addresses. -/
def syncEntry (m : Mapping) (t : AddrTable) : AddrTable :=
  if Wants m then if t.Has m.edgePrivateIp then t else t.add (.host m.edgePrivateIp)
  else if Unwants m then if t.Has m.edgePrivateIp then t.del (.host m.edgePrivateIp) else t
  else t

/-- **What the loop makes of the addresses.** -/
def syncTable : List Mapping → AddrTable → AddrTable
  | [], t => t
  | m :: ms, t => syncTable ms (syncEntry m t)

/-- The world with other addresses on the interface. -/
def World.setAddrs (w : World) (interface : String) (t : AddrTable) : World :=
  { w with addrs := Function.update w.addrs interface t }

@[simp] theorem setAddrs_addrs : (w.setAddrs wan t).addrs wan = t := by simp [World.setAddrs]

@[simp] theorem setAddrs_setAddrs {t' : AddrTable} : (w.setAddrs wan t).setAddrs wan t' = w.setAddrs wan t' := by
  simp [World.setAddrs]

@[simp] theorem setAddrs_self : w.setAddrs wan (w.addrs wan) = w := by simp [World.setAddrs]

theorem not_wants_iff (hb : m.backend = .nft) : ¬ Wants m ↔ Unwants m := by
  simp [Wants, Unwants, hb]

theorem not_unwants_of_wants (h : Wants m) : ¬ Unwants m := fun h' => by
  have := h.1.symm.trans h'.1
  cases this

/-- **The loop, where it returns.** -/
theorem syncAddresses_ok {changes : List String × List String}
    (h : (syncAddresses wan ms).Run hostEnv w tr w' (.ok changes)) :
    w' = w.setAddrs wan (syncTable ms (w.addrs wan)) := by
  induction ms generalizing w tr changes with
  | nil =>
    obtain ⟨-, rfl, -⟩ := Prog.run_ret.1 h
    simp [syncTable]
  | cons m ms ih =>
    unfold syncAddresses at h
    split at h
    · rename_i hwants
      obtain ⟨changed, w₁, tr₁, tr₂, rfl, hens, hrest⟩ := Prog.run_bind_ok.1 h
      obtain ⟨later, w₂, tr₃, tr₄, rfl, hloop, hret⟩ := Prog.run_bind_ok.1 hrest
      obtain ⟨-, rfl, -⟩ := Prog.run_ret.1 hret
      have hw₁ : w₁ = w.setAddrs wan (syncEntry m (w.addrs wan)) := by
        rw [ensureAddr_ok hens, syncEntry, if_pos (show Wants m from hwants)]
        split
        · simp
        · rfl
      rw [ih hloop, hw₁, syncTable]
      simp
    rename_i hwants
    split at h
    · rename_i hb
      obtain ⟨changed, w₁, tr₁, tr₂, rfl, hdel, hrest⟩ := Prog.run_bind_ok.1 h
      obtain ⟨later, w₂, tr₃, tr₄, rfl, hloop, hret⟩ := Prog.run_bind_ok.1 hrest
      obtain ⟨-, rfl, -⟩ := Prog.run_ret.1 hret
      have hw₁ : w₁ = w.setAddrs wan (syncEntry m (w.addrs wan)) := by
        rw [deleteAddrIfPresent_ok hdel, syncEntry, if_neg (show ¬ Wants m from hwants),
          if_pos ((not_wants_iff hb).1 hwants)]
        split
        · rfl
        · simp
      rw [ih hloop, hw₁, syncTable]
      simp
    · rename_i hb
      have hentry : syncEntry m (w.addrs wan) = w.addrs wan := by
        rw [syncEntry, if_neg (show ¬ Wants m from hwants), if_neg fun h : Unwants m => hb h.2]
      rw [ih h, syncTable, hentry]

/-- `ensure_addr` that returns and changed nothing found the address. -/
theorem ensureAddr_quiet {changed : Bool} (h : (ensureAddr wan a).Run hostEnv w tr w' (.ok changed))
    (hnone : ∀ e ∈ tr, ¬ ChangesAddr e) : (w.addrs wan).Has a := by
  obtain ⟨existing, w₁, tr₁, tr₂, rfl, hlist, hrest⟩ := Prog.run_bind_ok.1 h
  obtain ⟨rfl, -, hmem⟩ := interfaceAddresses_run hlist
  split at hrest
  · rename_i hin
    exact (hmem existing rfl a).1 hin
  · obtain ⟨output, w₂, tr₃, tr₄, rfl, hadd, -⟩ := Prog.run_bind_ok.1 hrest
    obtain ⟨r, rfl, -, hx⟩ := runIp_run hadd
    exact absurd (succeeded_of_ok hx.symm).2 (hnone ⟨.ip (.add wan a), r⟩ (by simp))

/-- `delete_addr_if_present` that returns and changed nothing did not find the address. -/
theorem deleteAddrIfPresent_quiet {changed : Bool}
    (h : (deleteAddrIfPresent wan a).Run hostEnv w tr w' (.ok changed))
    (hnone : ∀ e ∈ tr, ¬ ChangesAddr e) : ¬ (w.addrs wan).Has a := by
  obtain ⟨existing, w₁, tr₁, tr₂, rfl, hlist, hrest⟩ := Prog.run_bind_ok.1 h
  obtain ⟨rfl, -, hmem⟩ := interfaceAddresses_run hlist
  split at hrest
  · rename_i hout
    exact mt (hmem existing rfl a).2 hout
  · obtain ⟨output, w₂, tr₃, tr₄, rfl, hdel, -⟩ := Prog.run_bind_ok.1 hrest
    obtain ⟨r, rfl, -, hx⟩ := runIp_run hdel
    exact absurd (succeeded_of_ok hx.symm).2 (hnone ⟨.ip (.del wan a), r⟩ (by simp))

/-- **A loop that returns and changed nothing** found every address as its mapping wants it. -/
theorem syncAddresses_quiet {changes : List String × List String}
    (h : (syncAddresses wan ms).Run hostEnv w tr w' (.ok changes)) (hnone : ∀ e ∈ tr, ¬ ChangesAddr e) :
    ∀ m ∈ ms, (Wants m → (w.addrs wan).Has m.edgePrivateIp) ∧ (Unwants m → ¬ (w.addrs wan).Has m.edgePrivateIp) := by
  induction ms generalizing w tr w' changes with
  | nil => simp
  | cons m ms ih =>
    unfold syncAddresses at h
    split at h
    · rename_i hwants
      obtain ⟨changed, w₁, tr₁, tr₂, rfl, hens, hrest⟩ := Prog.run_bind_ok.1 h
      obtain ⟨later, w₂, tr₃, tr₄, rfl, hloop, -⟩ := Prog.run_bind_ok.1 hrest
      simp only [List.forall_mem_append] at hnone
      have hhas := ensureAddr_quiet hens hnone.1
      obtain rfl : w₁ = w := by rw [ensureAddr_ok hens, if_pos hhas]
      exact List.forall_mem_cons.2 ⟨⟨fun _ => hhas, fun hu => absurd hu (not_unwants_of_wants hwants)⟩,
        ih hloop hnone.2.1⟩
    rename_i hwants
    split at h
    · rename_i hb
      obtain ⟨changed, w₁, tr₁, tr₂, rfl, hdel, hrest⟩ := Prog.run_bind_ok.1 h
      obtain ⟨later, w₂, tr₃, tr₄, rfl, hloop, -⟩ := Prog.run_bind_ok.1 hrest
      simp only [List.forall_mem_append] at hnone
      have hno := deleteAddrIfPresent_quiet hdel hnone.1
      obtain rfl : w₁ = w := by rw [deleteAddrIfPresent_ok hdel, if_neg hno]
      exact List.forall_mem_cons.2 ⟨⟨fun hw => absurd hw hwants, fun _ => hno⟩, ih hloop hnone.2.1⟩
    · rename_i hb
      exact List.forall_mem_cons.2 ⟨⟨fun hw => absurd hw hwants, fun hu => absurd hu.2 hb⟩, ih h hnone⟩

/-- The addresses are what the mappings want. -/
structure Stable (t : AddrTable) (ms : List Mapping) : Prop where
  wanted : ∀ m ∈ ms, Wants m → t.Has m.edgePrivateIp
  unwanted : ∀ m ∈ ms, Unwants m → .host m.edgePrivateIp ∉ t.entries

/-- **The loop leaves addresses alone that are what the mappings want**, whether it returns or not. -/
theorem syncAddresses_stable {x : Except ReconcileError (List String × List String)}
    (hs : Stable (w.addrs wan) ms) (h : (syncAddresses wan ms).Run hostEnv w tr w' x) :
    w' = w ∧ ∀ e ∈ tr, ¬ ChangesAddr e := by
  induction ms generalizing w tr x with
  | nil =>
    obtain ⟨rfl, rfl, -⟩ := Prog.run_ret.1 h
    simp
  | cons m ms ih =>
    have hs' : Stable (w.addrs wan) ms :=
      ⟨fun m' hm' => hs.wanted m' (List.mem_cons_of_mem _ hm'),
        fun m' hm' => hs.unwanted m' (List.mem_cons_of_mem _ hm')⟩
    -- the rest of the loop, after a first round that changed nothing
    have hrest : ∀ {tr x} {f : List String × List String → List String × List String},
        ((syncAddresses wan ms).bind fun later => .ret (f later)).Run hostEnv w tr w' x →
        w' = w ∧ ∀ e ∈ tr, ¬ ChangesAddr e := by
      intro tr x f h
      rcases Prog.run_bind.1 h with ⟨later, w₂, tr₁, tr₂, rfl, hloop, hret⟩ | ⟨e, rfl, hloop⟩
      · obtain ⟨rfl, rfl, -⟩ := Prog.run_ret.1 hret
        rw [List.append_nil]
        exact ih hs' hloop
      · exact ih hs' hloop
    unfold syncAddresses at h
    split at h
    · rename_i hwants
      have hhas := hs.wanted m List.mem_cons_self hwants
      rcases Prog.run_bind.1 h with ⟨changed, w₁, tr₁, tr₂, rfl, hens, hnext⟩ | ⟨e, rfl, hens⟩
      · obtain ⟨rfl, hnone⟩ := ensureAddr_has hhas hens
        obtain ⟨rfl, hnone'⟩ := hrest hnext
        exact ⟨rfl, fun e he => (List.mem_append.1 he).elim (hnone e) (hnone' e)⟩
      · exact ensureAddr_has hhas hens
    rename_i hwants
    split at h
    · rename_i hb
      have habsent := hs.unwanted m List.mem_cons_self ((not_wants_iff hb).1 hwants)
      rcases Prog.run_bind.1 h with ⟨changed, w₁, tr₁, tr₂, rfl, hdel, hnext⟩ | ⟨e, rfl, hdel⟩
      · obtain ⟨rfl, hnone⟩ := deleteAddrIfPresent_absent habsent hdel
        obtain ⟨rfl, hnone'⟩ := hrest hnext
        exact ⟨rfl, fun e he => (List.mem_append.1 he).elim (hnone e) (hnone' e)⟩
      · exact deleteAddrIfPresent_absent habsent hdel
    · exact ih hs' h

/-! ## What the loop arrives at -/

/-- An address is wanted by one mapping of the list and unwanted by another. -/
def Mixed (ms : List Mapping) : Prop :=
  ∃ m ∈ ms, ∃ m' ∈ ms, Wants m ∧ Unwants m' ∧ m.edgePrivateIp = m'.edgePrivateIp

instance : Decidable (Mixed ms) :=
  inferInstanceAs (Decidable (∃ m ∈ ms, ∃ m' ∈ ms, Wants m ∧ Unwants m' ∧ m.edgePrivateIp = m'.edgePrivateIp))

theorem has_syncEntry (hm : Unwants m → m.edgePrivateIp ≠ a) (h : t.Has a) : (syncEntry m t).Has a := by
  unfold syncEntry
  split
  · split
    · exact h
    · obtain ⟨entry, hmem, haddr⟩ := h
      exact ⟨entry, AddrTable.mem_add.2 (.inl hmem), haddr⟩
  split
  · rename_i hunwants
    split
    · obtain ⟨entry, hmem, haddr⟩ := h
      refine ⟨entry, AddrTable.mem_del.2 ⟨hmem, ?_⟩, haddr⟩
      rintro rfl
      exact hm hunwants haddr
    · exact h
  · exact h

theorem has_syncTable (hms : ∀ m ∈ ms, Unwants m → m.edgePrivateIp ≠ a) (h : t.Has a) :
    (syncTable ms t).Has a := by
  induction ms generalizing t with
  | nil => exact h
  | cons m ms ih =>
    rw [List.forall_mem_cons] at hms
    exact ih hms.2 (has_syncEntry hms.1 h)

/-- A wanted address that is not unwanted is there after the loop. -/
theorem has_of_wants (hms : ∀ m ∈ ms, Unwants m → m.edgePrivateIp ≠ a) (hm : m ∈ ms) (hw : Wants m)
    (ha : m.edgePrivateIp = a) : (syncTable ms t).Has a := by
  induction ms generalizing t with
  | nil => cases hm
  | cons m' ms ih =>
    rw [List.forall_mem_cons] at hms
    rcases List.mem_cons.1 hm with rfl | hm
    · rw [syncTable]
      refine has_syncTable hms.2 ?_
      rw [syncEntry, if_pos hw, ha]
      split
      · assumption
      · exact ⟨.host a, AddrTable.mem_add.2 (.inr rfl), rfl⟩
    · exact ih hms.2 hm

theorem absent_syncEntry (hm : Wants m → m.edgePrivateIp ≠ a) (h : .host a ∉ t.entries) :
    .host a ∉ (syncEntry m t).entries := by
  unfold syncEntry
  split
  · rename_i hwants
    split
    · exact h
    · intro hmem
      rcases AddrTable.mem_add.1 hmem with hmem | heq
      · exact h hmem
      · exact hm hwants (congrArg InetAddr.addr heq).symm
  split
  · split
    · exact fun hmem => h (AddrTable.mem_del.1 hmem).1
    · exact h
  · exact h

theorem absent_syncTable (hms : ∀ m ∈ ms, Wants m → m.edgePrivateIp ≠ a) (h : .host a ∉ t.entries) :
    .host a ∉ (syncTable ms t).entries := by
  induction ms generalizing t with
  | nil => exact h
  | cons m ms ih =>
    rw [List.forall_mem_cons] at hms
    exact ih hms.2 (absent_syncEntry hms.1 h)

/-- An unwanted address that is not wanted is gone after the loop. -/
theorem absent_of_unwants (hms : ∀ m ∈ ms, Wants m → m.edgePrivateIp ≠ a) (hm : m ∈ ms) (hu : Unwants m)
    (ha : m.edgePrivateIp = a) : .host a ∉ (syncTable ms t).entries := by
  induction ms generalizing t with
  | nil => cases hm
  | cons m' ms ih =>
    rw [List.forall_mem_cons] at hms
    rcases List.mem_cons.1 hm with rfl | hm
    · rw [syncTable]
      refine absent_syncTable hms.2 ?_
      rw [syncEntry, if_neg fun hw => not_unwants_of_wants hw hu, if_pos hu, ha]
      split
      · exact fun hmem => (AddrTable.mem_del.1 hmem).2 rfl
      · rename_i hno
        exact fun hmem => hno (has_of_host hmem)
    · exact ih hms.2 hm

/-- **Where no address is wanted and unwanted at once, the loop makes what the mappings want.** -/
theorem syncTable_stable (h : ¬ Mixed ms) : Stable (syncTable ms t) ms where
  wanted m hm hw := has_of_wants (fun m' hm' hu heq => h ⟨m, hm, m', hm', hw, hu, heq.symm⟩) hm hw rfl
  unwanted m hm hu := absent_of_unwants (fun m' hm' hw heq => h ⟨m', hm', m, hm, hw, hu, heq⟩) hm hu rfl

end EdgeRoute
