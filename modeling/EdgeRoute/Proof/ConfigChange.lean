import EdgeRoute.Proof.Concurrent
import EdgeRoute.Spec.Memory

/-!
# A new config under stored mappings

A new config changes which mappings are valid, for all rows at once.

* `memory_setEdgeConfig`: the store in memory takes a config only where every mapping passes under it.
* `keeps_together_iff`: **the SQLite store keeps config and mappings together exactly where the config is
  refused or every stored mapping passes under it.**
-/

namespace EdgeRoute

open Effect

variable {C : Codec} {config : EdgeConfig} {db db' : Db} {tr : List (Event StoreSig)} {α : Type}

/-- The store in memory takes a config where every mapping passes under it, and refuses it otherwise. -/
theorem memory_setEdgeConfig {store store' : InMemoryStateStore} :
    store.setEdgeConfig config = .ok store' ↔ validateEdgeConfig config = .ok () ∧
      (∀ m ∈ store.mappings, validateMapping m config = .ok ()) ∧
        store' = { store with edgeConfig := some config } := by
  unfold InMemoryStateStore.setEdgeConfig
  rw [except_seq_ok, except_seq_ok, validateEach_ok, Except.ok.injEq, eq_comm (a := store')]

/-! ## The SQLite store -/

/-- A row that can be read as the mapping. -/
def Db.Stores (C : Codec) (db : Db) (m : Mapping) : Prop := ∃ row ∈ db.mappings.rows, C.rowToMapping row = .ok m

/-- Every stored mapping passes under the config. -/
def Db.Fits (C : Codec) (db : Db) (config : EdgeConfig) : Prop :=
  ∀ m, db.Stores C m → validateMapping m config = .ok ()

/-- **Config and mappings stay together**: where a call for a new config returns, every stored mapping passes
under it; and where one does not, the call fails and the stored config is as before. -/
def KeepsTogether (C : Codec) (config : EdgeConfig) (db : Db) (p : StoreProg α) : Prop :=
  ∀ tr db' x, p.Run storeEnv db tr db' x →
    ((∃ a, x = .ok a) → db'.Fits C config) ∧ (¬ db.Fits C config → (∃ e, x = .error e) ∧ db'.config = db.config)

/-- The config passes its own check and can be written. -/
def Takes (C : Codec) (config : EdgeConfig) : Prop :=
  validateEdgeConfig config = .ok () ∧ ∃ value, C.configToJson config = .ok value

/-- `set_edge_config` that returns has stored the config and left the rows alone; one that fails has changed
nothing. -/
theorem setEdgeConfig_run {x : Except EdgeCoreError Unit} (h : (setEdgeConfig C config).Run storeEnv db tr db' x) :
    (x = .ok () ∧ Takes C config ∧ db'.mappings = db.mappings) ∨ ((∃ e, x = .error e) ∧ db' = db) := by
  rcases Prog.run_bind.1 h with ⟨u, db₁, tr₁, tr₂, rfl, hv, hrest⟩ | ⟨e, rfl, hv⟩
  · obtain ⟨rfl, rfl, hok⟩ := Prog.run_ofExcept.1 hv
    rcases Prog.run_bind.1 hrest with ⟨value, db₂, tr₃, tr₄, rfl, henc, hsql⟩ | ⟨e, rfl, henc⟩
    · obtain ⟨rfl, rfl, hvalue⟩ := Prog.run_ofExcept.1 henc
      obtain ⟨r, db₃, tr₅, rfl, hE, hret⟩ := Prog.run_call.1 hsql
      obtain ⟨rfl, rfl, rfl⟩ := Prog.run_ofExcept.1 hret
      rcases hE with hexec | ⟨message, rfl, rfl⟩
      · cases hexec
        refine .inl ⟨rfl, ⟨hok.symm, ?_⟩, rfl⟩
        cases hj : C.configToJson config with
        | ok value => exact ⟨value, rfl⟩
        | error e => rw [hj] at hvalue; cases hvalue
      · exact .inr ⟨⟨_, rfl⟩, rfl⟩
    · obtain ⟨-, rfl, -⟩ := Prog.run_ofExcept.1 henc
      exact .inr ⟨⟨e, rfl⟩, rfl⟩
  · obtain ⟨-, rfl, -⟩ := Prog.run_ofExcept.1 hv
    exact .inr ⟨⟨e, rfl⟩, rfl⟩

/-- A config that can be taken is taken, whatever the rows are. -/
theorem setEdgeConfig_can (db : Db) (h : Takes C config) :
    (setEdgeConfig C config).Can storeEnv db fun db' _ => db'.mappings = db.mappings := by
  obtain ⟨hv, value, hj⟩ := h
  refine Prog.can_bind (Prog.can_ofExcept hv (Prog.can_bind (Prog.can_ofExcept (a := value) ?_ ?_)))
  · rw [hj]; rfl
  · exact Prog.can_call (.inl rfl) (Prog.can_ret rfl)

/-- A program that only goes on to return keeps together what its first part does. -/
theorem keepsTogether_bind_ret {β : Type} {p : StoreProg α} {b : β} :
    KeepsTogether C config db (p.bind fun _ => .ret b) ↔ KeepsTogether C config db p := by
  constructor
  · intro h tr db' x hr
    cases x with
    | ok a =>
      have hrun : (p.bind fun _ => .ret b).Run storeEnv db (tr ++ []) db' (.ok b) :=
        Prog.run_bind_ok.2 ⟨a, db', tr, [], rfl, hr, Prog.run_ret.2 ⟨rfl, rfl, rfl⟩⟩
      obtain ⟨hok, hbad⟩ := h _ _ _ hrun
      exact ⟨fun _ => hok ⟨b, rfl⟩, fun hf => (hbad hf).1.elim fun e he => nomatch he⟩
    | error e =>
      obtain ⟨-, hbad⟩ := h _ _ _ (Prog.run_bind.2 (.inr ⟨e, rfl, hr⟩))
      exact ⟨fun ⟨a, ha⟩ => (nomatch ha), fun hf => ⟨⟨e, rfl⟩, (hbad hf).2⟩⟩
  · intro h tr db' x hr
    rcases Prog.run_bind.1 hr with ⟨a, db₁, tr₁, tr₂, rfl, hp, hret⟩ | ⟨e, rfl, hp⟩
    · obtain ⟨rfl, rfl, rfl⟩ := Prog.run_ret.1 hret
      obtain ⟨hok, hbad⟩ := h _ _ _ hp
      exact ⟨fun _ => hok ⟨a, rfl⟩, fun hf => (hbad hf).1.elim fun e he => nomatch he⟩
    · exact ⟨fun ⟨b, hb⟩ => (nomatch hb), fun hf => ⟨⟨e, rfl⟩, ((h _ _ _ hp).2 hf).2⟩⟩

theorem setEdgeConfig_keeps_iff :
    KeepsTogether C config db (setEdgeConfig C config) ↔ ¬ Takes C config ∨ db.Fits C config := by
  constructor
  · intro h
    by_cases ht : Takes C config
    · obtain ⟨tr, db', u, hr, hrows⟩ := setEdgeConfig_can db ht
      refine .inr fun m hm => (h _ _ _ hr).1 ⟨u, rfl⟩ m ?_
      unfold Db.Stores
      rw [hrows]
      exact hm
    · exact .inl ht
  · intro h tr db' x hr
    rcases setEdgeConfig_run hr with ⟨rfl, ht, hrows⟩ | ⟨⟨e, rfl⟩, rfl⟩
    · have hfits := h.resolve_left (not_not.2 ht)
      refine ⟨fun _ m hm => hfits m ?_, fun hf => absurd hfits hf⟩
      unfold Db.Stores at hm
      rwa [hrows] at hm
    · exact ⟨fun ⟨a, ha⟩ => (nomatch ha), fun _ => ⟨⟨e, rfl⟩, rfl⟩⟩

/-- **The SQLite store keeps config and mappings together exactly where** the config is refused for itself or
every stored mapping passes under it; and so does the start of the agent with an authoritative config. -/
theorem keeps_together_iff (C : Codec) (config : EdgeConfig) (db : Db) :
    (KeepsTogether C config db (setEdgeConfig C config) ↔ ¬ Takes C config ∨ db.Fits C config) ∧
      (KeepsTogether C config db (resolveEdgeConfig C config true) ↔ ¬ Takes C config ∨ db.Fits C config) :=
  ⟨setEdgeConfig_keeps_iff, keepsTogether_bind_ret.trans setEdgeConfig_keeps_iff⟩

/-! ## A config for another network -/

theorem mask_le : 24 ≤ 32 := by decide

def otherConfig : EdgeConfig := { sampleConfig with targetCidrs := [⟨⟨10, 10, 40, 0⟩, 24, mask_le⟩] }

def otherJson : String :=
  "\x7b\"wan_interface\":\"ens3\",\"netbird_interface\":\"wt0\",\"target_cidrs\":[\"10.10.40.0/24\"]," ++
    "\"oci_compartment_id\":null,\"oci_vnic_id\":null,\"oci_subnet_id\":null,\"oci_nsg_ids\":[]," ++
    "\"oci_region\":null,\"oci_auth\":\"instance_principal\",\"api_token\":null\x7d"

/-- The sample codec, with a second config. -/
def twoConfigs : Codec :=
  { sampleCodec with
    configToJson := fun c => if c = otherConfig then .ok otherJson else sampleCodec.configToJson c
    configFromJson := fun s => if s = otherJson then .ok otherConfig else sampleCodec.configFromJson s
    json_inverse := fun {c s} h => by
      split at h
      · rename_i hc; cases h; rw [if_pos rfl, hc]
      · have hs : s = sampleJson := by
          simp only [sampleCodec] at h
          split at h
          · exact (Except.ok.inj h).symm
          · cases h
        rw [if_neg (by rw [hs]; decide)]
        exact sampleCodec.json_inverse h }

/-- A client stores a service for the sample network. -/
def storeService (schedule : List ℕ) : List (ℕ × Event StoreSig) × (ℕ → StoreProg Unit) × Db :=
  steps sampleHandler schedule ([], fun i => (sampleCalls [.insert samplePortForward] i).prog twoConfigs, sampleDb)

theorem storeService_reach (schedule : List ℕ) :
    Reach storeEnv (fun i => (sampleCalls [.insert samplePortForward] i).prog twoConfigs) sampleDb
      (storeService schedule).1 (storeService schedule).2.1 (storeService schedule).2.2 :=
  steps_reach sampleHandler_env schedule _ .init

/-- **A config is taken under which a stored mapping does not pass.** -/
theorem taken_under_stored_mapping : ∃ (calls : ℕ → StoreCall) (tr : List (ℕ × Event StoreSig))
    (pool : ℕ → StoreProg Unit) (db : Db),
    Reach storeEnv (fun i => (calls i).prog twoConfigs) sampleDb tr pool db ∧
      ¬ KeepsTogether twoConfigs otherConfig db (setEdgeConfig twoConfigs otherConfig) := by
  refine ⟨_, _, _, _, storeService_reach [0, 0, 0], fun h => ?_⟩
  have hbad : ∃ row ∈ (storeService [0, 0, 0]).2.2.mappings.rows, (twoConfigs.rowToMapping row).toOption.any
      (fun m => decide (validateMapping m otherConfig ≠ .ok ())) = true := by
    decide +kernel
  obtain ⟨row, hrow, hany⟩ := hbad
  obtain ⟨m, hm, hv⟩ := (Option.any_eq_true _ _).1 hany
  have hdec : twoConfigs.rowToMapping row = .ok m := by
    cases hr : twoConfigs.rowToMapping row with
    | ok m' => rw [hr] at hm; cases hm; rfl
    | error e => rw [hr] at hm; cases hm
  have htakes : Takes twoConfigs otherConfig := ⟨by decide, otherJson, by simp [twoConfigs]⟩
  exact of_decide_eq_true hv ((setEdgeConfig_keeps_iff.1 h).resolve_left (not_not.2 htakes) m ⟨row, hrow, hdec⟩)

end EdgeRoute
