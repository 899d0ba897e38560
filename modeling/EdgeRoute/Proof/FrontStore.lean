import EdgeRoute.Proof.Fronts
import EdgeRoute.Proof.Planes
import EdgeRoute.Proof.Stored

/-!
# The store behind both front ends

The calls of the API and the command line write mappings in many ways: a create, an allocation, a release, the health
loop of a reconcile. All of them go through the store methods.

* `fronts_stored`: the calls of both front ends keep to the monitor of the store.
* `fronts_listing`: **whatever they do, the mappings can be listed, and the enabled ones are apart.**
-/

namespace EdgeRoute

open Effect

variable {C : Codec} {J : OciJson} {N : String → Except String NetbirdStatus} {D : Option OciError → String}
  {ε α : Type} {calls : ℕ → FrontCall} {pool : ℕ → AgentProg FrontFailure Unit} {w₀ w w' : AgentWorld}
  {tr : List (ℕ × Event AgentSig)}

/-! ## The monitor of the store, on a front end -/

/-- The operations of a call that the store sees. -/
def frontStore (C : Codec) : Monitor AgentSig Checked where
  allow q o := match o with
    | .host (.store o) => (storeMonitor C).allow q o
    | _ => True
  next q e := match e with
    | ⟨.host (.store o), r⟩ => (storeMonitor C).next q ⟨o, r⟩
    | _ => q

theorem onStore_stored {p : StoreProg α} (h : p.Keeps (storeMonitor C)) : (onStore p).Keeps (frontStore C) := by
  have hembed : (p.embed (T := AgentSig) (fun o => .host (.store o)) fun _ r => r).Keeps (frontStore C) :=
    Prog.keeps_embed (M := storeMonitor C) (N := frontStore C) (fun _ _ ho => ho) (fun _ _ _ => rfl) h
  unfold onStore liftHost
  rw [Prog.embed_embed]
  exact hembed

theorem storeCall_stored (call : StoreCall) : (call.prog C).Keeps (storeMonitor C) := prog_ok call

theorem stored_of_uses {p : StoreProg α} (h : p.Uses fun o => ∀ q, (storeMonitor C).allow q o) :
    (onStore p).Keeps (frontStore C) := onStore_stored (Prog.keeps_of_uses h)

/-- What a reconcile or a rollback asks for is allowed at any time. -/
theorem stored_all : AdmitsAll C fun o => ∀ q, (frontStore C).allow q (.host o) where
  now _ := trivial
  event _ _ _ _ _ := trivial
  generation _ _ _ _ _ _ _ := trivial
  write _ _ _ := trivial
  nft _ _ _ := trivial
  active _ _ _ _ _ := trivial
  connect _ _ _ := trivial
  row _ _ := trivial
  health _ _ _ _ _ _ _ hok _ := hok
  listing _ := trivial
  ip _ _ := trivial

theorem parts_stored : AcceptsParts C (frontStore C) where
  beside o ho q := by cases o <;> first | trivial | exact absurd trivial ho
  now _ := trivial
  listMappings := stored_of_uses (Prog.uses_bind (uses_sql (s := .selectMappings) fun _ => trivial) fun _ =>
    Prog.uses_ofExcept)
  getMapping _ := stored_of_uses (getMapping_uses C fun _ => trivial)
  insertMapping m := onStore_stored (storeCall_stored (.insert m))
  updateMapping m := onStore_stored (storeCall_stored (.update m))
  deleteMapping id := onStore_stored (Prog.keeps_of_bind (storeCall_stored (.delete id)))
  setMappingEnabled id enabled := onStore_stored (Prog.keeps_of_bind (storeCall_stored (.setEnabled id enabled)))
  resolveEdgeConfig _ _ := stored_of_uses (resolveEdgeConfig_uses (fun _ => trivial) fun _ _ => trivial)
  recordEvent _ _ _ := stored_of_uses (recordEvent_uses C (fun _ => trivial) fun _ _ _ => trivial)
  reconcile _ _ := Prog.keeps_of_uses (liftHost_uses (reconcile_uses stored_all))
  rollback _ _ := Prog.keeps_of_uses (liftHost_uses (rollback_uses (C := C) stored_all.toAdmitsLoad fun _ => trivial))

/-- **The calls of both front ends keep to the monitor of the store.** -/
theorem fronts_stored (call : FrontCall) : (call.prog C J N D).Keeps (frontStore C) := front_keeps parts_stored call

/-! ## Invariants of the table -/

/-- What an operation of a front end does to the mappings. -/
theorem table_of_agentEnv {o : AgentOp} {r : o.Reply} (hE : agentEnv J w o r w') :
    w'.host.db.mappings = w.host.db.mappings ∨
      ∃ (so : StoreOp) (sr : so.Reply), (⟨o, r⟩ : Event AgentSig) = ⟨.host (.store so), sr⟩ ∧
        TableStep w.host.db.mappings w'.host.db.mappings ⟨so, sr⟩ := by
  cases o with
  | host o =>
    obtain ⟨host, hE, rfl⟩ := hE
    by_cases ho : o.IsStore
    · cases o with
      | store so =>
        obtain ⟨db', hdb, rfl⟩ := hE
        exact .inr ⟨so, r, rfl, storeEnv_step hdb⟩
      | _ => exact absurd ho id
    · exact .inl (congrArg Db.mappings (db_of_hostEnv ho hE))
  | oci command => obtain ⟨cloud, -, rfl⟩ := hE; exact .inl rfl
  | selectEvents limit => rw [hE.1]; exact .inl rfl
  | newId | netbirdStatus | routeGet target | envVar name => rw [show w' = w from hE]; exact .inl rfl

/-- **The enabled rows stay apart** in every interleaving of programs that keep to the monitor of the store. -/
theorem enabledApart_reach {progs pool : ℕ → AgentProg ε α} (hprogs : ∀ i, (progs i).Keeps (frontStore C))
    (h0 : EnabledApart C w₀.host.db.mappings) (hr : Reach (agentEnv J) progs w₀ tr pool w) :
    EnabledApart C w.host.db.mappings := by
  refine hr.keeps_inv (M := frontStore C) none hprogs (fun _ w => EnabledApart C w.host.db.mappings) h0 ?_
  intro tr w i o r w' hI hallow hE
  rcases table_of_agentEnv hE with h | ⟨so, sr, he, hstep⟩
  · rw [h]
    exact hI
  · cases he
    exact step_enabledApart (q := (frontStore C).after none (own i tr)) (e := ⟨so, sr⟩) hI hallow hstep

/-! ## The listing -/

/-- Two mappings of a listing. -/
def Separate (m m' : Mapping) : Prop :=
  m.id ≠ m'.id ∧ (m.enabled = true → m'.enabled = true → conflicts m m' = false ∧ sharesPublicIp m m' = false)

/-- Rows whose enabled ones are apart are listed so. -/
theorem separate_of_enabledApart {db : Db} (h : EnabledApart C db.mappings) :
    ∃ ms, decodeRows C db.listed = .ok ms ∧ (∀ m ∈ ms, validateMode m = .ok ()) ∧ ms.Pairwise Separate := by
  have hperm := List.perm_insertionSort Row.Before db.mappings.rows
  have hmem : ∀ row ∈ db.listed, ∃ m, Encodes C row m ∧ validateMode m = .ok () := fun row hrow =>
    h.stored row (hperm.mem_iff.1 hrow)
  obtain ⟨ms, hms⟩ := decodeRows_total fun row hrow => (hmem row hrow).imp fun _ he => he.1.decoded
  have hrows := decodeRows_forall₂.1 hms
  have hencodes : ∀ row ∈ db.listed, ∀ m, C.rowToMapping row = .ok m → Encodes C row m := by
    intro row hrow m hm
    obtain ⟨m', he, -⟩ := hmem row hrow
    obtain rfl := Except.ok.inj (he.decoded.symm.trans hm)
    exact he
  have hids : db.listed.Pairwise fun row row' => row.id ≠ row'.id := by
    have hnodup := db.mappings.nodup
    rw [List.Nodup, List.pairwise_map] at hnodup
    exact (hperm.pairwise_iff fun h => h.symm).2 hnodup
  have hmode : ∀ m ∈ ms, validateMode m = .ok () := by
    intro m hm
    obtain ⟨row, hrow, hdec⟩ := forall₂_mem hrows hm
    obtain ⟨m', he, hv⟩ := hmem row hrow
    obtain rfl := Except.ok.inj (he.decoded.symm.trans hdec)
    exact hv
  refine ⟨ms, hms, hmode, forall₂_pairwise hrows hids ?_⟩
  intro row hrow row' hrow' m m' hm hm' hid
  have he := hencodes row hrow m hm
  have he' := hencodes row' hrow' m' hm'
  refine ⟨fun hmid => hid ?_, fun hen hen' => ?_⟩
  · rw [he.id, he'.id, hmid]
  · have hapart := h.apart row (hperm.mem_iff.1 hrow) row' (hperm.mem_iff.1 hrow') hid m m' he he'
    constructor
    · by_contra hc
      exact hapart ⟨hen, hen', .inl (by simpa using hc)⟩
    · by_contra hc
      exact hapart ⟨hen, hen', .inr (by simpa using hc)⟩

/-- **Both front ends keep the mappings listable and the enabled ones apart.** Whatever calls of the API and the
command line run on a store without mappings, however their operations interleave and whichever of them fail:
`list_mappings` can decode every row, each mapping has a well-formed mode, no two have one id, and no two enabled ones
conflict or share a public address that one of them owns. -/
theorem fronts_listing (h0 : w₀.host.db.mappings = .empty)
    (hr : Reach (agentEnv J) (fun i => (calls i).prog C J N D) w₀ tr pool w) :
    ∃ ms, decodeRows C w.host.db.listed = .ok ms ∧ (∀ m ∈ ms, validateMode m = .ok ()) ∧ ms.Pairwise Separate := by
  refine separate_of_enabledApart (enabledApart_reach (fun i => fronts_stored (calls i)) ?_ hr)
  rw [h0]
  exact .empty

/-- The id that comes after that of the sample. -/
def nextAnswer : Handler AgentSig AgentWorld
  | w, .newId => (⟨"vm2", by decide, by decide⟩, w)
  | w, o => agentAnswer w o

theorem nextAnswer_env (w : AgentWorld) (o : AgentSig.Op) :
    agentEnv sampleOciJson w o (nextAnswer w o).1 (nextAnswer w o).2 := by
  cases o with
  | newId => exact rfl
  | host | oci | selectEvents | netbirdStatus | routeGet | envVar => exact agentAnswer_env w _

/-- The create of the sample, and one for another target. -/
def createCalls : ℕ → FrontCall
  | 0 => .api sampleConfig [] sampleCreate
  | _ => .api sampleConfig []
    (.createMapping { name := "prod_vm_2", edgePrivateIp := ⟨10, 0, 0, 102⟩, targetIp := ⟨192, 168, 20, 43⟩ })

/-- The second create, after the first. -/
@[irreducible] def secondCreate : List (Event AgentSig) × AgentWorld × Except FrontFailure Unit :=
  (sampleProg (createCalls 1)).eval nextAnswer createdAgent

theorem secondCreate_facts : secondCreate.2.2 = .ok () ∧
    secondCreate.2.1.host.db.mappings.rows.map (fun row => (row.id, row.enabled)) = [("vm", 1), ("vm2", 1)] := by
  decide +kernel

theorem secondCreate_run : (sampleProg (createCalls 1)).Run (agentEnv sampleOciJson) createdAgent secondCreate.1
    secondCreate.2.1 (.ok ()) := by
  rw [← secondCreate_facts.1]
  unfold secondCreate
  exact eval_run nextAnswer_env _ _

/-- After two creates there are two enabled mappings to list, and they are apart. -/
theorem fronts_listing_created : ∃ tr pool w ms,
    Reach (agentEnv sampleOciJson) (fun i => sampleProg (createCalls i)) emptyAgent tr pool w ∧
      w.host.db.mappings.rows.map (fun row => (row.id, row.enabled)) = [("vm", 1), ("vm2", 1)] ∧
      decodeRows sampleCodec w.host.db.listed = .ok ms ∧ ms.length = 2 ∧ ms.Pairwise Separate := by
  have h₀ : Reach (agentEnv sampleOciJson) (fun i => sampleProg (createCalls i)) emptyAgent [] _ emptyAgent := .init
  have h₁ := h₀.run (i := 0) (Prog.bind_ret_right _).symm created_run
  have h₂ := h₁.run (i := 1) (Prog.bind_ret_right (sampleProg (createCalls 1))).symm secondCreate_run
  obtain ⟨ms, hms, -, hsep⟩ := fronts_listing rfl h₂
  refine ⟨_, _, _, ms, h₂, secondCreate_facts.2, hms, ?_, hsep⟩
  have hlength := congrArg List.length secondCreate_facts.2
  rw [List.length_map] at hlength
  exact (decodeRows_forall₂.1 hms).length_eq.symm.trans ((List.perm_insertionSort Row.Before _).length_eq.trans hlength)

end EdgeRoute
