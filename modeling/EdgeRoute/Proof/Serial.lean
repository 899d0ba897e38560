import EdgeRoute.Lib.Turns
import EdgeRoute.Proof.Leftovers
import EdgeRoute.Proof.Origin

/-!
# Calls on one mapping, one after the other

An allocation or a release reads the row, asks the cloud for seconds, and then writes every column back. Where no other
call writes the row in between, and no call fails half way, the calls could as well have run one after the other.

* `Undisturbed`: no call writes the row while another one is between its first look and its own write.
* `LeftNothing`: a call that did not return has undone what it did.
* `Sim`: the run up to a point, told in turn: the calls that have written, then the one that is at work.
* `serializable_of_undisturbed`: **under both, the calls that returned, one after the other in some order, lead to the
  same row and the same live addresses.**
* `serial_fails`: a release that is overtaken switches on again what another call has switched off, and one that fails
  half way has deleted an address although no call returned.
-/

namespace EdgeRoute

open Effect

variable {C : Codec} {J : OciJson} {N : String → Except String NetbirdStatus} {config : EdgeConfig} {id : MappingId}
  {w w' w₀ u v : AgentWorld} {a : Address} {calls : ℕ → RowCall} {pool : ℕ → ApiProg ApiResponse}
  {tr pre suf : List (ℕ × Event AgentSig)} {i j : ℕ} {ok : ℕ → Prop} {made : Address → Prop} {headers : HeaderMap}

/-! ## The condition -/

/-- The event only looks at the clock. -/
def IsClock : Event AgentSig → Prop
  | ⟨.host (.store .now), _⟩ => True
  | _ => False

instance : DecidablePred IsClock
  | ⟨.host (.store .now), _⟩ => .isTrue trivial
  | ⟨.host (.store (.sql _)), _⟩ | ⟨.host (.atomicWrite _ _), _⟩ | ⟨.host (.nft _ _), _⟩ | ⟨.host (.ip _), _⟩
  | ⟨.host (.connect _ _), _⟩ | ⟨.oci _, _⟩ | ⟨.selectEvents _, _⟩ | ⟨.newId, _⟩ | ⟨.netbirdStatus, _⟩
  | ⟨.routeGet _, _⟩ | ⟨.envVar _, _⟩ => .isFalse fun h => h

theorem isClock_iff {o : AgentOp} {r : o.Reply} : IsClock ⟨o, r⟩ ↔ o = .host (.store .now) := by
  refine ⟨fun h => ?_, by rintro rfl; trivial⟩
  cases o with
  | host o =>
    cases o with
    | store o =>
      cases o with
      | now => rfl
      | sql s => exact absurd h id
    | _ => exact absurd h id
  | _ => exact absurd h id

/-- The call has seen an event with the property. -/
def Saw (p : Event AgentSig → Prop) (tr : List (ℕ × Event AgentSig)) (i : ℕ) : Prop := ∃ e ∈ own i tr, p e

theorem saw_snoc {p : Event AgentSig → Prop} {e : Event AgentSig} :
    Saw p (tr ++ [(j, e)]) i ↔ Saw p tr i ∨ (i = j ∧ p e) := by
  unfold Saw
  by_cases hij : i = j
  · subst hij
    rw [own_snoc_self]
    constructor
    · rintro ⟨e', he', hp⟩
      rcases List.mem_append.1 he' with he' | he'
      · exact .inl ⟨e', he', hp⟩
      · exact .inr ⟨rfl, List.mem_singleton.1 he' ▸ hp⟩
    · rintro (⟨e', he', hp⟩ | ⟨-, hp⟩)
      · exact ⟨e', List.mem_append_left _ he', hp⟩
      · exact ⟨e, List.mem_append_right _ (List.mem_singleton_self _), hp⟩
  · rw [own_snoc_ne hij]
    exact ⟨.inl, fun h => h.resolve_right fun h' => hij h'.1⟩

/-- **No call is overtaken**: between the moment at which a call begins to look at the row and its own write, no other
call writes it. -/
def Undisturbed (tr : List (ℕ × Event AgentSig)) : Prop :=
  ∀ i j e₀ e' e, [(i, e₀), (j, e'), (i, e)].Sublist tr → ¬ IsClock e₀ → WritesRow e' → WritesRow e → j = i

/-- **The call has left nothing behind**: it has not written the row, the cloud has answered all that it asked for, and
it has deleted the addresses that it created and no others. -/
structure LeftNothing (J : OciJson) (es : List (Event AgentSig)) : Prop where
  unwritten : ∀ e ∈ es, ¬ WritesRow e
  answered : ∀ e ∈ es, Answered e
  own : ∀ e ∈ es, ∀ a, deletedBy e = some a → Made J es a
  undone : ∀ a, Made J es a → ∃ e ∈ es, deletedBy e = some a

/-- The address was created by a call that has not returned. -/
def Stray (J : OciJson) (ok : ℕ → Prop) (tr : List (ℕ × Event AgentSig)) (a : Address) : Prop :=
  ∃ i, ¬ ok i ∧ Made J (own i tr) a

/-- What a returned call has created is not astray. -/
theorem not_stray_of_made (hr : Reach (agentEnv J) (fun i => (calls i).prog C J N config id) w₀ tr pool w) (hi : ok i)
    (hmade : Made J (own i tr) a) : ¬ Stray J ok tr a := by
  rintro ⟨j, hj, e', he', ha'⟩
  obtain ⟨e, he, ha⟩ := hmade
  have hij := created_once hr (mem_own.1 he) (mem_own.1 he') ha ha'
  exact hj (hij ▸ hi)

theorem own_subset (hsub : ∀ x ∈ pre, x ∈ tr) : ∀ e ∈ own i pre, e ∈ own i tr := fun _ he =>
  mem_own.2 (hsub _ (mem_own.1 he))

section Names

variable (hon : ∀ i, (calls i).On id)
  (hr : Reach (agentEnv J) (fun i => (calls i).prog C J N config id) w₀ tr pool w)
  (hfail : ∀ i, ¬ ok i → LeftNothing J (own i tr))
  (hs : Starts C id w₀)
include hon hr hfail hs

/-- **No row names an address that is astray**, and no call has read such a row. -/
theorem names_not_stray {pool' : ℕ → ApiProg ApiResponse} (hsub : ∀ x ∈ pre, x ∈ tr)
    (hpre : Reach (agentEnv J) (fun i => (calls i).prog C J N config id) w₀ pre pool' w') :
    (∀ ref ∈ w'.host.db.refs, ∀ a, ref.Names a → ¬ Stray J ok tr a) ∧
      ∀ i a, ReadNamed (own i pre) a → ¬ Stray J ok tr a := by
  induction hpre with
  | init =>
    refine ⟨fun ref href a ha => ?_, fun i a h => ?_⟩
    · rintro ⟨i, -, e, he, hmade⟩
      exact (created_reach hr (mem_own.1 he) hmade).1 (hs.named ref href a ha)
    · obtain ⟨id, row, hmem, -⟩ := h
      cases hmem
  | @step pre pool' w' w'' j o k r hpre hp hE ih =>
    obtain ⟨hrefs, hread⟩ := ih fun x hx => hsub x (List.mem_append_left _ hx)
    refine ⟨fun ref href a ha => ?_, fun i a h => ?_⟩
    · rcases rowRefs_step (ofRow_next hon hpre hp) hE with h | ⟨cols, he, h⟩
      · rw [h] at href
        exact hrefs ref href a ha
      · rw [h] at href
        obtain ⟨old, hold, hnew⟩ := List.mem_map.1 href
        split at hnew
        · -- the write names what its call has created
          subst hnew
          have hj : ok j := by
            by_contra hj
            have hmem := hsub _ (List.mem_append_right _ (List.mem_singleton_self _))
            rw [he] at hmem
            exact (hfail j hj).unwritten _ (mem_own.2 hmem) one_ne_zero
          cases he
          have hmade := made_of_written hon (hpre.step hp hE) ha
          refine not_stray_of_made hr hj (hmade.imp fun e he => ⟨own_subset (fun x hx => ?_) e he.1, he.2⟩)
          exact hsub x (List.mem_append_left _ hx)
        · exact hrefs ref (hnew ▸ hold) a ha
    · obtain ⟨key, row, hmem, ha⟩ := h
      rcases List.mem_append.1 (mem_own.1 hmem) with hold | hnew
      · exact hread i a ⟨key, row, mem_own.2 hold, ha⟩
      · cases List.mem_singleton.1 hnew
        obtain ⟨host, ⟨db, hdb, rfl⟩, rfl⟩ := hE
        rcases hdb with hdb | ⟨message, hdb, -⟩
        · have hfind : w'.host.db.mappings.find key = some row := (Except.ok.inj (Prod.mk.inj hdb).1).symm
          exact hrefs row.ref (List.mem_map_of_mem (Sql.Table.find_some hfind).1) a ha
        · cases hdb

end Names

/-! ## The call that is at work -/

/-- A call that will return has begun to look at the row, and has not written it yet. -/
structure Open (ok : ℕ → Prop) (pre : List (ℕ × Event AgentSig)) (i : ℕ) : Prop where
  ok : ok i
  began : Saw (fun e => ¬ IsClock e) pre i
  unwritten : ¬ Saw WritesRow pre i

section Open

variable (hund : Undisturbed tr) (hwrites : ∀ i, ok i → Saw WritesRow tr i)
include hund hwrites

/-- The next write of the row after a call has begun is its own. -/
theorem next_write (hi : Open ok pre i) (htr : tr = pre ++ suf) :
    ∃ a b e, suf = a ++ (i, e) :: b ∧ WritesRow e ∧ ∀ j e', (j, e') ∈ a → WritesRow e' → j = i := by
  obtain ⟨e, he, hw⟩ := hwrites i hi.ok
  rw [htr, own_append] at he
  have hsuf : e ∈ own i suf := (List.mem_append.1 he).resolve_left fun h => hi.unwritten ⟨e, h, hw⟩
  obtain ⟨a, b, rfl⟩ := List.append_of_mem (mem_own.1 hsuf)
  refine ⟨a, b, e, rfl, hw, fun j e' he' hw' => ?_⟩
  obtain ⟨e₀, he₀, hclock⟩ := hi.began
  refine hund i j e₀ e' e ?_ hclock hw' hw
  rw [htr]
  exact (List.singleton_sublist.2 (mem_own.1 he₀)).append
    ((List.singleton_sublist.2 he').append (List.singleton_sublist.2 List.mem_cons_self))

/-- **One call at a time.** -/
theorem open_unique (hi : Open ok pre i) (hj : Open ok pre j) (htr : tr = pre ++ suf) : i = j := by
  by_contra hij
  -- the first of the two writes stands before that of the other call
  obtain ⟨a, b, e, rfl, hw, ha⟩ := next_write hund hwrites hi htr
  obtain ⟨a', b', e', hsplit, hw', ha'⟩ := next_write hund hwrites hj htr
  rcases List.append_eq_append_iff.1 hsplit with ⟨c, rfl, hc⟩ | ⟨c, rfl, hc⟩
  · cases c with
    | nil => exact hij (Prod.mk.inj (List.cons.inj hc).1).1
    | cons x c =>
      obtain ⟨rfl, -⟩ := List.cons.inj hc
      exact hij (ha' i e (by simp) hw)
  · cases c with
    | nil => exact hij (Prod.mk.inj (List.cons.inj hc).1).1.symm
    | cons x c =>
      obtain ⟨rfl, -⟩ := List.cons.inj hc
      exact hij (ha j e' (by simp) hw').symm

/-- No call is at work where another one writes the row. -/
theorem closed_at_write {e : Event AgentSig} (hw : WritesRow e) (htr : tr = pre ++ (j, e) :: suf) (hij : i ≠ j) :
    ¬ Open ok pre i := by
  intro hi
  obtain ⟨a, b, e', hsplit, -, ha⟩ := next_write hund hwrites hi htr
  cases a with
  | nil => exact hij (Prod.mk.inj (List.cons.inj hsplit).1).1.symm
  | cons x a =>
    obtain ⟨rfl, -⟩ := List.cons.inj hsplit
    exact hij (ha j e List.mem_cons_self hw).symm

/-- Nor where another one that will return looks at it. -/
theorem closed_at_look {e : Event AgentSig} (hj : ok j) (hno : ¬ Saw WritesRow pre j) (hw : ¬ WritesRow e)
    (hclock : ¬ IsClock e) (htr : tr = pre ++ (j, e) :: suf) (hij : i ≠ j) : ¬ Open ok pre i := by
  intro hi
  have hi' : Open ok (pre ++ [(j, e)]) i :=
    ⟨hi.ok, saw_snoc.2 (.inl hi.began), fun h => hi.unwritten ((saw_snoc.1 h).resolve_right fun h' => hij h'.1)⟩
  have hj' : Open ok (pre ++ [(j, e)]) j :=
    ⟨hj, saw_snoc.2 (.inr ⟨rfl, hclock⟩), fun h => (saw_snoc.1 h).elim hno fun h' => hw h'.2⟩
  exact hij (open_unique hund hwrites hi' hj' (htr.trans (List.append_cons ..)))

end Open

/-! ## The calls one after the other -/

/-- **The run so far, told in turn.** The calls that have written the row ran one after the other up to `v`; the call
at work has gone on from there to `u`, and `u` is the world without what the calls that do not return have created. -/
structure Sim (J : OciJson) (prog : ℕ → ApiProg ApiResponse) (w₀ : AgentWorld) (ok : ℕ → Prop) (made : Address → Prop)
    (pre : List (ℕ × Event AgentSig)) (w : AgentWorld) (ts : List (Turn AgentSig ApiFailure ApiResponse ℕ AgentWorld))
    (v u : AgentWorld) : Prop where
  turns : InTurn (agentEnv J) prog w₀ ts v
  returned : ∀ t ∈ ts, ∃ a, t.result = .ok a
  nodup : (ts.map Turn.call).Nodup
  mem : ∀ i, i ∈ ts.map Turn.call ↔ ok i ∧ Saw WritesRow pre i
  current : ∀ i, Open ok pre i → Follows (agentEnv J) v (own i pre) u
  idle : (∀ i, ¬ Open ok pre i) → u = v
  apart : Apart made w u

section Steps

variable {prog : ℕ → ApiProg ApiResponse} {ts : List (Turn AgentSig ApiFailure ApiResponse ℕ AgentWorld)}
  {e : Event AgentSig}

/-- An event of a call that has written the row, or will not return. -/
theorem Sim.beside (h : Sim J prog w₀ ok made pre w ts v u) (hj : ok j → Saw WritesRow pre j)
    (hapart : Apart made w' u) : Sim J prog w₀ ok made (pre ++ [(j, e)]) w' ts v u where
  turns := h.turns
  returned := h.returned
  nodup := h.nodup
  mem i := by
    rw [h.mem, saw_snoc]
    refine and_congr_right fun hi => ⟨.inl, fun hs => hs.elim (fun hs => hs) fun hs => ?_⟩
    rw [hs.1] at hi ⊢
    exact hj hi
  current i hi := by
    have hij : i ≠ j := by
      rintro rfl
      exact hi.unwritten (saw_snoc.2 (.inl (hj hi.ok)))
    rw [own_snoc_ne hij]
    refine h.current i ⟨hi.ok, ?_, fun hs => hi.unwritten (saw_snoc.2 (.inl hs))⟩
    exact (saw_snoc.1 hi.began).resolve_right fun h' => hij h'.1
  idle hidle := by
    refine h.idle fun i hi => ?_
    have hij : i ≠ j := by
      rintro rfl
      exact hi.unwritten (hj hi.ok)
    refine hidle i ⟨hi.ok, saw_snoc.2 (.inl hi.began), fun hs => ?_⟩
    exact hi.unwritten ((saw_snoc.1 hs).resolve_right fun h' => hij h'.1)
  apart := hapart

/-- A look at the clock. -/
theorem Sim.clock (h : Sim J prog w₀ ok made pre w ts v u) (hclock : IsClock e) (hw : ¬ WritesRow e)
    (hE : agentEnv J u e.op e.reply u) (hapart : Apart made w' u) :
    Sim J prog w₀ ok made (pre ++ [(j, e)]) w' ts v u := by
  have hwrote : ∀ i, Saw WritesRow (pre ++ [(j, e)]) i ↔ Saw WritesRow pre i := fun i =>
    saw_snoc.trans ⟨fun hs => hs.resolve_right fun hs => hw hs.2, .inl⟩
  have hopen : ∀ i, Open ok (pre ++ [(j, e)]) i ↔ Open ok pre i := by
    intro i
    constructor
    · intro hi
      refine ⟨hi.ok, (saw_snoc.1 hi.began).resolve_right fun hs => hs.2 hclock, fun hs => hi.unwritten ?_⟩
      exact (hwrote i).2 hs
    · intro hi
      exact ⟨hi.ok, saw_snoc.2 (.inl hi.began), fun hs => hi.unwritten ((hwrote i).1 hs)⟩
  refine ⟨h.turns, h.returned, h.nodup, fun i => ?_, fun i hi => ?_, fun hidle => ?_, hapart⟩
  · rw [h.mem, hwrote]
  · have hfollows := h.current i ((hopen i).1 hi)
    by_cases hij : i = j
    · subst hij
      rw [own_snoc_self]
      exact hfollows.snoc hE
    · rw [own_snoc_ne hij]
      exact hfollows
  · exact h.idle fun i hi => hidle i ((hopen i).2 hi)

theorem follows_clocks {es : List (Event AgentSig)} (h : ∀ e ∈ es, IsClock e) : Follows (agentEnv J) v es v := by
  induction es using List.reverseRecOn with
  | nil => exact .nil
  | append_singleton es e ih =>
    refine (ih fun e he => h e (List.mem_append_left _ he)).snoc ?_
    obtain ⟨o, r⟩ := e
    obtain rfl : o = .host (.store .now) :=
      isClock_iff.1 (h _ (List.mem_append_right _ (List.mem_singleton_self _)))
    exact ⟨_, ⟨_, rfl, rfl⟩, rfl⟩

/-- Where no other call is at work, the call has come as far as the one at work. -/
theorem Sim.working (h : Sim J prog w₀ ok made pre w ts v u) (hj : ok j) (hno : ¬ Saw WritesRow pre j)
    (hclosed : ∀ i, i ≠ j → ¬ Open ok pre i) : Follows (agentEnv J) v (own j pre) u := by
  by_cases hbegan : Saw (fun e => ¬ IsClock e) pre j
  · exact h.current j ⟨hj, hbegan, hno⟩
  · -- it has only looked at the clock so far, and nobody is at work
    have hidle : u = v := by
      refine h.idle fun i hi => ?_
      by_cases hij : i = j
      · exact hbegan (hij ▸ hi.began)
      · exact hclosed i hij hi
    rw [hidle]
    exact follows_clocks fun e he => by_contra fun hclock => hbegan ⟨e, he, hclock⟩

/-- A look at the row or the cloud. -/
theorem Sim.look (h : Sim J prog w₀ ok made pre w ts v u) (hj : ok j) (hno : ¬ Saw WritesRow pre j)
    (hclosed : ∀ i, i ≠ j → ¬ Open ok pre i) (hclock : ¬ IsClock e) (hw : ¬ WritesRow e) {u' : AgentWorld}
    (hE : agentEnv J u e.op e.reply u') (hapart : Apart made w' u') :
    Sim J prog w₀ ok made (pre ++ [(j, e)]) w' ts v u' := by
  have hwrote : ∀ i, Saw WritesRow (pre ++ [(j, e)]) i ↔ Saw WritesRow pre i := fun i =>
    saw_snoc.trans ⟨fun hs => hs.resolve_right fun hs => hw hs.2, .inl⟩
  refine ⟨h.turns, h.returned, h.nodup, fun i => ?_, fun i hi => ?_, fun hidle => ?_, hapart⟩
  · rw [h.mem, hwrote]
  · by_cases hij : i = j
    · subst hij
      rw [own_snoc_self]
      exact (h.working hj hno hclosed).snoc hE
    · refine absurd ⟨hi.ok, ?_, fun hs => hi.unwritten ((hwrote i).2 hs)⟩ (hclosed i hij)
      exact (saw_snoc.1 hi.began).resolve_right fun hs => hij hs.1
  · exact absurd ⟨hj, saw_snoc.2 (.inr ⟨rfl, hclock⟩), fun hs => hno ((hwrote j).1 hs)⟩ (hidle j)

/-- **The write of a call.** The call ends its turn there. -/
theorem Sim.write (h : Sim J prog w₀ ok made pre w ts v u) (hj : ok j) (hno : ¬ Saw WritesRow pre j)
    (hclosed : ∀ i, i ≠ j → ¬ Open ok pre i) (hw : WritesRow e) {u' v' : AgentWorld} {q : ApiProg ApiResponse}
    {rest : List (Event AgentSig)} {response : ApiResponse} (hE : agentEnv J u e.op e.reply u')
    (hlead : Leads (prog j) (own j pre ++ [e]) q) (hrun : q.Run (agentEnv J) u' rest v' (.ok response))
    (hapart : Apart made w' v') : ∃ ts', Sim J prog w₀ ok made (pre ++ [(j, e)]) w' ts' v' v' := by
  have hfollows := (h.working hj hno hclosed).snoc hE
  refine ⟨_, h.turns.snoc (hlead.run hfollows hrun), ?_, ?_, fun i => ?_, fun i hi => ?_, fun _ => rfl, hapart⟩
  · intro t ht
    rcases List.mem_append.1 ht with ht | ht
    · exact h.returned t ht
    · exact ⟨response, List.mem_singleton.1 ht ▸ rfl⟩
  · -- it has written for the first time, so it had no turn yet
    rw [List.map_append, List.nodup_append]
    refine ⟨h.nodup, List.nodup_singleton _, ?_⟩
    intro i hi i' hi'
    rintro rfl
    rw [List.mem_singleton.1 hi'] at hi
    exact hno ((h.mem j).1 hi).2
  · rw [List.map_append, List.mem_append, h.mem, saw_snoc]
    constructor
    · rintro (⟨hi, hs⟩ | hi)
      · exact ⟨hi, .inl hs⟩
      · obtain rfl := List.mem_singleton.1 hi
        exact ⟨hj, .inr ⟨rfl, hw⟩⟩
    · rintro ⟨hi, hs | ⟨rfl, -⟩⟩
      · exact .inl ⟨hi, hs⟩
      · exact .inr (List.mem_singleton_self _)
  · -- nobody is at work after it
    by_cases hij : i = j
    · exact absurd (saw_snoc.2 (.inr ⟨hij, hw⟩)) hi.unwritten
    · refine absurd ⟨hi.ok, ?_, fun hs => hi.unwritten (saw_snoc.2 (.inl hs))⟩ (hclosed i hij)
      exact (saw_snoc.1 hi.began).resolve_right fun hs => hij hs.1

end Steps

/-! ## The simulation -/

/-- The operation is no command of the cloud. -/
def AsksNoCloud : AgentOp → Prop
  | .oci _ => False
  | _ => True

theorem clock_step {o : AgentOp} {r : o.Reply} (hclock : IsClock ⟨o, r⟩) (hE : agentEnv J w o r w') : w' = w := by
  obtain rfl : o = .host (.store .now) := isClock_iff.1 hclock
  obtain ⟨host, ⟨db, hdb, rfl⟩, rfl⟩ := hE
  rw [show db = w.host.db from hdb]

/-- What is left after the write runs to its end, and settles there. -/
theorem Finishes.run {q : ApiProg ApiResponse} (h : Finishes C J id q) (hread : Readable C id w.host.db) :
    ∃ tr w' response, q.Run (agentEnv J) w tr w' (.ok response) ∧ Settled w w' := by
  obtain ⟨tr, w', response, hrun, -⟩ := h.can w hread
  refine ⟨tr, w', response, hrun, ?_⟩
  exact (Prog.sat_of_uses (I := Settled w) h.uses (fun _ _ _ _ ho hE hI => hI.trans (settled_step ho hE))
    ⟨⟨rfl, rfl⟩, rfl⟩).of_run hrun

section Simulation

variable (hon : ∀ i, (calls i).On id)
  (hr : Reach (agentEnv J) (fun i => (calls i).prog C J N config id) w₀ tr pool w)
  (hfail : ∀ i, ¬ ok i → LeftNothing J (own i tr))
  (hs : Starts C id w₀)
include hon hr hfail hs

omit hr hfail hs in
/-- A call deletes an address that it read in a row or created itself. -/
theorem origin_reach {command : OciCommand} {r : Outcome}
    (hr : Reach (agentEnv J) (fun i => (calls i).prog C J N config id) w₀ (pre ++ (j, ⟨.oci command, r⟩) :: suf) pool w)
    (ha : command.deletes = some a) : ReadNamed (own j pre) a ∨ Made J (own j pre) a := by
  have hj := hon j
  cases hcall : calls j with
  | api headers call =>
    rw [hcall] at hj
    have hkeeps : ((calls j).prog C J N config id).Keeps (grounds C J (.api config headers call)) := by
      rw [hcall]
      exact fun _ => api_grounded call
    have hallow := hr.allowed (M := grounds C J (.api config headers call)) [] hkeeps
    rw [Monitor.recall_after, List.filterMap_some, List.nil_append] at hallow
    exact origin_of_grounded hj hallow ha
  | health status healthStatus lastError =>
    have huses : ((calls j).prog C J N config id).Uses AsksNoCloud := by
      rw [hcall]
      refine Prog.uses_bind (apiStore_uses ?_) fun _ => Prog.uses_ret
      exact setMappingHealth_uses C trivial trivial fun _ _ _ _ _ => trivial
    exact absurd ((hr.uses (i := j) huses).2 _ (List.mem_append_right _ List.mem_cons_self)) fun h => h

/-- **An operation of a call that will return has the same answer in the world without what is astray.** -/
theorem replay_returned {pool₁ pool₂ : ℕ → ApiProg ApiResponse} {w₁ w₂ : AgentWorld} {o : AgentOp} {r : o.Reply}
    (htr : tr = pre ++ (j, ⟨o, r⟩) :: suf) (hj : ok j)
    (hpre : Reach (agentEnv J) (fun i => (calls i).prog C J N config id) w₀ pre pool₁ w₁)
    (hsuf : Reach (agentEnv J) pool₂ w₂ suf pool w) (ho : o.BeforeWrite) (hE : agentEnv J w₁ o r w₂)
    (hapart : Apart (Stray J ok tr) w₁ u) :
    ∃ u', agentEnv J u o r u' ∧ Apart (Stray J ok tr) w₂ u' := by
  refine hapart.replay ho hE (fun a hnew hgiven => ?_) fun command a hcommand ha => ?_
  · rintro ⟨i, hi, e, he, hmade⟩
    rw [mem_own, htr] at he
    -- what another call has created was given out before this operation, or is afterwards
    rcases List.mem_append.1 he with he | he
    · exact hnew (created_reach hpre he hmade).2
    · rcases List.mem_cons.1 he with he | he
      · exact hi ((Prod.mk.inj he).1 ▸ hj)
      · exact (created_reach hsuf he hmade).1 hgiven
  · subst hcommand
    have hsub : ∀ x ∈ pre, x ∈ tr := fun x hx => htr ▸ List.mem_append_left _ hx
    rcases origin_reach hon (htr ▸ hr) ha with hread | hmade
    · exact (names_not_stray hon hr hfail hs hsub hpre).2 j a hread
    · exact not_stray_of_made hr hj (hmade.imp fun e he => ⟨own_subset hsub e he.1, he.2⟩)

variable (hund : Undisturbed tr) (hwrites : ∀ i, ok i → Saw WritesRow tr i)
include hund hwrites

/-- **Every prefix of the run can be told in turn.** -/
theorem sim_reach {pool' : ℕ → ApiProg ApiResponse} (htr : tr = pre ++ suf)
    (hpre : Reach (agentEnv J) (fun i => (calls i).prog C J N config id) w₀ pre pool' w')
    (hsuf : Reach (agentEnv J) pool' w' suf pool w) :
    ∃ ts v u, Sim J (fun i => (calls i).prog C J N config id) w₀ ok (Stray J ok tr) pre w' ts v u := by
  induction hpre generalizing suf with
  | init =>
    refine ⟨[], w₀, w₀, .init, by simp, by simp, fun i => ?_, fun i hi => ?_, fun _ => rfl, ⟨rfl, rfl⟩, fun a => ?_,
      fun _ h => h⟩
    · simp [Saw]
    · obtain ⟨e, he, -⟩ := hi.began
      cases he
    · refine ⟨fun ha => ⟨ha, ?_⟩, fun ha => ha.1⟩
      rintro ⟨i, -, e, he, hmade⟩
      exact (created_reach hr (mem_own.1 he) hmade).1 (hs.live a ha)
  | @step pre pool₁ w₁ w₂ j o k r hpre hp hE ih =>
    have htr' : tr = pre ++ (j, ⟨o, r⟩) :: suf := htr.trans (List.append_cons ..).symm
    obtain ⟨ts, v, u, hsim⟩ := ih htr' ((Reach.init.step hp hE).append hsuf)
    have hlead := hpre.leads j
    have hcommits : ((calls j).prog C J N config id).Commits AgentOp.BeforeWrite WritesRow (Finishes C J id)
        Prog.Unreturned := commits_row (hon j)
    by_cases hj : ok j
    · by_cases hwrote : Saw WritesRow pre j
      · -- after its write
        have hafter := hlead.after hcommits (fun _ h => h.uses) hwrote
        rw [hp] at hafter
        exact ⟨ts, v, u, hsim.beside (fun _ => hwrote)
          (hsim.apart.settled (settled_step (Prog.uses_call_iff.1 hafter).1 hE))⟩
      · have hno : ∀ e ∈ own j pre, ¬ WritesRow e := fun e he hw => hwrote ⟨e, he, hw⟩
        have hnext := hlead.commits hcommits hno
        rw [hp] at hnext
        obtain ⟨ho, hrest⟩ := Prog.commits_call_iff.1 hnext
        obtain ⟨u', hE', hapart⟩ := replay_returned hon hr hfail hs htr' hj hpre hsuf ho hE hsim.apart
        by_cases hw : WritesRow ⟨o, r⟩
        · -- its write
          have hclosed : ∀ i, i ≠ j → ¬ Open ok pre i := fun i hij => closed_at_write hund hwrites hw htr' hij
          have hfinish := (hrest r).1 hw
          have hread : Readable C id u'.host.db := by
            have h := (starts_reach hon (hpre.step hp hE) hs).readable
            unfold Readable at h ⊢
            rw [hapart.data.mappings]
            exact h
          obtain ⟨rest, v', response, hrun, hsettled⟩ := hfinish.run hread
          have hstep := (hpre.step hp hE).leads j
          rw [own_snoc_self, Function.update_self] at hstep
          obtain ⟨ts', h⟩ := hsim.write hj hwrote hclosed hw hE' hstep hrun (hapart.finished hsettled)
          exact ⟨ts', v', v', h⟩
        by_cases hclock : IsClock ⟨o, r⟩
        · have hu := clock_step hclock hE'
          subst hu
          exact ⟨ts, v, u', hsim.clock hclock hw hE' hapart⟩
        · have hclosed : ∀ i, i ≠ j → ¬ Open ok pre i := fun i hij =>
            closed_at_look hund hwrites hj hwrote hw hclock htr' hij
          exact ⟨ts, v, u', hsim.look hj hwrote hclosed hclock hw hE' hapart⟩
    · -- a call that leaves nothing behind
      have hnothing := hfail j hj
      have hmem : (⟨o, r⟩ : Event AgentSig) ∈ own j tr := mem_own.2 (htr' ▸ by simp)
      have hno : ∀ e ∈ own j pre, ¬ WritesRow e := fun e he =>
        hnothing.unwritten e (own_subset (fun x hx => htr' ▸ List.mem_append_left _ hx) e he)
      have hnext := hlead.commits hcommits hno
      rw [hp] at hnext
      refine ⟨ts, v, u, hsim.beside (fun h => absurd h hj) (hsim.apart.hidden (Prog.commits_call_iff.1 hnext).1
        (hnothing.unwritten _ hmem) (hnothing.answered _ hmem) hE (fun a ha => ?_) fun a ha => ?_)⟩
      · exact ⟨j, hj, _, hmem, ha⟩
      · exact ⟨j, hj, hnothing.own _ hmem a ha⟩

end Simulation

/-! ## The theorem -/

/-- The call has returned. -/
def Returned (q : ApiProg ApiResponse) : Prop := ∃ response, q = .ret response

instance : DecidablePred Returned
  | .ret response => .isTrue ⟨response, rfl⟩
  | .fail _ | .call _ _ => .isFalse (by rintro ⟨_, h⟩; cases h)

/-- A row without its times. -/
def Row.timeless (row : Row) : Row := { row with createdAt := "", lastCheckedAt := none, updatedAt := "" }

/-- **The calls that returned can be told in turn**: in some order, one after the other, they lead to the same rows,
times aside, and the same live addresses. -/
def Serial (C : Codec) (J : OciJson) (N : String → Except String NetbirdStatus) (config : EdgeConfig) (id : MappingId)
    (calls : ℕ → RowCall) (w₀ : AgentWorld) (pool : ℕ → ApiProg ApiResponse) (w : AgentWorld) : Prop :=
  ∃ (ts : List (Turn AgentSig ApiFailure ApiResponse ℕ AgentWorld)) (v : AgentWorld),
    InTurn (agentEnv J) (fun i => (calls i).prog C J N config id) w₀ ts v ∧
    (∀ t ∈ ts, ∃ response, t.result = .ok response) ∧ (ts.map Turn.call).Nodup ∧
    (∀ i, i ∈ ts.map Turn.call ↔ Returned (pool i)) ∧
    v.host.db.mappings.rows.map Row.timeless = w.host.db.mappings.rows.map Row.timeless ∧
    ∀ a, v.cloud.Has a ↔ w.cloud.Has a

/-- A call returns only after it has written the row. -/
theorem wrote_of_returned (hon : ∀ i, (calls i).On id)
    (hr : Reach (agentEnv J) (fun i => (calls i).prog C J N config id) w₀ tr pool w) (h : Returned (pool i)) :
    Saw WritesRow tr i := by
  by_contra hno
  obtain ⟨response, hret⟩ := h
  have hcommits := (hr.leads i).commits (commits_row (J := J) (hon i)) fun e he hw => hno ⟨e, he, hw⟩
  rw [hret, Prog.commits_ret_iff] at hcommits
  obtain ⟨e, he⟩ := hcommits
  cases he

/-- **Calls on one mapping are serializable where none is overtaken.** However the operations of calls that enable,
disable, allocate for or release one mapping or record its health interleave: if no other call writes the row between
the moment at which a call begins to look at it and its own write, and every call that does not return leaves nothing
behind, then the calls that returned can be told in turn. -/
theorem serializable_of_undisturbed (hon : ∀ i, (calls i).On id) (hs : Starts C id w₀)
    (hr : Reach (agentEnv J) (fun i => (calls i).prog C J N config id) w₀ tr pool w) (hund : Undisturbed tr)
    (hfail : ∀ i, ¬ Returned (pool i) → LeftNothing J (own i tr)) : Serial C J N config id calls w₀ pool w := by
  have hwrites : ∀ i, Returned (pool i) → Saw WritesRow tr i := fun i hi => wrote_of_returned hon hr hi
  obtain ⟨ts, v, u, hsim⟩ := sim_reach hon hr hfail hs hund hwrites (List.append_nil tr).symm hr .init
  obtain rfl : u = v := hsim.idle fun i hi => hi.unwritten (hwrites i hi.ok)
  refine ⟨ts, u, hsim.turns, hsim.returned, hsim.nodup, fun i => ?_, ?_, fun a => ?_⟩
  · rw [hsim.mem]
    exact ⟨fun h => h.1, fun h => ⟨h, hwrites i h⟩⟩
  · rw [hsim.apart.data.mappings]
  · rw [hsim.apart.cloud.live]
    refine ⟨fun h => h.1, fun h => ⟨h, ?_⟩⟩
    -- what was astray has been deleted
    rintro ⟨i, hi, hmade⟩
    obtain ⟨e, he, hdeleted⟩ := (hfail i hi).undone a hmade
    exact (gone_reach hs.live hr (mem_own.1 he) hdeleted).2 h

/-! ## A run that is undisturbed -/

/-- The thread of an event, whether it looks at the clock, and whether it writes the row. -/
def mark (x : ℕ × Event AgentSig) : ℕ × Bool × Bool := (x.1, decide (IsClock x.2), decide (WritesRow x.2))

/-- Whether a run is undisturbed shows in its marks. -/
theorem undisturbed_of_marks (h : ∀ x ∈ tr.map mark, ∀ y ∈ tr.map mark, ∀ z ∈ tr.map mark, x.1 = z.1 →
      x.2.1 = false → y.2.2 = true → z.2.2 = true → [x, y, z].Sublist (tr.map mark) → y.1 = x.1) :
    Undisturbed tr := by
  intro i j e₀ e' e hsub hclock hw' hw
  have hmarks := hsub.map mark
  have hmem : ∀ x ∈ [(i, e₀), (j, e'), (i, e)], mark x ∈ tr.map mark := fun x hx =>
    hmarks.subset (List.mem_map_of_mem hx)
  exact h _ (hmem (i, e₀) (by simp)) _ (hmem (j, e') (by simp)) _ (hmem (i, e) (by simp)) rfl (decide_eq_false hclock)
    (decide_eq_true hw') (decide_eq_true hw) hmarks

/-- The event looks at the store, and writes no row. -/
def looks : Event AgentSig → Bool
  | ⟨.host (.store o), r⟩ => !decide (Executed ⟨o, r⟩)
  | _ => false

/-- A call that has only looked at the store has left nothing behind. -/
theorem leftNothing_of_looks {es : List (Event AgentSig)} (h : ∀ e ∈ es, looks e = true) : LeftNothing J es := by
  have hstore : ∀ e ∈ es, ¬ WritesRow e ∧ Answered e ∧ createdBy J e = none ∧ deletedBy e = none := by
    rintro ⟨o, r⟩ he
    have hlook := h _ he
    unfold looks at hlook
    split at hlook
    · rename_i o r heq
      cases heq
      have hno : ¬ Executed ⟨o, r⟩ := by simpa using hlook
      exact ⟨hno, trivial, rfl, rfl⟩
    · cases hlook
  refine ⟨fun e he => (hstore e he).1, fun e he => (hstore e he).2.1, fun e he a ha => ?_, fun a ha => ?_⟩
  · rw [(hstore e he).2.2.2] at ha
    cases ha
  · obtain ⟨e, he, hmade⟩ := ha
    rw [(hstore e he).2.2.1] at hmade
    cases hmade

/-- One call against another, and as many more as one likes of the first kind. -/
def rowCalls (call call' : ApiCall) : ℕ → RowCall
  | 1 => .api [] call'
  | _ => .api [] call

theorem rowCalls_on {call call' : ApiCall} (h : (RowCall.api [] call).On id) (h' : (RowCall.api [] call').On id)
    (i : ℕ) : (rowCalls call call' i).On id := by
  unfold rowCalls
  split
  · exact h'
  · exact h

/-- The sample service, asked for these calls. -/
abbrev rowPool (call call' : ApiCall) (i : ℕ) : ApiProg ApiResponse :=
  (rowCalls call call' i).prog sampleCodec sampleOciJson sampleNetbird sampleConfig sampleMapping.id

def sampleDisable : ApiCall := .disableMapping "vm"

theorem sample_id : MappingId.fromStr "vm" = .ok sampleMapping.id := by decide +kernel

theorem created_starts : Starts sampleCodec sampleMapping.id createdAgent := by
  obtain ⟨pool, hreach⟩ := Reach.alone created_run
  have hfacts : createdAgent.host.db.refs = [⟨"vm", none, none⟩] ∧ createdAgent.cloud.privateIps = [] ∧
      createdAgent.cloud.publicIps = [] := by decide +kernel
  obtain ⟨hrefs, hprivate, hpublic⟩ := hfacts
  refine ⟨?_, enabledApart_reach (fun _ => fronts_stored _) .empty hreach, fun a ha => ?_, fun ref href a ha => ?_⟩
  · rw [hrefs]
    exact ⟨_, List.mem_singleton_self _, rfl⟩
  · cases a with
    | privateIp ip => exact absurd (hprivate ▸ ha : ip ∈ ([] : List String)) List.not_mem_nil
    | publicIp ip => exact absurd (hpublic ▸ ha : ip ∈ ([] : List String)) List.not_mem_nil
  · rw [hrefs, List.mem_singleton] at href
    subst href
    cases a <;> cases ha

/-- A disable looks at the clock, an allocation runs from its beginning to its end, another one is refused, and the
disable goes on. -/
@[irreducible] def besideRun : List (ℕ × Event AgentSig) × (ℕ → ApiProg ApiResponse) × AgentWorld :=
  steps agentAnswer [1, 0, 0, 0, 0, 0, 0, 0, 0, 0, 0, 2, 1, 1]
    ([], rowPool sampleAllocate sampleDisable, createdAgent)

theorem beside_facts : besideRun.1.map mark = [(1, true, false), (0, false, false), (0, false, false),
      (0, false, false), (0, false, false), (0, true, false), (0, false, false), (0, false, false), (0, false, true),
      (0, true, false), (0, false, false), (2, false, false), (1, false, true), (1, false, false)] ∧
    Returned (besideRun.2.1 0) ∧ Returned (besideRun.2.1 1) ∧
    (∀ x ∈ besideRun.1, x.1 = 0 ∨ x.1 = 1 ∨ looks x.2 = true) ∧
    besideRun.2.2.host.db.mappings.rows.map (fun row => (row.id, row.enabled)) = [("vm", 0)] ∧
    besideRun.2.2.cloud.publicIps = [samplePublicIp.id] := by
  decide +kernel

theorem beside_reach : Reach (agentEnv sampleOciJson) (rowPool sampleAllocate sampleDisable) createdAgent besideRun.1
    besideRun.2.1 besideRun.2.2 := by
  unfold besideRun
  exact steps_reach agentAnswer_env _ _ .init

/-- An allocation beside a disable that began before it, and a second one that is refused. -/
theorem serializable_beside : besideRun.2.2.host.db.mappings.rows.map (fun row => (row.id, row.enabled)) = [("vm", 0)] ∧
    besideRun.2.2.cloud.publicIps = [samplePublicIp.id] ∧
    Serial sampleCodec sampleOciJson sampleNetbird sampleConfig sampleMapping.id (rowCalls sampleAllocate sampleDisable)
      createdAgent besideRun.2.1 besideRun.2.2 := by
  obtain ⟨hmarks, hallocated, hdisabled, hlooks, hrow, hlive⟩ := beside_facts
  have hon : ∀ i, (rowCalls sampleAllocate sampleDisable i).On sampleMapping.id := rowCalls_on sample_id sample_id
  have hund : Undisturbed besideRun.1 := by
    refine undisturbed_of_marks ?_
    rw [hmarks]
    decide +kernel
  refine ⟨hrow, hlive, serializable_of_undisturbed hon created_starts beside_reach hund fun i hi => ?_⟩
  refine leftNothing_of_looks fun e he => ?_
  rcases hlooks _ (mem_own.1 he) with rfl | rfl | hlook
  · exact absurd hallocated hi
  · exact absurd hdisabled hi
  · exact hlook

/-! ## Runs that are not -/

/-- The rows of the id are disabled. -/
def Off (key : String) (db : Db) : Prop := ∀ row ∈ db.mappings.rows, row.id = key → row.enabled = 0

theorem Updated.off {m : Mapping} {db db' : Db} {cols old : Row} (hu : Updated C m db.mappings db'.mappings cols old)
    {key : String} (h : Off key db) (hm : m.id.val = key → m.enabled = false) : Off key db' := by
  intro row hrow hid
  rw [hu.table] at hrow
  rcases Sql.Table.mem_set.1 hrow with ⟨hrow, -⟩ | ⟨old', -, hold, rfl⟩
  · exact h row hrow hid
  · have hkey : m.id.val = key := by
      rw [← (updateRow_columns hu.bound).1, ← hid]
      exact hold.symm
    exact (updateRow_flag hu.bound).2.2 (hm hkey)

/-- **A release leaves a disabled mapping disabled**: it writes back the flag that it has read. -/
theorem off_release {request : OciReleaseRequest} {key : String} (h : Off key w.host.db) :
    (Api.ociRelease C config headers request).Sat (agentEnv J) w fun w' _ => Off key w'.host.db := by
  refine Prog.sat_bind (Prog.sat_ofExcept ⟨fun _ _ => ?_, fun _ _ => h⟩)
  refine Prog.sat_bind (Prog.sat_ofExcept ⟨fun _ _ => ?_, fun _ _ => h⟩)
  cases resolve request.mappingId none with
  | none =>
    refine Prog.sat_bind (Prog.sat_ofExcept ⟨fun _ _ => ?_, fun _ _ => h⟩)
    refine Prog.sat_bind (Prog.sat_mono ?_ (sat_deleteIps_host _ _))
    intro w₁ x hw
    exact ⟨fun _ _ => Prog.sat_ret (hw ▸ h), fun _ _ => hw ▸ h⟩
  | some id =>
    refine Prog.sat_bind (Prog.sat_ofExcept ⟨fun id _ => ?_, fun _ _ => h⟩)
    refine Prog.sat_bind (Prog.sat_mono ?_ (sat_read Refines.self.onHost id))
    rintro w₁ x ⟨rfl, hread⟩
    refine ⟨fun m hm => ?_, fun _ _ => h⟩
    have hflag : m.id.val = key → m.enabled = false := by
      obtain ⟨row, hrow, hid, hdec, hmid⟩ := hread m hm
      intro hkey
      refine (rowToMapping_flag hdec).2.1 (h row hrow ?_)
      rw [hid, ← hmid]
      exact hkey
    refine Prog.sat_bind (Prog.sat_ofExcept ⟨fun _ _ => ?_, fun _ _ => h⟩)
    refine Prog.sat_bind (Prog.sat_mono ?_ (sat_deleteIps_host _ _))
    intro w₂ x hw₂
    have h₂ : Off key w₂.host.db := hw₂ ▸ h
    refine ⟨fun _ _ => ?_, fun _ _ => h₂⟩
    refine Prog.sat_bind (Prog.sat_mono ?_ (sat_markStatus Refines.self.onHost _ _))
    rintro w₃ x ⟨rfl, now, rfl⟩
    refine ⟨fun m' hm' => ?_, fun _ he => nomatch he⟩
    cases hm'
    refine Prog.sat_bind (Prog.sat_mapErr (Prog.sat_mono ?_ (sat_onStore Refines.self.onHost (sat_updateMapping _))))
    rintro w₄ x ⟨db', rfl, herror, hok⟩
    have h₄ : Off key db' := by
      cases x with
      | error e =>
        intro row hrow
        rw [herror e rfl] at hrow
        exact h₂ row hrow
      | ok u =>
        obtain ⟨cols, old, hu⟩ := hok rfl
        exact hu.off h₂ hflag
    refine ⟨fun _ _ => ?_, fun _ _ => h₄⟩
    refine Prog.sat_bind (Prog.sat_attempt (Prog.sat_mono ?_ (sat_onStore Refines.self.onHost (sat_leavesMappings ?_))))
    · rintro w₅ x ⟨db₅, rfl, hsame⟩
      have h₅ : Off key db₅ := fun row hrow => h₄ row (hsame ▸ hrow)
      exact ⟨fun _ _ => Prog.sat_ret h₅, fun _ _ => h₅⟩
    · exact recordEvent_uses C trivial fun _ _ => ⟨fun h => h, fun h => h⟩

/-- An acknowledged disable. -/
theorem off_disable {text : String} (hid : MappingId.fromStr text = .ok id) :
    (Api.setEnabled C config headers text false).Sat (agentEnv J) w fun w' x =>
      ∀ response, x = .ok response → Off id.val w'.host.db := by
  refine Prog.sat_bind (Prog.sat_ofExcept ⟨fun _ _ => ?_, fun _ _ _ h => nomatch h⟩)
  refine Prog.sat_bind (Prog.sat_ofExcept ⟨fun id' hid' => ?_, fun _ _ _ h => nomatch h⟩)
  obtain rfl : id = id' := Except.ok.inj (hid.symm.trans (except_mapError_ok.1 hid'))
  refine Prog.sat_bind (Prog.sat_mapErr (Prog.sat_mono ?_ (sat_onStore Refines.self.onHost
    (sat_setMappingEnabled id false))))
  rintro w₁ x ⟨db', rfl, hset⟩
  cases x with
  | error e => exact ⟨fun _ h => (nomatch h), fun _ _ _ h => nomatch h⟩
  | ok m => exact ⟨fun _ _ => Prog.sat_ret fun _ _ => hset m rfl, fun _ h => nomatch h⟩

theorem allocated_starts : Starts sampleCodec sampleMapping.id allocatedAgent := by
  let calls : ℕ → RowCall := fun _ => .api [] sampleAllocate
  have hon : ∀ i, (calls i).On sampleMapping.id := fun _ => sample_id
  obtain ⟨response, hrun⟩ := api_of_ran allocated_run
  obtain ⟨pool, hreach⟩ := Reach.alone hrun
  have hcalls : Reach (agentEnv sampleOciJson)
      (fun i => (calls i).prog sampleCodec sampleOciJson sampleNetbird sampleConfig sampleMapping.id) createdAgent _
      pool allocatedAgent := hreach
  exact starts_reach hon hcalls created_starts

/-- The release of the sample. -/
def releaseVm : ApiCall := .ociRelease sampleRelease.request

theorem release_on (i : ℕ) : (rowCalls releaseVm sampleDisable i).On sampleMapping.id := by
  have hrelease : (RowCall.api [] releaseVm).On sampleMapping.id := ⟨"vm", by decide +kernel, sample_id⟩
  have hdisable : (RowCall.api [] sampleDisable).On sampleMapping.id := sample_id
  exact rowCalls_on hrelease hdisable i

/-- A release looks at the row, a disable runs from its beginning to its end, and the release goes on. -/
@[irreducible] def overtakenRun : List (ℕ × Event AgentSig) × (ℕ → ApiProg ApiResponse) × AgentWorld :=
  steps agentAnswer [0, 1, 1, 1, 0, 0, 0, 0, 0, 0, 0, 0] ([], rowPool releaseVm sampleDisable, allocatedAgent)

theorem overtaken_facts : Returned (overtakenRun.2.1 0) ∧ Returned (overtakenRun.2.1 1) ∧
    (∀ x ∈ overtakenRun.1, x.1 = 0 ∨ x.1 = 1) ∧
    overtakenRun.2.2.host.db.mappings.rows.map (fun row => (row.id, row.enabled)) = [("vm", 1)] := by
  decide +kernel

theorem overtaken_reach : Reach (agentEnv sampleOciJson) (rowPool releaseVm sampleDisable) allocatedAgent overtakenRun.1
    overtakenRun.2.1 overtakenRun.2.2 := by
  unfold overtakenRun
  exact steps_reach agentAnswer_env _ _ .init

/-- In turn, the mapping would be disabled from the disable on. -/
theorem overtaken_not_serial : ¬ Serial sampleCodec sampleOciJson sampleNetbird sampleConfig sampleMapping.id
    (rowCalls releaseVm sampleDisable) allocatedAgent overtakenRun.2.1 overtakenRun.2.2 := by
  rintro ⟨ts, v, hturns, hok, -, hmem, hrows, -⟩
  obtain ⟨-, hdisabled, -, hfinal⟩ := overtaken_facts
  have hdisable : ∀ t ∈ ts, t.call = 1 → t.Ran (agentEnv sampleOciJson) (rowPool releaseVm sampleDisable) →
      Off sampleMapping.id.val t.after.host.db := by
    intro t ht hcall hran
    obtain ⟨response, hresult⟩ := hok t ht
    unfold Turn.Ran at hran
    rw [hcall] at hran
    exact (off_disable sample_id).of_run hran response hresult
  have hrelease : ∀ t : Turn AgentSig ApiFailure ApiResponse ℕ AgentWorld, t.call ≠ 1 →
      t.Ran (agentEnv sampleOciJson) (rowPool releaseVm sampleDisable) →
      Off sampleMapping.id.val t.before.host.db → Off sampleMapping.id.val t.after.host.db := by
    intro t hcall hran hoff
    have hcalls : rowCalls releaseVm sampleDisable t.call = .api [] releaseVm := by
      unfold rowCalls
      split
      · rename_i hone
        exact absurd hone hcall
      · rfl
    unfold Turn.Ran rowPool at hran
    rw [hcalls] at hran
    exact (off_release hoff).of_run hran
  -- from the turn of the disable on, whatever comes after it
  obtain ⟨t, ht, hcall⟩ := List.mem_map.1 ((hmem 1).2 hdisabled)
  obtain ⟨before, after, hts⟩ := List.append_of_mem ht
  have hoff : Off sampleMapping.id.val v.host.db := by
    refine hturns.since hts (fun w => Off sampleMapping.id.val w.host.db) (hdisable t ht hcall) fun u hu hran hoff => ?_
    by_cases hu1 : u.call = 1
    · exact hdisable u (hts ▸ List.mem_append_right _ (List.mem_cons_of_mem _ hu)) hu1 hran
    · exact hrelease u hu1 hran hoff
  have hsame := congrArg (List.map fun row : Row => (row.id, row.enabled)) hrows
  rw [List.map_map, List.map_map] at hsame
  have hmarks : v.host.db.mappings.rows.map (fun row => (row.id, row.enabled)) = [("vm", 1)] := hsame.trans hfinal
  obtain ⟨row, hrow, hmark⟩ := List.mem_map.1 (hmarks ▸ List.mem_singleton_self (("vm", 1) : String × ℤ))
  obtain ⟨hid, henabled⟩ := Prod.mk.inj hmark
  rw [hoff row hrow hid] at henabled
  cases henabled

/-- The call has failed. -/
def Failed (q : ApiProg ApiResponse) : Prop := ∃ failure, q = .fail failure

instance : DecidablePred Failed
  | .fail failure => .isTrue ⟨failure, rfl⟩
  | .ret _ | .call _ _ => .isFalse (by rintro ⟨_, h⟩; cases h)

/-- A release deletes the public address, and fails at the private one. -/
@[irreducible] def halfRun : List (ℕ × Event AgentSig) × (ℕ → ApiProg ApiResponse) × AgentWorld :=
  steps (busyAnswer busyPrivate) [0, 0, 0] ([], rowPool releaseVm sampleDisable, allocatedAgent)

theorem half_facts : Failed (halfRun.2.1 0) ∧ (∀ x ∈ halfRun.1, x.1 = 0 ∧ ¬ WritesRow x.2) ∧
    halfRun.2.2.cloud.publicIps = [] ∧ allocatedAgent.cloud.publicIps = [samplePublicIp.id] := by
  decide +kernel

theorem half_reach : Reach (agentEnv sampleOciJson) (rowPool releaseVm sampleDisable) allocatedAgent halfRun.1
    halfRun.2.1 halfRun.2.2 := by
  unfold halfRun
  exact steps_reach busyPrivate_env _ _ .init

/-- No call returned, and an address is gone. -/
theorem half_not_serial : ¬ Serial sampleCodec sampleOciJson sampleNetbird sampleConfig sampleMapping.id
    (rowCalls releaseVm sampleDisable) allocatedAgent halfRun.2.1 halfRun.2.2 := by
  rintro ⟨ts, v, hturns, -, -, hmem, -, hlive⟩
  obtain ⟨-, hno, hgone, hwas⟩ := half_facts
  have hnone : ts.map Turn.call = [] := by
    refine List.eq_nil_iff_forall_not_mem.2 fun i hi => ?_
    obtain ⟨e, he, hw⟩ := wrote_of_returned release_on half_reach ((hmem i).1 hi)
    exact (hno _ (mem_own.1 he)).2 hw
  have hsame : v = allocatedAgent := by
    refine hturns.inv (fun ts w => ts = [] → w = allocatedAgent) (fun _ => rfl) (fun ts t _ _ h => ?_)
      (List.map_eq_nil_iff.1 hnone)
    exact absurd h (List.append_ne_nil_of_right_ne_nil _ (List.cons_ne_nil _ _))
  have hthere : v.cloud.Has (.publicIp samplePublicIp.id) := by
    rw [hsame]
    show samplePublicIp.id ∈ allocatedAgent.cloud.publicIps
    rw [hwas]
    exact List.mem_singleton_self _
  have hstill : samplePublicIp.id ∈ halfRun.2.2.cloud.publicIps := (hlive _).1 hthere
  rw [hgone] at hstill
  cases hstill

/-- **A call that is overtaken, or fails half way, has no place in any order.** A release that has read the row writes
it back over an acknowledged disable: the mapping is enabled again. And a release that fails at its second delete has
deleted the public address, although no call returned. -/
theorem serial_fails : (∀ i, (rowCalls releaseVm sampleDisable i).On sampleMapping.id) ∧
    Starts sampleCodec sampleMapping.id allocatedAgent ∧
    (∃ tr pool w, Reach (agentEnv sampleOciJson) (rowPool releaseVm sampleDisable) allocatedAgent tr pool w ∧
      (∀ i, Returned (pool i) ∨ own i tr = []) ∧
      ¬ Serial sampleCodec sampleOciJson sampleNetbird sampleConfig sampleMapping.id (rowCalls releaseVm sampleDisable)
        allocatedAgent pool w) ∧
    ∃ tr pool w, Reach (agentEnv sampleOciJson) (rowPool releaseVm sampleDisable) allocatedAgent tr pool w ∧
      Undisturbed tr ∧ (∀ i, Failed (pool i) ∨ own i tr = []) ∧
      ¬ Serial sampleCodec sampleOciJson sampleNetbird sampleConfig sampleMapping.id (rowCalls releaseVm sampleDisable)
        allocatedAgent pool w := by
  refine ⟨release_on, allocated_starts, ⟨_, _, _, overtaken_reach, fun i => ?_, overtaken_not_serial⟩,
    ⟨_, _, _, half_reach, ?_, fun i => ?_, half_not_serial⟩⟩
  · obtain ⟨hreleased, hdisabled, hthreads, -⟩ := overtaken_facts
    refine or_iff_not_imp_right.2 fun hbegun => ?_
    obtain ⟨e, he⟩ := List.exists_mem_of_ne_nil _ hbegun
    rcases hthreads _ (mem_own.1 he) with rfl | rfl
    · exact hreleased
    · exact hdisabled
  · intro i j e₀ e' e hsub _ hw' _
    exact absurd hw' (half_facts.2.1 (j, e') (hsub.subset (by simp))).2
  · obtain ⟨hfailed, hthreads, -⟩ := half_facts
    refine or_iff_not_imp_right.2 fun hbegun => ?_
    obtain ⟨e, he⟩ := List.exists_mem_of_ne_nil _ hbegun
    obtain rfl : i = 0 := (hthreads _ (mem_own.1 he)).1
    exact hfailed

end EdgeRoute
