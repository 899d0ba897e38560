import EdgeRoute.Lib.Prog
import Mathlib.Data.List.Forall2

/-!
# What stands before an event

* `Occurs`: events with given properties, in a given order.
* `Monitor.recall`: the monitor that forgets nothing; what a program may ask for depends on all that it saw.
* `Prog.Keeps`: a program that a monitor accepts from every ghost state. It is closed under sequencing, so that a
  service is accepted when its parts are.
* `Reach.allowed`: **each event of an interleaving was allowed by what its own thread had seen.**
-/

namespace Effect

variable {S T : Sig} {ε ε' α β σ Q : Type}

/-! ## Order -/

/-- Events with the properties of the list stand in the trace, in the order of the list. -/
def Occurs (ps : List (Event S → Prop)) (tr : List (Event S)) : Prop :=
  ∃ es, es.Sublist tr ∧ List.Forall₂ (fun p e => p e) ps es

section Occurs

variable {ps : List (Event S → Prop)} {p : Event S → Prop} {tr tr' : List (Event S)} {e : Event S}

theorem Occurs.mono (h : Occurs ps tr) (hsub : tr.Sublist tr') : Occurs ps tr' :=
  h.imp fun _ hes => ⟨hes.1.trans hsub, hes.2⟩

theorem Occurs.snoc (h : Occurs ps tr) (he : p e) : Occurs (ps ++ [p]) (tr ++ [e]) := by
  obtain ⟨es, hsub, hall⟩ := h
  exact ⟨es ++ [e], hsub.append (List.Sublist.refl _), List.rel_append hall (.cons he .nil)⟩

theorem occurs_last (he : p e) : Occurs [p] (tr ++ [e]) :=
  ⟨[e], List.sublist_append_right .., .cons he .nil⟩

theorem Occurs.head (h : Occurs (p :: ps) tr) : Occurs [p] tr := by
  obtain ⟨es, hsub, hall⟩ := h
  cases hall with
  | cons he _ => exact ⟨_, (List.singleton_sublist.2 List.mem_cons_self).trans hsub, .cons he .nil⟩

theorem Occurs.exists_mem (h : Occurs ps tr) (hp : p ∈ ps) : ∃ e ∈ tr, p e := by
  obtain ⟨es, hsub, hall⟩ := h
  obtain ⟨e, he, hpe⟩ : ∃ e ∈ es, p e := by
    clear hsub
    induction hall with
    | nil => cases hp
    | @cons p' e' ps es he _ ih =>
      rcases List.mem_cons.1 hp with rfl | hp
      · exact ⟨e', List.mem_cons_self, he⟩
      · obtain ⟨e, hmem, hpe⟩ := ih hp
        exact ⟨e, List.mem_cons_of_mem _ hmem, hpe⟩
  exact ⟨e, hsub.subset he, hpe⟩

end Occurs

/-! ## Monitors that forget nothing -/

/-- The monitor that remembers every event, as `obs` sees it. -/
def Monitor.recall (obs : Event T → Option (Event S)) (allow : List (Event S) → T.Op → Prop) :
    Monitor T (List (Event S)) where
  allow := allow
  next q e := q ++ (obs e).toList

section Recall

variable {obs : Event T → Option (Event S)} {allow : List (Event S) → T.Op → Prop} {q : List (Event S)}

theorem Monitor.recall_after (tr : List (Event T)) :
    (Monitor.recall obs allow).after q tr = q ++ tr.filterMap obs := by
  induction tr generalizing q with
  | nil => simp
  | cons e tr ih =>
    rw [Monitor.after_cons, ih]
    cases h : obs e <;> simp [Monitor.recall, h]

/-- What was seen stays seen. -/
theorem Prog.wpOk_extends {p : Prog T ε α} {post : List (Event S) → α → Prop}
    (h : p.wpOk (.recall obs allow) post q) :
    p.wpOk (.recall obs allow) (fun q' a => q <+: q' ∧ post q' a) q := by
  suffices hfrom : ∀ q₀, q₀ <+: q → p.wpOk (.recall obs allow) (fun q' a => q₀ <+: q' ∧ post q' a) q from
    hfrom q List.prefix_rfl
  intro q₀ hq
  rw [Prog.wpOk_iff] at h
  induction p generalizing q with
  | ret a => exact Prog.wpOk_ret ⟨hq, Prog.wp_ret.1 h a rfl⟩
  | fail e => exact Prog.wpOk_fail
  | call o k ih =>
    rw [Prog.wp_call] at h
    exact Prog.wpOk_call h.1 fun r => ih r (h.2 r) (hq.trans (List.prefix_append ..))

/-- A program whose operations are allowed by what was seen before it. -/
theorem Prog.wpOk_recall_of_uses {p : Prog T ε α} (h : p.Uses (allow q))
    (hmono : ∀ q' o, q <+: q' → allow q o → allow q' o) : p.wpOk (.recall obs allow) (fun _ _ => True) q := by
  suffices hfrom : ∀ q', q <+: q' → p.wpOk (.recall obs allow) (fun _ _ => True) q' from hfrom q List.prefix_rfl
  induction p with
  | ret a => exact fun _ _ => Prog.wpOk_ret trivial
  | fail e => exact fun _ _ => Prog.wpOk_fail
  | call o k ih =>
    have h := Prog.uses_call_iff.1 h
    exact fun q' hq => Prog.wpOk_call (hmono q' o hq h.1) fun r => ih r (h.2 r) _ (hq.trans (List.prefix_append ..))

end Recall

/-! ## Programs accepted from every ghost state -/

namespace Prog

/-- The monitor accepts the program, whatever came before it. -/
def Keeps (M : Monitor S Q) (p : Prog S ε α) : Prop := ∀ q, p.wpOk M (fun _ _ => True) q

variable {M : Monitor S Q} {p : Prog S ε α}

theorem keeps_ret {a : α} : (Prog.ret a : Prog S ε α).Keeps M := fun _ => wpOk_ret trivial

theorem keeps_fail {e : ε} : (Prog.fail e : Prog S ε α).Keeps M := fun _ => wpOk_fail

theorem keeps_ofExcept {x : Except ε α} : (Prog.ofExcept x : Prog S ε α).Keeps M := fun _ =>
  wpOk_ofExcept fun _ _ => trivial

theorem keeps_call {o : S.Op} {k : S.Reply o → Prog S ε α} (ho : ∀ q, M.allow q o) (h : ∀ r, (k r).Keeps M) :
    (Prog.call o k).Keeps M := fun q => wpOk_call (ho q) fun r => h r _

theorem keeps_bind {f : α → Prog S ε β} (h : p.Keeps M) (hf : ∀ a, (f a).Keeps M) : (p.bind f).Keeps M := fun q =>
  wpOk_bind (wpOk_mono (fun q' a _ => hf a q') (h q))

/-- The first part of a sequence that is accepted. -/
theorem keeps_of_bind {f : α → Prog S ε β} (h : (p.bind f).Keeps M) : p.Keeps M := fun q => by
  refine wpOk_iff.2 (wp_mono (fun _ _ _ _ _ => trivial) (wp_bind.1 (wpOk_iff.1 (h q))))

theorem keeps_mapErr {f : ε → ε'} (h : p.Keeps M) : (p.mapErr f).Keeps M := fun q => wpOk_mapErr (h q)

theorem keeps_attempt (h : p.Keeps M) : (p.attempt : Prog S ε' (Except ε α)).Keeps M := fun q =>
  wpOk_mono (fun _ _ _ => trivial) (wpOk_attempt (h q))

/-- A program whose operations are allowed at any time. -/
theorem keeps_of_uses (h : p.Uses fun o => ∀ q, M.allow q o) : p.Keeps M := fun _ => wpOk_of_allow h

theorem keeps_embed {ι : S.Op → T.Op} {ρ : ∀ o, T.Reply (ι o) → S.Reply o} {N : Monitor T Q}
    (hallow : ∀ q o, M.allow q o → N.allow q (ι o)) (hnext : ∀ q o r, N.next q ⟨ι o, r⟩ = M.next q ⟨o, ρ o r⟩)
    (h : p.Keeps M) : (p.embed ι ρ).Keeps N := fun q => wpOk_embed hallow hnext (h q)

end Prog

/-! ## Interleavings -/

/-- A run of one call, as an interleaving of this call and others that wait. -/
theorem Reach.alone {E : Env S σ} {p : Prog S ε α} {s s' : σ} {tr : List (Event S)} {a : α}
    (h : p.Run E s tr s' (.ok a)) : ∃ pool, Reach E (fun _ => p) s (tr.map fun e => (0, e)) pool s' :=
  ⟨_, Reach.init.run (Prog.bind_ret_right p).symm h⟩

/-- A thread that the monitor accepts stays accepted, whatever the other threads are. -/
theorem Reach.thread {E : Env S σ} {calls pool : ℕ → Prog S ε α} {s₀ s : σ} {M : Monitor S Q} {i : ℕ} (q₀ : Q)
    (h : (calls i).Keeps M) {tr : List (ℕ × Event S)} (hr : Reach E calls s₀ tr pool s) :
    (pool i).wpOk M (fun _ _ => True) (M.after q₀ (own i tr)) ∧ M.Accepts q₀ (own i tr) := by
  induction hr with
  | init => exact ⟨h q₀, trivial⟩
  | @step tr pool s s' j o k r _ hp _ ih =>
    by_cases hij : i = j
    · subst hij
      rw [hp, Prog.wpOk_iff, Prog.wp_call] at ih
      rw [Function.update_self, own_snoc_self, M.after_append]
      exact ⟨Prog.wpOk_iff.2 (ih.1.2 r), (M.accepts_append _).2 ⟨ih.2, ih.1.1, trivial⟩⟩
    · rw [Function.update_of_ne hij, own_snoc_ne hij]
      exact ih

/-- A run goes on where another stopped. -/
theorem Reach.append {E : Env S σ} {calls pool pool' : ℕ → Prog S ε α} {s₀ s s' : σ} {tr tr' : List (ℕ × Event S)}
    (h : Reach E calls s₀ tr pool s) (h' : Reach E pool s tr' pool' s') : Reach E calls s₀ (tr ++ tr') pool' s' := by
  induction h' with
  | init => rwa [List.append_nil]
  | step _ hp hE ih =>
    rw [← List.append_assoc]
    exact ih.step hp hE

/-- **Each event of an interleaving was allowed by what its own thread had seen**, where the monitor accepts
that thread. -/
theorem Reach.allowed {E : Env S σ} {calls pool : ℕ → Prog S ε α} {s₀ s : σ} {M : Monitor S Q} {i : ℕ} (q₀ : Q)
    (h : (calls i).Keeps M) {pre post : List (ℕ × Event S)} {e : Event S}
    (hr : Reach E calls s₀ (pre ++ (i, e) :: post) pool s) : M.allow (M.after q₀ (own i pre)) e.op := by
  have haccepts := (hr.thread q₀ h).2
  have hown : own i (pre ++ (i, e) :: post) = own i pre ++ e :: own i post := by
    rw [own_append]; simp [own]
  rw [hown] at haccepts
  exact haccepts.allow_of_split

/-- **Invariant rule** for threads that a monitor accepts. -/
theorem Reach.keeps_inv {E : Env S σ} {calls pool : ℕ → Prog S ε α} {s₀ s : σ} {M : Monitor S Q} (q₀ : Q)
    (h : ∀ i, (calls i).Keeps M) {tr : List (ℕ × Event S)} (hr : Reach E calls s₀ tr pool s)
    (I : List (ℕ × Event S) → σ → Prop) (h0 : I [] s₀)
    (hstep : ∀ tr s i o r s', I tr s → M.allow (M.after q₀ (own i tr)) o → E s o r s' →
      I (tr ++ [(i, ⟨o, r⟩)]) s') : I tr s :=
  reach_inv (fun _ => q₀) (fun i => Prog.wpOk_iff.1 (h i q₀)) I h0 hstep hr

end Effect
