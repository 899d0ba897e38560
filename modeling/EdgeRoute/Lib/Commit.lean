import EdgeRoute.Lib.Trail

/-!
# Programs with one point of effect

A call that looks around, makes one write that others see, and then only finishes up. What it saw can be played again
from another state, up to that write, and completed from there.

* `Leads`, `Follows`: the events lead from a program to what is left of it, and from a state to another.
* `Leads.run`: **what is left goes on where the events end**: both together are a run of the program.
* `Prog.Commits`: the program returns only after an event that counts. It is closed under sequencing.
* `Leads.commits`, `Leads.after`: a thread that has not seen such an event has it still to come; one that has seen it
  only finishes up.
-/

namespace Effect

variable {S T : Sig} {ε ε' α β σ : Type} {E : Env S σ} {p q : Prog S ε α} {s s' s'' : σ} {tr tr' : List (Event S)}
  {e : Event S}

/-! ## Up to an event -/

/-- The replies lead from a program to what is left of it. -/
inductive Leads (p : Prog S ε α) : List (Event S) → Prog S ε α → Prop where
  | nil : Leads p [] p
  | snoc {tr : List (Event S)} {o : S.Op} {k : S.Reply o → Prog S ε α} {r : S.Reply o} :
      Leads p tr (.call o k) → Leads p (tr ++ [⟨o, r⟩]) (k r)

/-- The environment answers the events one after the other. -/
inductive Follows (E : Env S σ) (s : σ) : List (Event S) → σ → Prop where
  | nil : Follows E s [] s
  | snoc {tr : List (Event S)} {s' s'' : σ} {e : Event S} :
      Follows E s tr s' → E s' e.op e.reply s'' → Follows E s (tr ++ [e]) s''

/-- A thread has come as far as its own events lead. -/
theorem Reach.leads {calls pool : ℕ → Prog S ε α} {s₀ : σ} {tr : List (ℕ × Event S)}
    (hr : Reach E calls s₀ tr pool s) (i : ℕ) : Leads (calls i) (own i tr) (pool i) := by
  induction hr with
  | init => exact .nil
  | @step tr pool s s' j o k r _ hp _ ih =>
    by_cases hij : i = j
    · subst hij
      rw [Function.update_self, own_snoc_self]
      rw [hp] at ih
      exact ih.snoc
    · rw [Function.update_of_ne hij, own_snoc_ne hij]
      exact ih

/-- **What is left goes on where the events end.** -/
theorem Leads.run {x : Except ε α} (h : Leads p tr q) (hs : Follows E s tr s') (hr : q.Run E s' tr' s'' x) :
    p.Run E s (tr ++ tr') s'' x := by
  induction h generalizing s' tr' with
  | nil =>
    generalize htr : [] = es at hs
    cases hs with
    | nil => exact hr
    | snoc _ _ => simp at htr
  | @snoc tr o k r _ ih =>
    generalize htr : tr ++ [(⟨o, r⟩ : Event S)] = es at hs
    cases hs with
    | nil => simp at htr
    | @snoc tr₁ s₁ _ e hs hE =>
      obtain ⟨rfl, he⟩ := List.append_inj' htr rfl
      cases he
      rw [← htr, List.append_assoc]
      exact ih hs (Prog.run_call.2 ⟨r, s', tr', rfl, hE, hr⟩)

/-! ## The event that counts -/

namespace Prog

/-- **A program with one point of effect.** Up to the first event that counts it asks only for operations in `before`;
`left` is what is left of it after that event, and `post` holds where it ends without one. -/
def Commits (before : S.Op → Prop) (W : Event S → Prop) (left : Prog S ε α → Prop) (post : Except ε α → Prop) :
    Prog S ε α → Prop
  | .ret a => post (.ok a)
  | .fail e => post (.error e)
  | .call o k => before o ∧ ∀ r, (W ⟨o, r⟩ → left (k r)) ∧ (¬ W ⟨o, r⟩ → (k r).Commits before W left post)

variable {before : S.Op → Prop} {W : Event S → Prop} {left left' : Prog S ε α → Prop} {post post' : Except ε α → Prop}

theorem commits_ret_iff {a : α} : (Prog.ret a : Prog S ε α).Commits before W left post ↔ post (.ok a) := Iff.rfl

theorem commits_call_iff {o : S.Op} {k : S.Reply o → Prog S ε α} : (Prog.call o k).Commits before W left post ↔
    before o ∧ ∀ r, (W ⟨o, r⟩ → left (k r)) ∧ (¬ W ⟨o, r⟩ → (k r).Commits before W left post) := Iff.rfl

theorem commits_fail {e : ε} (h : post (.error e)) : (Prog.fail e : Prog S ε α).Commits before W left post := h

theorem commits_call {o : S.Op} {k : S.Reply o → Prog S ε α} (ho : before o) (hleft : ∀ r, W ⟨o, r⟩ → left (k r))
    (h : ∀ r, ¬ W ⟨o, r⟩ → (k r).Commits before W left post) : (Prog.call o k).Commits before W left post :=
  ⟨ho, fun r => ⟨hleft r, h r⟩⟩

theorem commits_mono (hleft : ∀ q, left q → left' q) (hpost : ∀ x, post x → post' x)
    (h : p.Commits before W left post) : p.Commits before W left' post' := by
  induction p with
  | ret a => exact hpost _ h
  | fail e => exact hpost _ h
  | call o k ih => exact ⟨h.1, fun r => ⟨fun hw => hleft _ ((h.2 r).1 hw), fun hno => ih r ((h.2 r).2 hno)⟩⟩

/-- **Sequencing**: the event comes in the first part, or the first part returns and it comes later. -/
theorem commits_bind {f : α → Prog S ε β} {left : Prog S ε β → Prop} {post : Except ε β → Prop}
    (h : p.Commits before W (fun q => left (q.bind f)) fun x => match x with
      | .ok a => (f a).Commits before W left post
      | .error e => post (.error e)) : (p.bind f).Commits before W left post := by
  induction p with
  | ret a => exact h
  | fail e => exact h
  | call o k ih => exact ⟨h.1, fun r => ⟨(h.2 r).1, fun hno => ih r ((h.2 r).2 hno)⟩⟩

theorem commits_mapErr {f : ε → ε'} {left : Prog S ε' α → Prop} {post : Except ε' α → Prop}
    (h : p.Commits before W (fun q => left (q.mapErr f)) fun x => post (x.mapError f)) :
    (p.mapErr f).Commits before W left post := by
  induction p with
  | ret a => exact h
  | fail e => exact h
  | call o k ih => exact ⟨h.1, fun r => ⟨(h.2 r).1, fun hno => ih r ((h.2 r).2 hno)⟩⟩

theorem commits_attempt {left : Prog S ε' (Except ε α) → Prop} {post : Except ε' (Except ε α) → Prop}
    (h : p.Commits before W (fun q => left q.attempt) fun x => post (.ok x)) :
    (p.attempt : Prog S ε' (Except ε α)).Commits before W left post := by
  induction p with
  | ret a => exact h
  | fail e => exact h
  | call o k ih => exact ⟨h.1, fun r => ⟨(h.2 r).1, fun hno => ih r ((h.2 r).2 hno)⟩⟩

/-- The outcome of a program that has not come to the event. -/
abbrev Unreturned (x : Except ε α) : Prop := ∃ e, x = .error e

/-- A check before the event. -/
theorem commits_ofExcept_bind {x : Except ε α} {f : α → Prog S ε β} {left : Prog S ε β → Prop}
    (h : ∀ a, x = .ok a → (f a).Commits before W left Unreturned) :
    ((Prog.ofExcept x).bind f).Commits before W left Unreturned := by
  cases x with
  | ok a => exact h a rfl
  | error e => exact ⟨e, rfl⟩

/-- The same inside a larger signature. -/
theorem commits_embed {ι : S.Op → T.Op} {ρ : ∀ o, T.Reply (ι o) → S.Reply o} {before' : T.Op → Prop}
    {W' : Event T → Prop} {left : Prog T ε α → Prop} (hbefore : ∀ o, before o → before' (ι o))
    (hW : ∀ o r, W' ⟨ι o, r⟩ ↔ W ⟨o, ρ o r⟩) (h : p.Commits before W (fun q => left (q.embed ι ρ)) post) :
    (p.embed ι ρ).Commits before' W' left post := by
  induction p with
  | ret a => exact h
  | fail e => exact h
  | call o k ih =>
    refine ⟨hbefore o h.1, fun r => ⟨fun hw => (h.2 _).1 ((hW o r).1 hw), fun hno => ih _ ((h.2 _).2 ?_)⟩⟩
    exact fun hw => hno ((hW o r).2 hw)

/-- A program without such an event. -/
theorem commits_of_uses (h : p.Uses fun o => before o ∧ ∀ r, ¬ W ⟨o, r⟩) (hpost : ∀ x, post x) :
    p.Commits before W left post := by
  induction p with
  | ret a => exact hpost _
  | fail e => exact hpost _
  | call o k ih =>
    have h := uses_call_iff.1 h
    exact ⟨h.1.1, fun r => ⟨fun hw => absurd hw (h.1.2 r), fun _ => ih r (h.2 r)⟩⟩

/-- What the program may ask for before and after the event. -/
theorem Commits.uses {P : S.Op → Prop} (h : p.Commits before W left post) (hbefore : ∀ o, before o → P o)
    (hleft : ∀ q, left q → q.Uses P) : p.Uses P := by
  induction p with
  | ret a => exact uses_ret
  | fail e => exact uses_fail
  | call o k ih =>
    refine uses_call (hbefore o h.1) fun r => ?_
    by_cases hw : W ⟨o, r⟩
    · exact hleft _ ((h.2 r).1 hw)
    · exact ih r ((h.2 r).2 hw)

/-- A part before the event. -/
theorem commits_bind_of_uses {f : α → Prog S ε β} {left : Prog S ε β → Prop}
    (h : p.Uses fun o => before o ∧ ∀ r, ¬ W ⟨o, r⟩) (hf : ∀ a, (f a).Commits before W left Unreturned) :
    (p.bind f).Commits before W left Unreturned := by
  refine commits_bind (commits_of_uses h fun x => ?_)
  cases x with
  | ok a => exact hf a
  | error e => exact ⟨e, rfl⟩

end Prog

variable {before : S.Op → Prop} {W : Event S → Prop} {left : Prog S ε α → Prop} {post : Except ε α → Prop}

/-- As long as the event has not come, it is still to come. -/
theorem Leads.commits (h : Leads p tr q) (hp : p.Commits before W left post) (hno : ∀ e ∈ tr, ¬ W e) :
    q.Commits before W left post := by
  induction h with
  | nil => exact hp
  | @snoc tr o k r _ ih =>
    have hrest := ih fun e he => hno e (List.mem_append_left _ he)
    exact (hrest.2 r).2 (hno _ (List.mem_append_right _ (List.mem_singleton_self _)))

/-- Once the event has come, only what may follow it is asked for. -/
theorem Leads.after {P : S.Op → Prop} (h : Leads p tr q) (hp : p.Commits before W left post)
    (hleft : ∀ q, left q → q.Uses P) (hw : ∃ e ∈ tr, W e) : q.Uses P := by
  induction h with
  | nil => obtain ⟨e, he, -⟩ := hw; exact absurd he List.not_mem_nil
  | @snoc tr o k r hlead ih =>
    by_cases hbefore : ∃ e ∈ tr, W e
    · exact (Prog.uses_call_iff.1 (ih hbefore)).2 r
    · have hno : ∀ e ∈ tr, ¬ W e := fun e he hwe => hbefore ⟨e, he, hwe⟩
      obtain ⟨e, he, hwe⟩ := hw
      have hlast : e = ⟨o, r⟩ := by
        rcases List.mem_append.1 he with he | he
        · exact absurd hwe (hno e he)
        · exact List.mem_singleton.1 he
      subst hlast
      exact hleft _ ((hlead.commits hp hno).2 r |>.1 hwe)

attribute [irreducible] Prog.Commits

end Effect
