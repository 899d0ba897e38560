import EdgeRoute.Lib.Prog

/-!
# Calls in turn

Calls of a service one after the other: each runs alone from where the one before it ended.

* `InTurn.inv`: what every call keeps holds after any number of them.
* `InTurn.since`: what one call establishes and the later ones keep holds at the end.
* `run_frame`: what none of the events of a run touches is as before.
-/

namespace Effect

/-- A call that was made: what it was, what it saw, how it ended, and the states around it. -/
structure Turn (S : Sig) (ε α κ σ : Type) where
  call : κ
  before : σ
  trace : List (Event S)
  result : Except ε α
  after : σ

variable {S : Sig} {ε α β κ σ γ : Type} {E : Env S σ} {prog : κ → Prog S ε α} {s₀ s s' : σ}
  {ts : List (Turn S ε α κ σ)}

/-- The call ran as the turn says. -/
def Turn.Ran (E : Env S σ) (prog : κ → Prog S ε α) (t : Turn S ε α κ σ) : Prop :=
  (prog t.call).Run E t.before t.trace t.after t.result

/-- **Calls in turn**, the newest last. -/
inductive InTurn (E : Env S σ) (prog : κ → Prog S ε α) (s₀ : σ) : List (Turn S ε α κ σ) → σ → Prop where
  | init : InTurn E prog s₀ [] s₀
  | next {ts : List (Turn S ε α κ σ)} {t : Turn S ε α κ σ} : InTurn E prog s₀ ts t.before → t.Ran E prog →
      InTurn E prog s₀ (ts ++ [t]) t.after

theorem InTurn.snoc {call : κ} {tr : List (Event S)} {x : Except ε α} (h : InTurn E prog s₀ ts s)
    (hr : (prog call).Run E s tr s' x) : InTurn E prog s₀ (ts ++ [⟨call, s, tr, x, s'⟩]) s' :=
  .next (t := ⟨call, s, tr, x, s'⟩) h hr

/-- **Invariant rule.** -/
theorem InTurn.inv (h : InTurn E prog s₀ ts s) (I : List (Turn S ε α κ σ) → σ → Prop) (h0 : I [] s₀)
    (hstep : ∀ ts t, I ts t.before → t.Ran E prog → I (ts ++ [t]) t.after) : I ts s := by
  induction h with
  | init => exact h0
  | next _ hr ih => exact hstep _ _ ih hr

/-- Every call of the run ran. -/
theorem InTurn.ran (h : InTurn E prog s₀ ts s) : ∀ t ∈ ts, t.Ran E prog := by
  refine h.inv (fun ts _ => ∀ t ∈ ts, t.Ran E prog) (by simp) fun ts t ih hr => ?_
  exact List.forall_mem_append.2 ⟨ih, by simpa using hr⟩

/-- **Once, and from then on.** -/
theorem InTurn.since (h : InTurn E prog s₀ ts s) {a b : List (Turn S ε α κ σ)} {t : Turn S ε α κ σ}
    (hts : ts = a ++ t :: b) (Q : σ → Prop) (hest : t.Ran E prog → Q t.after)
    (hkeep : ∀ u ∈ b, u.Ran E prog → Q u.before → Q u.after) : Q s := by
  induction h generalizing b with
  | init => simp at hts
  | @next ts u hin hr ih =>
    rcases List.eq_nil_or_concat b with rfl | ⟨b, v, rfl⟩
    · obtain ⟨-, hu⟩ := List.append_inj' hts rfl
      cases hu
      exact hest hr
    · rw [List.concat_eq_append, ← List.cons_append, ← List.append_assoc] at hts
      obtain ⟨hinit, hu⟩ := List.append_inj' hts rfl
      cases hu
      refine hkeep u (by simp) hr (ih hinit fun v hv => hkeep v ?_)
      rw [List.concat_eq_append]
      exact List.mem_append_left _ hv

/-- What none of the events touches is as before. -/
theorem Prog.run_frame {p : Prog S ε α} {tr : List (Event S)} {x : Except ε α} (view : σ → γ)
    (h : p.Run E s tr s' x) (hview : ∀ e ∈ tr, ∀ s s', E s e.op e.reply s' → view s' = view s) :
    view s' = view s := by
  induction p generalizing s tr with
  | ret a => obtain ⟨-, rfl, -⟩ := run_ret.1 h; rfl
  | fail e => obtain ⟨-, rfl, -⟩ := run_fail.1 h; rfl
  | call o k ih =>
    obtain ⟨r, s₁, tr₁, rfl, hE, hr⟩ := run_call.1 h
    rw [List.forall_mem_cons] at hview
    rw [ih r hr hview.2, hview.1 s s₁ hE]

end Effect
