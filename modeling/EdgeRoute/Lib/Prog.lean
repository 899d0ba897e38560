import Mathlib.Logic.Function.Basic
import Mathlib.Data.List.Induction

/-!
# Effect programs, their runs and their interleavings

A call of an asynchronous service is a finite tree of effects: each node asks the
environment for one atomic operation and goes on with the reply. The same tree
is run alone (`Prog.Run`) and stepped in turn with others (`Reach`).

* `wp_run`, `wp_reach`: a monitor specification proved on the tree holds of every
  run of it, and of every thread of every interleaving.
* `run_bind`: a run of a sequence is a run of its parts; `sat_bind`: the same for postconditions.
* `Uses.frame`: what none of a program's operations touches is as before.
* `eval_run`, `steps_reach`: a deterministic choice of the replies gives a run, and
  with a schedule an interleaving.
-/

namespace Effect

/-- A signature of effects: the operations, and the type of reply each gets. -/
structure Sig where
  Op : Type
  Reply : Op → Type

/-- A program over the signature `S` that returns an `α` or fails with an `ε`. -/
inductive Prog (S : Sig) (ε α : Type) : Type where
  | ret (a : α)
  | fail (e : ε)
  | call (o : S.Op) (k : S.Reply o → Prog S ε α)

/-- One answered operation. -/
structure Event (S : Sig) where
  op : S.Op
  reply : S.Reply op

/-- What the environment may do: state, operation, reply, next state. -/
abbrev Env (S : Sig) (σ : Type) := σ → (o : S.Op) → S.Reply o → σ → Prop

variable {S T : Sig} {ε ε' α β σ Q : Type}

/-! ## Checks without effects -/

/-- `if bad { return Err(e) }`. -/
def rejectIf (bad : Bool) (e : ε) : Except ε Unit := if bad then .error e else .ok ()

@[simp] theorem rejectIf_ok {bad : Bool} {e : ε} {u : Unit} :
    rejectIf bad e = .ok u ↔ bad = false := by cases bad <;> simp [rejectIf]

@[simp] theorem rejectIf_error {bad : Bool} {e e' : ε} :
    rejectIf bad e = .error e' ↔ bad = true ∧ e = e' := by cases bad <;> simp [rejectIf]

/-- A sequence of checks passes when its parts do. -/
theorem except_bind_ok {x : Except ε α} {f : α → Except ε β} {b : β} :
    (x >>= f) = .ok b ↔ ∃ a, x = .ok a ∧ f a = .ok b := by
  cases x <;> simp [bind, Except.bind]

/-- The same where the first part only checks. -/
theorem except_seq_ok {x : Except ε Unit} {f : Unit → Except ε β} {b : β} :
    (x >>= f) = .ok b ↔ x = .ok () ∧ f () = .ok b := by
  cases x <;> simp [bind, Except.bind]

/-- A sequence of checks fails at its first failing part. -/
theorem except_bind_error {x : Except ε α} {f : α → Except ε β} {e : ε} :
    (x >>= f) = .error e ↔ x = .error e ∨ ∃ a, x = .ok a ∧ f a = .error e := by
  cases x <;> simp [bind, Except.bind]

/-- Changing the error changes no value. -/
theorem except_mapError_ok {x : Except ε α} {f : ε → ε'} {a : α} : x.mapError f = .ok a ↔ x = .ok a := by
  cases x <;> simp [Except.mapError]

namespace Prog

def bind : Prog S ε α → (α → Prog S ε β) → Prog S ε β
  | .ret a, f => f a
  | .fail e, _ => .fail e
  | .call o k, f => .call o fun r => (k r).bind f

instance : Monad (Prog S ε) where
  pure := .ret
  bind := .bind

/-- One operation, its reply returned. -/
def op (o : S.Op) : Prog S ε (S.Reply o) := .call o .ret

/-- A computation without effects. -/
def ofExcept : Except ε α → Prog S ε α
  | .ok a => .ret a
  | .error e => .fail e

/-- Change the error, as `?` does through `From`. -/
def mapErr (f : ε → ε') : Prog S ε α → Prog S ε' α
  | .ret a => .ret a
  | .fail e => .fail (f e)
  | .call o k => .call o fun r => (k r).mapErr f

/-- Run a program and hand its failure on as a value. -/
def attempt : Prog S ε α → Prog S ε' (Except ε α)
  | .ret a => .ret (.ok a)
  | .fail e => .ret (.error e)
  | .call o k => .call o fun r => (k r).attempt

/-- Run a program of a smaller signature inside a larger one. -/
def embed (ι : S.Op → T.Op) (ρ : ∀ o, T.Reply (ι o) → S.Reply o) : Prog S ε α → Prog T ε α
  | .ret a => .ret a
  | .fail e => .fail e
  | .call o k => .call (ι o) fun r => (k (ρ o r)).embed ι ρ

/-- Two embeddings are one. -/
theorem embed_embed {U : Sig} {ι : S.Op → T.Op} {ρ : ∀ o, T.Reply (ι o) → S.Reply o} {κ : T.Op → U.Op}
    {θ : ∀ o, U.Reply (κ o) → T.Reply o} (p : Prog S ε α) :
    (p.embed ι ρ).embed κ θ = p.embed (fun o => κ (ι o)) fun o r => ρ o (θ (ι o) r) := by
  induction p with
  | ret a => rfl
  | fail e => rfl
  | call o k ih => exact congrArg (Prog.call (κ (ι o))) (funext fun r => ih _)

@[simp] theorem pure_eq (a : α) : (pure a : Prog S ε α) = .ret a := rfl

@[simp] theorem bind_eq (p : Prog S ε α) (f : α → Prog S ε β) : (p >>= f) = p.bind f := rfl

/-! ## Runs -/

/-- `Run E p s tr s' x`: from state `s`, `p` sees the events `tr`, ends in state
`s'` and returns `x`. -/
def Run (E : Env S σ) : Prog S ε α → σ → List (Event S) → σ → Except ε α → Prop
  | .ret a, s, tr, s', x => tr = [] ∧ s' = s ∧ x = .ok a
  | .fail e, s, tr, s', x => tr = [] ∧ s' = s ∧ x = .error e
  | .call o k, s, tr, s', x =>
      ∃ r s₁ tr₁, tr = ⟨o, r⟩ :: tr₁ ∧ E s o r s₁ ∧ (k r).Run E s₁ tr₁ s' x

variable {E : Env S σ}

@[simp] theorem run_ret {a : α} {s s' : σ} {tr : List (Event S)} {x : Except ε α} :
    (Prog.ret a).Run E s tr s' x ↔ tr = [] ∧ s' = s ∧ x = .ok a := Iff.rfl

@[simp] theorem run_fail {e : ε} {s s' : σ} {tr : List (Event S)} {x : Except ε α} :
    (Prog.fail e).Run E s tr s' x ↔ tr = [] ∧ s' = s ∧ x = .error e := Iff.rfl

theorem run_call {o : S.Op} {k : S.Reply o → Prog S ε α} {s s' : σ} {tr : List (Event S)}
    {x : Except ε α} : (Prog.call o k).Run E s tr s' x ↔
      ∃ r s₁ tr₁, tr = ⟨o, r⟩ :: tr₁ ∧ E s o r s₁ ∧ (k r).Run E s₁ tr₁ s' x := Iff.rfl

theorem run_ofExcept {y x : Except ε α} {s s' : σ} {tr : List (Event S)} :
    (Prog.ofExcept y).Run E s tr s' x ↔ tr = [] ∧ s' = s ∧ x = y := by cases y <;> exact Iff.rfl

/-- **A run of a sequence**: the first part fails, or returns a value the second
part goes on from. -/
theorem run_bind {p : Prog S ε α} {f : α → Prog S ε β} {s s' : σ} {tr : List (Event S)}
    {x : Except ε β} : (p.bind f).Run E s tr s' x ↔
      (∃ a s₁ tr₁ tr₂, tr = tr₁ ++ tr₂ ∧ p.Run E s tr₁ s₁ (.ok a) ∧ (f a).Run E s₁ tr₂ s' x) ∨
      ∃ e, x = .error e ∧ p.Run E s tr s' (.error e) := by
  induction p generalizing s tr with
  | ret a => simp [bind]
  | fail e =>
    simp only [bind, run_fail]
    constructor
    · rintro ⟨rfl, rfl, rfl⟩; exact .inr ⟨e, rfl, rfl, rfl, rfl⟩
    · rintro (⟨a, s₁, tr₁, tr₂, -, ⟨-, -, h⟩, -⟩ | ⟨e', rfl, rfl, rfl, h⟩)
      · cases h
      · cases h; exact ⟨rfl, rfl, rfl⟩
  | call o k ih =>
    simp only [bind, run_call, ih]
    constructor
    · rintro ⟨r, s₁, tr₁, rfl, hE, ⟨a, s₂, t₁, t₂, rfl, hp, hf⟩ | ⟨e, rfl, hp⟩⟩
      · exact .inl ⟨a, s₂, ⟨o, r⟩ :: t₁, t₂, rfl, ⟨r, s₁, t₁, rfl, hE, hp⟩, hf⟩
      · exact .inr ⟨e, rfl, r, s₁, tr₁, rfl, hE, hp⟩
    · rintro (⟨a, s₂, tr₁, t₂, rfl, ⟨r, s₁, t₁, rfl, hE, hp⟩, hf⟩ | ⟨e, rfl, r, s₁, t₁, rfl, hE, hp⟩)
      · exact ⟨r, s₁, t₁ ++ t₂, rfl, hE, .inl ⟨a, s₂, t₁, t₂, rfl, hp, hf⟩⟩
      · exact ⟨r, s₁, t₁, rfl, hE, .inr ⟨e, rfl, hp⟩⟩

@[simp] theorem bind_ret_left (a : α) (f : α → Prog S ε β) : (Prog.ret a).bind f = f a := rfl

@[simp] theorem bind_fail (e : ε) (f : α → Prog S ε β) : (Prog.fail e).bind f = .fail e := rfl

@[simp] theorem bind_call (o : S.Op) (k : S.Reply o → Prog S ε α) (f : α → Prog S ε β) :
    (Prog.call o k).bind f = .call o fun r => (k r).bind f := rfl

theorem bind_assoc {γ : Type} (p : Prog S ε α) (f : α → Prog S ε β) (g : β → Prog S ε γ) :
    (p.bind f).bind g = p.bind fun a => (f a).bind g := by
  induction p with
  | ret a => rfl
  | fail e => rfl
  | call o k ih => exact congrArg (Prog.call o) (funext ih)

theorem mapErr_bind (p : Prog S ε α) (f : α → Prog S ε β) (g : ε → ε') :
    (p.bind f).mapErr g = (p.mapErr g).bind fun a => (f a).mapErr g := by
  induction p with
  | ret a => rfl
  | fail e => rfl
  | call o k ih => exact congrArg (Prog.call o) (funext ih)

theorem mapErr_mapErr {ε'' : Type} (p : Prog S ε α) (f : ε → ε') (g : ε' → ε'') :
    (p.mapErr f).mapErr g = p.mapErr fun e => g (f e) := by
  induction p with
  | ret a => rfl
  | fail e => rfl
  | call o k ih => exact congrArg (Prog.call o) (funext ih)

theorem bind_ret_right (p : Prog S ε α) : p.bind .ret = p := by
  induction p with
  | ret a => rfl
  | fail e => rfl
  | call o k ih => exact congrArg (Prog.call o) (funext ih)

theorem run_mapErr {p : Prog S ε α} {f : ε → ε'} {s s' : σ} {tr : List (Event S)}
    {x : Except ε' α} : (p.mapErr f).Run E s tr s' x ↔
      ∃ y, x = Except.mapError f y ∧ p.Run E s tr s' y := by
  induction p generalizing s tr with
  | ret a =>
    simp only [mapErr, run_ret]
    exact ⟨fun ⟨h, h', hx⟩ => ⟨.ok a, hx, h, h', rfl⟩, by rintro ⟨y, rfl, h, h', rfl⟩; exact ⟨h, h', rfl⟩⟩
  | fail e =>
    simp only [mapErr, run_fail]
    exact ⟨fun ⟨h, h', hx⟩ => ⟨.error e, hx, h, h', rfl⟩,
      by rintro ⟨y, rfl, h, h', rfl⟩; exact ⟨h, h', rfl⟩⟩
  | call o k ih =>
    simp only [mapErr, run_call, ih]
    constructor
    · rintro ⟨r, s₁, tr₁, rfl, hE, y, rfl, h⟩; exact ⟨y, rfl, r, s₁, tr₁, rfl, hE, h⟩
    · rintro ⟨y, rfl, r, s₁, tr₁, rfl, hE, h⟩; exact ⟨r, s₁, tr₁, rfl, hE, y, rfl, h⟩

theorem run_attempt {p : Prog S ε α} {s s' : σ} {tr : List (Event S)} {x : Except ε' (Except ε α)} :
    (p.attempt : Prog S ε' (Except ε α)).Run E s tr s' x ↔ ∃ y, x = .ok y ∧ p.Run E s tr s' y := by
  induction p generalizing s tr with
  | ret a =>
    simp only [attempt, run_ret]
    exact ⟨fun ⟨h, h', hx⟩ => ⟨.ok a, hx, h, h', rfl⟩, by rintro ⟨y, rfl, h, h', rfl⟩; exact ⟨h, h', rfl⟩⟩
  | fail e =>
    simp only [attempt, run_ret, run_fail]
    exact ⟨fun ⟨h, h', hx⟩ => ⟨.error e, hx, h, h', rfl⟩, by rintro ⟨y, rfl, h, h', rfl⟩; exact ⟨h, h', rfl⟩⟩
  | call o k ih =>
    simp only [attempt, run_call, ih]
    constructor
    · rintro ⟨r, s₁, tr₁, rfl, hE, y, rfl, h⟩; exact ⟨y, rfl, r, s₁, tr₁, rfl, hE, h⟩
    · rintro ⟨y, rfl, r, s₁, tr₁, rfl, hE, h⟩; exact ⟨r, s₁, tr₁, rfl, hE, y, rfl, h⟩

/-- A run of an embedded program is a run of the program, on the part of the state it sees, with the same events. -/
theorem run_embed_events {τ : Type} {F : Env T τ} {ι : S.Op → T.Op} {ρ : ∀ o, T.Reply (ι o) → S.Reply o}
    {get : τ → σ} (put : τ → σ → τ) (hself : ∀ t, put t (get t) = t) (hget : ∀ t s, get (put t s) = s)
    (hput : ∀ t s s', put (put t s) s' = put t s')
    (hF : ∀ t o r t', F t (ι o) r t' → ∃ s', E (get t) o (ρ o r) s' ∧ t' = put t s')
    {p : Prog S ε α} {t t' : τ} {tr : List (Event T)} {x : Except ε α}
    (h : (p.embed ι ρ).Run F t tr t' x) :
    ∃ tr' s', p.Run E (get t) tr' s' x ∧ t' = put t s' ∧
      ∀ e ∈ tr', ∃ r, ρ e.op r = e.reply ∧ (⟨ι e.op, r⟩ : Event T) ∈ tr := by
  induction p generalizing t tr with
  | ret a =>
    obtain ⟨-, rfl, rfl⟩ := h
    exact ⟨[], get t', ⟨rfl, rfl, rfl⟩, (hself t').symm, fun e he => nomatch he⟩
  | fail e =>
    obtain ⟨-, rfl, rfl⟩ := h
    exact ⟨[], get t', ⟨rfl, rfl, rfl⟩, (hself t').symm, fun e he => nomatch he⟩
  | call o k ih =>
    obtain ⟨r, t₁, tr₁, rfl, hE, hr⟩ := h
    obtain ⟨s₁, hs, rfl⟩ := hF t o r t₁ hE
    obtain ⟨tr', s', hrun, rfl, hmem⟩ := ih _ hr
    rw [hget] at hrun
    refine ⟨⟨o, ρ o r⟩ :: tr', s', ⟨_, s₁, tr', rfl, hs, hrun⟩, hput _ _ _, List.forall_mem_cons.2 ⟨?_, fun e he => ?_⟩⟩
    · exact ⟨r, rfl, List.mem_cons_self⟩
    · obtain ⟨r', hr', he'⟩ := hmem e he
      exact ⟨r', hr', List.mem_cons_of_mem _ he'⟩

theorem run_embed {τ : Type} {F : Env T τ} {ι : S.Op → T.Op} {ρ : ∀ o, T.Reply (ι o) → S.Reply o}
    {get : τ → σ} (put : τ → σ → τ) (hself : ∀ t, put t (get t) = t) (hget : ∀ t s, get (put t s) = s)
    (hput : ∀ t s s', put (put t s) s' = put t s')
    (hF : ∀ t o r t', F t (ι o) r t' → ∃ s', E (get t) o (ρ o r) s' ∧ t' = put t s')
    {p : Prog S ε α} {t t' : τ} {tr : List (Event T)} {x : Except ε α}
    (h : (p.embed ι ρ).Run F t tr t' x) :
    ∃ tr' s', p.Run E (get t) tr' s' x ∧ t' = put t s' := by
  obtain ⟨tr', s', hrun, ht, -⟩ := run_embed_events put hself hget hput hF h
  exact ⟨tr', s', hrun, ht⟩

theorem run_bind_ok {p : Prog S ε α} {f : α → Prog S ε β} {s s' : σ} {tr : List (Event S)} {b : β} :
    (p.bind f).Run E s tr s' (.ok b) ↔
      ∃ a s₁ tr₁ tr₂, tr = tr₁ ++ tr₂ ∧ p.Run E s tr₁ s₁ (.ok a) ∧ (f a).Run E s₁ tr₂ s' (.ok b) := by
  rw [run_bind]
  constructor
  · rintro (h | ⟨e, h, -⟩)
    · exact h
    · cases h
  · exact .inl

/-- A computation without effects before the rest of a run. -/
theorem run_ofExcept_bind_ok {y : Except ε α} {f : α → Prog S ε β} {s s' : σ} {tr : List (Event S)} {b : β} :
    ((Prog.ofExcept y).bind f).Run E s tr s' (.ok b) ↔ ∃ a, y = .ok a ∧ (f a).Run E s tr s' (.ok b) := by
  cases y <;> simp [ofExcept]

/-- The runs of an environment that gives only events in `P`. -/
theorem run_restrict {p : Prog S ε α} {P : Event S → Prop} {s s' : σ} {tr : List (Event S)} {x : Except ε α} :
    p.Run (fun s o r s' => E s o r s' ∧ P ⟨o, r⟩) s tr s' x ↔ p.Run E s tr s' x ∧ ∀ e ∈ tr, P e := by
  induction p generalizing s tr with
  | ret a =>
    refine ⟨fun h => ⟨h, ?_⟩, fun h => h.1⟩
    rw [(run_ret.1 h).1]
    simp
  | fail e =>
    refine ⟨fun h => ⟨h, ?_⟩, fun h => h.1⟩
    rw [(run_fail.1 h).1]
    simp
  | call o k ih =>
    constructor
    · rintro ⟨r, s₁, tr₁, rfl, ⟨hE, hP⟩, hr⟩
      obtain ⟨hrun, hall⟩ := (ih r).1 hr
      exact ⟨⟨r, s₁, tr₁, rfl, hE, hrun⟩, List.forall_mem_cons.2 ⟨hP, hall⟩⟩
    · rintro ⟨⟨r, s₁, tr₁, rfl, hE, hr⟩, hP⟩
      rw [List.forall_mem_cons] at hP
      exact ⟨r, s₁, tr₁, rfl, ⟨hE, hP.1⟩, (ih r).2 ⟨hr, hP.2⟩⟩

/-- A run of an environment is one of every environment that can do as much. -/
theorem run_mono {F : Env S σ} (hEF : ∀ s o r s', E s o r s' → F s o r s') {p : Prog S ε α} {s s' : σ}
    {tr : List (Event S)} {x : Except ε α} (h : p.Run E s tr s' x) : p.Run F s tr s' x := by
  induction p generalizing s tr with
  | ret a => exact h
  | fail e => exact h
  | call o k ih =>
    obtain ⟨r, s₁, tr₁, rfl, hE, hr⟩ := h
    exact ⟨r, s₁, tr₁, rfl, hEF _ _ _ _ hE, ih r hr⟩

/-- Where every operation has a reply, every program has a run. -/
theorem exists_run (hE : ∀ s o, ∃ r s', E s o r s') (p : Prog S ε α) (s : σ) :
    ∃ tr s' x, p.Run E s tr s' x := by
  induction p generalizing s with
  | ret a => exact ⟨[], s, .ok a, rfl, rfl, rfl⟩
  | fail e => exact ⟨[], s, .error e, rfl, rfl, rfl⟩
  | call o k ih =>
    obtain ⟨r, s₁, h⟩ := hE s o
    obtain ⟨tr, s', x, hr⟩ := ih r s₁
    exact ⟨⟨o, r⟩ :: tr, s', x, r, s₁, tr, rfl, h, hr⟩

/-! ## Operations -/

/-- Every operation the program can ask for satisfies `P`. -/
def Uses (P : S.Op → Prop) : Prog S ε α → Prop
  | .ret _ => True
  | .fail _ => True
  | .call o k => P o ∧ ∀ r, (k r).Uses P

section Uses

variable {P P' : S.Op → Prop} {p : Prog S ε α}

theorem uses_ret {a : α} : (Prog.ret a : Prog S ε α).Uses P := trivial

theorem uses_fail {e : ε} : (Prog.fail e : Prog S ε α).Uses P := trivial

theorem uses_call {o : S.Op} {k : S.Reply o → Prog S ε α} (ho : P o) (h : ∀ r, (k r).Uses P) :
    (Prog.call o k).Uses P := ⟨ho, h⟩

theorem uses_call_iff {o : S.Op} {k : S.Reply o → Prog S ε α} :
    (Prog.call o k).Uses P ↔ P o ∧ ∀ r, (k r).Uses P := Iff.rfl

theorem uses_ofExcept {x : Except ε α} : (Prog.ofExcept x : Prog S ε α).Uses P := by
  cases x <;> trivial

theorem uses_of_forall (h : ∀ o, P o) : p.Uses P := by
  induction p with
  | ret a => trivial
  | fail e => trivial
  | call o k ih => exact ⟨h o, ih⟩

theorem uses_bind {f : α → Prog S ε β} (h : p.Uses P) (hf : ∀ a, (f a).Uses P) : (p.bind f).Uses P := by
  induction p with
  | ret a => exact hf a
  | fail e => trivial
  | call o k ih => exact ⟨h.1, fun r => ih r (h.2 r)⟩

theorem uses_ofExcept_bind {x : Except ε α} {f : α → Prog S ε β} (hf : ∀ a, x = .ok a → (f a).Uses P) :
    ((Prog.ofExcept x).bind f).Uses P := by
  cases x with
  | ok a => exact hf a rfl
  | error e => trivial

theorem uses_mono (hP : ∀ o, P o → P' o) (h : p.Uses P) : p.Uses P' := by
  induction p with
  | ret a => trivial
  | fail e => trivial
  | call o k ih => exact ⟨hP o h.1, fun r => ih r (h.2 r)⟩

theorem uses_mapErr {f : ε → ε'} (h : p.Uses P) : (p.mapErr f).Uses P := by
  induction p with
  | ret a => trivial
  | fail e => trivial
  | call o k ih => exact ⟨h.1, fun r => ih r (h.2 r)⟩

theorem uses_attempt (h : p.Uses P) : (p.attempt : Prog S ε' (Except ε α)).Uses P := by
  induction p with
  | ret a => trivial
  | fail e => trivial
  | call o k ih => exact ⟨h.1, fun r => ih r (h.2 r)⟩

theorem uses_embed {ι : S.Op → T.Op} {ρ : ∀ o, T.Reply (ι o) → S.Reply o} {P' : T.Op → Prop}
    (hP : ∀ o, P o → P' (ι o)) (h : p.Uses P) : (p.embed ι ρ).Uses P' := by
  induction p with
  | ret a => trivial
  | fail e => trivial
  | call o k ih => exact ⟨hP o h.1, fun r => ih _ (h.2 _)⟩

/-- The operations of a run are operations of the program. -/
theorem Uses.mem {tr : List (Event S)} {s s' : σ} {x : Except ε α} (h : p.Uses P)
    (hr : p.Run E s tr s' x) : ∀ e ∈ tr, P e.op := by
  induction p generalizing s tr with
  | ret a => obtain ⟨rfl, -⟩ := hr; simp
  | fail e => obtain ⟨rfl, -⟩ := hr; simp
  | call o k ih =>
    obtain ⟨r, s₁, tr₁, rfl, -, hr⟩ := hr
    exact List.forall_mem_cons.2 ⟨h.1, ih r (h.2 r) hr⟩

/-- A program has a run where each of its operations has a reply. -/
theorem exists_run_of_uses (h : p.Uses P) (hE : ∀ s o, P o → ∃ r s', E s o r s') (s : σ) :
    ∃ tr s' x, p.Run E s tr s' x := by
  induction p generalizing s with
  | ret a => exact ⟨[], s, .ok a, rfl, rfl, rfl⟩
  | fail e => exact ⟨[], s, .error e, rfl, rfl, rfl⟩
  | call o k ih =>
    obtain ⟨r, s₁, hr⟩ := hE s o h.1
    obtain ⟨tr, s', x, hrun⟩ := ih r (h.2 r) s₁
    exact ⟨⟨o, r⟩ :: tr, s', x, r, s₁, tr, rfl, hr, hrun⟩

/-- **Frame rule.** What none of the operations touches is as before. -/
theorem Uses.frame {γ : Type} {view : σ → γ} {tr : List (Event S)} {s s' : σ} {x : Except ε α}
    (h : p.Uses P) (hview : ∀ s o r s', P o → E s o r s' → view s' = view s)
    (hr : p.Run E s tr s' x) : view s' = view s := by
  induction p generalizing s tr with
  | ret a => obtain ⟨-, rfl, -⟩ := hr; rfl
  | fail e => obtain ⟨-, rfl, -⟩ := hr; rfl
  | call o k ih =>
    obtain ⟨r, s₁, tr₁, -, hE, hr⟩ := hr
    rw [ih r (h.2 r) hr, hview s o r s₁ h.1 hE]

end Uses

/-- **One run.** Where the environment has one reply to every operation of the program, all its runs are alike. -/
theorem run_unique {P : S.Op → Prop} {p : Prog S ε α} (h : p.Uses P)
    (hE : ∀ s o r s' r' s'', P o → E s o r s' → E s o r' s'' → r = r' ∧ s' = s'') {s s₁ s₂ : σ}
    {tr₁ tr₂ : List (Event S)} {x₁ x₂ : Except ε α} (h₁ : p.Run E s tr₁ s₁ x₁) (h₂ : p.Run E s tr₂ s₂ x₂) :
    s₁ = s₂ ∧ x₁ = x₂ := by
  induction p generalizing s tr₁ tr₂ with
  | ret a =>
    obtain ⟨-, rfl, rfl⟩ := h₁
    obtain ⟨-, rfl, rfl⟩ := h₂
    exact ⟨rfl, rfl⟩
  | fail e =>
    obtain ⟨-, rfl, rfl⟩ := h₁
    obtain ⟨-, rfl, rfl⟩ := h₂
    exact ⟨rfl, rfl⟩
  | call o k ih =>
    obtain ⟨r, t, tr, -, hr, hrest⟩ := h₁
    obtain ⟨r', t', tr', -, hr', hrest'⟩ := h₂
    obtain ⟨rfl, rfl⟩ := hE s o r t r' t' h.1 hr hr'
    exact ih r (h.2 r) hrest hrest'

/-- Every failure of the program satisfies `P`. -/
def Errs (P : ε → Prop) : Prog S ε α → Prop
  | .ret _ => True
  | .fail e => P e
  | .call _ k => ∀ r, (k r).Errs P

section Errs

variable {P : ε → Prop} {p : Prog S ε α}

theorem errs_ret {a : α} : (Prog.ret a : Prog S ε α).Errs P := trivial

theorem errs_fail {e : ε} (h : P e) : (Prog.fail e : Prog S ε α).Errs P := h

theorem errs_call {o : S.Op} {k : S.Reply o → Prog S ε α} (h : ∀ r, (k r).Errs P) : (Prog.call o k).Errs P := h

theorem errs_ofExcept {x : Except ε α} (h : ∀ e, x = .error e → P e) : (Prog.ofExcept x : Prog S ε α).Errs P := by
  cases x with
  | ok a => trivial
  | error e => exact h e rfl

theorem errs_bind {f : α → Prog S ε β} (h : p.Errs P) (hf : ∀ a, (f a).Errs P) : (p.bind f).Errs P := by
  induction p with
  | ret a => exact hf a
  | fail e => exact h
  | call o k ih => exact fun r => ih r (h r)

theorem errs_mapErr {f : ε' → ε} {p : Prog S ε' α} (h : ∀ e, P (f e)) : (p.mapErr f).Errs P := by
  induction p with
  | ret a => trivial
  | fail e => exact h e
  | call o k ih => exact ih

/-- A failure that is handed on as a value is none. -/
theorem errs_attempt {p : Prog S ε' α} : (p.attempt : Prog S ε (Except ε' α)).Errs P := by
  induction p with
  | ret a => trivial
  | fail e => trivial
  | call o k ih => exact ih

theorem Errs.of_run {tr : List (Event S)} {s s' : σ} {e : ε} (h : p.Errs P) (hr : p.Run E s tr s' (.error e)) :
    P e := by
  induction p generalizing s tr with
  | ret a => obtain ⟨-, -, he⟩ := hr; cases he
  | fail e' => obtain ⟨-, -, he⟩ := hr; cases he; exact h
  | call o k ih =>
    obtain ⟨r, s₁, tr₁, -, -, hr⟩ := hr
    exact ih r (h r) hr

end Errs

/-- Every event of a run that returns is in `P`. -/
def Clean (E : Env S σ) (P : Event S → Prop) (p : Prog S ε α) : Prop :=
  ∀ s tr s' a, p.Run E s tr s' (.ok a) → ∀ e ∈ tr, P e

section Clean

variable {P : Event S → Prop} {p : Prog S ε α}

theorem clean_of_uses (h : p.Uses fun o => ∀ r, P ⟨o, r⟩) : p.Clean E P :=
  fun _ _ _ _ hr e he => h.mem hr e he e.reply

theorem clean_bind {f : α → Prog S ε β} (h : p.Clean E P) (hf : ∀ a, (f a).Clean E P) : (p.bind f).Clean E P := by
  intro s tr s' b hr
  obtain ⟨a, s₁, tr₁, tr₂, rfl, hp, hrest⟩ := run_bind_ok.1 hr
  exact List.forall_mem_append.2 ⟨h _ _ _ _ hp, hf a _ _ _ _ hrest⟩

/-- A program that never returns. -/
theorem clean_bind_fail {f : α → Prog S ε β} (hf : ∀ a s tr s' b, ¬ (f a).Run E s tr s' (.ok b)) :
    (p.bind f).Clean E P := by
  intro s tr s' b hr
  obtain ⟨a, s₁, tr₁, tr₂, -, -, hrest⟩ := run_bind_ok.1 hr
  exact absurd hrest (hf _ _ _ _ _)

end Clean

/-- **Postconditions.** Every run of `p` from `s` ends in a state and with a result in `post`. It
is used through its rules, never unfolded. -/
@[irreducible] def Sat (E : Env S σ) (p : Prog S ε α) (s : σ) (post : σ → Except ε α → Prop) : Prop :=
  ∀ tr s' x, p.Run E s tr s' x → post s' x

theorem sat_iff {p : Prog S ε α} {s : σ} {post : σ → Except ε α → Prop} :
    p.Sat E s post ↔ ∀ tr s' x, p.Run E s tr s' x → post s' x := by unfold Sat; rfl

section Sat

variable {p : Prog S ε α} {s : σ} {post post' : σ → Except ε α → Prop}

theorem Sat.of_run {tr : List (Event S)} {s' : σ} {x : Except ε α} (h : p.Sat E s post)
    (hr : p.Run E s tr s' x) : post s' x := sat_iff.1 h tr s' x hr

theorem sat_ret {a : α} (h : post s (.ok a)) : (Prog.ret a).Sat E s post :=
  sat_iff.2 fun _ _ _ ⟨_, hs, hx⟩ => hs ▸ hx ▸ h

theorem sat_fail {e : ε} (h : post s (.error e)) : (Prog.fail e).Sat E s post :=
  sat_iff.2 fun _ _ _ ⟨_, hs, hx⟩ => hs ▸ hx ▸ h

theorem sat_ofExcept {x : Except ε α} (h : post s x) : (Prog.ofExcept x).Sat E s post := by
  cases x with
  | ok a => exact sat_ret h
  | error e => exact sat_fail h

theorem sat_call {o : S.Op} {k : S.Reply o → Prog S ε α}
    (h : ∀ r s', E s o r s' → (k r).Sat E s' post) : (Prog.call o k).Sat E s post :=
  sat_iff.2 fun _ _ _ ⟨r, s₁, _, _, hE, hr⟩ => (h r s₁ hE).of_run hr

theorem sat_mono (hpost : ∀ s x, post s x → post' s x) (h : p.Sat E s post) : p.Sat E s post' :=
  sat_iff.2 fun _ _ _ hr => hpost _ _ (h.of_run hr)

theorem sat_and (h : p.Sat E s post) (h' : p.Sat E s post') : p.Sat E s fun s' x => post s' x ∧ post' s' x :=
  sat_iff.2 fun _ _ _ hr => ⟨h.of_run hr, h'.of_run hr⟩

theorem sat_mapErr {f : ε → ε'} {post : σ → Except ε' α → Prop} (h : p.Sat E s fun s' x => post s' (x.mapError f)) :
    (p.mapErr f).Sat E s post := by
  refine sat_iff.2 fun tr s' x hr => ?_
  obtain ⟨y, rfl, hp⟩ := run_mapErr.1 hr
  exact h.of_run hp

theorem sat_attempt {post : σ → Except ε' (Except ε α) → Prop} (h : p.Sat E s fun s' x => post s' (.ok x)) :
    (p.attempt : Prog S ε' (Except ε α)).Sat E s post := by
  refine sat_iff.2 fun tr s' x hr => ?_
  obtain ⟨y, rfl, hp⟩ := run_attempt.1 hr
  exact h.of_run hp

/-- **Invariant rule.** What every operation of the program keeps holds at its end. -/
theorem sat_of_uses {P : S.Op → Prop} {I : σ → Prop} (h : p.Uses P)
    (hstep : ∀ s o r s', P o → E s o r s' → I s → I s') (hI : I s) : p.Sat E s fun s' _ => I s' := by
  refine sat_iff.2 fun tr s' x hr => ?_
  induction p generalizing s tr with
  | ret a => obtain ⟨-, rfl, -⟩ := hr; exact hI
  | fail e => obtain ⟨-, rfl, -⟩ := hr; exact hI
  | call o k ih =>
    obtain ⟨r, s₁, tr₁, -, hE, hr⟩ := hr
    exact ih r (h.2 r) (hstep s o r s₁ h.1 hE hI) tr₁ hr

/-- The second part starts where the first returned; a failure of the first is the end. -/
theorem sat_bind {f : α → Prog S ε β} {post : σ → Except ε β → Prop}
    (h : p.Sat E s fun s₁ x =>
      (∀ a, x = .ok a → (f a).Sat E s₁ post) ∧ ∀ e, x = .error e → post s₁ (.error e)) :
    (p.bind f).Sat E s post := by
  refine sat_iff.2 fun tr s' x hr => ?_
  rcases run_bind.1 hr with ⟨a, s₁, tr₁, tr₂, -, hp, hf⟩ | ⟨e, rfl, hp⟩
  · exact ((h.of_run hp).1 a rfl).of_run hf
  · exact (h.of_run hp).2 e rfl

end Sat

/-! ## Returns -/

/-- From `s`, `p` can return `a` in the state `s'`. -/
def Returns (E : Env S σ) (p : Prog S ε α) (s s' : σ) (a : α) : Prop := ∃ tr, p.Run E s tr s' (.ok a)

section Returns

variable {s s' : σ}

theorem returns_ret {a b : α} : (Prog.ret a : Prog S ε α).Returns E s s' b ↔ s' = s ∧ a = b := by
  constructor
  · intro ⟨tr, h⟩
    obtain ⟨-, hs, hb⟩ := run_ret.1 h
    exact ⟨hs, (Except.ok.inj hb).symm⟩
  · intro ⟨hs, hb⟩
    exact ⟨[], run_ret.2 ⟨rfl, hs, by rw [hb]⟩⟩

theorem returns_ofExcept {x : Except ε α} {a : α} :
    (Prog.ofExcept x : Prog S ε α).Returns E s s' a ↔ s' = s ∧ x = .ok a := by
  constructor
  · intro ⟨tr, h⟩
    obtain ⟨-, hs, hx⟩ := run_ofExcept.1 h
    exact ⟨hs, hx.symm⟩
  · intro ⟨hs, hx⟩
    exact ⟨[], run_ofExcept.2 ⟨rfl, hs, hx.symm⟩⟩

theorem not_returns_fail {e : ε} {a : α} : ¬ (Prog.fail e : Prog S ε α).Returns E s s' a := by
  intro ⟨tr, h⟩
  exact nomatch (run_fail.1 h).2.2

/-- The parts of a sequence return one after the other. -/
theorem returns_bind {p : Prog S ε α} {f : α → Prog S ε β} {b : β} :
    (p.bind f).Returns E s s' b ↔ ∃ a s₁, p.Returns E s s₁ a ∧ (f a).Returns E s₁ s' b := by
  constructor
  · intro ⟨tr, h⟩
    obtain ⟨a, s₁, tr₁, tr₂, -, hp, hf⟩ := run_bind_ok.1 h
    exact ⟨a, s₁, ⟨tr₁, hp⟩, tr₂, hf⟩
  · intro ⟨a, s₁, ⟨tr₁, hp⟩, tr₂, hf⟩
    exact ⟨tr₁ ++ tr₂, run_bind_ok.2 ⟨a, s₁, tr₁, tr₂, rfl, hp, hf⟩⟩

end Returns

/-- **Success.** Some run of `p` from `s` returns, in a state and with a value in `post`. -/
def Can (E : Env S σ) (p : Prog S ε α) (s : σ) (post : σ → α → Prop) : Prop :=
  ∃ tr s' a, p.Run E s tr s' (.ok a) ∧ post s' a

section Can

variable {p : Prog S ε α} {s : σ} {post post' : σ → α → Prop}

theorem can_ret {a : α} (h : post s a) : (Prog.ret a : Prog S ε α).Can E s post :=
  ⟨[], s, a, ⟨rfl, rfl, rfl⟩, h⟩

theorem can_ofExcept {x : Except ε α} {a : α} (hx : x = .ok a) (h : post s a) :
    (Prog.ofExcept x : Prog S ε α).Can E s post := by
  subst hx
  exact can_ret h

theorem can_call {o : S.Op} {k : S.Reply o → Prog S ε α} {r : S.Reply o} {s' : σ} (hE : E s o r s')
    (h : (k r).Can E s' post) : (Prog.call o k).Can E s post := by
  obtain ⟨tr, s'', a, hr, hpost⟩ := h
  exact ⟨⟨o, r⟩ :: tr, s'', a, ⟨r, s', tr, rfl, hE, hr⟩, hpost⟩

theorem can_mono (hpost : ∀ s a, post s a → post' s a) (h : p.Can E s post) : p.Can E s post' := by
  obtain ⟨tr, s', a, hr, h⟩ := h
  exact ⟨tr, s', a, hr, hpost s' a h⟩

theorem can_bind {f : α → Prog S ε β} {post : σ → β → Prop}
    (h : p.Can E s fun s₁ a => (f a).Can E s₁ post) : (p.bind f).Can E s post := by
  obtain ⟨tr, s₁, a, hp, tr', s', b, hf, hpost⟩ := h
  exact ⟨tr ++ tr', s', b, run_bind.2 (.inl ⟨a, s₁, tr, tr', rfl, hp, hf⟩), hpost⟩

theorem can_mapErr {f : ε → ε'} (h : p.Can E s post) : (p.mapErr f).Can E s post := by
  obtain ⟨tr, s', a, hr, hpost⟩ := h
  exact ⟨tr, s', a, run_mapErr.2 ⟨.ok a, rfl, hr⟩, hpost⟩

theorem can_attempt (h : p.Can E s post) :
    (p.attempt : Prog S ε' (Except ε α)).Can E s fun s' x => ∃ a, x = .ok a ∧ post s' a := by
  obtain ⟨tr, s', a, hr, hpost⟩ := h
  induction p generalizing s tr with
  | ret b =>
    obtain ⟨-, rfl, hb⟩ := hr
    exact can_ret ⟨a, hb ▸ rfl, hpost⟩
  | fail e => obtain ⟨-, -, hb⟩ := hr; cases hb
  | call o k ih =>
    obtain ⟨r, s₁, tr₁, -, hE, hr⟩ := hr
    exact can_call hE (ih r tr₁ hr)

/-- A program that succeeds on a part of the state succeeds inside the larger one. -/
theorem can_embed {τ : Type} {F : Env T τ} {ι : S.Op → T.Op} {ρ : ∀ o, T.Reply (ι o) → S.Reply o}
    {get : τ → σ} (put : τ → σ → τ) (hself : ∀ t, put t (get t) = t) (hget : ∀ t s, get (put t s) = s)
    (hput : ∀ t s s', put (put t s) s' = put t s')
    (hF : ∀ t o r s', E (get t) o r s' → ∃ r', ρ o r' = r ∧ F t (ι o) r' (put t s')) {t : τ}
    (h : p.Can E (get t) post) :
    (p.embed ι ρ).Can F t fun t' a => ∃ s', t' = put t s' ∧ post s' a := by
  obtain ⟨tr, s', a, hr, hpost⟩ := h
  induction p generalizing t tr with
  | ret b =>
    obtain ⟨-, rfl, hb⟩ := hr
    exact can_ret ⟨get t, (hself t).symm, Except.ok.inj hb ▸ hpost⟩
  | fail e => obtain ⟨-, -, hb⟩ := hr; cases hb
  | call o k ih =>
    obtain ⟨r, s₁, tr₁, -, hE, hr⟩ := hr
    obtain ⟨r', rfl, hF'⟩ := hF t o r s₁ hE
    refine can_call hF' (can_mono ?_ (ih (ρ o r') (t := put t s₁) tr₁ (by rw [hget]; exact hr)))
    rintro t' b ⟨s₂, rfl, h⟩
    exact ⟨s₂, hput t s₁ s₂, h⟩

/-- **Possible events.** Some run of `p` from `s` has an event in `P`. -/
def May (E : Env S σ) (p : Prog S ε α) (s : σ) (P : Event S → Prop) : Prop :=
  ∃ tr s' x, p.Run E s tr s' x ∧ ∃ e ∈ tr, P e

theorem may_bind_left {f : α → Prog S ε β} {P : Event S → Prop} (hE : ∀ s o, ∃ r s', E s o r s')
    (h : p.May E s P) : (p.bind f).May E s P := by
  obtain ⟨tr, s₁, x, hp, e, he, hP⟩ := h
  cases x with
  | error err => exact ⟨tr, s₁, .error err, run_bind.2 (.inr ⟨err, rfl, hp⟩), e, he, hP⟩
  | ok a =>
    obtain ⟨tr', s', y, hr⟩ := exists_run hE (f a) s₁
    exact ⟨tr ++ tr', s', y, run_bind.2 (.inl ⟨a, s₁, tr, tr', rfl, hp, hr⟩), e, List.mem_append_left _ he, hP⟩

theorem may_bind_right {f : α → Prog S ε β} {P : Event S → Prop} (h : p.Can E s post)
    (hf : ∀ s₁ a, post s₁ a → (f a).May E s₁ P) : (p.bind f).May E s P := by
  obtain ⟨tr, s₁, a, hp, hpost⟩ := h
  obtain ⟨tr', s', x, hr, e, he, hP⟩ := hf s₁ a hpost
  exact ⟨tr ++ tr', s', x, run_bind.2 (.inl ⟨a, s₁, tr, tr', rfl, hp, hr⟩), e, List.mem_append_right _ he, hP⟩

end Can

/-! ## Monitors -/

end Prog

/-- A monitor: a ghost state that follows the events of one program, and the
operations the program may ask for in each ghost state. -/
structure Monitor (S : Sig) (Q : Type) where
  allow : Q → S.Op → Prop
  next : Q → Event S → Q

namespace Monitor

/-- The ghost state after some events. -/
def after (M : Monitor S Q) (q : Q) (tr : List (Event S)) : Q := tr.foldl M.next q

/-- Every operation of the events was allowed when it was asked for. -/
def Accepts (M : Monitor S Q) : Q → List (Event S) → Prop
  | _, [] => True
  | q, e :: tr => M.allow q e.op ∧ M.Accepts (M.next q e) tr

/-- The operation is allowed, and no reply to it moves the ghost state. -/
def Quiet (M : Monitor S Q) (q : Q) (o : S.Op) : Prop := M.allow q o ∧ ∀ r, M.next q ⟨o, r⟩ = q

variable (M : Monitor S Q) (q : Q)

@[simp] theorem after_nil : M.after q [] = q := rfl

@[simp] theorem after_cons (e : Event S) (tr : List (Event S)) :
    M.after q (e :: tr) = M.after (M.next q e) tr := rfl

theorem after_append (tr tr' : List (Event S)) :
    M.after q (tr ++ tr') = M.after (M.after q tr) tr' := List.foldl_append ..

theorem accepts_append {tr tr' : List (Event S)} :
    M.Accepts q (tr ++ tr') ↔ M.Accepts q tr ∧ M.Accepts (M.after q tr) tr' := by
  induction tr generalizing q with
  | nil => simp [Accepts]
  | cons e tr ih => simp only [List.cons_append, Accepts, ih, after_cons, and_assoc]

/-- **Invariant rule for accepted traces.** -/
theorem Accepts.inv {M : Monitor S Q} {q : Q} {tr : List (Event S)} {I : List (Event S) → Q → Prop}
    (h : M.Accepts q tr) (h0 : I [] q)
    (hstep : ∀ tr q e, I tr q → M.allow q e.op → I (tr ++ [e]) (M.next q e)) : I tr (M.after q tr) := by
  induction tr using List.reverseRecOn with
  | nil => exact h0
  | append_singleton tr e ih =>
    obtain ⟨htr, he⟩ := (M.accepts_append q).1 h
    rw [M.after_append]
    exact hstep tr _ e (ih htr) he.1

/-- An accepted operation was allowed by the ghost state of the events before it. -/
theorem Accepts.allow_of_split {M : Monitor S Q} {q : Q} {pre post : List (Event S)} {e : Event S}
    (h : M.Accepts q (pre ++ e :: post)) : M.allow (M.after q pre) e.op := by
  induction pre generalizing q with
  | nil => exact h.1
  | cons e' pre ih => exact ih h.2

end Monitor

namespace Prog

/-- **Weakest precondition** of a program for a monitor: whatever the environment
replies, each operation is allowed when asked for, and the ghost state and result
at the end satisfy `post`. -/
def wp (M : Monitor S Q) : Prog S ε α → (Q → Except ε α → Prop) → Q → Prop
  | .ret a, post, q => post q (.ok a)
  | .fail e, post, q => post q (.error e)
  | .call o k, post, q => M.allow q o ∧ ∀ r, (k r).wp M post (M.next q ⟨o, r⟩)

variable {M : Monitor S Q} {q : Q}

@[simp] theorem wp_ret {a : α} {post : Q → Except ε α → Prop} :
    (Prog.ret a).wp M post q ↔ post q (.ok a) := Iff.rfl

@[simp] theorem wp_fail {e : ε} {post : Q → Except ε α → Prop} :
    (Prog.fail e).wp M post q ↔ post q (.error e) := Iff.rfl

@[simp] theorem wp_call {o : S.Op} {k : S.Reply o → Prog S ε α} {post : Q → Except ε α → Prop} :
    (Prog.call o k).wp M post q ↔ M.allow q o ∧ ∀ r, (k r).wp M post (M.next q ⟨o, r⟩) := Iff.rfl

/-- The postcondition of the first part of a sequence. -/
def andThen (M : Monitor S Q) (f : α → Prog S ε β) (post : Q → Except ε β → Prop) (q : Q) :
    Except ε α → Prop
  | .ok a => (f a).wp M post q
  | .error e => post q (.error e)

@[simp] theorem wp_bind {p : Prog S ε α} {f : α → Prog S ε β} {post : Q → Except ε β → Prop} :
    (p.bind f).wp M post q ↔ p.wp M (andThen M f post) q := by
  induction p generalizing q with
  | ret a => rfl
  | fail e => rfl
  | call o k ih => simp only [bind, wp_call, ih]

theorem wp_mono {p : Prog S ε α} {post post' : Q → Except ε α → Prop}
    (hpost : ∀ q x, post q x → post' q x) (h : p.wp M post q) : p.wp M post' q := by
  induction p generalizing q with
  | ret a => exact hpost _ _ h
  | fail e => exact hpost _ _ h
  | call o k ih => exact ⟨h.1, fun r => ih r (h.2 r)⟩

theorem wp_mapErr {p : Prog S ε α} {f : ε → ε'} {post : Q → Except ε' α → Prop} :
    (p.mapErr f).wp M post q ↔ p.wp M (fun q x => post q (x.mapError f)) q := by
  induction p generalizing q with
  | ret a => rfl
  | fail e => rfl
  | call o k ih => simp only [mapErr, wp_call, ih]

theorem wp_attempt {p : Prog S ε α} {post : Q → Except ε' (Except ε α) → Prop} :
    (p.attempt : Prog S ε' (Except ε α)).wp M post q ↔ p.wp M (fun q x => post q (.ok x)) q := by
  induction p generalizing q with
  | ret a => rfl
  | fail e => rfl
  | call o k ih => simp only [attempt, wp_call, ih]

/-- The weakest precondition for the values returned only: a failure owes nothing more. It is
used through its rules, never unfolded. -/
@[irreducible] def wpOk (M : Monitor S Q) (p : Prog S ε α) (post : Q → α → Prop) (q : Q) : Prop :=
  p.wp M (fun q x => ∀ a, x = .ok a → post q a) q

theorem wpOk_iff {p : Prog S ε α} {post : Q → α → Prop} :
    p.wpOk M post q ↔ p.wp M (fun q x => ∀ a, x = .ok a → post q a) q := by
  unfold wpOk; rfl

theorem wpOk_ret {a : α} {post : Q → α → Prop} (h : post q a) :
    (Prog.ret a : Prog S ε α).wpOk M post q := wpOk_iff.2 fun _ ha => Except.ok.inj ha ▸ h

theorem wpOk_fail {e : ε} {post : Q → α → Prop} : (Prog.fail e : Prog S ε α).wpOk M post q :=
  wpOk_iff.2 fun _ ha => nomatch ha

theorem wpOk_call {o : S.Op} {k : S.Reply o → Prog S ε α} {post : Q → α → Prop} (ho : M.allow q o)
    (h : ∀ r, (k r).wpOk M post (M.next q ⟨o, r⟩)) : (Prog.call o k).wpOk M post q :=
  wpOk_iff.2 ⟨ho, fun r => wpOk_iff.1 (h r)⟩

theorem wpOk_ofExcept {x : Except ε α} {post : Q → α → Prop} (h : ∀ a, x = .ok a → post q a) :
    (Prog.ofExcept x : Prog S ε α).wpOk M post q := by
  cases x with
  | ok a => exact wpOk_ret (h a rfl)
  | error e => exact wpOk_fail

/-- **Sequencing.** -/
theorem wpOk_bind {p : Prog S ε α} {f : α → Prog S ε β} {post : Q → β → Prop}
    (h : p.wpOk M (fun q a => (f a).wpOk M post q) q) : (p.bind f).wpOk M post q := by
  rw [wpOk_iff] at h
  induction p generalizing q with
  | ret a => exact h a rfl
  | fail e => exact wpOk_fail
  | call o k ih => exact wpOk_call h.1 fun r => ih r (h.2 r)

theorem wpOk_attempt {p : Prog S ε α} {post : Q → α → Prop} (h : p.wpOk M post q) :
    (p.attempt : Prog S ε' (Except ε α)).wpOk M (fun q x => ∀ a, x = .ok a → post q a) q := by
  refine wpOk_iff.2 (wp_attempt.2 (wp_mono (fun q x hx y hy => ?_) (wpOk_iff.1 h)))
  rw [← Except.ok.inj hy]
  exact hx

theorem wpOk_mono {p : Prog S ε α} {post post' : Q → α → Prop} (hpost : ∀ q a, post q a → post' q a)
    (h : p.wpOk M post q) : p.wpOk M post' q :=
  wpOk_iff.2 (wp_mono (fun q _ hx a ha => hpost q a (hx a ha)) (wpOk_iff.1 h))

/-- A program whose operations are all `Quiet` leaves the ghost state alone. -/
theorem wp_of_uses {p : Prog S ε α} (h : p.Uses (M.Quiet q)) : p.wp M (fun q' _ => q' = q) q := by
  induction p with
  | ret a => rfl
  | fail e => rfl
  | call o k ih =>
    refine ⟨h.1.1, fun r => ?_⟩
    rw [h.1.2 r]
    exact ih r (h.2 r)

theorem wpOk_of_uses {p : Prog S ε α} (h : p.Uses (M.Quiet q)) {post : Q → α → Prop} (hpost : ∀ a, post q a) :
    p.wpOk M post q := by
  refine wpOk_iff.2 (wp_mono ?_ (wp_of_uses h))
  rintro q' x rfl a -
  exact hpost a

theorem wpOk_bind_of_uses {p : Prog S ε α} {f : α → Prog S ε β} {post : Q → β → Prop}
    (h : p.Uses (M.Quiet q)) (hf : ∀ a, (f a).wpOk M post q) : (p.bind f).wpOk M post q :=
  wpOk_bind (wpOk_of_uses h hf)

theorem wpOk_mapErr {p : Prog S ε α} {f : ε → ε'} {post : Q → α → Prop} (h : p.wpOk M post q) :
    (p.mapErr f).wpOk M post q := by
  refine wpOk_iff.2 (wp_mapErr.2 (wp_mono (fun q x hx a ha => ?_) (wpOk_iff.1 h)))
  exact hx a (except_mapError_ok.1 ha)

/-- A program whose operations are allowed at any time. -/
theorem wpOk_of_allow {p : Prog S ε α} (h : p.Uses fun o => ∀ q, M.allow q o) :
    p.wpOk M (fun _ _ => True) q := by
  induction p generalizing q with
  | ret a => exact wpOk_ret trivial
  | fail e => exact wpOk_fail
  | call o k ih => exact wpOk_call (h.1 q) fun r => ih r (h.2 r)

/-- A specification carries over to the embedded program, for a monitor that agrees on its operations. -/
theorem wpOk_embed {ι : S.Op → T.Op} {ρ : ∀ o, T.Reply (ι o) → S.Reply o} {N : Monitor T Q}
    (hallow : ∀ q o, M.allow q o → N.allow q (ι o))
    (hnext : ∀ q o r, N.next q ⟨ι o, r⟩ = M.next q ⟨o, ρ o r⟩) {p : Prog S ε α} {post : Q → α → Prop}
    (h : p.wpOk M post q) : (p.embed ι ρ).wpOk N post q := by
  rw [wpOk_iff] at h
  induction p generalizing q with
  | ret a => exact wpOk_ret (h a rfl)
  | fail e => exact wpOk_fail
  | call o k ih =>
    refine wpOk_call (hallow q o h.1) fun r => ?_
    rw [hnext]
    exact ih _ (h.2 _)

/-- **Soundness for runs.** -/
theorem wp_run {E : Env S σ} {p : Prog S ε α} {post : Q → Except ε α → Prop} {s s' : σ}
    {tr : List (Event S)} {x : Except ε α} (h : p.wp M post q) (hr : p.Run E s tr s' x) :
    post (M.after q tr) x ∧ M.Accepts q tr := by
  induction p generalizing q s tr with
  | ret a => obtain ⟨rfl, -, rfl⟩ := hr; exact ⟨h, trivial⟩
  | fail e => obtain ⟨rfl, -, rfl⟩ := hr; exact ⟨h, trivial⟩
  | call o k ih =>
    obtain ⟨r, s₁, tr₁, rfl, -, hr⟩ := hr
    obtain ⟨h1, h2⟩ := ih r (h.2 r) hr
    exact ⟨h1, h.1, h2⟩

/-- **Invariant rule for runs.** A property of ghost state and state that every allowed operation
keeps holds at the end. -/
theorem wp_run_inv {E : Env S σ} {p : Prog S ε α} {post : Q → Except ε α → Prop} {I : Q → σ → Prop}
    {s s' : σ} {tr : List (Event S)} {x : Except ε α} (h : p.wp M post q) (h0 : I q s)
    (hstep : ∀ q s o r s', I q s → M.allow q o → E s o r s' → I (M.next q ⟨o, r⟩) s')
    (hr : p.Run E s tr s' x) : I (M.after q tr) s' := by
  induction p generalizing q s tr with
  | ret a => obtain ⟨rfl, rfl, -⟩ := hr; exact h0
  | fail e => obtain ⟨rfl, rfl, -⟩ := hr; exact h0
  | call o k ih =>
    obtain ⟨r, s₁, tr₁, rfl, hE, hr⟩ := hr
    rw [M.after_cons]
    exact ih r (h.2 r) (hstep q s o r s₁ h0 h.1 hE) hr

end Prog

/-! ## Interleavings -/

/-- The events of thread `i` in an interleaved trace. -/
def own (i : ℕ) (tr : List (ℕ × Event S)) : List (Event S) :=
  tr.filterMap fun p => if p.1 = i then some p.2 else none

@[simp] theorem own_nil (i : ℕ) : own (S := S) i [] = [] := rfl

theorem own_append (i : ℕ) (tr tr' : List (ℕ × Event S)) :
    own i (tr ++ tr') = own i tr ++ own i tr' := List.filterMap_append

@[simp] theorem own_snoc_self (i : ℕ) (tr : List (ℕ × Event S)) (e : Event S) :
    own i (tr ++ [(i, e)]) = own i tr ++ [e] := by simp [own]

@[simp] theorem own_snoc_ne {i j : ℕ} (h : i ≠ j) (tr : List (ℕ × Event S)) (e : Event S) :
    own i (tr ++ [(j, e)]) = own i tr := by simp [own, h.symm]

/-- An own event stands somewhere in the interleaved trace. -/
theorem own_split {i : ℕ} {e : Event S} {tr : List (ℕ × Event S)} {xs ys : List (Event S)}
    (h : own i tr = xs ++ e :: ys) : ∃ a b, tr = a ++ (i, e) :: b ∧ own i a = xs ∧ own i b = ys := by
  induction tr generalizing xs with
  | nil => simp at h
  | cons p tr ih =>
    obtain ⟨j, e'⟩ := p
    by_cases hij : j = i
    · subst hij
      have hown : own j ((j, e') :: tr) = e' :: own j tr := by simp [own]
      rw [hown] at h
      cases xs with
      | nil =>
        cases h
        exact ⟨[], tr, rfl, rfl, rfl⟩
      | cons x xs =>
        obtain ⟨rfl, htl⟩ := List.cons.inj h
        obtain ⟨a, b, rfl, ha, hb⟩ := ih htl
        exact ⟨(j, e') :: a, b, rfl, by rw [← ha]; simp [own], hb⟩
    · have hown : ∀ l, own i ((j, e') :: l) = own i l := fun l => by simp [own, hij]
      rw [hown] at h
      obtain ⟨a, b, rfl, ha, hb⟩ := ih h
      exact ⟨(j, e') :: a, b, rfl, by rw [hown, ha], hb⟩

/-- The events of one thread alone. -/
theorem own_tagged (i j : ℕ) (tr : List (Event S)) : own i (tr.map fun e => (j, e)) = if j = i then tr else [] := by
  unfold own
  rw [List.filterMap_map]
  split
  · rename_i hj
    rw [show ((fun p : ℕ × Event S => if p.1 = i then some p.2 else none) ∘ fun e => (j, e)) = some from
      funext fun e => if_pos hj, List.filterMap_some]
  · rename_i hj
    exact List.filterMap_eq_nil_iff.2 fun e _ => if_neg hj

theorem mem_own {i : ℕ} {e : Event S} {tr : List (ℕ × Event S)} : e ∈ own i tr ↔ (i, e) ∈ tr := by
  simp [own]

/-- One event moves the ghost state of its own thread and of no other. -/
theorem Monitor.after_own_snoc (M : Monitor S Q) (q₀ : ℕ → Q) (tr : List (ℕ × Event S)) (i : ℕ) (e : Event S) :
    (fun j => M.after (q₀ j) (own j (tr ++ [(i, e)]))) =
      Function.update (fun j => M.after (q₀ j) (own j tr)) i (M.next (M.after (q₀ i) (own i tr)) e) := by
  funext j
  by_cases hj : j = i
  · subst hj
    rw [Function.update_self, own_snoc_self, M.after_append]
    rfl
  · rw [Function.update_of_ne hj, own_snoc_ne hj]

/-- **Interleavings.** Thread `i` starts as the program `calls i`; at each step some
thread that is not done has its next operation answered. A call that never moves
is a call that was never made, so any number of clients is covered. -/
inductive Reach (E : Env S σ) (calls : ℕ → Prog S ε α) (s₀ : σ) :
    List (ℕ × Event S) → (ℕ → Prog S ε α) → σ → Prop where
  | init : Reach E calls s₀ [] calls s₀
  | step {tr : List (ℕ × Event S)} {pool : ℕ → Prog S ε α} {s s' : σ} {i : ℕ} {o : S.Op}
      {k : S.Reply o → Prog S ε α} {r : S.Reply o} : Reach E calls s₀ tr pool s →
      pool i = .call o k → E s o r s' →
      Reach E calls s₀ (tr ++ [(i, ⟨o, r⟩)]) (Function.update pool i (k r)) s'

section Reach

variable {E : Env S σ} {calls pool : ℕ → Prog S ε α} {s₀ s : σ} {tr : List (ℕ × Event S)}
  {M : Monitor S Q} {post : ℕ → Q → Except ε α → Prop} (q₀ : ℕ → Q)

/-- **Soundness for interleavings**: each thread still satisfies the specification,
from the ghost state its own events lead to. -/
theorem wp_reach (h : ∀ i, (calls i).wp M (post i) (q₀ i)) (hr : Reach E calls s₀ tr pool s) (i : ℕ) :
    (pool i).wp M (post i) (M.after (q₀ i) (own i tr)) := by
  induction hr with
  | init => exact h i
  | @step tr pool s s' j o k r _ hp _ ih =>
    by_cases hij : i = j
    · subst hij
      rw [hp] at ih
      rw [Function.update_self, own_snoc_self, M.after_append]
      exact ih.2 r
    · rw [Function.update_of_ne hij, own_snoc_ne hij]; exact ih

/-- **Invariant rule.** A property of trace and state that every allowed operation
keeps holds in every reachable state. -/
theorem reach_inv (h : ∀ i, (calls i).wp M (post i) (q₀ i)) (I : List (ℕ × Event S) → σ → Prop)
    (h0 : I [] s₀)
    (hstep : ∀ tr s i o r s', I tr s → M.allow (M.after (q₀ i) (own i tr)) o → E s o r s' →
      I (tr ++ [(i, ⟨o, r⟩)]) s')
    (hr : Reach E calls s₀ tr pool s) : I tr s := by
  induction hr with
  | init => exact h0
  | @step tr pool s s' i o k r hr hp hE ih =>
    have hw := wp_reach q₀ h hr i
    rw [hp] at hw
    exact hstep tr s i o r s' ih hw.1 hE

end Reach

/-- The own events of each thread were allowed when they were asked for. -/
theorem Reach.accepts {E : Env S σ} {calls pool : ℕ → Prog S ε α} {s₀ s : σ} {tr : List (ℕ × Event S)}
    {M : Monitor S Q} {post : ℕ → Q → Except ε α → Prop} (q₀ : ℕ → Q) (h : ∀ i, (calls i).wp M (post i) (q₀ i))
    (hr : Reach E calls s₀ tr pool s) (i : ℕ) : M.Accepts (q₀ i) (own i tr) := by
  refine reach_inv q₀ h (fun tr _ => ∀ i, M.Accepts (q₀ i) (own i tr)) (fun _ => trivial) ?_ hr i
  intro tr s j o r s' ih hallow _ i
  by_cases hij : i = j
  · subst hij
    rw [own_snoc_self]
    exact (M.accepts_append _).2 ⟨ih i, hallow, trivial⟩
  · rw [own_snoc_ne hij]
    exact ih i

/-- Whatever the other threads are, a thread asks for nothing that its program does not use. -/
theorem Reach.uses {E : Env S σ} {calls pool : ℕ → Prog S ε α} {s₀ s : σ} {tr : List (ℕ × Event S)} {P : S.Op → Prop}
    {i : ℕ} (h : (calls i).Uses P) (hr : Reach E calls s₀ tr pool s) :
    (pool i).Uses P ∧ ∀ e, (i, e) ∈ tr → P e.op := by
  induction hr with
  | init => exact ⟨h, fun e he => absurd he List.not_mem_nil⟩
  | @step tr pool s s' j o k r _ hp _ ih =>
    by_cases hij : i = j
    · subst hij
      rw [hp] at ih
      refine ⟨?_, fun e he => ?_⟩
      · rw [Function.update_self]
        exact ih.1.2 r
      · rcases List.mem_append.1 he with he | he
        · exact ih.2 e he
        · obtain rfl := (Prod.mk.inj (List.mem_singleton.1 he)).2
          exact ih.1.1
    · rw [Function.update_of_ne hij]
      refine ⟨ih.1, fun e he => ?_⟩
      rcases List.mem_append.1 he with he | he
      · exact ih.2 e he
      · exact absurd (Prod.mk.inj (List.mem_singleton.1 he)).1 hij

/-- A run of the next part of a thread, with no other thread in between. -/
theorem Reach.run {E : Env S σ} {calls pool : ℕ → Prog S ε α} {s₀ s s' : σ} {tr : List (ℕ × Event S)}
    {i : ℕ} {p : Prog S ε β} {f : β → Prog S ε α} {tr' : List (Event S)} {b : β}
    (hr : Reach E calls s₀ tr pool s) (hp : pool i = p.bind f) (h : p.Run E s tr' s' (.ok b)) :
    Reach E calls s₀ (tr ++ tr'.map fun e => (i, e)) (Function.update pool i (f b)) s' := by
  induction p generalizing s tr tr' pool with
  | ret a =>
    obtain ⟨rfl, rfl, hb⟩ := h
    cases hb
    rw [List.map_nil, List.append_nil, show f b = pool i from hp.symm, Function.update_eq_self]
    exact hr
  | fail e => obtain ⟨-, -, hb⟩ := h; cases hb
  | call o k ih =>
    obtain ⟨r, s₁, tr₁, rfl, hE, h⟩ := h
    have hstep := hr.step hp hE
    have hrest := ih r hstep (Function.update_self ..) h
    rw [Function.update_idem] at hrest
    simpa using hrest

/-- The part of an interleaving after a prefix of its trace is one of the threads as they stand there. -/
theorem Reach.split {E : Env S σ} {calls pool : ℕ → Prog S ε α} {s₀ s : σ} {pre suf : List (ℕ × Event S)}
    (hr : Reach E calls s₀ (pre ++ suf) pool s) :
    ∃ pool₁ s₁, Reach E calls s₀ pre pool₁ s₁ ∧ Reach E pool₁ s₁ suf pool s := by
  induction suf using List.reverseRecOn generalizing pool s with
  | nil => rw [List.append_nil] at hr; exact ⟨pool, s, hr, .init⟩
  | append_singleton suf e ih =>
    rw [← List.append_assoc] at hr
    generalize htr : pre ++ suf ++ [e] = tr at hr
    cases hr with
    | init => simp at htr
    | @step tr' pool' s₂ s' i o k r hr hp hE =>
      obtain ⟨rfl, he⟩ := List.append_inj' htr rfl
      cases he
      obtain ⟨pool₁, s₁, h₁, h₂⟩ := ih hr
      exact ⟨pool₁, s₁, h₁, h₂.step hp hE⟩

/-! ## Deterministic replies -/

/-- An environment that always has exactly one reply. -/
abbrev Handler (S : Sig) (σ : Type) := σ → (o : S.Op) → S.Reply o × σ

/-- Run a program alone against a handler. -/
def Prog.eval (H : Handler S σ) : Prog S ε α → σ → List (Event S) × σ × Except ε α
  | .ret a, s => ([], s, .ok a)
  | .fail e, s => ([], s, .error e)
  | .call o k, s =>
      let (r, s₁) := H s o
      let (tr, s', x) := (k r).eval H s₁
      (⟨o, r⟩ :: tr, s', x)

theorem eval_run {E : Env S σ} {H : Handler S σ} (hH : ∀ s o, E s o (H s o).1 (H s o).2)
    (p : Prog S ε α) (s : σ) :
    p.Run E s (p.eval H s).1 (p.eval H s).2.1 (p.eval H s).2.2 := by
  induction p generalizing s with
  | ret a => exact ⟨rfl, rfl, rfl⟩
  | fail e => exact ⟨rfl, rfl, rfl⟩
  | call o k ih => exact ⟨(H s o).1, (H s o).2, _, rfl, hH s o, ih _ _⟩

/-- The threads of a schedule in turn, against a handler; a thread that is done
is passed over. -/
def steps (H : Handler S σ) : List ℕ → List (ℕ × Event S) × (ℕ → Prog S ε α) × σ →
    List (ℕ × Event S) × (ℕ → Prog S ε α) × σ
  | [], c => c
  | i :: is, (tr, pool, s) =>
      match pool i with
      | .call o k =>
          steps H is (tr ++ [(i, ⟨o, (H s o).1⟩)], Function.update pool i (k (H s o).1), (H s o).2)
      | _ => steps H is (tr, pool, s)

theorem steps_reach {E : Env S σ} {H : Handler S σ} (hH : ∀ s o, E s o (H s o).1 (H s o).2)
    {calls : ℕ → Prog S ε α} {s₀ : σ} (is : List ℕ)
    (c : List (ℕ × Event S) × (ℕ → Prog S ε α) × σ) (hc : Reach E calls s₀ c.1 c.2.1 c.2.2) :
    Reach E calls s₀ (steps H is c).1 (steps H is c).2.1 (steps H is c).2.2 := by
  induction is generalizing c with
  | nil => exact hc
  | cons i is ih =>
    obtain ⟨tr, pool, s⟩ := c
    simp only [steps]
    split
    · rename_i o k hp
      exact ih _ (hc.step hp (hH s o))
    · exact ih _ hc

-- outside this module these go by their rules, so that no program is unfolded to compare two of them
attribute [irreducible] Prog.Run Prog.wp Prog.Uses Prog.Errs

end Effect
