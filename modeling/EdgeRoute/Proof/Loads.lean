import EdgeRoute.Proof.Converge

/-!
# The file between check and load

Several calls may write, check and load the file at one path, and nothing orders their steps.

* `allOk_reconcile`: a reconcile that returns has had all its commands succeed.
* `files_of_reach`: the file is what was last written to it.
* `history_of_accepts`: a call writes its text once, checks it and then loads it.
* `loads_own_ruleset`: **a load takes the ruleset of its own call where no other call wrote the path in
  between.**
-/

namespace EdgeRoute

open Effect

variable {C : Codec} {calls : ℕ → HostCall} {pool : ℕ → HostProg Unit} {w w' w₀ : World} {path text : String}
  {q q₀ : Progress} {i j : ℕ}

/-! ## Commands -/

/-- The `nft` or `ip` command, if the event is one, exited with status zero. -/
def CommandOk : Event HostSig → Prop
  | ⟨.nft _ _, r⟩ => r.Succeeded
  | ⟨.ip _, r⟩ => r.Succeeded
  | _ => True

/-- In every run of the program that returns, all commands exited with status zero. -/
abbrev AllOk {α : Type} (p : HostProg α) : Prop := p.Clean hostEnv CommandOk

section AllOk

variable {α : Type} {config : EdgeConfig} {options : ReconcileOptions} {ms : List Mapping}

theorem allOk_ret {a : α} : AllOk (.ret a) := Prog.clean_of_uses Prog.uses_ret

theorem allOk_liftStore {p : StoreProg α} : AllOk (liftStore p) :=
  Prog.clean_of_uses (liftStore_uses (Prog.uses_of_forall fun _ _ => trivial))

theorem allOk_recordFailure {event message : String} {error : ReconcileError} :
    AllOk (recordFailure (α := α) C text event message error) :=
  Prog.clean_bind allOk_liftStore fun _ => Prog.clean_bind_fail fun _ _ _ _ _ h =>
    nomatch (Prog.run_fail.1 h).2.2

theorem allOk_writeRuleset : AllOk (writeRuleset C path text) := by
  refine Prog.clean_bind (Prog.clean_of_uses (Prog.uses_call (fun _ => trivial) fun _ => Prog.uses_ret)) fun r => ?_
  cases r with
  | ok u => exact allOk_ret
  | error e => exact allOk_recordFailure

/-- `nft` with a program that returns only where the status is zero. -/
theorem allOk_runNft {mode : NftMode} {f : CommandOutput → HostProg α} (hf : ∀ output, AllOk (f output))
    (hbad : ∀ output, output.isSuccess = false → ∀ w tr w' a, ¬ (f output).Run hostEnv w tr w' (.ok a)) :
    AllOk ((runNft mode path).bind f) := by
  intro w tr w' a hr
  obtain ⟨output, w₁, tr₁, tr₂, rfl, hrun, hrest⟩ := Prog.run_bind_ok.1 hr
  obtain ⟨r, w₂, tr₃, rfl, -, hret⟩ := Prog.run_call.1 hrun
  obtain ⟨rfl, -, hx⟩ := Prog.run_ofExcept.1 hret
  refine List.forall_mem_append.2 ⟨?_, hf output _ _ _ _ hrest⟩
  cases r with
  | timedOut => cases hx
  | ioError message => cases hx
  | exited output' =>
    cases hx
    cases hs : output.isSuccess with
    | true => simpa [CommandOk, Outcome.Succeeded] using hs
    | false => exact absurd hrest (hbad output hs _ _ _ _)

theorem recordFailure_not_ok {event message : String} {error : ReconcileError} {tr : List (Event HostSig)} {a : α} :
    ¬ (recordFailure C text event message error).Run hostEnv w tr w' (.ok a) := by
  intro h
  obtain ⟨_, _, _, _, -, -, h⟩ := Prog.run_bind_ok.1 h
  obtain ⟨_, _, _, _, -, -, h⟩ := Prog.run_bind_ok.1 h
  exact nomatch (Prog.run_fail.1 h).2.2

theorem allOk_checkRuleset : AllOk (checkRuleset C path text) := by
  refine allOk_runNft (fun output => ?_) fun output hs w tr w' a h => ?_
  · split
    · exact Prog.clean_bind allOk_liftStore fun _ => allOk_ret
    · exact allOk_recordFailure
  · rw [if_neg (by simp [hs])] at h
    exact recordFailure_not_ok h

theorem allOk_applyStep : AllOk (applyStep C options text) := by
  unfold applyStep
  split
  · refine allOk_runNft (fun output => ?_) fun output hs w tr w' a h => ?_
    · split
      · exact allOk_ret
      · exact allOk_recordFailure
    · rw [if_neg (by simp [hs])] at h
      exact recordFailure_not_ok h
  · exact allOk_ret

theorem allOk_runIp {command : IpCommand} : AllOk (runIp command) := by
  intro w tr w' output hr
  obtain ⟨r, rfl, -, hx⟩ := runIp_run hr
  simpa [CommandOk] using (succeeded_of_ok hx.symm).2

theorem allOk_syncAddresses {wan : String} : AllOk (syncAddresses wan ms) := by
  have hlist : AllOk (interfaceAddresses wan) := Prog.clean_bind allOk_runIp fun _ => allOk_ret
  induction ms with
  | nil => exact allOk_ret
  | cons m ms ih =>
    unfold syncAddresses
    split
    · refine Prog.clean_bind (Prog.clean_bind hlist fun existing => ?_) fun _ =>
        Prog.clean_bind ih fun _ => allOk_ret
      split
      · exact allOk_ret
      · exact Prog.clean_bind allOk_runIp fun _ => allOk_ret
    · split
      · refine Prog.clean_bind (Prog.clean_bind hlist fun existing => ?_) fun _ =>
          Prog.clean_bind ih fun _ => allOk_ret
        split
        · exact allOk_ret
        · exact Prog.clean_bind allOk_runIp fun _ => allOk_ret
      · exact ih

theorem allOk_recordStep {generation : Generation} : AllOk (recordStep C options ms text generation) := by
  refine Prog.clean_of_uses (recordStep_uses ⟨⟨?_, ?_⟩, ?_, ?_, ?_⟩ ?_) <;> intros <;> trivial

theorem allOk_applyReconcile {plan : XdpPlan} : AllOk (applyReconcile C config options ms text plan) := by
  refine Prog.clean_bind allOk_liftStore fun generation => Prog.clean_bind allOk_writeRuleset fun _ => ?_
  refine Prog.clean_bind allOk_checkRuleset fun _ => Prog.clean_bind allOk_applyStep fun _ => ?_
  refine Prog.clean_bind ?_ fun changes => Prog.clean_bind allOk_recordStep fun _ => allOk_ret
  unfold addressStep
  split
  · exact allOk_syncAddresses
  · exact allOk_ret

/-- **A reconcile that returns has had all its commands exit with status zero.** -/
theorem allOk_reconcile : AllOk (reconcile C config options) := by
  refine Prog.clean_bind allOk_liftStore fun mappings =>
    Prog.clean_bind (Prog.clean_of_uses Prog.uses_ofExcept) fun plan => ?_
  split
  · exact allOk_ret
  split
  · exact Prog.clean_of_uses Prog.uses_fail
  · exact allOk_applyReconcile

end AllOk

/-! ## Files -/

/-- The event wrote a text to the path. -/
def wroteTo (path : String) : Event HostSig → Option String
  | ⟨.atomicWrite path' text, .ok _⟩ => if path' = path then some text else none
  | _ => none

/-- The last write to the path: who made it, and its text. -/
def lastWrite (path : String) (tr : List (ℕ × Event HostSig)) : Option (ℕ × String) :=
  tr.foldl (fun last x => ((wroteTo path x.2).map fun text => (x.1, text)).or last) none

/-- The file at the path after the events. -/
def fileAfter (w₀ : World) (path : String) (tr : List (ℕ × Event HostSig)) : Option String :=
  match lastWrite path tr with
  | some (_, text) => some text
  | none => w₀.files path

theorem lastWrite_snoc (path : String) (tr : List (ℕ × Event HostSig)) (x : ℕ × Event HostSig) :
    lastWrite path (tr ++ [x]) = ((wroteTo path x.2).map fun text => (x.1, text)).or (lastWrite path tr) := by
  simp [lastWrite]

/-- The last write is among the later events, or there is none among them. -/
theorem lastWrite_append_cases {tr tr' : List (ℕ × Event HostSig)} (h : lastWrite path (tr ++ tr') = some (i, text)) :
    (∃ e, (i, e) ∈ tr' ∧ wroteTo path e = some text) ∨ lastWrite path tr = some (i, text) := by
  induction tr' using List.reverseRecOn with
  | nil => rw [List.append_nil] at h; exact .inr h
  | append_singleton tr' x ih =>
    rw [← List.append_assoc, lastWrite_snoc] at h
    cases hx : wroteTo path x.2 with
    | some text' =>
      rw [hx] at h
      cases h
      exact .inl ⟨x.2, by simp, hx⟩
    | none =>
      rw [hx] at h
      refine (ih h).imp_left ?_
      rintro ⟨e, he, hw⟩
      exact ⟨e, List.mem_append_left _ he, hw⟩

theorem mem_of_lastWrite {tr : List (ℕ × Event HostSig)} (h : lastWrite path tr = some (i, text)) :
    ∃ e, (i, e) ∈ tr ∧ wroteTo path e = some text := by
  rw [← List.nil_append tr] at h
  rcases lastWrite_append_cases h with h | h
  · exact h
  · cases h

/-- After a write there is a last one. -/
theorem lastWrite_isSome {tr : List (ℕ × Event HostSig)} {e : Event HostSig} (hmem : (i, e) ∈ tr)
    (he : wroteTo path e ≠ none) : lastWrite path tr ≠ none := by
  induction tr using List.reverseRecOn with
  | nil => cases hmem
  | append_singleton tr x ih =>
    rw [lastWrite_snoc]
    rcases List.mem_append.1 hmem with hmem | hmem
    · cases wroteTo path x.2 with
      | some text => simp
      | none => exact ih hmem
    · cases List.mem_singleton.1 hmem
      cases hw : wroteTo path e with
      | some text => simp
      | none => exact absurd hw he

/-- What an operation makes of a file. -/
theorem files_step {o : HostOp} {r : o.Reply} (hE : hostEnv w o r w') (path : String) :
    w'.files path = (wroteTo path ⟨o, r⟩).or (w.files path) := by
  cases o with
  | store o => obtain ⟨db', -, rfl⟩ := hE; rfl
  | atomicWrite path' text =>
    rcases hE with ⟨rfl, rfl⟩ | ⟨e, rfl, rfl⟩
    · by_cases hp : path' = path
      · subst hp; simp [World.write, wroteTo]
      · simp [World.write, wroteTo, hp, Function.update_of_ne (Ne.symm hp)]
    · rfl
  | nft mode path' =>
    cases mode with
    | check => rw [hE.1]; rfl
    | apply => rcases hE.either with rfl | ⟨-, rfl⟩ <;> rfl
  | ip command =>
    cases command with
    | «show» interface => rw [hE.1]; rfl
    | add interface a => rcases hE.either with rfl | ⟨-, rfl⟩ <;> rfl
    | del interface a => rcases hE.either with rfl | ⟨-, rfl⟩ <;> rfl
  | connect ip port => rw [show w' = w from hE]; rfl

/-- **The file is what was last written to it.** -/
theorem files_of_reach {progs : ℕ → HostProg Unit} {tr : List (ℕ × Event HostSig)}
    (hr : Reach hostEnv progs w₀ tr pool w) (path : String) : w.files path = fileAfter w₀ path tr := by
  induction hr with
  | init => rfl
  | @step tr pool w w' i o k r _ _ hE ih =>
    rw [files_step hE path, ih, fileAfter, fileAfter, lastWrite_snoc]
    cases wroteTo path ⟨o, r⟩ <;> rfl

/-! ## One call -/

/-- The text that the call rendered from its listing, or fetched. -/
def Obtained (C : Codec) (config : Option EdgeConfig) (tr : List (Event HostSig)) (text : String) : Prop :=
  match config with
  | some config => ∃ rows, ⟨.store (.sql .selectMappings), .ok rows⟩ ∈ tr ∧ rendering C config rows = some text
  | none => ∃ id row, ⟨.store (.sql (.selectGeneration id)), .ok (some row)⟩ ∈ tr ∧ row.nftablesConfig = text

theorem Obtained.mono {config : Option EdgeConfig} {tr tr' : List (Event HostSig)} (hsub : ∀ e ∈ tr, e ∈ tr')
    (h : Obtained C config tr text) : Obtained C config tr' text := by
  unfold Obtained at h ⊢
  split at h
  · obtain ⟨rows, hmem, ht⟩ := h; exact ⟨rows, hsub _ hmem, ht⟩
  · obtain ⟨id, row, hmem, ht⟩ := h; exact ⟨id, row, hsub _ hmem, ht⟩

/-- **What the ghost state holds as the text of the call is what the call rendered or fetched.** -/
theorem obtained_of_accepts {tr : List (Event HostSig)} (h : (protocol C).Accepts q tr) (hnone : q.ruleset = none)
    (htext : ((protocol C).after q tr).ruleset = some text) : Obtained C q.config tr text := by
  have hinv := h.inv (I := fun tr q' => q.SameCall q' ∧ ∀ text, q'.ruleset = some text → Obtained C q.config tr text)
    ⟨⟨rfl, rfl, rfl, rfl, rfl⟩, fun text ht => nomatch hnone.symm.trans ht⟩ ?_
  · exact hinv.2 text htext
  rintro tr q' ⟨o, r⟩ ⟨hsame, ih⟩ hallow
  refine ⟨hsame.trans (next_sameCall _), fun text ht => ?_⟩
  have hkeep : q'.ruleset = some text → Obtained C q.config (tr ++ [⟨o, r⟩]) text := fun h =>
    (ih text h).mono fun e he => List.mem_append_left _ he
  cases o with
  | store o =>
    cases o with
    | now => exact hkeep ht
    | sql s =>
      cases s with
      | selectMappings =>
        cases r with
        | error e => exact hkeep ht
        | ok rows =>
          obtain ⟨config, hconfig, hrows⟩ := Option.bind_eq_some_iff.1 ht
          rw [← hsame.config, hconfig]
          exact ⟨rows, by simp, hrows⟩
      | selectGeneration id =>
        cases r with
        | error e => exact hkeep ht
        | ok row =>
          cases row with
          | none => exact hkeep ht
          | some row =>
            rw [← hsame.config, show q'.config = none from hallow.2]
            exact ⟨id, row, by simp, Option.some.inj ht⟩
      | _ => exact hkeep ht
  | nft mode path => cases mode <;> exact hkeep ht
  | _ => exact hkeep ht

/-- A call looks for a text only before it writes one. -/
theorem next_ruleset {e : Event HostSig} (hallow : (protocol C).allow q e.op) (hstage : q.stage ≠ .idle) :
    ((protocol C).next q e).ruleset = q.ruleset := by
  obtain ⟨o, r⟩ := e
  cases o with
  | store o =>
    cases o with
    | now => rfl
    | sql s =>
      cases s with
      | selectMappings => exact absurd hallow.1 hstage
      | selectGeneration id => exact absurd hallow.1 hstage
      | _ => rfl
  | nft mode path => cases mode <;> rfl
  | _ => rfl

/-- No event of the call wrote a file. -/
def NoWrites (tr : List (Event HostSig)) : Prop := ∀ e ∈ tr, ∀ path, wroteTo path e = none

/-- What the call has done so far, stage by stage. -/
def History (C : Codec) (q₀ : Progress) (tr : List (Event HostSig)) (q : Progress) : Prop :=
  match q.stage with
  | .idle => NoWrites tr
  | .written => ∃ text x y, q.ruleset = some text ∧ tr = x ++ ⟨.atomicWrite q.path text, .ok ()⟩ :: y ∧
      NoWrites (x ++ y)
  | .checked => ∃ text x y r z, q.ruleset = some text ∧ r.Succeeded ∧
      tr = x ++ ⟨.atomicWrite q.path text, .ok ()⟩ :: y ++ ⟨.nft .check q.path, r⟩ :: z ∧ NoWrites (x ++ (y ++ z))
  | .loaded => ∃ x r y, r.Succeeded ∧ tr = x ++ ⟨.nft .apply q.path, r⟩ :: y ∧
      ((protocol C).after q₀ x).ruleset = q.ruleset
  | .failed | .torn => True

/-- An operation that is neither a write nor a command of `nft` goes on in its stage. -/
theorem history_quiet {tr : List (Event HostSig)} {e : Event HostSig} (h : History C q₀ tr q)
    (hallow : (protocol C).allow q e.op) (hwrite : ∀ path text, e.op ≠ .atomicWrite path text)
    (hnft : ∀ mode path, e.op ≠ .nft mode path) : History C q₀ (tr ++ [e]) ((protocol C).next q e) := by
  have hstage := next_stage (C := C) (q := q) hwrite hnft
  have hpath := (next_sameCall (C := C) (q := q) e).path
  have hno : ∀ path, wroteTo path e = none := by
    obtain ⟨o, r⟩ := e
    intro path
    cases o with
    | atomicWrite path' text => exact absurd rfl (hwrite path' text)
    | _ => rfl
  have hsnoc : ∀ {l : List (Event HostSig)}, NoWrites l → NoWrites (l ++ [e]) := by
    intro l hl e' he' path
    rcases List.mem_append.1 he' with he' | he'
    · exact hl e' he' path
    · rw [List.mem_singleton.1 he']; exact hno path
  unfold History at h ⊢
  rw [hstage, hpath]
  cases hq : q.stage with
  | idle => rw [hq] at h; exact hsnoc h
  | failed => trivial
  | torn => trivial
  | written =>
    rw [hq] at h
    obtain ⟨text, x, y, ht, rfl, hnone⟩ := h
    refine ⟨text, x, y ++ [e], ?_, by simp, ?_⟩
    · rw [next_ruleset hallow (by simp [hq]), ht]
    · rw [← List.append_assoc]; exact hsnoc hnone
  | checked =>
    rw [hq] at h
    obtain ⟨text, x, y, r, z, ht, hr, rfl, hnone⟩ := h
    refine ⟨text, x, y, r, z ++ [e], ?_, hr, by simp, ?_⟩
    · rw [next_ruleset hallow (by simp [hq]), ht]
    · rw [← List.append_assoc y, ← List.append_assoc x]; exact hsnoc hnone
  | loaded =>
    rw [hq] at h
    obtain ⟨x, r, y, hr, rfl, ht⟩ := h
    exact ⟨x, r, y ++ [e], hr, by simp, by rw [next_ruleset hallow (by simp [hq]), ht]⟩

/-- **Write, check, load, in this order and once.** -/
theorem history_of_accepts {tr : List (Event HostSig)} (h : (protocol C).Accepts q tr) (hidle : q.stage = .idle) :
    History C q tr ((protocol C).after q tr) := by
  have hinv := h.inv (I := fun tr q' => q' = (protocol C).after q tr ∧ History C q tr q')
    ⟨rfl, by simp [History, hidle, NoWrites]⟩ ?_
  · exact hinv.2
  rintro tr q' ⟨o, r⟩ ⟨hq', ih⟩ hallow
  refine ⟨by rw [Monitor.after_append, ← hq']; rfl, ?_⟩
  cases o with
  | store o => exact history_quiet ih hallow (by simp) (by simp)
  | ip command => exact history_quiet ih hallow (by simp) (by simp)
  | connect ip port => exact history_quiet ih hallow (by simp) (by simp)
  | atomicWrite path text =>
    obtain ⟨rfl, htext, hstage⟩ := hallow
    unfold History at ih
    rw [hstage] at ih
    cases r with
    | error e => trivial
    | ok u => exact ⟨text, tr, [], htext, rfl, by simpa using ih⟩
  | nft mode path =>
    cases mode with
    | check =>
      obtain ⟨rfl, hstage⟩ := hallow
      unfold History at ih
      rw [hstage] at ih
      by_cases hs : r.Succeeded
      · obtain ⟨text, x, y, ht, rfl, hnone⟩ := ih
        have hnext : (protocol C).next q' ⟨.nft .check q'.path, r⟩ = q'.atStage .checked := by
          simp [protocol, Progress.onCheck, hs]
        rw [hnext]
        exact ⟨text, x, y, r, [], ht, hs, by simp, by simpa using hnone⟩
      · have hnext : (protocol C).next q' ⟨.nft .check q'.path, r⟩ = q'.atStage .failed := by
          simp [protocol, Progress.onCheck, hs]
        rw [hnext]
        trivial
    | apply =>
      obtain ⟨rfl, hstage, -⟩ := hallow
      by_cases hs : r.Succeeded
      · have hnext : (protocol C).next q' ⟨.nft .apply q'.path, r⟩ = q'.atStage .loaded := by
          simp [protocol, Progress.onApply, hs]
        rw [hnext]
        exact ⟨tr, r, [], hs, rfl, by rw [← hq']; rfl⟩
      · by_cases hrej : r.Rejected
        · have hnext : (protocol C).next q' ⟨.nft .apply q'.path, r⟩ = q'.atStage .failed := by
            simp [protocol, Progress.onApply, hs, hrej]
          rw [hnext]
          trivial
        · have hnext : (protocol C).next q' ⟨.nft .apply q'.path, r⟩ = q'.atStage .torn := by
            simp [protocol, Progress.onApply, hs, hrej]
          rw [hnext]
          trivial

/-! ## Interleaved calls -/

/-- Another call was the last to write the path. -/
def Overwritten (path : String) (i : ℕ) (pre : List (ℕ × Event HostSig)) : Prop :=
  ∃ j text, lastWrite path pre = some (j, text) ∧ j ≠ i

/-- What stands before a load of call `i`: the call rendered or fetched `text`, wrote it to the path and had it
checked; and where no other call has written the path since, the file is that text, as it was at the check. -/
structure OwnLoad (C : Codec) (calls : ℕ → HostCall) (w₀ : World) (i : ℕ) (path : String)
    (pre : List (ℕ × Event HostSig)) (text : String) : Prop where
  obtained : Obtained C (calls i).start.config (own i pre) text
  checked : ∃ a b c r, pre = a ++ (i, ⟨.atomicWrite path text, .ok ()⟩) :: b ++ (i, ⟨.nft .check path, r⟩) :: c ∧
    r.Succeeded ∧ (¬ Overwritten path i pre →
      fileAfter w₀ path (a ++ (i, ⟨.atomicWrite path text, .ok ()⟩) :: b) = some text)
  file : ¬ Overwritten path i pre → fileAfter w₀ path pre = some text

theorem calls_follow (calls : ℕ → HostCall) (i : ℕ) : ((calls i).prog C).wp (protocol C)
    (fun q x => ∀ u, x = .ok u → (calls i).Done q) (calls i).start := Prog.wpOk_iff.1 (call_follows (calls i))

/-- The own events of every call follow the protocol. -/
theorem accepts_of_reach {tr : List (ℕ × Event HostSig)}
    (hr : Reach hostEnv (fun i => (calls i).prog C) w₀ tr pool w) (i : ℕ) :
    (protocol C).Accepts (calls i).start (own i tr) :=
  hr.accepts (fun i => (calls i).start) (calls_follow calls) i

theorem start_idle (call : HostCall) : call.start.stage = .idle ∧ call.start.ruleset = none := by
  cases call <;> exact ⟨rfl, rfl⟩

/-- A checked call has written its text once, and checked it. -/
theorem ownLoad_of_checked {pre : List (ℕ × Event HostSig)}
    (hr : Reach hostEnv (fun i => (calls i).prog C) w₀ pre pool w)
    (hstage : ((protocol C).after (calls i).start (own i pre)).stage = .checked)
    (hpath : path = ((protocol C).after (calls i).start (own i pre)).path) :
    ∃ text, ((protocol C).after (calls i).start (own i pre)).ruleset = some text ∧
      OwnLoad C calls w₀ i path pre text := by
  have haccepts := accepts_of_reach hr i
  obtain ⟨hidle, hnone⟩ := start_idle (calls i)
  have hhist := history_of_accepts haccepts hidle
  unfold History at hhist
  rw [hstage, ← hpath] at hhist
  obtain ⟨text, x, y, r, z, ht, hs, hown, hno⟩ := hhist
  obtain ⟨l, c, rfl, hl, hc⟩ := own_split hown
  obtain ⟨a, b, rfl, ha, hb⟩ := own_split hl
  -- the one write of the call is the last write to the path that it made
  have hlast : ∀ {t}, lastWrite path (a ++ (i, ⟨.atomicWrite path text, .ok ()⟩) :: b ++
      (i, ⟨.nft .check path, r⟩) :: c) = some (i, t) → t = text ∧
      lastWrite path (a ++ (i, ⟨.atomicWrite path text, .ok ()⟩) :: b) = some (i, t) := by
    intro t h
    rcases lastWrite_append_cases h with ⟨e, he, hw⟩ | h
    · rcases List.mem_cons.1 he with he | he
      · cases he; cases hw
      · have he' : e ∈ z := hc ▸ mem_own.2 he
        rw [hno e (by simp [he']) path] at hw
        cases hw
    · refine ⟨?_, h⟩
      obtain ⟨e, he, hw⟩ := mem_of_lastWrite h
      have he' : e ∈ x ++ ⟨.atomicWrite path text, .ok ()⟩ :: y := hl ▸ mem_own.2 he
      rcases List.mem_append.1 he' with he' | he'
      · rw [hno e (by simp [he']) path] at hw; cases hw
      rcases List.mem_cons.1 he' with rfl | he'
      · simp only [wroteTo, if_true] at hw; exact (Option.some.inj hw).symm
      · rw [hno e (by simp [he']) path] at hw; cases hw
  -- and where no other call wrote the path after it, the last of all
  have howns : ¬ Overwritten path i (a ++ (i, ⟨.atomicWrite path text, .ok ()⟩) :: b ++
      (i, ⟨.nft .check path, r⟩) :: c) →
      lastWrite path (a ++ (i, ⟨.atomicWrite path text, .ok ()⟩) :: b ++ (i, ⟨.nft .check path, r⟩) :: c) =
        some (i, text) := by
    intro hover
    have hmem : (i, (⟨.atomicWrite path text, .ok ()⟩ : Event HostSig)) ∈
        a ++ (i, ⟨.atomicWrite path text, .ok ()⟩) :: b ++ (i, ⟨.nft .check path, r⟩) :: c := by simp
    have hsome := lastWrite_isSome hmem (show wroteTo path _ ≠ none by simp [wroteTo])
    obtain ⟨⟨j, t⟩, hjt⟩ := Option.ne_none_iff_exists'.1 hsome
    obtain rfl : j = i := by
      by_contra hji
      exact hover ⟨j, t, hjt, hji⟩
    rw [hjt, (hlast hjt).1]
  refine ⟨text, ht, obtained_of_accepts haccepts hnone ht, ⟨a, b, c, r, rfl, hs, fun hover => ?_⟩, fun hover => ?_⟩
  · rw [fileAfter, (hlast (howns hover)).2]
  · rw [fileAfter, howns hover]

/-- The kernel after a load has the file as it was then. -/
theorem kernel_of_load {pre : List (ℕ × Event HostSig)} {r : Outcome} (hs : r.Succeeded)
    {progs : ℕ → HostProg Unit} (hr : Reach hostEnv progs w₀ (pre ++ [(i, ⟨.nft .apply path, r⟩)]) pool w) :
    w.kernel = fileAfter w₀ path pre := by
  generalize htr : pre ++ [(i, ⟨.nft .apply path, r⟩)] = tr at hr
  cases hr with
  | init => simp at htr
  | @step tr pool w₁ w' j o k r' hr hp hE =>
    obtain ⟨rfl, he⟩ := List.append_inj' htr rfl
    cases he
    rw [(hE.succeeded hs).2, ← files_of_reach hr path]
    rfl

/-- **A load takes the ruleset of its own call where no other call wrote the path in between.** In every
interleaving of calls, a load that succeeded put the file at its path into the kernel; its call had rendered or
fetched a text, written it there and had it checked; and unless another call has written the path since, that
text is what was checked and loaded. An Active generation carries the text of its call, which has loaded it
under the same condition. -/
theorem loads_own_ruleset {tr : List (ℕ × Event HostSig)}
    (hr : Reach hostEnv (fun i => (calls i).prog C) w₀ tr pool w) :
    (∀ pre i path r post, tr = pre ++ (i, ⟨.nft .apply path, r⟩) :: post → r.Succeeded →
      (∃ pool₁ w₁, Reach hostEnv (fun i => (calls i).prog C) w₀ (pre ++ [(i, ⟨.nft .apply path, r⟩)]) pool₁ w₁ ∧
        w₁.kernel = fileAfter w₀ path pre) ∧
      ∃ text, OwnLoad C calls w₀ i path pre text) ∧
    ∀ pre i text createdAt appliedAt error r post,
      tr = pre ++ (i, ⟨.store (.sql (.insertGeneration "active" text createdAt appliedAt error)), r⟩) :: post →
      ∃ path a r b, pre = a ++ (i, ⟨.nft .apply path, r⟩) :: b ∧ r.Succeeded ∧ OwnLoad C calls w₀ i path a text := by
  -- before a load the call is checked, with its own path
  have hload : ∀ {pre i path} {r : Outcome} {post}, tr = pre ++ (i, ⟨.nft .apply path, r⟩) :: post → ∃ text,
      ((protocol C).after (calls i).start (own i pre)).ruleset = some text ∧ OwnLoad C calls w₀ i path pre text := by
    intro pre i path r post htr
    subst htr
    have hown : own i (pre ++ (i, ⟨.nft .apply path, r⟩) :: post) =
        own i pre ++ ⟨.nft .apply path, r⟩ :: own i post := by
      rw [own_append]; simp [own]
    have hallow := (hown ▸ accepts_of_reach hr i).allow_of_split
    obtain ⟨pool₁, w₁, hpre, -⟩ := hr.split
    exact ownLoad_of_checked hpre hallow.2.1 hallow.1
  refine ⟨fun pre i path r post htr hs => ⟨?_, (hload htr).imp fun _ h => h.2⟩, ?_⟩
  · subst htr
    have hcons : pre ++ (i, (⟨.nft .apply path, r⟩ : Event HostSig)) :: post =
        (pre ++ [(i, ⟨.nft .apply path, r⟩)]) ++ post := by simp
    rw [hcons] at hr
    obtain ⟨pool₁, w₁, hpre, -⟩ := hr.split
    exact ⟨pool₁, w₁, hpre, kernel_of_load hs hpre⟩
  · rintro pre i text createdAt appliedAt error r post rfl
    have hown : own i (pre ++
        (i, ⟨.store (.sql (.insertGeneration "active" text createdAt appliedAt error)), r⟩) :: post) =
        own i pre ++ ⟨.store (.sql (.insertGeneration "active" text createdAt appliedAt error)), r⟩ :: own i post := by
      rw [own_append]; simp [own]
    have haccepts := hown ▸ accepts_of_reach hr i
    obtain ⟨htext, hactive⟩ := haccepts.allow_of_split
    have hhist := history_of_accepts (((protocol C).accepts_append _).1 haccepts).1 (start_idle (calls i)).1
    generalize (protocol C).after (calls i).start (own i pre) = q at htext hactive hhist
    unfold History at hhist
    rw [hactive rfl] at hhist
    obtain ⟨x, r', y, hs, hsplit, hrule⟩ := hhist
    obtain ⟨a, b, rfl, ha, hb⟩ := own_split hsplit
    obtain ⟨text', ht', hown'⟩ := hload (List.append_assoc a _ _)
    rw [ha, hrule, htext] at ht'
    cases ht'
    exact ⟨_, a, r', b, rfl, hs, hown'⟩

/-! ## Two rollbacks -/

/-- The ruleset of no mappings and that of one service are two texts. -/
theorem rendered_differ : ∃ a b, renderNftables [] sampleConfig {} = .ok a ∧
    renderNftables [samplePortForward] sampleConfig {} = .ok b ∧ a ≠ b := by
  have hva : validateMappings [] sampleConfig = .ok () := by decide
  have hvb : validateMappings [samplePortForward] sampleConfig = .ok () := by decide
  obtain ⟨a, ha⟩ := renderNftables_ok {} hva
  obtain ⟨b, hb⟩ := renderNftables_ok {} hvb
  refine ⟨a, b, ha, hb, ?_⟩
  rintro rfl
  have h := (read_renderNftables (by decide) (by decide) (by decide) ha).symm.trans
    (read_renderNftables (by decide) (by decide) (by decide) hb)
  exact absurd h (by decide)

/-- A host whose database has two generations. -/
def rollbackWorld (a b : String) : World :=
  { sampleWorld with
    db := { sampleDb with
      generations := [⟨1, "active", a, "2026-01-01T00:00:00Z", some "2026-01-01T00:00:00Z", none⟩,
        ⟨2, "active", b, "2026-01-01T00:00:00Z", some "2026-01-01T00:00:00Z", none⟩]
      nextGeneration := 3 } }

/-- A call for each of the generations, on one path. -/
def rollbackCalls (i : ℕ) : HostCall := .rollback (i + 1) "/run/edge-router/generated.nft"

/-- The steps of the two calls in the order of the schedule. -/
def rollbackRun (a b : String) (schedule : List ℕ) : List (ℕ × Event HostSig) × (ℕ → HostProg Unit) × World :=
  steps (answer fun _ => true) schedule ([], fun i => (rollbackCalls i).prog sampleCodec, rollbackWorld a b)

theorem rollbackRun_reach (a b : String) (schedule : List ℕ) :
    Reach hostEnv (fun i => (rollbackCalls i).prog sampleCodec) (rollbackWorld a b) (rollbackRun a b schedule).1
      (rollbackRun a b schedule).2.1 (rollbackRun a b schedule).2.2 :=
  steps_reach (answer_env _) schedule _ .init

/-- **A file is replaced between check and load.** The first call writes and checks its ruleset; the second
writes its own; then the first loads. -/
theorem replaced_between_check_and_load : ∃ (calls : ℕ → HostCall) (w₀ w : World) (pre : List (ℕ × Event HostSig))
    (pool : ℕ → HostProg Unit) (i : ℕ) (path : String) (r : Outcome),
    Reach hostEnv (fun i => (calls i).prog sampleCodec) w₀ (pre ++ [(i, ⟨.nft .apply path, r⟩)]) pool w ∧
      r.Succeeded ∧ (∃ text, Obtained sampleCodec (calls i).start.config (own i pre) text) ∧
      ∀ text, Obtained sampleCodec (calls i).start.config (own i pre) text → w.kernel ≠ some text := by
  obtain ⟨a, b, -, -, hab⟩ := rendered_differ
  have hown : own 0 (rollbackRun a b [0, 0, 0, 1, 1]).1 =
      [⟨.store (.sql (.selectGeneration 1)), .ok (some ⟨1, "active", a, "2026-01-01T00:00:00Z",
        some "2026-01-01T00:00:00Z", none⟩)⟩, ⟨.atomicWrite "/run/edge-router/generated.nft" a, .ok ()⟩,
        ⟨.nft .check "/run/edge-router/generated.nft", .exited ⟨some 0, "", ""⟩⟩] := rfl
  refine ⟨rollbackCalls, rollbackWorld a b, _, (rollbackRun a b [0, 0, 0, 1, 1]).1, _, 0,
    "/run/edge-router/generated.nft", .exited ⟨some 0, "", ""⟩, rollbackRun_reach a b [0, 0, 0, 1, 1, 0], rfl, ?_, ?_⟩
  · rw [hown]
    exact ⟨a, 1, _, List.mem_cons_self, rfl⟩
  · rw [hown]
    rintro text ⟨id, row, hmem, rfl⟩ hkernel
    have hb : some b = some row.nftablesConfig := hkernel
    rcases List.mem_cons.1 hmem with h | h
    · cases h; exact hab (Option.some.inj hb).symm
    · simp at h

/-- A call alone: what it loads is the generation it fetched. -/
theorem loads_own_ruleset_alone : ∃ (a b text : String) (w : World) (pool : ℕ → HostProg Unit)
    (pre : List (ℕ × Event HostSig)), Reach hostEnv (fun i => (rollbackCalls i).prog sampleCodec) (rollbackWorld a b)
      (pre ++ [(0, ⟨.nft .apply "/run/edge-router/generated.nft", .exited ⟨some 0, "", ""⟩⟩)]) pool w ∧
    OwnLoad sampleCodec rollbackCalls (rollbackWorld a b) 0 "/run/edge-router/generated.nft" pre text ∧
    fileAfter (rollbackWorld a b) "/run/edge-router/generated.nft" pre = some text := by
  obtain ⟨a, b, -, -, -⟩ := rendered_differ
  obtain ⟨-, text, hown⟩ := (loads_own_ruleset (rollbackRun_reach a b [0, 0, 0, 0])).1
    (rollbackRun a b [0, 0, 0]).1 0 "/run/edge-router/generated.nft" (.exited ⟨some 0, "", ""⟩) [] rfl rfl
  have hlast : lastWrite "/run/edge-router/generated.nft" (rollbackRun a b [0, 0, 0]).1 = some (0, a) := rfl
  refine ⟨a, b, text, _, _, (rollbackRun a b [0, 0, 0]).1, rollbackRun_reach a b [0, 0, 0, 0], hown, hown.file ?_⟩
  rintro ⟨j, t, hj, hne⟩
  rw [hlast] at hj
  cases hj
  exact hne rfl

end EdgeRoute
