import EdgeRoute.Proof.Loads
import EdgeRoute.Proof.Sequence

/-!
# What a failed reconcile leaves on record

A command of a reconcile fails in two ways: it comes back with a bad result, or it does not come back.
The first is recorded, the second is passed on with `?`.

* `recordFailure_run`: the record of a failure, on a store that works.
* `accounts_bind`: the exits of a sequence are those of its parts.
* `failure_recorded_iff`: **a reconcile that a command made fail has recorded it exactly where every `nft` came back
  and no `ip` failed.**
-/

namespace EdgeRoute

open Effect

variable {C : Codec} {α β : Type} {w w' : World} {tr tr' : List (Event HostSig)} {text path : String}
  {config : EdgeConfig} {options : ReconcileOptions} {ms : List Mapping} {db db' : Db}

/-! ## Events -/

/-- **A host whose store works.** The file, the commands and the targets are free. -/
def recordingEnv (C : Codec) : Env HostSig World := fun w o r w' =>
  match o, r with
  | .store o, r => ∃ db', workingStore (Formats C) w.db o r db' ∧ w' = { w with db := db' }
  | o, r => hostEnv w o r w'

/-- The write of the file, or a command, failed. -/
def Failing : Event HostSig → Prop
  | ⟨.atomicWrite _ _, r⟩ => ∃ message, r = .error message
  | e => ¬ CommandOk e

/-- A failure that is passed on without a record: `nft` did not come back, or `ip` failed. -/
def PassedOn : Event HostSig → Prop
  | ⟨.nft _ _, r⟩ => ∀ output, r ≠ .exited output
  | ⟨.ip _, r⟩ => ¬ Outcome.Succeeded r
  | _ => False

/-- A Failed generation is recorded. -/
def FailedGeneration : Event HostSig → Prop
  | ⟨.store (.sql (.insertGeneration status _ _ _ _)), _⟩ => status = "failed"
  | _ => False

/-- The ruleset was recorded under the status, with the error. -/
def RecordsGeneration (status text : String) (error : Option String) (tr : List (Event HostSig)) : Prop :=
  ∃ createdAt appliedAt id,
    ⟨.store (.sql (.insertGeneration status text createdAt appliedAt error)), .ok id⟩ ∈ tr

/-- An Error event was recorded, with the error. -/
def RecordsError (error : String) (tr : List (Event HostSig)) : Prop :=
  ∃ message createdAt id, ⟨.store (.sql (.insertEvent "error" message (some error) createdAt)), .ok id⟩ ∈ tr

/-- The failure is on record: a Failed generation of the ruleset and an Error event, both with the error. -/
def Recorded (text error : String) (tr : List (Event HostSig)) : Prop :=
  RecordsGeneration "failed" text (some error) tr ∧ RecordsError error tr

/-- The text of the error, as a record has it. -/
def ReconcileError.detail : ReconcileError → String
  | .io message | .nftValidation message | .nftApply message => message
  | e => e.toText

/-- A generation is one of the ruleset. -/
def Carries (text : String) : Event HostSig → Prop
  | ⟨.store (.sql (.insertGeneration _ t _ _ _)), _⟩ => t = text
  | _ => True

/-- Nothing failed, and no failure was recorded. -/
structure Uneventful (text : String) (e : Event HostSig) : Prop where
  ok : ¬ Failing e
  unfailed : ¬ FailedGeneration e
  carries : Carries text e

theorem failing_of_passedOn {e : Event HostSig} (h : PassedOn e) : Failing e := by
  obtain ⟨o, r⟩ := e
  cases o with
  | nft mode path =>
    intro hok
    cases r with
    | timedOut => exact hok
    | ioError message => exact hok
    | exited output => exact h output rfl
  | ip command => exact h
  | store | atomicWrite | connect => exact absurd h id

theorem RecordsGeneration.append {status : String} {error : Option String} (h : RecordsGeneration status text error tr')
    (pre : List (Event HostSig)) : RecordsGeneration status text error (pre ++ tr') := by
  obtain ⟨createdAt, appliedAt, id, hmem⟩ := h
  exact ⟨createdAt, appliedAt, id, List.mem_append_right _ hmem⟩

theorem Recorded.append {error : String} (h : Recorded text error tr') (pre : List (Event HostSig)) :
    Recorded text error (pre ++ tr') := by
  obtain ⟨hgeneration, message, createdAt, id, hmem⟩ := h
  exact ⟨hgeneration.append pre, message, createdAt, id, List.mem_append_right _ hmem⟩

/-! ## Records -/

/-- A store method on such a host is one on its database, and its statements are among the events. -/
theorem liftStore_events {p : StoreProg α} {x : Except ReconcileError α}
    (h : (liftStore p).Run (recordingEnv C) w tr w' x) : ∃ tr' db' y, p.Run (workingStore (Formats C)) w.db tr' db' y ∧
      w' = { w with db := db' } ∧ x = y.mapError .core ∧
      ∀ e ∈ tr', (⟨.store e.op, e.reply⟩ : Event HostSig) ∈ tr := by
  obtain ⟨y, rfl, hr⟩ := Prog.run_mapErr.1 h
  obtain ⟨tr', db', hp, rfl, hmem⟩ := Prog.run_embed_events (fun w db => { w with db }) (fun _ => rfl) (fun _ _ => rfl)
    (fun _ _ _ => rfl) (fun w o r w' hE => hE) hr
  refine ⟨tr', db', y, hp, rfl, rfl, fun e he => ?_⟩
  obtain ⟨r, hr, he⟩ := hmem e he
  exact hr ▸ he

/-- A generation that is not empty is recorded. -/
theorem recordGeneration_working {status : GenerationStatus} {error : Option String} {s : String}
    {tr : List (Event StoreSig)} {x : Except EdgeCoreError Generation} (htext : Text.trim text ≠ "")
    (hs : enumString GenerationStatus.names status = .ok s)
    (h : (recordGeneration C status text none error).Run (workingStore (Formats C)) db tr db' x) :
    (∃ generation, x = .ok generation) ∧
      ∃ createdAt id, (⟨.sql (.insertGeneration s text createdAt none error), .ok id⟩ : Event StoreSig) ∈ tr := by
  unfold recordGeneration at h
  rw [if_neg htext, hs] at h
  obtain ⟨now, db₁, tr₁, rfl, ⟨⟨createdAt, hcreated⟩, rfl⟩, hrest⟩ := Prog.run_call.1 h
  change ((Prog.ofExcept (C.formatTime now)).bind _).Run _ _ _ _ _ at hrest
  rw [hcreated] at hrest
  obtain ⟨r, db₂, tr₂, rfl, hE, hret⟩ := Prog.run_call.1 hrest
  obtain ⟨rfl, rfl⟩ := Prod.mk.inj (show (r, db₂) = db₁.exec (.insertGeneration s text createdAt none error) from hE)
  obtain ⟨rfl, -, rfl⟩ := Prog.run_ret.1 hret
  refine ⟨⟨_, rfl⟩, createdAt, _, List.mem_cons_of_mem _ List.mem_cons_self⟩

/-- An event with a message is recorded. -/
theorem recordEvent_working {level : EventLevel} {message l : String} {data : Option String}
    {tr : List (Event StoreSig)} {x : Except EdgeCoreError EventRecord} (hmessage : Text.trim message ≠ "")
    (hl : enumString EventLevel.names level = .ok l)
    (h : (recordEvent C level message data).Run (workingStore (Formats C)) db tr db' x) :
    (∃ event, x = .ok event) ∧
      ∃ createdAt id, (⟨.sql (.insertEvent l message data createdAt), .ok id⟩ : Event StoreSig) ∈ tr := by
  unfold recordEvent at h
  rw [if_neg hmessage, hl] at h
  obtain ⟨now, db₁, tr₁, rfl, ⟨⟨createdAt, hcreated⟩, rfl⟩, hrest⟩ := Prog.run_call.1 h
  change ((Prog.ofExcept (C.formatTime now)).bind _).Run _ _ _ _ _ at hrest
  rw [hcreated] at hrest
  obtain ⟨r, db₂, tr₂, rfl, hE, hret⟩ := Prog.run_call.1 hrest
  obtain ⟨rfl, rfl⟩ := Prod.mk.inj (show (r, db₂) = db₁.exec (.insertEvent l message data createdAt) from hE)
  obtain ⟨rfl, -, rfl⟩ := Prog.run_ret.1 hret
  refine ⟨⟨_, rfl⟩, createdAt, _, List.mem_cons_of_mem _ List.mem_cons_self⟩

theorem liftGeneration_working {status : GenerationStatus} {error : Option String} {s : String}
    {x : Except ReconcileError Generation} (htext : Text.trim text ≠ "")
    (hs : enumString GenerationStatus.names status = .ok s)
    (h : (liftStore (recordGeneration C status text none error)).Run (recordingEnv C) w tr w' x) :
    (∃ generation, x = .ok generation) ∧ RecordsGeneration s text error tr := by
  obtain ⟨tr', db', y, hrun, -, rfl, hmem⟩ := liftStore_events h
  obtain ⟨⟨generation, rfl⟩, createdAt, id, hin⟩ := recordGeneration_working htext hs hrun
  exact ⟨⟨generation, rfl⟩, createdAt, none, id, hmem _ hin⟩

theorem liftError_working {message data : String} {x : Except ReconcileError EventRecord}
    (hmessage : Text.trim message ≠ "")
    (h : (liftStore (recordEvent C .error message (some data))).Run (recordingEnv C) w tr w' x) :
    (∃ event, x = .ok event) ∧ RecordsError data tr := by
  obtain ⟨tr', db', y, hrun, -, rfl, hmem⟩ := liftStore_events h
  obtain ⟨⟨event, rfl⟩, createdAt, id, hin⟩ := recordEvent_working hmessage rfl hrun
  exact ⟨⟨event, rfl⟩, message, createdAt, id, hmem _ hin⟩

/-- **The record of a failure** goes through. -/
theorem recordFailure_run {event message : String} {error : ReconcileError} {x : Except ReconcileError α}
    (htext : Text.trim text ≠ "") (hevent : Text.trim event ≠ "")
    (h : (recordFailure C text event message error).Run (recordingEnv C) w tr w' x) :
    x = .error error ∧ Recorded text message tr ∧ ∀ e ∈ tr, ¬ PassedOn e ∧ Carries text e := by
  have hquiet : ∀ e ∈ tr, ¬ PassedOn e ∧ Carries text e := by
    have huses : (recordFailure (α := α) C text event message error).Uses
        fun o => ∀ r, ¬ PassedOn ⟨o, r⟩ ∧ Carries text ⟨o, r⟩ := by
      refine Prog.uses_bind (liftStore_uses (recordGeneration_uses C ?_ ?_)) fun _ => ?_
      · exact fun r => ⟨fun h => h, trivial⟩
      · exact fun s c a hs r => ⟨fun h => h, rfl⟩
      refine Prog.uses_bind (liftStore_uses (recordEvent_uses C ?_ ?_)) fun _ => Prog.uses_fail
      · exact fun r => ⟨fun h => h, trivial⟩
      · exact fun l c r => ⟨fun h => h, trivial⟩
    intro e he
    exact huses.mem h e he e.reply
  rcases Prog.run_bind.1 h with ⟨g, w₁, tr₁, tr₂, rfl, hg, hrest⟩ | ⟨e, rfl, hg⟩
  · obtain ⟨-, createdAt, appliedAt, id, hin⟩ := liftGeneration_working htext rfl hg
    rcases Prog.run_bind.1 hrest with ⟨ev, w₂, tr₃, tr₄, rfl, hev, hfail⟩ | ⟨e, rfl, hev⟩
    · obtain ⟨-, message', createdAt', id', hin'⟩ := liftError_working hevent hev
      obtain ⟨-, -, rfl⟩ := Prog.run_fail.1 hfail
      refine ⟨rfl, ⟨⟨createdAt, appliedAt, id, List.mem_append_left _ hin⟩, message', createdAt', id', ?_⟩, hquiet⟩
      exact List.mem_append_right _ (List.mem_append_left _ hin')
    · obtain ⟨⟨_, hok⟩, -⟩ := liftError_working hevent hev
      cases hok
  · obtain ⟨⟨_, hok⟩, -⟩ := liftGeneration_working htext rfl hg
    cases hok

/-! ## Exits -/

/-- How a part of a reconcile ends: nothing of it failed but the store's own checks; or a failure was passed on, and no
Failed generation recorded; or a failure was recorded, and none passed on. -/
inductive Exit (text : String) (tr : List (Event HostSig)) : Except ReconcileError α → Prop
  | quiet {x : Except ReconcileError α} (h : ∀ e ∈ tr, Uneventful text e) : Exit text tr x
  | passedOn {e : ReconcileError} (h : ∃ ev ∈ tr, PassedOn ev) (hnone : ∀ ev ∈ tr, ¬ FailedGeneration ev) :
      Exit text tr (.error e)
  | recorded {e : ReconcileError} (h : ∀ ev ∈ tr, ¬ PassedOn ev) (hrecorded : Recorded text e.detail tr) :
      Exit text tr (.error e)

/-- Every run of the part ends so, and records generations of the ruleset alone. -/
def Accounts (C : Codec) (text : String) (p : HostProg α) : Prop :=
  ∀ w tr w' x, p.Run (recordingEnv C) w tr w' x → Exit text tr x ∧ ∀ e ∈ tr, Carries text e

theorem Exit.append {x : Except ReconcileError α} (hpre : ∀ e ∈ tr, Uneventful text e) (h : Exit text tr' x) :
    Exit text (tr ++ tr') x := by
  cases h with
  | quiet h => exact .quiet (List.forall_mem_append.2 ⟨hpre, h⟩)
  | passedOn h hnone =>
    obtain ⟨ev, hev, hp⟩ := h
    refine .passedOn ⟨ev, List.mem_append_right _ hev, hp⟩ (List.forall_mem_append.2 ⟨fun e he => ?_, hnone⟩)
    exact (hpre e he).unfailed
  | recorded h hrecorded =>
    refine .recorded (List.forall_mem_append.2 ⟨fun e he hp => ?_, h⟩) (hrecorded.append tr)
    exact (hpre e he).ok (failing_of_passedOn hp)

theorem Exit.of_error {e : ReconcileError} (h : Exit text tr (.error e : Except ReconcileError α)) :
    Exit text tr (.error e : Except ReconcileError β) := by
  cases h with
  | quiet h => exact .quiet h
  | passedOn h hnone => exact .passedOn h hnone
  | recorded h hrecorded => exact .recorded h hrecorded

/-- **The exits of a sequence** are those of its parts. -/
theorem accounts_bind {p : HostProg α} {f : α → HostProg β} (hp : Accounts C text p) (hf : ∀ a, Accounts C text (f a)) :
    Accounts C text (p.bind f) := by
  intro w tr w' x hr
  rcases Prog.run_bind.1 hr with ⟨a, w₁, tr₁, tr₂, rfl, ha, hrest⟩ | ⟨e, rfl, he⟩
  · obtain ⟨hexit, hcarries⟩ := hf a _ _ _ _ hrest
    cases (hp _ _ _ _ ha).1 with
    | quiet h => exact ⟨hexit.append h, List.forall_mem_append.2 ⟨fun e he => (h e he).carries, hcarries⟩⟩
  · obtain ⟨hexit, hcarries⟩ := hp _ _ _ _ he
    exact ⟨hexit.of_error, hcarries⟩

theorem accounts_quiet {x : Except ReconcileError α} (h : ∀ e ∈ tr, Uneventful text e) :
    Exit text tr x ∧ ∀ e ∈ tr, Carries text e := ⟨.quiet h, fun e he => (h e he).carries⟩

theorem accounts_of_uses {p : HostProg α} (h : p.Uses fun o => ∀ r, Uneventful text ⟨o, r⟩) : Accounts C text p :=
  fun _ _ _ _ hr => accounts_quiet fun e he => h.mem hr e he e.reply

theorem accounts_ret {a : α} : Accounts C text (.ret a) := accounts_of_uses Prog.uses_ret

/-- A failure before its record. -/
theorem exit_recordFailure {event message : String} {error : ReconcileError} {x : Except ReconcileError α}
    {ev : Event HostSig} (htext : Text.trim text ≠ "") (hevent : Text.trim event ≠ "") (hev : ¬ PassedOn ev)
    (hcarries : Carries text ev) (hdetail : error.detail = message)
    (h : (recordFailure C text event message error).Run (recordingEnv C) w tr w' x) :
    Exit text (ev :: tr) x ∧ ∀ e ∈ ev :: tr, Carries text e := by
  obtain ⟨rfl, hrecorded, hquiet⟩ := recordFailure_run htext hevent h
  rw [← hdetail] at hrecorded
  refine ⟨.recorded (List.forall_mem_cons.2 ⟨hev, fun e he => (hquiet e he).1⟩) (hrecorded.append [ev]), ?_⟩
  exact List.forall_mem_cons.2 ⟨hcarries, fun e he => (hquiet e he).2⟩

/-- The events of a failure have a message. -/
theorem trim_failureEvent : ∀ event ∈ ["failed to write nftables config", "nft validation failed", "nft apply failed"],
    Text.trim event ≠ "" := by decide +kernel

theorem accounts_writeRuleset (htext : Text.trim text ≠ "") : Accounts C text (writeRuleset C path text) := by
  intro w tr w' x hr
  unfold writeRuleset atomicWrite Prog.op at hr
  rw [Prog.bind_eq, Prog.bind_call] at hr
  obtain ⟨r, w₁, tr₁, rfl, -, hrest⟩ := Prog.run_call.1 hr
  rw [Prog.bind_ret_left] at hrest
  cases r with
  | ok u =>
    obtain ⟨rfl, -, rfl⟩ := Prog.run_ret.1 hrest
    refine accounts_quiet (List.forall_mem_singleton.2 ⟨?_, fun h => h, trivial⟩)
    rintro ⟨message, hmessage⟩
    cases hmessage
  | error e =>
    have hevent : Text.trim "failed to write nftables config" ≠ "" := trim_failureEvent _ (by simp)
    have hdetail : (ReconcileError.io e).detail = e := rfl
    exact exit_recordFailure htext hevent (fun h => h) trivial hdetail hrest

/-- `nft`, its failure recorded where it came back with one. -/
theorem accounts_runNft (event : String) (fault : String → ReconcileError) {mode : NftMode}
    {f : CommandOutput → HostProg α} (htext : Text.trim text ≠ "") (hevent : Text.trim event ≠ "")
    (hfault : ∀ message, (fault message).detail = message)
    (hgood : ∀ output, output.isSuccess = true → Accounts C text (f output))
    (hbad : ∀ output, output.isSuccess = false →
      f output = recordFailure C text event output.errorMessage (fault output.errorMessage)) :
    Accounts C text ((runNft mode path).bind f) := by
  intro w tr w' x hr
  obtain ⟨r, w₁, tr₁, rfl, -, hrest⟩ := Prog.run_call.1 hr
  have hnoreply : ∀ {e}, (∀ output, r ≠ .exited output) → Exit text [⟨.nft mode path, r⟩]
      (.error e : Except ReconcileError α) ∧ ∀ e ∈ [(⟨.nft mode path, r⟩ : Event HostSig)], Carries text e := fun h =>
    ⟨.passedOn ⟨_, List.mem_singleton_self _, h⟩ (List.forall_mem_singleton.2 fun h => h),
      List.forall_mem_singleton.2 trivial⟩
  cases r with
  | timedOut =>
    obtain ⟨rfl, -, rfl⟩ := Prog.run_fail.1 hrest
    exact hnoreply fun _ h => nomatch h
  | ioError message =>
    obtain ⟨rfl, -, rfl⟩ := Prog.run_fail.1 hrest
    exact hnoreply fun _ h => nomatch h
  | exited output =>
    have hrest : (f output).Run (recordingEnv C) w₁ tr₁ w' x := hrest
    cases hs : output.isSuccess with
    | true =>
      have hfirst : ∀ e ∈ [(⟨.nft mode path, .exited output⟩ : Event HostSig)], Uneventful text e :=
        List.forall_mem_singleton.2 ⟨fun h => h hs, fun h => h, trivial⟩
      obtain ⟨hexit, hcarries⟩ := hgood output hs _ _ _ _ hrest
      exact ⟨hexit.append hfirst, List.forall_mem_cons.2 ⟨trivial, hcarries⟩⟩
    | false =>
      rw [hbad output hs] at hrest
      exact exit_recordFailure htext hevent (fun h => h output rfl) trivial (hfault _) hrest

theorem accounts_runIp {command : IpCommand} : Accounts C text (runIp command) := by
  intro w tr w' x hr
  obtain ⟨r, w₁, tr₁, rfl, -, hret⟩ := Prog.run_call.1 hr
  obtain ⟨rfl, -, rfl⟩ := Prog.run_ofExcept.1 hret
  by_cases hs : Outcome.Succeeded r
  · exact accounts_quiet (List.forall_mem_singleton.2 ⟨fun h => h hs, fun h => h, trivial⟩)
  · refine ⟨?_, List.forall_mem_singleton.2 trivial⟩
    cases hx : (linuxOutput r).mapError ReconcileError.linux with
    | ok output => exact absurd (succeeded_of_ok hx).2 hs
    | error e => exact .passedOn ⟨_, List.mem_singleton_self _, hs⟩ (List.forall_mem_singleton.2 fun h => h)

/-- A store operation does not fail. -/
theorem uneventful_store {o : StoreOp} {r : HostSig.Reply (.store o)} (h : ¬ FailedGeneration ⟨.store o, r⟩)
    (hcarries : Carries text ⟨.store o, r⟩) : Uneventful text ⟨.store o, r⟩ := ⟨fun hf => hf trivial, h, hcarries⟩

/-- A generation that is not Failed is recorded quietly. -/
theorem accounts_generation {status : GenerationStatus}
    (hstatus : enumString GenerationStatus.names status ≠ .ok "failed") :
    Accounts C text (liftStore (recordGeneration C status text none none)) := by
  refine accounts_of_uses (liftStore_uses (recordGeneration_uses C (fun r => ?_) fun s c a hs r => ?_))
  · exact uneventful_store (fun h => h) trivial
  · refine uneventful_store (fun h => ?_) rfl
    rw [hs, show s = "failed" from h] at hstatus
    exact hstatus rfl

theorem accounts_checkRuleset (htext : Text.trim text ≠ "") : Accounts C text (checkRuleset C path text) := by
  refine accounts_runNft "nft validation failed" .nftValidation htext (trim_failureEvent _ (by simp)) (fun _ => rfl)
    (fun output hs => ?_) fun output hs => if_neg (by rw [hs]; decide)
  rw [if_pos hs]
  exact accounts_bind (accounts_generation (by decide)) fun _ => accounts_ret

theorem accounts_applyStep (htext : Text.trim text ≠ "") : Accounts C text (applyStep C options text) := by
  unfold applyStep
  split
  · refine accounts_runNft "nft apply failed" .nftApply htext (trim_failureEvent _ (by simp)) (fun _ => rfl)
      (fun output hs => ?_) fun output hs => if_neg (by rw [hs]; decide)
    rw [if_pos hs]
    exact accounts_ret
  · exact accounts_ret

/-- The address loop stops at the first `ip` that fails. -/
theorem accounts_syncAddresses {interface : String} : Accounts C text (syncAddresses interface ms) := by
  induction ms with
  | nil => exact accounts_ret
  | cons m ms ih =>
    unfold syncAddresses
    split
    · refine accounts_bind (accounts_bind (accounts_bind accounts_runIp fun _ => accounts_ret) fun existing => ?_)
        fun changed => accounts_bind ih fun _ => accounts_ret
      split
      · exact accounts_ret
      · exact accounts_bind accounts_runIp fun _ => accounts_ret
    split
    · refine accounts_bind (accounts_bind (accounts_bind accounts_runIp fun _ => accounts_ret) fun existing => ?_)
        fun changed => accounts_bind ih fun _ => accounts_ret
      split
      · exact accounts_ret
      · exact accounts_bind accounts_runIp fun _ => accounts_ret
    · exact ih

theorem accounts_addressStep : Accounts C text (addressStep config options ms) := by
  unfold addressStep
  split
  · exact accounts_syncAddresses
  · exact accounts_ret

/-- The health of a target is no failure of the reconcile. -/
theorem accounts_recordStep {generation : Generation} : Accounts C text (recordStep C options ms text generation) := by
  refine accounts_of_uses (recordStep_uses ⟨⟨fun r => ?_, fun _ _ _ _ r => ?_⟩, fun _ _ r => ?_, fun _ r => ?_,
    fun _ _ _ _ _ _ _ _ r => ?_⟩ fun _ _ _ r => ?_)
  · exact uneventful_store (fun h => h) trivial
  · exact uneventful_store (fun h => h) trivial
  · exact ⟨fun h => h trivial, fun h => h, trivial⟩
  · exact uneventful_store (fun h => h) trivial
  · exact uneventful_store (fun h => h) trivial
  · exact uneventful_store (fun h => absurd (show "active" = "failed" from h) (by decide)) rfl

/-- **How the rest of a reconcile ends.** A blank ruleset is refused before anything is done with it. -/
theorem accounts_applyReconcile {plan : XdpPlan} : Accounts C text (applyReconcile C config options ms text plan) := by
  by_cases htext : Text.trim text = ""
  · intro w tr w' x hr
    unfold applyReconcile recordGeneration at hr
    rw [if_pos htext] at hr
    obtain ⟨rfl, -, -⟩ := Prog.run_fail.1 hr
    exact accounts_quiet (List.forall_mem_nil _)
  · refine accounts_bind (accounts_generation (by decide)) fun generation => ?_
    refine accounts_bind (accounts_writeRuleset htext) fun _ => accounts_bind (accounts_checkRuleset htext) fun _ => ?_
    refine accounts_bind (accounts_applyStep htext) fun _ => accounts_bind accounts_addressStep fun _ => ?_
    exact accounts_bind accounts_recordStep fun _ => accounts_ret

theorem accounts_listMappings : Accounts C text (liftStore (listMappings C)) := by
  refine accounts_of_uses (liftStore_uses (Prog.uses_bind (uses_sql fun r => ?_) fun _ => Prog.uses_ofExcept))
  exact uneventful_store (fun h => h) trivial

/-- **How a reconcile ends**, for the ruleset it rendered. -/
theorem exit_reconcile {x : Except ReconcileError ReconcileReport}
    (h : (reconcile C config options).Run (recordingEnv C) w tr w' x) :
    ∃ text, Exit text tr x ∧ ∀ e ∈ tr, Carries text e := by
  rcases Prog.run_bind.1 h with ⟨ms, w₁, tr₁, tr₂, rfl, hlist, hrest⟩ | ⟨e, rfl, hlist⟩
  · have hrun : ∃ text, Exit text tr₂ x ∧ ∀ e ∈ tr₂, Carries text e := by
      cases hplan : planReconcile config options ms with
      | error e =>
        rw [hplan] at hrest
        obtain ⟨rfl, -, rfl⟩ := Prog.run_fail.1 hrest
        exact ⟨"", accounts_quiet (List.forall_mem_nil _)⟩
      | ok plan =>
        rw [hplan] at hrest
        refine ⟨plan.1, ?_⟩
        have hrest : (if options.dryRun then _ else if _ then _ else applyReconcile C config options ms plan.1 plan.2 :
          HostProg ReconcileReport).Run (recordingEnv C) w₁ tr₂ w' x := hrest
        split at hrest
        · obtain ⟨rfl, -, rfl⟩ := Prog.run_ret.1 hrest
          exact accounts_quiet (List.forall_mem_nil _)
        split at hrest
        · obtain ⟨rfl, -, rfl⟩ := Prog.run_fail.1 hrest
          exact accounts_quiet (List.forall_mem_nil _)
        · exact accounts_applyReconcile _ _ _ _ hrest
    obtain ⟨text, hexit, hcarries⟩ := hrun
    have hlisted : Exit text tr₁ (.ok ms) ∧ _ := accounts_listMappings _ _ _ _ hlist
    cases hlisted.1 with
    | quiet h => exact ⟨text, hexit.append h, List.forall_mem_append.2 ⟨hlisted.2, hcarries⟩⟩
  · exact ⟨"", (accounts_listMappings _ _ _ _ hlist).imp Exit.of_error id⟩

/-- **A failure is on record exactly where nothing was passed on.** A reconcile that recorded its Rendered generation
and returned an error after a failed write or command, on a store that works. -/
theorem failure_recorded_iff {e : ReconcileError}
    (hr : (reconcile C config options).Run (recordingEnv C) w tr w' (.error e))
    (hrendered : RecordsGeneration "rendered" text none tr) (hfail : ∃ ev ∈ tr, Failing ev) :
    Recorded text e.detail tr ↔ ∀ ev ∈ tr, ¬ PassedOn ev := by
  obtain ⟨text', hexit, hcarries⟩ := exit_reconcile hr
  obtain ⟨createdAt, appliedAt, id, hmem⟩ := hrendered
  obtain rfl : text = text' := hcarries _ hmem
  cases hexit with
  | quiet h =>
    obtain ⟨ev, hev, hf⟩ := hfail
    exact absurd hf (h ev hev).ok
  | passedOn h hnone =>
    obtain ⟨ev, hev, hp⟩ := h
    refine ⟨fun hrecorded => ?_, fun hall => absurd hp (hall ev hev)⟩
    obtain ⟨⟨createdAt, appliedAt, id, hin⟩, -⟩ := hrecorded
    exact absurd rfl (hnone _ hin)
  | recorded h hrecorded => exact ⟨fun _ => h, fun _ => hrecorded⟩

/-! ## A check that fails -/

/-- The file is written, and `nft` ends so. -/
def NftEnds (r : Outcome) : Event HostSig → Prop
  | ⟨.atomicWrite _ _, r'⟩ => r' = .ok ()
  | ⟨.nft _ _, r'⟩ => r' = r
  | _ => True

/-- **A failed check is reached**: the Rendered generation is on record, `nft -c` was asked, and a Failed generation is
on record where it came back. -/
theorem nft_reached {plan : String × XdpPlan} {r : Outcome} {x : Except ReconcileError ReconcileReport}
    (hdry : options.dryRun = false) (hd : decodeRows C w.db.listed = .ok ms)
    (hp : planReconcile config options ms = .ok plan) (hempty : plan.2.entries = [])
    (hr : (reconcile C config options).Run (recordingEnv C) w tr w' x) (hends : ∀ e ∈ tr, NftEnds r e) :
    RecordsGeneration "rendered" plan.1 none tr ∧ (⟨.nft .check options.nftOutput, r⟩ : Event HostSig) ∈ tr ∧
      ∀ output, r = .exited output → output.isSuccess = false →
        RecordsGeneration "failed" plan.1 (some output.errorMessage) tr := by
  have htext := trim_rendered (rendering_of_plan hd hp).1
  -- the listing is the one of the database
  have hlisted : ∀ {tr w' x}, (liftStore (listMappings C)).Run (recordingEnv C) w tr w' x → w' = w ∧ x = .ok ms := by
    intro tr w' x hrun
    obtain ⟨tr', db', y, hlist, rfl, rfl, -⟩ := liftStore_events hrun
    obtain ⟨-, rfl, rfl⟩ := listMappings_exec.1 (Prog.run_mono exec_of_workingStore hlist)
    exact ⟨rfl, congrArg (Except.mapError ReconcileError.core) hd⟩
  rcases Prog.run_bind.1 hr with ⟨ms', w₁, tr₁, tr₂, rfl, hlist, hrest⟩ | ⟨e, rfl, hlist⟩
  swap
  · cases (hlisted hlist).2
  obtain ⟨rfl, hms⟩ := hlisted hlist
  obtain rfl := Except.ok.inj hms
  rw [hp] at hrest
  change (if options.dryRun then _ else if _ then _ else applyReconcile C config options ms' plan.1 plan.2 :
    HostProg ReconcileReport).Run (recordingEnv C) w₁ tr₂ w' x at hrest
  rw [if_neg (by simp [hdry]), if_neg (by simp [hempty])] at hrest
  -- the Rendered generation is recorded
  rcases Prog.run_bind.1 hrest with ⟨generation, w₂, tr₃, tr₄, rfl, hg, hwrite⟩ | ⟨e, rfl, hg⟩
  swap
  · obtain ⟨⟨g, hok⟩, -⟩ := liftGeneration_working htext rfl hg
    cases hok
  obtain ⟨-, createdAt, appliedAt, id, hin⟩ := liftGeneration_working htext rfl hg
  refine ⟨⟨createdAt, appliedAt, id, List.mem_append_right _ (List.mem_append_left _ hin)⟩, ?_⟩
  -- the file is written
  obtain ⟨r', w₃, tr₅, rfl, -, hchecked⟩ := Prog.run_call.1 hwrite
  have hok : r' = .ok () := hends ⟨.atomicWrite options.nftOutput plan.1, r'⟩ (by simp)
  subst hok
  -- and checked
  obtain ⟨r'', w₄, tr₆, rfl, -, hfailed⟩ := Prog.run_call.1 hchecked
  have hr'' : r'' = r := hends ⟨.nft .check options.nftOutput, r''⟩ (by simp)
  subst hr''
  refine ⟨by simp, ?_⟩
  rintro output rfl hs
  change ((if output.isSuccess then _ else recordFailure C plan.1 "nft validation failed" output.errorMessage
    (.nftValidation output.errorMessage) : HostProg Unit).bind _).Run (recordingEnv C) w₄ tr₆ w' x at hfailed
  rw [if_neg (by rw [hs]; decide)] at hfailed
  have hevent : Text.trim "nft validation failed" ≠ "" := trim_failureEvent _ (by simp)
  rcases Prog.run_bind.1 hfailed with ⟨u, w₅, tr₇, tr₈, rfl, hrecord, -⟩ | ⟨e, rfl, hrecord⟩
  · cases (recordFailure_run htext hevent hrecord).1
  · obtain ⟨-, ⟨⟨createdAt, appliedAt, id, hin⟩, -⟩, -⟩ := recordFailure_run htext hevent hrecord
    exact ⟨createdAt, appliedAt, id, by simp [hin]⟩

/-- A reconcile that a write or a command made fail returns an error. -/
theorem error_of_failing {x : Except ReconcileError ReconcileReport} {ev : Event HostSig}
    (hr : (reconcile C config options).Run (recordingEnv C) w tr w' x) (hev : ev ∈ tr) (hfail : Failing ev) :
    ∃ e, x = .error e := by
  obtain ⟨text, hexit, -⟩ := exit_reconcile hr
  cases hexit with
  | quiet h => exact absurd hfail (h ev hev).ok
  | passedOn | recorded => exact ⟨_, rfl⟩

/-- A host whose `nft` always ends so. -/
def answerNft (r : Outcome) : Handler HostSig World
  | w, .nft _ _ => (r, w)
  | w, o => answer (fun _ => true) w o

theorem answerNft_env {r : Outcome} (hr : ¬ r.Succeeded) (w : World) (o : HostOp) :
    recordingEnv sampleCodec w o (answerNft r w o).1 (answerNft r w o).2 ∧ NftEnds r ⟨o, (answerNft r w o).1⟩ := by
  cases o with
  | store o =>
    refine ⟨⟨_, ?_, rfl⟩, trivial⟩
    cases o with
    | now => exact ⟨⟨_, rfl⟩, rfl⟩
    | sql s => exact rfl
  | nft mode path =>
    cases mode with
    | check => exact ⟨⟨rfl, fun hs => absurd hs hr⟩, rfl⟩
    | apply => exact ⟨⟨fun hs => absurd hs hr, fun _ => rfl, .inl rfl⟩, rfl⟩
  | atomicWrite path text => exact ⟨answer_env (fun _ => true) w (.atomicWrite path text), rfl⟩
  | ip command => exact ⟨answer_env (fun _ => true) w (.ip command), trivial⟩
  | connect ip port => exact ⟨answer_env (fun _ => true) w (.connect ip port), trivial⟩

/-- The two services can be reconciled up to a check that ends so. -/
theorem sample_reaches {r : Outcome} (hr : ¬ r.Succeeded) : ∃ text tr w' e,
    (reconcile sampleCodec sampleConfig {}).Run (recordingEnv sampleCodec) sampleWorld tr w' (.error e) ∧
      RecordsGeneration "rendered" text none tr ∧
      (∃ ev ∈ tr, Failing ev ∧ ev = ⟨.nft .check "/run/edge-router/generated.nft", r⟩) ∧
      ∀ output, r = .exited output → output.isSuccess = false →
        RecordsGeneration "failed" text (some output.errorMessage) tr := by
  have hlisting : (sampleListing sampleWorld.db).isSome = true := by decide +kernel
  obtain ⟨ms, hms⟩ := Option.isSome_iff_exists.1 hlisting
  obtain ⟨hd, hv, hnft, -⟩ := sampleListing_some hms
  obtain ⟨plan, hp, hempty⟩ := planReconcile_ok {} hv hnft rfl
  obtain ⟨hrun, hends⟩ := Prog.run_restrict.1
    (eval_run (answerNft_env hr) (reconcile sampleCodec sampleConfig {}) sampleWorld)
  obtain ⟨hrendered, hin, hfailed⟩ := nft_reached rfl hd hp hempty hrun hends
  have hfail : Failing ⟨.nft .check "/run/edge-router/generated.nft", r⟩ := hr
  obtain ⟨e, he⟩ := error_of_failing hrun hin hfail
  rw [he] at hrun
  exact ⟨plan.1, _, _, e, hrun, hrendered, ⟨_, hin, hfail, rfl⟩, hfailed⟩

/-- **A ruleset that `nft` refuses is on record as Failed.** -/
theorem failure_recorded_of_refusal : ∃ text tr w' e,
    (reconcile sampleCodec sampleConfig {}).Run (recordingEnv sampleCodec) sampleWorld tr w' (.error e) ∧
      RecordsGeneration "rendered" text none tr ∧ (∃ ev ∈ tr, Failing ev) ∧ Recorded text e.detail tr := by
  obtain ⟨text, tr, w', e, hr, hrendered, ⟨ev, hev, hfail, rfl⟩, hfailed⟩ :=
    sample_reaches (r := .exited ⟨some 1, "", "syntax error"⟩) (by decide)
  obtain ⟨createdAt, appliedAt, id, hin⟩ := hfailed _ rfl rfl
  obtain ⟨text', hexit, -⟩ := exit_reconcile hr
  have hreturned : ∀ ev ∈ tr, ¬ PassedOn ev := by
    cases hexit with
    | quiet h => exact absurd hfail (h _ hev).ok
    | passedOn _ hnone => exact absurd rfl (hnone _ hin)
    | recorded h _ => exact h
  exact ⟨text, tr, w', e, hr, hrendered, ⟨_, hev, hfail⟩,
    (failure_recorded_iff hr hrendered ⟨_, hev, hfail⟩).2 hreturned⟩

/-- **A check that times out is not on record**: no generation is Failed, though the Rendered one is there. -/
theorem timeout_unrecorded : ∃ text tr w' e,
    (reconcile sampleCodec sampleConfig {}).Run (recordingEnv sampleCodec) sampleWorld tr w' (.error e) ∧
      RecordsGeneration "rendered" text none tr ∧ (∃ ev ∈ tr, Failing ev) ∧
      ¬ ∃ error, RecordsGeneration "failed" text (some error) tr := by
  obtain ⟨text, tr, w', e, hr, hrendered, ⟨ev, hev, hfail, rfl⟩, -⟩ := sample_reaches (r := .timedOut) (by decide)
  have hpassed : PassedOn ⟨.nft .check "/run/edge-router/generated.nft", .timedOut⟩ := fun output h => nomatch h
  refine ⟨text, tr, w', e, hr, hrendered, ⟨_, hev, hfail⟩, ?_⟩
  rintro ⟨error, createdAt, appliedAt, id, hin⟩
  obtain ⟨text', hexit, -⟩ := exit_reconcile hr
  cases hexit with
  | quiet h => exact (h _ hev).ok hfail
  | passedOn _ hnone => exact hnone _ hin rfl
  | recorded h _ => exact h _ hev hpassed

end EdgeRoute
