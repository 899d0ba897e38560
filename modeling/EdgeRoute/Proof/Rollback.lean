import EdgeRoute.Proof.Record

/-!
# Going back

A rollback puts the text of a recorded generation into the file and into the kernel.

* `recordEvent_ends`, `getGeneration_ends`, `applyFile_ends`: what the steps of a rollback leave.
* `rollback_ends`: what a rollback leaves, wherever it stops; `rollback_can`: it can return.
* `rollback_restores`: **the ruleset that a call put in place at any point of a run comes back at any later point**,
  and nothing else changes.
-/

namespace EdgeRoute

open Effect

variable {C : Codec} {J : OciJson} {N : String → Except String NetbirdStatus} {D : Option OciError → String}
  {text path : String} {id : ℤ} {row : GenerationRow} {w w₁ w' : World} {α : Type}

/-! ## Steps -/

theorem sat_liftStore {p : StoreProg α} {post : World → Except ReconcileError α → Prop}
    (h : p.Sat storeEnv w.db fun db' y => post { w with db := db' } (y.mapError .core)) :
    (liftStore p).Sat hostEnv w post := by
  refine Prog.sat_iff.2 fun tr w' x hr => ?_
  obtain ⟨tr', db', y, hp, rfl, rfl⟩ := liftStore_run hr
  exact h.of_run hp

/-- **What is left** between the first step of a rollback and its end: the rows, the generations and the addresses are
as they were, and the file and the kernel are as they were or hold the text. -/
structure PutsBack (path text : String) (w w' : World) : Prop where
  mappings : w'.db.mappings = w.db.mappings
  config : w'.db.config = w.db.config
  generations : w'.db.generations = w.db.generations
  events : w.db.events <+: w'.db.events
  addrs : w'.addrs = w.addrs
  files : w'.files = w.files ∨ w'.files = Function.update w.files path (some text)
  kernel : w'.kernel = w.kernel ∨ w'.kernel = some text

theorem PutsBack.refl (w : World) : PutsBack path text w w := ⟨rfl, rfl, rfl, List.prefix_rfl, rfl, .inl rfl, .inl rfl⟩

theorem PutsBack.write (w : World) : PutsBack path text w (w.write path text) :=
  ⟨rfl, rfl, rfl, List.prefix_rfl, rfl, .inr rfl, .inl rfl⟩

theorem write_load (w : World) : ((w.write path text).load path).kernel = some text := Function.update_self ..

theorem PutsBack.load (w : World) : PutsBack path text w ((w.write path text).load path) :=
  ⟨rfl, rfl, rfl, List.prefix_rfl, rfl, .inr rfl, .inr (write_load w)⟩

/-- What `record_event` leaves: one event more, if it returns. -/
structure Noted (level message : String) (data : Option String) (w w' : World) (returned : Prop) : Prop where
  host : SameHost w w'
  mappings : w'.db.mappings = w.db.mappings
  config : w'.db.config = w.db.config
  generations : w'.db.generations = w.db.generations
  events : w.db.events <+: w'.db.events
  noted : returned → ∃ createdAt, w'.db.events = w.db.events ++ [⟨w.db.nextEvent, level, message, data, createdAt⟩]

theorem PutsBack.noted {level message : String} {data : Option String} {returned : Prop} (h : PutsBack path text w w₁)
    (hn : Noted level message data w₁ w' returned) : PutsBack path text w w' where
  mappings := hn.mappings.trans h.mappings
  config := hn.config.trans h.config
  generations := hn.generations.trans h.generations
  events := h.events.trans hn.events
  addrs := hn.host.addrs.trans h.addrs
  files := by rw [hn.host.files]; exact h.files
  kernel := by rw [hn.host.kernel]; exact h.kernel

theorem recordEvent_ends {level : EventLevel} {levelText message : String} {data : Option String}
    (hlevel : enumString EventLevel.names level = .ok levelText) (hmessage : Text.trim message ≠ "") :
    (liftStore (recordEvent C level message data)).Sat hostEnv w fun w' x =>
      Noted levelText message data w w' (∃ event, x = .ok event) := by
  have hsame : ∀ e : ReconcileError, Noted levelText message data w { w with db := w.db }
      (∃ event : EventRecord, Except.error e = .ok event) := fun e =>
    ⟨⟨rfl, rfl, rfl⟩, rfl, rfl, rfl, List.prefix_rfl, fun ⟨_, hx⟩ => by cases hx⟩
  refine sat_liftStore ?_
  unfold recordEvent
  rw [if_neg hmessage]
  refine Prog.sat_bind (sat_nowUtc fun now => ⟨fun _ _ => ?_, fun _ hx => by cases hx⟩)
  refine Prog.sat_bind (Prog.sat_ofExcept ⟨fun l hl => ?_, fun e _ => hsame _⟩)
  obtain rfl := Except.ok.inj (hlevel.symm.trans hl)
  refine Prog.sat_bind (Prog.sat_ofExcept ⟨fun createdAt _ => ?_, fun e _ => hsame _⟩)
  refine Prog.sat_bind (sat_sql fun r db' hE => ?_)
  rcases hE with hE | ⟨reason, rfl, rfl⟩
  · obtain ⟨rfl, rfl⟩ := Prod.mk.inj hE
    refine ⟨fun eventId _ => Prog.sat_ret ?_, fun _ hx => by cases hx⟩
    exact ⟨⟨rfl, rfl, rfl⟩, rfl, rfl, rfl, List.prefix_append .., fun _ => ⟨createdAt, rfl⟩⟩
  · exact ⟨fun _ hx => (by cases hx), fun e _ => hsame _⟩

/-- A recorded generation is fetched with its text. -/
theorem getGeneration_ends (hrow : (w.db.exec (.selectGeneration id)).1 = .ok (some row)) :
    (liftStore (getGeneration C id)).Sat hostEnv w fun w' x =>
      w' = w ∧ ∀ generation, x = .ok generation → generation.nftablesConfig = row.nftablesConfig := by
  refine sat_liftStore (Prog.sat_bind (sat_sql fun r db' hE => ?_))
  rcases hE with hE | ⟨reason, rfl, rfl⟩
  · have hr : r = .ok (some row) := (congrArg Prod.fst hE).trans hrow
    have hdb : db' = w.db := congrArg Prod.snd hE
    subst hr hdb
    refine ⟨fun found hfound => ?_, fun _ hx => by cases hx⟩
    obtain rfl := Except.ok.inj hfound
    refine Prog.sat_ofExcept ⟨rfl, fun generation hg => ?_⟩
    cases hd : rowToGeneration C row with
    | error e =>
      rw [hd] at hg
      cases hg
    | ok g =>
      rw [hd] at hg
      obtain rfl := Except.ok.inj hg
      exact rowToGeneration_text hd
  · exact ⟨fun _ hx => (by cases hx), fun _ _ => ⟨rfl, fun _ hx => by cases hx⟩⟩

theorem checkFile_ends : (checkFile path).Sat hostEnv w fun w' _ => w' = w :=
  Prog.sat_call fun _ _ hE => Prog.sat_ofExcept hE.1

/-- `nft -f` loads the file or leaves the kernel; with status zero it loads it. -/
theorem applyFile_ends : (applyFile path).Sat hostEnv w fun w' x =>
    (w' = w ∨ w' = w.load path) ∧ ∀ output, x = .ok output → output.isSuccess = true → w' = w.load path := by
  refine Prog.sat_call fun r w' hE => Prog.sat_ofExcept ⟨hE.either.imp_right And.right, fun output hx hs => ?_⟩
  cases r with
  | timedOut => cases hx
  | ioError message => cases hx
  | exited output' =>
    obtain rfl := Except.ok.inj hx
    exact (hE.succeeded hs).2

/-! ## The rollback -/

/-- **What a rollback leaves**: whatever fails it touches nothing but the file and the kernel, and when it returns both
hold the text and the event says so. -/
structure Restores (path text : String) (id : ℤ) (w w' : World) (x : Except ReconcileError Unit) : Prop where
  puts : PutsBack path text w w'
  returned : x = .ok () → w'.kernel = some text ∧ w'.files path = some text ∧ ∃ createdAt, w'.db.events =
    w.db.events ++ [⟨w.db.nextEvent, "warn", "rollback applied", some ("generation=" ++ id.repr), createdAt⟩]

theorem Restores.of_error {e : ReconcileError} (h : PutsBack path text w w') : Restores path text id w w' (.error e) :=
  ⟨h, fun hx => by cases hx⟩

/-- A failure that is noted before it is passed on. -/
theorem recordRollbackFailure_ends {event message : String} {error : ReconcileError} (hevent : Text.trim event ≠ "")
    (h : PutsBack path text w w₁) :
    (recordRollbackFailure C event message error : HostProg Unit).Sat hostEnv w₁ (Restores path text id w) := by
  refine Prog.sat_bind (Prog.sat_mono ?_ (recordEvent_ends rfl hevent))
  rintro w₂ x hn
  exact ⟨fun _ _ => Prog.sat_fail (.of_error (h.noted hn)), fun _ _ => .of_error (h.noted hn)⟩

theorem rollback_ends (hrow : (w.db.exec (.selectGeneration id)).1 = .ok (some row)) :
    (rollback C id path).Sat hostEnv w (Restores path row.nftablesConfig id w) := by
  unfold rollback
  refine Prog.sat_bind (Prog.sat_mono ?_ (getGeneration_ends hrow))
  rintro w₁ x ⟨hsame, htext⟩
  obtain rfl := hsame.symm
  refine ⟨fun generation hx => ?_, fun e _ => .of_error (.refl _)⟩
  rw [htext generation hx]
  refine Prog.sat_bind (Prog.sat_call fun r w₁ hE => Prog.sat_ret ⟨fun _ hr => ?_, fun _ hr => by cases hr⟩)
  cases hr
  rcases hE with ⟨rfl, rfl⟩ | ⟨e, rfl, rfl⟩
  · -- the file is written: the check leaves it, and the load takes it
    refine Prog.sat_bind (Prog.sat_mono ?_ checkFile_ends)
    rintro _ y rfl
    refine ⟨fun check _ => ?_, fun e _ => .of_error (.write _)⟩
    by_cases hcheck : check.isSuccess = true
    · rw [if_neg (by rw [hcheck]; decide)]
      refine Prog.sat_bind (Prog.sat_mono ?_ applyFile_ends)
      rintro w₂ y ⟨heither, hloaded⟩
      have hput : PutsBack path row.nftablesConfig w w₂ := by
        rcases heither with rfl | rfl
        · exact .write _
        · exact .load _
      refine ⟨fun applied happlied => ?_, fun e _ => .of_error hput⟩
      by_cases hsuccess : applied.isSuccess = true
      · obtain rfl := hloaded applied happlied hsuccess
        rw [if_neg (by rw [hsuccess]; decide)]
        refine Prog.sat_bind (Prog.sat_mono ?_ (recordEvent_ends rfl (by decide)))
        rintro w₃ z hn
        have hend : PutsBack path row.nftablesConfig w w₃ := hput.noted hn
        refine ⟨fun event hz => Prog.sat_ret ⟨hend, fun _ => ⟨?_, ?_, hn.noted ⟨event, hz⟩⟩⟩, fun e _ => .of_error hend⟩
        · rw [hn.host.kernel]
          exact write_load w
        · rw [hn.host.files]
          exact Function.update_self ..
      · rw [if_pos (by simpa using hsuccess)]
        exact recordRollbackFailure_ends (by decide) hput
    · rw [if_pos (by simpa using hcheck)]
      exact recordRollbackFailure_ends (by decide) (.write _)
  · exact Prog.sat_fail (.of_error (.refl _))

theorem getGeneration_can {db : Db} {generation : Generation}
    (hrow : (db.exec (.selectGeneration id)).1 = .ok (some row)) (hread : rowToGeneration C row = .ok generation) :
    (getGeneration C id).Can storeEnv db fun db' _ => db' = db :=
  Prog.can_bind (sql_can hrow (Prog.can_ofExcept hread rfl))

/-- **A rollback can return**: the row is read, the tools exit with status zero and the event is written. -/
theorem rollback_can {generation : Generation} (hrow : (w.db.exec (.selectGeneration id)).1 = .ok (some row))
    (hread : rowToGeneration C row = .ok generation) (hclock : Clock C) :
    (rollback C id path).Can hostEnv w fun _ _ => True := by
  unfold rollback
  refine Prog.can_bind (Prog.can_mono ?_ (liftStore_can (getGeneration_can hrow hread)))
  rintro w₁ fetched ⟨db', rfl, rfl⟩
  refine Prog.can_bind (Prog.can_call (S := HostSig) (r := .ok ()) (.inl ⟨rfl, rfl⟩) (Prog.can_ret ?_))
  have hfile : (w.write path fetched.nftablesConfig).files path ≠ none := by
    change Function.update w.files path (some fetched.nftablesConfig) path ≠ none
    rw [Function.update_self]
    exact Option.some_ne_none _
  have hdone : ¬ (!CommandOutput.isSuccess ⟨some 0, "", ""⟩) = true := by decide
  refine Prog.can_bind (runNft_can .check ⟨rfl, fun _ => hfile⟩ ?_)
  rw [if_neg hdone]
  refine Prog.can_bind (runNft_can .apply (commanded_done hfile) ?_)
  rw [if_neg hdone]
  refine Prog.can_bind (Prog.can_mono ?_ (liftStore_can (recordEvent_can hclock (by decide))))
  intro w₂ event hnoted
  exact Prog.can_ret trivial

/-! ## Over a run -/

section Runs

variable {calls : ℕ → FrontCall} {pool₁ pool : ℕ → AgentProg FrontFailure Unit} {v₀ v₁ v : AgentWorld}
  {tr₁ tr₂ : List (ℕ × Event AgentSig)}

/-- **Back to any ruleset.** Calls of both front ends run, interleaved and failing as they may, up to a point where the
kernel has a ruleset that one of them put there: another than at the start, or whichever once a `nft -f` of theirs has
said that it loaded one. Then there is more of the run. There is a generation with this ruleset, and a
rollback to it, to any path: wherever it fails it leaves all rows, generations and addresses, and in the file and the
kernel what was there or the ruleset; when it returns, both have the ruleset; and if the row can be read and the clock
be written, it can return. -/
theorem rollback_restores (h0 : Numbered v₀.host.db)
    (hr₁ : Reach (agentEnv J) (fun i => (calls i).prog C J N D) v₀ tr₁ pool₁ v₁)
    (hr₂ : Reach (agentEnv J) pool₁ v₁ tr₂ pool v) (hkernel : v₁.host.kernel = some text)
    (hput : v₁.host.kernel ≠ v₀.host.kernel ∨ ∃ i e, e ∈ hostTrace i tr₁ ∧ PutInPlace e) :
    ∃ row, (v.host.db.exec (.selectGeneration row.id)).1 = .ok (some row) ∧ row.nftablesConfig = text ∧
      (∀ path tr w' x, (rollback C row.id path).Run hostEnv v.host tr w' x → Restores path text row.id v.host w' x) ∧
      ((∃ generation, rowToGeneration C row = .ok generation) → Clock C →
        ∀ path, ∃ tr w', (rollback C row.id path).Run hostEnv v.host tr w' (.ok ())) := by
  -- the ruleset was on record when it was put in place, and the record only grows
  obtain ⟨text', ⟨row, hmem, htext⟩, hplaced⟩ := (recordInv_of_reach hr₁).kernel.resolve_right fun ⟨hsame, hnone⟩ =>
    hput.elim (fun hnew => hnew hsame) fun ⟨i, e, he, hloads⟩ => hnone i e he hloads
  obtain rfl := Option.some.inj (hkernel.symm.trans hplaced)
  obtain ⟨new, hgrown, -⟩ := new_of_reach hr₂
  have hlater : row ∈ v.host.db.generations := by
    rw [hgrown]
    exact List.mem_append_left _ hmem
  have hrow := (numbered_of_reach (hr₁.append hr₂) h0).find hlater
  refine ⟨row, hrow, htext, fun path tr w' x hrun => ?_, fun ⟨generation, hread⟩ hclock path => ?_⟩
  · rw [← htext]
    exact (rollback_ends hrow).of_run hrun
  · have hcan : (rollback C row.id path).Can hostEnv v.host fun _ _ => True := rollback_can hrow hread hclock
    obtain ⟨tr, w', u, hrun, -⟩ := hcan
    exact ⟨tr, w', hrun⟩

/-- Back to the ruleset that a reconcile loads on the empty host, after all of another reconcile. -/
theorem rollback_restores_applied : ∃ tr₁ pool₁ v₁ tr₂ pool v, ∃ row : GenerationRow,
    Reach (agentEnv sampleOciJson) (fun _ => sampleProg sampleApply) emptyAgent tr₁ pool₁ v₁ ∧
      Reach (agentEnv sampleOciJson) pool₁ v₁ tr₂ pool v ∧ pool₁ 1 = sampleProg sampleApply ∧ pool 1 = .ret () ∧
      v₁.host.kernel = some row.nftablesConfig ∧
      ∀ tr w', (rollback sampleCodec row.id "/run/edge-router/back.nft").Run hostEnv v.host tr w' (.ok ()) →
        w'.kernel = v₁.host.kernel := by
  obtain ⟨text, tr₁, v₁, a₁, hrun₁, hkernel, hrows⟩ := apply_can (w := emptyAgent) rfl
  obtain ⟨text₂, tr₂, v, a₂, hrun₂, hkernel₂, -⟩ := apply_can hrows
  have hstart : Reach (agentEnv sampleOciJson) (fun _ => sampleProg sampleApply) emptyAgent [] _ emptyAgent := .init
  have hr₁ := hstart.run (i := 0) (Prog.bind_ret_right _).symm hrun₁
  -- the run goes on with the other call
  have hnext : Reach (agentEnv sampleOciJson) (Function.update (fun _ => sampleProg sampleApply) 0 (.ret a₁)) v₁ []
      _ v₁ := .init
  have hr₂ := hnext.run (i := 1) (Prog.bind_ret_right _).symm hrun₂
  have hput : v₁.host.kernel ≠ emptyAgent.host.kernel := by
    rw [hkernel]
    exact Option.some_ne_none _
  obtain ⟨row, -, rfl, hback, -⟩ := rollback_restores (numbered_of_nil rfl) hr₁ hr₂ hkernel (.inl hput)
  refine ⟨_, _, v₁, _, _, v, row, hr₁, hr₂, rfl, rfl, hkernel, fun tr w' hrun => ?_⟩
  rw [hkernel]
  exact ((hback _ tr w' _ hrun).returned rfl).1

end Runs

end EdgeRoute
