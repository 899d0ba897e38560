import EdgeRoute.Proof.Loads

/-!
# The latest mappings in the kernel

A reconcile works on the listing it took at its start, and nothing orders two reconciles.

* `current_step`: after the last change to the mappings, what calls that list afterwards write and load is
  the ruleset of the mappings as they are.
* `latest_ruleset_loaded`: **no change is lost where no reconcile that listed before it writes or loads after
  it.**
-/

namespace EdgeRoute

open Effect

variable {C : Codec} {config : EdgeConfig} {calls : ℕ → HostCall} {pool : ℕ → HostProg Unit} {w w' w₀ : World}
  {path text : String} {q : Progress} {i j : ℕ} {pre suf tr : List (ℕ × Event HostSig)}

/-! ## Calls and events -/

/-- A call on mappings, or one that reconciles in full, under the config. -/
def HostCall.Applies (config : EdgeConfig) : HostCall → Prop
  | .store _ => True
  | .reconcile config' options => config' = config ∧ options.Full
  | .rollback _ _ => False
  | .apiDelete config' _ => config' = config

/-- The call was given its listing. -/
def IsListing : Event HostSig → Prop
  | ⟨.store (.sql .selectMappings), .ok _⟩ => True
  | _ => False

/-- The call writes or loads a ruleset. -/
def IsWriteOrLoad : HostOp → Prop
  | .atomicWrite _ _ => True
  | .nft .apply _ => True
  | _ => False

/-- The call has listed the mappings in these events. -/
def HasListed (i : ℕ) (tr : List (ℕ × Event HostSig)) : Prop := ∃ e, (i, e) ∈ tr ∧ IsListing e

/-- **No stale ruleset**: whoever writes or loads a ruleset in these events has listed in them before. -/
def NoStale (tr : List (ℕ × Event HostSig)) : Prop :=
  ∀ a i e b, tr = a ++ (i, e) :: b → IsWriteOrLoad e.op → HasListed i a

theorem NoStale.of_snoc {x : ℕ × Event HostSig} (h : NoStale (tr ++ [x])) : NoStale tr :=
  fun a i e b htr => h a i e (b ++ [x]) (by rw [htr]; simp)

theorem NoStale.last {e : Event HostSig} (h : NoStale (tr ++ [(i, e)])) (he : IsWriteOrLoad e.op) : HasListed i tr :=
  h tr i e [] rfl he

theorem hasListed_snoc {e : Event HostSig} :
    HasListed i (tr ++ [(j, e)]) ↔ HasListed i tr ∨ (i = j ∧ IsListing e) := by
  simp only [HasListed, List.mem_append, List.mem_singleton, Prod.mk.injEq]
  constructor
  · rintro ⟨e', h | ⟨rfl, rfl⟩, he⟩
    · exact .inl ⟨e', h, he⟩
    · exact .inr ⟨rfl, he⟩
  · rintro (⟨e', h, he⟩ | ⟨rfl, he⟩)
    · exact ⟨e', .inl h, he⟩
    · exact ⟨e, .inr ⟨rfl, rfl⟩, he⟩

/-! ## After the last change -/

/-- The text is the ruleset of the stored mappings. -/
def IsCurrent (C : Codec) (config : EdgeConfig) (w : World) (text : String) : Prop :=
  rendering C config w.db.listed = some text

/-- What holds of the events after the last change, where none of them writes or loads a stale ruleset. -/
structure Current (C : Codec) (config : EdgeConfig) (q : ℕ → Progress) (tr : List (ℕ × Event HostSig)) (w : World) :
    Prop where
  lister : ∀ i, HasListed i tr → (q i).config = some config
  ruleset : ∀ i, HasListed i tr → ∀ text, (q i).ruleset = some text → IsCurrent C config w text
  wrote : ∀ i, HasListed i tr → (q i).stage = .written ∨ (q i).stage = .checked → lastWrite (q i).path tr ≠ none
  file : ∀ path, lastWrite path tr ≠ none → ∃ text, w.files path = some text ∧ IsCurrent C config w text
  kernel : (∃ i path r, (i, (⟨.nft .apply path, r⟩ : Event HostSig)) ∈ tr ∧ r.Succeeded) →
    ∃ text, w.kernel = some text ∧ IsCurrent C config w text

section Step

variable {q : ℕ → Progress} {o : HostOp} {r : o.Reply}

theorem lastWrite_mono (x : ℕ × Event HostSig) (h : lastWrite path tr ≠ none) : lastWrite path (tr ++ [x]) ≠ none := by
  rw [lastWrite_snoc]
  cases wroteTo path x.2 with
  | none => exact h
  | some text => simp

/-- A listing returns the rows as they are and changes nothing. -/
theorem listing_step {rows : List Row} (hE : hostEnv w (.store (.sql .selectMappings)) (.ok rows) w') :
    rows = w.db.listed ∧ w' = w := by
  obtain ⟨db', hdb, rfl⟩ := hE
  rcases hdb with h | ⟨e, he, -⟩
  · cases h; exact ⟨rfl, rfl⟩
  · cases he

theorem IsCurrent.step (hno : ¬ Edits ⟨o, r⟩) (hallow : (protocol C).allow (q i) o) (hE : hostEnv w o r w')
    (h : IsCurrent C config w text) : IsCurrent C config w' text :=
  rendering_refreshed (refreshed_step hno hallow hE) h

/-- What a call that has listed knows of its text after an operation. -/
theorem current_ruleset (h : Current C config q tr w) (hlists : (q i).config ≠ none → (q i).config = some config)
    (hno : ¬ Edits ⟨o, r⟩) (hallow : (protocol C).allow (q i) o) (hE : hostEnv w o r w')
    (hlisted : HasListed i (tr ++ [(i, ⟨o, r⟩)])) :
    (q i).config = some config ∧
      ∀ text, ((protocol C).next (q i) ⟨o, r⟩).ruleset = some text → IsCurrent C config w' text := by
  rcases hasListed_snoc.1 hlisted with hlisted | ⟨-, he⟩
  · have hconfig := h.lister i hlisted
    refine ⟨hconfig, fun text ht => ?_⟩
    have hkeep : (q i).ruleset = some text → IsCurrent C config w' text := fun ht =>
      (h.ruleset i hlisted text ht).step hno hallow hE
    cases o with
    | store o =>
      cases o with
      | now => exact hkeep ht
      | sql s =>
        cases s with
        | selectMappings =>
          cases r with
          | error e => exact hkeep ht
          | ok rows =>
            obtain ⟨rfl, rfl⟩ := listing_step hE
            obtain ⟨config', hc, ht⟩ := Option.bind_eq_some_iff.1 ht
            cases hconfig.symm.trans hc
            exact ht
        | selectGeneration id => exact absurd (hconfig.symm.trans hallow.2) (by simp)
        | _ => exact hkeep ht
    | nft mode path => cases mode <;> exact hkeep ht
    | _ => exact hkeep ht
  · cases o with
    | store o =>
      cases o with
      | now => exact absurd he id
      | sql s =>
        cases s with
        | selectMappings =>
          cases r with
          | error e => exact absurd he id
          | ok rows =>
            have hconfig := hlists hallow.2
            refine ⟨hconfig, fun text ht => ?_⟩
            obtain ⟨rfl, rfl⟩ := listing_step hE
            obtain ⟨config', hc, ht⟩ := Option.bind_eq_some_iff.1 ht
            cases hconfig.symm.trans hc
            exact ht
        | _ => exact absurd he id
    | _ => exact absurd he id

/-- A call that has listed and written has written in these events. -/
theorem current_wrote (h : Current C config q tr w) (hallow : (protocol C).allow (q i) o)
    (hlisted : HasListed i (tr ++ [(i, ⟨o, r⟩)]))
    (hstage : ((protocol C).next (q i) ⟨o, r⟩).stage = .written ∨ ((protocol C).next (q i) ⟨o, r⟩).stage = .checked) :
    lastWrite (q i).path (tr ++ [(i, ⟨o, r⟩)]) ≠ none := by
  have hkeep : HasListed i tr → (q i).stage = .written ∨ (q i).stage = .checked →
      lastWrite (q i).path (tr ++ [(i, ⟨o, r⟩)]) ≠ none := fun hl hs => lastWrite_mono _ (h.wrote i hl hs)
  have hquiet : (∀ path text, o ≠ .atomicWrite path text) → (∀ mode path, o ≠ .nft mode path) →
      (IsListing ⟨o, r⟩ → (q i).stage = .idle) → lastWrite (q i).path (tr ++ [(i, ⟨o, r⟩)]) ≠ none := by
    intro hwrite hnft hidle
    rw [next_stage hwrite hnft] at hstage
    rcases hasListed_snoc.1 hlisted with hl | ⟨-, he⟩
    · exact hkeep hl hstage
    · rw [hidle he] at hstage
      rcases hstage with hs | hs <;> cases hs
  cases o with
  | store o =>
    refine hquiet (by simp) (by simp) fun he => ?_
    cases o with
    | now => exact absurd he id
    | sql s =>
      cases s with
      | selectMappings => exact hallow.1
      | _ => exact absurd he id
  | ip command => exact hquiet (by simp) (by simp) fun he => absurd he id
  | connect ip port => exact hquiet (by simp) (by simp) fun he => absurd he id
  | atomicWrite path text =>
    cases r with
    | error e => rcases hstage with hs | hs <;> cases hs
    | ok u =>
      obtain ⟨rfl, -⟩ := hallow
      rw [lastWrite_snoc]
      simp [wroteTo]
  | nft mode path =>
    rcases hasListed_snoc.1 hlisted with hl | ⟨-, he⟩
    · cases mode with
      | check => exact hkeep hl (.inl hallow.2)
      | apply => exact hkeep hl (.inr hallow.2.1)
    · exact absurd he id

/-- What the file holds after an operation, if it was written in these events. -/
theorem current_file (h : Current C config q tr w) (hno : ¬ Edits ⟨o, r⟩) (hallow : (protocol C).allow (q i) o)
    (hE : hostEnv w o r w') (hstale : NoStale (tr ++ [(i, ⟨o, r⟩)]))
    (hlast : lastWrite path (tr ++ [(i, ⟨o, r⟩)]) ≠ none) :
    ∃ text, w'.files path = some text ∧ IsCurrent C config w' text := by
  rw [lastWrite_snoc] at hlast
  rw [files_step hE path]
  cases hw : wroteTo path ⟨o, r⟩ with
  | none =>
    rw [hw] at hlast
    obtain ⟨text, hfile, htext⟩ := h.file path hlast
    exact ⟨text, hfile, htext.step hno hallow hE⟩
  | some text =>
    refine ⟨text, rfl, ?_⟩
    cases o with
    | atomicWrite path' text' =>
      cases r with
      | error e => cases hw
      | ok u =>
        have htext : text' = text := by
          simp only [wroteTo] at hw
          split at hw
          · exact Option.some.inj hw
          · cases hw
        subst htext
        exact (h.ruleset i (hstale.last trivial) _ hallow.2.1).step hno hallow hE
    | store o => cases hw
    | nft mode path => cases hw
    | ip command => cases hw
    | connect ip port => cases hw

/-- What the kernel holds after an operation, if it was loaded in these events. -/
theorem current_kernel (h : Current C config q tr w) (hno : ¬ Edits ⟨o, r⟩) (hallow : (protocol C).allow (q i) o)
    (hE : hostEnv w o r w') (hstale : NoStale (tr ++ [(i, ⟨o, r⟩)]))
    (hload : ∃ j path s, (j, (⟨.nft .apply path, s⟩ : Event HostSig)) ∈ tr ++ [(i, ⟨o, r⟩)] ∧ s.Succeeded) :
    ∃ text, w'.kernel = some text ∧ IsCurrent C config w' text := by
  have hkeep : w'.kernel = w.kernel →
      (∃ j path s, (j, (⟨.nft .apply path, s⟩ : Event HostSig)) ∈ tr ∧ s.Succeeded) →
      ∃ text, w'.kernel = some text ∧ IsCurrent C config w' text := by
    intro hk hl
    obtain ⟨text, hkernel, htext⟩ := h.kernel hl
    exact ⟨text, hk.trans hkernel, htext.step hno hallow hE⟩
  have hold : (∀ path, o ≠ .nft .apply path) →
      ∃ j path s, (j, (⟨.nft .apply path, s⟩ : Event HostSig)) ∈ tr ∧ s.Succeeded := by
    intro ho
    obtain ⟨j, path, s, hmem, hs⟩ := hload
    rcases List.mem_append.1 hmem with hmem | hmem
    · exact ⟨j, path, s, hmem, hs⟩
    · cases List.mem_singleton.1 hmem
      exact absurd rfl (ho path)
  cases o with
  | store o => obtain ⟨db', -, rfl⟩ := hE; exact hkeep rfl (hold (by simp))
  | atomicWrite path text => rcases hE with ⟨-, rfl⟩ | ⟨e, -, rfl⟩ <;> exact hkeep rfl (hold (by simp))
  | ip command =>
    cases command with
    | «show» interface => rw [hE.1]; exact hE.1 ▸ hkeep (by rw [hE.1]) (hold (by simp))
    | add interface a => rcases hE.either with rfl | ⟨-, rfl⟩ <;> exact hkeep rfl (hold (by simp))
    | del interface a => rcases hE.either with rfl | ⟨-, rfl⟩ <;> exact hkeep rfl (hold (by simp))
  | connect ip port => exact hkeep (by rw [show w' = w from hE]) (hold (by simp))
  | nft mode path =>
    cases mode with
    | check => exact hkeep (by rw [hE.1]) (hold (by simp))
    | apply =>
      -- the file was written after the last change, whoever wrote it
      obtain ⟨rfl, hstage, -⟩ := hallow
      have hlast := h.wrote i (hstale.last trivial) (.inr hstage)
      obtain ⟨text, hfile, htext⟩ := h.file _ hlast
      have hloaded : ∃ text, (w.load (q i).path).kernel = some text ∧
          IsCurrent C config (w.load (q i).path) text := ⟨text, hfile, htext⟩
      by_cases hs : Outcome.Succeeded r
      · rw [(hE.succeeded hs).2]; exact hloaded
      · rcases hE.either with rfl | ⟨-, rfl⟩
        · obtain ⟨j, path, s, hmem, hs'⟩ := hload
          rcases List.mem_append.1 hmem with hmem | hmem
          · exact h.kernel ⟨j, path, s, hmem, hs'⟩
          · cases List.mem_singleton.1 hmem
            exact absurd hs' hs
        · exact hloaded

/-- **One operation after the last change** keeps what was written and loaded since current. -/
theorem current_step (h : Current C config q tr w) (hlists : ∀ i, (q i).config ≠ none → (q i).config = some config)
    (hno : ¬ Edits ⟨o, r⟩) (hallow : (protocol C).allow (q i) o) (hE : hostEnv w o r w')
    (hstale : NoStale (tr ++ [(i, ⟨o, r⟩)])) :
    Current C config (Function.update q i ((protocol C).next (q i) ⟨o, r⟩)) (tr ++ [(i, ⟨o, r⟩)]) w' := by
  have hsame := next_sameCall (C := C) (q := q i) ⟨o, r⟩
  -- a call that did not move has listed if it had before
  have hother : ∀ j, j ≠ i → HasListed j (tr ++ [(i, ⟨o, r⟩)]) → HasListed j tr := fun j hj hl =>
    (hasListed_snoc.1 hl).resolve_right fun h => hj h.1
  refine ⟨fun j hl => ?_, fun j hl text ht => ?_, fun j hl hs => ?_, fun path => current_file h hno hallow hE hstale,
    current_kernel h hno hallow hE hstale⟩
  · by_cases hj : j = i
    · subst hj
      rw [Function.update_self, hsame.config]
      exact (current_ruleset h (hlists j) hno hallow hE hl).1
    · rw [Function.update_of_ne hj]
      exact h.lister j (hother j hj hl)
  · by_cases hj : j = i
    · subst hj
      rw [Function.update_self] at ht
      exact (current_ruleset h (hlists j) hno hallow hE hl).2 text ht
    · rw [Function.update_of_ne hj] at ht
      exact (h.ruleset j (hother j hj hl) text ht).step hno hallow hE
  · by_cases hj : j = i
    · subst hj
      rw [Function.update_self] at hs ⊢
      rw [hsame.path]
      exact current_wrote h hallow hl hs
    · rw [Function.update_of_ne hj] at hs ⊢
      exact lastWrite_mono _ (h.wrote j (hother j hj hl) hs)

end Step

/-! ## Interleaved calls -/

theorem HostCall.Applies.start_config {call : HostCall} (h : call.Applies config) (hc : call.start.config ≠ none) :
    call.start.config = some config := by
  cases call with
  | store call => exact absurd rfl hc
  | reconcile config' options => rw [← h.1]; rfl
  | rollback generationId path => exact absurd h id
  | apiDelete config' id => rw [← (show config' = config from h)]; rfl

/-- After the last change, what is written and loaded is current. -/
theorem current_of_reach (hcalls : ∀ i, (calls i).Applies config)
    (hr : Reach hostEnv (fun i => (calls i).prog C) w₀ (pre ++ suf) pool w)
    (hno : ∀ x ∈ suf, ¬ Edits x.2) (hstale : NoStale suf) :
    Current C config (fun i => (protocol C).after ((protocol C).after (calls i).start (own i pre))
      (own i suf)) suf w := by
  obtain ⟨pool₁, w₁, hpre, hsuf⟩ := hr.split
  have hwp := wp_reach (fun i => (calls i).start) (calls_follow calls) hpre
  refine reach_inv _ hwp (fun tr w => (∀ x ∈ tr, ¬ Edits x.2) → NoStale tr → Current C config
    (fun i => (protocol C).after ((protocol C).after (calls i).start (own i pre))
      (own i tr)) tr w) ?_ ?_ hsuf hno hstale
  · refine fun _ _ => ⟨?_, ?_, ?_, fun path h => absurd rfl h, ?_⟩
    · rintro i ⟨e, he, -⟩; cases he
    · rintro i ⟨e, he, -⟩; cases he
    · rintro i ⟨e, he, -⟩; cases he
    · rintro ⟨i, path, r, hmem, -⟩; cases hmem
  · intro tr w i o r w' ih hallow hE hno hstale
    rw [(protocol C).after_own_snoc]
    refine current_step (ih (fun x hx => hno x (List.mem_append_left _ hx)) hstale.of_snoc) (fun j => ?_)
      (hno (i, ⟨o, r⟩) (by simp)) hallow hE hstale
    have hsame := (after_sameCall (C := C) (calls j).start (own j pre)).trans
      (after_sameCall (C := C) _ (own j tr))
    rw [hsame.config]
    exact (hcalls j).start_config

/-- **No change is lost where no stale ruleset follows it.** In every interleaving of operations on mappings and
of calls that reconcile in full, where after the last change of the mappings nobody writes or loads a ruleset that
was listed before it, and a reconcile that started after it has returned, the kernel has the ruleset of the
mappings that are stored. -/
theorem latest_ruleset_loaded {options : ReconcileOptions} (hcalls : ∀ i, (calls i).Applies config)
    (hr : Reach hostEnv (fun i => (calls i).prog C) w₀ (pre ++ suf) pool w)
    (hno : ∀ x ∈ suf, ¬ Edits x.2) (hstale : NoStale suf) (hcall : calls j = .reconcile config options)
    (hstarted : own j pre = []) (hdone : pool j = .ret ()) :
    ∃ text, w.kernel = some text ∧ rendering C config w.db.listed = some text := by
  have hcurrent := current_of_reach hcalls hr hno hstale
  refine hcurrent.kernel ?_
  -- the call that returned has loaded its ruleset, and all it did it did after the change
  have hwp := wp_reach (fun i => (calls i).start) (calls_follow calls) hr j
  have hfull : options.Full := by
    have h := hcalls j
    rw [hcall] at h
    exact h.2
  have hstage : ((protocol C).after (calls j).start (own j suf)).stage = .loaded := by
    rw [hdone, Prog.wp_ret, own_append, hstarted, List.nil_append] at hwp
    have h := hwp () rfl
    rw [hcall] at h ⊢
    simpa [ReconcileOptions.lastStage, hfull.applyNft] using h hfull.dryRun
  have haccepts := accepts_of_reach hr j
  rw [own_append, hstarted, List.nil_append] at haccepts
  have hhist := history_of_accepts haccepts (start_idle (calls j)).1
  unfold History at hhist
  rw [hstage] at hhist
  obtain ⟨x, r, y, hs, hown, -⟩ := hhist
  have hmem := List.mem_append_right x (List.mem_cons_self (l := y)
    (a := (⟨.nft .apply ((protocol C).after (calls j).start (own j suf)).path, r⟩ : Event HostSig)))
  rw [← hown] at hmem
  exact ⟨j, _, r, mem_own.1 hmem, hs⟩

/-! ## A stale reconcile -/

/-- A database with a config and no mappings, on a host where nothing was done yet. -/
def emptyHost : World := { sampleWorld with db := sampleDb }

/-- Two reconciles, and a client that adds a service. -/
def staleCalls : ℕ → HostCall
  | 1 => .store (.insert samplePortForward)
  | _ => .reconcile sampleConfig {}

theorem stale_init : Reach hostEnv (fun i => (staleCalls i).prog sampleCodec) emptyHost []
    (fun i => (staleCalls i).prog sampleCodec) emptyHost := .init

/-- The client has added its service. -/
def staleHost : World :=
  (((staleCalls 1).prog sampleCodec).eval (answer fun _ => true) emptyHost).2.1

theorem listed_staleHost : sampleListing staleHost.db = some [samplePortForward] := by
  decide +kernel

theorem staleHost_run : ∃ tr, ((staleCalls 1).prog sampleCodec).Run hostEnv emptyHost tr staleHost (.ok ()) := by
  have hok : (((staleCalls 1).prog sampleCodec).eval (answer fun _ => true) emptyHost).2.2 = .ok () := by
    decide +kernel
  have hrun := eval_run (answer_env fun _ => true) ((staleCalls 1).prog sampleCodec) emptyHost
  rw [hok] at hrun
  exact ⟨_, hrun⟩

theorem plain_staleHost : Plain (staleHost.addrs sampleConfig.wanInterface) [samplePortForward] := by
  obtain ⟨tr, hrun⟩ := staleHost_run
  have hnoIp : NoIp ((staleCalls 1).prog sampleCodec) := noIp_liftStore
  have haddrs : staleHost.addrs = emptyHost.addrs := (hnoIp.run hrun).1
  rw [haddrs]
  exact fun _ _ _ h => nomatch h

theorem staleCalls_applies (i : ℕ) : (staleCalls i).Applies sampleConfig := by
  unfold staleCalls
  split
  · trivial
  · exact ⟨rfl, rfl, rfl, rfl⟩

/-- **A reconcile that listed before the last change loads after it.** The first reconcile lists no mapping; the
client adds its service; the second reconcile applies it and returns; then the first loads what it listed. -/
theorem stale_ruleset_loaded : ∃ (calls : ℕ → HostCall) (w₀ w : World) (pre suf : List (ℕ × Event HostSig))
    (pool : ℕ → HostProg Unit) (options : ReconcileOptions) (j : ℕ),
    (∀ i, (calls i).Applies sampleConfig) ∧
      Reach hostEnv (fun i => (calls i).prog sampleCodec) w₀ (pre ++ suf) pool w ∧
      (∀ x ∈ pre ++ suf, CommandOk x.2) ∧ (∀ x ∈ suf, ¬ Edits x.2) ∧
      (∀ i, pool i = .ret () ∨ own i (pre ++ suf) = []) ∧
      calls j = .reconcile sampleConfig options ∧ own j pre = [] ∧ pool j = .ret () ∧
      ¬ ∃ text, w.kernel = some text ∧ rendering sampleCodec sampleConfig w.db.listed = some text := by
  obtain ⟨a, b, ha, hb, hab⟩ := rendered_differ
  obtain ⟨plan, hp, hempty⟩ : ∃ plan, planReconcile sampleConfig {} [] = .ok plan ∧ plan.2.entries = [] :=
    planReconcile_ok {} (by decide) (by simp) rfl
  -- the first reconcile lists, and the client adds its service
  have hd : decodeRows sampleCodec emptyHost.db.listed = .ok [] := rfl
  obtain ⟨tr₁, w₁, ms₁, hlist, rfl, rfl⟩ := listMappings_can hd
  have hr₁ := stale_init.run (i := 0) (Prog.bind_assoc _ _ _) hlist
  obtain ⟨tr₂, hins⟩ := staleHost_run
  have hr₂ := hr₁.run (i := 1) (Prog.bind_ret_right _).symm hins
  -- the second reconcile applies the service
  obtain ⟨text, htext, tr₃, w₃, report, hrec, hdone₃⟩ := sample_can {} listed_staleHost rfl rfl fun _ => plain_staleHost
  have hr₃ := hr₂.run (i := 2) (f := fun _ => .ret ()) rfl hrec
  -- the first goes on with the mappings it has listed
  obtain ⟨hd₂, -⟩ := sampleListing_some listed_staleHost
  obtain ⟨ms₃, hd₃, -⟩ := listed_refreshed hdone₃.mappings hd₂
  have hcan : (applyReconcile sampleCodec sampleConfig {} [] plan.1 plan.2).Can hostEnv w₃ fun w' _ =>
      Reconciled sampleCodec sampleConfig {} [] plan.1 w₃ w' :=
    applyReconcile_can sampleClock (trim_rendered (rendering_of_plan hd hp).1) (decodes_of_listed hd₃) (by simp)
      fun _ _ h => nomatch h
  obtain ⟨tr₄, w₄, report', happly, hdone₄⟩ := hcan
  have hr₄ := hr₃.run (i := 0) (f := fun _ => .ret ()) (by
    rw [Function.update_of_ne (by decide), Function.update_of_ne (by decide), Function.update_self]
    simp only [hp, Prog.ofExcept, Prog.bind_eq, Prog.bind_ret_left, hempty]
    rfl) happly
  rw [List.append_assoc] at hr₄
  have hcurrent : rendering sampleCodec sampleConfig w₄.db.listed = some b :=
    rendering_refreshed (hdone₃.mappings.trans hdone₄.mappings) (rendering_some.2 ⟨_, hd₂, hb⟩)
  refine ⟨staleCalls, emptyHost, w₄, _, _, _, {}, 2, staleCalls_applies, hr₄, ?_, ?_, ?_, rfl, ?_, ?_, ?_⟩
  · have hok₁ := allOk_liftStore _ _ _ _ hlist
    have hins' : AllOk ((staleCalls 1).prog sampleCodec) := allOk_liftStore
    have hok₂ := hins' _ _ _ _ hins
    have hok₃ := allOk_reconcile _ _ _ _ hrec
    have hok₄ := allOk_applyReconcile _ _ _ _ happly
    simp only [List.nil_append, List.forall_mem_append, List.forall_mem_map]
    exact ⟨⟨hok₁, hok₂⟩, hok₃, hok₄⟩
  · simp only [List.forall_mem_append, List.forall_mem_map]
    refine ⟨not_edits_of_accepts (C := sampleCodec) (q := (HostCall.reconcile sampleConfig {}).start) rfl ?_,
      not_edits_of_accepts (C := sampleCodec)
        (q := { (HostCall.reconcile sampleConfig {}).start with ruleset := some plan.1 }) rfl ?_⟩
    · exact (Prog.wp_run (Prog.wpOk_iff.1 (reconcile_follows ⟨rfl, rfl, rfl, rfl⟩ rfl)) hrec).2
    · exact (Prog.wp_run (Prog.wpOk_iff.1 (applyReconcile_follows ⟨rfl, rfl, rfl, rfl⟩ rfl rfl)) happly).2
  · intro i
    by_cases h0 : i = 0
    · subst h0; exact .inl (Function.update_self ..)
    by_cases h2 : i = 2
    · subst h2; left; rw [Function.update_of_ne h0, Function.update_self]
    by_cases h1 : i = 1
    · subst h1; left; rw [Function.update_of_ne h0, Function.update_of_ne h2, Function.update_self]
    · right
      simp only [List.nil_append, own_append, own_tagged, if_neg (Ne.symm h0), if_neg (Ne.symm h1),
        if_neg (Ne.symm h2), List.append_nil]
  · simp only [List.nil_append, own_append, own_tagged]
    rfl
  · rw [Function.update_of_ne (by decide), Function.update_self]
  · rintro ⟨text', hk, hren⟩
    cases hcurrent.symm.trans hren
    have hk' : w₄.kernel = some plan.1 := hdone₄.kernel
    cases (rendering_of_plan hd hp).1.symm.trans ha
    exact hab (Option.some.inj (hk'.symm.trans hk))

/-- A reconcile that returns lists first. -/
theorem reconcile_lists {options : ReconcileOptions} {report : ReconcileReport} {tr : List (Event HostSig)}
    (h : (reconcile C config options).Run hostEnv w tr w' (.ok report)) :
    ∃ rows tr', tr = ⟨.store (.sql .selectMappings), .ok rows⟩ :: tr' := by
  obtain ⟨ms, w₁, tr₁, tr₂, rfl, hlist, -⟩ := Prog.run_bind_ok.1 h
  obtain ⟨r, w₂, tr₃, rfl, -, hrest⟩ := Prog.run_call.1 hlist
  cases r with
  | error e => exact nomatch (Prog.run_fail.1 hrest).2.2
  | ok rows => exact ⟨rows, _, rfl⟩

/-- A call alone that lists first writes and loads nothing stale. -/
theorem noStale_of_listing {rows : List Row} {tr : List (Event HostSig)} :
    NoStale ((⟨.store (.sql .selectMappings), .ok rows⟩ :: tr : List (Event HostSig)).map fun e => (i, e)) := by
  intro a j e b htr he
  cases a with
  | nil => cases htr; exact absurd he id
  | cons x a =>
    obtain ⟨hx, htl⟩ := List.cons.inj htr
    have hmem : (j, e) ∈ tr.map fun e => (i, e) := by rw [htl]; simp
    obtain ⟨e', -, he'⟩ := List.mem_map.1 hmem
    cases he'
    subst hx
    exact ⟨_, List.mem_cons_self, trivial⟩

/-- The same calls one after the other: the kernel has the ruleset of the new service. -/
theorem latest_ruleset_loaded_in_turn : ∃ (w : World) (tr : List (ℕ × Event HostSig)) (pool : ℕ → HostProg Unit)
    (text : String), Reach hostEnv (fun i => (staleCalls i).prog sampleCodec) emptyHost tr pool w ∧
      pool 0 = .ret () ∧ pool 1 = .ret () ∧
      w.kernel = some text ∧ rendering sampleCodec sampleConfig w.db.listed = some text := by
  obtain ⟨tr₁, hins⟩ := staleHost_run
  have hr₁ := stale_init.run (i := 1) (Prog.bind_ret_right _).symm hins
  obtain ⟨-, -, tr₂, w, report, hrec, -⟩ := sample_can {} listed_staleHost rfl rfl fun _ => plain_staleHost
  obtain ⟨rows, tr', rfl⟩ := reconcile_lists hrec
  have hr₂ := hr₁.run (i := 0) (f := fun _ => .ret ()) rfl hrec
  obtain ⟨text, hkernel, htext⟩ := latest_ruleset_loaded (j := 0) staleCalls_applies hr₂ (by
    rw [List.forall_mem_map]
    exact not_edits_of_accepts (C := sampleCodec) (q := (HostCall.reconcile sampleConfig {}).start) rfl
      (Prog.wp_run (Prog.wpOk_iff.1 (reconcile_follows ⟨rfl, rfl, rfl, rfl⟩ rfl)) hrec).2) noStale_of_listing
    (show staleCalls 0 = .reconcile sampleConfig {} from rfl)
    (by rw [List.nil_append, own_tagged]; rfl) (Function.update_self ..)
  exact ⟨w, _, _, text, hr₂, Function.update_self .., by
    rw [Function.update_of_ne (by decide), Function.update_self], hkernel, htext⟩

end EdgeRoute
