import EdgeRoute.Lib.Trail
import EdgeRoute.Spec.Disk
import EdgeRoute.Spec.Reconcile

/-!
# A write is whole or not there

Any number of calls of `atomic_write` run at once, on the same paths or not, and each of their system calls may fail.

* `survivors`: the contents of a path since its directory was last synced, the newest first.
* `DiskInv`: the file of an unfinished call leads from no name but its own temporary one, and each content that a path
  may have is that of a safe file.
* `atomic_write_crash_safe`: **what a crash leaves under a path is whole**: the content at the last sync of the
  directory, or that of a call which renamed since; or nothing, with a directory that was made and is not safe.
* `atomic_write_refines`: **the calls are the atomic writes of the host's environment**, each at its rename and each
  target under one text.
-/

namespace EdgeRoute

open Effect FileSystem

namespace Disk

/-! ## Paths -/

theorem length_parent {path dir : Path} (h : parent path = some dir) : path.length = dir.length + 1 := by
  unfold parent at h
  split at h
  case h_4 => cases h
  all_goals
    rename_i hlast
    obtain ⟨init, rfl⟩ := List.getLast?_eq_some_iff.1 hlast
    cases h
    simp

/-- The directories on the way to a path, by the nearest of them. -/
theorem ancestors_eq (path : Path) : ancestors path = match parent path with
    | some dir => dir :: ancestors dir
    | none => [] := by
  cases hparent : parent path with
  | none => cases hlength : path.length <;> simp [ancestors, parents, hlength, hparent]
  | some dir => simp [ancestors, parents, length_parent hparent, hparent]

theorem head?_ancestors (path : Path) : (ancestors path).head? = parent path := by
  rw [ancestors_eq]
  cases parent path <;> rfl

theorem fileName_append {path : Path} {name : List Char} : fileName (path ++ [.normal name]) = some name := by
  simp [fileName]

/-- The temporary name ends in the digits. -/
theorem fileName_tmp {call : Write} (h : fileName call.target ≠ none) :
    ∃ stem, fileName call.tmp = some (stem ++ call.unique.digits) := by
  unfold Write.tmp withExtension
  split
  · rename_i hnone
    exact absurd hnone h
  · rename_i name _
    refine ⟨fileStem name ++ '.' :: "tmp-".toList, ?_⟩
    rw [fileName_append]
    simp

/-- A path without a file name is its own temporary name, and no file can have it. -/
theorem named_of_tmp {call : Write} (h : fileName call.tmp ≠ none) : fileName call.target ≠ none := by
  intro hnone
  rw [Write.tmp, withExtension, hnone] at h
  exact h hnone

/-- Calls that draw different digits have different temporary names. -/
theorem unique_of_tmp {call call' : Write} (h : fileName call.target ≠ none) (htmp : call.tmp = call'.tmp) :
    call.unique = call'.unique := by
  obtain ⟨stem, hname⟩ := fileName_tmp h
  have h' : fileName call'.target ≠ none := named_of_tmp (by rw [← htmp, hname]; exact Option.some_ne_none _)
  obtain ⟨stem', hname'⟩ := fileName_tmp h'
  rw [htmp, hname', Option.some.injEq] at hname
  have hdigits := (List.append_inj' hname (by rw [call.unique.length_eq, call'.unique.length_eq])).2
  cases hu : call.unique with
  | mk digits hlength =>
    cases hu' : call'.unique with
    | mk digits' hlength' =>
      rw [hu, hu'] at hdigits
      simpa using hdigits.symm

/-! ## The steps of a call -/

/-- How far a call is, with the file that it opened. -/
inductive Stage where
  | idle
  | opened (file : ℕ)
  | written (file : ℕ)
  | synced (file : ℕ)
  | renamed
  | failed (message : String)

/-- The file of a call that is not finished. -/
def Stage.file : Stage → Option ℕ
  | .opened file | .written file | .synced file => some file
  | _ => none

/-- What a system call does to the stage. -/
def Stage.next : Stage → Event DiskSig → Stage
  | _, ⟨.openTruncate _, .ok file⟩ => .opened file
  | _, ⟨.writeAll file _, .ok ()⟩ => .written file
  | _, ⟨.syncAll file, .ok ()⟩ => .synced file
  | _, ⟨.rename _ _, .ok ()⟩ => .renamed
  | _, ⟨.createDirAll _, .error message⟩ => .failed message
  | _, ⟨.openTruncate _, .error message⟩ => .failed message
  | _, ⟨.writeAll _ _, .error message⟩ => .failed message
  | _, ⟨.syncAll _, .error message⟩ => .failed message
  | _, ⟨.rename _ _, .error message⟩ => .failed message
  | stage, _ => stage

/-- The system calls that a call makes at its stages. -/
def Stage.Allows (call : Write) : Stage → DiskSig.Op → Prop
  | stage, .createDirAll _ => stage = .idle
  | stage, .openTruncate path => stage = .idle ∧ path = call.tmp
  | stage, .writeAll file bytes => stage = .opened file ∧ bytes = call.bytes
  | stage, .syncAll file => stage = .written file
  | stage, .rename src dst => (∃ file, stage = .synced file) ∧ src = call.tmp ∧ dst = call.target
  | stage, .syncDir _ => stage = .renamed

/-- Watch one call, if there is one. -/
def watch : Monitor DiskSig (Option Write × Stage) where
  allow q o := ∃ call, q.1 = some call ∧ q.2.Allows call o
  next q e := (q.1, q.2.next e)

/-- A thread that makes one call, or none. -/
def thread : Option Write → Prog DiskSig String (Except String Unit)
  | some call => (atomicWrite call).attempt
  | none => .ret (.ok ())

/-- A finished call renamed its file, or says what failed. -/
def Ends (q : Option Write × Stage) (x : Except String (Except String Unit)) : Prop :=
  x = .ok (.ok ()) ∧ (q = (none, .idle) ∨ q.2 = .renamed) ∨ ∃ message, x = .ok (.error message) ∧ q.2 = .failed message

/-- A system call whose failure ends the call. -/
theorem wp_step {o : DiskSig.Op} {k : DiskSig.Reply o → Prog DiskSig String Unit} {call : Write} {stage : Stage}
    (hallow : stage.Allows call o)
    (h : ∀ r, (k r).wp watch (fun q x => Ends q (.ok x)) (some call, stage.next ⟨o, r⟩)) :
    (Prog.call o k).wp watch (fun q x => Ends q (.ok x)) (some call, stage) :=
  Prog.wp_call.2 ⟨⟨call, rfl, hallow⟩, h⟩

/-- What a call does once its directory is there. -/
theorem rest_watched (call : Write) :
    ((require (.op (S := DiskSig) (.openTruncate call.tmp))).bind fun file =>
      (require (.op (S := DiskSig) (.writeAll file call.bytes))).bind fun _ =>
      (require (.op (S := DiskSig) (.syncAll file))).bind fun _ =>
      (require (.op (S := DiskSig) (.rename call.tmp call.target))).bind fun _ =>
      withParent call.target fun dir => (Prog.op (S := DiskSig) (.syncDir dir)).bind fun _ => .ret ()).wp watch
        (fun q x => Ends q (.ok x)) (some call, .idle) := by
  refine wp_step ⟨rfl, rfl⟩ ?_
  rintro (message | file)
  · exact Prog.wp_fail.2 (.inr ⟨message, rfl, rfl⟩)
  refine wp_step ⟨rfl, rfl⟩ ?_
  rintro (message | ⟨⟩)
  · exact Prog.wp_fail.2 (.inr ⟨message, rfl, rfl⟩)
  refine wp_step rfl ?_
  rintro (message | ⟨⟩)
  · exact Prog.wp_fail.2 (.inr ⟨message, rfl, rfl⟩)
  refine wp_step ⟨⟨file, rfl⟩, rfl, rfl⟩ ?_
  rintro (message | ⟨⟩)
  · exact Prog.wp_fail.2 (.inr ⟨message, rfl, rfl⟩)
  -- the call can only succeed now
  change (withParent call.target _).wp watch _ (some call, .renamed)
  unfold withParent
  split
  · refine wp_step rfl ?_
    rintro (message | ⟨⟩) <;> exact Prog.wp_ret.2 (.inl ⟨rfl, .inr rfl⟩)
  · exact Prog.wp_ret.2 (.inl ⟨rfl, .inr rfl⟩)

theorem thread_watched (call : Option Write) : (thread call).wp watch Ends (call, .idle) := by
  cases call with
  | none => exact Prog.wp_ret.2 (.inl ⟨rfl, .inl rfl⟩)
  | some call =>
    unfold thread
    rw [Prog.wp_attempt]
    have hdir : ∀ rest : Prog DiskSig String Unit,
        rest.wp watch (fun q x => Ends q (.ok x)) (some call, .idle) →
        ((withParent call.target fun dir => require (.op (S := DiskSig) (.createDirAll dir))).bind fun _ => rest).wp
          watch (fun q x => Ends q (.ok x)) (some call, .idle) := by
      intro rest hrest
      unfold withParent
      split
      · refine wp_step rfl ?_
        rintro (message | ⟨⟩)
        · exact Prog.wp_fail.2 (.inr ⟨message, rfl, rfl⟩)
        · exact hrest
      · exact hrest
    exact hdir _ (rest_watched call)

/-! ## The invariant -/

/-- A name of a temporary file. -/
def Temporary (calls : ℕ → Option Write) (path : Path) : Prop :=
  ∃ i call, calls i = some call ∧ fileName call.target ≠ none ∧ path = call.tmp

/-- Calls that run at once: each draws its own digits, and no target has a temporary name. -/
structure Apart (calls : ℕ → Option Write) : Prop where
  unique : ∀ i j call call', calls i = some call → calls j = some call' → call.unique = call'.unique → i = j
  target : ∀ i call, calls i = some call → ¬ Temporary calls call.target

/-- What an event does to the contents of the paths, the newest first. -/
def survive (calls : ℕ → Option Write) (contents : Path → List (Option Bytes)) :
    ℕ × Event DiskSig → Path → List (Option Bytes)
  | (i, ⟨.rename _ dst, .ok ()⟩) => Function.update contents dst ((calls i).map Write.bytes :: contents dst)
  | (_, ⟨.syncDir dir, .ok ()⟩) => fun path =>
    if parent path = some dir then (contents path).take 1 else contents path
  | _ => contents

/-- The contents of a path since its directory was last synced, the newest first. -/
def survivors (calls : ℕ → Option Write) (s₀ : State Path) (tr : List (ℕ × Event DiskSig)) :
    Path → List (Option Bytes) := tr.foldl (survive calls) fun path => [s₀.read path]

/-- What is in the file of a call at its stage. -/
def Stage.Content (call : Write) (s : State Path) : Stage → Prop
  | .opened file => s.data file = []
  | .written file => s.data file = call.bytes
  | .synced file => s.data file = call.bytes ∧ s.clean file
  | _ => True

/-- **The invariant.** The file of an unfinished call leads from its temporary name alone; what other names may lead to
is safe. A call on a path without a file name never opens a file. -/
structure DiskInv (calls : ℕ → Option Write) (stages : ℕ → Stage) (contents : Path → List (Option Bytes))
    (s : State Path) : Prop where
  idle : ∀ i call, calls i = some call → stages i = .idle → s.names call.tmp = none
  hasName : ∀ i call file, calls i = some call → (stages i).file = some file → fileName call.target ≠ none
  held : ∀ i call file, calls i = some call → (stages i).file = some file →
    s.names call.tmp = some file ∧ ∀ path, some file ∈ s.recent path → path = call.tmp
  content : ∀ i call, calls i = some call → (stages i).Content call s
  newest : ∀ path, (s.recent path).head? = some (s.names path)
  below : ∀ path file, some file ∈ s.recent path → file < s.next
  kept : ∀ path, ¬ Temporary calls path → (s.recent path).map (Option.map s.data) = contents path
  clean : ∀ path file, ¬ Temporary calls path → some file ∈ s.recent path → s.clean file

theorem Stage.content_congr {call : Write} {s s' : State Path} {stage : Stage}
    (hdata : ∀ file, stage.file = some file → s'.data file = s.data file)
    (hclean : ∀ file, stage.file = some file → s.clean file → s'.clean file) (h : stage.Content call s) :
    stage.Content call s' := by
  cases stage with
  | opened file => exact (hdata file rfl).trans h
  | written file => exact (hdata file rfl).trans h
  | synced file => exact ⟨(hdata file rfl).trans h.1, hclean file rfl h.2⟩
  | idle | renamed | failed => trivial

section Steps

variable {calls : ℕ → Option Write} {stages : ℕ → Stage} {contents : Path → List (Option Bytes)} {s s' : State Path}
  {i : ℕ} {call : Write} {stage : Stage} {file : ℕ}

theorem Apart.tmp_inj (h : Apart calls) {j : ℕ} {call' : Write} (hi : calls i = some call)
    (hj : calls j = some call') (hnamed : fileName call.target ≠ none) (htmp : call.tmp = call'.tmp) : i = j :=
  h.unique i j call call' hi hj (unique_of_tmp hnamed htmp)

/-- The target of a call with a file name is no other call's temporary name. -/
theorem Apart.tmp_ne_target (h : Apart calls) {j : ℕ} {call' : Write} (hi : calls i = some call)
    (hj : calls j = some call') (hnamed : fileName call.target ≠ none) : call'.tmp ≠ call.target := fun htmp =>
  h.target i call hi ⟨j, call', hj, named_of_tmp (by rwa [htmp]), htmp.symm⟩

namespace DiskInv

theorem named (h : DiskInv calls stages contents s) (path : Path) : s.names path ∈ s.recent path :=
  List.mem_of_mem_head? (h.newest path)

/-- The files of two unfinished calls are two. -/
theorem file_ne (h : DiskInv calls stages contents s) (hapart : Apart calls) {j : ℕ} {call' : Write} {file' : ℕ}
    (hij : j ≠ i) (hi : calls i = some call) (hj : calls j = some call') (hfile : (stages i).file = some file)
    (hfile' : (stages j).file = some file') : file' ≠ file := by
  rintro rfl
  have hmem : some file' ∈ s.recent call'.tmp := (h.held j call' file' hj hfile').1 ▸ h.named _
  exact hij (hapart.tmp_inj hj hi (h.hasName j call' file' hj hfile') ((h.held i call file' hi hfile).2 _ hmem))

/-- No other path may lead to the file of an unfinished call. -/
theorem not_mem_recent (h : DiskInv calls stages contents s) (hi : calls i = some call)
    (hfile : (stages i).file = some file) {path : Path} (hpath : ¬ Temporary calls path) :
    some file ∉ s.recent path := fun hmem =>
  hpath ⟨i, call, hi, h.hasName i call file hi hfile, (h.held i call file hi hfile).2 path hmem⟩

theorem init {s₀ : State Path} (hsettled : Settled s₀)
    (htmp : ∀ i call, calls i = some call → s₀.names call.tmp = none) :
    DiskInv calls (fun _ => .idle) (fun path => [s₀.read path]) s₀ where
  idle i call hi _ := htmp i call hi
  hasName _ _ _ _ hfile := nomatch hfile
  held _ _ _ _ hfile := nomatch hfile
  content _ _ _ := trivial
  newest path := by rw [hsettled.recent]; rfl
  below path file hmem := by
    rw [hsettled.recent, List.mem_singleton] at hmem
    exact hsettled.below path file hmem.symm
  kept path _ := by rw [hsettled.recent]; rfl
  clean path file _ hmem := by
    rw [hsettled.recent, List.mem_singleton] at hmem
    exact hsettled.clean path file hmem.symm

/-- A step of one call that leaves the names as they are, and the files of the others. -/
theorem step_file (h : DiskInv calls stages contents s) (hnames : s'.names = s.names)
    (hrecent : s'.recent = s.recent) (hnext : s'.next = s.next)
    (hdata : ∀ file, (stages i).file ≠ some file → s'.data file = s.data file)
    (hclean : ∀ file, (stages i).file ≠ some file → s.clean file → s'.clean file) (hapart : Apart calls)
    (hi : calls i = some call) (hidle : stage = .idle → stages i = .idle)
    (hfile : ∀ file, stage.file = some file → (stages i).file = some file) (hcontent : stage.Content call s') :
    DiskInv calls (Function.update stages i stage) contents s' where
  idle j call' hj hstage := by
    rw [hnames]
    by_cases hij : j = i
    · subst hij
      rw [Function.update_self] at hstage
      exact h.idle j call' hj (hidle hstage)
    · rw [Function.update_of_ne hij] at hstage
      exact h.idle j call' hj hstage
  hasName j call' file hj hstage := by
    by_cases hij : j = i
    · subst hij
      rw [Function.update_self] at hstage
      exact h.hasName j call' file hj (hfile file hstage)
    · rw [Function.update_of_ne hij] at hstage
      exact h.hasName j call' file hj hstage
  held j call' file hj hstage := by
    rw [hnames, hrecent]
    by_cases hij : j = i
    · subst hij
      rw [Function.update_self] at hstage
      exact h.held j call' file hj (hfile file hstage)
    · rw [Function.update_of_ne hij] at hstage
      exact h.held j call' file hj hstage
  content j call' hj := by
    by_cases hij : j = i
    · subst hij
      rw [Function.update_self]
      cases hi.symm.trans hj
      exact hcontent
    · rw [Function.update_of_ne hij]
      have hne : ∀ file, (stages j).file = some file → (stages i).file ≠ some file := fun file hj' hi' =>
        h.file_ne hapart hij hi hj hi' hj' rfl
      exact Stage.content_congr (fun file hf => hdata file (hne file hf)) (fun file hf => hclean file (hne file hf))
        (h.content j call' hj)
  newest path := by rw [hrecent, hnames]; exact h.newest path
  below path file hmem := by rw [hnext]; exact h.below path file (hrecent ▸ hmem)
  kept path hpath := by
    rw [hrecent, ← h.kept path hpath]
    refine List.map_congr_left fun f hf => ?_
    cases f with
    | none => rfl
    | some file => exact congrArg some (hdata file fun hfile => h.not_mem_recent hi hfile hpath hf)
  clean path file hpath hmem := by
    rw [hrecent] at hmem
    exact hclean file (fun hfile => h.not_mem_recent hi hfile hpath hmem) (h.clean path file hpath hmem)

/-- The temporary file is made. -/
theorem step_create (h : DiskInv calls stages contents s) (hapart : Apart calls) (hi : calls i = some call)
    (hnamed : fileName call.target ≠ none) :
    DiskInv calls (Function.update stages i (.opened s.next)) contents (s.create call.tmp) := by
  have hold : ∀ {path file}, some file ∈ s.recent path → file ≠ s.next := fun hmem =>
    Nat.ne_of_lt (h.below _ _ hmem)
  -- the files of the other calls are older
  have hother : ∀ {j call' file}, calls j = some call' → (stages j).file = some file → file ≠ s.next :=
    fun {j call' file} hj hf => hold ((h.held j call' file hj hf).1 ▸ h.named call'.tmp)
  have htmp : ∀ {j call'}, j ≠ i → calls j = some call' → call'.tmp ≠ call.tmp := fun hij hj heq =>
    hij (hapart.tmp_inj hi hj hnamed heq.symm).symm
  constructor
  · intro j call' hj hstage
    by_cases hij : j = i
    · subst hij; rw [Function.update_self] at hstage; cases hstage
    · rw [Function.update_of_ne hij] at hstage
      rw [State.create_names, if_neg (htmp hij hj)]
      exact h.idle j call' hj hstage
  · intro j call' file hj hstage
    by_cases hij : j = i
    · subst hij
      cases hi.symm.trans hj
      exact hnamed
    · rw [Function.update_of_ne hij] at hstage
      exact h.hasName j call' file hj hstage
  · intro j call' file hj hstage
    by_cases hij : j = i
    · subst hij
      cases hi.symm.trans hj
      rw [Function.update_self] at hstage
      cases hstage
      refine ⟨by rw [State.create_names, if_pos rfl], fun path hmem => ?_⟩
      by_contra hpath
      rw [State.create_recent, if_neg hpath] at hmem
      exact hold hmem rfl
    · rw [Function.update_of_ne hij] at hstage
      obtain ⟨hname, honly⟩ := h.held j call' file hj hstage
      refine ⟨by rw [State.create_names, if_neg (htmp hij hj), hname], fun path hmem => ?_⟩
      rw [State.create_recent] at hmem
      split at hmem
      · rename_i hpath
        rcases List.mem_cons.1 hmem with heq | hmem
        · exact absurd (Option.some.inj heq) (hother hj hstage)
        · exact hpath ▸ honly _ hmem
      · exact honly _ hmem
  · intro j call' hj
    by_cases hij : j = i
    · subst hij
      rw [Function.update_self]
      exact State.create_data.trans (if_pos rfl)
    · rw [Function.update_of_ne hij]
      refine Stage.content_congr (fun file hf => ?_) (fun file hf hc => ?_) (h.content j call' hj)
      · rw [State.create_data, if_neg (hother hj hf)]
      · rwa [State.create_clean, if_neg (hother hj hf)]
  · intro path
    rw [State.create_recent, State.create_names]
    split
    · rfl
    · exact h.newest path
  · intro path file hmem
    change file < s.next + 1
    rw [State.create_recent] at hmem
    split at hmem
    · rcases List.mem_cons.1 hmem with heq | hmem
      · rw [Option.some.inj heq]; omega
      · have := h.below _ _ hmem; omega
    · have := h.below _ _ hmem; omega
  · intro path hpath
    rw [State.create_recent, if_neg fun heq => hpath ⟨i, call, hi, hnamed, heq⟩, ← h.kept path hpath]
    refine List.map_congr_left fun f hf => ?_
    cases f with
    | none => rfl
    | some file => exact congrArg some (State.create_data.trans (if_neg (hold hf)))
  · intro path file hpath hmem
    rw [State.create_recent, if_neg fun heq => hpath ⟨i, call, hi, hnamed, heq⟩] at hmem
    rw [State.create_clean, if_neg (hold hmem)]
    exact h.clean path file hpath hmem

/-- The temporary file takes the place of the target. -/
theorem step_move (h : DiskInv calls stages contents s) (hapart : Apart calls) (hi : calls i = some call)
    (hstage : stages i = .synced file) :
    DiskInv calls (Function.update stages i .renamed)
      (Function.update contents call.target (some call.bytes :: contents call.target))
      (s.move call.tmp call.target file) := by
  have hfile : (stages i).file = some file := by rw [hstage]; rfl
  have hnamed : fileName call.target ≠ none := h.hasName i call file hi hfile
  have hne : call.tmp ≠ call.target := hapart.tmp_ne_target hi hi hnamed
  obtain ⟨hbytes, hsafe⟩ : s.data file = call.bytes ∧ s.clean file := by
    have := h.content i call hi
    rwa [hstage] at this
  have hbelow : file < s.next := h.below _ _ ((h.held i call file hi hfile).1 ▸ h.named call.tmp)
  have htmp : ∀ {j call'}, j ≠ i → calls j = some call' → call'.tmp ≠ call.tmp := fun hij hj heq =>
    hij (hapart.tmp_inj hi hj hnamed heq.symm).symm
  have htarget : ∀ {j call'}, calls j = some call' → call'.tmp ≠ call.target := fun hj =>
    hapart.tmp_ne_target hi hj hnamed
  -- what a path may lead to that it could not before
  have hmem : ∀ {path f}, some f ∈ (s.move call.tmp call.target file).recent path →
      some f ∈ s.recent path ∨ path = call.target ∧ f = file := by
    intro path f hmem
    rw [State.move_recent hne] at hmem
    split at hmem
    · rename_i hpath
      rcases List.mem_cons.1 hmem with heq | hmem
      · cases heq
      · exact .inl (hpath ▸ hmem)
    · split at hmem
      · rename_i hpath
        rcases List.mem_cons.1 hmem with heq | hmem
        · exact .inr ⟨hpath, Option.some.inj heq⟩
        · exact .inl (hpath ▸ hmem)
      · exact .inl hmem
  constructor
  · intro j call' hj hidle
    by_cases hij : j = i
    · subst hij; rw [Function.update_self] at hidle; cases hidle
    · rw [Function.update_of_ne hij] at hidle
      rw [State.move_names, if_neg (htmp hij hj), if_neg (htarget hj)]
      exact h.idle j call' hj hidle
  · intro j call' f hj hf
    by_cases hij : j = i
    · subst hij; rw [Function.update_self] at hf; cases hf
    · rw [Function.update_of_ne hij] at hf
      exact h.hasName j call' f hj hf
  · intro j call' f hj hf
    by_cases hij : j = i
    · subst hij; rw [Function.update_self] at hf; cases hf
    · rw [Function.update_of_ne hij] at hf
      obtain ⟨hname, honly⟩ := h.held j call' f hj hf
      refine ⟨by rw [State.move_names, if_neg (htmp hij hj), if_neg (htarget hj), hname], fun path hpath => ?_⟩
      rcases hmem hpath with hpath | ⟨-, rfl⟩
      · exact honly path hpath
      · exact absurd rfl (h.file_ne hapart hij hi hj hfile hf)
  · intro j call' hj
    by_cases hij : j = i
    · subst hij; rw [Function.update_self]; trivial
    · rw [Function.update_of_ne hij]
      exact Stage.content_congr (fun _ _ => rfl) (fun _ _ hc => hc) (h.content j call' hj)
  · intro path
    rw [State.move_recent hne, State.move_names]
    split
    · rfl
    · split
      · rfl
      · exact h.newest path
  · intro path f hf
    rcases hmem hf with hf | ⟨-, rfl⟩
    · exact h.below path f hf
    · exact hbelow
  · intro path hpath
    rw [State.move_recent hne, if_neg fun heq => hpath ⟨i, call, hi, hnamed, heq⟩]
    by_cases heq : path = call.target
    · subst heq
      rw [if_pos rfl, Function.update_self, List.map_cons, ← h.kept _ hpath, ← hbytes]
      rfl
    · rw [if_neg heq, Function.update_of_ne heq]
      exact h.kept path hpath
  · intro path f hpath hf
    rcases hmem hf with hf | ⟨-, rfl⟩
    · exact h.clean path f hpath hf
    · exact hsafe

/-- A directory is synced: of what its paths may lead to, the newest is left. -/
theorem step_syncDir (h : DiskInv calls stages contents s) (dir : Path) :
    DiskInv calls stages (fun path => if parent path = some dir then (contents path).take 1 else contents path)
      (s.syncDir ancestors dir) := by
  have htake : ∀ path, (s.syncDir ancestors dir).recent path =
      if parent path = some dir then (s.recent path).take 1 else s.recent path := by
    intro path
    change (if (ancestors path).head? = some dir then [s.names path] else s.recent path) = _
    rw [head?_ancestors]
    refine if_congr Iff.rfl ?_ rfl
    have hhead := h.newest path
    cases hlist : s.recent path with
    | nil => rw [hlist] at hhead; cases hhead
    | cons f rest =>
      rw [hlist] at hhead
      rw [← Option.some.inj hhead]
      rfl
  have hmem : ∀ {path f}, f ∈ (s.syncDir ancestors dir).recent path → f ∈ s.recent path := by
    intro path f hf
    rw [htake] at hf
    split at hf
    · exact List.mem_of_mem_take hf
    · exact hf
  refine ⟨h.idle, h.hasName, ?_, h.content, ?_, fun path f hf => h.below path f (hmem hf), ?_, ?_⟩
  · intro j call' f hj hf
    obtain ⟨hname, honly⟩ := h.held j call' f hj hf
    exact ⟨hname, fun path hpath => honly path (hmem hpath)⟩
  · intro path
    rw [htake]
    split
    · rw [List.head?_take, if_neg (by omega)]
      exact h.newest path
    · exact h.newest path
  · intro path hpath
    rw [htake]
    split
    · exact (List.map_take ..).trans (congrArg (List.take 1) (h.kept path hpath))
    · exact h.kept path hpath
  · intro path f hpath hf
    exact h.clean path f hpath (hmem hf)

/-- One system call of one of the calls. -/
theorem step {o : DiskSig.Op} {r : DiskSig.Reply o} (h : DiskInv calls stages contents s) (hapart : Apart calls)
    (hi : calls i = some call) (hallow : (stages i).Allows call o) (hE : diskEnv s o r s') :
    DiskInv calls (Function.update stages i ((stages i).next ⟨o, r⟩)) (survive calls contents (i, ⟨o, r⟩)) s' := by
  -- a step that leaves the files as they are, and the call where it was or finished
  have hquiet : ∀ stage : Stage, (stage = stages i ∨ stage.file = none ∧ stage ≠ .idle ∧ ∀ s, stage.Content call s) →
      SameFiles s s' → DiskInv calls (Function.update stages i stage) contents s' := by
    intro stage hstage hsame
    have hdata : ∀ file, s'.data file = s.data file := congrFun hsame.data
    have hclean : ∀ file, s.clean file → s'.clean file := fun file hc => by rwa [hsame.clean]
    refine h.step_file hsame.names hsame.recent hsame.next (fun file _ => hdata file) (fun file _ => hclean file) hapart
      hi ?_ ?_ ?_
    · rcases hstage with rfl | ⟨-, hne, -⟩
      · exact id
      · exact fun heq => absurd heq hne
    · rcases hstage with rfl | ⟨hnone, -, -⟩
      · exact fun _ hf => hf
      · exact fun file hf => nomatch hnone.symm.trans hf
    · rcases hstage with rfl | ⟨-, -, hcontent⟩
      · exact Stage.content_congr (fun file _ => hdata file) (fun file _ => hclean file) (h.content i call hi)
      · exact hcontent s'
  have hfails : ∀ message, SameFiles s s' → DiskInv calls (Function.update stages i (.failed message)) contents s' :=
    fun message => hquiet _ (.inr ⟨rfl, nofun, fun _ => trivial⟩)
  have hsame : s' = s → SameFiles s s' := fun heq => heq ▸ .refl s
  cases o with
  | createDirAll dir =>
    cases r with
    | ok u =>
      obtain rfl : s' = s.makeDirs (dir :: ancestors dir) := hE
      exact hquiet _ (.inl rfl) (.makeDirs s _)
    | error message =>
      obtain ⟨made, -, rfl⟩ := hE
      exact hfails message (.makeDirs s made)
  | openTruncate path =>
    obtain ⟨hidle, rfl⟩ := hallow
    cases r with
    | error message => exact hfails message (hsame hE)
    | ok file =>
      obtain ⟨hcan, -, ⟨hname, -⟩ | ⟨-, rfl, rfl⟩⟩ := hE
      · rw [h.idle i call hi hidle] at hname
        cases hname
      · exact h.step_create hapart hi (named_of_tmp hcan)
  | writeAll file bytes =>
    obtain ⟨hopened, rfl⟩ := hallow
    have hempty : s.data file = [] := by
      have := h.content i call hi
      rwa [hopened] at this
    have hfill : ∀ bytes file', (stages i).file ≠ some file' → (s.fill file bytes).data file' = s.data file' := by
      intro bytes file' hne
      rw [State.fill_data, if_neg fun heq => hne (by rw [hopened, heq]; rfl)]
    have hclean : ∀ bytes file', (stages i).file ≠ some file' → s.clean file' → (s.fill file bytes).clean file' := by
      intro bytes file' hne hc
      rwa [State.fill_clean, if_neg fun heq => hne (by rw [hopened, heq]; rfl)]
    cases r with
    | ok u =>
      obtain rfl : s' = s.fill file (s.data file ++ call.bytes) := hE
      refine h.step_file rfl rfl rfl (hfill _) (hclean _) hapart hi nofun (fun file' hf => ?_) ?_
      · rw [hopened]; exact hf
      · change (s.fill file _).data file = call.bytes
        rw [State.fill_data, if_pos rfl, hempty, List.nil_append]
    | error message =>
      obtain ⟨part, -, rfl⟩ := hE
      exact h.step_file rfl rfl rfl (hfill _) (hclean _) hapart hi nofun nofun trivial
  | syncAll file =>
    have hwritten : stages i = .written file := hallow
    cases r with
    | error message => exact hfails message (hsame hE)
    | ok u =>
      obtain rfl : s' = s.sync file := hE
      refine h.step_file rfl rfl rfl (fun _ _ => rfl) (fun file' _ hc => ?_) hapart hi nofun (fun file' hf => ?_) ?_
      · rw [State.sync_clean]
        split
        · trivial
        · exact hc
      · rw [hwritten]; exact hf
      · have hbytes := h.content i call hi
        rw [hwritten] at hbytes
        exact ⟨hbytes, by rw [State.sync_clean, if_pos rfl]; trivial⟩
  | rename src dst =>
    obtain ⟨⟨file, hsynced⟩, rfl, rfl⟩ := hallow
    cases r with
    | error message => exact hfails message (hsame hE)
    | ok u =>
      obtain ⟨-, file', hname, hs'⟩ := hE
      have hfile : (stages i).file = some file := by rw [hsynced]; rfl
      rw [if_neg (hapart.tmp_ne_target hi hi (h.hasName i call file hi hfile))] at hs'
      have hheld := (h.held i call file hi hfile).1
      obtain rfl := Option.some.inj (hheld.symm.trans hname)
      subst hs'
      have hmove := h.step_move hapart hi hsynced
      rw [show some call.bytes = (calls i).map Write.bytes by rw [hi]; rfl] at hmove
      exact hmove
  | syncDir dir =>
    have hrenamed : stages i = .renamed := hallow
    have hstages : Function.update stages i ((stages i).next ⟨.syncDir dir, r⟩) = stages := by
      have : (stages i).next ⟨.syncDir dir, r⟩ = stages i := by cases r <;> rfl
      rw [this, Function.update_eq_self]
    cases r with
    | error message => exact hquiet _ (.inl rfl) (hsame hE)
    | ok u =>
      obtain ⟨-, rfl⟩ := hE
      rw [hstages]
      exact h.step_syncDir dir

end DiskInv

end Steps

/-! ## A run -/

/-- A file system on which every system call succeeds that can. -/
def serve : Handler DiskSig (State Path)
  | s, .createDirAll dir => (.ok (), s.makeDirs (dir :: ancestors dir))
  | s, .openTruncate path =>
    if fileName path = none then (.error "Is a directory", s)
    else if ¬ s.HasDir ancestors path then (.error "No such file or directory", s)
    else match s.names path with
      | some file => (.ok file, s.fill file [])
      | none => (.ok s.next, s.create path)
  | s, .writeAll file bytes => (.ok (), s.fill file (s.data file ++ bytes))
  | s, .syncAll file => (.ok (), s.sync file)
  | s, .rename src dst =>
    if ¬ s.HasDir ancestors dst then (.error "No such file or directory", s)
    else match s.names src with
      | some file => (.ok (), if src = dst then s else s.move src dst file)
      | none => (.error "No such file or directory", s)
  | s, .syncDir dir =>
    if dir ∈ s.dirs then (.ok (), s.syncDir ancestors dir) else (.error "No such file or directory", s)

theorem serve_env (s : State Path) (o : DiskSig.Op) : diskEnv s o (serve s o).1 (serve s o).2 := by
  cases o with
  | createDirAll dir => exact rfl
  | openTruncate path =>
    by_cases hname : fileName path = none
    · simp only [serve, hname, if_true]
      rfl
    by_cases hdir : s.HasDir ancestors path
    · cases hfile : s.names path with
      | some file =>
        simp only [serve, hname, hdir, not_true, if_false, hfile]
        exact ⟨hname, hdir, .inl ⟨hfile, rfl⟩⟩
      | none =>
        simp only [serve, hname, hdir, not_true, if_false, hfile]
        exact ⟨hname, hdir, .inr ⟨hfile, rfl, rfl⟩⟩
    · simp only [serve, hname, hdir, not_false_eq_true, if_false, if_true]
      rfl
  | writeAll file bytes => rfl
  | syncAll file => rfl
  | rename src dst =>
    by_cases hdir : s.HasDir ancestors dst
    · cases hfile : s.names src with
      | some file => simp only [serve, hdir, not_true, if_false, hfile]; exact ⟨hdir, file, hfile, rfl⟩
      | none => simp only [serve, hdir, not_true, if_false, hfile]; rfl
    · simp only [serve, hdir, not_false_eq_true, if_true]
      rfl
  | syncDir dir =>
    by_cases hdir : dir ∈ s.dirs
    · simp only [serve, hdir, if_true]; exact ⟨hdir, rfl⟩
    · simp only [serve, hdir, if_false]; rfl

/-- A disk without files. -/
def emptyDisk : State Path where
  names _ := none
  recent _ := [none]
  data _ := []
  clean _ := False
  next := 0
  dirs := [[], components "/", components "/run"]
  kept := [[], components "/", components "/run"]

theorem emptyDisk_settled : Settled emptyDisk := ⟨fun _ => rfl, nofun, nofun, List.Subset.refl _⟩

/-- Two writes of the ruleset file at once, in two spellings. -/
def twoWrites : ℕ → Option Write
  | 0 => some ⟨"/run/rules.nft", "old", ⟨List.replicate 32 '0', by decide⟩⟩
  | 1 => some ⟨"/run//rules.nft", "new", ⟨List.replicate 32 '1', by decide⟩⟩
  | _ => none

theorem twoWrites_cases {i : ℕ} {call : Write} (h : twoWrites i = some call) :
    (i = 0 ∧ call = ⟨"/run/rules.nft", "old", ⟨List.replicate 32 '0', by decide⟩⟩) ∨
    (i = 1 ∧ call = ⟨"/run//rules.nft", "new", ⟨List.replicate 32 '1', by decide⟩⟩) := by
  match i, h with
  | 0, h => exact .inl ⟨rfl, (Option.some.inj h).symm⟩
  | 1, h => exact .inr ⟨rfl, (Option.some.inj h).symm⟩

theorem twoWrites_apart : Apart twoWrites where
  unique i j call call' hi hj := by
    rcases twoWrites_cases hi with ⟨rfl, rfl⟩ | ⟨rfl, rfl⟩ <;>
      rcases twoWrites_cases hj with ⟨rfl, rfl⟩ | ⟨rfl, rfl⟩ <;> decide
  target i call hi := by
    rintro ⟨j, call', hj, -, htmp⟩
    revert htmp
    rcases twoWrites_cases hi with ⟨rfl, rfl⟩ | ⟨rfl, rfl⟩ <;>
      rcases twoWrites_cases hj with ⟨rfl, rfl⟩ | ⟨rfl, rfl⟩ <;> decide

/-- The two calls in turns, until the first has renamed its file. -/
theorem twoWrites_reach : ∃ tr pool s, Reach diskEnv (fun i => thread (twoWrites i)) emptyDisk tr pool s ∧
    pool 0 = .ret (.ok ()) ∧ tr.length = 11 :=
  ⟨_, _, _, steps_reach serve_env [0, 1, 0, 1, 0, 1, 0, 1, 1, 0, 0] ([], _, emptyDisk) .init, rfl, rfl⟩

/-! ## Runs -/

/-- How far each call is after some events. -/
def stages (calls : ℕ → Option Write) (tr : List (ℕ × Event DiskSig)) (i : ℕ) : Stage :=
  (watch.after (calls i, .idle) (own i tr)).2

theorem watch_after (q : Option Write × Stage) (tr : List (Event DiskSig)) : (watch.after q tr).1 = q.1 := by
  induction tr generalizing q with
  | nil => rfl
  | cons e tr ih => rw [Monitor.after_cons, ih]; rfl

theorem stages_snoc {calls : ℕ → Option Write} {tr : List (ℕ × Event DiskSig)} {i : ℕ} {e : Event DiskSig} :
    stages calls (tr ++ [(i, e)]) = Function.update (stages calls tr) i ((stages calls tr i).next e) := by
  funext j
  unfold stages
  by_cases hij : j = i
  · subst hij
    rw [Function.update_self, own_snoc_self, Monitor.after_append]
    rfl
  · rw [Function.update_of_ne hij, own_snoc_ne hij]

theorem survivors_snoc {calls : ℕ → Option Write} {s₀ : State Path} {tr : List (ℕ × Event DiskSig)}
    {e : ℕ × Event DiskSig} : survivors calls s₀ (tr ++ [e]) = survive calls (survivors calls s₀ tr) e :=
  List.foldl_append ..

section Runs

variable {calls : ℕ → Option Write} {s₀ s : State Path} {tr : List (ℕ × Event DiskSig)}
  {pool : ℕ → Prog DiskSig String (Except String Unit)}

/-- **Invariant rule**: what every system call keeps that a call makes at its stage. -/
theorem calls_inv (I : List (ℕ × Event DiskSig) → State Path → Prop) (h0 : I [] s₀)
    (hstep : ∀ tr s i call o r s', I tr s → calls i = some call → (stages calls tr i).Allows call o →
      diskEnv s o r s' → I (tr ++ [(i, ⟨o, r⟩)]) s')
    (hr : Reach diskEnv (fun i => thread (calls i)) s₀ tr pool s) : I tr s := by
  refine reach_inv (M := watch) (fun i => (calls i, Stage.idle))
    (fun i => thread_watched (calls i)) I h0 ?_ hr
  rintro tr s i o r s' ih ⟨call, hcall, hallow⟩ hE
  rw [watch_after] at hcall
  exact hstep tr s i call o r s' ih hcall hallow hE

theorem disk_inv (hapart : Apart calls) (hsettled : Settled s₀)
    (htmp : ∀ i call, calls i = some call → s₀.names call.tmp = none)
    (hr : Reach diskEnv (fun i => thread (calls i)) s₀ tr pool s) :
    DiskInv calls (stages calls tr) (survivors calls s₀ tr) s := by
  refine calls_inv (fun tr s => DiskInv calls (stages calls tr) (survivors calls s₀ tr) s) (.init hsettled htmp) ?_ hr
  intro tr s i call o r s' ih hi hallow hE
  rw [stages_snoc, survivors_snoc]
  exact ih.step hapart hi hallow hE

/-- Each content is the first one or that of a call. -/
theorem mem_survivors (hr : Reach diskEnv (fun i => thread (calls i)) s₀ tr pool s) {path : Path}
    {content : Option Bytes} (h : content ∈ survivors calls s₀ tr path) :
    content = s₀.read path ∨ ∃ i call, calls i = some call ∧ call.target = path ∧ content = some call.bytes := by
  revert path content
  refine calls_inv (fun tr _ => ∀ {path content}, content ∈ survivors calls s₀ tr path → content = s₀.read path ∨
      ∃ i call, calls i = some call ∧ call.target = path ∧ content = some call.bytes)
    (fun h => .inl (List.mem_singleton.1 h)) ?_ hr
  intro tr s i call o r s' ih hi hallow _ path content hmem
  rw [survivors_snoc] at hmem
  cases o with
  | rename src dst =>
    cases r with
    | error message => exact ih hmem
    | ok u =>
      obtain ⟨-, -, rfl⟩ := hallow
      by_cases hpath : path = call.target
      · subst hpath
        rw [survive, Function.update_self, hi] at hmem
        rcases List.mem_cons.1 hmem with rfl | hmem
        · exact .inr ⟨i, call, hi, rfl, rfl⟩
        · exact ih hmem
      · rw [survive, Function.update_of_ne hpath] at hmem
        exact ih hmem
  | syncDir dir =>
    cases r with
    | error message => exact ih hmem
    | ok u =>
      simp only [survive] at hmem
      split at hmem
      · exact ih (List.mem_of_mem_take hmem)
      · exact ih hmem
  | createDirAll | openTruncate | writeAll | syncAll => cases r <;> exact ih hmem

/-- The directories that were there at the start stay. -/
theorem kept_of_reach (hsettled : Settled s₀) (hr : Reach diskEnv (fun i => thread (calls i)) s₀ tr pool s) :
    s₀.dirs ⊆ s.kept :=
  calls_inv (fun _ s => s₀.dirs ⊆ s.kept) hsettled.kept
    (fun _ _ _ _ _ _ _ hkept _ _ hE => List.Subset.trans hkept (kept_mono hE)) hr

/-- **What a crash leaves under a path is whole**: it is one of the contents since the last sync of the directory, and
each of these is the content at the start or that of a call; or nothing, where a directory on the way was made and the
one above that was not synced since. A directory that was there at the start does not go. -/
theorem atomic_write_crash_safe (hapart : Apart calls) (hsettled : Settled s₀)
    (htmp : ∀ i call, calls i = some call → s₀.names call.tmp = none)
    (hr : Reach diskEnv (fun i => thread (calls i)) s₀ tr pool s) {path : Path} (hpath : ¬ Temporary calls path)
    (content : Option Bytes) :
    (AfterCrash ancestors s path content ↔
      content ∈ survivors calls s₀ tr path ∨ content = none ∧ ∃ dir ∈ ancestors path, dir ∉ s.kept) ∧
    (content ∈ survivors calls s₀ tr path → content = s₀.read path ∨
      ∃ i call, calls i = some call ∧ call.target = path ∧ content = some call.bytes) ∧
    s₀.dirs ⊆ s.kept := by
  have hinv := disk_inv hapart hsettled htmp hr
  refine ⟨or_congr ?_ Iff.rfl, mem_survivors hr, kept_of_reach hsettled hr⟩
  rw [← hinv.kept path hpath, List.mem_map]
  constructor
  · rintro ⟨_ | file, hmem, hfile⟩
    · exact ⟨none, hmem, hfile.symm⟩
    · obtain ⟨bytes, rfl, hbytes⟩ := hfile
      exact ⟨some file, hmem, congrArg some (hbytes (hinv.clean path file hpath hmem)).symm⟩
  · rintro ⟨_ | file, hmem, rfl⟩
    · exact ⟨none, hmem, rfl⟩
    · exact ⟨some file, hmem, _, rfl, fun _ => rfl⟩

theorem atomic_write_crash_safe_twice : ∃ tr pool s,
    Reach diskEnv (fun i => thread (twoWrites i)) emptyDisk tr pool s ∧ pool 0 = .ret (.ok ()) ∧
    ∀ content, AfterCrash ancestors s (components "/run/rules.nft") content ↔
      content ∈ survivors twoWrites emptyDisk tr (components "/run/rules.nft") := by
  obtain ⟨tr, pool, s, hr, hdone, -⟩ := twoWrites_reach
  have hpath : ¬ Temporary twoWrites (components "/run/rules.nft") := twoWrites_apart.target 0 _ rfl
  refine ⟨tr, pool, s, hr, hdone, fun content => ?_⟩
  obtain ⟨hiff, -, hkept⟩ := atomic_write_crash_safe twoWrites_apart emptyDisk_settled
    (fun _ _ _ => rfl) hr hpath content
  have hdirs : ancestors (components "/run/rules.nft") ⊆ emptyDisk.dirs := by decide
  exact hiff.trans (or_iff_left fun ⟨_, dir, hdir, hgone⟩ => hgone (hkept (hdirs hdir)))

/-! ## Refinement -/

/-- The write of the host's environment, which tells files apart by the text of their paths: each target has one. -/
def hostWrite (spell : Path → String) : Option Write → HostProg (Except String Unit)
  | some call => EdgeRoute.atomicWrite (spell call.target) call.text
  | none => .ret (.ok ())

/-- The same, as far as the call is: it is done when the file is renamed, or when something failed. -/
def hostStage (spell : Path → String) (call : Option Write) : Stage → HostProg (Except String Unit)
  | .renamed => .ret (.ok ())
  | .failed message => .ret (.error message)
  | _ => hostWrite spell call

/-- The texts name the targets. -/
def Spells (calls : ℕ → Option Write) (spell : Path → String) : Prop :=
  ∀ i call, calls i = some call → components (spell call.target) = call.target

/-- The newest content of each target is the one in the world. -/
def Shows (calls : ℕ → Option Write) (spell : Path → String) (contents : Path → List (Option Bytes)) (w : World) :
    Prop :=
  ∀ i call, calls i = some call →
    (contents call.target).head? = some ((w.files (spell call.target)).map fun text => text.toUTF8.data.toList)

/-- The newest content after the call's rename. -/
theorem Shows.write {spell : Path → String} {contents : Path → List (Option Bytes)} {w : World} {i : ℕ} {call : Write}
    (h : Shows calls spell contents w) (hspell : Spells calls spell) (hi : calls i = some call) :
    Shows calls spell (Function.update contents call.target (some call.bytes :: contents call.target))
      (w.write (spell call.target) call.text) := by
  intro j call' hj
  change _ = some ((Function.update w.files (spell call.target) (some call.text) (spell call'.target)).map _)
  by_cases htarget : call'.target = call.target
  · rw [htarget, Function.update_self, Function.update_self]
    rfl
  · have hne : spell call'.target ≠ spell call.target := fun heq =>
      htarget (by rw [← hspell j call' hj, heq, hspell i call hi])
    rw [Function.update_of_ne htarget, Function.update_of_ne hne]
    exact h j call' hj

/-- A state of the writes in the host's environment. -/
def Refined (calls : ℕ → Option Write) (spell : Path → String) (s₀ : State Path) (w₀ : World)
    (tr : List (ℕ × Event DiskSig)) : Prop :=
  ∃ tr' pool w, Reach hostEnv (fun i => hostWrite spell (calls i)) w₀ tr' pool w ∧
    Shows calls spell (survivors calls s₀ tr) w ∧ ∀ i, pool i = hostStage spell (calls i) (stages calls tr i)

theorem Refined.step {spell : Path → String} {w₀ : World} {i : ℕ} {call : Write} {o : DiskSig.Op} {r : DiskSig.Reply o}
    (h : Refined calls spell s₀ w₀ tr) (hspell : Spells calls spell) (hi : calls i = some call)
    (hallow : (stages calls tr i).Allows call o) : Refined calls spell s₀ w₀ (tr ++ [(i, ⟨o, r⟩)]) := by
  obtain ⟨tr', pool, w, hreach, hshows, hpool⟩ := h
  unfold Refined
  rw [survivors_snoc, stages_snoc]
  generalize hstage : stages calls tr i = stage at hallow ⊢
  -- a step that the host's environment does not see
  have hquiet : ∀ stage' contents, Shows calls spell contents w →
      hostStage spell (calls i) stage' = hostStage spell (calls i) stage →
      ∃ tr' pool w, Reach hostEnv (fun i => hostWrite spell (calls i)) w₀ tr' pool w ∧ Shows calls spell contents w ∧
        ∀ j, pool j = hostStage spell (calls j) (Function.update (stages calls tr) i stage' j) := by
    refine fun stage' contents hshows' heq => ⟨tr', pool, w, hreach, hshows', fun j => ?_⟩
    by_cases hij : j = i
    · subst hij; rw [Function.update_self, hpool, hstage, heq]
    · rw [Function.update_of_ne hij, hpool]
  -- the answer of the host's environment
  have hanswer : ∀ (x : Except String Unit) w' stage' contents,
      hostStage spell (calls i) stage = hostWrite spell (calls i) →
      hostEnv w (.atomicWrite (spell call.target) call.text) x w' → Shows calls spell contents w' →
      hostStage spell (calls i) stage' = .ret x →
      ∃ tr' pool w, Reach hostEnv (fun i => hostWrite spell (calls i)) w₀ tr' pool w ∧ Shows calls spell contents w ∧
        ∀ j, pool j = hostStage spell (calls j) (Function.update (stages calls tr) i stage' j) := by
    intro x w' stage' contents hrunning hE hshows' hdone
    have hcall : pool i = .call (S := HostSig) (.atomicWrite (spell call.target) call.text) .ret := by
      rw [hpool, hstage, hrunning, hi]; rfl
    refine ⟨_, _, w', hreach.step hcall hE, hshows', fun j => ?_⟩
    by_cases hij : j = i
    · subst hij; rw [Function.update_self, Function.update_self, hdone]
    · rw [Function.update_of_ne hij, Function.update_of_ne hij, hpool]
  have hfails : ∀ message, hostStage spell (calls i) stage = hostWrite spell (calls i) →
      ∃ tr' pool w, Reach hostEnv (fun i => hostWrite spell (calls i)) w₀ tr' pool w ∧
        Shows calls spell (survivors calls s₀ tr) w ∧
        ∀ j, pool j = hostStage spell (calls j) (Function.update (stages calls tr) i (.failed message) j) :=
    fun message hrunning => hanswer (.error message) w _ _ hrunning (.inr ⟨message, rfl, rfl⟩) hshows rfl
  cases o with
  | createDirAll dir =>
    obtain rfl : stage = .idle := hallow
    cases r with
    | ok u => exact hquiet _ _ hshows rfl
    | error message => exact hfails message rfl
  | openTruncate path =>
    obtain ⟨rfl, -⟩ := hallow
    cases r with
    | ok file => exact hquiet _ _ hshows rfl
    | error message => exact hfails message rfl
  | writeAll file bytes =>
    obtain ⟨rfl, -⟩ := hallow
    cases r with
    | ok u => exact hquiet _ _ hshows rfl
    | error message => exact hfails message rfl
  | syncAll file =>
    obtain rfl : stage = .written file := hallow
    cases r with
    | ok u => exact hquiet _ _ hshows rfl
    | error message => exact hfails message rfl
  | rename src dst =>
    obtain ⟨⟨file, rfl⟩, -, rfl⟩ := hallow
    cases r with
    | error message => exact hfails message rfl
    | ok u =>
      refine hanswer (.ok ()) (w.write (spell call.target) call.text) _ _ rfl (.inl ⟨rfl, rfl⟩) ?_ rfl
      have hwrite := hshows.write hspell hi
      rw [show some call.bytes = (calls i).map Write.bytes by rw [hi]; rfl] at hwrite
      exact hwrite
  | syncDir dir =>
    obtain rfl : stage = .renamed := hallow
    cases r with
    | error message => exact hquiet _ _ hshows rfl
    | ok u =>
      refine hquiet _ _ (fun j call' hj => ?_) rfl
      rw [← hshows j call' hj]
      simp only [survive]
      split
      · rw [List.head?_take, if_neg (by omega)]
      · rfl

/-- **The calls are the atomic writes of the host's environment**, each under the one text that its target has there:
these, in some order, leave each target the same content and give each finished call the same answer. Nothing else
changes but the temporary names. -/
theorem atomic_write_refines (hapart : Apart calls) (hsettled : Settled s₀)
    (htmp : ∀ i call, calls i = some call → s₀.names call.tmp = none) {spell : Path → String}
    (hspell : Spells calls spell) {w₀ : World}
    (hw₀ : ∀ i call, calls i = some call →
      s₀.read call.target = (w₀.files (spell call.target)).map fun text => text.toUTF8.data.toList)
    (hr : Reach diskEnv (fun i => thread (calls i)) s₀ tr pool s) :
    (∃ tr' pool' w, Reach hostEnv (fun i => hostWrite spell (calls i)) w₀ tr' pool' w ∧
      (∀ i call, calls i = some call →
        s.read call.target = (w.files (spell call.target)).map fun text => text.toUTF8.data.toList) ∧
      ∀ i x, pool i = .ret x → pool' i = .ret x) ∧
    ∀ path, ¬ Temporary calls path → (∀ i call, calls i = some call → call.target ≠ path) →
      s.read path = s₀.read path := by
  have hinv := disk_inv hapart hsettled htmp hr
  have hnewest : ∀ path, ¬ Temporary calls path → (survivors calls s₀ tr path).head? = some (s.read path) := by
    intro path hpath
    rw [← hinv.kept path hpath, List.head?_map, hinv.newest]
    rfl
  have hrefined : Refined calls spell s₀ w₀ tr := by
    refine calls_inv (fun tr _ => Refined calls spell s₀ w₀ tr) ⟨[], _, w₀, .init, ?_, fun _ => rfl⟩ ?_ hr
    · exact fun i call hi => congrArg some (hw₀ i call hi)
    · exact fun tr s i call o r s' ih hi hallow _ => ih.step hspell hi hallow
  constructor
  · obtain ⟨tr', pool', w, hreach, hshows, hpool⟩ := hrefined
    refine ⟨tr', pool', w, hreach, fun i call hi => ?_, fun i x hx => ?_⟩
    · exact Option.some.inj ((hnewest call.target (hapart.target i call hi)).symm.trans (hshows i call hi))
    · have hends := wp_reach (fun i => (calls i, Stage.idle)) (fun i => thread_watched (calls i)) hr i
      rw [hx, Prog.wp_ret] at hends
      rw [hpool]
      change hostStage spell (calls i) (watch.after (calls i, .idle) (own i tr)).2 = _
      rcases hends with ⟨hx, hnone | hrenamed⟩ | ⟨message, hx, hfailed⟩
      · have hi : calls i = none := (watch_after (calls i, Stage.idle) (own i tr)).symm.trans (congrArg Prod.fst hnone)
        rw [hnone, hi]; cases hx; rfl
      · rw [hrenamed]; cases hx; rfl
      · rw [hfailed]; cases hx; rfl
  · intro path hpath hno
    rcases mem_survivors hr (List.mem_of_mem_head? (hnewest path hpath)) with hread | ⟨i, call, hi, htarget, -⟩
    · exact hread
    · exact absurd htarget (hno i call hi)

/-- The world with that disk. -/
def emptyDiskWorld : World := ⟨Db.fresh, fun _ => none, none, fun _ => ⟨[], .nil⟩⟩

/-- The first spelling stands for both. -/
theorem atomic_write_refines_twice : ∃ tr pool s tr' pool' w,
    Reach diskEnv (fun i => thread (twoWrites i)) emptyDisk tr pool s ∧
    Reach hostEnv (fun i => hostWrite (fun _ => "/run/rules.nft") (twoWrites i)) emptyDiskWorld tr' pool' w ∧
    s.read (components "/run//rules.nft") = (w.files "/run/rules.nft").map (fun text => text.toUTF8.data.toList) ∧
    pool' 0 = .ret (.ok ()) := by
  obtain ⟨tr, pool, s, hr, hdone, -⟩ := twoWrites_reach
  have hspell : Spells twoWrites fun _ => "/run/rules.nft" := by
    intro i call hi
    rcases twoWrites_cases hi with ⟨rfl, rfl⟩ | ⟨rfl, rfl⟩ <;> decide
  have hstart : ∀ i call, twoWrites i = some call →
      emptyDisk.read call.target = (emptyDiskWorld.files "/run/rules.nft").map fun text => text.toUTF8.data.toList :=
    fun _ _ _ => rfl
  obtain ⟨⟨tr', pool', w, hreach, hread, hanswer⟩, -⟩ :=
    atomic_write_refines twoWrites_apart emptyDisk_settled (fun _ _ _ => rfl) hspell hstart hr
  exact ⟨tr, pool, s, tr', pool', w, hr, hreach, hread 1 _ rfl, hanswer 0 _ hdone⟩

end Runs

end Disk

end EdgeRoute
