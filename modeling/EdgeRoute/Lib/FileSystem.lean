import EdgeRoute.Lib.Prog

/-!
# Files that survive a crash

A file system as a program sees it and as a crash leaves it. A name leads to a file, and a file has content. Content
is safe once the file is synced, a name once its directory is; before that a crash may leave any name it had in between,
and a file that was written since its last sync with any content at all. A directory is a name too: one that was made
is safe once the directory above it is synced, and a crash that takes it takes all that is below.

* `fsEnv`: what the calls of a program do.
* `AfterCrash`: what a crash may leave under a name.
* `create_names`, `move_recent`, `fill_data`, `sync_clean`: what each step does to the state.
* `kept_mono`: a directory that is safe stays safe.
-/

namespace FileSystem

open Effect

abbrev Bytes := List UInt8

/-- The names, of any type, the files by number, and the directories. `recent` lists every file that a name may lead to
after a crash, and `kept` the directories that a crash leaves. -/
structure State (P : Type) where
  names : P → Option ℕ
  recent : P → List (Option ℕ)
  data : ℕ → Bytes
  clean : ℕ → Prop
  next : ℕ
  dirs : List P
  kept : List P

inductive Op (P : Type) where
  | createDirAll (dir : P)
  | openTruncate (path : P)
  | writeAll (file : ℕ) (bytes : Bytes)
  | syncAll (file : ℕ)
  | rename (src dst : P)
  | syncDir (dir : P)

abbrev Op.Reply {P : Type} : Op P → Type
  | .openTruncate _ => Except String ℕ
  | _ => Except String Unit

abbrev FsSig (P : Type) : Sig := ⟨Op P, Op.Reply⟩

variable {P : Type} [DecidableEq P]

namespace State

/-- The content that a name leads to. -/
def read (s : State P) (p : P) : Option Bytes := (s.names p).map s.data

/-- Let a name lead to a file, or to none. -/
def set (s : State P) (p : P) (file : Option ℕ) : State P :=
  { s with names := Function.update s.names p file, recent := Function.update s.recent p (file :: s.recent p) }

/-- Give a file other content, which is not safe. -/
def fill (s : State P) (file : ℕ) (bytes : Bytes) : State P :=
  { s with data := Function.update s.data file bytes, clean := Function.update s.clean file False }

/-- Make the content of a file safe. -/
def sync (s : State P) (file : ℕ) : State P := { s with clean := Function.update s.clean file True }

/-- The state after a file is created empty under a name. -/
def create (s : State P) (p : P) : State P := { (s.set p (some s.next)).fill s.next [] with next := s.next + 1 }

/-- The state after a rename, where the name `src` leads to `file`. -/
def move (s : State P) (src dst : P) (file : ℕ) : State P := (s.set dst (some file)).set src none

/-- Make directories, those of them that are not there. -/
def makeDirs (s : State P) (dirs : List P) : State P := { s with dirs := s.dirs ++ dirs }

/-- Make the entries of a directory safe. `above` gives the directories on the way to a name, the nearest first. -/
def syncDir (s : State P) (above : P → List P) (dir : P) : State P :=
  { s with
    recent := fun p => if (above p).head? = some dir then [s.names p] else s.recent p
    kept := s.kept ++ s.dirs.filter fun d => (above d).head? = some dir }

/-- The directory of a name is there. -/
def HasDir (s : State P) (above : P → List P) (p : P) : Prop := ∀ dir ∈ (above p).head?, dir ∈ s.dirs

instance (s : State P) (above : P → List P) (p : P) : Decidable (s.HasDir above p) :=
  match h : (above p).head? with
  | none => .isTrue fun _ hdir => nomatch h ▸ hdir
  | some dir => decidable_of_iff (dir ∈ s.dirs) (by simp [HasDir, h])

end State

/-- **The calls of a program.** `canName` says which names a file can have, `above` which directories are on the way to
a name. A write that fails may have written a part, and a failure to make directories may leave some of them. The file
is written from its end by the one who opened it. -/
def fsEnv (canName : P → Prop) (above : P → List P) : Env (FsSig P) (State P) := fun s o r s' =>
  match o, r with
  | .createDirAll dir, .ok () => s' = s.makeDirs (dir :: above dir)
  | .createDirAll dir, .error _ => ∃ made, made ⊆ dir :: above dir ∧ s' = s.makeDirs made
  | .openTruncate p, .ok file => canName p ∧ s.HasDir above p ∧
    ((s.names p = some file ∧ s' = s.fill file []) ∨ (s.names p = none ∧ file = s.next ∧ s' = s.create p))
  | .openTruncate _, .error _ => s' = s
  | .writeAll file bytes, .ok () => s' = s.fill file (s.data file ++ bytes)
  | .writeAll file bytes, .error _ => ∃ part, part <+: bytes ∧ s' = s.fill file (s.data file ++ part)
  | .syncAll file, .ok () => s' = s.sync file
  | .syncAll _, .error _ => s' = s
  | .rename src dst, .ok () =>
    s.HasDir above dst ∧ ∃ file, s.names src = some file ∧ s' = if src = dst then s else s.move src dst file
  | .rename _ _, .error _ => s' = s
  | .syncDir dir, .ok () => dir ∈ s.dirs ∧ s' = s.syncDir above dir
  | .syncDir _, .error _ => s' = s

/-- The content that a crash may leave under a name, or that there is none. Nothing is left below a directory that
goes. -/
def AfterCrash (above : P → List P) (s : State P) (p : P) (content : Option Bytes) : Prop :=
  (∃ file ∈ s.recent p, match file with
    | none => content = none
    | some n => ∃ bytes, content = some bytes ∧ (s.clean n → bytes = s.data n)) ∨
  content = none ∧ ∃ dir ∈ above p, dir ∉ s.kept

/-- Everything is safe, and files have numbers that were given out. -/
structure Settled (s : State P) : Prop where
  recent : ∀ p, s.recent p = [s.names p]
  clean : ∀ p n, s.names p = some n → s.clean n
  below : ∀ p n, s.names p = some n → n < s.next
  kept : s.dirs ⊆ s.kept

/-- The states have the same files under the same names. -/
structure SameFiles (s s' : State P) : Prop where
  names : s'.names = s.names
  recent : s'.recent = s.recent
  data : s'.data = s.data
  clean : s'.clean = s.clean
  next : s'.next = s.next

/-! ## Steps -/

namespace State

variable {s : State P} {p p' : P} {n n' : ℕ} {file : Option ℕ} {bytes : Bytes}

theorem set_names : (s.set p file).names p' = if p' = p then file else s.names p' := Function.update_apply ..

theorem set_recent : (s.set p file).recent p' = if p' = p then file :: s.recent p else s.recent p' :=
  Function.update_apply ..

@[simp] theorem set_data : (s.set p file).data = s.data := rfl

@[simp] theorem set_clean : (s.set p file).clean = s.clean := rfl

@[simp] theorem set_next : (s.set p file).next = s.next := rfl

theorem create_names : (s.create p).names p' = if p' = p then some s.next else s.names p' := set_names

theorem create_recent : (s.create p).recent p' = if p' = p then some s.next :: s.recent p else s.recent p' :=
  set_recent

theorem create_data : (s.create p).data n' = if n' = s.next then [] else s.data n' := Function.update_apply ..

theorem create_clean : (s.create p).clean n' = if n' = s.next then False else s.clean n' := Function.update_apply ..

theorem move_names {src dst : P} : (s.move src dst n).names p' =
    if p' = src then none else if p' = dst then some n else s.names p' :=
  set_names.trans (if_congr Iff.rfl rfl set_names)

theorem move_recent {src dst : P} (hne : src ≠ dst) : (s.move src dst n).recent p' =
    if p' = src then none :: s.recent src else if p' = dst then some n :: s.recent dst else s.recent p' :=
  set_recent.trans (if_congr Iff.rfl (by rw [set_recent, if_neg hne]) set_recent)

omit [DecidableEq P]

@[simp] theorem fill_names : (s.fill n bytes).names = s.names := rfl

@[simp] theorem fill_recent : (s.fill n bytes).recent = s.recent := rfl

@[simp] theorem fill_next : (s.fill n bytes).next = s.next := rfl

theorem fill_data : (s.fill n bytes).data n' = if n' = n then bytes else s.data n' := Function.update_apply ..

theorem fill_clean : (s.fill n bytes).clean n' = if n' = n then False else s.clean n' := Function.update_apply ..

@[simp] theorem sync_names : (s.sync n).names = s.names := rfl

@[simp] theorem sync_recent : (s.sync n).recent = s.recent := rfl

@[simp] theorem sync_data : (s.sync n).data = s.data := rfl

@[simp] theorem sync_next : (s.sync n).next = s.next := rfl

theorem sync_clean : (s.sync n).clean n' = if n' = n then True else s.clean n' := Function.update_apply ..

end State

omit [DecidableEq P] in
theorem SameFiles.refl (s : State P) : SameFiles s s := ⟨rfl, rfl, rfl, rfl, rfl⟩

omit [DecidableEq P] in
theorem SameFiles.makeDirs (s : State P) (dirs : List P) : SameFiles s (s.makeDirs dirs) := ⟨rfl, rfl, rfl, rfl, rfl⟩

/-- **A directory that a crash leaves stays one.** -/
theorem kept_mono {canName : P → Prop} {above : P → List P} {s s' : State P} {o : Op P} {r : o.Reply}
    (hE : fsEnv canName above s o r s') : s.kept ⊆ s'.kept := by
  cases o with
  | createDirAll dir =>
    cases r with
    | ok u => obtain rfl : s' = s.makeDirs (dir :: above dir) := hE; exact List.Subset.refl _
    | error message => obtain ⟨made, -, rfl⟩ := hE; exact List.Subset.refl _
  | openTruncate p =>
    cases r with
    | ok file => obtain ⟨-, -, ⟨-, rfl⟩ | ⟨-, -, rfl⟩⟩ := hE <;> exact List.Subset.refl _
    | error message => rw [show s' = s from hE]; exact List.Subset.refl _
  | writeAll file bytes =>
    cases r with
    | ok u => rw [show s' = s.fill file _ from hE]; exact List.Subset.refl _
    | error message => obtain ⟨part, -, rfl⟩ := hE; exact List.Subset.refl _
  | syncAll file =>
    cases r with
    | ok u => rw [show s' = s.sync file from hE]; exact List.Subset.refl _
    | error message => rw [show s' = s from hE]; exact List.Subset.refl _
  | rename src dst =>
    cases r with
    | ok u =>
      obtain ⟨-, file, -, rfl⟩ := hE
      split <;> exact List.Subset.refl _
    | error message => rw [show s' = s from hE]; exact List.Subset.refl _
  | syncDir dir =>
    cases r with
    | ok u => rw [hE.2]; exact List.subset_append_left ..
    | error message => rw [show s' = s from hE]; exact List.Subset.refl _

end FileSystem
