import EdgeRoute.Lib.FileSystem

/-!
# The write under the controller's file

`atomic_write` as the calls it makes on the file system: it writes a file beside the target, under a name that no other
call has, makes it safe, and renames it over the target.

* `components`, `fileName`, `fileStem`, `parent`, `withExtension`: the part of `Path` that it uses.
* `Disk.atomicWrite`: the function; the digits of `Uuid::new_v4` are its argument.
-/

namespace EdgeRoute

open Effect FileSystem

/-! ## Paths -/

/-- `std::path::Component`. -/
inductive Component where
  | rootDir
  | curDir
  | parentDir
  | normal (name : List Char)
deriving DecidableEq

/-- A `Path` by its components, which is how paths compare. That links and `..` may lead from two of them to one file
is left out. -/
abbrev Path := List Component

/-- `Path::components`: empty parts and dots are skipped, a dot at the start is not. -/
def components (path : String) : Path :=
  let parts := path.toList.splitOn '/'
  let rest := parts.filterMap fun part =>
    if part = [] ∨ part = ['.'] then none
    else if part = ['.', '.'] then some .parentDir
    else some (.normal part)
  if path.toList.head? = some '/' then .rootDir :: rest
  else if parts.head? = some ['.'] then .curDir :: rest
  else rest

/-- `Path::file_name`. -/
def fileName (path : Path) : Option (List Char) :=
  match path.getLast? with
  | some (.normal name) => some name
  | _ => none

/-- `Path::file_stem` of a file name: all before the last dot, unless the name has no other. -/
def fileStem (name : List Char) : List Char :=
  let before := (name.reverse.dropWhile (· != '.')).tail.reverse
  if before = [] then name else before

/-- `Path::parent`. -/
def parent (path : Path) : Option Path :=
  match path.getLast? with
  | some (.normal _) | some .curDir | some .parentDir => some path.dropLast
  | _ => none

/-- `parent`, as often as `n` says. -/
def parents : ℕ → Path → List Path
  | 0, _ => []
  | n + 1, path =>
    match parent path with
    | some dir => dir :: parents n dir
    | none => []

/-- `Path::ancestors` without the path itself: the directories on the way to it, the nearest first. -/
def ancestors (path : Path) : List Path := parents path.length path

/-- `Path::with_extension`. -/
def withExtension (path : Path) (extension : List Char) : Path :=
  match fileName path with
  | none => path
  | some name => path.dropLast ++ [.normal (fileStem name ++ if extension = [] then [] else '.' :: extension)]

/-! ## The write -/

/-- The digits of `uuid.simple()`. -/
structure Uuid where
  digits : List Char
  length_eq : digits.length = 32
deriving DecidableEq

namespace Disk

/-- The arguments of a call, and the name that it draws. -/
structure Write where
  path : String
  text : String
  unique : Uuid
deriving DecidableEq

namespace Write

variable (call : Write)

def target : Path := components call.path

/-- `text.as_bytes()`. -/
def bytes : Bytes := call.text.toUTF8.data.toList

/-- `path.with_extension(format!("tmp-{unique}"))`. -/
def tmp : Path := withExtension call.target ("tmp-".toList ++ call.unique.digits)

end Write

/-- A path that a call could draw for its temporary file. -/
def TemporaryName (path : String) : Prop := ∃ call : Write, fileName call.target ≠ none ∧ components path = call.tmp

abbrev DiskSig : Sig := FsSig Path

/-- A directory has the names of which it is the parent, and a file has a file name. -/
def diskEnv : Env DiskSig (State Path) := fsEnv (fun path => fileName path ≠ none) ancestors

/-- `call?` of a system call. -/
def require {α : Type} (p : Prog DiskSig String (Except String α)) : Prog DiskSig String α := p >>= .ofExcept

/-- `if let Some(parent) = path.parent() { .. }`. -/
def withParent (path : Path) (action : Path → Prog DiskSig String Unit) : Prog DiskSig String Unit :=
  match parent path with
  | some dir => action dir
  | none => pure ()

/-- `atomic_write`. What the sync of the directory answers, or its opening, is ignored. -/
def atomicWrite (call : Write) : Prog DiskSig String Unit := do
  withParent call.target fun dir => require (.op (S := DiskSig) (.createDirAll dir))
  let file ← require (.op (S := DiskSig) (.openTruncate call.tmp))
  require (.op (S := DiskSig) (.writeAll file call.bytes))
  require (.op (S := DiskSig) (.syncAll file))
  require (.op (S := DiskSig) (.rename call.tmp call.target))
  withParent call.target fun dir => do
    let _ ← Prog.op (S := DiskSig) (.syncDir dir)
    pure ()

end Disk

example : withExtension (components "/run//edge/./rules.nft") "tmp-0".toList =
    [.rootDir, .normal "run".toList, .normal "edge".toList, .normal "rules.tmp-0".toList] := by decide

end EdgeRoute
