import ChangeGate.Repository.Discovery
import ChangeGate.Repository.Revision
import ChangeGate.Text.Order

/-! # Changed files of a repository

Three comparisons tell which files changed since a base revision: of the base with the commit of `HEAD`,
of the base with the index, and of the index with the working directory. Each tells a list of
**deltas**, one or two for a path at which the two sides differ. The names of their paths are given
with slashes only, in ascending order, each once. -/

namespace ChangeGate.Repository

open Files (Tree Node)

/-- Why the changes of a repository cannot be listed. -/
inductive ChangesError where
  /-- There is no repository. -/
  | discovery (cause : DiscoveryError)
  /-- The base names no snapshot. -/
  | base (revision : Text) (cause : RevisionError)
  /-- The branch of `HEAD` is not born yet. -/
  | head (reference : Text)
deriving DecidableEq, Repr

/-- The wording of an error. -/
def ChangesError.message : ChangesError → Text
  | .discovery cause => "failed to open repository: ".toList ++ cause.message
  | .base revision cause =>
    "failed to resolve base ref `".toList ++ revision ++ "`: ".toList ++ cause.message
  | .head reference =>
    "failed to get HEAD tree: reference '".toList ++ reference ++ "' not found".toList

/-- The entry that a node would be recorded as. -/
def entryOf : Node → Option Entry
  | .file content executable => some ⟨if executable then .executable else .regular, content⟩
  | .link target => some ⟨.link, Text.encode target⟩
  | _ => none

/-- The entry that the file at a place would be recorded as. -/
def onDisk (t : Tree) (place : Path) : Option Entry := (t.node? place).bind entryOf

/-- What a comparison tells of one path: a delta has the path on each side on which something stands. -/
structure Delta where
  /-- The path on the side that is compared. -/
  old : Option Path
  /-- The path on the side that it is compared with. -/
  new : Option Path
deriving DecidableEq, Repr

namespace Delta

/-- The path that a delta is about: the new one, or the old one if nothing stands there any more. -/
def path? (d : Delta) : Option Path := d.new.or d.old

/-- What is told of a path when two entries for it are compared. A file in the place of a link, or a
link in the place of a file, is told as removed and added. -/
def between (p : Path) : Option Entry → Option Entry → List Delta
  | none, none => []
  | none, some _ => [⟨none, some p⟩]
  | some _, none => [⟨some p, none⟩]
  | some e, some f =>
    if e = f then []
    else if (e.kind == .link) != (f.kind == .link) then [⟨some p, none⟩, ⟨none, some p⟩]
    else [⟨some p, some p⟩]

end Delta

/-- What is told of two snapshots that are compared. -/
def Snapshot.diff (s t : Snapshot) : List Delta :=
  (s.paths ++ t.paths.filter fun p => (s.entry? p).isNone).flatMap fun p =>
    Delta.between p (s.entry? p) (t.entry? p)

/-- What is told of the paths of an index when it is compared with the working directory. -/
def Snapshot.diffDisk (index : Snapshot) (t : Tree) (workdir : Path) : List Delta :=
  index.paths.flatMap fun p => Delta.between p (index.entry? p) (onDisk t (workdir ++ p))

/-- A text with slashes in the place of backslashes. -/
def withSlashes (t : Text) : Text := t.map fun c => if c = '\\' then '/' else c

/-- The name of a path in a list of changed files. -/
def listedName (p : Path) : Text := withSlashes (Files.relative p)

/-- The names of the paths that deltas are about. -/
def listedNames (ds : List Delta) : List Text := ds.filterMap fun d => d.path?.map listedName

/-- The files changed since a base revision, in the repository of the directory at a path. -/
def changedFiles (t : Tree) (cwd : Path) (path base : Text) : Except ChangesError (List Text) :=
  match discover t cwd path with
  | .error e => .error (.discovery e)
  | .ok l =>
    match l.store.resolveSnapshot base with
    | .error e => .error (.base base e)
    | .ok b =>
      match l.store.headCommit? with
      | none => .error (.head l.store.head)
      | some head =>
        .ok (Text.ascending
          (listedNames (b.diff head.snapshot) ++ listedNames (b.diff l.store.index) ++
            listedNames (l.store.index.diffDisk t l.workdir)))

/-- Whether the directory at a path lies in a repository. -/
def isRepository (t : Tree) (cwd : Path) (path : Text) : Bool := (discover t cwd path).isOk

end ChangeGate.Repository
