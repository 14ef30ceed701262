import ChangeGate.Files.Edit
import ChangeGate.Repository.Changes
import ChangeGate.Repository.Ignore

/-! # Working with a repository

The commands by which a user brings a repository from one state to the next: making it, staging files
into the index, committing, naming commits, and checking out a branch. All of them act on the file
tree that holds the working directory and, inside it, the store. -/

namespace ChangeGate.Repository

open Files (Tree Node)

/-- A working directory inside a file tree. -/
structure Workspace where
  tree : Tree
  workdir : Path
deriving DecidableEq, Repr

namespace Workspace

/-- The store of a workspace. -/
def store? (w : Workspace) : Option Store :=
  match w.tree.node? (w.workdir ++ [storeName]) with
  | some (.store s) => some s
  | _ => none

/-- A workspace with another store. -/
def withStore (w : Workspace) (s : Store) : Workspace :=
  { w with tree := w.tree.insert (w.workdir ++ [storeName]) (.store s) }

/-- A workspace with a store changed, if there is one. -/
def update (w : Workspace) (f : Store → Store) : Workspace := w.store?.elim w fun s => w.withStore (f s)

/-- A workspace with a new repository. -/
def init (w : Workspace) : Workspace := if w.store?.isSome then w else w.withStore Store.empty

/-- All the files of a working directory, those of stores left out. -/
def files (w : Workspace) : Snapshot :=
  w.tree.nodes.filterMap fun (place, node) =>
    let p := place.drop w.workdir.length
    if w.workdir.isPrefixOf place && !p.contains storeName then (entryOf node).map (p, ·) else none

/-- The rules of the list of ignored files in a directory. -/
def ignoreRules (w : Workspace) (directory : Path) : List Ignore.Rule :=
  match w.tree.node? (w.workdir ++ directory ++ [".gitignore".toList]) with
  | some (.file content _) => Ignore.rules (Text.decodeLossy content)
  | _ => []

/-- The file at a path recorded in the index as it is on disk. -/
def stage (w : Workspace) (path : Text) : Workspace :=
  let p := Files.Tree.plainNames path
  match onDisk w.tree (w.workdir ++ p) with
  | some e => w.update fun s => { s with index := s.index.insert p e }
  | none => w

/-- The path taken out of the index. -/
def unstage (w : Workspace) (path : Text) : Workspace :=
  w.update fun s => { s with index := s.index.erase (Files.Tree.plainNames path) }

/-- The index made equal to the disk; a file that is not recorded yet is added unless it is ignored. -/
def stageAll (w : Workspace) : Workspace :=
  w.update fun s =>
    { s with index := w.files.filter fun e =>
        (s.index.entry? e.1).isSome || !Ignore.ignored w.ignoreRules e.1 }

/-- The node that an entry is checked out as. -/
def nodeOf (e : Entry) : Node :=
  match e.kind with
  | .regular => .file e.content false
  | .executable => .file e.content true
  | .link => .link (Text.decodeLossy e.content)

/-- A file put on disk in the place of what stands in its way. -/
def putFile (w : Workspace) (p : Path) (e : Entry) : Workspace :=
  let parents := (List.range p.length).map p.take
  let cleared := parents.foldl (fun (t : Tree) parent =>
    match t.node? (w.workdir ++ parent) with
    | some node => if node.isDirectory then t else
        (t.remove (w.workdir ++ parent)).insert (w.workdir ++ parent) .directory
    | none => t.insert (w.workdir ++ parent) .directory) w.tree
  { w with tree := (cleared.remove (w.workdir ++ p)).insert (w.workdir ++ p) (nodeOf e) }

/-- A branch made the branch of `HEAD`, with the index and the recorded files set to its commit. -/
def checkout (w : Workspace) (name : Text) : Workspace :=
  match w.store? with
  | none => w
  | some s =>
    let moved := s.setHead name
    match moved.headCommit? with
    | none => w.withStore moved
    | some c =>
      let cleared := s.index.paths.foldl (fun (t : Tree) p =>
        if (c.snapshot.entry? p).isNone && (onDisk t (w.workdir ++ p)).isSome
        then t.remove (w.workdir ++ p) else t) w.tree
      let filled := c.snapshot.foldr (fun e v => v.putFile e.1 e.2) { w with tree := cleared }
      filled.withStore { moved with index := c.snapshot }

end Workspace

end ChangeGate.Repository
