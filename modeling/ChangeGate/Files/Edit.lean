import ChangeGate.Files.Tree

/-! # Editing a file tree

The edits that a user makes to a working directory: writing files with the directories they need,
removing and renaming, linking, and changing whether a file may be executed. An edit that cannot be
made leaves the tree as it is. -/

namespace ChangeGate.Files.Tree

/-- One step of making directories: the directory `name` of the directory `here`. -/
def enterDirectory (state : Tree × Option Path) (name : Text) : Tree × Option Path :=
  match state.2 with
  | none => state
  | some here =>
    match walk state.1 40 here [name] with
    | .ok ⟨path, none⟩ => (state.1.insert path .directory, some path)
    | .ok ⟨path, some node⟩ => (state.1, if node.isDirectory then some path else none)
    | .error _ => (state.1, none)

/-- A tree with all the directories of a path, and the place of the last one. -/
def makeDirectories (t : Tree) (here : Path) (names : Path) : Tree × Option Path :=
  names.foldl enterDirectory (t, some here)

/-- The names of a path without empty ones. -/
def plainNames (path : Text) : Path := (Text.pieces '/' path).filter (· != [])

/-- A tree with the directory at a path. -/
def makeDirectory (t : Tree) (cwd : Path) (path : Text) : Tree :=
  (t.makeDirectories cwd (plainNames path)).1

/-- The place of a path whose directories are there; a link at its end is not followed. -/
def seat? (t : Tree) (cwd : Path) (path : Text) : Option Path :=
  match (plainNames path).getLast? with
  | none => none
  | some last =>
    match walk t 40 cwd (plainNames path).dropLast with
    | .ok ⟨here, some node⟩ => if node.isDirectory then some (here ++ [last]) else none
    | _ => none

/-- A tree with a file at a path; a file that is there keeps its permissions. -/
def write (t : Tree) (cwd : Path) (path : Text) (content : Text.Bytes) : Tree :=
  let made := (t.makeDirectories cwd (plainNames path).dropLast).1
  match walk made 40 cwd (plainNames path) with
  | .ok ⟨place, none⟩ => made.insert place (.file content false)
  | .ok ⟨place, some (.file _ executable)⟩ => made.insert place (.file content executable)
  | _ => made

/-- A tree without what stands at a path. -/
def delete (t : Tree) (cwd : Path) (path : Text) : Tree :=
  (t.seat? cwd path).elim t t.remove

/-- A tree in which what stands at one path stands at another. -/
def rename (t : Tree) (cwd : Path) (path goal : Text) : Tree :=
  let made := (t.makeDirectories cwd (plainNames goal).dropLast).1
  match made.seat? cwd path, made.seat? cwd goal with
  | some source, some target =>
    let moved := made.nodes.filterMap fun e =>
      if source.isPrefixOf e.1 then some (target ++ e.1.drop source.length, e.2) else none
    let kept := ((made.remove source).remove target).nodes
    if moved.isEmpty then made else ⟨moved ++ kept⟩
  | _, _ => made

/-- A tree with a symbolic link at a path where nothing stands. -/
def link (t : Tree) (cwd : Path) (path goal : Text) : Tree :=
  let made := (t.makeDirectories cwd (plainNames path).dropLast).1
  match made.seat? cwd path with
  | some place => if (made.node? place).isSome then made else made.insert place (.link goal)
  | none => made

/-- A tree in which the file at a path may be executed or not. -/
def setExecutable (t : Tree) (cwd : Path) (path : Text) (executable : Bool) : Tree :=
  match walk t 40 cwd (plainNames path) with
  | .ok ⟨place, some (.file content _)⟩ => t.insert place (.file content executable)
  | _ => t

end ChangeGate.Files.Tree
