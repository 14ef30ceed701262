import ChangeGate.Files.Path

/-! # Snapshots of a working copy

An **entry** is what version control keeps of a file: its kind and its content. A **snapshot** maps
paths to entries. -/

namespace ChangeGate.Repository

/-- The kinds of entries. -/
inductive EntryKind where
  /-- A file. -/
  | regular
  /-- A file that may be executed. -/
  | executable
  /-- A symbolic link, whose content is its target. -/
  | link
deriving DecidableEq, Repr

/-- What is kept of a file. -/
structure Entry where
  kind : EntryKind
  content : Text.Bytes
deriving DecidableEq, Repr

/-- Entries by their paths; the first one for a path counts. -/
abbrev Snapshot := List (Path × Entry)

namespace Snapshot

/-- The entry at a path. -/
def entry? (s : Snapshot) (p : Path) : Option Entry := s.lookup p

/-- The paths that have an entry. -/
def paths (s : Snapshot) : List Path := s.map (·.1)

/-- A snapshot without the entry at a path. -/
def erase (s : Snapshot) (p : Path) : Snapshot := s.filter fun e => e.1 != p

/-- Whether one of two different paths lies below the other, so that only one of them can be a file. -/
def conflicts (p q : Path) : Bool := p != q && (p.isPrefixOf q || q.isPrefixOf p)

/-- A snapshot with an entry at a path, in the place of what stands in its way. -/
def insert (s : Snapshot) (p : Path) (e : Entry) : Snapshot :=
  (p, e) :: s.filter fun f => f.1 != p && !conflicts p f.1

/-- The entries below a directory, by their paths from there. -/
def below (s : Snapshot) (directory : Path) : Snapshot :=
  s.filterMap fun (p, e) =>
    if directory.isPrefixOf p && p != directory then some (p.drop directory.length, e) else none

@[simp] theorem entry?_nil (p : Path) : entry? [] p = none := rfl

@[simp] theorem paths_nil : paths [] = [] := rfl

end Snapshot

end ChangeGate.Repository
