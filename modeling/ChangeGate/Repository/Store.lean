import ChangeGate.Repository.Snapshot

/-! # The store of a repository

A repository keeps **commits**, each with its snapshot and its parents, names for them, the name that
`HEAD` stands for, and the **index**, the snapshot that the next commit will record. -/

namespace ChangeGate.Repository

/-- A recorded snapshot with the commits it follows, given by their numbers. -/
structure Commit where
  snapshot : Snapshot
  parents : List Nat
deriving DecidableEq, Repr

/-- What a reference points to. -/
inductive Target where
  /-- A commit. -/
  | commit (number : Nat)
  /-- A tag that describes a commit. -/
  | tag (number : Nat)
deriving DecidableEq, Repr

/-- The number of the commit that a target leads to. -/
def Target.number : Target → Nat
  | .commit n => n
  | .tag n => n

/-- The content of a repository. -/
structure Store where
  /-- The commits; their places are their numbers. -/
  commits : List Commit
  /-- The references by their full names. -/
  references : List (Text × Target)
  /-- The full name of the reference that `HEAD` stands for. -/
  head : Text
  /-- The snapshot that the next commit records. -/
  index : Snapshot
deriving DecidableEq, Repr

namespace Store

/-- The full name of a branch. -/
def branchName (name : Text) : Text := "refs/heads/".toList ++ name

/-- The full name of a tag. -/
def tagName (name : Text) : Text := "refs/tags/".toList ++ name

/-- A repository without commits, on the branch `main`. -/
def empty : Store := ⟨[], [], branchName "main".toList, []⟩

/-- The commit of a number. -/
def commit? (s : Store) (number : Nat) : Option Commit := s.commits[number]?

/-- The number of the commit that `HEAD` stands for, unless its branch is not born yet. -/
def headNumber? (s : Store) : Option Nat := (s.references.lookup s.head).map Target.number

/-- The commit that `HEAD` stands for. -/
def headCommit? (s : Store) : Option Commit := s.headNumber?.bind s.commit?

/-- A repository in which a reference points to a target. -/
def setReference (s : Store) (name : Text) (target : Target) : Store :=
  { s with references := (name, target) :: s.references.filter fun r => r.1 != name }

/-- The index recorded as a commit on the branch of `HEAD`. -/
def commit (s : Store) : Store :=
  setReference { s with commits := s.commits ++ [⟨s.index, s.headNumber?.toList⟩] } s.head
    (.commit s.commits.length)

/-- A branch at the commit of `HEAD`. -/
def branch (s : Store) (name : Text) : Store :=
  match s.headNumber? with
  | some n => s.setReference (branchName name) (.commit n)
  | none => s

/-- A tag at the commit of `HEAD`, plain or with a description. -/
def tag (s : Store) (name : Text) (described : Bool) : Store :=
  match s.headNumber? with
  | some n => s.setReference (tagName name) (if described then .tag n else .commit n)
  | none => s

/-- `HEAD` moved to a branch, which need not be born. -/
def setHead (s : Store) (name : Text) : Store := { s with head := branchName name }

end Store

end ChangeGate.Repository
