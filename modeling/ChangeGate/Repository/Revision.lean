import ChangeGate.Repository.Store
import ChangeGate.Text.Decimal

/-! # Revisions

A **revision** names an object of a repository: a reference, and steps from it to parents, ancestors,
the object behind a tag, or a path inside a snapshot. The text is read into **steps**, which are taken
from left to right; the first step that cannot be taken is the error. -/

namespace ChangeGate.Repository

/-- An object that a revision can name. -/
inductive Object where
  /-- A commit. -/
  | commit (number : Nat)
  /-- A tag that describes a commit. -/
  | tag (number : Nat)
  /-- The snapshot of a directory. -/
  | tree (content : Snapshot)
  /-- The content of a file. -/
  | blob (content : Text.Bytes)
deriving DecidableEq, Repr

/-- Why a revision names nothing that can be compared. -/
inductive RevisionError where
  /-- No reference has the name. -/
  | unknown (name : Text)
  /-- A commit has no parent of that number, counted from zero. -/
  | noParent (number : Nat)
  /-- A directory holds no entry of the name. -/
  | noEntry (name : Text)
  /-- The entry of the name is a file where a directory is needed. -/
  | entryNotTree (name : Text)
  /-- A path inside a snapshot has an empty name. -/
  | emptyName
  /-- The text is no revision. -/
  | malformed (revision : Text)
  /-- The revision asks for something that is not supported. -/
  | unsupported
  /-- The object is a file. -/
  | notTree
deriving DecidableEq, Repr

/-- The wording of an error. -/
def RevisionError.message : RevisionError → Text
  | .unknown name => "revspec '".toList ++ name ++ "' not found".toList
  | .noParent n => "parent ".toList ++ Text.ofNat n ++ " does not exist".toList
  | .noEntry name => "the path '".toList ++ name ++ "' does not exist in the given tree".toList
  | .entryNotTree name => "the path '".toList ++ name ++ "' exists but is not a tree".toList
  | .emptyName => "invalid tree path given".toList
  | .malformed revision =>
    "failed to parse revision specifier - Invalid pattern '".toList ++ revision ++ "'".toList
  | .unsupported => "unimplemented".toList
  | .notTree => "the object can not be successfully peeled into a tree".toList

/-! ## Reading a revision -/

/-- A step of a revision; a part that cannot be read is left out. -/
inductive Step where
  /-- One more character of the name. -/
  | letter (c : Char)
  /-- The parent of a number, or the commit itself for zero. -/
  | parent (number : Option Nat)
  /-- The ancestor so many generations back along first parents. -/
  | ancestor (generations : Option Nat)
  /-- The object of a kind behind this one. -/
  | peel (kind : Option Text)
  /-- An earlier value of a reference. -/
  | earlier (which : Option Text)
  /-- The entry at a path. -/
  | path (p : Text)
deriving DecidableEq, Repr

/-- The largest number that may be written in a revision. -/
def numberLimit : Nat := 2147483647

/-- The digits that start a text, as a number that is one if there are none, and the rest. -/
def count (t : Text) : Option Nat × Text :=
  let ds := t.takeWhile Text.isDigit
  let n := if ds = [] then 1 else Text.digitsValue 10 ds
  (if n ≤ numberLimit then some n else none, t.dropWhile Text.isDigit)

/-- The content of braces that a text starts with, and what follows them. -/
def braces (t : Text) : Option Text × Text :=
  let inner := t.takeWhile (· != '\x7d')
  match t.dropWhile (· != '\x7d') with
  | [] => (none, [])
  | _ :: rest => (some inner, rest)

/-- The number of generations that a run of `~` with numbers goes back, with the rest of the text. -/
def generations : Nat → Text → Option Nat × Text
  | 0, t => (some 0, t)
  | fuel + 1, '~' :: t =>
    let (n, rest) := count t
    let (m, rest') := generations fuel rest
    (n.bind fun a => m.map (a + ·), rest')
  | _ + 1, t => (some 0, t)

/-- The steps of a text, which has no more characters than `fuel`. -/
def stepsWithin : Nat → Text → List Step
  | 0, _ => []
  | _ + 1, [] => []
  | fuel + 1, '^' :: '\x7b' :: t =>
    let (kind, rest) := braces t
    .peel kind :: stepsWithin fuel rest
  | fuel + 1, '^' :: t =>
    let (n, rest) := count t
    .parent n :: stepsWithin fuel rest
  | fuel + 1, '~' :: t =>
    let (n, rest) := generations (fuel + 1) ('~' :: t)
    .ancestor n :: stepsWithin fuel rest
  | _ + 1, ':' :: t => [.path t]
  | fuel + 1, '@' :: '\x7b' :: t =>
    let (which, rest) := braces t
    .earlier which :: stepsWithin fuel rest
  | fuel + 1, c :: t => .letter c :: stepsWithin fuel t

/-- The steps of a revision; a lone `@` stands for `HEAD`. -/
def steps (revision : Text) : List Step :=
  if revision = ['@'] then "HEAD".toList.map .letter else stepsWithin revision.length revision

/-! ## Names of references -/

/-- Whether a character may stand in the name of a reference. -/
def isNameChar (c : Char) : Bool := ' ' < c && !"~^:\\?[*".toList.contains c

/-- Whether two given characters stand next to each other in a text. -/
def hasPair (a b : Char) : Text → Bool
  | c :: d :: rest => (c == a && d == b) || hasPair a b (d :: rest)
  | _ => false

/-- Whether a text may stand between the slashes of a reference's name. -/
def isNamePart (t : Text) : Bool :=
  t != [] && t.head? != some '.' && t.all isNameChar && !hasPair '.' '.' t && !hasPair '@' '\x7b' t &&
    !".lock".toList.isSuffixOf t

/-- Whether a text is written in capitals and underscores. -/
def isCapital (t : Text) : Bool := t.all fun c => c.isUpper || c == '_'

/-- Whether a text can be the full name of a reference: a single part is written in capitals, and the
first of several parts is not. -/
def isReferenceName (t : Text) : Bool :=
  let parts := Text.pieces '/' t
  parts.all isNamePart && t.getLast? != some '.' &&
    (isCapital (parts.headD []) == (parts.length == 1))

/-- The full names that a short name may stand for, in the order in which they are tried. -/
def fullNames (name : Text) : List Text :=
  [name, "refs/".toList ++ name, "refs/tags/".toList ++ name, "refs/heads/".toList ++ name,
    "refs/remotes/".toList ++ name, "refs/remotes/".toList ++ name ++ "/HEAD".toList]

/-! ## Taking the steps -/

/-- What a reference points to, by its full name. -/
def Store.reference? (s : Store) (name : Text) : Option Target :=
  s.references.lookup (if name = "HEAD".toList then s.head else name)

/-- The object of a target. -/
def Target.object : Target → Object
  | .commit n => .commit n
  | .tag n => .tag n

/-- The object that a name stands for in a revision. -/
def Store.named (s : Store) (revision name : Text) : Except RevisionError Object :=
  if name = [] then .error (.malformed revision)
  else
    let candidates := fullNames name
    match candidates.findSome? fun n => if isReferenceName n then s.reference? n else none with
    | some target => .ok target.object
    | none =>
      -- a name with which not even the longest candidate could be a reference is no revision
      if (candidates.getLast?.map isReferenceName).getD false then .error (.unknown name)
      else .error (.malformed revision)

/-- The number of the commit behind an object. -/
def Object.commitNumber? : Object → Option Nat
  | .commit n => some n
  | .tag n => some n
  | _ => none

/-- The parent of a commit, counted from zero. -/
def Store.parent (s : Store) (number which : Nat) : Except RevisionError Nat :=
  match (s.commit? number).bind fun c => c.parents[which]? with
  | some p => .ok p
  | none => .error (.noParent which)

/-- The ancestor of a commit along first parents. -/
def Store.ancestor (s : Store) (number : Nat) : Nat → Except RevisionError Nat
  | 0 => .ok number
  | generations + 1 => (s.parent number 0).bind fun p => s.ancestor p generations

/-- The snapshot of an object: that of a commit, or a directory's own. -/
def Store.snapshot? (s : Store) : Object → Option Snapshot
  | .commit n => (s.commit? n).map Commit.snapshot
  | .tag n => (s.commit? n).map Commit.snapshot
  | .tree content => some content
  | .blob _ => none

/-- The entry at a path of names inside a snapshot. -/
def entryAt : Snapshot → Path → Except RevisionError Object
  | _, [] => .error .emptyName
  | content, name :: rest =>
    if name = [] then .error .emptyName
    else
      match content.entry? [name], content.below [name] with
      | none, [] => .error (.noEntry name)
      | none, inside => if rest = [] ∨ rest = [[]] then .ok (.tree inside) else entryAt inside rest
      | some entry, _ => if rest = [] then .ok (.blob entry.content) else .error (.entryNotTree name)

/-- An object on the way through a revision: the characters of a name, or what is reached. -/
inductive Progress where
  /-- The name has been read so far. -/
  | name (t : Text)
  /-- The object has been reached. -/
  | object (o : Object)
deriving DecidableEq, Repr

/-- The object that has been reached, the name being looked up when it is all there is. -/
def Store.reached (s : Store) (revision : Text) : Progress → Except RevisionError Object
  | .name t => s.named revision t
  | .object o => .ok o

/-- The object of a kind behind an object. -/
def Store.peel (s : Store) (revision kind : Text) (o : Object) : Except RevisionError Object :=
  if kind = [] then
    .ok (match o with
      | .tag n => .commit n
      | other => other)
  else if kind = "commit".toList then
    (o.commitNumber?.map Object.commit).elim (.error (.malformed revision)) .ok
  else if kind = "tree".toList then
    ((s.snapshot? o).map Object.tree).elim (.error (.malformed revision)) .ok
  else
    match o with
    | .tag n => if kind = "tag".toList then .ok (.tag n) else .error (.malformed revision)
    | .blob content =>
      if kind = "blob".toList then .ok (.blob content) else .error (.malformed revision)
    | _ => .error (.malformed revision)

/-- One step of a revision. -/
def Store.take (s : Store) (revision : Text) (sofar : Progress) :
    Step → Except RevisionError Progress
  | .letter c =>
    match sofar with
    | .name t => .ok (.name (t ++ [c]))
    | .object _ => .error (.malformed revision)
  | .parent which => do
    let o ← s.reached revision sofar
    match which, o.commitNumber? with
    | some 0, some n => .ok (.object (.commit n))
    | some (k + 1), some n => (s.parent n k).map fun p => .object (.commit p)
    | _, _ => .error (.malformed revision)
  | .ancestor none => .error (.malformed revision)
  | .ancestor (some k) => do
    let o ← s.reached revision sofar
    match o.commitNumber? with
    | some n => (s.ancestor n k).map fun p => .object (.commit p)
    | none => .error (.malformed revision)
  | .peel kind => do
    let o ← s.reached revision sofar
    match kind with
    | some k => (s.peel revision k o).map .object
    | none => .error (.malformed revision)
  | .earlier _ => .error (.malformed revision)
  | .path p =>
    if sofar = .name [] then .error .unsupported
    else do
      let o ← s.reached revision sofar
      match s.snapshot? o with
      | none => .error .notTree
      | some content =>
        if p = [] then .ok (.object (.tree content))
        else (entryAt content (Text.pieces '/' p)).map .object

/-- The object that a revision names. -/
def Store.resolve (s : Store) (revision : Text) : Except RevisionError Object := do
  let last ← (steps revision).foldlM (s.take revision) (.name [])
  s.reached revision last

/-- The snapshot that a revision names. -/
def Store.resolveSnapshot (s : Store) (revision : Text) : Except RevisionError Snapshot := do
  let o ← s.resolve revision
  match s.snapshot? o with
  | some content => .ok content
  | none => .error .notTree

end ChangeGate.Repository
