import ChangeGate.Repository.Snapshot

/-! # Ignored files

A file `.gitignore` lists patterns for the files of its directory that are not to be recorded. Each
line is a **rule**; **Pattern.matches** decides a path by the pieces of the pattern, and a path is
**ignored** when the last rule that matches it, the deepest directory first, is not negated, or when
a directory on the way to it is ignored. -/

namespace ChangeGate.Repository.Ignore

/-! ## Patterns -/

/-- A piece of a pattern. -/
inductive Piece where
  /-- A character that stands for itself. -/
  | literal (c : Char)
  /-- One character other than a slash. -/
  | one
  /-- Any characters, slashes only where `crossing`. -/
  | run (crossing : Bool)
  /-- Any number of whole directories. -/
  | directories
  /-- One character inside or outside of ranges. -/
  | set (outside : Bool) (ranges : List (Char × Char))
deriving DecidableEq, Repr

/-- The ranges between brackets: the first character may be a closing bracket. -/
def ranges : Text → List (Char × Char) → Option (List (Char × Char) × Text)
  | [], _ => none
  | ']' :: rest, c :: acc => some (c :: acc, rest)
  | '\\' :: c :: rest, acc => ranges rest (acc ++ [(c, c)])
  | c :: '-' :: d :: rest, acc =>
    if d = ']' then some (acc ++ [(c, c), ('-', '-')], rest) else ranges rest (acc ++ [(c, d)])
  | c :: rest, acc => ranges rest (acc ++ [(c, c)])

/-- The pieces of a pattern with no more characters than `fuel`; `start` says that a directory starts
here, where two stars may stand for whole directories. -/
def piecesWithin : Nat → Bool → Text → List Piece
  | 0, _, _ => []
  | _ + 1, _, [] => []
  | fuel + 1, _, '\\' :: c :: rest => .literal c :: piecesWithin fuel (c == '/') rest
  | _ + 1, true, ['*', '*'] => [.run true]
  | fuel + 1, true, '*' :: '*' :: '/' :: rest => .directories :: piecesWithin fuel true rest
  | fuel + 1, _, '*' :: rest =>
    .run false :: piecesWithin fuel false (rest.dropWhile (· == '*'))
  | fuel + 1, _, '?' :: rest => .one :: piecesWithin fuel false rest
  | fuel + 1, _, '[' :: rest =>
    let outside := rest.head? == some '!' || rest.head? == some '^'
    match ranges (if outside then rest.drop 1 else rest) [] with
    | some (rs, rest') => .set outside rs :: piecesWithin fuel false rest'
    | none => .literal '[' :: piecesWithin fuel false rest
  | fuel + 1, _, c :: rest => .literal c :: piecesWithin fuel (c == '/') rest

/-- The texts that remain when a run has taken none, one, two or more characters. -/
def afterRun (crossing : Bool) : Text → List Text
  | [] => [[]]
  | c :: rest => (c :: rest) :: (if crossing || c != '/' then afterRun crossing rest else [])

/-- The texts that remain when none, one, two or more whole directories have been taken. -/
def afterDirectories : Text → List Text
  | [] => []
  | c :: rest => if c = '/' then rest :: afterDirectories rest else afterDirectories rest

/-- Whether pieces match a whole text. -/
def matchesPieces : List Piece → Text → Bool
  | [], t => t.isEmpty
  | .literal c :: ps, t =>
    match t with
    | d :: rest => d == c && matchesPieces ps rest
    | [] => false
  | .one :: ps, t =>
    match t with
    | d :: rest => d != '/' && matchesPieces ps rest
    | [] => false
  | .set outside rs :: ps, t =>
    match t with
    | d :: rest =>
      d != '/' && (rs.any (fun r => r.1 ≤ d && d ≤ r.2) != outside) && matchesPieces ps rest
    | [] => false
  | .run crossing :: ps, t => (afterRun crossing t).any (matchesPieces ps)
  | .directories :: ps, t => matchesPieces ps t || (afterDirectories t).any (matchesPieces ps)

/-! ## Rules -/

/-- A line of a list of ignored files. -/
structure Rule where
  /-- The paths that match are kept after all. -/
  negated : Bool
  /-- Only directories match. -/
  directory : Bool
  /-- The whole path from the list's directory is matched, not its last name alone. -/
  anchored : Bool
  /-- The pattern. -/
  pattern : List Piece
deriving DecidableEq, Repr

/-- A line without the spaces at its end that no backslash precedes. -/
def trimSpaces (t : Text) : Text :=
  let spaces := t.reverse.takeWhile (· == ' ')
  let body := t.reverse.dropWhile (· == ' ')
  match body, spaces with
  | '\\' :: _, s :: _ => (s :: body).reverse
  | _, _ => body.reverse

/-- The rule of a line; blank lines and comments hold none. -/
def rule? (line : Text) : Option Rule :=
  let line := trimSpaces line
  if line = [] ∨ line.head? = some '#' then none
  else
    let negated := line.head? == some '!'
    let body := if negated then line.drop 1 else line
    let directory := body.getLast? == some '/'
    let body := if directory then body.dropLast else body
    let anchored := body.contains '/'
    let body := if body.head? = some '/' then body.drop 1 else body
    if body = [] then none
    else some ⟨negated, directory, anchored, piecesWithin body.length true body⟩

/-- The rules of a list. -/
def rules (t : Text) : List Rule := (Text.lines t).filterMap rule?

/-- Whether a rule matches a path that starts at the list's directory. -/
def Rule.matches (r : Rule) (path : Path) (isDirectory : Bool) : Bool :=
  (isDirectory || !r.directory) &&
    matchesPieces r.pattern (if r.anchored then Files.relative path else path.getLast?.getD [])

/-- What the rules of one list say about a path: the last one that matches decides. -/
def decision? (rs : List Rule) (path : Path) (isDirectory : Bool) : Option Bool :=
  (rs.reverse.find? fun r => r.matches path isDirectory).map fun r => !r.negated

/-- Whether a path itself is ignored by the lists on the way to it; `lists` gives the list of a
directory, and deeper lists come first. -/
def ignoredHere (lists : Path → List Rule) (path : Path) (isDirectory : Bool) : Bool :=
  let depths := (List.range path.length).reverse
  (depths.findSome? fun n => decision? (lists (path.take n)) (path.drop n) isDirectory).getD false

/-- Whether a file is ignored, or a directory on the way to it. -/
def ignored (lists : Path → List Rule) (path : Path) : Bool :=
  ((List.range path.length).any fun n => n != 0 && ignoredHere lists (path.take n) true) ||
    ignoredHere lists path false

end ChangeGate.Repository.Ignore
