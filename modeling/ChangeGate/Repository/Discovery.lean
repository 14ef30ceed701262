import ChangeGate.Files.Tree

/-! # Finding a repository

The repository of a directory is found by looking for `.git` in the directory and then in those above
it. There it is the directory of the store, or a file that says where that directory is. -/

namespace ChangeGate.Repository

open Files (Tree Node Cause)

/-- A store and where it is. -/
structure Located where
  /-- The place of the store. -/
  place : Path
  /-- The store. -/
  store : Store
deriving DecidableEq, Repr

/-- The directory of the files that a store keeps: the one that holds the store, also if the search
came to the store through a file or a link elsewhere. -/
def Located.workdir (l : Located) : Path := l.place.dropLast

/-- Why no repository is found. -/
inductive DiscoveryError where
  /-- The directory cannot be reached. -/
  | unreachable (path : Text) (cause : Cause)
  /-- There is no repository there or above. -/
  | absent (path : Text)
  /-- The file in the place of the store is unreadable. -/
  | malformed (path : Text)
deriving DecidableEq, Repr

/-- The wording of an error. -/
def DiscoveryError.message : DiscoveryError → Text
  | .unreachable path cause =>
    "failed to resolve path '".toList ++ path ++ "': ".toList ++ cause.phrase
  | .absent path => "could not find repository at '".toList ++ path ++ "'".toList
  | .malformed path => "the `.git` file at '".toList ++ path ++ "' is malformed".toList

/-- The name of a store in the directory of its files. -/
def storeName : Text := ".git".toList

/-- What stands where a store is looked for. -/
inductive Finding where
  /-- A store. -/
  | found (l : Located)
  /-- Nothing, so that the search goes on above. -/
  | nothing
  /-- Something that ends the search. -/
  | refused (e : DiscoveryError)

/-- The place that a file in the place of a store names, if it is written as it should be. -/
def pointer? (content : Text.Bytes) : Option Text :=
  let t := Text.trimEnd (Text.decodeLossy content)
  match Text.strip? "gitdir:".toList t with
  | some (c :: rest) => some (Text.trimStart (c :: rest))
  | _ => none

/-- What is found in a directory; `start` is the path that the search began with. -/
def findingAt (t : Tree) (start : Text) (directory : Path) : Finding :=
  let place := directory ++ [storeName]
  match Files.Tree.walk t 40 directory [storeName] with
  | .ok ⟨real, some (.store s)⟩ => .found ⟨real, s⟩
  | .ok ⟨_, some (.file content _)⟩ =>
    match pointer? content with
    | none => .refused (.malformed (Files.absolute place))
    | some target =>
      match t.find directory target with
      | .ok ⟨real, some (.store s)⟩ => .found ⟨real, s⟩
      | .ok ⟨_, some _⟩ => .refused (.absent start)
      | .ok ⟨real, none⟩ => .refused (.unreachable (Files.absolute real) .absent)
      | .error c => .refused (.unreachable target c)
  | _ =>
    match t.node? directory with
    | some (.store s) => .found ⟨directory, s⟩
    | _ => .nothing

/-- The search in a directory and those above it, of which there are `depth`. -/
def searchUp (t : Tree) (start : Text) : Nat → Path → Except DiscoveryError Located
  | depth, directory =>
    match findingAt t start directory with
    | .found l => .ok l
    | .refused e => .error e
    | .nothing =>
      match depth with
      | 0 => .error (.absent start)
      | d + 1 => searchUp t start d directory.dropLast

/-- The repository of the directory at a path. -/
def discover (t : Tree) (cwd : Path) (path : Text) : Except DiscoveryError Located :=
  match t.find cwd path with
  | .error c => .error (.unreachable path c)
  | .ok ⟨_, none⟩ => .error (.unreachable path .absent)
  | .ok ⟨place, some _⟩ => searchUp t path place.length place

end ChangeGate.Repository
