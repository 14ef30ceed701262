import ChangeGate.Repository.Store

/-! # File trees

A **tree** maps absolute paths to nodes: files, symbolic links, directories, and directories that hold
the store of a repository. **walk** follows a path name by name, through links, as far as the file
system allows; reading, opening and the other operations first walk and then act on the node that is
found. -/

namespace ChangeGate.Files

open Repository (Store)

/-- What stands at a path. -/
inductive Node where
  /-- A file, and whether it may be executed. -/
  | file (content : Text.Bytes) (executable : Bool)
  /-- A symbolic link to a path. -/
  | link (target : Text)
  /-- A directory. -/
  | directory
  /-- The directory of a repository's store. -/
  | store (content : Store)
deriving DecidableEq, Repr

/-- Whether other nodes may stand below a node. -/
def Node.isDirectory : Node → Bool
  | .directory => true
  | .store _ => true
  | _ => false

/-- A file system: nodes by their absolute paths. The top is always a directory. -/
structure Tree where
  nodes : List (Path × Node)
deriving DecidableEq, Repr

namespace Tree

/-- The node at an absolute path, links on the way not followed. -/
def node? (t : Tree) (p : Path) : Option Node :=
  if p = [] then some .directory else t.nodes.lookup p

/-- A tree with a node at a path. -/
def insert (t : Tree) (p : Path) (n : Node) : Tree :=
  ⟨(p, n) :: t.nodes.filter fun e => e.1 != p⟩

/-- A tree without a path and all that is below it. -/
def remove (t : Tree) (p : Path) : Tree := ⟨t.nodes.filter fun e => !p.isPrefixOf e.1⟩

/-! ## Walking a path -/

/-- Where a walk ends: a place, and the node that stands there or none. -/
structure Place where
  path : Path
  node : Option Node
deriving DecidableEq, Repr

/-- A walk from a directory along names; at a link, `follow` walks on from the link's own directory
or from the top. -/
def walkWith (t : Tree) (follow : Path → Path → Except Cause Place) :
    Path → Path → Except Cause Place
  | here, [] => .ok ⟨here, t.node? here⟩
  | here, name :: rest =>
    if name = ['.'] then walkWith t follow here rest
    else if name = ['.', '.'] then walkWith t follow here.dropLast rest
    else if nameLimit < Text.byteLength name then .error .tooLong
    else
      let next := here ++ [name]
      match t.node? next with
      | none => if rest = [] then .ok ⟨next, none⟩ else .error .absent
      | some (.link target) =>
        follow (if isAbsolute target then [] else here) (names target ++ rest)
      | some (.file content executable) =>
        if rest = [] then .ok ⟨next, some (.file content executable)⟩ else .error .notDirectory
      | some _ => walkWith t follow next rest

/-- A walk from a directory along names that follows at most so many links. -/
def walk (t : Tree) : Nat → Path → Path → Except Cause Place
  | 0 => walkWith t fun _ _ => .error .tooManyLinks
  | links + 1 => walkWith t (walk t links)

/-- The place that a path given as a text leads to from a working directory. -/
def find (t : Tree) (cwd : Path) (path : Text) : Except Cause Place :=
  if path.contains '\x00' then .error .badPath
  else if path = [] then .error .absent
  else if pathLimit ≤ Text.byteLength path then .error .tooLong
  else walk t 40 (if isAbsolute path then [] else cwd) (names path)

/-! ## Reading and writing -/

/-- The bytes of the file at a path. -/
def read (t : Tree) (cwd : Path) (path : Text) : Except Cause Text.Bytes :=
  match t.find cwd path with
  | .error e => .error e
  | .ok place =>
    match place.node with
    | none => .error .absent
    | some (.file content _) => .ok content
    | some _ => .error .directory

/-- The text of the file at a path. -/
def readText (t : Tree) (cwd : Path) (path : Text) : Except Cause Text :=
  match t.read cwd path with
  | .error e => .error e
  | .ok bytes => (Text.decode? bytes).elim (.error .notText) .ok

/-- Whether anything stands at a path. -/
def occupied (t : Tree) (cwd : Path) (path : Text) : Bool :=
  match t.find cwd path with
  | .ok place => place.node.isSome
  | .error _ => false

/-- Whether a file stands at a path. -/
def isFile (t : Tree) (cwd : Path) (path : Text) : Bool := (t.read cwd path).toBool

/-- The place of the file that a path opens for writing at its end. Where nothing stands in a directory
that is there, a file will be made. -/
def opened (t : Tree) (cwd : Path) (path : Text) : Except Cause Path :=
  match t.find cwd path with
  | .error e =>
    -- a slash at the end asks for a directory, and writing makes none
    match t.find cwd (path.reverse.dropWhile (· == '/')).reverse with
    | .ok ⟨_, none⟩ => if endsInSlash path then .error .directory else .error e
    | _ => .error e
  | .ok place =>
    match place.node with
    | none => .ok place.path
    | some (.file _ _) => .ok place.path
    | some _ => .error .directory

/-- A tree in which bytes are added to the end of the file at a place, which is made if nothing stands
there. -/
def addTo (t : Tree) (p : Path) (bytes : Text.Bytes) : Tree :=
  match t.node? p with
  | some (.file content executable) => t.insert p (.file (content ++ bytes) executable)
  | _ => t.insert p (.file bytes false)

end Tree

end ChangeGate.Files
