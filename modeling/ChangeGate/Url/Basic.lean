import ChangeGate.Text.Blank
import ChangeGate.Url.HostName

/-! # Addresses

An address has a scheme, perhaps an authority with a host, a path, and perhaps a query and a fragment.
**Url.ofText** reads an address from a text: white space around it is dropped, the path loses its
segments of dots, and what cannot stand in a part is encoded. **target** is what a request for the
address asks for. -/

namespace ChangeGate

/-- An address, by its written parts. -/
structure Url where
  /-- The scheme, in small letters. -/
  scheme : Text
  /-- User, host and port, if the address has a host. -/
  authority : Option Text
  /-- The path. -/
  path : Text
  /-- What follows the question mark. -/
  query : Option Text
  /-- What follows the number sign. -/
  fragment : Option Text
deriving DecidableEq, Repr

namespace Url

/-- The text of an address. -/
def text (u : Url) : Text :=
  u.scheme ++ [':'] ++ (u.authority.elim [] fun a => "//".toList ++ a) ++ u.path ++
    (u.query.elim [] fun q => '?' :: q) ++ (u.fragment.elim [] fun f => '#' :: f)

/-- What a request for an address asks its server for. -/
def target (u : Url) : Text := u.path ++ (u.query.elim [] fun q => '?' :: q)

/-- An address with a further text in its query. -/
def addQuery (u : Url) (t : Text) : Url :=
  match u.query with
  | none => { u with query := some t }
  | some [] => { u with query := some t }
  | some q => { u with query := some (q ++ '&' :: t) }

/-- Whether an address names a host. -/
def hasHost (u : Url) : Bool := u.authority.any (!·.isEmpty)

/-! ## Schemes -/

/-- The usual port of a scheme whose addresses always have a host. -/
def usualPort? (scheme : Text) : Option Nat :=
  [("http".toList, 80), ("https".toList, 443), ("ws".toList, 80), ("wss".toList, 443),
    ("ftp".toList, 21)].lookup scheme

/-- Whether addresses of a scheme always have a host. -/
def isSpecial (scheme : Text) : Bool := (usualPort? scheme).isSome

/-- Characters of a scheme after its first letter. -/
def isSchemeChar (c : Char) : Bool := Text.isAsciiAlphanumeric c || "+-.".toList.contains c

/-- The scheme of an address and what follows the colon. -/
def scheme? (t : Text) : Option (Text × Text) :=
  match t.takeWhile isSchemeChar, t.dropWhile isSchemeChar with
  | c :: cs, ':' :: rest => if c.isAlpha then some (lower (c :: cs), rest) else none
  | _, _ => none

/-! ## Authorities -/

/-- Whether a character ends an authority. -/
def endsAuthority (special : Bool) (c : Char) : Bool :=
  c == '/' || c == '?' || c == '#' || (special && c == '\\')

/-- What precedes the last sign of a list, if there is one, and what follows it. -/
def splitLast (sign : Char) (t : Text) : Option Text × Text :=
  match t.reverse.dropWhile (· != sign) with
  | [] => (none, t)
  | _ :: front => (some front.reverse, (t.reverse.takeWhile (· != sign)).reverse)

/-- User and password as they are written, with the sign that follows. -/
def userText (t : Text) : Text :=
  let name := encode userSet (t.takeWhile (· != ':'))
  let word := encode userSet ((t.dropWhile (· != ':')).drop 1)
  if name = [] ∧ word = [] then []
  else name ++ (if word = [] then [] else ':' :: word) ++ ['@']

/-- The host and the port of an authority: a colon inside of brackets starts no port. -/
def splitPort (t : Text) : Text × Option Text :=
  match splitLast ':' t with
  | (some front, port) => if port.contains ']' then (t, none) else (front, some port)
  | (none, _) => (t, none)

/-- A port as it is written after the host: the usual one is left out. -/
def portText (scheme : Text) : Option Text → Except Fault Text
  | none => .ok []
  | some [] => .ok []
  | some ds =>
    if !ds.all Text.isDigit || 65535 < Text.digitsValue 10 ds then .error .badPort
    else if usualPort? scheme = some (Text.digitsValue 10 ds) then .ok []
    else .ok (':' :: Text.ofNat (Text.digitsValue 10 ds))

/-- An authority as it is written. -/
def authority? (scheme t : Text) : Except Fault Text :=
  let (user, place) := splitLast '@' t
  let (name, port) := splitPort place
  if isSpecial scheme && name.isEmpty then .error .emptyHost
  else do
    let host ← host? (isSpecial scheme) name
    let end_ ← portText scheme port
    .ok ((user.elim [] userText) ++ host ++ end_)

/-! ## Paths -/

/-- A segment that stands for the directory itself. -/
def isSingleDot (t : Text) : Bool := [".".toList, "%2e".toList].contains (lower t)

/-- A segment that stands for the directory above. -/
def isDoubleDot (t : Text) : Bool :=
  ["..".toList, ".%2e".toList, "%2e.".toList, "%2e%2e".toList].contains (lower t)

/-- The segments so far, the last one first, with one more; at the end of a path a segment of dots
leaves an empty segment. -/
def pushSegment (stack : List Text) (last : Bool) (t : Text) : List Text :=
  let mark (s : List Text) := if last then [] :: s else s
  if isDoubleDot t then mark (stack.drop 1)
  else if isSingleDot t then mark stack
  else encode pathSet t :: stack

/-- The segments of a path, the last one first, with further ones. -/
def pushSegments (stack : List Text) : List Text → List Text
  | [] => stack
  | [t] => pushSegment stack true t
  | t :: u :: rest => pushSegments (pushSegment stack false t) (u :: rest)

/-- The path of segments, the last one first. -/
def pathText (stack : List Text) : Text := stack.reverse.flatMap ('/' :: ·)

/-- A path as it is written; it starts with a slash or is empty. -/
def absolutePath (special : Bool) (t : Text) : Text :=
  let slashed := if special then t.map fun c => if c = '\\' then '/' else c else t
  match slashed with
  | [] => if special then ['/'] else []
  | '/' :: rest => pathText (pushSegments [] (Text.pieces '/' rest))
  | rest => pathText (pushSegments [] (Text.pieces '/' rest))

/-! ## Whole addresses -/

/-- What precedes the first sign of a list, and what follows it, if it is there. -/
def splitFirst (sign : Char) (t : Text) : Text × Option Text :=
  match t.dropWhile (· != sign) with
  | [] => (t, none)
  | _ :: rest => (t.takeWhile (· != sign), some rest)

/-- The text of an address without what is dropped before it is read: control characters and blanks at
its ends, tabs and line ends everywhere. -/
def cleaned (t : Text) : Text :=
  let drop := List.dropWhile fun c : Char => c.toNat ≤ 0x20
  (drop (drop t).reverse).reverse.filter fun c => c != '\t' && c != '\n' && c != '\x0d'

/-- The scheme of files, whose addresses may have a host. -/
def fileScheme : Text := "file".toList

/-- Whether a character is a slash of either kind. -/
def isSlash (c : Char) : Bool := c == '/' || c == '\\'

/-- The host and the path of the address of a file; the host of the computer itself is left out. -/
def fileParts (t : Text) : Except Fault (Text × Text) :=
  match t with
  | a :: b :: rest =>
    if isSlash a && isSlash b then
      let name := rest.takeWhile fun c => !endsAuthority true c
      let path := rest.dropWhile fun c => !endsAuthority true c
      if name = [] then .ok ([], path)
      else (host? true name).map fun h => (if h = "localhost".toList then [] else h, path)
    else .ok ([], t)
  | _ => .ok ([], t)

/-- The address of the parts that follow the colon of a scheme. -/
def ofParts (scheme hierarchy : Text) (query fragment : Option Text) : Except Fault Url :=
  let special := isSpecial scheme || scheme == fileScheme
  let whole (authority : Option Text) (path : Text) : Url :=
    ⟨scheme, authority, path, query.map (encode (querySet special)), fragment.map (encode fragmentSet)⟩
  let afterAuthority (t : Text) : Except Fault Url :=
    (authority? scheme (t.takeWhile fun c => !endsAuthority special c)).map fun a =>
      whole (some a) (absolutePath special (t.dropWhile fun c => !endsAuthority special c))
  if scheme = fileScheme then
    (fileParts hierarchy).map fun (host, path) => whole (some host) (absolutePath true path)
  else if special then afterAuthority (hierarchy.dropWhile isSlash)
  else
    match hierarchy with
    | '/' :: '/' :: rest => afterAuthority rest
    | '/' :: rest => .ok (whole none (absolutePath false ('/' :: rest)))
    | rest => .ok (whole none (encode isControl rest))

/-- The address that a text gives. -/
def ofText (t : Text) : Except Fault Url :=
  match scheme? (cleaned t) with
  | none => .error .relative
  | some (scheme, rest) =>
    let (front, fragment) := splitFirst '#' rest
    let (hierarchy, query) := splitFirst '?' front
    ofParts scheme hierarchy query fragment

end Url

end ChangeGate
