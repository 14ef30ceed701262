import ChangeGate.Text.Lines
import ChangeGate.Url.Percent

/-! # Hosts of addresses

A host is a name, an address of four numbers, or an address in brackets. **host?** gives the form in
which a host is written: names in small letters, and addresses of four numbers in decimal. -/

namespace ChangeGate.Url

/-- Why an address is refused. -/
inductive Fault where
  /-- There is no scheme, and nothing that the address could be relative to. -/
  | relative
  /-- The host is missing. -/
  | emptyHost
  /-- The host cannot be a name. -/
  | badName
  /-- The host is not the address of four numbers that it seems to be. -/
  | badNumbers
  /-- The host is not the address in brackets that it seems to be. -/
  | badBrackets
  /-- The port is no number of 16 bits. -/
  | badPort
deriving DecidableEq, Repr

/-- The wording of a fault. -/
def Fault.message : Fault → Text
  | .relative => "relative URL without a base".toList
  | .emptyHost => "empty host".toList
  | .badName => "invalid international domain name".toList
  | .badNumbers => "invalid IPv4 address".toList
  | .badBrackets => "invalid IPv6 address".toList
  | .badPort => "invalid port number".toList

/-- Characters that no host may hold. -/
def forbiddenInHost (c : Char) : Bool := "\x00\t\n\x0d #/:<>?@[\\]^|".toList.contains c

/-- Characters that no name of a host may hold. -/
def forbiddenInName (c : Char) : Bool :=
  forbiddenInHost c || c.toNat < 0x20 || Text.isBlank c || c == '\x7f' || c == '%'

/-- A text whose letters of ASCII are small. -/
def lower (t : Text) : Text := t.map Char.toLower

/-- A number in decimal, or in hexadecimal after `0x`, or in octal after `0`. -/
def number? (t : Text) : Option Nat :=
  let value (base : Nat) (ds : Text) : Option Nat :=
    if ds.all fun c => (Text.hexDigit? c).any (· < base) then some (Text.digitsValue base ds) else none
  match t with
  | [] => none
  | '0' :: 'x' :: ds => value 16 ds
  | '0' :: 'X' :: ds => value 16 ds
  | '0' :: d :: ds => value 8 (d :: ds)
  | ds => value 10 ds

/-- The parts of a host between its points; a final point is dropped. -/
def parts (t : Text) : List Text :=
  let ps := Text.pieces '.' t
  if ps.getLast? = some [] ∧ 1 < ps.length then ps.dropLast else ps

/-- Whether a host seems to be an address of numbers: its last part is a number. -/
def endsInNumber (t : Text) : Bool :=
  match (parts t).getLast? with
  | none => false
  | some [] => false
  | some p => p.all Text.isDigit || (number? p).isSome

/-- The value of an address of at most four numbers, the last of which fills what is left. -/
def numbersValue? (t : Text) : Option Nat :=
  let ps := parts t
  if 4 < ps.length then none
  else
    match ps.mapM number? with
    | none => none
    | some ns =>
      let lead := ns.dropLast
      let last := ns.getLast?.getD 0
      if lead.any (255 < ·) ∨ Nat.pow 256 (4 - lead.length) ≤ last then none
      else some (lead.zipIdx.foldl (fun v n => v + n.1 * Nat.pow 256 (3 - n.2)) last)

/-- An address of four numbers. -/
def numbersText (v : Nat) : Text :=
  Text.join ['.'] ([v / 16777216, v / 65536 % 256, v / 256 % 256, v % 256].map Text.ofNat)

/-- The form in which a host is written. -/
def host? (special : Bool) (t : Text) : Except Fault Text :=
  match t with
  | '[' :: rest =>
    if rest.getLast? = some ']' ∧
        rest.dropLast.all (fun c => (Text.hexDigit? c).isSome || c == ':' || c == '.') then
      .ok (lower t)
    else .error .badBrackets
  | _ =>
    if !special then
      if t.any forbiddenInHost then .error .badName else .ok (encode isControl t)
    else
      let name := lower (Text.decodeLossy (decode t))
      if name = [] then .error .emptyHost
      else if name.any forbiddenInName then .error .badName
      else if endsInNumber name then
        match numbersValue? name with
        | some v => .ok (numbersText v)
        | none => .error .badNumbers
      else .ok name

end ChangeGate.Url
