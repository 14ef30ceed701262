import ChangeGate.Log.Event
import ChangeGate.Text.Lines

/-! # Log filters

A filter is a list of directives between commas. A directive sets the detail of the log for the parts
whose names start with its target, or for all parts. Of the directives for a part the one with the
longest target decides, and of two with the same target the later one. -/

namespace ChangeGate.Log

/-- A directive. -/
structure Directive where
  /-- The start of the names of the parts it is for; nothing for all parts. -/
  target : Option Text
  /-- The detail that it sets. -/
  detail : Nat
deriving DecidableEq, Repr

/-- The detail that a word or a digit stands for. -/
def detail? (t : Text) : Option Nat :=
  if !t.isEmpty && t.all Text.isDigit then
    if Text.digitsValue 10 t ≤ 5 then some (Text.digitsValue 10 t) else none
  else
    [("off".toList, 0), ("error".toList, 1), ("warn".toList, 2), ("info".toList, 3),
      ("debug".toList, 4), ("trace".toList, 5)].lookup (t.map Char.toLower)

/-- The detail after an equals sign; without a word it is the greatest. -/
def detailAfterSign? (t : Text) : Option Nat := if t = [] then some 5 else detail? t

/-- Whether a directive may start with a character. -/
def startsDirective (c : Char) : Bool :=
  Text.isAsciiAlphanumeric c || 0x80 ≤ c.toNat || "-:_[".toList.contains c

/-- A directive that is for spans; it shows no events, as the program opens no spans. -/
def spanDirective? (t : Text) : Option (List Directive) :=
  match (t.dropWhile (· != '[')).dropWhile (· != ']') with
  | [] => none
  | [_] => some []
  | _ :: '=' :: word => (detailAfterSign? word).map fun _ => []
  | _ => none

/-- The directives of one piece of a filter, of which there is one at most. -/
def directive? (piece : Text) : Option (List Directive) :=
  let t := Text.trim piece
  let name := t.takeWhile fun c => c != '=' && c != '['
  if !(t.head?.any startsDirective) then none
  else
    match t.dropWhile fun c => c != '=' && c != '[' with
    | [] =>
      match detail? name with
      | some d => some [⟨none, d⟩]
      | none => some [⟨some name, 5⟩]
    | '=' :: word => (detailAfterSign? word).map fun d => [⟨some name, d⟩]
    | _ => spanDirective? t

/-- Which events are shown. -/
structure Filter where
  directives : List Directive
deriving DecidableEq, Repr

namespace Filter

/-- The filter that shows nothing. -/
def off : Filter := ⟨[]⟩

/-- The filter that a text gives; an empty text shows errors, and an invalid one shows nothing. -/
def ofText (t : Text) : Filter :=
  if t = [] then ⟨[⟨none, 1⟩]⟩
  else ((Text.pieces ',' t).mapM directive?).elim off fun ds => ⟨ds.flatten⟩

/-- The filter of a variable that may be unset. -/
def ofVariable (t : Option Text) : Filter := t.elim off ofText

/-- Whether a directive is for a part. -/
def concerns (d : Directive) (part : Part) : Bool := d.target.all (·.isPrefixOf part.name)

/-- How specific a directive is. -/
def weight (d : Directive) : Nat := d.target.elim 0 (·.length + 1)

/-- The detail of the log for a part. -/
def detailFor (f : Filter) (part : Part) : Nat :=
  let choose (best : Option Directive) (d : Directive) : Option Directive :=
    -- of two directives of the same weight the later one replaces the other
    if !concerns d part then best
    else if best.any fun b => weight d < weight b then best
    else some d
  (f.directives.foldl choose none).elim 0 (·.detail)

/-- Whether an event is shown. -/
def shows (f : Filter) (e : Event) : Bool := e.level.detail ≤ f.detailFor e.part

/-- The filter that shows nothing shows no event. -/
@[simp] theorem shows_off (e : Event) : off.shows e = false := by
  cases e with
  | mk level part message fields => cases level <;> rfl

end Filter

end ChangeGate.Log
