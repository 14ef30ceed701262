import ChangeGate.Number.Binary64
import ChangeGate.Text.Decimal

/-! # The shortest decimal that reads back

**shortestDigits** finds the fewest significant digits that round to a given magnitude: on the grids
of 1, 2, … 17 digits it tests the two neighbours of the magnitude against the interval of numbers
that round to it, and takes the nearer one of the first grid with a hit. Two layouts print the
result: **positional** without any exponent, and **scientific** for large and small numbers. -/

namespace ChangeGate

/-- Significant digits `d₁d₂…dₙ` with the exponent of ten of the first one. -/
structure Digits where
  digits : Text
  exponent : Int
deriving DecidableEq, Repr

namespace Magnitude

/-- Whether `c · 10 ^ k` rounds to a magnitude, so lies between the midpoints to its neighbours; the
midpoints themselves round to an even mantissa. Both sides are scaled to quarters of the last place. -/
def roundsTo (x : Magnitude) (c : Nat) (k : Int) : Bool :=
  let narrow := x.mantissa = hiddenBit ∧ -1074 < x.exponent
  let low := 4 * x.mantissa - (if narrow then 1 else 2)
  let high := 4 * x.mantissa + 2
  let q := x.exponent - 2
  let num := Nat.pow 10 k.toNat * Nat.pow 2 (-q).toNat
  let den := Nat.pow 10 (-k).toNat * Nat.pow 2 q.toNat
  let v := c * num
  if x.mantissa % 2 = 0 then low * den ≤ v && v ≤ high * den
  else low * den < v && v < high * den

/-- The exponent of ten of the first significant digit. -/
def floorLog10 (x : Magnitude) : Int :=
  let num := x.ratio.1
  let den := x.ratio.2
  if den ≤ num then (Text.ofNat (num / den)).length - 1
  else - ((Text.ofNat ((den - 1) / num)).length : Int)

/-- The neighbour of a magnitude on the grid of `10 ^ k` that rounds to it, the nearer of two. -/
def neighbour? (x : Magnitude) (k : Int) : Option Nat :=
  let num := x.ratio.1 * Nat.pow 10 (-k).toNat
  let den := x.ratio.2 * Nat.pow 10 k.toNat
  let floor := num / den
  let twice := 2 * (num % den)
  let nearFirst :=
    if twice < den then [floor, floor + 1]
    else if den < twice then [floor + 1, floor]
    else if floor % 2 = 0 then [floor, floor + 1] else [floor + 1, floor]
  nearFirst.find? fun c => c != 0 && x.roundsTo c k

/-- The shortest digits that round to a magnitude above zero. -/
def shortestDigits (x : Magnitude) : Digits :=
  let first := x.floorLog10
  let hit := (List.range 17).findSome? fun (n : Nat) =>
    (x.neighbour? (first - n)).map fun c => (c, first - (n : Int))
  match hit with
  | none => ⟨['0'], 0⟩
  | some (c, k) =>
    let all := Text.ofNat c
    let significant := (all.reverse.dropWhile (· == '0')).reverse
    ⟨significant, k + (all.length : Int) - 1⟩

end Magnitude

namespace Digits

/-- The digits with a point and no exponent; there is always a digit on both sides of the point. -/
def positional (d : Digits) : Text :=
  let n : Int := d.digits.length
  if n ≤ d.exponent + 1 then
    d.digits ++ List.replicate (d.exponent + 1 - n).toNat '0' ++ ".0".toList
  else if 0 ≤ d.exponent then
    d.digits.take (d.exponent + 1).toNat ++ ['.'] ++ d.digits.drop (d.exponent + 1).toNat
  else "0.".toList ++ List.replicate (-d.exponent - 1).toNat '0' ++ d.digits

/-- The digits with a point after the first one and a signed exponent of at least two digits. -/
def scientific (d : Digits) : Text :=
  let fraction := match d.digits.drop 1 with
    | [] => []
    | rest => '.' :: rest
  d.digits.take 1 ++ fraction ++ ['e', if d.exponent < 0 then '-' else '+'] ++
    Text.zeroPad 2 (Text.ofNat d.exponent.natAbs)

end Digits

namespace Binary64

/-- A number with a given layout of its digits. -/
def print (layout : Digits → Text) : Binary64 → Text
  | .finite negative size =>
    let body := if size.mantissa = 0 then "0.0".toList else layout size.shortestDigits
    if negative then '-' :: body else body
  | .infinite negative => if negative then "-inf".toList else "inf".toList
  | .notANumber => "NaN".toList

/-- A number without any exponent. -/
def toPositional (x : Binary64) : Text := x.print Digits.positional

/-- A number with an exponent when its first digit stands below `10 ^ -5` or above `10 ^ 15`. -/
def toScientific (x : Binary64) : Text :=
  x.print fun d => if -5 ≤ d.exponent && d.exponent ≤ 15 then d.positional else d.scientific

end Binary64

end ChangeGate
