import ChangeGate.Text.Blank

/-! # Double precision numbers

A finite double is a sign and a magnitude `mantissa · 2 ^ exponent` with the mantissa below `2 ^ 53`
and the exponent from `-1074` to `971`. **Magnitude.ofRatio** rounds a quotient of natural numbers to
the nearest magnitude, a tie going to the even mantissa; sums of such roundings give the products and
quotients of doubles without any rounding of their own. -/

namespace ChangeGate

/-- The size of a finite double: `mantissa · 2 ^ exponent`. -/
structure Magnitude where
  mantissa : Nat
  exponent : Int
deriving DecidableEq, Repr

namespace Magnitude

/-- Zero, with the least exponent. -/
def zero : Magnitude := ⟨0, -1074⟩

/-- The least mantissa of a magnitude that has all its digits, `2 ^ 52`. -/
def hiddenBit : Nat := 4503599627370496

/-- The quotient rounded to the nearest natural number, a tie going to the even one. -/
def roundDiv (num den : Nat) : Nat :=
  let q := num / den
  let twice := 2 * (num % den)
  if twice < den then q
  else if den < twice then q + 1
  else q + q % 2

/-- The exponent of two at which a quotient lies: the greatest `l` with `2 ^ l ≤ num / den`. -/
def floorLog2 (num den : Nat) : Int :=
  let l : Int := num.log2 - den.log2
  let below := if 0 ≤ l then num < den * Nat.pow 2 l.toNat else num * Nat.pow 2 (-l).toNat < den
  if below then l - 1 else l

/-- A quotient rounded to the nearest magnitude; nothing when it lies beyond the largest one. -/
def ofRatio? (num den : Nat) : Option Magnitude :=
  if num = 0 then some zero
  else
    let e := max (-1074) (floorLog2 num den - 52)
    let m :=
      if 0 ≤ e then roundDiv num (den * Nat.pow 2 e.toNat)
      else roundDiv (num * Nat.pow 2 (-e).toNat) den
    let r : Magnitude := if m = 2 * hiddenBit then ⟨hiddenBit, e + 1⟩ else ⟨m, e⟩
    if 971 < r.exponent then none else some r

/-- The magnitude as a quotient of natural numbers. -/
def ratio (x : Magnitude) : Nat × Nat :=
  if 0 ≤ x.exponent then (x.mantissa * Nat.pow 2 x.exponent.toNat, 1)
  else (x.mantissa, Nat.pow 2 (-x.exponent).toNat)

/-- The nearest magnitude to a natural number that is not beyond the largest one. -/
def ofNat (n : Nat) : Magnitude := (ofRatio? n 1).getD zero

/-- The product, rounded; nothing when it is too large. -/
def mul? (x y : Magnitude) : Option Magnitude :=
  ofRatio? (x.ratio.1 * y.ratio.1) (x.ratio.2 * y.ratio.2)

/-- The quotient, rounded; nothing when it is too large. -/
def div? (x y : Magnitude) : Option Magnitude :=
  ofRatio? (x.ratio.1 * y.ratio.2) (x.ratio.2 * y.ratio.1)

end Magnitude

/-- A double precision number. -/
inductive Binary64 where
  /-- A number of a given sign and size; zero has two signs. -/
  | finite (negative : Bool) (size : Magnitude)
  /-- What lies beyond every number on one side. -/
  | infinite (negative : Bool)
  /-- The result of an operation without a result. -/
  | notANumber
deriving DecidableEq, Repr

end ChangeGate
