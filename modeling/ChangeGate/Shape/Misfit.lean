import ChangeGate.Text.Decimal

/-! # Values of the wrong shape

A **misfit** says which value was found and what was expected in its place. The same wording serves
every format in which values are written. -/

namespace ChangeGate

/-- A value of the wrong shape, as a misfit describes it. -/
inductive Found where
  /-- The null value. -/
  | null
  /-- A truth value. -/
  | bool (b : Bool)
  /-- A whole number. -/
  | integer (i : Int)
  /-- Another number, by its text. -/
  | float (t : Text)
  /-- A string, by its quoted form. -/
  | string (t : Text)
  /-- A list. -/
  | list
  /-- An object. -/
  | object
deriving DecidableEq, Repr

/-- The description of a value of the wrong shape. -/
def Found.message : Found → Text
  | .null => "null".toList
  | .bool b => "boolean `".toList ++ (if b then "true".toList else "false".toList) ++ ['\x60']
  | .integer i => "integer `".toList ++ Text.ofInt i ++ ['\x60']
  | .float t => "floating point `".toList ++ t ++ ['\x60']
  | .string t => "string ".toList ++ t
  | .list => "sequence".toList
  | .object => "map".toList

/-- How a value misses the expected shape. -/
inductive Misfit where
  /-- It is of another kind. -/
  | kind (found : Found) (expected : Text)
  /-- It is of the right kind but outside of the range. -/
  | range (found : Found) (expected : Text)
  /-- It is a list without the expected elements. -/
  | length (count : Nat) (expected : Text)
  /-- It gives a member twice. -/
  | duplicate (field : Text)
deriving DecidableEq, Repr

/-- The wording of a misfit. -/
def Misfit.message : Misfit → Text
  | .kind found expected =>
    "invalid type: ".toList ++ found.message ++ ", expected ".toList ++ expected
  | .range found expected =>
    "invalid value: ".toList ++ found.message ++ ", expected ".toList ++ expected
  | .length n expected =>
    "invalid length ".toList ++ Text.ofNat n ++ ", expected ".toList ++ expected
  | .duplicate field => "duplicate field `".toList ++ field ++ ['\x60']

end ChangeGate
