/-! # Texts, white space and trimming

A **text** is the list of its characters. White space is the Unicode property `White_Space`, and
**trim** drops it from both ends of a text. -/

namespace ChangeGate

/-- A text is the list of its characters. -/
abbrev Text := List Char

namespace Text

/-- The characters with the Unicode property `White_Space`. -/
def isBlank (c : Char) : Bool :=
  let n := c.toNat
  (9 ≤ n && n ≤ 13) || n == 0x20 || n == 0x85 || n == 0xA0 || n == 0x1680 ||
    (0x2000 ≤ n && n ≤ 0x200A) || n == 0x2028 || n == 0x2029 || n == 0x202F || n == 0x205F ||
    n == 0x3000

/-- What follows the white space that starts a text. -/
def trimStart (t : Text) : Text := t.dropWhile isBlank

/-- What precedes the white space that ends a text. -/
def trimEnd (t : Text) : Text := (t.reverse.dropWhile isBlank).reverse

/-- A text without the white space at its two ends. -/
def trim (t : Text) : Text := trimEnd (trimStart t)

/-- A text is blank when it holds nothing but white space. -/
def blank (t : Text) : Bool := t.all isBlank

@[simp] theorem trimStart_nil : trimStart [] = [] := rfl

@[simp] theorem trimEnd_nil : trimEnd [] = [] := rfl

@[simp] theorem trim_nil : trim [] = [] := rfl

@[simp] theorem blank_nil : blank [] = true := rfl

/-- Leading white space is dropped one character at a time. -/
theorem trimStart_cons (c : Char) (t : Text) :
    trimStart (c :: t) = if isBlank c then trimStart t else c :: t := by
  cases h : isBlank c <;> simp [trimStart, List.dropWhile, h]

/-- A text starts with another one when it is that text followed by something. -/
def strip? (lead t : Text) : Option Text :=
  if lead.isPrefixOf t then some (t.drop lead.length) else none

end Text

end ChangeGate
