import ChangeGate.Text.Blank

/-! # Lines

**pieces** cuts a list at every separator. **linesOf** reads the pieces as lines: the empty piece
after the last separator is no line, and a line that was ended by the separator loses one return
mark before it. Both work on characters and on bytes alike. -/

namespace ChangeGate.Text

variable {α : Type} [DecidableEq α]

/-- The parts of a list between the separators; there is always at least one. -/
def pieces (sep : α) : List α → List (List α)
  | [] => [[]]
  | x :: rest =>
    if x = sep then [] :: pieces sep rest
    else match pieces sep rest with
      | [] => [[x]]
      | p :: ps => (x :: p) :: ps

@[simp] theorem pieces_nil (sep : α) : pieces sep [] = [[]] := rfl

@[simp] theorem pieces_cons_sep (sep : α) (rest : List α) :
    pieces sep (sep :: rest) = [] :: pieces sep rest := by simp [pieces]

/-- A list without its last element when that is the given one. -/
def dropLastIf (ret : α) (line : List α) : List α :=
  if line.getLast? = some ret then line.dropLast else line

/-- Lines from pieces: every piece but the last was ended by a separator. -/
def closeLines (ret : α) : List (List α) → List (List α)
  | [] => []
  | [last] => if last = [] then [] else [last]
  | p :: q :: rest => dropLastIf ret p :: closeLines ret (q :: rest)

/-- The lines of a list that ends its lines with `newline`, perhaps after `ret`. -/
def linesOf (newline ret : α) (t : List α) : List (List α) := closeLines ret (pieces newline t)

/-- The lines of a text, ended by a line feed or by a carriage return and a line feed. -/
def lines (t : Text) : List Text := linesOf '\n' '\r' t

@[simp] theorem lines_nil : lines [] = [] := rfl

end ChangeGate.Text
