import ChangeGate.Text.Blank

/-! # Styles of a report

The **styles** in which the parts of a report are shown on a terminal, the escape sequences that set
and reset them, and the rule that decides whether a report is colored at all. -/

namespace ChangeGate

/-- The colors that a report uses. -/
inductive Color where
  | cyan
  | green
  | yellow
deriving DecidableEq, Repr

/-- The digits that select a color for the text. -/
def Color.code : Color → Text
  | .cyan => "36".toList
  | .green => "32".toList
  | .yellow => "33".toList

/-- How a part of a report is shown. -/
structure Style where
  /-- The color of the text, or the usual one. -/
  color : Option Color
  /-- Whether the text is bold. -/
  bold : Bool
deriving DecidableEq, Repr

namespace Style

/-- The titles of the sections. -/
def heading : Style := ⟨none, true⟩

/-- The names of files. -/
def path : Style := ⟨some .cyan, false⟩

/-- The verdict when a file is included. -/
def changed : Style := ⟨some .green, true⟩

/-- The verdict when no file is included. -/
def unchanged : Style := ⟨some .yellow, true⟩

/-- The escape sequence that selects a rendition. -/
def select (code : Text) : Text := '\x1b' :: '[' :: code ++ ['m']

/-- The escape sequence that returns to the usual rendition. -/
def reset : Text := select ['0']

/-- The escape sequences that set a style, starting from the usual rendition. -/
def set (s : Style) : Text :=
  reset ++ (if s.bold then select ['1'] else []) ++ (s.color.elim [] fun c => select c.code)

end Style

/-- Whether reports are colored. -/
inductive Coloring where
  /-- Never. -/
  | never
  /-- Always. -/
  | always
  /-- Where the terminal can show colors. -/
  | auto
deriving DecidableEq, Repr

/-- What decides the coloring of a report. -/
structure ColorContext where
  /-- Colors are refused. -/
  refused : Bool
  /-- Colors are demanded. -/
  demanded : Bool
  /-- Standard output is a terminal. -/
  terminal : Bool
  /-- The program runs in continuous integration. -/
  integration : Bool
deriving DecidableEq, Repr

/-- Refusal comes before demand; without either only a terminal outside continuous integration may
show colors. -/
def ColorContext.coloring (c : ColorContext) : Coloring :=
  if c.refused then .never
  else if c.demanded then .always
  else if !c.terminal || c.integration then .never
  else .auto

end ChangeGate
