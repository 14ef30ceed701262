import ChangeGate.Pattern.RuleSet
import ChangeGate.Report.Style
import ChangeGate.Text.Decimal

/-! # Reports

A **report** is the outcome of applying a rule set to a list of changed files. It is laid out as a list
of **spans**, texts that carry a style or none. **plain** shows the spans without their styles, **ansi**
sets and resets the style around each span that has one. The included files are listed only when there
are candidates. -/

namespace ChangeGate

/-! ## Outcomes -/

/-- The outcome of matching a list of files. -/
structure Report where
  /-- Whether some file is included. -/
  changed : Bool
  /-- Every candidate, in input order. -/
  files : List Text
  /-- The included candidates, in input order. -/
  included : List Text
deriving DecidableEq, Repr

/-- The report of a rule set on a list of files. -/
def Report.of [Glob.Engine] (rules : RuleSet) (files : List Text) : Report where
  changed := rules.includesAny files
  files := files
  included := rules.included files

@[simp] theorem Report.of_files [Glob.Engine] (rules : RuleSet) (files : List Text) :
    (Report.of rules files).files = files := rfl

/-! ## Texts with styles -/

/-- A text with a style or none. -/
structure Span where
  style : Option Style
  text : Text
deriving DecidableEq, Repr

namespace Span

/-- A text without a style. -/
def bare (t : Text) : Span := ⟨none, t⟩

/-- A text with a style. -/
def styled (s : Style) (t : Text) : Span := ⟨some s, t⟩

/-- The text of a span. -/
def plain (s : Span) : Text := s.text

/-- The text of a span between the sequences that set and reset its style. -/
def ansi (s : Span) : Text :=
  match s.style with
  | none => s.text
  | some style => style.set ++ s.text ++ Style.reset

end Span

/-- The word for a truth value. -/
def Text.ofBool (b : Bool) : Text := if b then "true".toList else "false".toList

/-! ## The layout -/

namespace Report

/-- The line of a file. -/
def fileSpans (file : Text) : List Span :=
  [.bare "- ".toList, .styled .path file, .bare ['\n']]

/-- A title with the number of files, and the files, one to a line. -/
def sectionSpans (title : Text) (files : List Text) : List Span :=
  .styled .heading title :: .bare (" (".toList ++ Text.ofNat files.length ++ "):\n".toList) ::
    files.flatMap fileSpans

/-- The line of the verdict. -/
def verdictSpans (changed : Bool) : List Span :=
  [.bare "Files match filter: ".toList,
    .styled (if changed then .changed else .unchanged) (Text.ofBool changed), .bare ['\n']]

/-- The spans of a whole report. -/
def spans (r : Report) : List Span :=
  sectionSpans "Changed files".toList r.files ++
    (if r.files = [] then [] else sectionSpans "Included files".toList r.included) ++
    verdictSpans r.changed

/-- The report without colors. -/
def plain (r : Report) : Text := r.spans.flatMap Span.plain

/-- The report with colors. -/
def ansi (r : Report) : Text := r.spans.flatMap Span.ansi

end Report

end ChangeGate
