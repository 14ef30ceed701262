import ChangeGate.CommandLine.Basic
import ChangeGate.Host.Basic
import ChangeGate.Pattern.RuleSet
import ChangeGate.Program.Failure
import ChangeGate.Report.Json
import ChangeGate.Report.Layout

/-! # Patterns in, reports out

What both commands do alike: they compile a pattern list, and they print a report in the format that
is asked for. -/

namespace ChangeGate.Program

variable {m : Type → Type} [Monad m] [Host m] [Glob.Engine]

/-- What the log says of a compiled rule. -/
def ruleEvent (r : Rule) : Log.Event :=
  ⟨.trace, .pattern, "compiled pattern".toList,
    [("glob".toList, Text.quoted r.glob), ("negated".toList, Text.ofBool r.negated)]⟩

/-- What the log says of a compiled pattern list. -/
def rulesEvents (rs : RuleSet) : List Log.Event :=
  rs.rules.map ruleEvent ++
    [.debug .pattern ("compiled ".toList ++ Text.ofNat rs.rules.length ++ " patterns (".toList ++
      Text.ofNat rs.exclusions ++ " exclusions)".toList)]

/-- The rules of a pattern list. -/
def compile (patterns : Text) : m (Except Failure RuleSet) := do
  match RuleSet.ofText patterns with
  | .error e => pure (.error (.pattern e))
  | .ok rules => do
    Host.logAll (rulesEvents rules)
    pure (.ok rules)

/-- What decides the coloring of a report on a host. -/
def colorContext : m ColorContext := do
  let refused ← Host.lookup "NO_COLOR".toList
  let demanded ← Host.lookup "COLOR".toList
  let integration ← Host.lookup "CI".toList
  let terminal ← Host.isTerminal
  pure ⟨refused.isSome, demanded.isSome, terminal, integration.isSome⟩

/-- The text of a report. -/
def reportText (format : CommandLine.Format) (coloring : Coloring) (r : Report) : Text :=
  match format, coloring with
  | .json, _ => r.json
  | .text, .never => r.plain
  | .text, _ => r.ansi

/-- A report printed on standard output. -/
def printReport (format : CommandLine.Format) (r : Report) : m Unit := do
  let context ← colorContext
  Host.print (reportText format context.coloring r)

end ChangeGate.Program
