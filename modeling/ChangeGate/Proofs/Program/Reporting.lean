import ChangeGate.Action.Output
import ChangeGate.Program.Reporting
import ChangeGate.Proofs.Files.Append
import ChangeGate.Proofs.Host.Session

/-! # What the commands leave behind

Each step that both commands are made of changes one part of a machine: compiling patterns writes on
standard error, printing a report writes on standard output, and giving the output of an action
writes its line to the output file, as far as the disk lets it, if the file can be opened
(**`appendOutput_of_opened`**). A **writable** file takes the whole line (`Machine.Writable.written`). -/

namespace ChangeGate

/-! ## (1) Writable files -/

namespace Machine

/-- **A writable file**: it can be opened, and no write to it is stopped from now on. -/
def Writable (w : Machine) (file : Text) : Prop :=
  ∃ place, w.tree.opened w.cwd file = .ok place ∧ ∀ n, w.writes ≤ n → w.disk place n = none

variable {w : Machine} {file : Text} {place : Path}

/-- All that is written to a writable file gets there. -/
theorem Writable.written (h : w.Writable file) (hopened : w.tree.opened w.cwd file = .ok place)
    (pieces : List Text.Bytes) :
    (w.written place pieces).fault = none ∧ (w.written place pieces).bytes = pieces.flatten := by
  obtain ⟨place', hopened', hfree⟩ := h
  obtain rfl := Except.ok.inj (hopened.symm.trans hopened')
  have hfault : (w.written place pieces).fault = none := Files.Disk.fault_writeAll hfree pieces
  exact ⟨hfault, (Files.Disk.writeAll_eq_iff w.writes pieces).mpr hfault⟩

/-- A writable file stays so when something was written to it. -/
theorem Writable.afterWriting (h : w.Writable file)
    (hopened : w.tree.opened w.cwd file = .ok place) (pieces : List Text.Bytes) :
    (w.afterWriting place pieces).Writable file := by
  obtain ⟨place', hopened', hfree⟩ := h
  obtain rfl := Except.ok.inj (hopened.symm.trans hopened')
  refine ⟨place, Files.Tree.opened_addTo hopened _, fun n hn => hfree n ?_⟩
  exact Nat.le_trans (Files.Disk.le_next_writeAll w.writes pieces) hn

end Machine

/-! ## (2) Steps of the commands -/

/-- How reports are colored on a machine. -/
def Machine.coloring (w : Machine) : Coloring :=
  ColorContext.coloring ⟨(w.valueOf "NO_COLOR".toList).isSome, (w.valueOf "COLOR".toList).isSome,
    w.terminal, (w.valueOf "CI".toList).isSome⟩

namespace Program

variable (w : Machine)

/-- Patterns that can be compiled are, and the log may show the rules. -/
theorem compile_ok_apply [Glob.Engine] {patterns : Text} {rules : RuleSet}
    (h : RuleSet.ofText patterns = .ok rules) :
    (compile patterns : Session _) w =
      (.ok rules, { w with errors := w.errors ++ w.shown (rulesEvents rules) }) := by
  unfold compile
  rw [h]
  simp only [Session.bind_apply, Host.logAll_apply, Session.pure_apply]

/-- Patterns that cannot be compiled are a failure. -/
theorem compile_error_apply [Glob.Engine] {patterns : Text} {e : Glob.TooLarge}
    (h : RuleSet.ofText patterns = .error e) :
    (compile patterns : Session _) w = (.error (.pattern e), w) := by
  unfold compile
  rw [h]
  rfl

/-- Compiling patterns changes nothing but standard error. -/
theorem compile_apply [Glob.Engine] (patterns : Text) :
    ∃ errors, (compile patterns : Session _) w =
      ((RuleSet.ofText patterns).mapError Failure.pattern, { w with errors := errors }) := by
  cases hrules : RuleSet.ofText patterns with
  | error e => exact ⟨w.errors, compile_error_apply w hrules⟩
  | ok rules => exact ⟨_, compile_ok_apply w hrules⟩

/-- Printing a report adds its text to standard output, and changes nothing else. -/
theorem printReport_apply (format : CommandLine.Format) (r : Report) :
    (printReport format r : Session _) w =
      ((), { w with output := w.output ++ reportText format w.coloring r }) := rfl

end Program

namespace Action

variable {w : Machine} {file : Text} {place : Path}

/-- Where the output file cannot be opened, nothing changes. -/
theorem appendOutput_of_error {e : Files.Cause} (h : w.tree.opened w.cwd file = .error e) (key : Text)
    (value : Bool) : (appendOutput file key value : Session _) w = (.error e, w) := by
  rw [appendOutput, Session.bind_apply, Host.appendFile_apply, Machine.appendFile, h]
  rfl

/-- **Giving the output of an action** writes its line to an output file that is opened, as far as the disk
lets it. -/
theorem appendOutput_of_opened (h : w.tree.opened w.cwd file = .ok place) (key : Text) (value : Bool) :
    ∃ errors, (appendOutput file key value : Session _) w =
      ((w.written place (outputParts key value)).fault.elim (.ok ()) .error,
        { w.afterWriting place (outputParts key value) with errors := errors }) := by
  rw [appendOutput, Session.bind_apply, Host.appendFile_apply, Machine.appendFile, h]
  dsimp only
  cases (w.written place (outputParts key value)).fault with
  | some e => exact ⟨w.errors, rfl⟩
  | none =>
    obtain ⟨errors, hlog⟩ := Host.log_apply (w.afterWriting place (outputParts key value))
      (outputEvent file key value)
    refine ⟨errors, ?_⟩
    simp only [Option.elim, Session.bind_apply, hlog, Session.pure_apply]

end Action

end ChangeGate
