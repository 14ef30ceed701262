import ChangeGate.Host.Machine

/-! # Running sessions

A session is a function of the machine it runs on. The lemmas of this file run the actions of a host
on a machine, so that a program is run by rewriting with them from its first action to its last.
Reading leaves the machine as it is, and the log only writes the lines of the events that it shows on
standard error (**`logAll_apply`**). -/

namespace ChangeGate

variable {α β : Type}

/-! ## (1) Composition -/

/-- A session after another one runs on the machine that the first one leaves. -/
@[simp] theorem Session.bind_apply (x : Session α) (f : α → Session β) (w : Machine) :
    (x >>= f) w = f (x w).1 (x w).2 := rfl

/-- A value alone does nothing. -/
@[simp] theorem Session.pure_apply (a : α) (w : Machine) : (pure a : Session α) w = (a, w) := rfl

/-! ## (2) Actions -/

namespace Host

variable (w : Machine)

@[simp] theorem lookup_apply (name : Text) :
    (lookup name : Session (Option Text)) w = (w.valueOf name, w) := rfl

@[simp] theorem workdir_apply : (workdir : Session Text) w = (w.workdir, w) := rfl

@[simp] theorem readFile_apply (path : Text) :
    (readFile path : Session (Except Files.Cause Text.Bytes)) w = (w.tree.read w.cwd path, w) := rfl

@[simp] theorem isFile_apply (path : Text) :
    (isFile path : Session Bool) w = (w.tree.isFile w.cwd path, w) := rfl

@[simp] theorem isOccupied_apply (path : Text) :
    (isOccupied path : Session Bool) w = (w.tree.occupied w.cwd path, w) := rfl

@[simp] theorem appendFile_apply (path : Text) (pieces : List Text.Bytes) :
    (appendFile path pieces : Session (Except Files.Cause Unit)) w = w.appendFile path pieces := rfl

@[simp] theorem send_apply (r : Http.Request) :
    (send r : Session (Except Http.Breakdown Http.Response)) w =
      (w.server w.requests r, { w with requests := w.requests ++ [r] }) := rfl

@[simp] theorem isTerminal_apply : (isTerminal : Session Bool) w = (w.terminal, w) := rfl

@[simp] theorem print_apply (t : Text) :
    (print t : Session Unit) w = ((), { w with output := w.output ++ t }) := rfl

@[simp] theorem complain_apply (t : Text) :
    (complain t : Session Unit) w = ((), { w with errors := w.errors ++ t }) := rfl

/-- The text of a file is what the tree holds. -/
@[simp] theorem readText_apply (path : Text) :
    (readText path : Session (Except Files.Cause Text)) w = (w.tree.readText w.cwd path, w) := by
  simp only [readText, Files.Tree.readText, Session.bind_apply, readFile_apply]
  cases w.tree.read w.cwd path <;> rfl

/-! ## (3) The log -/

/-- An event changes nothing but standard error. -/
theorem log_apply (e : Log.Event) :
    ∃ errors, (log e : Session Unit) w = ((), { w with errors := errors }) := by
  show ∃ errors, ((), w.log e) = ((), { w with errors := errors })
  unfold Machine.log
  split
  · exact ⟨_, rfl⟩
  · exact ⟨w.errors, rfl⟩

end Host

/-- What the log of a machine shows of some events. -/
def Machine.shown (w : Machine) (es : List Log.Event) : Text :=
  (es.filter w.filter.shows).flatMap Log.Event.line

/-- **Events change nothing but standard error**, where those are written that the log shows. -/
theorem Host.logAll_apply (w : Machine) (es : List Log.Event) :
    (Host.logAll es : Session Unit) w = ((), { w with errors := w.errors ++ w.shown es }) := by
  induction es generalizing w with
  | nil => simp [Host.logAll, Machine.shown]
  | cons e es ih =>
    have hlog : (Host.log e : Session Unit) w = ((), w.log e) := rfl
    rw [Host.logAll, Session.bind_apply, hlog, ih]
    unfold Machine.log Machine.shown
    split
    · rename_i hshown
      rw [List.filter_cons_of_pos hshown, List.flatMap_cons, ← List.append_assoc]
      rfl
    · rename_i hshown
      rw [List.filter_cons_of_neg hshown]

end ChangeGate
