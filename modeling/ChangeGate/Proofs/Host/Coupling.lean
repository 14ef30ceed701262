import ChangeGate.Proofs.Host.Session

/-! # Sessions side by side

Two sessions are **coupled** under a relation between machines when they give related results on related
machines, and leave related machines behind. Couplings compose as sessions do (**`Coupled.bind`**). A
session that is coupled with itself, with the same result on both sides, is **blind** to what the
relation tells apart.

A relation is **neutral** when related machines have the same files on the same disk, the same input and
the same log, and stay related whatever is written on both. Every action of a host is blind to what such
a relation tells apart, except that it may see the variables and the server. One such relation puts a
machine beside itself; a session that is blind to it is **silent** (**`Blind.requests_eq`**). -/

namespace ChangeGate

namespace Session

variable {α β γ δ : Type} {R : Machine → Machine → Prop}

/-! ## (1) Couplings -/

/-- **Coupled sessions**: on related machines they give related results and leave related machines. -/
def Coupled (R : Machine → Machine → Prop) (S : α → β → Prop) (x : Session α) (y : Session β) : Prop :=
  ∀ w w', R w w' → S (x w).1 (y w').1 ∧ R (x w).2 (y w').2

/-- **A blind session** gives the same result on related machines, and leaves related machines. -/
def Blind (R : Machine → Machine → Prop) (x : Session α) : Prop := Coupled R Eq x x

/-- Related values are coupled. -/
theorem Coupled.pure {S : α → β → Prop} {a : α} {b : β} (h : S a b) :
    Coupled R S (Pure.pure a) (Pure.pure b) :=
  fun _ _ hw => ⟨h, hw⟩

/-- **Couplings compose**: what follows has to be coupled for all related results. -/
theorem Coupled.bind {S : α → β → Prop} {T : γ → δ → Prop} {x : Session α} {y : Session β}
    {f : α → Session γ} {g : β → Session δ} (h : Coupled R S x y)
    (hrest : ∀ a b, S a b → Coupled R T (f a) (g b)) : Coupled R T (x >>= f) (y >>= g) := by
  intro w w' hw
  obtain ⟨hresult, hleft⟩ := h w w' hw
  exact hrest _ _ hresult _ _ hleft

/-- **Matching outcomes**: the same failure, or related values. -/
inductive Matched {ε : Type} (S : α → β → Prop) : Except ε α → Except ε β → Prop where
  /-- Both fail in the same way. -/
  | error (e : ε) : Matched S (.error e) (.error e)
  /-- Both give a value. -/
  | ok {a : α} {b : β} : S a b → Matched S (.ok a) (.ok b)

/-- Every outcome matches itself, if every value is related to itself. -/
theorem Matched.refl {ε : Type} {S : α → α → Prop} (h : ∀ a, S a a) (x : Except ε α) :
    Matched S x x := by
  cases x with
  | error e => exact .error e
  | ok a => exact .ok (h a)

/-- A value is blind. -/
theorem Blind.pure (a : α) : Blind R (Pure.pure a : Session α) := Coupled.pure rfl

/-- What follows a blind session has to be coupled for every result of it. -/
theorem Blind.bind_coupled {S : β → γ → Prop} {x : Session α} {f : α → Session β}
    {g : α → Session γ} (h : Blind R x) (hrest : ∀ a, Coupled R S (f a) (g a)) :
    Coupled R S (x >>= f) (x >>= g) := by
  refine Coupled.bind h ?_
  rintro a _ rfl
  exact hrest a

/-- **Blind sessions compose.** -/
theorem Blind.bind {x : Session α} {f : α → Session β} (h : Blind R x) (hrest : ∀ a, Blind R (f a)) :
    Blind R (x >>= f) := h.bind_coupled hrest

end Session

/-! ## (2) Neutral relations -/

/-- **A neutral relation** between machines: they have the same files on the same disk, the same input and
the same log, and stay related when the same is written on both. -/
structure Machine.Neutral (R : Machine → Machine → Prop) : Prop where
  tree {w w' : Machine} : R w w' → w'.tree = w.tree
  disk {w w' : Machine} : R w w' → w'.disk = w.disk
  writes {w w' : Machine} : R w w' → w'.writes = w.writes
  cwd {w w' : Machine} : R w w' → w'.cwd = w.cwd
  input {w w' : Machine} : R w w' → w'.input = w.input
  terminal {w w' : Machine} : R w w' → w'.terminal = w.terminal
  filter {w w' : Machine} : R w w' → w'.filter = w.filter
  written {w w' : Machine} (t : Files.Tree) (n : Nat) :
    R w w' → R { w with tree := t, writes := n } { w' with tree := t, writes := n }
  printed {w w' : Machine} (t : Text) :
    R w w' → R { w with output := w.output ++ t } { w' with output := w'.output ++ t }
  complained {w w' : Machine} (t : Text) :
    R w w' → R { w with errors := w.errors ++ t } { w' with errors := w'.errors ++ t }

namespace Machine.Neutral

open Session

variable {R : Machine → Machine → Prop} (h : Neutral R)
include h

/-- Related machines work in the same directory. -/
theorem workdir_eq {w w' : Machine} (hw : R w w') : w'.workdir = w.workdir := by
  rw [Machine.workdir, Machine.workdir, h.cwd hw]

/-! ## (3) Actions -/

theorem workdir : Blind R Host.workdir :=
  fun _ _ hw => ⟨(h.workdir_eq hw).symm, hw⟩

theorem readFile (path : Text) : Blind R (Host.readFile path) := by
  refine fun w w' hw => ⟨?_, hw⟩
  rw [Host.readFile_apply, Host.readFile_apply, h.tree hw, h.cwd hw]

theorem isFile (path : Text) : Blind R (Host.isFile path) := by
  refine fun w w' hw => ⟨?_, hw⟩
  rw [Host.isFile_apply, Host.isFile_apply, h.tree hw, h.cwd hw]

theorem isOccupied (path : Text) : Blind R (Host.isOccupied path) := by
  refine fun w w' hw => ⟨?_, hw⟩
  rw [Host.isOccupied_apply, Host.isOccupied_apply, h.tree hw, h.cwd hw]

theorem readText (path : Text) : Blind R (Host.readText path) := by
  refine (h.readFile path).bind fun content => ?_
  cases content with
  | error e => exact .pure _
  | ok bytes => exact .pure _

theorem appendFile (path : Text) (pieces : List Text.Bytes) :
    Blind R (Host.appendFile path pieces) := by
  intro w w' hw
  have hopened : w'.tree.opened w'.cwd path = w.tree.opened w.cwd path := by
    rw [h.tree hw, h.cwd hw]
  rw [Host.appendFile_apply, Host.appendFile_apply, Machine.appendFile, Machine.appendFile, hopened]
  cases w.tree.opened w.cwd path with
  | error e => exact ⟨rfl, hw⟩
  | ok place =>
    have hwritten : w'.written place pieces = w.written place pieces := by
      rw [Machine.written, Machine.written, h.disk hw, h.writes hw]
    dsimp only
    refine ⟨by rw [hwritten], ?_⟩
    rw [Machine.afterWriting, Machine.afterWriting, hwritten, h.tree hw]
    exact h.written _ _ hw

theorem readInput : Blind R Host.readInput :=
  fun _ _ hw => ⟨(h.input hw).symm, hw⟩

theorem inRepository : Blind R Host.inRepository := by
  refine fun w w' hw => ⟨?_, hw⟩
  show Repository.isRepository w.tree w.cwd w.workdir =
    Repository.isRepository w'.tree w'.cwd w'.workdir
  rw [h.tree hw, h.cwd hw, h.workdir_eq hw]

theorem changedSince (base : Text) : Blind R (Host.changedSince base) := by
  refine fun w w' hw => ⟨?_, hw⟩
  show Repository.changedFiles w.tree w.cwd w.workdir base =
    Repository.changedFiles w'.tree w'.cwd w'.workdir base
  rw [h.tree hw, h.cwd hw, h.workdir_eq hw]

theorem isTerminal : Blind R Host.isTerminal :=
  fun _ _ hw => ⟨(h.terminal hw).symm, hw⟩

theorem print (t : Text) : Blind R (Host.print t) :=
  fun _ _ hw => ⟨rfl, h.printed t hw⟩

theorem complain (t : Text) : Blind R (Host.complain t) :=
  fun _ _ hw => ⟨rfl, h.complained t hw⟩

theorem log (e : Log.Event) : Blind R (Host.log e) := by
  refine fun w w' hw => ⟨rfl, ?_⟩
  show R (w.log e) (w'.log e)
  rw [Machine.log, Machine.log, h.filter hw]
  split
  · exact h.complained e.line hw
  · exact hw

theorem logAll (es : List Log.Event) : Blind R (Host.logAll es) := by
  induction es with
  | nil => exact .pure _
  | cons e es ih => exact (h.log e).bind fun _ => ih

end Machine.Neutral

/-! ## (4) Silence -/

/-- A machine beside itself, after some requests. A session that is blind to this relation is
**silent**: it sends no request. -/
def Machine.Asked (past : List Http.Request) (w w' : Machine) : Prop := w' = w ∧ w.requests = past

/-- Nothing but a request changes what was asked. -/
theorem Machine.neutral_asked (past : List Http.Request) : Neutral (Asked past) where
  tree := by
    rintro w _ ⟨rfl, -⟩
    rfl
  disk := by
    rintro w _ ⟨rfl, -⟩
    rfl
  writes := by
    rintro w _ ⟨rfl, -⟩
    rfl
  cwd := by
    rintro w _ ⟨rfl, -⟩
    rfl
  input := by
    rintro w _ ⟨rfl, -⟩
    rfl
  terminal := by
    rintro w _ ⟨rfl, -⟩
    rfl
  filter := by
    rintro w _ ⟨rfl, -⟩
    rfl
  written := by
    rintro w _ t n ⟨rfl, hpast⟩
    exact ⟨rfl, hpast⟩
  printed := by
    rintro w _ t ⟨rfl, hpast⟩
    exact ⟨rfl, hpast⟩
  complained := by
    rintro w _ t ⟨rfl, hpast⟩
    exact ⟨rfl, hpast⟩

/-- **A silent session sends no request.** -/
theorem Session.Blind.requests_eq {α : Type} {x : Session α}
    (h : ∀ past, Blind (Machine.Asked past) x) (w : Machine) : (x w).2.requests = w.requests :=
  (h w.requests w w ⟨rfl, rfl⟩).2.2

end ChangeGate
