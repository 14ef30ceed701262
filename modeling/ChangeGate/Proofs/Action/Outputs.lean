import ChangeGate.Proofs.Program.Reporting
import ChangeGate.Proofs.Text.Utf8
import Mathlib.Data.List.TakeWhile

/-! # Reading outputs back

Whoever reads the output file of an action cuts it into **rows** at line feeds, carriage returns and
pairs of both, and each row into a name and a value at its first equals sign: these are the
**assignments** of the file. An output that is given for a key is read back as that key and its value,
behind all that was there before (**`outputs_roundTrip`**), because a key holds none of the three
signs; and a text that holds one of them is not read back. The three signs are characters of ASCII, so
this is true of the bytes of a file and of its text alike. -/

namespace ChangeGate.Action

/-! ## (1) Assignments -/

/-- The signs that an output file is read by. -/
structure Marks (α : Type) where
  /-- The line feed. -/
  feed : α
  /-- The carriage return. -/
  ret : α
  /-- The equals sign. -/
  sign : α
  feed_ne_ret : feed ≠ ret
  sign_ne_feed : sign ≠ feed
  sign_ne_ret : sign ≠ ret

/-- The signs among characters. -/
def Marks.ofText : Marks Char where
  feed := '\n'
  ret := '\r'
  sign := '='
  feed_ne_ret := by decide
  sign_ne_feed := by decide
  sign_ne_ret := by decide

/-- The signs among bytes. -/
def Marks.ofBytes : Marks UInt8 where
  feed := 0x0A
  ret := 0x0D
  sign := 0x3D
  feed_ne_ret := by decide
  sign_ne_feed := by decide
  sign_ne_ret := by decide

variable {α : Type}

/-- Rows of which the first one starts with one more element. -/
def startWith (x : α) : List (List α) → List (List α)
  | [] => [[x]]
  | row :: rows => (x :: row) :: rows

@[simp] theorem startWith_ne_nil (x : α) (rows : List (List α)) : startWith x rows ≠ [] := by
  cases rows <;> simp [startWith]

/-- What is put in front belongs to the first of the rows. -/
theorem startWith_append (x : α) {front : List (List α)} (h : front ≠ []) (rest : List (List α)) :
    startWith x (front ++ rest) = startWith x front ++ rest := by
  cases front with
  | nil => exact absurd rfl h
  | cons row front => rfl

variable [DecidableEq α] (m : Marks α)

/-- The rows of a list. A line feed ends a row, and so does a carriage return, with the line feed right
behind it if there is one. What follows the last end is a row unless it is empty. -/
def rows : List α → List (List α)
  | [] => []
  | x :: t =>
    if x = m.feed then [] :: rows t
    else if x = m.ret then [] :: (if t.head? = some m.feed then (rows t).tail else rows t)
    else startWith x (rows t)

/-- What stands before and behind the first equals sign of a row; there is nothing behind it if the row
has none. -/
def assignment (row : List α) : List α × Option (List α) :=
  (row.takeWhile (· ≠ m.sign), (row.dropWhile (· ≠ m.sign)).tail?)

/-- The assignments of a list, one for each row. -/
def assignments (t : List α) : List (List α × Option (List α)) := (rows m t).map (assignment m)

/-! ## (2) Rows -/

@[simp] theorem rows_nil : rows m [] = [] := rfl

/-- Only the empty list has no row. -/
theorem rows_ne_nil {t : List α} (h : t ≠ []) : rows m t ≠ [] := by
  cases t with
  | nil => exact absurd rfl h
  | cons x t =>
    rw [rows]
    split
    · simp
    split
    · simp
    · exact startWith_ne_nil x _

/-- **What follows a line feed starts a row of its own.** -/
theorem rows_append {front : List α} (h : front = [] ∨ front.getLast? = some m.feed)
    (rest : List α) : rows m (front ++ rest) = rows m front ++ rows m rest := by
  induction front with
  | nil => rfl
  | cons x front ih =>
    by_cases hfront : front = []
    · obtain rfl : x = m.feed := by simpa [hfront] using h
      simp [hfront, rows]
    have hlast : front.getLast? = some m.feed := by
      rw [List.getLast?_cons_of_ne_nil hfront] at h
      exact h.resolve_left (by simp)
    have hne := rows_ne_nil m hfront
    have hhead : (front ++ rest).head? = front.head? := by
      rw [List.head?_append, List.head?_eq_some_head hfront, Option.some_or]
    rw [List.cons_append, rows, rows, ih (.inr hlast)]
    by_cases hfeed : x = m.feed
    · rw [if_pos hfeed, if_pos hfeed, List.cons_append]
    rw [if_neg hfeed, if_neg hfeed]
    by_cases hret : x = m.ret
    · rw [if_pos hret, if_pos hret, hhead, List.tail_append_of_ne_nil hne, List.cons_append]
      split <;> rfl
    · rw [if_neg hret, if_neg hret, startWith_append x hne]

/-- A row that is ended by a line feed is one row. -/
theorem rows_line {line : List α} (hfeed : m.feed ∉ line) (hret : m.ret ∉ line) :
    rows m (line ++ [m.feed]) = [line] := by
  induction line with
  | nil => simp [rows]
  | cons x line ih =>
    rw [List.mem_cons, not_or] at hfeed hret
    rw [List.cons_append, rows, if_neg (Ne.symm hfeed.1), if_neg (Ne.symm hret.1),
      ih hfeed.2 hret.2, startWith]

/-- No row holds the end of a row. -/
theorem not_mem_of_mem_rows {t row : List α} (h : row ∈ rows m t) : m.feed ∉ row ∧ m.ret ∉ row := by
  induction t generalizing row with
  | nil => exact absurd h (by simp)
  | cons x t ih =>
    rw [rows] at h
    by_cases hfeed : x = m.feed
    · rw [if_pos hfeed, List.mem_cons] at h
      rcases h with rfl | h
      · simp
      · exact ih h
    rw [if_neg hfeed] at h
    by_cases hret : x = m.ret
    · rw [if_pos hret, List.mem_cons] at h
      rcases h with rfl | h
      · simp
      split at h
      · exact ih (List.mem_of_mem_tail h)
      · exact ih h
    rw [if_neg hret] at h
    -- the element belongs to the first row that follows, or is a row by itself
    cases hrows : rows m t with
    | nil =>
      rw [hrows, startWith, List.mem_singleton] at h
      subst h
      simp [Ne.symm hfeed, Ne.symm hret]
    | cons first others =>
      rw [hrows, startWith, List.mem_cons] at h
      rcases h with rfl | h
      · have hfirst : first ∈ rows m t := by
          rw [hrows]
          exact List.mem_cons_self
        obtain ⟨hf, hr⟩ := ih hfirst
        simp [Ne.symm hfeed, Ne.symm hret, hf, hr]
      · exact ih (by rw [hrows]; exact List.mem_cons_of_mem _ h)

/-! ## (3) Names and values -/

/-- A name without an equals sign is read back with its value. -/
theorem assignment_append {name : List α} (h : m.sign ∉ name) (value : List α) :
    assignment m (name ++ m.sign :: value) = (name, some value) := by
  have hname : ∀ x ∈ name, decide (x ≠ m.sign) = true := by
    intro x hx
    exact decide_eq_true (fun heq => h (heq ▸ hx))
  rw [assignment, List.takeWhile_append_of_pos hname, List.dropWhile_append_of_pos hname]
  simp

/-- **No name that is read holds one of the signs.** -/
theorem not_mem_of_mem_assignments {t name : List α} {value : Option (List α)}
    (h : (name, value) ∈ assignments m t) : m.sign ∉ name ∧ m.feed ∉ name ∧ m.ret ∉ name := by
  obtain ⟨row, hrow, heq⟩ := List.mem_map.mp h
  obtain ⟨hfeed, hret⟩ := not_mem_of_mem_rows m hrow
  obtain rfl : row.takeWhile (· ≠ m.sign) = name := congrArg Prod.fst heq
  have hsub := List.takeWhile_subset (p := fun x => decide (x ≠ m.sign)) (l := row)
  refine ⟨?_, fun hmem => hfeed (hsub hmem), fun hmem => hret (hsub hmem)⟩
  intro hmem
  have hsign := List.mem_takeWhile_imp hmem
  simp at hsign

/-- **Lines of names and values are read back** behind what was read before. -/
theorem assignments_append {front : List α} (hfront : front = [] ∨ front.getLast? = some m.feed)
    {ι : Type} {outputs : List ι} {name value : ι → List α}
    (hnames : ∀ o ∈ outputs, m.sign ∉ name o ∧ m.feed ∉ name o ∧ m.ret ∉ name o)
    (hvalues : ∀ o ∈ outputs, m.feed ∉ value o ∧ m.ret ∉ value o) :
    assignments m (front ++ outputs.flatMap fun o => name o ++ m.sign :: value o ++ [m.feed]) =
      assignments m front ++ outputs.map fun o => (name o, some (value o)) := by
  rw [assignments, rows_append m hfront, List.map_append, assignments]
  congr 1
  induction outputs with
  | nil => rfl
  | cons o outputs ih =>
    obtain ⟨hsign, hfeed, hret⟩ := hnames o List.mem_cons_self
    obtain ⟨hvfeed, hvret⟩ := hvalues o List.mem_cons_self
    have hline : rows m (name o ++ m.sign :: value o ++ [m.feed]) =
        [name o ++ m.sign :: value o] := by
      refine rows_line m ?_ ?_
      · simp [hfeed, hvfeed, Ne.symm m.sign_ne_feed]
      · simp [hret, hvret, Ne.symm m.sign_ne_ret]
    have hrest := ih (fun p hp => hnames p (List.mem_cons_of_mem _ hp))
      (fun p hp => hvalues p (List.mem_cons_of_mem _ hp))
    rw [List.flatMap_cons, rows_append m (.inr List.getLast?_concat), hline, List.map_append, hrest,
      List.map_singleton, assignment_append m hsign]
    rfl

/-! ## (4) Output lines -/

/-- A key holds none of the signs that outputs are read by. -/
theorem isKey_clean {key : Text} (h : isKey key = true) : '=' ∉ key ∧ '\n' ∉ key ∧ '\r' ∉ key :=
  (isKey_iff.mp h).2

/-- The word for a truth value holds no end of a row. -/
theorem ofBool_clean (value : Bool) : '\n' ∉ Text.ofBool value ∧ '\r' ∉ Text.ofBool value := by
  cases value <;> decide

/-- The bytes of a text hold none of the signs that the text does not hold. -/
theorem encode_clean {t : Text} :
    (Marks.ofBytes.sign ∈ Text.encode t ↔ '=' ∈ t) ∧ (Marks.ofBytes.feed ∈ Text.encode t ↔ '\n' ∈ t) ∧
      (Marks.ofBytes.ret ∈ Text.encode t ↔ '\r' ∈ t) :=
  ⟨Text.mem_encode_iff (c := '=') (by decide), Text.mem_encode_iff (c := '\n') (by decide),
    Text.mem_encode_iff (c := '\r') (by decide)⟩

/-- The lines of outputs, in order. -/
def outputLines (outputs : List (Text × Bool)) : Text := outputs.flatMap fun o => outputLine o.1 o.2

/-- The bytes of output lines are lines of the bytes of their keys and values. -/
theorem encode_outputLines (outputs : List (Text × Bool)) :
    Text.encode (outputLines outputs) = outputs.flatMap fun o => Text.encode o.1 ++
      Marks.ofBytes.sign :: Text.encode (Text.ofBool o.2) ++ [Marks.ofBytes.feed] := by
  have hsign : Text.encodeChar '=' = [Marks.ofBytes.sign] := by decide
  have hfeed : Text.encodeChar '\n' = [Marks.ofBytes.feed] := by decide
  induction outputs with
  | nil => rfl
  | cons o outputs ih =>
    rw [outputLines, List.flatMap_cons, Text.encode_append, ← outputLines, ih, List.flatMap_cons]
    simp [outputLine, hsign, hfeed]

variable {outputs : List (Text × Bool)}

/-- **The lines of outputs are read back from a text** behind what the text held before. -/
theorem assignments_ofText {t : Text} (ht : t = [] ∨ t.getLast? = some '\n')
    (hkeys : ∀ o ∈ outputs, isKey o.1 = true) :
    assignments .ofText (t ++ outputLines outputs) =
      assignments .ofText t ++ outputs.map fun o => (o.1, some (Text.ofBool o.2)) :=
  assignments_append .ofText ht (fun o ho => isKey_clean (hkeys o ho))
    (fun o _ => ofBool_clean o.2)

/-- **The lines of outputs are read back from bytes** behind what the bytes held before. -/
theorem assignments_ofBytes {content : Text.Bytes}
    (hcontent : content = [] ∨ content.getLast? = some 0x0A)
    (hkeys : ∀ o ∈ outputs, isKey o.1 = true) :
    assignments .ofBytes (content ++ Text.encode (outputLines outputs)) =
      assignments .ofBytes content ++
        outputs.map fun o => (Text.encode o.1, some (Text.encode (Text.ofBool o.2))) := by
  rw [encode_outputLines]
  refine assignments_append .ofBytes hcontent ?_ ?_
  · intro o ho
    rw [encode_clean.1, encode_clean.2.1, encode_clean.2.2]
    exact isKey_clean (hkeys o ho)
  · intro o _
    rw [encode_clean.2.1, encode_clean.2.2]
    exact ofBool_clean o.2

/-- **The keys are the texts that are read back** from a line of their own, the blank ones apart. -/
theorem isKey_iff_assignments {key : Text} {value : Bool} :
    isKey key = true ↔ Text.blank key = false ∧
      assignments .ofText (outputLine key value) = [(key, some (Text.ofBool value))] := by
  constructor
  · intro h
    have hkeys : ∀ o ∈ [(key, value)], isKey o.1 = true := by simpa using h
    have hread := assignments_ofText (t := []) (.inl rfl) hkeys
    rw [outputLines, List.flatMap_singleton, List.nil_append] at hread
    exact ⟨(isKey_iff.mp h).1, hread⟩
  · rintro ⟨hblank, h⟩
    -- what is read as a name holds none of the signs
    have hclean := not_mem_of_mem_assignments .ofText (by rw [h]; exact List.mem_singleton_self _)
    exact isKey_iff.mpr ⟨hblank, hclean⟩

/-! ## (5) Output files -/

/-- Outputs given one after the other. -/
def appendOutputs {m : Type → Type} [Monad m] [Host m] (file : Text) (outputs : List (Text × Bool)) :
    m (List (Except Files.Cause Unit)) :=
  outputs.mapM fun o => appendOutput file o.1 o.2

/-- **Outputs given one after the other** all succeed on a writable file, and add their lines to it in
order. -/
theorem appendOutputs_apply (w : Machine) {file : Text} (hwritable : w.Writable file)
    (outputs : List (Text × Bool)) :
    ∃ tree writes errors, (appendOutputs file outputs : Session _) w =
        (outputs.map fun _ => .ok (), { w with tree := tree, writes := writes, errors := errors }) ∧
      tree.contentOf w.cwd file =
        w.tree.contentOf w.cwd file ++ Text.encode (outputLines outputs) := by
  induction outputs generalizing w with
  | nil => exact ⟨w.tree, w.writes, w.errors, rfl, by simp [outputLines]⟩
  | cons o outputs ih =>
    obtain ⟨place, hopened, -⟩ := id hwritable
    obtain ⟨hfault, hline⟩ := hwritable.written hopened (outputParts o.1 o.2)
    obtain ⟨errors, hrun⟩ := appendOutput_of_opened hopened o.1 o.2
    rw [hfault, Option.elim_none] at hrun
    -- the file is writable after the first line, too
    obtain ⟨tree, writes, errors', hrest, hcontent⟩ :=
      ih { w.afterWriting place (outputParts o.1 o.2) with errors := errors }
        (hwritable.afterWriting hopened _)
    refine ⟨tree, writes, errors', ?_, ?_⟩
    · rw [appendOutputs, List.mapM_cons, Session.bind_apply, hrun, Session.bind_apply]
      rw [appendOutputs] at hrest
      rw [hrest]
      rfl
    · have hfirst : (w.afterWriting place (outputParts o.1 o.2)).tree.contentOf w.cwd file =
          w.tree.contentOf w.cwd file ++ Text.encode (outputLine o.1 o.2) := by
        rw [← flatten_outputParts, ← hline]
        exact Files.Tree.contentOf_addTo hopened _
      have hall : tree.contentOf w.cwd file =
          (w.afterWriting place (outputParts o.1 o.2)).tree.contentOf w.cwd file ++
            Text.encode (outputLines outputs) := hcontent
      rw [hall, hfirst, List.append_assoc, ← Text.encode_append]
      rfl

/-- **Outputs are read back from their file.** Outputs for keys, given one after the other on a writable
file, leave what the file held in its place; and if that was nothing or ended in a line feed, reading the
file gives what it gave before and then each key with its value, in order. So it is for the bytes of the
file and, if it held a text, for its text. The keys are the texts that are not blank and are read back
from a line of their own. -/
theorem outputs_roundTrip :
    (∀ (w : Machine) (file : Text) (outputs : List (Text × Bool)), w.Writable file →
      (∀ o ∈ outputs, isKey o.1 = true) →
      (w.tree.contentOf w.cwd file = [] ∨ (w.tree.contentOf w.cwd file).getLast? = some 0x0A) →
      ∃ tree writes errors, (appendOutputs file outputs : Session _) w =
          (outputs.map fun _ => .ok (),
            { w with tree := tree, writes := writes, errors := errors }) ∧
        w.tree.contentOf w.cwd file <+: tree.contentOf w.cwd file ∧
        assignments .ofBytes (tree.contentOf w.cwd file) =
          assignments .ofBytes (w.tree.contentOf w.cwd file) ++
            outputs.map (fun o => (Text.encode o.1, some (Text.encode (Text.ofBool o.2)))) ∧
        ∀ t, w.tree.contentOf w.cwd file = Text.encode t →
          ∃ t', tree.contentOf w.cwd file = Text.encode t' ∧
            assignments .ofText t' =
              assignments .ofText t ++ outputs.map fun o => (o.1, some (Text.ofBool o.2))) ∧
    ∀ (key : Text) (value : Bool), isKey key = true ↔ Text.blank key = false ∧
      assignments .ofText (outputLine key value) = [(key, some (Text.ofBool value))] := by
  refine ⟨?_, fun key value => isKey_iff_assignments⟩
  intro w file outputs hwritable hkeys hend
  obtain ⟨tree, writes, errors, hrun, hcontent⟩ := appendOutputs_apply w hwritable outputs
  refine ⟨tree, writes, errors, hrun, ?_, ?_, ?_⟩
  · rw [hcontent]
    exact List.prefix_append _ _
  · rw [hcontent]
    exact assignments_ofBytes hend hkeys
  · intro t ht
    have htext : t = [] ∨ t.getLast? = some '\n' := by
      rw [ht] at hend
      exact hend.imp Text.encode_eq_nil_iff.mp (Text.getLast?_of_encode (c := '\n') (by decide))
    refine ⟨t ++ outputLines outputs, ?_, assignments_ofText htext hkeys⟩
    rw [hcontent, ht, Text.encode_append]

/-- A machine with an output file that holds a line already. -/
def outputMachine : Machine :=
  .start [] ⟨[(["out".toList], .file (Text.encode "a=b=c\r\n".toList) false)]⟩ [] [] (.ofScript [])

/-- Two outputs are read back behind the assignment that was there, and a text with an equals sign is no
key because it is not. -/
theorem outputs_roundTrip_two :
    outputMachine.Writable "/out".toList ∧
    isKey "changed".toList = true ∧ isKey "docs".toList = true ∧ isKey "a=b".toList = false ∧
    ∃ tree writes errors,
      (appendOutputs "/out".toList [("changed".toList, true), ("docs".toList, false)] :
        Session _) outputMachine =
          ([.ok (), .ok ()],
            { outputMachine with tree := tree, writes := writes, errors := errors }) ∧
      ∃ t', tree.contentOf [] "/out".toList = Text.encode t' ∧
        assignments .ofText t' = [("a".toList, some "b=c".toList),
          ("changed".toList, some "true".toList), ("docs".toList, some "false".toList)] := by
  have hwritable : outputMachine.Writable "/out".toList :=
    ⟨["out".toList], by decide +kernel, fun _ _ => rfl⟩
  have hcontent : outputMachine.tree.contentOf outputMachine.cwd "/out".toList =
      Text.encode "a=b=c\r\n".toList := by decide +kernel
  have hkeys : ∀ o ∈ [("changed".toList, true), ("docs".toList, false)], isKey o.1 = true := by decide
  obtain ⟨hruns, hkeyIff⟩ := outputs_roundTrip
  obtain ⟨tree, writes, errors, hrun, -, -, htext⟩ :=
    hruns outputMachine "/out".toList _ hwritable hkeys
    (by rw [hcontent]; decide)
  obtain ⟨t', ht', hread⟩ := htext _ hcontent
  have hbefore : assignments .ofText "a=b=c\r\n".toList = [("a".toList, some "b=c".toList)] := by
    decide
  have hrefused : ¬ isKey "a=b".toList = true := by
    rw [hkeyIff "a=b".toList true]
    decide
  refine ⟨hwritable, by decide, by decide, by simpa using hrefused, tree, writes, errors, hrun, t', ht',
    ?_⟩
  rw [hread, hbefore]
  rfl

end ChangeGate.Action
