import ChangeGate.Text.Lines
import Mathlib.Data.List.Basic

/-! # The lines of a text

**Lines** cuts a text into lines without a look at how it is done: a line ends at the first line feed,
and a carriage return before the line feed belongs to the end of the line. What follows the last line
feed is a line of its own unless it is empty. There is one such cut, and `lines` finds it
(**`lines_iff`**). -/

namespace ChangeGate.Text

/-! ## (1) Pieces and their ends -/

section Pieces

variable {α : Type} [DecidableEq α] {sep ret : α}

/-- **Induction on the separators of a list**: either there is none, or the first one leaves a shorter list
behind it. -/
theorem separatorInduction (sep : α) {P : List α → Prop} (last : ∀ t, sep ∉ t → P t)
    (next : ∀ front rest, sep ∉ front → P rest → P (front ++ sep :: rest)) (t : List α) : P t := by
  induction hlength : t.length using Nat.strongRecOn generalizing t with
  | ind n ih =>
    subst hlength
    by_cases hsep : sep ∈ t
    · obtain ⟨front, rest, rfl, hfront⟩ := List.eq_append_cons_of_mem hsep
      have hrest : P rest := ih rest.length (by simp; omega) rest rfl
      exact next front rest hfront hrest
    · exact last t hsep

/-- A list without a separator is one piece. -/
theorem pieces_of_not_mem {t : List α} (h : sep ∉ t) : pieces sep t = [t] := by
  induction t with
  | nil => rfl
  | cons x t ih =>
    rw [pieces, if_neg (List.ne_of_not_mem_cons h).symm, ih (List.not_mem_of_not_mem_cons h)]

/-- There is always a piece. -/
theorem pieces_ne_nil (sep : α) (t : List α) : pieces sep t ≠ [] := by
  cases t with
  | nil => simp
  | cons x t =>
    rw [pieces]
    split
    · simp
    · split <;> simp

/-- The pieces before a separator and those behind it. -/
theorem pieces_append_sep (front rest : List α) :
    pieces sep (front ++ sep :: rest) = pieces sep front ++ pieces sep rest := by
  induction front with
  | nil => exact pieces_cons_sep sep rest
  | cons x front ih =>
    by_cases hx : x = sep
    · rw [hx, List.cons_append, pieces_cons_sep, pieces_cons_sep, ih, List.cons_append]
    · obtain ⟨piece, more, hpieces⟩ := List.exists_cons_of_ne_nil (pieces_ne_nil sep front)
      rw [List.cons_append, pieces, if_neg hx, ih, hpieces, pieces, if_neg hx, hpieces]
      rfl

/-- What precedes the first separator is the first piece. -/
theorem pieces_append {front : List α} (h : sep ∉ front) (rest : List α) :
    pieces sep (front ++ sep :: rest) = front :: pieces sep rest := by
  rw [pieces_append_sep, pieces_of_not_mem h, List.singleton_append]

/-- The first piece precedes the first separator, and the others are the pieces behind it. -/
theorem pieces_eq_cons_iff {t first : List α} {more : List (List α)} :
    pieces sep t = first :: more ↔
      sep ∉ first ∧ (t = first ∧ more = [] ∨ ∃ rest, t = first ++ sep :: rest ∧ pieces sep rest = more) := by
  constructor
  · intro h
    by_cases hsep : sep ∈ t
    · obtain ⟨front, rest, rfl, hfront⟩ := List.eq_append_cons_of_mem hsep
      rw [pieces_append hfront] at h
      obtain ⟨rfl, rfl⟩ := List.cons.inj h
      exact ⟨hfront, .inr ⟨rest, rfl, rfl⟩⟩
    · rw [pieces_of_not_mem hsep] at h
      obtain ⟨rfl, rfl⟩ := List.cons.inj h
      exact ⟨hsep, .inl ⟨rfl, rfl⟩⟩
  · rintro ⟨hfirst, ⟨rfl, rfl⟩ | ⟨rest, rfl, rfl⟩⟩
    · exact pieces_of_not_mem hfirst
    · exact pieces_append hfirst rest

/-- No separator is in a piece. -/
theorem not_mem_of_mem_pieces {t piece : List α} (h : piece ∈ pieces sep t) : sep ∉ piece := by
  induction t using separatorInduction sep with
  | last t hsep =>
    rw [pieces_of_not_mem hsep, List.mem_singleton] at h
    rwa [h]
  | next front rest hfront ih =>
    rw [pieces_append hfront, List.mem_cons] at h
    rcases h with rfl | h
    · exact hfront
    · exact ih h

/-- There is one piece more than there are separators. -/
theorem length_pieces (t : List α) : (pieces sep t).length = t.count sep + 1 := by
  induction t with
  | nil => rfl
  | cons x t ih =>
    by_cases hx : x = sep
    · rw [hx, pieces_cons_sep, List.length_cons, ih, List.count_cons_self]
    · obtain ⟨piece, more, hpieces⟩ := List.exists_cons_of_ne_nil (pieces_ne_nil sep t)
      rw [List.count_cons_of_ne hx, ← ih, pieces, if_neg hx, hpieces]
      rfl

/-- A piece before others was ended by a separator. -/
theorem closeLines_cons {piece : List α} {pieces : List (List α)} (h : pieces ≠ []) :
    closeLines ret (piece :: pieces) = dropLastIf ret piece :: closeLines ret pieces := by
  cases pieces with
  | nil => exact absurd rfl h
  | cons next rest => rfl

/-- A list without the mark that ends lines is a line, unless it is empty. -/
theorem linesOf_of_not_mem {t : List α} (h : sep ∉ t) :
    linesOf sep ret t = if t = [] then [] else [t] := by
  rw [linesOf, pieces_of_not_mem h, closeLines]

/-- What precedes the first mark that ends lines is the first line, up to a return mark. -/
theorem linesOf_append {front : List α} (h : sep ∉ front) (rest : List α) :
    linesOf sep ret (front ++ sep :: rest) = dropLastIf ret front :: linesOf sep ret rest := by
  rw [linesOf, pieces_append h, closeLines_cons (pieces_ne_nil sep rest)]
  rfl

end Pieces

/-! ## (2) Lines -/

/-- **The lines of a text**, read from its start. -/
inductive Lines : Text → List Text → Prop where
  /-- Nothing is left. -/
  | nil : Lines [] []
  /-- The last line is not ended. -/
  | last {line : Text} : line ≠ [] → '\n' ∉ line → Lines line [line]
  /-- A line is ended by a line feed alone. -/
  | feed {line rest : Text} {ls : List Text} :
      '\n' ∉ line → line.getLast? ≠ some '\r' → Lines rest ls →
      Lines (line ++ '\n' :: rest) (line :: ls)
  /-- A line is ended by a carriage return and a line feed. -/
  | returnFeed {line rest : Text} {ls : List Text} :
      '\n' ∉ line → Lines rest ls → Lines (line ++ '\r' :: '\n' :: rest) (line :: ls)

/-- A text without a line feed is a line, unless it is empty. -/
theorem lines_of_not_mem {t : Text} (h : '\n' ∉ t) : lines t = if t = [] then [] else [t] :=
  linesOf_of_not_mem h

/-- What precedes the first line feed is the first line, up to a carriage return. -/
theorem lines_append {front : Text} (h : '\n' ∉ front) (rest : Text) :
    lines (front ++ '\n' :: rest) = dropLastIf '\r' front :: lines rest :=
  linesOf_append h rest

/-- The lines that are found are lines of the text: induction on the line feeds. -/
theorem lines_lines (t : Text) : Lines t (lines t) := by
  induction t using separatorInduction '\n' with
  | last t hfeed =>
    rw [lines_of_not_mem hfeed]
    by_cases ht : t = []
    · rw [if_pos ht, ht]
      exact .nil
    · rw [if_neg ht]
      exact .last ht hfeed
  | next front rest hfront hrest =>
    rw [lines_append hfront, dropLastIf]
    by_cases hreturn : front.getLast? = some '\r'
    · rw [if_pos hreturn]
      -- the carriage return belongs to the end of the line
      obtain ⟨line, rfl⟩ := List.getLast?_eq_some_iff.mp hreturn
      rw [List.dropLast_concat, List.append_assoc]
      exact .returnFeed (fun hmem => hfront (List.mem_append_left _ hmem)) hrest
    · rw [if_neg hreturn]
      exact .feed hfront hreturn hrest

/-- **A text is cut into lines in one way.** -/
theorem lines_iff {t : Text} {ls : List Text} : Lines t ls ↔ ls = lines t := by
  constructor
  · intro h
    induction h with
    | nil => rfl
    | last hne hfeed => rw [lines_of_not_mem hfeed, if_neg hne]
    | feed hfeed hreturn _ ih => rw [lines_append hfeed, dropLastIf, if_neg hreturn, ih]
    | @returnFeed line rest ls hfeed _ ih =>
      have hfront : '\n' ∉ line ++ ['\r'] := by simp [hfeed]
      rw [List.append_cons, lines_append hfront, dropLastIf, if_pos (by simp), List.dropLast_concat,
        ih]
  · rintro rfl
    exact lines_lines t

end ChangeGate.Text
