import ChangeGate.Text.Decimal
import Mathlib.Data.List.DropRight

/-! # What trimming leaves

**Trims** describes trimming without a look at how it is done: a text is white space, then a text
that is **tight**, so neither starts nor ends with white space, and then white space again. There is
one such tight text, and `trim` finds it (**`trims_iff`**). -/

namespace ChangeGate.Text

/-! ## (1) White space -/

/-- A digit is no white space. -/
theorem isBlank_of_isDigit {c : Char} (h : isDigit c = true) : isBlank c = false := by
  unfold isDigit digit? at h
  split at h
  · rename_i hc
    have hlow : 48 ≤ c.toNat := hc.1
    have hhigh : c.toNat ≤ 57 := hc.2
    simp only [isBlank, Bool.or_eq_false_iff, Bool.and_eq_false_iff, beq_eq_false_iff_ne,
      decide_eq_false_iff_not]
    omega
  · exact absurd h (by simp)

theorem blank_iff {t : Text} : blank t = true ↔ ∀ c ∈ t, isBlank c = true := List.all_eq_true

/-! ## (2) Tight texts -/

/-- **A tight text** neither starts nor ends with white space. -/
structure Tight (t : Text) : Prop where
  head : ∀ c, t.head? = some c → isBlank c = false
  last : ∀ c, t.getLast? = some c → isBlank c = false

/-- **Trimming**: the text `t` is what is left of `s` without the white space at its two ends. -/
def Trims (s t : Text) : Prop :=
  ∃ lead tail, s = lead ++ t ++ tail ∧ blank lead = true ∧ blank tail = true ∧ Tight t

theorem trimEnd_eq_rdropWhile (t : Text) : trimEnd t = t.rdropWhile isBlank := rfl

/-- White space at the start is dropped. -/
theorem trimStart_append {lead : Text} (h : blank lead = true) (t : Text) :
    trimStart (lead ++ t) = trimStart t :=
  List.dropWhile_append_of_pos (blank_iff.mp h)

/-- White space at the end is dropped. -/
theorem trimEnd_append {tail : Text} (h : blank tail = true) (t : Text) :
    trimEnd (t ++ tail) = trimEnd t := by
  unfold trimEnd
  rw [List.reverse_append, List.dropWhile_append_of_pos]
  intro c hc
  exact blank_iff.mp h c (List.mem_reverse.mp hc)

/-- Nothing is dropped from the start of a text that starts with no white space. -/
theorem trimStart_of_head {t : Text} (h : ∀ c, t.head? = some c → isBlank c = false) :
    trimStart t = t := by
  cases t with
  | nil => rfl
  | cons c t => rw [trimStart_cons, if_neg (by simp [h c rfl])]

/-- Nothing is dropped from the end of a text that ends with no white space. -/
theorem trimEnd_of_last {t : Text} (h : ∀ c, t.getLast? = some c → isBlank c = false) :
    trimEnd t = t := by
  rw [trimEnd_eq_rdropWhile, List.rdropWhile_eq_self_iff]
  intro hne
  rw [h _ (List.getLast?_eq_some_getLast hne)]
  exact Bool.false_ne_true

/-- Trimming leaves a tight text as it is. -/
theorem Tight.trim_eq {t : Text} (h : Tight t) : trim t = t := by
  rw [trim, trimStart_of_head h.head, trimEnd_of_last h.last]

/-- What trimming leaves is tight. -/
theorem tight_trim (t : Text) : Tight (trim t) := by
  constructor
  · intro c hc
    -- the first character of what is left is the first one that is no white space
    obtain ⟨tail, htail⟩ := List.rdropWhile_prefix isBlank (trimStart t)
    have hhead : (trimStart t).head? = some c := by
      rw [← htail, List.head?_append]
      rw [show (List.rdropWhile isBlank (trimStart t)).head? = some c from hc]
      rfl
    have hnot := List.head?_dropWhile_not isBlank t
    rw [show t.dropWhile isBlank = trimStart t from rfl, hhead] at hnot
    simpa using hnot
  · intro c hc
    have hne : (trimStart t).rdropWhile isBlank ≠ [] := by
      intro hnil
      rw [trim, trimEnd_eq_rdropWhile, hnil] at hc
      exact absurd hc (by simp)
    have hlast := List.rdropWhile_last_not isBlank (trimStart t) hne
    rw [trim, trimEnd_eq_rdropWhile, List.getLast?_eq_some_getLast hne] at hc
    rw [Option.some.inj hc] at hlast
    simpa using hlast

/-- A text is tight exactly if there is nothing to trim. -/
theorem tight_iff {t : Text} : Tight t ↔ trim t = t := by
  constructor
  · exact Tight.trim_eq
  · intro h
    rw [← h]
    exact tight_trim t

instance (t : Text) : Decidable (Tight t) := decidable_of_iff (trim t = t) tight_iff.symm

/-- Trimming drops white space only, and only at the ends. -/
theorem trims_trim (t : Text) : Trims t (trim t) := by
  refine ⟨t.takeWhile isBlank, (trimStart t).rtakeWhile isBlank, ?_, ?_, ?_, tight_trim t⟩
  · rw [List.append_assoc, trim, trimEnd_eq_rdropWhile, List.rdropWhile_append_rtakeWhile]
    exact List.takeWhile_append_dropWhile.symm
  · exact blank_iff.mpr fun c hc => List.mem_takeWhile_imp hc
  · exact blank_iff.mpr fun c hc => List.mem_rtakeWhile_imp hc

/-- White space after a text does not change what trimming leaves. -/
theorem trim_append {tail : Text} (h : blank tail = true) (t : Text) : trim (t ++ tail) = trim t := by
  have htail : trimStart tail = [] := List.dropWhile_eq_nil_iff.mpr (blank_iff.mp h)
  have hstart : trimStart (t ++ tail) =
      if (trimStart t).isEmpty then trimStart tail else trimStart t ++ tail := List.dropWhile_append
  rw [trim, trim, hstart]
  split
  · rename_i hempty
    rw [htail, List.isEmpty_iff.mp hempty]
  · exact trimEnd_append h _

/-- White space around a text does not change what trimming leaves. -/
theorem trim_append_append {lead tail : Text} (hlead : blank lead = true) (htail : blank tail = true)
    (t : Text) : trim (lead ++ t ++ tail) = trim t := by
  rw [trim_append htail, trim, trimStart_append hlead, trim]

/-- Nothing is left of a text by trimming exactly if it is blank. -/
theorem trim_eq_nil_iff {t : Text} : trim t = [] ↔ blank t = true := by
  constructor
  · intro h
    obtain ⟨lead, tail, ht, hlead, htail, -⟩ := trims_trim t
    rw [h, List.append_nil] at ht
    rw [ht, blank, List.all_append, Bool.and_eq_true]
    exact ⟨hlead, htail⟩
  · intro h
    have hpadded : trim ([] ++ t) = trim [] := trim_append h []
    exact hpadded

/-- White space is trimmed behind a character that is none. -/
theorem trimEnd_cons {c : Char} (hc : isBlank c = false) (t : Text) :
    trimEnd (c :: t) = c :: trimEnd t := by
  rw [trimEnd, trimEnd, List.reverse_cons, List.dropWhile_append]
  split
  · rename_i hempty
    rw [List.isEmpty_iff.mp hempty]
    simp [hc]
  · rw [List.reverse_append]
    rfl

/-- Trimming a text that starts with no white space is trimming what follows. -/
theorem trim_cons {c : Char} (hc : isBlank c = false) (t : Text) : trim (c :: t) = c :: trimEnd t := by
  rw [trim, trimStart_cons, hc, if_neg Bool.false_ne_true, trimEnd_cons hc]

/-- Trimming the end first makes no difference. -/
theorem trim_trimEnd (t : Text) : trim (trimEnd t) = trim t := by
  have htail : blank (t.rtakeWhile isBlank) = true :=
    blank_iff.mpr fun c hc => List.mem_rtakeWhile_imp hc
  calc trim (trimEnd t) = trim (trimEnd t ++ t.rtakeWhile isBlank) := (trim_append htail _).symm
    _ = trim t := by rw [trimEnd_eq_rdropWhile, List.rdropWhile_append_rtakeWhile]

/-- **Trimming leaves the one tight text** between white space. -/
theorem trims_iff {s t : Text} : Trims s t ↔ t = trim s := by
  constructor
  · rintro ⟨lead, tail, rfl, hlead, htail, ht⟩
    rw [trim_append_append hlead htail, ht.trim_eq]
  · rintro rfl
    exact trims_trim s

end ChangeGate.Text
