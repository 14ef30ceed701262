import ChangeGate.Text.Order
import Mathlib.Data.List.Sort

/-! # Ascending texts

The order of texts is strict and total, so a text that is put into its place in an ascending list
leaves the list ascending (**`pairwise_place`**). A list that is brought into order names each of its
texts once (**`pairwise_ascending`**), and it is determined by its texts (**`eq_of_ascending`**). -/

namespace ChangeGate.Text

/-! ## (1) The order of texts -/

variable {s t u : Text}

/-- Texts with a first character are ordered by it, and by the rest if it is the same. -/
theorem before_cons {c d : Char} :
    before (c :: s) (d :: t) = true ↔ c.toNat < d.toNat ∨ c = d ∧ before s t = true := by
  simp [before]

/-- No text comes before itself. -/
theorem not_before_self (t : Text) : ¬ before t t = true := by
  induction t with
  | nil => simp [before]
  | cons c t ih =>
    rw [before_cons]
    rintro (hless | ⟨-, hrest⟩)
    · omega
    · exact ih hrest

/-- A text before another one comes before all that the other one comes before. -/
theorem before_trans (hst : before s t = true) (htu : before t u = true) : before s u = true := by
  induction s generalizing t u with
  | nil =>
    cases u with
    | nil => cases t <;> simp [before] at htu
    | cons e u => rfl
  | cons c s ih =>
    cases t with
    | nil => simp [before] at hst
    | cons d t =>
      cases u with
      | nil => simp [before] at htu
      | cons e u =>
        rw [before_cons] at hst htu ⊢
        rcases hst with hcd | ⟨rfl, hst⟩
        · -- the first difference of the first two texts is their first character
          rcases htu with hde | ⟨rfl, -⟩
          · exact .inl (by omega)
          · exact .inl hcd
        · rcases htu with hce | ⟨rfl, htu⟩
          · exact .inl hce
          · exact .inr ⟨rfl, ih hst htu⟩

/-- Of two different texts that are not in order, the other way round they are. -/
theorem before_of_not (hne : s ≠ t) (h : ¬ before s t = true) : before t s = true := by
  induction s generalizing t with
  | nil =>
    cases t with
    | nil => exact absurd rfl hne
    | cons d t => exact absurd rfl h
  | cons c s ih =>
    cases t with
    | nil => rfl
    | cons d t =>
      rw [before_cons] at h ⊢
      have hle : ¬ c.toNat < d.toNat := fun hless => h (.inl hless)
      by_cases hcd : c = d
      · subst hcd
        have hrest : ¬ before s t = true := fun hst => h (.inr ⟨rfl, hst⟩)
        have htail : s ≠ t := fun heq => hne (by rw [heq])
        exact .inr ⟨rfl, ih htail hrest⟩
      · have hcodes : c.toNat ≠ d.toNat := fun heq => hcd (Char.toNat_inj.mp heq)
        exact .inl (by omega)

/-! ## (2) Ascending lists -/

/-- **A text that is put into its place** leaves an ascending list ascending. -/
theorem pairwise_place {l : List Text} (hl : l.Pairwise fun s t => before s t = true) (t : Text) :
    (place t l).Pairwise fun s t => before s t = true := by
  induction l with
  | nil => exact List.pairwise_singleton _ _
  | cons u l ih =>
    obtain ⟨hu, hrest⟩ := List.pairwise_cons.mp hl
    rw [place]
    -- the text is there already, comes before all others, or is placed further on
    by_cases htu : t = u
    · rw [if_pos htu]
      exact hl
    rw [if_neg htu]
    by_cases hbefore : before t u = true
    · rw [if_pos hbefore]
      refine List.pairwise_cons.mpr ⟨?_, hl⟩
      intro v hv
      rcases List.mem_cons.mp hv with rfl | hv
      · exact hbefore
      · exact before_trans hbefore (hu v hv)
    · rw [if_neg hbefore]
      refine List.pairwise_cons.mpr ⟨?_, ih hrest⟩
      intro v hv
      rcases mem_place.mp hv with rfl | hv
      · exact before_of_not htu hbefore
      · exact hu v hv

/-- **Texts in order ascend strictly.** -/
theorem pairwise_ascending (ts : List Text) :
    (ascending ts).Pairwise fun s t => before s t = true := by
  induction ts with
  | nil => exact List.Pairwise.nil
  | cons t ts ih => exact pairwise_place ih t

/-- Texts in order are named once each. -/
theorem nodup_ascending (ts : List Text) : (ascending ts).Nodup := by
  refine (pairwise_ascending ts).imp ?_
  rintro s t hst rfl
  exact not_before_self s hst

/-- **Ascending lists of the same texts are the same.** -/
theorem eq_of_ascending {l l' : List Text} (hl : l.Pairwise fun s t => before s t = true)
    (hl' : l'.Pairwise fun s t => before s t = true) (hmem : ∀ t, t ∈ l ↔ t ∈ l') : l = l' := by
  have hirrefl : Std.Irrefl fun s t => before s t = true := ⟨not_before_self⟩
  have hantisymm : Std.Antisymm fun s t => before s t = true :=
    ⟨fun s t hst hts => absurd (before_trans hst hts) (not_before_self s)⟩
  exact hl.eq_of_mem_iff hl' hmem

end ChangeGate.Text
