import ChangeGate.Json.Value
import ChangeGate.Proofs.Json.Number
import ChangeGate.Proofs.Json.StringLiteral
import Mathlib.Data.List.DropRight

/-! # How values are spelled

The reader of values takes a number of steps and a limit for open lists and objects. **Spells** has neither:
it says which text spells a value, the elements of a list or the members of an object, and what follows them.
Whatever the reader accepts is spelled so, at any limit (**`spells_of_read`**), and a rule of `Spells` tells
which readers of parts have succeeded. Each spelling is longer than what it spells (**`Spells.length_lt`**). -/

namespace ChangeGate.Json

/-! ## (1) Spellings -/

/-- What a piece of text may spell: a value, or what is left of a list or an object up to its end, of which
`first` says that nothing of it was read before. -/
inductive Part where
  | value (v : Value)
  | elements (first : Bool) (vs : List Value)
  | members (first : Bool) (ms : List (Text × Value))

/-- **Spelling**: a text starts with a part, and what follows it is its rest. -/
inductive Spells : Part → Text → Text → Prop where
  | null {t behind rest : Text} : skipSpace t = 'n' :: behind →
      expectWord "ull".toList behind = .ok rest → Spells (.value .null) t rest
  | true {t behind rest : Text} : skipSpace t = 't' :: behind →
      expectWord "rue".toList behind = .ok rest → Spells (.value (.bool true)) t rest
  | false {t behind rest : Text} : skipSpace t = 'f' :: behind →
      expectWord "alse".toList behind = .ok rest → Spells (.value (.bool false)) t rest
  /-- A number with a minus sign. -/
  | negative {t behind rest : Text} {n : Number} : skipSpace t = '-' :: behind →
      readNumber true behind = .ok (n, rest) → Spells (.value (.number n)) t rest
  | number {c : Char} {t behind rest : Text} {n : Number} : skipSpace t = c :: behind →
      Text.isDigit c = true → readNumber false (c :: behind) = .ok (n, rest) →
      Spells (.value (.number n)) t rest
  | string {t behind rest s : Text} : skipSpace t = '"' :: behind →
      readString behind = .ok (s, rest) → Spells (.value (.string s)) t rest
  | list {t behind rest : Text} {vs : List Value} : skipSpace t = '[' :: behind →
      Spells (.elements true vs) behind rest → Spells (.value (.list vs)) t rest
  | object {t behind rest : Text} {ms : List (Text × Value)} : skipSpace t = '\x7b' :: behind →
      Spells (.members true ms) behind rest → Spells (.value (.object ms)) t rest
  /-- The end of a list. -/
  | listEnd {first : Bool} {t rest : Text} : nextElement first t = .ok (false, rest) →
      Spells (.elements first []) t rest
  /-- An element, and the others. -/
  | element {first : Bool} {t start behind rest : Text} {v : Value} {vs : List Value} :
      nextElement first t = .ok (true, start) → Spells (.value v) start behind →
      Spells (.elements false vs) behind rest → Spells (.elements first (v :: vs)) t rest
  /-- The end of an object. -/
  | objectEnd {first : Bool} {t rest : Text} : nextKey first t = .ok (false, rest) →
      Spells (.members first []) t rest
  /-- A member, and the others. -/
  | member {first : Bool} {t start colon value behind rest key : Text} {v : Value}
      {ms : List (Text × Value)} : nextKey first t = .ok (true, start) →
      readString start = .ok (key, colon) → expectColon colon = .ok value →
      Spells (.value v) value behind → Spells (.members false ms) behind rest →
      Spells (.members first ((key, v) :: ms)) t rest

/-! ## (2) What is read is spelled -/

/-- What the three readers accept within `fuel` steps is spelled so. -/
structure Sound (fuel : Nat) : Prop where
  value : ∀ {depth t v rest}, readValueWithin fuel depth t = .ok (v, rest) → Spells (.value v) t rest
  elements : ∀ {depth first t vs rest}, readElementsWithin fuel depth first t = .ok (vs, rest) →
    Spells (.elements first vs) t rest
  members : ∀ {depth first t ms rest}, readMembersWithin fuel depth first t = .ok (ms, rest) →
    Spells (.members first ms) t rest

variable {fuel : Nat}

/-- One more step for a value. -/
theorem Sound.value_succ (ih : Sound fuel) {depth : Nat} {t : Text} {v : Value} {rest : Text}
    (h : readValueWithin (fuel + 1) depth t = .ok (v, rest)) : Spells (.value v) t rest := by
  unfold readValueWithin at h
  split at h
  · exact absurd h (by simp)
  · -- the three words
    rename_i hstart
    obtain ⟨hword, rfl⟩ := map_word_eq_ok h
    exact .null hstart hword
  · rename_i hstart
    obtain ⟨hword, rfl⟩ := map_word_eq_ok h
    exact .true hstart hword
  · rename_i hstart
    obtain ⟨hword, rfl⟩ := map_word_eq_ok h
    exact .false hstart hword
  · rename_i hstart
    obtain ⟨n, hnumber, rfl⟩ := map_pair_eq_ok h
    exact .negative hstart hnumber
  · rename_i hstart
    obtain ⟨s, hstring, rfl⟩ := map_pair_eq_ok h
    exact .string hstart hstring
  · -- a list or an object is only read while the limit allows it
    rename_i hstart
    split at h
    · exact absurd h (by simp)
    · obtain ⟨vs, helements, rfl⟩ := map_pair_eq_ok h
      exact .list hstart (ih.elements helements)
  · rename_i hstart
    split at h
    · exact absurd h (by simp)
    · obtain ⟨ms, hmembers, rfl⟩ := map_pair_eq_ok h
      exact .object hstart (ih.members hmembers)
  · rename_i hstart
    split at h
    · rename_i hdigit
      obtain ⟨n, hnumber, rfl⟩ := map_pair_eq_ok h
      exact .number hstart hdigit hnumber
    · exact absurd h (by simp)

/-- One more step for the elements of a list. -/
theorem Sound.elements_succ (ih : Sound fuel) {depth : Nat} {first : Bool} {t : Text}
    {vs : List Value} {rest : Text}
    (h : readElementsWithin (fuel + 1) depth first t = .ok (vs, rest)) :
    Spells (.elements first vs) t rest := by
  unfold readElementsWithin at h
  split at h
  · exact absurd h (by simp)
  · rename_i hnext
    obtain ⟨rfl, rfl⟩ := Prod.mk.inj (Except.ok.inj h)
    exact .listEnd hnext
  · rename_i hnext
    split at h
    · exact absurd h (by simp)
    · rename_i hvalue
      obtain ⟨vs, helements, rfl⟩ := map_pair_eq_ok h
      exact .element hnext (ih.value hvalue) (ih.elements helements)

/-- One more step for the members of an object. -/
theorem Sound.members_succ (ih : Sound fuel) {depth : Nat} {first : Bool} {t : Text}
    {ms : List (Text × Value)} {rest : Text}
    (h : readMembersWithin (fuel + 1) depth first t = .ok (ms, rest)) :
    Spells (.members first ms) t rest := by
  unfold readMembersWithin at h
  split at h
  · exact absurd h (by simp)
  · rename_i hnext
    obtain ⟨rfl, rfl⟩ := Prod.mk.inj (Except.ok.inj h)
    exact .objectEnd hnext
  · rename_i hnext
    split at h
    · exact absurd h (by simp)
    · rename_i hkey
      split at h
      · exact absurd h (by simp)
      · rename_i hcolon
        split at h
        · exact absurd h (by simp)
        · rename_i hvalue
          obtain ⟨ms, hmembers, rfl⟩ := map_pair_eq_ok h
          exact .member hnext hkey hcolon (ih.value hvalue) (ih.members hmembers)

/-- The three readers accept nothing but spellings. -/
theorem sound (fuel : Nat) : Sound fuel := by
  induction fuel with
  | zero =>
    exact ⟨fun h => absurd h (by simp [readValueWithin]),
      fun h => absurd h (by simp [readElementsWithin]),
      fun h => absurd h (by simp [readMembersWithin])⟩
  | succ fuel ih => exact ⟨ih.value_succ, ih.elements_succ, ih.members_succ⟩

/-- **What is read is spelled**, whatever the limits of the reading are. -/
theorem spells_of_read {depth : Nat} {t : Text} {v : Value} {rest : Text}
    (h : readValueWithin fuel depth t = .ok (v, rest)) : Spells (.value v) t rest :=
  (sound fuel).value h

/-! ## (3) White space, separators and words -/

section Parts

variable {first : Bool} {t behind rest : Text}

@[simp] theorem skipSpace_skipSpace (t : Text) : skipSpace (skipSpace t) = skipSpace t :=
  List.dropWhile_idempotent isSpace t

/-- A value is spelled with or without the white space before it. -/
theorem Spells.skipSpace {v : Value} (h : Spells (.value v) t rest) :
    Spells (.value v) (Json.skipSpace t) rest := by
  cases h with
  | null hstart hword => exact .null (by rwa [skipSpace_skipSpace]) hword
  | true hstart hword => exact .true (by rwa [skipSpace_skipSpace]) hword
  | false hstart hword => exact .false (by rwa [skipSpace_skipSpace]) hword
  | negative hstart hnumber => exact .negative (by rwa [skipSpace_skipSpace]) hnumber
  | number hstart hdigit hnumber => exact .number (by rwa [skipSpace_skipSpace]) hdigit hnumber
  | string hstart hstring => exact .string (by rwa [skipSpace_skipSpace]) hstring
  | list hstart helements => exact .list (by rwa [skipSpace_skipSpace]) helements
  | object hstart hmembers => exact .object (by rwa [skipSpace_skipSpace]) hmembers

theorem skipSpace_length_le (t : Text) : (skipSpace t).length ≤ t.length :=
  (List.dropWhile_suffix isSpace).length_le

theorem length_lt_of_skipSpace {c : Char} (h : skipSpace t = c :: behind) :
    behind.length < t.length := by
  have hle : (skipSpace t).length ≤ t.length := skipSpace_length_le t
  rw [h, List.length_cons] at hle
  omega

/-- **What separates** the next part of a list or an object from what was read before: nothing before the
first part, and a comma before the others. -/
def Separated (first : Bool) (t behind : Text) : Prop :=
  if first then behind = t else skipSpace t = ',' :: behind

theorem Separated.length_le (h : Separated first t behind) : behind.length ≤ t.length := by
  unfold Separated at h
  split at h
  · exact h ▸ Nat.le_refl _
  · exact Nat.le_of_lt (length_lt_of_skipSpace h)

/-- A list ends at its bracket. -/
theorem nextElement_end (h : nextElement first t = .ok (false, rest)) : skipSpace t = ']' :: rest := by
  unfold nextElement at h
  split at h
  · exact absurd h (by simp)
  · rename_i hend
    rw [hend, (Prod.mk.inj (Except.ok.inj h)).2]
  · split at h
    · exact absurd h (by simp)
    · split at h
      · exact absurd h (by simp)
      · split at h <;> exact absurd h (by simp)

/-- The next element of a list stands behind what separates it. -/
theorem nextElement_more (h : nextElement first t = .ok (true, rest)) :
    ∃ behind, Separated first t behind ∧ rest = skipSpace behind ∧
      ∃ c more, rest = c :: more ∧ c ≠ ']' := by
  unfold nextElement at h
  split at h
  · exact absurd h (by simp)
  · exact absurd h (by simp)
  · rename_i c after hend hstart
    split at h
    · -- the first element needs no comma, and is found behind the white space
      rename_i hfirst
      obtain rfl := (Prod.mk.inj (Except.ok.inj h)).2
      refine ⟨t, ?_, hstart.symm, c, after, rfl, hend⟩
      rw [Separated, if_pos hfirst]
    · rename_i hfirst
      split at h
      · exact absurd h (by simp)
      · rename_i hcomma
        split at h
        · exact absurd h (by simp)
        · exact absurd h (by simp)
        · rename_i hnone hbracket
          obtain rfl := (Prod.mk.inj (Except.ok.inj h)).2
          refine ⟨after, ?_, rfl, ?_⟩
          · rw [Separated, if_neg hfirst, hstart, not_not.mp hcomma]
          · cases hmore : skipSpace after with
            | nil => exact absurd hmore hnone
            | cons d more => exact ⟨d, more, rfl, fun hd => hbracket more (by rw [hmore, hd])⟩

/-- An object ends at its bracket. -/
theorem nextKey_end (h : nextKey first t = .ok (false, rest)) : skipSpace t = '\x7d' :: rest := by
  unfold nextKey at h
  split at h
  · exact absurd h (by simp)
  · rename_i hend
    rw [hend, (Prod.mk.inj (Except.ok.inj h)).2]
  · split at h
    · split at h <;> exact absurd h (by simp)
    · split at h
      · exact absurd h (by simp)
      · split at h <;> exact absurd h (by simp)

/-- The next key of an object stands behind what separates it. -/
theorem nextKey_more (h : nextKey first t = .ok (true, rest)) :
    ∃ behind, Separated first t behind ∧ skipSpace behind = '"' :: rest := by
  unfold nextKey at h
  split at h
  · exact absurd h (by simp)
  · exact absurd h (by simp)
  · rename_i c after hend hstart
    split at h
    · rename_i hfirst
      split at h
      · rename_i hquote
        obtain rfl := (Prod.mk.inj (Except.ok.inj h)).2
        exact ⟨t, by rw [Separated, if_pos hfirst], by rw [hstart, hquote]⟩
      · exact absurd h (by simp)
    · rename_i hfirst
      split at h
      · exact absurd h (by simp)
      · rename_i hcomma
        split at h
        · exact absurd h (by simp)
        · rename_i hkey
          obtain rfl := (Prod.mk.inj (Except.ok.inj h)).2
          refine ⟨after, ?_, hkey⟩
          rw [Separated, if_neg hfirst, hstart, not_not.mp hcomma]
        · exact absurd h (by simp)
        · exact absurd h (by simp)

theorem expectColon_eq_ok (h : expectColon t = .ok rest) : skipSpace t = ':' :: rest := by
  unfold expectColon at h
  split at h
  · exact absurd h (by simp)
  · rename_i hcolon
    rw [hcolon, Except.ok.inj h]
  · exact absurd h (by simp)

theorem expectWord_length_le {word : Text} (h : expectWord word t = .ok rest) :
    rest.length ≤ t.length := by
  induction word generalizing t with
  | nil =>
    obtain rfl : t = rest := Except.ok.inj h
    exact Nat.le_refl _
  | cons w word ih =>
    cases t with
    | nil => exact absurd h (by simp [expectWord])
    | cons c t =>
      unfold expectWord at h
      split at h
      · exact Nat.le_succ_of_le (ih h)
      · exact absurd h (by simp)

end Parts

/-! ## (4) Lengths -/

/-- How many values stand next to each other in a part. -/
def Part.count : Part → Nat
  | .value _ => 0
  | .elements _ vs => vs.length
  | .members _ ms => ms.length

/-- **A spelling is longer** than its rest, by a character for each value in a row at least. -/
theorem Spells.length_lt {p : Part} {t rest : Text} (h : Spells p t rest) :
    p.count + rest.length < t.length := by
  induction h with
  | null hstart hword | true hstart hword | false hstart hword =>
    have hlt := length_lt_of_skipSpace hstart
    have hle := expectWord_length_le hword
    simp only [Part.count]
    omega
  | negative hstart hnumber =>
    have hlt := length_lt_of_skipSpace hstart
    have hle := ignoreNumber_length_lt (readNumber_spec hnumber).2
    simp only [Part.count]
    omega
  | @number _ t _ _ _ hstart _ hnumber =>
    have hle := skipSpace_length_le t
    have hlt := ignoreNumber_length_lt (readNumber_spec hnumber).2
    rw [hstart] at hle
    simp only [Part.count]
    omega
  | string hstart hstring =>
    have hlt := length_lt_of_skipSpace hstart
    have hle := (ignoreString_of_read hstring).2
    simp only [Part.count]
    omega
  | list hstart _ ih | object hstart _ ih =>
    have hlt := length_lt_of_skipSpace hstart
    simp only [Part.count] at ih ⊢
    omega
  | listEnd hend =>
    have hlt := length_lt_of_skipSpace (nextElement_end hend)
    simp only [Part.count, List.length_nil]
    omega
  | element hnext _ _ ihvalue ihmore =>
    obtain ⟨behind, hseparated, rfl, -⟩ := nextElement_more hnext
    have hle := hseparated.length_le
    have hskip := skipSpace_length_le behind
    simp only [Part.count, List.length_cons] at ihvalue ihmore ⊢
    omega
  | objectEnd hend =>
    have hlt := length_lt_of_skipSpace (nextKey_end hend)
    simp only [Part.count, List.length_nil]
    omega
  | member hnext hkey hcolon _ _ ihvalue ihmore =>
    -- the quotation mark, the key, the colon and the value take something each
    obtain ⟨behind, hseparated, hquote⟩ := nextKey_more hnext
    have hle := hseparated.length_le
    have hlt := length_lt_of_skipSpace hquote
    have hkeylt := (ignoreString_of_read hkey).2
    have hcolonlt := length_lt_of_skipSpace (expectColon_eq_ok hcolon)
    simp only [Part.count, List.length_cons] at ihvalue ihmore ⊢
    omega

end ChangeGate.Json
