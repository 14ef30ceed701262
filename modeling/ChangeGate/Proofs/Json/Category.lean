import ChangeGate.Json.Value

/-! # What a text of JSON is refused for

Reading a value asks for no shape. So each reader of a part of a value is **formal**: where it fails, the text
is malformed or ends too early, but it is never of the wrong shape. The parts are put together by induction
on the steps that are left, so a whole document is read formally, too (**`formal_readDocument`**). -/

namespace ChangeGate.Json

variable {α β : Type} {t : Text}

/-! ## (1) Formal results -/

/-- **A result is formal** if it is no fault of the category of misfits. -/
def Formal (result : Except Fault α) : Prop :=
  ∀ f, result = .error f → f.reason.category ≠ .wrongShape

/-- A value is formal. -/
@[simp] theorem formal_ok (a : α) : Formal (.ok a) := fun _ h => absurd h (by simp)

/-- A fault is formal exactly if it is no misfit. -/
@[simp] theorem formal_error {f : Fault} :
    Formal (.error f : Except Fault α) ↔ f.reason.category ≠ .wrongShape := by
  constructor
  · exact fun h => h f rfl
  · rintro h _ hf
    rwa [← Except.error.inj hf]

/-- The fault of a formal result that is passed on is formal, too. -/
theorem Formal.passed_on {result : Except Fault α} {f : Fault} (h : Formal result)
    (hfails : result = .error f) : Formal (.error f : Except Fault β) :=
  formal_error.mpr (h f hfails)

/-- A result stays formal when its value is changed. -/
@[simp] theorem formal_map {result : Except Fault α} {g : α → β} :
    Formal (result.map g) ↔ Formal result := by
  cases result <;> simp [Except.map]

/-- A fault before a text has the reason that it is given. -/
@[simp] theorem Fault.reason_before (reason : Reason) (t : Text) : (Fault.before reason t).reason = reason :=
  rfl

/-- So has a fault behind the next byte. -/
@[simp] theorem Fault.reason_past (reason : Reason) (t : Text) : (Fault.past reason t).reason = reason :=
  rfl

/-! ## (2) Strings -/

/-- Hexadecimal digits are read formally. -/
theorem formal_hexFour : Formal (hexFour t) := by
  unfold hexFour
  split
  · simp [Reason.category]
  split
  · split <;> simp [Reason.category]
  · simp [Reason.category]

/-- So is a character that is given by them. -/
theorem formal_unicodeEscape : Formal (unicodeEscape t) := by
  unfold unicodeEscape
  split
  · rename_i hfails
    exact formal_hexFour.passed_on hfails
  split
  · simp [Reason.category]
  split
  · simp
  -- the other half of a pair has to follow
  split
  · simp [Reason.category]
  · simp [Reason.category]
  · split
    · rename_i hfails
      exact formal_hexFour.passed_on hfails
    · split <;> simp [Reason.category]
  · simp [Reason.category]
  · simp [Reason.category]

/-- A step through a string is formal. -/
theorem formal_stringStep : Formal (stringStep t) := by
  unfold stringStep
  split
  · simp [Reason.category]
  · simp
  · rw [formal_map]
    unfold escapedChar
    split
    · simp [Reason.category]
    · exact formal_unicodeEscape
    · split <;> simp [Reason.category]
  · split <;> simp [Reason.category]

/-- **Strings are read formally**: induction on the steps that are left. -/
theorem formal_readString : Formal (readString t) := by
  unfold readString
  generalize t.length + 1 = fuel
  induction fuel generalizing t with
  | zero => simp [readStringWithin, Reason.category]
  | succ fuel ih =>
    rw [readStringWithin]
    split
    · rename_i hfails
      exact formal_stringStep.passed_on hfails
    · simp
    · exact formal_map.mpr ih

/-! ## (3) Numbers -/

/-- A double is read formally: it may be too large. -/
theorem formal_float (negative : Bool) (significand : Nat) (e : Int) :
    Formal (float negative significand e t) := by
  unfold float
  split <;> simp [Reason.category]

/-- An exponent is read formally. -/
theorem formal_readExponent (negative : Bool) (significand : Nat) (start : Int) :
    Formal (readExponent negative significand start t) := by
  unfold readExponent
  dsimp only
  split
  · simp [Reason.category]
  split
  · simp [Reason.category]
  split
  · exact formal_float _ _ _
  · split <;> simp [Reason.category]

/-- So is what follows the digits of a fraction. -/
theorem formal_readScale (negative : Bool) (significand : Nat) (start : Int) :
    Formal (readScale negative significand start t) := by
  unfold readScale
  split
  · exact formal_readExponent _ _ _
  · exact formal_readExponent _ _ _
  · exact formal_float _ _ _

/-- So is a fraction. -/
theorem formal_readFraction (negative : Bool) (significand : Nat) (start : Int) :
    Formal (readFraction negative significand start t) := by
  unfold readFraction
  dsimp only
  split
  · exact formal_readScale _ _ _
  split
  · split <;> simp [Reason.category]
  · exact formal_readScale _ _ _

/-- So is what follows the digits of a number. -/
theorem formal_readTail (negative : Bool) (significand : Nat) :
    Formal (readTail negative significand t) := by
  unfold readTail
  split
  · exact formal_readFraction _ _ _
  · exact formal_readExponent _ _ _
  · exact formal_readExponent _ _ _
  · split
    · simp
    · split <;> simp

/-- **Numbers are read formally.** -/
theorem formal_readNumber (negative : Bool) : Formal (readNumber negative t) := by
  unfold readNumber
  split
  · simp [Reason.category]
  · split
    · simp [Reason.category]
    · exact formal_readTail _ _
  split
  · simp [Reason.category]
  dsimp only
  split
  · split
    · exact formal_readFraction _ _ _
    · exact formal_readScale _ _ _
  · exact formal_readTail _ _

/-! ## (4) Values -/

/-- Words are read formally. -/
theorem formal_expectWord (word : Text) : Formal (expectWord word t) := by
  induction word generalizing t with
  | nil => simp [expectWord]
  | cons w word ih =>
    cases t with
    | nil => simp [expectWord, Reason.category]
    | cons c rest =>
      rw [expectWord]
      split
      · exact ih
      · simp [Reason.category]

/-- So are the colons of members. -/
theorem formal_expectColon : Formal (expectColon t) := by
  unfold expectColon
  split <;> simp [Reason.category]

/-- So is what stands between the members of an object. -/
theorem formal_nextKey (first : Bool) : Formal (nextKey first t) := by
  unfold nextKey
  split
  · simp [Reason.category]
  · simp
  split
  · split <;> simp [Reason.category]
  split
  · simp [Reason.category]
  · split <;> simp [Reason.category]

/-- So is what stands between the elements of a list. -/
theorem formal_nextElement (first : Bool) : Formal (nextElement first t) := by
  unfold nextElement
  split
  · simp [Reason.category]
  · simp
  split
  · simp
  split
  · simp [Reason.category]
  · split <;> simp [Reason.category]

/-- **Values, elements and members are read formally**: induction on the steps that are left, which each of the
three passes on to the others. -/
theorem formal_within (fuel depth : Nat) (t : Text) :
    Formal (readValueWithin fuel depth t) ∧ (∀ first, Formal (readElementsWithin fuel depth first t)) ∧
      ∀ first, Formal (readMembersWithin fuel depth first t) := by
  induction fuel generalizing depth t with
  | zero => simp [readValueWithin, readElementsWithin, readMembersWithin, Reason.category]
  | succ fuel ih =>
    refine ⟨?_, fun first => ?_, fun first => ?_⟩
    · -- the first character says what the value is, and only lists and objects take further steps
      rw [readValueWithin]
      split
      · simp [Reason.category]
      · exact formal_map.mpr (formal_expectWord _)
      · exact formal_map.mpr (formal_expectWord _)
      · exact formal_map.mpr (formal_expectWord _)
      · exact formal_map.mpr (formal_readNumber _)
      · exact formal_map.mpr formal_readString
      · split
        · simp [Reason.category]
        · exact formal_map.mpr ((ih _ _).2.1 _)
      · split
        · simp [Reason.category]
        · exact formal_map.mpr ((ih _ _).2.2 _)
      · split
        · exact formal_map.mpr (formal_readNumber _)
        · simp [Reason.category]
    · rw [readElementsWithin]
      split
      · rename_i hfails
        exact (formal_nextElement first).passed_on hfails
      · simp
      split
      · rename_i hfails
        exact (ih _ _).1.passed_on hfails
      · exact formal_map.mpr ((ih _ _).2.1 _)
    · -- a member is a key, a colon and a value, each of which may be at fault
      rw [readMembersWithin]
      split
      · rename_i hfails
        exact (formal_nextKey first).passed_on hfails
      · simp
      split
      · rename_i hfails
        exact formal_readString.passed_on hfails
      split
      · rename_i hfails
        exact formal_expectColon.passed_on hfails
      split
      · rename_i hfails
        exact (ih _ _).1.passed_on hfails
      · exact formal_map.mpr ((ih _ _).2.2 _)

/-- **Documents are read formally**: a text is never refused for the shape of its value. -/
theorem formal_readDocument (t : Text) : Formal (readDocument t) := by
  unfold readDocument
  split
  · rename_i hfails
    exact (formal_within _ _ _).1.passed_on hfails
  · rw [formal_map, expectEnd]
    split <;> simp [Reason.category]

end ChangeGate.Json
