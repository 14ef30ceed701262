import ChangeGate.Proofs.Json.Spelling

/-! # What is spelled is read

A reader takes a step for each part that it starts, and each part that is spelled takes a character at
least, so two steps for a character are enough. What spells a value is then read as that value, if its
lists and objects are not nested deeper than the reader allows (**`Spells.reads`**), and a whole text
that spells one value is read as that value (**`readDocument_of_spells`**). -/

namespace ChangeGate.Json

/-! ## (1) Nesting -/

mutual

/-- How deep the lists and objects of a value are nested. -/
def Value.nesting : Value → Nat
  | .list vs => nestingOfElements vs + 1
  | .object ms => nestingOfMembers ms + 1
  | _ => 0

/-- How deep the deepest of some values is nested. -/
def nestingOfElements : List Value → Nat
  | [] => 0
  | v :: vs => max v.nesting (nestingOfElements vs)

/-- How deep the deepest of some members is nested. -/
def nestingOfMembers : List (Text × Value) → Nat
  | [] => 0
  | (_, v) :: ms => max v.nesting (nestingOfMembers ms)

end

/-- How deep a part is nested. -/
def Part.nesting : Part → Nat
  | .value v => v.nesting
  | .elements _ vs => nestingOfElements vs
  | .members _ ms => nestingOfMembers ms

/-! ## (2) The readers -/

/-- **A part is read** within some steps and some limit for open lists and objects. -/
def Part.IsRead (fuel depth : Nat) : Part → Text → Text → Prop
  | .value v, t, rest => readValueWithin fuel depth t = .ok (v, rest)
  | .elements first vs, t, rest => readElementsWithin fuel depth first t = .ok (vs, rest)
  | .members first ms, t, rest => readMembersWithin fuel depth first t = .ok (ms, rest)

/-- The steps that a part takes beyond two for each character: a list or an object is started at the
character at which its first value may start. -/
def Part.start : Part → Nat
  | .value _ => 0
  | .elements _ _ => 1
  | .members _ _ => 1

variable {t behind rest : Text} {fuel depth : Nat}

/-- The next element of a list starts no earlier than what separates it. -/
theorem length_le_of_nextElement {first : Bool} (h : nextElement first t = .ok (true, rest)) :
    rest.length ≤ t.length := by
  obtain ⟨behind, hseparated, rfl, -⟩ := nextElement_more h
  exact Nat.le_trans (skipSpace_length_le behind) hseparated.length_le

/-- The next key of an object starts behind its quotation mark. -/
theorem length_lt_of_nextKey {first : Bool} (h : nextKey first t = .ok (true, rest)) :
    rest.length < t.length := by
  obtain ⟨behind, hseparated, hquote⟩ := nextKey_more h
  exact Nat.lt_of_lt_of_le (length_lt_of_skipSpace hquote) hseparated.length_le

/-- A number without a sign is read from its first digit on. -/
theorem readValueWithin_digit {c : Char} {n : Number} (hstart : skipSpace t = c :: behind)
    (hdigit : Text.isDigit c = true) (hnumber : readNumber false (c :: behind) = .ok (n, rest)) :
    readValueWithin (fuel + 1) depth t = .ok (.number n, rest) := by
  rw [readValueWithin, hstart]
  split
  case h_1 hnil => exact absurd hnil (List.cons_ne_nil c behind)
  case h_9 hmark =>
    obtain ⟨rfl, rfl⟩ := List.cons.inj hmark
    rw [if_pos hdigit, hnumber]
    rfl
  -- no mark of another value is a digit
  all_goals
    rename_i hmark
    rw [(List.cons.inj hmark).1] at hdigit
    exact absurd hdigit (by decide)

/-- A list is read where one more may be opened. -/
theorem readValueWithin_list {vs : List Value} (hstart : skipSpace t = '[' :: behind) (hdepth : 1 < depth)
    (helements : readElementsWithin fuel (depth - 1) true behind = .ok (vs, rest)) :
    readValueWithin (fuel + 1) depth t = .ok (.list vs, rest) := by
  rw [readValueWithin, hstart]
  simp only [if_neg (Nat.not_le.mpr hdepth), helements]
  rfl

/-- An object is read where one more may be opened. -/
theorem readValueWithin_object {ms : List (Text × Value)} (hstart : skipSpace t = '\x7b' :: behind)
    (hdepth : 1 < depth) (hmembers : readMembersWithin fuel (depth - 1) true behind = .ok (ms, rest)) :
    readValueWithin (fuel + 1) depth t = .ok (.object ms, rest) := by
  rw [readValueWithin, hstart]
  simp only [if_neg (Nat.not_le.mpr hdepth), hmembers]
  rfl

/-- An element is read before the others. -/
theorem readElementsWithin_more {first : Bool} {start : Text} {v : Value} {vs : List Value}
    (hnext : nextElement first t = .ok (true, start))
    (hvalue : readValueWithin fuel depth start = .ok (v, behind))
    (hmore : readElementsWithin fuel depth false behind = .ok (vs, rest)) :
    readElementsWithin (fuel + 1) depth first t = .ok (v :: vs, rest) := by
  rw [readElementsWithin, hnext]
  simp only [hvalue, hmore]
  rfl

/-- A member is read before the others. -/
theorem readMembersWithin_more {first : Bool} {start colon value key : Text} {v : Value}
    {ms : List (Text × Value)} (hnext : nextKey first t = .ok (true, start))
    (hkey : readString start = .ok (key, colon)) (hcolon : expectColon colon = .ok value)
    (hvalue : readValueWithin fuel depth value = .ok (v, behind))
    (hmore : readMembersWithin fuel depth false behind = .ok (ms, rest)) :
    readMembersWithin (fuel + 1) depth first t = .ok ((key, v) :: ms, rest) := by
  rw [readMembersWithin, hnext]
  simp only [hkey, hcolon, hvalue, hmore]
  rfl

/-! ## (3) Spellings are read -/

/-- **What spells a part is read** as that part: induction on the spelling. A spelling is longer than its
rest, so there is always a first step. -/
theorem Spells.reads {p : Part} (h : Spells p t rest) (hdepth : p.nesting < depth)
    (hfuel : 2 * t.length + p.start ≤ 2 * rest.length + (fuel + 1)) :
    p.IsRead (fuel + 1) depth t rest := by
  induction h generalizing depth fuel with
  | null hstart hword | true hstart hword | false hstart hword =>
    change readValueWithin (fuel + 1) depth _ = _
    rw [readValueWithin, hstart]
    simp only [hword]
    rfl
  | negative hstart hnumber =>
    change readValueWithin (fuel + 1) depth _ = _
    rw [readValueWithin, hstart]
    simp only [hnumber]
    rfl
  | number hstart hdigit hnumber => exact readValueWithin_digit hstart hdigit hnumber
  | string hstart hstring =>
    change readValueWithin (fuel + 1) depth _ = _
    rw [readValueWithin, hstart]
    simp only [hstring]
    rfl
  | list hstart helements ih =>
    have hlt := helements.length_lt
    have hle := length_lt_of_skipSpace hstart
    simp only [Part.nesting, Value.nesting, Part.start, Part.count] at hdepth hfuel hlt ih
    -- the bracket pays for the step that starts the list and for the first one inside
    obtain ⟨fuel, rfl⟩ : ∃ more, fuel = more + 1 := ⟨fuel - 1, by omega⟩
    exact readValueWithin_list hstart (by omega) (ih (by omega) (by omega))
  | object hstart hmembers ih =>
    have hlt := hmembers.length_lt
    have hle := length_lt_of_skipSpace hstart
    simp only [Part.nesting, Value.nesting, Part.start, Part.count] at hdepth hfuel hlt ih
    obtain ⟨fuel, rfl⟩ : ∃ more, fuel = more + 1 := ⟨fuel - 1, by omega⟩
    exact readValueWithin_object hstart (by omega) (ih (by omega) (by omega))
  | listEnd hend =>
    change readElementsWithin (fuel + 1) depth _ _ = _
    rw [readElementsWithin, hend]
  | element hnext hvalue hmore ihvalue ihmore =>
    have hltvalue := hvalue.length_lt
    have hltmore := hmore.length_lt
    have hle := length_le_of_nextElement hnext
    simp only [Part.nesting, nestingOfElements, Part.start, Part.count] at *
    obtain ⟨fuel, rfl⟩ : ∃ more, fuel = more + 1 := ⟨fuel - 1, by omega⟩
    exact readElementsWithin_more hnext (ihvalue (by omega) (by omega)) (ihmore (by omega) (by omega))
  | objectEnd hend =>
    change readMembersWithin (fuel + 1) depth _ _ = _
    rw [readMembersWithin, hend]
  | member hnext hkey hcolon hvalue hmore ihvalue ihmore =>
    have hltvalue := hvalue.length_lt
    have hltmore := hmore.length_lt
    have hle := length_lt_of_nextKey hnext
    have hlekey := (ignoreString_of_read hkey).2
    have hlecolon := length_lt_of_skipSpace (expectColon_eq_ok hcolon)
    simp only [Part.nesting, nestingOfMembers, Part.start, Part.count] at *
    obtain ⟨fuel, rfl⟩ : ∃ more, fuel = more + 1 := ⟨fuel - 1, by omega⟩
    exact readMembersWithin_more hnext hkey hcolon (ihvalue (by omega) (by omega))
      (ihmore (by omega) (by omega))

/-- **A whole text that spells one value** is read as that value. -/
theorem readDocument_of_spells {v : Value} (h : Spells (.value v) t rest)
    (hdepth : v.nesting < depthLimit) (hend : skipSpace rest = []) : readDocument t = .ok v := by
  have hread : readValueWithin (2 * t.length + 2) depthLimit t = .ok (v, rest) :=
    h.reads hdepth (by simp only [Part.start]; omega)
  rw [readDocument, hread]
  simp only [expectEnd, hend]
  rfl

end ChangeGate.Json
