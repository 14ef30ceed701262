import ChangeGate.Json.Ignored
import ChangeGate.Proofs.Json.Spelling

/-! # Values that are passed over

A value that does not matter is passed over with a list of the open frames and without a limit for them. What
spells a value is passed over up to its rest, whatever is open around it (**`Spells.passes`**), so the value
is ignored as a whole (**`ignoreValue_of_spells`**). -/

namespace ChangeGate.Json

variable {t start behind rest : Text} {first fresh : Bool} {frame : Frame}

/-! ## (1) Single steps -/

@[simp] theorem ignoreStart_skipSpace (t : Text) : ignoreStart (skipSpace t) = ignoreStart t := by
  rw [ignoreStart, ignoreStart, skipSpace_skipSpace]

@[simp] theorem ignoreKey_skipSpace (t : Text) : ignoreKey (skipSpace t) = ignoreKey t := by
  rw [ignoreKey, ignoreKey, skipSpace_skipSpace]

/-- White space before a value is passed over with the value. -/
theorem ignoreWithin_skipSpace (fuel : Nat) (frames : List Frame) (t : Text) :
    ignoreWithin (fuel + 1) true fresh frames (skipSpace t) =
      ignoreWithin (fuel + 1) true fresh frames t := by
  rw [ignoreWithin, ignoreWithin, ignoreStart_skipSpace]

/-- A number without a sign starts with its first digit. -/
theorem ignoreStart_digit {c : Char} (hstart : skipSpace t = c :: behind)
    (hdigit : Text.isDigit c = true) :
    ignoreStart t = (ignoreNumber (c :: behind)).map (none, ·) := by
  rw [ignoreStart, hstart]
  split
  case h_1 hnil => exact absurd hnil (List.cons_ne_nil c behind)
  case h_9 hmark =>
    obtain ⟨rfl, rfl⟩ := List.cons.inj hmark
    rw [if_pos hdigit]
  -- no mark of another value is a digit
  all_goals
    rename_i hmark
    rw [(List.cons.inj hmark).1] at hdigit
    exact absurd hdigit (by decide)

/-- A key that is read is passed over with its colon. -/
theorem ignoreKey_of_read {colon value key : Text} (hquote : skipSpace t = '"' :: start)
    (hkey : readString start = .ok (key, colon)) (hcolon : expectColon colon = .ok value) :
    ignoreKey t = .ok value := by
  have hstring : ignoreString start = .ok colon := (ignoreString_of_read hkey).1
  rw [ignoreKey, hquote]
  simp only [hstring, hcolon]

/-! ## (2) Steps in a frame -/

/-- What is passed over in a frame before its next value. -/
def Frame.enter : Frame → Text → Except Fault Text
  | .list, t => .ok t
  | .object, t => ignoreKey t

/-- No comma is passed over before the first value of a frame. -/
theorem ignoreWithin_first (fuel : Nat) (outer : List Frame) {c : Char}
    (h : skipSpace t = c :: behind) (hc : c ≠ frame.close)
    (henter : frame.enter (c :: behind) = .ok start) :
    ignoreWithin (fuel + 1) false true (frame :: outer) t =
      ignoreWithin fuel true false (frame :: outer) start := by
  rw [ignoreWithin, h]
  simp only [if_neg hc, if_true]
  cases frame with
  | list => rw [Except.ok.inj henter]
  | object =>
    have hkey : ignoreKey (c :: behind) = .ok start := henter
    simp only [hkey]

/-- A comma is passed over before the other values of a frame. -/
theorem ignoreWithin_comma (fuel : Nat) (outer : List Frame) (h : skipSpace t = ',' :: behind)
    (henter : frame.enter behind = .ok start) :
    ignoreWithin (fuel + 1) false false (frame :: outer) t =
      ignoreWithin fuel true false (frame :: outer) start := by
  have hopen : ',' ≠ frame.close := by cases frame <;> decide
  rw [ignoreWithin, h]
  simp only [if_neg hopen, if_true]
  cases frame with
  | list => rw [Except.ok.inj henter]; rfl
  | object =>
    have hkey : ignoreKey behind = .ok start := henter
    simp only [hkey]
    rfl

/-- The end of a frame is passed over. -/
theorem ignoreWithin_close (fuel : Nat) (outer : List Frame)
    (hclose : skipSpace t = frame.close :: rest) :
    ignoreWithin (fuel + 1) false fresh (frame :: outer) t = ignoreWithin fuel false false outer rest := by
  rw [ignoreWithin, hclose]
  dsimp only
  rw [if_pos rfl]

/-- What separates an element of a list from the one before is passed over. -/
theorem ignoreWithin_element (fuel : Nat) (outer : List Frame)
    (hnext : nextElement first t = .ok (true, start)) :
    ignoreWithin (fuel + 2) false first (.list :: outer) t =
      ignoreWithin (fuel + 1) true false (.list :: outer) start := by
  obtain ⟨behind, hseparated, rfl, c, more, hstart, hc⟩ := nextElement_more hnext
  cases first with
  | true =>
    obtain rfl : behind = t := hseparated
    rw [hstart]
    exact ignoreWithin_first (fuel + 1) outer hstart hc rfl
  | false =>
    -- the reader has passed over white space behind the comma, which here belongs to the value
    rw [ignoreWithin_skipSpace]
    exact ignoreWithin_comma (fuel + 1) outer hseparated rfl

/-- What separates a member of an object from the one before is passed over together with its key. -/
theorem ignoreWithin_member (fuel : Nat) (outer : List Frame) {colon value key : Text}
    (hnext : nextKey first t = .ok (true, start)) (hkey : readString start = .ok (key, colon))
    (hcolon : expectColon colon = .ok value) :
    ignoreWithin (fuel + 2) false first (.object :: outer) t =
      ignoreWithin (fuel + 1) true false (.object :: outer) value := by
  obtain ⟨behind, hseparated, hquote⟩ := nextKey_more hnext
  have hignored : ignoreKey behind = .ok value := ignoreKey_of_read hquote hkey hcolon
  cases first with
  | true =>
    obtain rfl : behind = t := hseparated
    refine ignoreWithin_first (fuel + 1) outer hquote (by decide) ?_
    rw [Frame.enter, ← hquote, ignoreKey_skipSpace, hignored]
  | false => exact ignoreWithin_comma (fuel + 1) outer hseparated hignored

/-! ## (3) Steps in a row -/

/-- **Some steps pass over a text** up to its rest and close the frames `opened`, whatever is open around
them; there are at most two for each character. -/
def Passes (value fresh : Bool) (opened : List Frame) (t rest : Text) : Prop :=
  ∃ steps, steps + 2 + 2 * rest.length ≤ 2 * t.length ∧
    ∀ fuel outer, ignoreWithin (fuel + (steps + 1)) value fresh (opened ++ outer) t =
      ignoreWithin fuel false false outer rest

/-- A value that is no list and no object. -/
theorem passes_scalar {v : Value} (h : Spells (.value v) t rest)
    (hstart : ignoreStart t = .ok (none, rest)) : Passes true false [] t rest := by
  have hlt : 0 + rest.length < t.length := h.length_lt
  refine ⟨0, by omega, fun fuel outer => ?_⟩
  rw [List.nil_append, Nat.zero_add, ignoreWithin, hstart]

/-- A list or an object. -/
theorem passes_open (hstart : ignoreStart t = .ok (some frame, behind))
    (hlt : behind.length < t.length) (hinner : Passes false true [frame] behind rest) :
    Passes true false [] t rest := by
  obtain ⟨steps, hle, hsteps⟩ := hinner
  refine ⟨steps + 1, by omega, fun fuel outer => ?_⟩
  rw [List.nil_append, ← Nat.add_assoc, ignoreWithin, hstart]
  exact hsteps fuel outer

/-- The end of a frame. -/
theorem passes_close (hclose : skipSpace t = frame.close :: rest) :
    Passes false fresh [frame] t rest := by
  have hlt := length_lt_of_skipSpace hclose
  exact ⟨0, by omega, fun fuel outer => ignoreWithin_close fuel outer hclose⟩

/-- A value in a frame, and the others. -/
theorem passes_next (hle : start.length ≤ t.length)
    (hstep : ∀ fuel outer, ignoreWithin (fuel + 2) false first (frame :: outer) t =
      ignoreWithin (fuel + 1) true false (frame :: outer) start)
    (hvalue : Passes true false [] start behind) (hmore : Passes false false [frame] behind rest) :
    Passes false first [frame] t rest := by
  obtain ⟨steps, hle₁, hsteps₁⟩ := hvalue
  obtain ⟨steps', hle₂, hsteps₂⟩ := hmore
  refine ⟨steps' + steps + 2, by omega, fun fuel outer => ?_⟩
  -- the frame stays open around its value, and is closed by the steps behind it
  calc ignoreWithin (fuel + (steps' + steps + 2 + 1)) false first (frame :: outer) t
      = ignoreWithin (fuel + (steps' + 1) + steps + 2) false first (frame :: outer) t := by
        congr 1; omega
    _ = ignoreWithin (fuel + (steps' + 1) + (steps + 1)) true false (frame :: outer) start :=
        hstep (fuel + (steps' + 1) + steps) outer
    _ = ignoreWithin (fuel + (steps' + 1)) false false (frame :: outer) behind :=
        hsteps₁ (fuel + (steps' + 1)) (frame :: outer)
    _ = ignoreWithin fuel false false outer rest := hsteps₂ fuel outer

/-! ## (4) Spellings are passed over -/

/-- How a part is passed over: a value, or what is left of a frame. -/
def Part.Passes : Part → Text → Text → Prop
  | .value _ => Json.Passes true false []
  | .elements first _ => Json.Passes false first [.list]
  | .members first _ => Json.Passes false first [.object]

/-- **What spells a part** is passed over, whatever its value. -/
theorem Spells.passes {p : Part} (h : Spells p t rest) : p.Passes t rest := by
  induction h with
  | null hstart hword =>
    refine passes_scalar (.null hstart hword) ?_
    simp only [ignoreStart, hstart, hword, Except.map]
  | true hstart hword =>
    refine passes_scalar (.true hstart hword) ?_
    simp only [ignoreStart, hstart, hword, Except.map]
  | false hstart hword =>
    refine passes_scalar (.false hstart hword) ?_
    simp only [ignoreStart, hstart, hword, Except.map]
  | negative hstart hnumber =>
    have hignored := (readNumber_spec hnumber).2
    refine passes_scalar (.negative hstart hnumber) ?_
    simp only [ignoreStart, hstart, hignored, Except.map]
  | number hstart hdigit hnumber =>
    have hignored := (readNumber_spec hnumber).2
    refine passes_scalar (.number hstart hdigit hnumber) ?_
    rw [ignoreStart_digit hstart hdigit, hignored, Except.map]
  | string hstart hstring =>
    have hignored := (ignoreString_of_read hstring).1
    refine passes_scalar (.string hstart hstring) ?_
    simp only [ignoreStart, hstart, hignored, Except.map]
  | list hstart _ ih =>
    -- what is opened here is closed again, whatever else is open
    refine passes_open ?_ (length_lt_of_skipSpace hstart) ih
    simp only [ignoreStart, hstart]
  | object hstart _ ih =>
    refine passes_open ?_ (length_lt_of_skipSpace hstart) ih
    simp only [ignoreStart, hstart]
  | listEnd hend => exact passes_close (nextElement_end hend)
  | objectEnd hend => exact passes_close (nextKey_end hend)
  | element hnext _ _ ihvalue ihmore =>
    obtain ⟨behind, hseparated, rfl, -⟩ := nextElement_more hnext
    have hle := Nat.le_trans (skipSpace_length_le behind) hseparated.length_le
    exact passes_next hle (fun fuel outer => ignoreWithin_element fuel outer hnext) ihvalue ihmore
  | member hnext hkey hcolon _ _ ihvalue ihmore =>
    refine passes_next ?_ (fun fuel outer => ignoreWithin_member fuel outer hnext hkey hcolon)
      ihvalue ihmore
    obtain ⟨behind, hseparated, hquote⟩ := nextKey_more hnext
    have hbehind := hseparated.length_le
    have hstart := length_lt_of_skipSpace hquote
    have hstring := (ignoreString_of_read hkey).2
    have hvalue := length_lt_of_skipSpace (expectColon_eq_ok hcolon)
    omega

/-- **A value that is spelled** is ignored up to its rest. -/
theorem ignoreValue_of_spells {v : Value} (h : Spells (.value v) t rest) : ignoreValue t = .ok rest := by
  obtain ⟨steps, hle, hsteps⟩ := h.passes
  have hfuel : 2 * t.length + 2 = (2 * t.length - steps) + 1 + (steps + 1) := by omega
  calc ignoreValue t
      = ignoreWithin ((2 * t.length - steps) + 1 + (steps + 1)) true false [] t := by
        rw [ignoreValue, hfuel]
    _ = ignoreWithin ((2 * t.length - steps) + 1) false false [] rest := hsteps _ []
    _ = .ok rest := rfl

end ChangeGate.Json
