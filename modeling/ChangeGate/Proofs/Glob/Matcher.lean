import ChangeGate.Glob.Matcher
import ChangeGate.Proofs.Glob.Expression

/-! # Matchers decide the language of their glob

`compile` chooses among three matchers, and **`compile_cases`** says which one it takes and when. All
three decide the language of the tokens of the glob (**`accepts_iff_matches`**): a literal glob has
literal tokens only, and two final stars behind a literal text are one token for any text. With the
reading of expressions this makes the choice of a matcher invisible (**`compile_accepts_iff`**). -/

namespace ChangeGate.Glob

/-! ## (1) Literal globs and final stars -/

theorem isLiteral_cons {c : Char} {glob : Text} :
    isLiteral (c :: glob) = true ↔ (c ≠ '*' ∧ c ≠ '?') ∧ isLiteral glob = true := by
  simp [isLiteral]

/-- The tokens of a literal text are its characters, whatever follows. -/
theorem tokens_literal_append {front : Text} (h : isLiteral front = true) (rest : Text) :
    tokens (front ++ rest) = front.map Token.literal ++ tokens rest := by
  induction front with
  | nil => rfl
  | cons c front ih =>
    obtain ⟨⟨hs, hq⟩, hfront⟩ := isLiteral_cons.mp h
    rw [List.cons_append, tokens_literal hs hq, ih hfront]
    rfl

/-- The tokens of a literal glob are its characters. -/
theorem tokens_of_isLiteral {glob : Text} (h : isLiteral glob = true) :
    tokens glob = glob.map Token.literal := by
  simpa using tokens_literal_append h []

/-- A text precedes two final stars exactly if the glob is that text and two stars. -/
theorem beforeDoubleStar?_eq_some {glob front : Text} :
    beforeDoubleStar? glob = some front ↔ glob = front ++ ['*', '*'] := by
  unfold beforeDoubleStar?
  constructor
  · intro h
    split at h
    · rename_i rest hrest
      obtain rfl := Option.some.inj h
      have hglob := congrArg List.reverse hrest
      simpa using hglob
    · exact absurd h (by simp)
  · rintro rfl
    simp

/-! ## (2) The choice of a matcher -/

/-- **The matcher that `compile` takes.** -/
theorem compile_cases [Engine] {g : Text} {m : Matcher} (h : compile g = .ok m) :
    (isLiteral g = true ∧ m = .exact g) ∨
    (∃ front, g = front ++ ['*', '*'] ∧ isLiteral front = true ∧ m = .lead front) ∨
    (m = .general g ∧ Engine.fits (expression g) = true) := by
  -- what is no literal, and no literal before two stars, is left to the engine
  have hwild : compileWild g = .ok m → m = .general g ∧ Engine.fits (expression g) = true := by
    intro hw
    unfold compileWild at hw
    split at hw
    · rename_i hfits
      exact ⟨(Except.ok.inj hw).symm, hfits⟩
    · exact absurd hw (by simp)
  unfold compile at h
  split at h
  · rename_i hlit
    exact .inl ⟨hlit, (Except.ok.inj h).symm⟩
  · split at h
    · rename_i front hfront
      split at h
      · rename_i hlit
        exact .inr (.inl ⟨front, beforeDoubleStar?_eq_some.mp hfront, hlit, (Except.ok.inj h).symm⟩)
      · exact .inr (.inr (hwild h))
    · exact .inr (.inr (hwild h))

/-- Only the glob itself is told to be too large. -/
theorem glob_of_compile [Engine] {g : Text} {e : TooLarge} (h : compile g = .error e) : e.glob = g := by
  have hwild : compileWild g = .error e → e.glob = g := by
    intro hw
    unfold compileWild at hw
    split at hw
    · exact absurd hw (by simp)
    · exact congrArg TooLarge.glob (Except.error.inj hw).symm
  unfold compile at h
  split at h
  · exact absurd h (by simp)
  · split at h
    · split at h
      · exact absurd h (by simp)
      · exact hwild h
    · exact hwild h

/-- **Every matcher decides the language of the tokens of its glob.** -/
theorem accepts_iff_matches [Engine] {g : Text} {m : Matcher} (h : compile g = .ok m) {path : Text} :
    m.accepts path = true ↔ Matches (tokens g) path := by
  rcases compile_cases h with ⟨hlit, rfl⟩ | ⟨front, rfl, hlit, rfl⟩ | ⟨rfl, -⟩
  · rw [tokens_of_isLiteral hlit, matches_literals]
    simp [Matcher.accepts]
  · rw [tokens_literal_append hlit, tokens_stars, tokens_nil, matches_append, Matcher.accepts,
      List.isPrefixOf_iff_prefix]
    constructor
    · rintro ⟨back, rfl⟩
      exact ⟨front, back, rfl, matches_literals.mpr rfl, matches_any back⟩
    · rintro ⟨text, back, rfl, htext, -⟩
      rw [matches_literals.mp htext]
      exact List.prefix_append front back
  · exact matchesTokens_iff

/-! ## (3) One language for all matchers -/

/-- **A compiled glob accepts exactly the paths that its tokens cut into pieces**, and exactly those
of the language of its expression, whichever matcher was chosen for it. -/
theorem compile_accepts_iff [Engine] {g : Text} {m : Matcher} (h : compile g = .ok m) (path : Text) :
    (m.accepts path = true ↔
      ∃ ts pieces, Reads g ts ∧ List.Forall₂ Token.Accepts ts pieces ∧ pieces.flatten = path) ∧
    ∃ atoms, read? (expression g) = some atoms ∧
      (m.accepts path = true ↔ path ∈ languageOf atoms) := by
  have haccepts : m.accepts path = true ↔ Matches (tokens g) path := accepts_iff_matches h
  refine ⟨?_, (tokens g).map Token.atom, read?_expression g, ?_⟩
  · rw [haccepts, matches_iff_pieces]
    constructor
    · rintro ⟨pieces, hpieces, hpath⟩
      exact ⟨tokens g, pieces, reads_tokens g, hpieces, hpath⟩
    · rintro ⟨ts, pieces, hts, hpieces, hpath⟩
      obtain rfl := hts.eq_tokens
      exact ⟨pieces, hpieces, hpath⟩
  · rw [haccepts, mem_languageOf_atoms]

/-- Three stars are two and one: the glob `a***?` is matched in general, and the text `a/` and a line
feed are cut for it into `a`, `/`, nothing and the line feed. -/
theorem compile_accepts_iff_three_stars :
    compile "a***?".toList = .ok (.general "a***?".toList) ∧
    ((Matcher.general "a***?".toList).accepts "a/\n".toList = true ↔
      ∃ ts pieces, Reads "a***?".toList ts ∧ List.Forall₂ Token.Accepts ts pieces ∧
        pieces.flatten = "a/\n".toList) ∧
    ∃ atoms, read? (expression "a***?".toList) = some atoms ∧
      ((Matcher.general "a***?".toList).accepts "a/\n".toList = true ↔
        "a/\n".toList ∈ languageOf atoms) :=
  ⟨by decide, compile_accepts_iff (by decide) _⟩

end ChangeGate.Glob
