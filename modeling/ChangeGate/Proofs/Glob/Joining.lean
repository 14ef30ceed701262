import ChangeGate.Proofs.Glob.Widening

/-! # Globs put together

Where no star of one glob meets a star of the next, the tokens of the two stand side by side, so the language of
the globs put together is the product of their languages (`language_append`). Where two stars meet they are
paired in another way, and then the globs put together can only match more (`mul_language_le`). For compiled
globs this says which paths are matched, whichever matchers were chosen for the three, and with a directory in
front of a glob it says that the directory stands in front of the paths (**`accepts_append_iff`**). -/

namespace ChangeGate.Glob

/-! ## (1) Languages of globs put together -/

/-- Atoms in a row have the product of the languages of the two parts. -/
theorem languageOf_append (front rest : List Atom) :
    languageOf (front ++ rest) = languageOf front * languageOf rest := by
  simp [languageOf]

/-- **Globs put together have the product of their languages** if no two stars meet. -/
theorem language_append {front rest : Text}
    (h : ¬ (front.getLast? = some '*' ∧ rest.head? = some '*')) :
    language (front ++ rest) = language front * language rest := by
  rw [language, tokens_append fun hlast hhead => h ⟨hlast, hhead⟩, List.map_append, languageOf_append]
  rfl

/-- **Putting globs together loses no path**, also where two stars meet: induction on the tokens of the first
glob. -/
theorem mul_language_le (front rest : Text) :
    language front * language rest ≤ language (front ++ rest) := by
  induction front using tokens.induct with
  | case1 => rw [language_nil, one_mul, List.nil_append]
  | case2 tail ih =>
    rw [List.cons_append, List.cons_append, language_stars, language_stars, mul_assoc]
    exact mul_le_mul_right ih _
  | case3 c tail hpair ih =>
    by_cases honly : c = '*' ∧ tail = []
    · -- the star may be paired with what follows now, which takes nothing away
      obtain ⟨rfl, rfl⟩ := honly
      rw [language_star (by simp), language_nil, mul_one]
      exact segment_mul_le rest
    · obtain ⟨t, ht⟩ := exists_language_start hpair fun hc htail => honly ⟨hc, htail⟩
      have halone := ht []
      rw [List.append_nil] at halone
      rw [List.cons_append, halone, ht, mul_assoc]
      exact mul_le_mul_right ih _

/-- The language of a glob without wildcards is the glob alone. -/
theorem mem_language_of_isLiteral {text path : Text} (h : isLiteral text = true) :
    path ∈ language text ↔ path = text := by
  rw [mem_language, tokens_of_isLiteral h, matches_literals]

/-! ## (2) Compiled globs -/

variable {front rest : Text} {m m₁ m₂ : Matcher}

/-- A path of each of two globs makes a path of the two put together, whether stars meet or not. -/
theorem accepts_append [Engine] (hfront : compile front = .ok m₁) (hrest : compile rest = .ok m₂)
    (h : compile (front ++ rest) = .ok m) {before after : Text} (hbefore : m₁.accepts before = true)
    (hafter : m₂.accepts after = true) : m.accepts (before ++ after) = true := by
  rw [accepts_iff_mem_language hfront] at hbefore
  rw [accepts_iff_mem_language hrest] at hafter
  rw [accepts_iff_mem_language h]
  exact mul_language_le front rest (Language.append_mem_mul hbefore hafter)

/-- **Two globs put together** match exactly the paths that split into a path of the first and a path of the
second, if no star at the end of the first meets a star at the start of the second. So a directory without
wildcards in front of a glob matches exactly the paths of the glob in that directory. -/
theorem accepts_append_iff [Engine] (hstars : ¬ (front.getLast? = some '*' ∧ rest.head? = some '*'))
    (hfront : compile front = .ok m₁) (hrest : compile rest = .ok m₂)
    (h : compile (front ++ rest) = .ok m) (path : Text) :
    (m.accepts path = true ↔ ∃ before after, path = before ++ after ∧ m₁.accepts before = true ∧
      m₂.accepts after = true) ∧
    (∀ directory m', isLiteral directory = true → compile (directory ++ '/' :: rest) = .ok m' →
      (m'.accepts path = true ↔
        ∃ inside, path = directory ++ '/' :: inside ∧ m₂.accepts inside = true)) := by
  constructor
  · rw [accepts_iff_mem_language h, language_append hstars, Language.mem_mul]
    simp only [accepts_iff_mem_language hfront, accepts_iff_mem_language hrest]
    constructor
    · rintro ⟨before, hbefore, after, hafter, rfl⟩
      exact ⟨before, after, rfl, hbefore, hafter⟩
    · rintro ⟨before, after, rfl, hbefore, hafter⟩
      exact ⟨before, hbefore, after, hafter, rfl⟩
  · intro directory m' hdirectory hm'
    -- the slash belongs to the text in front, so no stars meet
    have hliteral : isLiteral (directory ++ ['/']) = true := by
      rw [isLiteral, List.all_append, ← isLiteral, hdirectory]
      rfl
    rw [accepts_iff_mem_language hm', List.append_cons, language_append (by simp), Language.mem_mul]
    simp only [mem_language_of_isLiteral hliteral, accepts_iff_mem_language hrest]
    constructor
    · rintro ⟨before, rfl, inside, hinside, rfl⟩
      exact ⟨inside, (List.append_cons directory '/' inside).symm, hinside⟩
    · rintro ⟨inside, rfl, hinside⟩
      exact ⟨directory ++ ['/'], rfl, inside, hinside, (List.append_cons directory '/' inside).symm⟩

/-- A start of paths and a text, put together, are a glob that is matched token by token; in a directory the
text is still a text. -/
theorem accepts_append_iff_matchers :
    compile "src/**".toList = .ok (.lead "src/".toList) ∧
    compile "_test.rs".toList = .ok (.exact "_test.rs".toList) ∧
    compile "src/**_test.rs".toList = .ok (.general "src/**_test.rs".toList) ∧
    compile "lib/_test.rs".toList = .ok (.exact "lib/_test.rs".toList) ∧
    ((Matcher.general "src/**_test.rs".toList).accepts "src/a/b_test.rs".toList = true ↔
      ∃ before after, "src/a/b_test.rs".toList = before ++ after ∧
        (Matcher.lead "src/".toList).accepts before = true ∧
        (Matcher.exact "_test.rs".toList).accepts after = true) ∧
    ((Matcher.exact "lib/_test.rs".toList).accepts "src/a/b_test.rs".toList = true ↔
      ∃ inside, "src/a/b_test.rs".toList = "lib".toList ++ '/' :: inside ∧
        (Matcher.exact "_test.rs".toList).accepts inside = true) := by
  have hfront : compile "src/**".toList = .ok (.lead "src/".toList) := by decide
  have hrest : compile "_test.rs".toList = .ok (.exact "_test.rs".toList) := by decide
  have h : compile "src/**_test.rs".toList = .ok (.general "src/**_test.rs".toList) := by decide
  have hinside : compile "lib/_test.rs".toList = .ok (.exact "lib/_test.rs".toList) := by decide
  have hboth := accepts_append_iff (by decide) hfront hrest h "src/a/b_test.rs".toList
  exact ⟨hfront, hrest, h, hinside, hboth.1, hboth.2 "lib".toList _ (by decide) hinside⟩

/-- Where two stars meet, the globs put together match more: neither star takes the slash alone. -/
example : compile "**".toList = .ok (.lead []) ∧ (Matcher.lead []).accepts "/".toList = true ∧
    compile "*".toList = .ok (.general "*".toList) ∧
    (Matcher.general "*".toList).accepts "/".toList = false := by decide

end ChangeGate.Glob
