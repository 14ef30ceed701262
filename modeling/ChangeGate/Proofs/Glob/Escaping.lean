import ChangeGate.Proofs.Glob.Expression

/-! # Nothing of a glob is read as syntax

The expressions of globs form a small fragment: between the two anchors stand **terms**, of which there are
five forms. What a row of terms is written as can be read back (`read?_anchored`), so no text is two
different rows of terms (**`anchored_injective`**). The expression of a glob is a row of terms with one term
for each token, in which every character with a meaning of its own stands behind a backslash, and the glob
itself is recovered from it (**`expression_terms`**). -/

namespace ChangeGate.Glob

/-! ## (1) Terms -/

/-- **A term** of the fragment that globs are written in. -/
inductive Term where
  /-- Any text at all, `.*`. -/
  | anything
  /-- Any text without a slash, `[^/]*`. -/
  | run
  /-- One character other than a slash, `[^/]`. -/
  | single
  /-- A character with a meaning of its own, behind a backslash. -/
  | escaped (c : Char) (h : isMeta c = true)
  /-- A character without a meaning of its own, as it is. -/
  | plain (c : Char) (h : isMeta c = false)
deriving DecidableEq, Repr

namespace Term

/-- What a term is written as. -/
def text : Term → Text
  | .anything => ".*".toList
  | .run => "[^/]*".toList
  | .single => "[^/]".toList
  | .escaped c _ => ['\\', c]
  | .plain c _ => [c]

/-- What a term means as a regular expression; a point there stands for every character. -/
def atom : Term → Atom
  | .anything => ⟨.every, true⟩
  | .run => ⟨.except '/', true⟩
  | .single => ⟨.except '/', false⟩
  | .escaped c _ => ⟨.only c, false⟩
  | .plain c _ => ⟨.only c, false⟩

/-- The token of a glob that a term stands for. -/
def token : Term → Token
  | .anything => .any
  | .run => .segment
  | .single => .one
  | .escaped c _ => .literal c
  | .plain c _ => .literal c

/-- The term that a token is written as. -/
def ofToken : Token → Term
  | .literal c => if h : isMeta c = true then .escaped c h else .plain c (by simpa using h)
  | .one => .single
  | .segment => .run
  | .any => .anything

@[simp] theorem token_ofToken (t : Token) : (ofToken t).token = t := by
  cases t with
  | literal c =>
    rw [ofToken]
    split <;> rfl
  | one => rfl
  | segment => rfl
  | any => rfl

/-- Whether a character is escaped is settled by the character, so a token has one term. -/
@[simp] theorem ofToken_token (t : Term) : ofToken t.token = t := by
  cases t with
  | escaped c h => exact dif_pos h
  | plain c h => exact dif_neg (by simp [h])
  | anything => rfl
  | run => rfl
  | single => rfl

theorem token_injective : Function.Injective token :=
  Function.LeftInverse.injective ofToken_token

/-- A term and its token mean the same. -/
theorem atom_token (t : Term) : t.token.atom = t.atom := by
  cases t <;> rfl

/-- A term and its token are written alike. -/
theorem text_token (t : Term) : t.token.expression = t.text := by
  cases t with
  | escaped c h => simp [token, text, Token.expression, escape, h]
  | plain c h => simp [token, text, Token.expression, escape, h]
  | anything => rfl
  | run => rfl
  | single => rfl

end Term

/-! ## (2) Rows of terms -/

/-- A row of terms between two anchors. -/
def anchored (terms : List Term) : Text := '^' :: terms.flatMap Term.text ++ ['$']

/-- A row of terms is written as its tokens are. -/
theorem anchored_eq (terms : List Term) :
    anchored terms = '^' :: (terms.map Term.token).flatMap Token.expression ++ ['$'] := by
  rw [List.flatMap_map, anchored]
  simp only [Term.text_token]

/-- **A row of terms is read back** as what its terms mean. -/
theorem read?_anchored (terms : List Term) : read? (anchored terms) = some (terms.map Term.atom) := by
  have hatoms : (terms.map Term.token).map Token.atom = terms.map Term.atom := by
    rw [List.map_map]
    exact List.map_congr_left fun t _ => t.atom_token
  rw [anchored_eq, ← hatoms]
  exact readAtoms?_tokens (terms.map Term.token)

/-- Tokens that mean the same are the same. -/
theorem Token.atom_injective : Function.Injective Token.atom := by
  intro s t h
  cases s <;> cases t <;> simp_all [Token.atom]

/-- **No text is two rows of terms.** -/
theorem anchored_injective : Function.Injective anchored := by
  intro terms others h
  have hread := congrArg read? h
  rw [read?_anchored, read?_anchored] at hread
  have hinjective : Function.Injective Term.atom := by
    intro s t hst
    rw [← s.atom_token, ← t.atom_token] at hst
    exact Term.token_injective (Token.atom_injective hst)
  exact hinjective.list_map (Option.some.inj hread)

/-- The expression of a glob is a row with one term for each token. -/
theorem expression_eq_anchored (g : Text) :
    expression g = anchored ((tokens g).map Term.ofToken) := by
  rw [anchored_eq, List.map_map, expression]
  simp [Function.comp_def]

/-! ## (3) Back to the glob -/

/-- The part of a glob that an atom was written for, if there is one. -/
def Atom.glob? : Atom → Option Text
  | ⟨.only c, false⟩ => some [c]
  | ⟨.except '/', false⟩ => some ['?']
  | ⟨.except '/', true⟩ => some ['*']
  | ⟨.every, true⟩ => some ['*', '*']
  | _ => none

/-- The glob that an expression was written for, if there is one. -/
def globOf? (e : Text) : Option Text :=
  (read? e).bind fun atoms => (atoms.mapM Atom.glob?).map List.flatten

/-- A glob is what its tokens are read from. -/
theorem Reads.flatMap_glob {g : Text} {ts : List Token} (h : Reads g ts) :
    ts.flatMap Token.glob = g := by
  induction h with
  | nil => rfl
  | any _ ih => rw [List.flatMap_cons, ih, Token.glob, List.cons_append, List.singleton_append]
  | segment _ _ ih => rw [List.flatMap_cons, ih, Token.glob, List.singleton_append]
  | one _ ih => rw [List.flatMap_cons, ih, Token.glob, List.singleton_append]
  | literal _ _ _ ih => rw [List.flatMap_cons, ih, Token.glob, List.singleton_append]

/-- A token is recovered from its atom. -/
@[simp] theorem Token.glob?_atom (t : Token) : t.atom.glob? = some t.glob := by
  cases t <;> rfl

/-- Tokens are recovered from their atoms one by one. -/
theorem mapM_glob?_atoms (ts : List Token) :
    (ts.map Token.atom).mapM Atom.glob? = some (ts.map Token.glob) := by
  induction ts with
  | nil => rfl
  | cons t ts ih =>
    rw [List.map_cons, List.mapM_cons, ih, Token.glob?_atom]
    rfl

/-- **A glob is recovered from its expression.** -/
theorem globOf?_expression (g : Text) : globOf? (expression g) = some g := by
  rw [globOf?, read?_expression, Option.bind_some, mapM_glob?_atoms, Option.map_some,
    ← List.flatMap_def, (reads_tokens g).flatMap_glob]

/-- A character that is no wildcard stands for itself as often as it stands in the glob. -/
theorem Reads.count_literal {g : Text} {ts : List Token} {c : Char} (h : Reads g ts) (hs : c ≠ '*')
    (hq : c ≠ '?') : ts.count (.literal c) = g.count c := by
  induction h with
  | nil => rfl
  | any _ ih => simp [ih, hs.symm]
  | segment _ _ ih => simp [ih, hs.symm]
  | one _ ih => simp [ih, hq.symm]
  | literal _ _ _ ih => simp [List.count_cons, ih]

/-! ## (4) Escaping -/

/-- **Escaping is complete and faithful.** The expression of a glob is one row of terms and no other, with
a term for each token. A character with a meaning of its own that is no wildcard is escaped as often as it
stands in the glob, so nothing of the glob is syntax; read as an expression, the text has the language of
the tokens. The glob is recovered from the text, so no other glob is written in the same way. -/
theorem expression_terms (g : Text) :
    ∃ terms : List Term, (∀ others, expression g = anchored others ↔ others = terms) ∧
      terms.map Term.token = tokens g ∧
      (∀ c (h : isMeta c = true), c ≠ '*' → c ≠ '?' → terms.count (.escaped c h) = g.count c) ∧
      read? (expression g) = some (terms.map Term.atom) ∧
      (∀ path, path ∈ languageOf (terms.map Term.atom) ↔ Matches (tokens g) path) ∧
      globOf? (expression g) = some g ∧ ∀ other, expression other = expression g → other = g := by
  have htokens : ((tokens g).map Term.ofToken).map Term.token = tokens g := by
    simp [Function.comp_def]
  have hread : read? (expression g) = some (((tokens g).map Term.ofToken).map Term.atom) := by
    rw [expression_eq_anchored, read?_anchored]
  refine ⟨(tokens g).map Term.ofToken, ?_, htokens, ?_, hread, ?_, globOf?_expression g, ?_⟩
  · intro others
    rw [expression_eq_anchored, anchored_injective.eq_iff, eq_comm]
  · intro c h hs hq
    rw [← List.count_map_of_injective _ _ Term.token_injective, htokens]
    exact (reads_tokens g).count_literal hs hq
  · intro path
    have hatoms := hread.symm.trans (read?_expression g)
    rw [Option.some.inj hatoms, mem_languageOf_atoms]
  · intro other h
    have hglob := congrArg globOf? h
    rw [globOf?_expression, globOf?_expression] at hglob
    exact Option.some.inj hglob

/-- What is syntax elsewhere is escaped, and stars are taken together from the left. -/
example : expression "[^/]***?".toList = "^\\[\\^/\\].*[^/]*[^/]$".toList := by decide

end ChangeGate.Glob
