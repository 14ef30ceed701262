import ChangeGate.Glob.Token
import ChangeGate.Proofs.Glob.Language
import Mathlib.Computability.Language

/-! # The language of an expression

A regular expression means what its text says, so the text is read here on its own, without a look at
the glob behind it. **read?** reads an anchored expression as a list of **atoms**, each a class of
characters that may be repeated, and **languageOf** is the language of the atoms with the products and
the Kleene star of `Language`. The expression of a glob reads back as the atoms of its tokens
(`read?_expression`), so the two have one language (`mem_languageOf_atoms`). -/

namespace ChangeGate.Glob

open Computability

/-! ## (1) Expressions and their languages -/

/-- **A class of characters.** -/
inductive CharClass where
  /-- One character. -/
  | only (c : Char)
  /-- Every character but one. -/
  | except (c : Char)
  /-- Every character, line ends included. -/
  | every
deriving DecidableEq, Repr

/-- The characters of a class. -/
def CharClass.Holds : CharClass → Char → Prop
  | .only a, c => c = a
  | .except a, c => c ≠ a
  | .every, _ => True

/-- **An atom**: a class of characters that stands once or any number of times. -/
structure Atom where
  chars : CharClass
  repeated : Bool
deriving DecidableEq, Repr

/-- The words of one character of a class. -/
def CharClass.language (k : CharClass) : Language Char := {w | ∃ c, k.Holds c ∧ w = [c]}

/-- The words of an atom. -/
def Atom.language (a : Atom) : Language Char :=
  if a.repeated then a.chars.language∗ else a.chars.language

/-- The words of atoms in a row. -/
def languageOf (atoms : List Atom) : Language Char := (atoms.map Atom.language).prod

@[simp] theorem CharClass.mem_language {k : CharClass} {w : Text} :
    w ∈ k.language ↔ ∃ c, k.Holds c ∧ w = [c] := Iff.rfl

@[simp] theorem languageOf_nil : languageOf [] = 1 := rfl

@[simp] theorem languageOf_cons (a : Atom) (atoms : List Atom) :
    languageOf (a :: atoms) = a.language * languageOf atoms := by
  simp [languageOf]

/-- A class repeated any number of times stands for the texts whose characters are all of it. -/
theorem CharClass.mem_kstar {k : CharClass} {w : Text} :
    w ∈ k.language∗ ↔ ∀ c ∈ w, k.Holds c := by
  rw [Language.mem_kstar]
  constructor
  · rintro ⟨words, rfl, hwords⟩ c hc
    obtain ⟨word, hword, hmem⟩ := List.mem_flatten.mp hc
    obtain ⟨a, ha, rfl⟩ := hwords word hword
    rw [List.mem_singleton.mp hmem]
    exact ha
  · intro h
    refine ⟨w.map fun c => [c], by simp [← List.flatMap_def], ?_⟩
    intro word hword
    obtain ⟨c, hc, rfl⟩ := List.mem_map.mp hword
    exact ⟨c, h c hc, rfl⟩

/-! ## (2) Reading the text of an expression -/

/-- The class of characters that a text starts with, and the rest. A character with a meaning of its
own stands for itself only behind a backslash. -/
def readClass? : Text → Option (CharClass × Text)
  | '\\' :: c :: rest => if isMeta c then some (.only c, rest) else none
  | '.' :: rest => some (.every, rest)
  | '[' :: '^' :: c :: ']' :: rest => if isMeta c then none else some (.except c, rest)
  | c :: rest => if isMeta c then none else some (.only c, rest)
  | [] => none

/-- Whether a star follows, and what follows it. -/
def readStar : Text → Bool × Text
  | '*' :: rest => (true, rest)
  | rest => (false, rest)

@[simp] theorem readStar_star (rest : Text) : readStar ('*' :: rest) = (true, rest) := rfl

theorem readStar_of_head {rest : Text} (h : rest.head? ≠ some '*') :
    readStar rest = (false, rest) := by
  rw [readStar]
  rintro tail rfl
  exact h rfl

theorem readStar_length (rest : Text) : (readStar rest).2.length ≤ rest.length := by
  rw [readStar.eq_def]
  split <;> simp

/-- Reading a class takes at least one character. -/
theorem readClass?_length {e rest : Text} {k : CharClass} (h : readClass? e = some (k, rest)) :
    rest.length < e.length := by
  rw [readClass?.eq_def] at h
  split at h
  · split at h
    · obtain ⟨-, rfl⟩ := Prod.mk.inj (Option.some.inj h)
      simp only [List.length_cons]
      omega
    · exact absurd h (by simp)
  · obtain ⟨-, rfl⟩ := Prod.mk.inj (Option.some.inj h)
    simp only [List.length_cons]
    omega
  · split at h
    · exact absurd h (by simp)
    · obtain ⟨-, rfl⟩ := Prod.mk.inj (Option.some.inj h)
      simp only [List.length_cons]
      omega
  · split at h
    · exact absurd h (by simp)
    · obtain ⟨-, rfl⟩ := Prod.mk.inj (Option.some.inj h)
      simp only [List.length_cons]
      omega
  · exact absurd h (by simp)

/-- The atoms of an expression up to the anchor at its end. -/
def readAtoms? (e : Text) : Option (List Atom) :=
  match _h : readClass? e with
  | some (k, rest) => (readAtoms? (readStar rest).2).map (⟨k, (readStar rest).1⟩ :: ·)
  | none => if e = ['$'] then some [] else none
termination_by e.length
decreasing_by
  have hclass := readClass?_length _h
  have hstar := readStar_length rest
  omega

/-- **The atoms of an expression** that is anchored at both ends. -/
def read? : Text → Option (List Atom)
  | '^' :: e => readAtoms? e
  | _ => none

/-- One atom is read off the start of an expression. -/
theorem readAtoms?_of_class {e rest : Text} {k : CharClass} (h : readClass? e = some (k, rest)) :
    readAtoms? e = (readAtoms? (readStar rest).2).map (⟨k, (readStar rest).1⟩ :: ·) := by
  rw [readAtoms?]
  split
  · rename_i k' rest' h'
    obtain ⟨rfl, rfl⟩ := Prod.mk.inj (Option.some.inj (h.symm.trans h'))
    rfl
  · rename_i h'
    rw [h] at h'
    exact absurd h' (by simp)

@[simp] theorem readAtoms?_anchor : readAtoms? ['$'] = some [] := by
  rw [readAtoms?]
  split
  · rename_i h
    rw [show readClass? ['$'] = none from rfl] at h
    exact absurd h (by simp)
  · rfl

/-- A character is read back from its escaped form. -/
theorem readClass?_escape (c : Char) (rest : Text) :
    readClass? (escape c ++ rest) = some (.only c, rest) := by
  unfold escape
  cases h : isMeta c with
  | true => simp [readClass?, h]
  | false =>
    -- none of the earlier cases applies, as they all start with a character that has a meaning
    have hplain : ∀ a, isMeta a = true → c ≠ a := by
      rintro a ha rfl
      rw [h] at ha
      exact absurd ha (by decide)
    rw [if_neg (by simp), List.singleton_append, readClass?]
    · rw [if_neg (by simp [h])]
    · rintro a tail rfl
      exact absurd rfl (hplain '\\' (by decide))
    · rintro rfl
      exact absurd rfl (hplain '.' (by decide))
    · rintro a tail rfl
      exact absurd rfl (hplain '[' (by decide))

/-! ## (3) The expression of a glob -/

/-- The atom that a token is written as. -/
def Token.atom : Token → Atom
  | .literal c => ⟨.only c, false⟩
  | .one => ⟨.except '/', false⟩
  | .segment => ⟨.except '/', true⟩
  | .any => ⟨.every, true⟩

/-- No token is written with a star in front, so a star always repeats what stands before it. -/
theorem head_expression_ne_star (t : Token) (rest : Text) :
    (t.expression ++ rest).head? ≠ some '*' := by
  cases t with
  | literal c =>
    simp only [Token.expression, escape]
    cases h : isMeta c with
    | true => simp
    | false =>
      rintro hc
      obtain rfl : c = '*' := by simpa using hc
      exact absurd h (by decide)
  | one => simp [Token.expression]
  | segment => simp [Token.expression]
  | any => simp [Token.expression]

/-- The rest of an expression does not start with a star. -/
theorem head_expressions_ne_star (ts : List Token) :
    (ts.flatMap Token.expression ++ ['$']).head? ≠ some '*' := by
  cases ts with
  | nil => simp
  | cons t ts =>
    rw [List.flatMap_cons, List.append_assoc]
    exact head_expression_ne_star t _

/-- **A token is read back as its atom** when no star follows. -/
theorem readAtoms?_token (t : Token) {rest : Text} (h : rest.head? ≠ some '*') :
    readAtoms? (t.expression ++ rest) = (readAtoms? rest).map (t.atom :: ·) := by
  cases t with
  | literal c =>
    rw [Token.expression, readAtoms?_of_class (readClass?_escape c rest), readStar_of_head h]
    rfl
  | one =>
    have hclass : readClass? (Token.one.expression ++ rest) = some (.except '/', rest) := rfl
    rw [readAtoms?_of_class hclass, readStar_of_head h]
    rfl
  | segment =>
    have hclass : readClass? (Token.segment.expression ++ rest) = some (.except '/', '*' :: rest) :=
      rfl
    rw [readAtoms?_of_class hclass, readStar_star]
    rfl
  | any =>
    have hclass : readClass? (Token.any.expression ++ rest) = some (.every, '*' :: rest) := rfl
    rw [readAtoms?_of_class hclass, readStar_star]
    rfl

/-- Tokens in a row are read back as their atoms. -/
theorem readAtoms?_tokens (ts : List Token) :
    readAtoms? (ts.flatMap Token.expression ++ ['$']) = some (ts.map Token.atom) := by
  induction ts with
  | nil => exact readAtoms?_anchor
  | cons t ts ih =>
    rw [List.flatMap_cons, List.append_assoc, readAtoms?_token t (head_expressions_ne_star ts), ih]
    rfl

/-- **The expression of a glob reads back** as the atoms of its tokens. -/
theorem read?_expression (g : Text) : read? (expression g) = some ((tokens g).map Token.atom) :=
  readAtoms?_tokens (tokens g)

/-- A token and its atom accept the same texts. -/
theorem mem_atom_language {t : Token} {piece : Text} : piece ∈ t.atom.language ↔ t.Accepts piece := by
  cases t with
  | literal c => simp [Token.atom, Atom.language, CharClass.Holds]
  | one => simp [Token.atom, Atom.language, CharClass.Holds]
  | segment =>
    simp only [Token.atom, Atom.language, if_true, CharClass.mem_kstar, CharClass.Holds,
      Token.accepts_segment]
    constructor
    · intro h hslash
      exact h '/' hslash rfl
    · rintro h c hc rfl
      exact h hc
  | any => simp [Token.atom, Atom.language, CharClass.mem_kstar, CharClass.Holds]

/-- **Atoms of tokens have the language of the tokens.** -/
theorem mem_languageOf_atoms {ts : List Token} {path : Text} :
    path ∈ languageOf (ts.map Token.atom) ↔ Matches ts path := by
  induction ts generalizing path with
  | nil => simp [Language.mem_one]
  | cons t ts ih =>
    rw [List.map_cons, languageOf_cons, Language.mem_mul, matches_cons_iff]
    constructor
    · rintro ⟨piece, hpiece, rest, hrest, hcut⟩
      exact ⟨piece, rest, hcut, mem_atom_language.mp hpiece, ih.mp hrest⟩
    · rintro ⟨piece, rest, hcut, hpiece, hrest⟩
      exact ⟨piece, mem_atom_language.mpr hpiece, rest, ih.mpr hrest, hcut⟩

end ChangeGate.Glob
