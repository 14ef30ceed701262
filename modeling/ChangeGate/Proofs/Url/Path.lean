import ChangeGate.Proofs.Basic
import ChangeGate.Proofs.Text.Lines
import ChangeGate.Url.Basic
import Mathlib.Data.List.DropRight
import Mathlib.Tactic.IntervalCases

/-! # Plain ends of addresses

A **plain** segment stands in the path of an address as it is given. Where an address of the web is read
from a text that ends in plain segments, its path ends in them, whatever stands before
(**`path_of_plain`**). Only the first of them can be taken for the host. -/

namespace ChangeGate.Url

/-! ## (1) Plain segments -/

/-- **A plain segment**: no dots, and only characters that stand in a path as they are. -/
structure IsPlain (t : Text) : Prop where
  chars : ∀ c ∈ t, pathSet c = false ∧ isSlash c = false
  single : isSingleDot t = false
  double : isDoubleDot t = false

instance (t : Text) : Decidable (IsPlain t) :=
  -- the characters of the segment are tried, and not all characters there are
  decidable_of_iff ((t.all fun c => !pathSet c && !isSlash c) = true ∧ isSingleDot t = false ∧
    isDoubleDot t = false)
    ⟨fun ⟨hchars, hsingle, hdouble⟩ => ⟨by simpa using hchars, hsingle, hdouble⟩,
      fun h => ⟨by simpa using h.chars, h.single, h.double⟩⟩

/-- A plain segment holds no slash. -/
theorem IsPlain.slash_not_mem {t : Text} (h : IsPlain t) : '/' ∉ t := by
  intro hmem
  exact absurd (h.chars _ hmem).2 (by decide)

/-- A text that starts neither with a dot nor with a percent sign stands for no dots. -/
theorem not_dots {c : Char} (hdot : c.toLower ≠ '.') (hpercent : c.toLower ≠ '%') (t : Text) :
    isSingleDot (c :: t) = false ∧ isDoubleDot (c :: t) = false := by
  simp [isSingleDot, isDoubleDot, lower, hdot, hpercent]

/-- A digit stands in a path as it is. -/
theorem of_isDigit {c : Char} (h : c.isDigit = true) :
    pathSet c = false ∧ isSlash c = false ∧ c.toLower ≠ '.' ∧ c.toLower ≠ '%' := by
  have hbounds : 48 ≤ c.toNat ∧ c.toNat ≤ 57 := by
    simpa [Char.isDigit, UInt32.le_iff_toNat_le] using h
  obtain ⟨hlow, hhigh⟩ := hbounds
  rw [← Char.ofNat_toNat c]
  interval_cases c.toNat
  all_goals decide

/-- Numerals are plain. -/
theorem isPlain_ofNat (n : Nat) : IsPlain (Text.ofNat n) := by
  have hdigits : ∀ c ∈ Text.ofNat n, c.isDigit = true :=
    fun c hc => Nat.isDigit_of_mem_toDigits (by decide) (by decide) hc
  generalize Text.ofNat n = t at hdigits
  have hchars : ∀ c ∈ t, pathSet c = false ∧ isSlash c = false := fun c hc =>
    ⟨(of_isDigit (hdigits c hc)).1, (of_isDigit (hdigits c hc)).2.1⟩
  cases t with
  | nil => exact ⟨hchars, rfl, rfl⟩
  | cons c t =>
    obtain ⟨-, -, hdot, hpercent⟩ := of_isDigit (hdigits c List.mem_cons_self)
    obtain ⟨hsingle, hdouble⟩ := not_dots hdot hpercent t
    exact ⟨hchars, hsingle, hdouble⟩

/-- Segments as they stand in a path. -/
def segments (ss : List Text) : Text := ss.flatMap ('/' :: ·)

@[simp] theorem segments_nil : segments [] = [] := rfl

@[simp] theorem segments_cons (s : Text) (ss : List Text) :
    segments (s :: ss) = '/' :: s ++ segments ss := rfl

variable {ss : List Text}

/-- A character of plain segments is a slash, or it stands in a path as it is. -/
theorem mem_segments (hplain : ∀ s ∈ ss, IsPlain s) {c : Char} (hc : c ∈ segments ss) :
    c = '/' ∨ pathSet c = false ∧ isSlash c = false := by
  obtain ⟨s, hs, hc⟩ := List.mem_flatMap.mp hc
  rcases List.mem_cons.mp hc with rfl | hc
  · exact .inl rfl
  · exact .inr ((hplain s hs).chars c hc)

/-- Plain segments hold no character that a path encodes. -/
theorem pathSet_of_mem_segments (hplain : ∀ s ∈ ss, IsPlain s) {c : Char} (hc : c ∈ segments ss) :
    pathSet c = false := by
  rcases mem_segments hplain hc with rfl | ⟨hset, -⟩
  · decide
  · exact hset

/-- A character that a path encodes does not stand in plain segments. -/
theorem not_mem_segments (hplain : ∀ s ∈ ss, IsPlain s) {c : Char} (hc : pathSet c = true) :
    c ∉ segments ss := by
  intro hmem
  rw [pathSet_of_mem_segments hplain hmem] at hc
  exact absurd hc (by simp)

/-! ## (2) Paths -/

/-- Plain segments are pushed as they are: induction on the segments. -/
theorem pushSegments_plain (hplain : ∀ s ∈ ss, IsPlain s) (stack : List Text) :
    pushSegments stack ss = ss.reverse ++ stack := by
  have hpush : ∀ {s : Text}, IsPlain s → ∀ last stack, pushSegment stack last s = s :: stack := by
    intro s hs last stack
    rw [pushSegment, if_neg (by simp [hs.double]), if_neg (by simp [hs.single]),
      encode_of_forall fun c hc => (hs.chars c hc).1]
  induction ss generalizing stack with
  | nil => rfl
  | cons s ss ih =>
    have hs : IsPlain s := hplain s List.mem_cons_self
    have hrest := ih fun t ht => hplain t (List.mem_cons_of_mem _ ht)
    cases ss with
    | nil => exact hpush hs true stack
    | cons next ss =>
      have hreverse : (s :: next :: ss).reverse = (next :: ss).reverse ++ [s] := List.reverse_cons
      rw [pushSegments, hpush hs, hrest, hreverse, List.append_assoc, List.singleton_append]

/-- Whatever segments stand before plain ones, these are pushed last. -/
theorem pushSegments_append (hplain : ∀ s ∈ ss, IsPlain s) (hne : ss ≠ []) (ps stack : List Text) :
    ∃ below, pushSegments stack (ps ++ ss) = ss.reverse ++ below := by
  induction ps generalizing stack with
  | nil => exact ⟨stack, pushSegments_plain hplain stack⟩
  | cons p ps ih =>
    obtain ⟨next, rest, hnext⟩ := List.exists_cons_of_ne_nil (List.append_ne_nil_of_right_ne_nil ps hne)
    obtain ⟨below, hbelow⟩ := ih (pushSegment stack false p)
    refine ⟨below, ?_⟩
    rw [List.cons_append, hnext, pushSegments, ← hnext, hbelow]

/-- The pieces of a text before plain segments, and the segments: induction on the segments. -/
theorem pieces_segments (hplain : ∀ s ∈ ss, IsPlain s) (t : Text) :
    Text.pieces '/' (t ++ segments ss) = Text.pieces '/' t ++ ss := by
  induction ss generalizing t with
  | nil => rw [segments_nil, List.append_nil, List.append_nil]
  | cons s ss ih =>
    have hs : '/' ∉ s := (hplain s List.mem_cons_self).slash_not_mem
    rw [segments_cons, List.cons_append, Text.pieces_append_sep,
      ih (fun u hu => hplain u (List.mem_cons_of_mem _ hu)) s, Text.pieces_of_not_mem hs,
      List.singleton_append]

/-- No character of plain segments becomes a slash. -/
theorem slashed_segments (hplain : ∀ s ∈ ss, IsPlain s) :
    (segments ss).map (fun c => if c = '\\' then '/' else c) = segments ss := by
  refine (List.map_congr_left (g := id) fun c hc => if_neg ?_).trans (List.map_id _)
  rintro rfl
  rcases mem_segments hplain hc with hslash | ⟨-, hslash⟩
  · exact absurd hslash (by decide)
  · exact absurd hslash (by decide)

/-- **A path that ends in plain segments** is written with them at its end. -/
theorem absolutePath_segments (hplain : ∀ s ∈ ss, IsPlain s) (hne : ss ≠ []) (t : Text) :
    ∃ base, absolutePath true (t ++ segments ss) = base ++ segments ss := by
  have hpath : ∀ ps, ∃ base, pathText (pushSegments [] (ps ++ ss)) = base ++ segments ss := by
    intro ps
    obtain ⟨below, hbelow⟩ := pushSegments_append hplain hne ps []
    refine ⟨below.reverse.flatMap ('/' :: ·), ?_⟩
    rw [hbelow, pathText, List.reverse_append, List.reverse_reverse, List.flatMap_append]
    rfl
  unfold absolutePath
  rw [if_pos rfl, List.map_append, slashed_segments hplain]
  cases t.map fun c => if c = '\\' then '/' else c with
  | nil =>
    -- the path starts with the segments
    obtain ⟨s, rest, rfl⟩ := List.exists_cons_of_ne_nil hne
    have hs : '/' ∉ s := (hplain s List.mem_cons_self).slash_not_mem
    have hpieces := pieces_segments (fun u hu => hplain u (List.mem_cons_of_mem _ hu)) s
    rw [Text.pieces_of_not_mem hs] at hpieces
    simp only [List.nil_append, segments_cons, List.cons_append, hpieces]
    exact hpath []
  | cons c front =>
    by_cases hc : c = '/'
    · simp only [hc, List.cons_append, pieces_segments hplain]
      exact hpath _
    · have hpieces := pieces_segments hplain (c :: front)
      rw [List.cons_append] at hpieces ⊢
      dsimp only
      split
      · rename_i hnil
        exact absurd hnil (by simp)
      · rename_i hslash
        exact absurd (List.cons.inj hslash).1 hc
      · rw [hpieces]
        exact hpath _

/-! ## (3) Addresses -/

/-- Dropping characters before plain segments keeps the segments, if a slash is not dropped. -/
theorem dropWhile_segments {p : Char → Bool} (hslash : p '/' = false) (hne : ss ≠ []) (t : Text) :
    (t ++ segments ss).dropWhile p = t.dropWhile p ++ segments ss := by
  obtain ⟨s, rest, rfl⟩ := List.exists_cons_of_ne_nil hne
  rw [List.dropWhile_append]
  split
  · rename_i hempty
    rw [List.isEmpty_iff.mp hempty, segments_cons, List.cons_append, List.nil_append,
      List.dropWhile_cons_of_neg (by simp [hslash])]
  · rfl

/-- A path encodes all that is dropped when a text is cleaned. -/
theorem kept_of_pathSet {c : Char} (h : pathSet c = false) :
    ¬ c.toNat ≤ 0x20 ∧ c ≠ '\t' ∧ c ≠ '\n' ∧ c ≠ '\x0d' := by
  have hlarge : ¬ c.toNat ≤ 0x20 := by
    intro hsmall
    by_cases hblank : c = ' '
    · rw [hblank] at h
      exact absurd h (by decide)
    · have hne : c.toNat ≠ 0x20 := fun h => hblank (Char.toNat_inj.mp h)
      have hcontrol : isControl c = true := by
        simp only [isControl, Bool.or_eq_true, decide_eq_true_eq]
        omega
      rw [pathSet, hcontrol] at h
      exact absurd h (by simp)
  refine ⟨hlarge, ?_, ?_, ?_⟩
  · rintro rfl
    exact hlarge (by decide)
  · rintro rfl
    exact hlarge (by decide)
  · rintro rfl
    exact hlarge (by decide)

/-- Plain segments at the end of a text are kept when it is cleaned, and of what precedes them only the start
and the tabs and line ends are dropped. -/
theorem cleaned_append_segments (hplain : ∀ s ∈ ss, IsPlain s) (hne : ss ≠ []) (t : Text) :
    cleaned (t ++ segments ss) = (t.dropWhile fun c => decide (c.toNat ≤ 0x20)).filter
      (fun c => c != '\t' && c != '\n' && c != '\x0d') ++ segments ss := by
  have hkept : ∀ c ∈ segments ss, ¬ c.toNat ≤ 0x20 ∧ c ≠ '\t' ∧ c ≠ '\n' ∧ c ≠ '\x0d' :=
    fun c hc => kept_of_pathSet (pathSet_of_mem_segments hplain hc)
  -- the segments have a last character, and it ends what is dropped behind them
  have hend : ∀ l : Text, ((segments ss).reverse ++ l).dropWhile (fun c => decide (c.toNat ≤ 0x20)) =
      (segments ss).reverse ++ l := by
    intro l
    obtain ⟨s, more, rfl⟩ := List.exists_cons_of_ne_nil hne
    obtain ⟨last, front, hreverse⟩ := List.exists_cons_of_ne_nil
      (show (segments (s :: more)).reverse ≠ [] by simp)
    have hlast : ¬ last.toNat ≤ 0x20 :=
      (hkept last (List.mem_reverse.mp (hreverse ▸ List.mem_cons_self))).1
    rw [hreverse, List.cons_append, List.dropWhile_cons_of_neg (by simpa using hlast)]
  have hfilter : (segments ss).filter (fun c => c != '\t' && c != '\n' && c != '\x0d') =
      segments ss := by
    rw [List.filter_eq_self]
    intro c hc
    obtain ⟨-, htab, hfeed, hreturn⟩ := hkept c hc
    simp [htab, hfeed, hreturn]
  rw [cleaned, dropWhile_segments (by decide) hne, List.reverse_append, hend, List.reverse_append,
    List.reverse_reverse, List.reverse_reverse, List.filter_append, hfilter]

/-- Cleaning a text that ends in plain segments adds nothing to what precedes them. -/
theorem cleaned_segments (hplain : ∀ s ∈ ss, IsPlain s) (hne : ss ≠ []) (t : Text) :
    ∃ t', cleaned (t ++ segments ss) = t' ++ segments ss ∧ ∀ c ∈ t', c ∈ t := by
  refine ⟨_, cleaned_append_segments hplain hne t, ?_⟩
  intro c hc
  exact (List.dropWhile_sublist _).subset (List.mem_filter.mp hc).1

/-- All of a text precedes a sign that does not stand in it. -/
theorem dropWhile_ne_of_not_mem {sign : Char} {t : Text} (h : sign ∉ t) :
    t.dropWhile (· != sign) = [] := by
  rw [List.dropWhile_eq_nil_iff]
  intro c hc
  rw [bne_iff_ne]
  rintro rfl
  exact h hc

/-- A sign that does not stand in a text does not split it. -/
theorem splitFirst_of_not_mem {sign : Char} {t : Text} (h : sign ∉ t) :
    splitFirst sign t = (t, none) := by
  rw [splitFirst, dropWhile_ne_of_not_mem h]

/-- What the scheme of an address with plain segments leaves ends in the segments. -/
theorem scheme?_segments {t scheme rest : Text} (hne : ss ≠ [])
    (h : scheme? (t ++ segments ss) = some (scheme, rest)) :
    ∃ t', rest = t' ++ segments ss ∧ ∀ c ∈ t', c ∈ t := by
  unfold scheme? at h
  rw [dropWhile_segments (by decide) hne] at h
  split at h
  · rename_i heq hrest
    split at h
    · obtain ⟨-, rfl⟩ := Prod.mk.inj (Option.some.inj h)
      rename_i hrest _
      have hsubset : ∀ c ∈ t.dropWhile isSchemeChar, c ∈ t :=
        fun c hc => (List.dropWhile_sublist _).subset hc
      generalize t.dropWhile isSchemeChar = dropped at hrest hsubset
      cases dropped with
      | nil =>
        obtain ⟨s, more, rfl⟩ := List.exists_cons_of_ne_nil hne
        exact absurd (List.cons.inj hrest).1 (by decide)
      | cons c dropped =>
        obtain ⟨-, rfl⟩ := List.cons.inj hrest
        exact ⟨dropped, rfl, fun d hd => hsubset d (List.mem_cons_of_mem _ hd)⟩
    · exact absurd h (by simp)
  · exact absurd h (by simp)

/-- An address keeps the scheme of its parts. -/
theorem scheme_of_ofParts {scheme hierarchy : Text} {query fragment : Option Text} {u : Url}
    (h : ofParts scheme hierarchy query fragment = .ok u) : u.scheme = scheme := by
  unfold ofParts at h
  dsimp only at h
  split at h
  · obtain ⟨-, -, rfl⟩ := map_eq_ok.mp h
    rfl
  split at h
  · obtain ⟨-, -, rfl⟩ := map_eq_ok.mp h
    rfl
  split at h
  · obtain ⟨-, -, rfl⟩ := map_eq_ok.mp h
    rfl
  · rw [← Except.ok.inj h]
  · rw [← Except.ok.inj h]

/-- Addresses of the web always have a host. -/
theorem isSpecial_of_web {scheme : Text} (h : scheme = "http".toList ∨ scheme = "https".toList) :
    isSpecial scheme = true := by
  rcases h with rfl | rfl
  · decide
  · decide

/-- A query leaves the scheme as it is. -/
theorem addQuery_scheme (u : Url) (t : Text) : (u.addQuery t).scheme = u.scheme := by
  unfold addQuery
  split <;> rfl

/-- What stands between the path of an address and a text that is added to its query. -/
def queryStart (u : Url) : Text :=
  match u.query with
  | none => ['?']
  | some [] => ['?']
  | some q => '?' :: q ++ ['&']

/-- A text that is added to the query ends the target. -/
theorem target_addQuery (u : Url) (t : Text) :
    (u.addQuery t).target = u.path ++ u.queryStart ++ t := by
  unfold addQuery target queryStart
  split <;> simp_all

/-- What follows the slashes before plain segments ends in all but the first of them. -/
theorem dropSlashes_segments {first : Text} (hfirst : IsPlain first) (hnonempty : first ≠ [])
    (t : Text) : ∃ front, (t ++ segments (first :: ss)).dropWhile isSlash = front ++ segments ss := by
  rw [List.dropWhile_append]
  split
  · refine ⟨first, ?_⟩
    obtain ⟨c, rest, rfl⟩ := List.exists_cons_of_ne_nil hnonempty
    have hc : isSlash c = false := (hfirst.chars c List.mem_cons_self).2
    rw [segments_cons, List.cons_append, List.dropWhile_cons_of_pos (by decide), List.cons_append,
      List.dropWhile_cons_of_neg (by simp [hc])]
  · refine ⟨t.dropWhile isSlash ++ '/' :: first, ?_⟩
    rw [segments_cons, List.append_assoc]

/-- The parts of an address of the web whose hierarchy ends in plain segments. -/
theorem ofParts_segments {first scheme hierarchy : Text} {fragment : Option Text} {u : Url}
    (hfirst : IsPlain first) (hnonempty : first ≠ []) (hplain : ∀ s ∈ ss, IsPlain s) (hne : ss ≠ [])
    (h : ofParts scheme (hierarchy ++ segments (first :: ss)) none fragment = .ok u)
    (hspecial : isSpecial u.scheme = true) :
    (∃ base, u.path = base ++ segments ss) ∧ u.query = none := by
  rw [scheme_of_ofParts h] at hspecial
  have hfile : scheme ≠ fileScheme := by
    rintro rfl
    exact absurd hspecial (by decide)
  obtain ⟨front, hfront⟩ : ∃ front, (hierarchy ++ segments (first :: ss)).dropWhile isSlash =
      front ++ segments ss := dropSlashes_segments hfirst hnonempty hierarchy
  unfold ofParts at h
  dsimp only at h
  rw [if_neg hfile, hspecial, Bool.true_or, if_pos rfl, hfront,
    dropWhile_segments (by decide) hne] at h
  obtain ⟨host, -, rfl⟩ := map_eq_ok.mp h
  exact ⟨absolutePath_segments hplain hne _, rfl⟩

/-- **An address of the web that ends in plain segments** has them at the end of its path, and no query.
The first of them may have become the host. -/
theorem path_of_plain {first t : Text} {u : Url} (hfirst : IsPlain first) (hnonempty : first ≠ [])
    (hplain : ∀ s ∈ ss, IsPlain s) (hne : ss ≠ []) (hquery : '?' ∉ t) (hfragment : '#' ∉ t)
    (h : ofText (t ++ segments (first :: ss)) = .ok u) (hspecial : isSpecial u.scheme = true) :
    (∃ base, u.path = base ++ segments ss) ∧ u.query = none := by
  have hall : ∀ s ∈ first :: ss, IsPlain s := by
    intro s hs
    rcases List.mem_cons.mp hs with rfl | hs
    · exact hfirst
    · exact hplain s hs
  obtain ⟨t', hcleaned, hsubset⟩ := cleaned_segments hall (List.cons_ne_nil first ss) t
  rw [ofText, hcleaned] at h
  cases hscheme : scheme? (t' ++ segments (first :: ss)) with
  | none =>
    rw [hscheme] at h
    exact absurd h (by simp)
  | some found =>
    obtain ⟨scheme, rest⟩ := found
    obtain ⟨hierarchy, rfl, hsubset'⟩ := scheme?_segments (List.cons_ne_nil first ss) hscheme
    -- what would end the path stands neither in front of the segments nor in them
    have hnot : ∀ {sign : Char}, pathSet sign = true → sign ∉ t →
        sign ∉ hierarchy ++ segments (first :: ss) := by
      intro sign hsign hmem happ
      rcases List.mem_append.mp happ with hin | hin
      · exact hmem (hsubset _ (hsubset' _ hin))
      · exact not_mem_segments hall hsign hin
    rw [hscheme] at h
    dsimp only at h
    rw [splitFirst_of_not_mem (hnot (by decide) hfragment)] at h
    dsimp only at h
    rw [splitFirst_of_not_mem (hnot (by decide) hquery)] at h
    exact ofParts_segments hfirst hnonempty hplain hne h hspecial

end ChangeGate.Url
