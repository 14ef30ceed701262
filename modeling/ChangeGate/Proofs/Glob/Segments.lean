import ChangeGate.Proofs.Glob.Matcher
import ChangeGate.Proofs.Text.Lines

/-! # Matching segment by segment

A glob in which no two stars stand side by side has no token that takes a slash but the slashes
themselves. A slash of the glob therefore cuts every path that it matches at a slash
(`matches_slash_iff`), and what precedes the first slash of the glob matches what precedes the first slash
of the path. By induction on the slashes the glob matches a path exactly if its segments match the
segments of the path one by one, each of them compiled on its own
(**`accepts_iff_segments`**). -/

namespace ChangeGate.Glob

/-! ## (1) Tokens without a slash -/

/-- A character that stands for itself is one of the glob. -/
theorem Reads.mem_of_literal_mem {g : Text} {ts : List Token} {c : Char} (h : Reads g ts)
    (hc : Token.literal c ∈ ts) : c ∈ g := by
  induction h with
  | nil => exact absurd hc (by simp)
  | any _ ih => exact List.mem_cons_of_mem _ (List.mem_cons_of_mem _ (ih (by simpa using hc)))
  | segment _ _ ih => exact List.mem_cons_of_mem _ (ih (by simpa using hc))
  | one _ ih => exact List.mem_cons_of_mem _ (ih (by simpa using hc))
  | literal _ _ _ ih =>
    rcases List.mem_cons.mp hc with hc | hc
    · exact List.mem_cons.mpr (.inl (Token.literal.inj hc))
    · exact List.mem_cons_of_mem _ (ih hc)

/-- Where no two stars stand side by side, no token stands for any text at all. -/
theorem Reads.any_not_mem {g : Text} {ts : List Token} (h : Reads g ts)
    (hstars : ¬ ['*', '*'] <:+: g) : Token.any ∉ ts := by
  -- two stars in the rest of a glob are two stars in the glob
  have hrest : ∀ {c : Char} {rest : Text},
      ¬ ['*', '*'] <:+: c :: rest → ¬ ['*', '*'] <:+: rest := by
    intro c rest hnot hpair
    exact hnot (hpair.trans (List.suffix_cons c rest).isInfix)
  induction h with
  | nil => simp
  | @any rest ts _ _ => exact absurd ⟨[], rest, rfl⟩ hstars
  | segment _ _ ih => simpa using ih (hrest hstars)
  | one _ ih => simpa using ih (hrest hstars)
  | literal _ _ _ ih => simpa using ih (hrest hstars)

/-- Tokens that take no slash match no path with a slash. -/
theorem Matches.slash_not_mem {ts : List Token} {path : Text} (h : Matches ts path)
    (hany : Token.any ∉ ts) (hslash : Token.literal '/' ∉ ts) : '/' ∉ path := by
  induction h with
  | nil => simp
  | @cons t ts piece rest hpiece _ ih =>
    rw [List.mem_cons, not_or] at hany hslash
    have hrest : '/' ∉ rest := ih hany.2 hslash.2
    have hfirst : '/' ∉ piece := by
      cases t with
      | literal c =>
        obtain rfl : piece = [c] := hpiece
        intro hmem
        exact hslash.1 (by rw [List.mem_singleton.mp hmem])
      | one =>
        obtain ⟨c, hc, rfl⟩ := hpiece
        intro hmem
        exact hc (List.mem_singleton.mp hmem).symm
      | segment => exact hpiece
      | any => exact absurd rfl hany.1
    simp [hfirst, hrest]

/-- A glob without a slash and without two stars side by side matches no path with a slash. -/
theorem slash_not_mem_of_matches {g path : Text} (h : Matches (tokens g) path)
    (hstars : ¬ ['*', '*'] <:+: g) (hslash : '/' ∉ g) : '/' ∉ path := by
  have hreads : Reads g (tokens g) := reads_tokens g
  apply h.slash_not_mem (hreads.any_not_mem hstars)
  intro hmem
  exact hslash (hreads.mem_of_literal_mem hmem)

/-! ## (2) Cutting at the slashes -/

/-- **A slash of a glob cuts the paths that it matches**, whatever stands around it. -/
theorem matches_slash_iff {front rest path : Text} :
    Matches (tokens (front ++ '/' :: rest)) path ↔
      ∃ before after, path = before ++ '/' :: after ∧ Matches (tokens front) before ∧
        Matches (tokens rest) after := by
  have htokens : tokens (front ++ '/' :: rest) = tokens front ++ .literal '/' :: tokens rest := by
    rw [tokens_append (by simp), tokens_literal (by decide) (by decide)]
  rw [htokens, matches_append]
  constructor
  · rintro ⟨before, back, rfl, hbefore, hback⟩
    obtain ⟨piece, after, rfl, hpiece, hafter⟩ := matches_cons_iff.mp hback
    obtain rfl : piece = ['/'] := hpiece
    exact ⟨before, after, rfl, hbefore, hafter⟩
  · rintro ⟨before, after, rfl, hbefore, hafter⟩
    have hback : Matches (.literal '/' :: tokens rest) ('/' :: after) :=
      matches_cons_iff.mpr ⟨['/'], after, rfl, rfl, hafter⟩
    exact ⟨before, '/' :: after, rfl, hbefore, hback⟩

/-- Segments that match in turn. -/
def SegmentsMatch (segments pieces : List Text) : Prop :=
  List.Forall₂ (fun segment piece => Matches (tokens segment) piece) segments pieces

/-- **A glob matches the paths whose segments match its own**: induction on the length of the glob, since
each slash leaves less of it. -/
theorem matches_iff_segments {g path : Text} (hstars : ¬ ['*', '*'] <:+: g) :
    Matches (tokens g) path ↔ SegmentsMatch (Text.pieces '/' g) (Text.pieces '/' path) := by
  induction hlength : g.length using Nat.strongRecOn generalizing g path with
  | ind n ih =>
    subst hlength
    by_cases hslash : '/' ∈ g
    · -- the first slash of the glob takes the first one of the path, and the induction goes on behind both
      obtain ⟨front, rest, rfl, hfront⟩ := List.eq_append_cons_of_mem hslash
      have hflat : ¬ ['*', '*'] <:+: front := by
        intro hpair
        exact hstars (hpair.trans (List.prefix_append _ _).isInfix)
      have hrest : ¬ ['*', '*'] <:+: rest := by
        intro hpair
        rw [List.append_cons] at hstars
        exact hstars (hpair.trans (List.suffix_append _ _).isInfix)
      have hshorter : rest.length < (front ++ '/' :: rest).length := by
        rw [List.length_append, List.length_cons]
        omega
      rw [matches_slash_iff, Text.pieces_append hfront]
      constructor
      · rintro ⟨before, after, rfl, hbefore, hafter⟩
        have hnone : '/' ∉ before := slash_not_mem_of_matches hbefore hflat hfront
        rw [Text.pieces_append hnone]
        exact .cons hbefore ((ih _ hshorter hrest rfl).mp hafter)
      · intro h
        by_cases hpath : '/' ∈ path
        · obtain ⟨before, after, rfl, hnone⟩ := List.eq_append_cons_of_mem hpath
          rw [Text.pieces_append hnone] at h
          obtain ⟨hbefore, hafter⟩ := List.forall₂_cons.mp h
          exact ⟨before, after, rfl, hbefore, (ih _ hshorter hrest rfl).mpr hafter⟩
        · -- a path without a slash is a single segment, and the glob has more
          rw [Text.pieces_of_not_mem hpath] at h
          exact absurd (List.forall₂_nil_right_iff.mp (List.forall₂_cons.mp h).2)
            (Text.pieces_ne_nil '/' rest)
    · -- a glob without a slash is a single segment, and no path that it matches has a slash
      rw [Text.pieces_of_not_mem hslash]
      constructor
      · intro h
        rw [Text.pieces_of_not_mem (slash_not_mem_of_matches h hstars hslash)]
        exact .cons h .nil
      · intro h
        by_cases hpath : '/' ∈ path
        · obtain ⟨before, after, rfl, hnone⟩ := List.eq_append_cons_of_mem hpath
          rw [Text.pieces_append hnone] at h
          exact absurd (List.forall₂_nil_left_iff.mp (List.forall₂_cons.mp h).2)
            (Text.pieces_ne_nil '/' after)
        · rw [Text.pieces_of_not_mem hpath] at h
          exact (List.forall₂_cons.mp h).1

/-! ## (3) Segments compiled on their own -/

/-- Compiled segments accept pieces in turn exactly if the segments match them. -/
theorem forall₂_accepts_iff [Engine] {segments pieces : List Text} {ms : List Matcher}
    (h : List.Forall₂ (fun segment m => compile segment = .ok m) segments ms) :
    List.Forall₂ (fun m piece => m.accepts piece = true) ms pieces ↔
      SegmentsMatch segments pieces := by
  induction h generalizing pieces with
  | nil => rw [SegmentsMatch, List.forall₂_nil_left_iff, List.forall₂_nil_left_iff]
  | @cons segment m segments ms hm _ ih =>
    cases pieces with
    | nil => simp [SegmentsMatch]
    | cons piece pieces =>
      rw [SegmentsMatch, List.forall₂_cons, List.forall₂_cons, ih, accepts_iff_matches hm]
      rfl

/-- **Segmentwise matching.** A glob in which no two stars stand side by side accepts a path exactly if the
two have the same number of segments and each segment of the glob, compiled on its own, accepts the segment
of the path at its place; so the path has as many slashes as the glob. -/
theorem accepts_iff_segments [Engine] {g : Text} {m : Matcher} {ms : List Matcher}
    (hstars : ¬ ['*', '*'] <:+: g) (hg : compile g = .ok m)
    (hsegments : List.Forall₂ (fun segment m => compile segment = .ok m) (Text.pieces '/' g) ms)
    (path : Text) :
    (m.accepts path = true ↔
      (Text.pieces '/' path).length = (Text.pieces '/' g).length ∧
      List.Forall₂ (fun m piece => m.accepts piece = true) ms (Text.pieces '/' path)) ∧
    (m.accepts path = true → path.count '/' = g.count '/') := by
  have haccepts : m.accepts path = true ↔
      List.Forall₂ (fun m piece => m.accepts piece = true) ms (Text.pieces '/' path) := by
    rw [accepts_iff_matches hg, matches_iff_segments hstars, forall₂_accepts_iff hsegments]
  have hlength (h : List.Forall₂ (fun m piece => m.accepts piece = true) ms (Text.pieces '/' path)) :
      (Text.pieces '/' path).length = (Text.pieces '/' g).length :=
    h.length_eq.symm.trans hsegments.length_eq.symm
  constructor
  · rw [haccepts]
    exact ⟨fun h => ⟨hlength h, h⟩, fun h => h.2⟩
  · intro h
    have hcount := hlength (haccepts.mp h)
    rw [Text.length_pieces, Text.length_pieces] at hcount
    omega

/-- A file in a directory of any name: the segments are matched by two different matchers, and a path
with one directory more is not accepted, since a single star crosses no slash. -/
theorem accepts_iff_segments_source :
    ¬ ['*', '*'] <:+: "src/*/?.rs".toList ∧
    compile "src/*/?.rs".toList = .ok (.general "src/*/?.rs".toList) ∧
    List.Forall₂ (fun segment m => compile segment = .ok m) (Text.pieces '/' "src/*/?.rs".toList)
      [.exact "src".toList, .general "*".toList, .general "?.rs".toList] ∧
    (Matcher.general "src/*/?.rs".toList).accepts "src/a b/x.rs".toList = true ∧
    (Matcher.general "src/*/?.rs".toList).accepts "src/a/b/x.rs".toList = false := by
  have hstars : ¬ ['*', '*'] <:+: "src/*/?.rs".toList := by decide
  have hg : compile "src/*/?.rs".toList = .ok (.general "src/*/?.rs".toList) := by decide
  have hsegments : List.Forall₂ (fun segment m => compile segment = .ok m)
      (Text.pieces '/' "src/*/?.rs".toList)
      [.exact "src".toList, .general "*".toList, .general "?.rs".toList] := by
    refine .cons ?_ (.cons ?_ (.cons ?_ .nil)) <;> decide
  refine ⟨hstars, hg, hsegments, ?_, ?_⟩
  · refine (accepts_iff_segments hstars hg hsegments _).1.mpr ⟨rfl, ?_⟩
    refine .cons ?_ (.cons ?_ (.cons ?_ .nil)) <;> decide
  · rw [← Bool.not_eq_true]
    intro h
    have hcount := (accepts_iff_segments hstars hg hsegments _).2 h
    exact absurd hcount (by decide)

end ChangeGate.Glob
