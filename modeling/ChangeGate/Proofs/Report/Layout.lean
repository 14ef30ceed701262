import ChangeGate.Proofs.Text.Decimal
import ChangeGate.Report.Layout
import Mathlib.Data.List.TakeWhile

/-! # The text report is faithful

Colors only decorate the text report: without the sequences that select a rendition, the colored report is
the plain one (**`uncolored_ansi`**). The plain report is laid out line by line, but a name may look like
any of its other lines, so only the numbers in the titles of the sections tell where these end.
**ofPlain?** reads a report by these numbers, and finds the report that was laid out
(**`ofPlain?_plain`**). Both are put together in **`plain_faithful`**. -/

namespace ChangeGate.Report

/-! ## (1) Without colors -/

/-- A text without its sequences that start with `ESC [` and end with the next `m`. Inside of a sequence
everything up to that `m` is left out; what starts like a sequence and is not ended is none. -/
def uncoloredFrom : Bool → Text → Text
  | _, [] => []
  | true, c :: rest => uncoloredFrom (c != 'm') rest
  | false, '\x1b' :: '[' :: rest =>
    if 'm' ∈ rest then uncoloredFrom true rest else '\x1b' :: '[' :: uncoloredFrom false rest
  | false, c :: rest => c :: uncoloredFrom false rest

/-- A text without the sequences that select a rendition. -/
def uncolored (t : Text) : Text := uncoloredFrom false t

/-- A sequence ends with its `m`. -/
theorem uncoloredFrom_inside {code : Text} (h : 'm' ∉ code) (rest : Text) :
    uncoloredFrom true (code ++ 'm' :: rest) = uncolored rest := by
  induction code with
  | nil => rfl
  | cons c code ih =>
    have hc : (c != 'm') = true := by simpa using (List.ne_of_not_mem_cons h).symm
    rw [List.cons_append, uncoloredFrom, hc, ih (List.not_mem_of_not_mem_cons h)]

/-- A sequence that selects a rendition is left out. -/
theorem uncolored_select {code : Text} (h : 'm' ∉ code) (rest : Text) :
    uncolored (Style.select code ++ rest) = uncolored rest := by
  have htext : Style.select code ++ rest = '\x1b' :: '[' :: (code ++ 'm' :: rest) := by
    simp [Style.select]
  rw [htext, uncolored, uncoloredFrom, if_pos (by simp), uncoloredFrom_inside h]

/-- What holds no escape is kept. -/
theorem uncolored_append {t : Text} (h : '\x1b' ∉ t) (rest : Text) :
    uncolored (t ++ rest) = t ++ uncolored rest := by
  induction t with
  | nil => rfl
  | cons c t ih =>
    have hc : c ≠ '\x1b' := (List.ne_of_not_mem_cons h).symm
    have ih := ih (List.not_mem_of_not_mem_cons h)
    rw [uncolored] at ih ⊢
    rw [List.cons_append, uncoloredFrom, ih, List.cons_append]
    exact fun _ hmark _ => hc hmark

example : uncolored "\x1b[0m\x1b[1mmain\x1b[0m \x1b[0".toList = "main \x1b[0".toList := by decide

/-- The sequences that set a style are left out. -/
theorem uncolored_set (s : Style) (rest : Text) : uncolored (s.set ++ rest) = uncolored rest := by
  obtain ⟨color, bold⟩ := s
  rw [Style.set, Style.reset, List.append_assoc, List.append_assoc, uncolored_select (by decide)]
  have hcolor : ∀ more, uncolored ((color.elim [] fun c => Style.select c.code) ++ more) =
      uncolored more := by
    intro more
    cases color with
    | none => rfl
    | some c => exact uncolored_select (by cases c <;> decide) more
  cases bold with
  | false => exact hcolor rest
  | true =>
    rw [if_pos rfl, uncolored_select (by decide)]
    exact hcolor rest

/-- **A span is its text** without colors. -/
theorem uncolored_span {s : Span} (h : '\x1b' ∉ s.text) (rest : Text) :
    uncolored (s.ansi ++ rest) = s.plain ++ uncolored rest := by
  obtain ⟨style, t⟩ := s
  cases style with
  | none => exact uncolored_append h rest
  | some style =>
    rw [Span.ansi, Span.plain]
    dsimp only
    rw [List.append_assoc, List.append_assoc, uncolored_set, uncolored_append h, Style.reset,
      uncolored_select (by decide)]

/-- Some spans are their texts without colors: induction on the spans. -/
theorem uncolored_spans {ss : List Span} (h : ∀ s ∈ ss, '\x1b' ∉ s.text) :
    uncolored (ss.flatMap Span.ansi) = ss.flatMap Span.plain := by
  induction ss with
  | nil => rfl
  | cons s ss ih =>
    rw [List.flatMap_cons, List.flatMap_cons, uncolored_span (h s List.mem_cons_self),
      ih fun s' hs' => h s' (List.mem_cons_of_mem s hs')]

/-- No escape stands in a section but those in its title and in its names. -/
theorem clean_section {title : Text} {files : List Text} (htitle : '\x1b' ∉ title)
    (hfiles : ∀ name ∈ files, '\x1b' ∉ name) : ∀ s ∈ sectionSpans title files, '\x1b' ∉ s.text := by
  intro s hs
  -- the title, then the number in parentheses, then three spans for each name
  rcases List.mem_cons.mp hs with rfl | hs
  · exact htitle
  rcases List.mem_cons.mp hs with rfl | hs
  · have hnumber : '\x1b' ∉ Text.ofNat files.length := fun hmem =>
      absurd (Text.isDigit_of_mem_ofNat hmem) (by decide)
    have hopen : '\x1b' ∉ " (".toList := by decide
    have hclose : '\x1b' ∉ "):\n".toList := by decide
    rw [Span.bare, List.mem_append, List.mem_append]
    rintro ((hmem | hmem) | hmem)
    · exact hopen hmem
    · exact hnumber hmem
    · exact hclose hmem
  · obtain ⟨name, hname, hs⟩ := List.mem_flatMap.mp hs
    simp only [fileSpans, List.mem_cons, List.not_mem_nil, or_false] at hs
    rcases hs with rfl | rfl | rfl
    · decide
    · exact hfiles name hname
    · decide

variable {r : Report}

/-- No escape stands in a report but those in the names. -/
theorem clean_spans (hfiles : ∀ name ∈ r.files, '\x1b' ∉ name)
    (hincluded : ∀ name ∈ r.included, '\x1b' ∉ name) : ∀ s ∈ r.spans, '\x1b' ∉ s.text := by
  intro s hs
  rw [spans, List.mem_append, List.mem_append] at hs
  rcases hs with (hs | hs) | hs
  · exact clean_section (by decide) hfiles s hs
  · split at hs
    · exact absurd hs List.not_mem_nil
    · exact clean_section (by decide) hincluded s hs
  · cases hchanged : r.changed with
    | true =>
      rw [hchanged] at hs
      revert s
      decide
    | false =>
      rw [hchanged] at hs
      revert s
      decide

/-- **Colors only decorate a report** whose names hold no escape. -/
theorem uncolored_ansi (hfiles : ∀ name ∈ r.files, '\x1b' ∉ name)
    (hincluded : ∀ name ∈ r.included, '\x1b' ∉ name) :
    uncolored r.ansi = r.plain ∧ '\x1b' ∉ r.plain := by
  have hclean := clean_spans hfiles hincluded
  refine ⟨uncolored_spans hclean, fun hmem => ?_⟩
  obtain ⟨s, hs, hmem⟩ := List.mem_flatMap.mp hmem
  exact hclean s hs hmem

/-! ## (2) Reading the plain report -/

/-- The names on so many lines of a section, and what follows them. -/
def names? : Nat → Text → Option (List Text × Text)
  | 0, t => some ([], t)
  | n + 1, t => do
    let line ← Text.strip? "- ".toList t
    match line.dropWhile (· != '\n') with
    | [] => none
    | _ :: more => (names? n more).map fun (names, rest) => (line.takeWhile (· != '\n') :: names, rest)

/-- The names of a section with a title, and what follows the section. -/
def listed? (title t : Text) : Option (List Text × Text) := do
  let counted ← Text.strip? (title ++ " (".toList) t
  let listed ← Text.strip? "):\n".toList (counted.dropWhile Text.isDigit)
  names? (Text.digitsValue 10 (counted.takeWhile Text.isDigit)) listed

/-- The verdict of a report. -/
def verdict? (t : Text) : Option Bool :=
  if t = "Files match filter: true\n".toList then some true
  else if t = "Files match filter: false\n".toList then some false
  else none

/-- **The report that is laid out in a text**, read by the numbers in the titles of its sections. -/
def ofPlain? (t : Text) : Option Report := do
  let (files, rest) ← listed? "Changed files".toList t
  let (included, rest) ←
    if files = [] then some ([], rest) else listed? "Included files".toList rest
  let changed ← verdict? rest
  pure ⟨changed, files, included⟩

/-- What follows the start of a text. -/
theorem strip?_append (lead rest : Text) : Text.strip? lead (lead ++ rest) = some rest := by
  have hlead : lead.isPrefixOf (lead ++ rest) = true :=
    List.isPrefixOf_iff_prefix.mpr (List.prefix_append lead rest)
  rw [Text.strip?, if_pos hlead, List.drop_left]

/-- The plain line of a file. -/
def fileLine (name : Text) : Text := "- ".toList ++ (name ++ ['\n'])

/-- The plain section of a title and some names. -/
theorem plain_section (title : Text) (files : List Text) :
    (sectionSpans title files).flatMap Span.plain =
      title ++ " (".toList ++ (Text.ofNat files.length ++ ("):\n".toList ++ files.flatMap fileLine)) := by
  have hlines : (files.flatMap fileSpans).flatMap Span.plain = files.flatMap fileLine := by
    rw [List.flatMap_assoc]
    rfl
  rw [sectionSpans, List.flatMap_cons, List.flatMap_cons, hlines]
  simp only [Span.plain, Span.styled, Span.bare, List.append_assoc]

/-- **The names of a section** are read from as many lines as there are: induction on the names. -/
theorem names?_lines {files : List Text} (h : ∀ name ∈ files, '\n' ∉ name) (rest : Text) :
    names? files.length (files.flatMap fileLine ++ rest) = some (files, rest) := by
  induction files with
  | nil => rfl
  | cons name files ih =>
    have ih := ih fun other hother => h other (List.mem_cons_of_mem name hother)
    have hname : ∀ c ∈ name, (c != '\n') = true := by
      intro c hc
      simpa using fun hfeed : c = '\n' => h name List.mem_cons_self (hfeed ▸ hc)
    have hline : (name :: files).flatMap fileLine ++ rest =
        "- ".toList ++ (name ++ '\n' :: (files.flatMap fileLine ++ rest)) := by
      rw [List.flatMap_cons, fileLine]
      simp only [List.append_assoc, List.cons_append, List.nil_append]
    rw [hline, List.length_cons, names?, strip?_append]
    simp only [Option.bind_eq_bind, Option.bind_some, List.dropWhile_append_of_pos hname,
      List.takeWhile_append_of_pos hname]
    simp [ih]

/-- **A section is read** by its number. -/
theorem listed?_plain (title : Text) {files : List Text} (h : ∀ name ∈ files, '\n' ∉ name)
    (rest : Text) :
    listed? title ((sectionSpans title files).flatMap Span.plain ++ rest) = some (files, rest) := by
  have hclose : ∀ c, ("):\n".toList ++ (files.flatMap fileLine ++ rest)).head? = some c →
      Text.isDigit c = false := by
    rintro c hc
    obtain rfl : ')' = c := Option.some.inj hc
    decide
  -- the number ends at the parenthesis, and as many lines are read as it says
  rw [plain_section, List.append_assoc, listed?, strip?_append]
  simp only [List.append_assoc, Option.bind_eq_bind, Option.bind_some,
    Text.dropWhile_ofNat _ hclose, Text.takeWhile_ofNat _ hclose, strip?_append,
    Text.digitsValue_ofNat, names?_lines h]

/-- The verdict is read from the last line. -/
theorem verdict?_plain (changed : Bool) :
    verdict? ((verdictSpans changed).flatMap Span.plain) = some changed := by
  cases changed <;> decide

/-- **The report that was laid out** is read from its plain text, if no name holds a line feed and nothing
is included without candidates. -/
theorem ofPlain?_plain (hfiles : ∀ name ∈ r.files, '\n' ∉ name)
    (hincluded : ∀ name ∈ r.included, '\n' ∉ name) (hnone : r.files = [] → r.included = []) :
    ofPlain? r.plain = some r := by
  rw [plain, spans, List.flatMap_append, List.flatMap_append, List.append_assoc, ofPlain?,
    listed?_plain _ hfiles]
  simp only [Option.bind_eq_bind, Option.bind_some]
  split
  · -- the section of the included files is left out, and there are none
    rename_i hempty
    rw [List.flatMap_nil, List.nil_append, verdict?_plain, Option.bind_some, ← hnone hempty]
    rfl
  · rw [listed?_plain _ hincluded, Option.bind_some, verdict?_plain]
    rfl

/-! ## (3) Reports of file lists -/

section

variable [Glob.Engine]

/-- Only candidates are included. -/
theorem mem_of_mem_included {rules : RuleSet} {files : List Text} {name : Text}
    (h : name ∈ (Report.of rules files).included) : name ∈ files :=
  (List.mem_filter.mp h).1

/-- Nothing is included without candidates. -/
theorem included_of_files_nil {rules : RuleSet} {files : List Text}
    (h : (Report.of rules files).files = []) : (Report.of rules files).included = [] := by
  obtain rfl : files = [] := h
  rfl

/-- **The text report is faithful.** If no name holds an escape, the colored report without its sequences
is the plain one, in which no escape stands. If no name holds a line feed, the report is read back from
the plain one, be the list empty or the names alike to any other line. So two reports that are laid out
in the same way are the same. -/
theorem plain_faithful (rules : RuleSet) (files : List Text) :
    ((∀ name ∈ files, '\x1b' ∉ name) →
      uncolored (Report.of rules files).ansi = (Report.of rules files).plain ∧
        '\x1b' ∉ (Report.of rules files).plain) ∧
    ((∀ name ∈ files, '\n' ∉ name) →
      ofPlain? (Report.of rules files).plain = some (Report.of rules files) ∧
        ∀ rules' files', (∀ name ∈ files', '\n' ∉ name) →
          (Report.of rules' files').plain = (Report.of rules files).plain →
          Report.of rules' files' = Report.of rules files) := by
  have hread : ∀ (rules : RuleSet) (files : List Text), (∀ name ∈ files, '\n' ∉ name) →
      ofPlain? (Report.of rules files).plain = some (Report.of rules files) :=
    fun rules files hfiles => ofPlain?_plain hfiles
      (fun name hname => hfiles name (mem_of_mem_included hname)) included_of_files_nil
  refine ⟨fun hfiles => ?_, fun hfiles => ⟨hread rules files hfiles, ?_⟩⟩
  · exact uncolored_ansi hfiles fun name hname => hfiles name (mem_of_mem_included hname)
  · intro rules' files' hfiles' hsame
    have hother := hread rules' files' hfiles'
    rw [hsame, hread rules files hfiles] at hother
    exact (Option.some.inj hother).symm

end

/-- Names that look like the other lines of a report. -/
def lookalikes : List Text :=
  ["Changed files (1):".toList, "- a".toList, "Included files (2):".toList, [],
    "Files match filter: false".toList]

/-- A report of such names is told from all others, with colors and without. -/
theorem plain_faithful_lookalikes :
    (∀ name ∈ lookalikes, '\x1b' ∉ name) ∧ (∀ name ∈ lookalikes, '\n' ∉ name) ∧
    uncolored (Report.of ⟨[]⟩ lookalikes).ansi = (Report.of ⟨[]⟩ lookalikes).plain ∧
    ofPlain? (Report.of ⟨[]⟩ lookalikes).plain = some ⟨true, lookalikes, lookalikes⟩ ∧
    (Report.of ⟨[]⟩ []).plain ≠ (Report.of ⟨[]⟩ lookalikes).plain := by
  have hescape : ∀ name ∈ lookalikes, '\x1b' ∉ name := by decide
  have hfeed : ∀ name ∈ lookalikes, '\n' ∉ name := by decide
  obtain ⟨hcolored, hplain⟩ := plain_faithful ⟨[]⟩ lookalikes
  obtain ⟨hread, hunique⟩ := hplain hfeed
  refine ⟨hescape, hfeed, (hcolored hescape).1, hread, fun hsame => ?_⟩
  have hnames := congrArg Report.files (hunique ⟨[]⟩ [] (by decide) hsame)
  exact absurd hnames (by decide)

end ChangeGate.Report
