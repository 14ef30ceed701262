import ChangeGate.Program.Match
import ChangeGate.Proofs.Text.Blank
import ChangeGate.Proofs.Text.Decoding

/-! # What a list of files names

Names are read line by line, which comes to the same as reading all the bytes at once
(**`fileList?_eq_some_iff`**). **Layout** says in how many ways the same names can be written down: with
white space around them, blank lines between them, and lines ended in either way or, the last one, not
at all. All of them are read as the same names (**`fileList?_of_layout`**), so the names that are found in
some bytes are found again when they are written one to a line (**`fileList?_at_once`**). -/

namespace ChangeGate.Program

open Text (blank trim)

/-! ## (1) Line by line and at once -/

/-- The names in some bytes are those in the lines of the text that they are. -/
theorem fileList?_eq (bytes : Text.Bytes) :
    fileList? bytes = (Text.decode? bytes).map fun t => namesIn (Text.lines t) := by
  rw [fileList?, textLines?, Text.mapM_decode?_linesOf, Option.map_map]
  rfl

/-- **The names in some bytes**: the bytes are a text, and the names are what is left of its lines. -/
theorem fileList?_eq_some_iff {bytes : Text.Bytes} {files : List Text} :
    fileList? bytes = some files ↔
      ∃ t, bytes = Text.encode t ∧ files = namesIn (Text.lines t) := by
  rw [fileList?_eq, Option.map_eq_some_iff]
  constructor
  · rintro ⟨t, ht, rfl⟩
    exact ⟨t, Text.decode?_eq_some_iff.mp ht, rfl⟩
  · rintro ⟨t, ht, rfl⟩
    exact ⟨t, Text.decode?_eq_some_iff.mpr ht, rfl⟩

/-- There are no names only if the bytes are no text. -/
theorem fileList?_eq_none_iff {bytes : Text.Bytes} :
    fileList? bytes = none ↔ ∀ t, bytes ≠ Text.encode t := by
  rw [fileList?_eq, Option.map_eq_none_iff, Text.decode?_eq_none_iff]

/-! ## (2) Layouts -/

/-- **A name** fills a line: it is not empty, holds no line feed, and has no white space at its ends. -/
structure IsName (name : Text) : Prop where
  ne_nil : name ≠ []
  feed : '\n' ∉ name
  tight : Text.Tight name

instance (name : Text) : Decidable (IsName name) :=
  decidable_of_iff (name ≠ [] ∧ '\n' ∉ name ∧ Text.Tight name)
    ⟨fun ⟨hne, hfeed, htight⟩ => ⟨hne, hfeed, htight⟩, fun h => ⟨h.ne_nil, h.feed, h.tight⟩⟩

/-- White space within a line. -/
structure IsPadding (pad : Text) : Prop where
  blank : Text.blank pad = true
  feed : '\n' ∉ pad

/-- What ends a line. -/
def IsEnding (ending : Text) : Prop := ending = ['\n'] ∨ ending = ['\r', '\n']

/-- **The layouts of some names**, one to a line. -/
inductive Layout : Text → List Text → Prop where
  /-- The last line is blank, or there is none. -/
  | rest {pad : Text} : IsPadding pad → Layout pad []
  /-- The last line has a name and is not ended. -/
  | last {lead name tail : Text} :
      IsPadding lead → IsPadding tail → Layout (lead ++ name ++ tail) [name]
  /-- A line is blank. -/
  | skip {pad ending more : Text} {names : List Text} :
      IsPadding pad → IsEnding ending → Layout more names → Layout (pad ++ ending ++ more) names
  /-- A line has a name. -/
  | line {lead name tail ending more : Text} {names : List Text} :
      IsPadding lead → IsPadding tail → IsEnding ending → Layout more names →
      Layout (lead ++ name ++ tail ++ ending ++ more) (name :: names)

/-- A carriage return behind a line is trimmed away. -/
theorem trim_return (line : Text) : trim (line ++ ['\r']) = trim line :=
  Text.trim_append (by decide) line

/-- A carriage return at the end of a line is trimmed in any case. -/
theorem trim_dropLastIf (t : Text) : trim (Text.dropLastIf '\r' t) = trim t := by
  unfold Text.dropLastIf
  split
  · rename_i hreturn
    obtain ⟨line, rfl⟩ := List.getLast?_eq_some_iff.mp hreturn
    rw [List.dropLast_concat, trim_return]
  · rfl

/-- The first line of a text, however it is ended. -/
theorem lines_of_ending {line ending : Text} (hline : '\n' ∉ line) (hending : IsEnding ending)
    (more : Text) :
    ∃ first, Text.lines (line ++ ending ++ more) = first :: Text.lines more ∧
      trim first = trim line := by
  rcases hending with rfl | rfl
  · refine ⟨_, ?_, trim_dropLastIf line⟩
    rw [List.append_assoc]
    exact Text.lines_append hline more
  · have hreturn : '\n' ∉ line ++ ['\r'] := by simp [hline]
    refine ⟨_, ?_, (trim_dropLastIf _).trans (trim_return line)⟩
    rw [List.append_assoc, ← Text.lines_append hreturn more, List.append_assoc]
    rfl

/-- A line without a name adds none. -/
theorem namesIn_cons_of_blank {line : Text} (h : trim line = []) (ls : List Text) :
    namesIn (line :: ls) = namesIn ls := by
  rw [namesIn, List.map_cons, h]
  rfl

/-- A line with a name adds it. -/
theorem namesIn_cons_of_name {line name : Text} (h : trim line = name) (hname : name ≠ [])
    (ls : List Text) : namesIn (line :: ls) = name :: namesIn ls := by
  rw [namesIn, List.map_cons, h, List.filter_cons_of_pos (by simpa using hname)]
  rfl

/-- White space is trimmed away. -/
theorem IsPadding.trim_eq {pad : Text} (h : IsPadding pad) : trim pad = [] :=
  (Text.trims_iff.mp ⟨pad, [], by simp, h.blank, rfl, by simp, by simp⟩).symm

/-- White space around a name is trimmed away. -/
theorem IsName.trim_eq {lead name tail : Text} (hname : IsName name) (hlead : IsPadding lead)
    (htail : IsPadding tail) : trim (lead ++ name ++ tail) = name := by
  rw [Text.trim_append_append hlead.blank htail.blank, hname.tight.trim_eq]

/-- A name with white space around it holds no line feed. -/
theorem IsName.feed_padded {lead name tail : Text} (hname : IsName name) (hlead : IsPadding lead)
    (htail : IsPadding tail) : '\n' ∉ lead ++ name ++ tail := by
  simp [hlead.feed, hname.feed, htail.feed]

/-- **Every layout of some names is read as these names**: induction on the layout. -/
theorem namesIn_of_layout {t : Text} {names : List Text} (h : Layout t names)
    (hnames : ∀ name ∈ names, IsName name) : namesIn (Text.lines t) = names := by
  induction h with
  | @rest pad hpad =>
    rw [Text.lines_of_not_mem hpad.feed]
    split
    · rfl
    · exact namesIn_cons_of_blank hpad.trim_eq []
  | @last lead name tail hlead htail =>
    have hname : IsName name := hnames name (List.mem_singleton_self name)
    rw [Text.lines_of_not_mem (hname.feed_padded hlead htail), if_neg (by simp [hname.ne_nil])]
    exact namesIn_cons_of_name (hname.trim_eq hlead htail) hname.ne_nil []
  | @skip pad ending more names hpad hending _ ih =>
    obtain ⟨first, hlines, hfirst⟩ := lines_of_ending hpad.feed hending more
    rw [hlines, namesIn_cons_of_blank (hfirst.trans hpad.trim_eq), ih hnames]
  | @line lead name tail ending more names hlead htail hending _ ih =>
    have hname : IsName name := hnames name List.mem_cons_self
    obtain ⟨first, hlines, hfirst⟩ :=
      lines_of_ending (hname.feed_padded hlead htail) hending more
    rw [hlines, namesIn_cons_of_name (hfirst.trans (hname.trim_eq hlead htail)) hname.ne_nil,
      ih fun other hother => hnames other (List.mem_cons_of_mem _ hother)]

/-- The bytes of a layout are read as its names. -/
theorem fileList?_of_layout {t : Text} {names : List Text} (h : Layout t names)
    (hnames : ∀ name ∈ names, IsName name) : fileList? (Text.encode t) = some names :=
  fileList?_eq_some_iff.mpr ⟨t, rfl, (namesIn_of_layout h hnames).symm⟩

/-! ## (3) Bytes at once, and names again -/

/-- The names in some lines are what is left of those that are not blank. -/
theorem namesIn_eq (ls : List Text) : namesIn ls = (ls.filter fun line => !blank line).map trim := by
  have hkept : ((fun t : Text => !t.isEmpty) ∘ trim) = fun line => !blank line := by
    funext line
    rw [Function.comp_apply, Bool.not_inj_iff, Bool.eq_iff_iff, List.isEmpty_iff, Text.trim_eq_nil_iff]
  rw [namesIn, List.filter_map, hkept]

/-- The names in a line are followed by those in the others. -/
theorem namesIn_cons (line : Text) (ls : List Text) :
    namesIn (line :: ls) = namesIn [line] ++ namesIn ls := by
  rw [namesIn, namesIn, namesIn, ← List.filter_append, List.map_singleton, List.map_cons,
    List.singleton_append]

/-- **The names in a text** are those in its pieces between line feeds: neither a carriage return before a
line feed nor an empty piece at the end makes a difference. -/
theorem namesIn_lines (t : Text) : namesIn (Text.lines t) = namesIn (Text.pieces '\n' t) := by
  induction t using Text.separatorInduction '\n' with
  | last t hfeed =>
    rw [Text.lines_of_not_mem hfeed, Text.pieces_of_not_mem hfeed]
    split
    · rename_i hempty
      rw [hempty]
      rfl
    · rfl
  | next front rest hfront ih =>
    have hfirst : namesIn [Text.dropLastIf '\r' front] = namesIn [front] := by
      rw [namesIn, namesIn, List.map_singleton, List.map_singleton, trim_dropLastIf]
    rw [Text.lines_append hfront, Text.pieces_append hfront, namesIn_cons, hfirst, ih,
      ← namesIn_cons]

/-- What is left of a piece of a text holds no line feed. -/
theorem feed_trim_of_mem_pieces {t piece : Text} (h : piece ∈ Text.pieces '\n' t) :
    '\n' ∉ trim piece := by
  obtain ⟨lead, tail, hpiece, -⟩ := Text.trims_trim piece
  have hfeed : '\n' ∉ piece := Text.not_mem_of_mem_pieces h
  intro hmem
  rw [hpiece] at hfeed
  exact hfeed (List.mem_append_left _ (List.mem_append_right _ hmem))

/-- What is found in a text are names. -/
theorem isName_of_mem_namesIn {t name : Text} (h : name ∈ namesIn (Text.lines t)) : IsName name := by
  rw [namesIn_lines, namesIn_eq] at h
  obtain ⟨piece, hpiece, rfl⟩ := List.mem_map.mp h
  obtain ⟨hpiece, hblank⟩ := List.mem_filter.mp hpiece
  refine ⟨fun hempty => ?_, feed_trim_of_mem_pieces hpiece, Text.tight_trim piece⟩
  rw [Text.trim_eq_nil_iff.mp hempty] at hblank
  exact absurd hblank (by decide)

/-- Nothing is white space. -/
theorem isPadding_nil : IsPadding [] := ⟨rfl, List.not_mem_nil⟩

/-- A name with a line feed behind it is laid out before others. -/
theorem layout_line (name : Text) {more : Text} {names : List Text} (h : Layout more names) :
    Layout (name ++ '\n' :: more) (name :: names) := by
  have hline : Layout ([] ++ name ++ [] ++ ['\n'] ++ more) (name :: names) :=
    .line isPadding_nil isPadding_nil (.inl rfl) h
  simpa using hline

/-- Names with a line feed behind each of them are laid out. -/
theorem layout_ended (names : List Text) : Layout (names.flatMap (· ++ ['\n'])) names := by
  induction names with
  | nil => exact .rest isPadding_nil
  | cons name names ih => simpa using layout_line name ih

/-- Names with a line feed between them are laid out. -/
theorem layout_joined (names : List Text) : Layout (Text.join ['\n'] names) names := by
  induction names with
  | nil => exact .rest isPadding_nil
  | cons name names ih =>
    cases names with
    | nil =>
      -- nothing follows the last name, and no line feed ends its line
      have hlast : Layout ([] ++ name ++ []) [name] := .last isPadding_nil isPadding_nil
      simpa using hlast
    | cons next names => simpa [Text.join] using layout_line name ih

/-- **Reading names line by line is reading all the bytes at once.** It fails exactly if the bytes are not
those of a text, and finds what is left of every piece of the text between line feeds that is not blank,
in order. What is found are names, and these names are found again in bytes that hold them one to a line,
the last line ended or not. -/
theorem fileList?_at_once (bytes : Text.Bytes) :
    (fileList? bytes = none ↔ ∀ t, bytes ≠ Text.encode t) ∧
    (∀ t, bytes = Text.encode t → fileList? bytes =
      some (((Text.pieces '\n' t).filter fun piece => !blank piece).map trim)) ∧
    ∀ files, fileList? bytes = some files →
      (∀ name ∈ files, name ≠ [] ∧ '\n' ∉ name ∧ Text.Tight name) ∧
      fileList? (Text.encode (files.flatMap (· ++ ['\n']))) = some files ∧
      fileList? (Text.encode (Text.join ['\n'] files)) = some files := by
  refine ⟨fileList?_eq_none_iff, fun t hbytes => ?_, fun files hfiles => ?_⟩
  · rw [← namesIn_eq, ← namesIn_lines]
    exact fileList?_eq_some_iff.mpr ⟨t, hbytes, rfl⟩
  · obtain ⟨t, -, rfl⟩ := fileList?_eq_some_iff.mp hfiles
    have hnames : ∀ name ∈ namesIn (Text.lines t), IsName name :=
      fun name hname => isName_of_mem_namesIn hname
    refine ⟨fun name hname => ?_, ?_, ?_⟩
    · have hname := hnames name hname
      exact ⟨hname.ne_nil, hname.feed, hname.tight⟩
    · exact fileList?_of_layout (layout_ended _) hnames
    · exact fileList?_of_layout (layout_joined _) hnames

/-- Names with white space of several kinds around them, and a blank line. -/
def spacedNames : Text := "\u3000b\r\n \t\na\n\u00e9 ".toList

/-- The names of such a text are found at once, and found again from a list of them. Bytes of which one line
is cut off in the middle of a character are those of no text. -/
theorem fileList?_at_once_spaced :
    fileList? (Text.encode spacedNames) = some ["b".toList, "a".toList, "é".toList] ∧
    fileList? (Text.encode "b\na\né\n".toList) = some ["b".toList, "a".toList, "é".toList] ∧
    fileList? (Text.encode "b\na\né".toList) = some ["b".toList, "a".toList, "é".toList] ∧
    fileList? [0x61, 0xC3, 10, 0xA9] = none ∧ ∀ t, [0x61, 0xC3, 10, 0xA9] ≠ Text.encode t := by
  obtain ⟨-, hpieces, hagain⟩ := fileList?_at_once (Text.encode spacedNames)
  have hfound : fileList? (Text.encode spacedNames) = some ["b".toList, "a".toList, "é".toList] :=
    (hpieces spacedNames rfl).trans (by decide)
  obtain ⟨-, hended, hjoined⟩ := hagain _ hfound
  have hcut : fileList? [0x61, 0xC3, 10, 0xA9] = none := by decide
  exact ⟨hfound, hended, hjoined, hcut, (fileList?_at_once _).1.mp hcut⟩

end ChangeGate.Program
