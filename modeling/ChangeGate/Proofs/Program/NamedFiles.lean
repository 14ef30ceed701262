import ChangeGate.Proofs.CommandLine.Operands
import ChangeGate.Proofs.Program.Match

/-! # Files named and files listed

The files of a match are named on the command line, or listed on standard input. Either way the command
does the same once it has them (**`matchFiles_of_files`**), and a list that is laid out in any way stands
for its names. So a run with names and a run with a list of them cannot be told apart
(**`run_named_listed`**), and neither does it matter whether the pattern text is given or read from a
file. -/

namespace ChangeGate

namespace Program

open CommandLine (Invocation MatchOptions PatternSource Format matchLine)

variable {w : Machine} {o : MatchOptions} {patterns : Text}

/-! ## (1) A match whose files are known -/

/-- A machine after a match of files, with the result: patterns that cannot be compiled are a failure,
and otherwise there is a report on the files. -/
def matched [Glob.Engine] (w : Machine) (format : Format) (o : MatchOptions) (patterns : Text)
    (files : List Text) : Except Failure ExitStatus × Machine :=
  match RuleSet.ofText patterns with
  | .error e => (.error (.pattern e), w)
  | .ok rules =>
    (.ok (statusAfter o (Report.of rules files)),
      { w with
        output := w.output ++ reportText format w.coloring (Report.of rules files)
        errors := w.errors ++ w.shown (rulesEvents rules) })

/-- The pattern text of a source is what is read of it. -/
theorem patternsOf_apply (h : w.HasPatterns o.patterns patterns) :
    (patternsOf o.patterns : Session _) w = (.ok patterns, w) := by
  rcases patternsOf_cases w o.patterns with ⟨patterns', hpatterns, hrun⟩ | ⟨path, e, hsource, hread, -⟩
  · rw [hrun, h.unique hpatterns]
  · exact absurd hread (h.ne_error hsource)

/-- **A match of known files** does the same wherever the pattern text and the files come from. -/
theorem matchFiles_of_files [Glob.Engine] {files : List Text}
    (hpatterns : w.HasPatterns o.patterns patterns)
    (hfiles : ∀ errors, (filesOf o.files : Session _) { w with errors := errors } =
      (.ok files, { w with errors := errors }))
    (format : Format) :
    (matchFiles format o : Session _) w = matched w format o patterns files := by
  rw [matchFiles, Session.bind_apply, patternsOf_apply hpatterns, matched]
  dsimp only
  cases hrules : RuleSet.ofText patterns with
  | error e =>
    rw [Session.bind_apply, compile_error_apply w hrules]
    rfl
  | ok rules =>
    rw [Session.bind_apply, compile_ok_apply w hrules]
    dsimp only
    rw [Session.bind_apply, hfiles]
    rfl

/-- Files that are named are known. -/
theorem matchFiles_named [Glob.Engine] (hpatterns : w.HasPatterns o.patterns patterns) (format : Format)
    (first : Text) (more : List Text) :
    (matchFiles format { o with files := .given first more } : Session _) w =
      matched w format o patterns (first :: more) :=
  matchFiles_of_files (o := { o with files := .given first more }) hpatterns (fun _ => rfl) format

/-- Files that are listed on standard input are known. -/
theorem matchFiles_listed [Glob.Engine] (hpatterns : w.HasPatterns o.patterns patterns) (format : Format)
    (hfiles : o.files = .input) {t : Text} {names : List Text} (hinput : w.input = Text.encode t)
    (hlayout : Layout t names) (hnames : ∀ name ∈ names, IsName name) :
    (matchFiles format o : Session _) w = matched w format o patterns names := by
  refine matchFiles_of_files hpatterns (fun errors => ?_) format
  have hread : (Host.readInput : Session _) { w with errors := errors } =
      (Text.encode t, { w with errors := errors }) := by
    rw [← hinput]
    rfl
  rw [hfiles, filesOf, readFiles, Session.bind_apply, hread]
  dsimp only
  rw [fileList?_of_layout hlayout hnames]
  rfl

/-! ## (2) Runs -/

/-- What is left of a match does not depend on where its patterns and files come from, nor on the
standard input that is left. -/
theorem matched_congr [Glob.Engine] (w : Machine) (format : Format) (o : MatchOptions)
    (source : PatternSource) (input : Text.Bytes) (files : List Text) :
    matched { w with input := input } format { o with patterns := source } patterns files =
      ((matched w format o patterns files).1,
        { (matched w format o patterns files).2 with input := input }) := by
  unfold matched
  cases RuleSet.ofText patterns with
  | error e => rfl
  | ok rules => rfl

/-- The end of a run leaves the standard input as it is. -/
theorem conclusion_input (result : Except Failure ExitStatus) (input : Text.Bytes) :
    (conclusion result : Session _) { w with input := input } =
      (((conclusion result : Session _) w).1,
        { ((conclusion result : Session _) w).2 with input := input }) := by
  cases result <;> rfl

/-- **Names on the command line and a list of them on standard input are the same.** Let a command line
ask for a match of the files on standard input, `--` behind it changing nothing, and let another one ask
for the same match, though it may get the same patterns from elsewhere. Then the first one with `--` and
some names, and the second one with a list of these names on standard input, laid out in any way, end in
the same way and leave the same behind. If the patterns can be compiled, that is the report on these
names, in their order. -/
theorem run_named_listed [Glob.Engine] {front arguments : List Text} {i : Invocation}
    {source : PatternSource} {first t : Text} {more : List Text}
    (hfront : CommandLine.read w.valueOf front = .ok i)
    (hseparator : CommandLine.read w.valueOf (front ++ ["--".toList]) = .ok i)
    (hcommand : i.command = some (.match_ o)) (hinput : o.files = .input)
    (hlisted : CommandLine.read w.valueOf arguments =
      .ok { i with command := some (.match_ { o with patterns := source }) })
    (hpatterns : w.HasPatterns o.patterns patterns) (hsource : w.HasPatterns source patterns)
    (hnames : ∀ name ∈ first :: more, IsName name) (hlayout : Layout t (first :: more)) :
    ∃ status left,
      (run (front ++ "--".toList :: first :: more) : Session ExitStatus) w = (status, left) ∧
      (run arguments : Session ExitStatus) { w with input := Text.encode t } =
        (status, { left with input := Text.encode t }) ∧
      ∀ rules, RuleSet.ofText patterns = .ok rules →
        status = statusAfter o (Report.of rules (first :: more)) ∧
        left.output =
          w.output ++ reportText i.format w.coloring (Report.of rules (first :: more)) := by
  have hnamed := CommandLine.read_operands hfront hseparator hcommand hinput first more
  -- the pattern text does not come from standard input
  have helsewhere : { w with input := Text.encode t }.HasPatterns source patterns := by
    cases source with
    | given patterns' => exact hsource
    | file path => exact hsource
  have hone := matchFiles_named hpatterns i.format first more
  have htwo := matchFiles_listed (o := { o with patterns := source }) helsewhere i.format hinput rfl
    hlayout hnames
  rw [matched_congr w i.format o source] at htwo
  rw [run_match_apply hnamed rfl, run_match_apply (w := { w with input := Text.encode t }) hlisted rfl,
    hone, htwo]
  refine ⟨_, _, rfl, conclusion_input _ _, ?_⟩
  intro rules hrules
  rw [matched, hrules]
  exact ⟨rfl, rfl⟩

/-- A machine with a pattern file. -/
def patternFile : Machine :=
  .start [] ⟨[(["p".toList], .file (Text.encode "- '*.md'".toList) false)]⟩ [] [] (.ofScript [])

/-- Three names, one of them given twice and one like an option. -/
def threeNames : List Text := ["b.md".toList, "-x".toList, "b.md".toList]

/-- A list of these names with a blank line, white space, and line ends of all kinds. -/
def threeLines : Text := "b.md\r\n\n\t-x \nb.md".toList

theorem layout_threeLines : Layout threeLines threeNames := by
  have hnone : IsPadding [] := ⟨rfl, by simp⟩
  have htab : IsPadding ['\t'] := ⟨by decide, by decide⟩
  have hspace : IsPadding [' '] := ⟨by decide, by decide⟩
  have hlast : Layout ([] ++ "b.md".toList ++ []) ["b.md".toList] := .last hnone hnone
  have hline : Layout (['\t'] ++ "-x".toList ++ [' '] ++ ['\n'] ++ ([] ++ "b.md".toList ++ []))
      ["-x".toList, "b.md".toList] := .line htab hspace (.inl rfl) hlast
  have hall : Layout ([] ++ "b.md".toList ++ [] ++ ['\r', '\n'] ++ ([] ++ ['\n'] ++
      (['\t'] ++ "-x".toList ++ [' '] ++ ['\n'] ++ ([] ++ "b.md".toList ++ [])))) threeNames :=
    .line hnone hnone (.inr rfl) (.skip hnone (.inl rfl) hline)
  exact hall

/-- The names behind patterns that are given, and the list of them with patterns from a file, lead to the
same report. -/
theorem run_named_listed_three :
    ∃ status left, (run (matchLine (.given "- '*.md'".toList) ++ "--".toList :: threeNames) :
        Session ExitStatus) patternFile = (status, left) ∧
      (run (matchLine (.file "/p".toList)) : Session ExitStatus)
        { patternFile with input := Text.encode threeLines } =
          (status, { left with input := Text.encode threeLines }) ∧
      status.code = 0 ∧
      left.output = "Changed files (3):\n- b.md\n- -x\n- b.md\n".toList ++
        "Included files (2):\n- b.md\n- b.md\nFiles match filter: true\n".toList := by
  have hreads : ∀ source, source ≠ .file [] → ∀ rest, rest = [] ∨ rest = ["--".toList] →
      CommandLine.read patternFile.valueOf (matchLine source ++ rest) =
        .ok ⟨none, .text, some (.match_ ⟨source, .input, false⟩)⟩ :=
    fun _ hsource _ hrest => CommandLine.read_matchLine rfl hsource hrest
  have hgiven := hreads (.given "- '*.md'".toList) (by simp) [] (.inl rfl)
  have hfiled := hreads (.file "/p".toList) (by simp) [] (.inl rfl)
  rw [List.append_nil] at hgiven hfiled
  have hread : patternFile.HasPatterns (.file "/p".toList) "- '*.md'".toList := by
    show patternFile.tree.readText patternFile.cwd "/p".toList = _
    decide +kernel
  have hnames : ∀ name ∈ threeNames, IsName name := by decide +kernel
  obtain ⟨status, left, hrun, hlisted, hrules⟩ := run_named_listed hgiven
    (hreads _ (by simp) _ (.inr rfl)) rfl rfl hfiled rfl hread hnames layout_threeLines
  obtain ⟨hstatus, houtput⟩ := hrules _ rfl
  refine ⟨status, left, hrun, hlisted, ?_, ?_⟩
  · rw [hstatus]
    rfl
  · rw [houtput]
    decide +kernel

end Program

end ChangeGate
