import ChangeGate.Proofs.CommandLine.Reader
import ChangeGate.Proofs.Program.FileList
import ChangeGate.Proofs.Program.Reporting

/-! # How matching files ends

A machine **matches** the options of an invocation to some rules and candidates when it has a pattern
text that can be compiled and the candidates can be told. If it does not, either the options are
**misused** or the machine is in **trouble**, and no two of the three go together
(`Matches.not_misused`, `Matches.not_troubled`, `Misused.not_troubled`). Each of them is one way in which
the command ends (`matchFiles_cases`), so the exit status says which of them it is
(**`run_match_status_iff`**). -/

namespace ChangeGate

open CommandLine (Invocation MatchOptions PatternSource FileSource Format)

/-! ## (1) What a machine gives -/

namespace Machine

variable (w : Machine)

/-- **The pattern text of a source**: the given one, or the text of a file. -/
def HasPatterns : PatternSource → Text → Prop
  | .given t, patterns => patterns = t
  | .file path, patterns => w.tree.readText w.cwd path = .ok patterns

/-- Whether the working directory belongs to a repository. -/
def inRepository : Bool := Repository.isRepository w.tree w.cwd w.workdir

/-- **The candidates of a source**: the given ones, the names in the text on standard input, or the files
that changed since a revision. -/
def HasCandidates : FileSource → List Text → Prop
  | .given first more, files => files = first :: more
  | .input, files => ∃ t, w.input = Text.encode t ∧ files = Program.namesIn (Text.lines t)
  | .changedSince base, files => Repository.changedFiles w.tree w.cwd w.workdir base = .ok files

/-- **A machine matches options** to rules and candidates: the pattern text and the candidates are there,
and the pattern text can be compiled. -/
def Matches [Glob.Engine] (o : MatchOptions) (rules : RuleSet) (files : List Text) : Prop :=
  ∃ patterns, w.HasPatterns o.patterns patterns ∧ RuleSet.ofText patterns = .ok rules ∧
    w.HasCandidates o.files files

/-- **Options are misused** when there is a pattern text, but it cannot be compiled, or a revision is
given outside of a repository. -/
inductive Misused [Glob.Engine] (o : MatchOptions) : Prop where
  /-- A pattern cannot be compiled. -/
  | pattern {patterns : Text} {e : Glob.TooLarge} :
      w.HasPatterns o.patterns patterns → RuleSet.ofText patterns = .error e → Misused o
  /-- There is no repository. -/
  | outside {patterns base : Text} :
      w.HasPatterns o.patterns patterns → o.files = .changedSince base → w.inRepository = false →
      Misused o

/-- **A machine is in trouble** when the pattern file cannot be read, or, the patterns being compiled, the
changes of the repository cannot be told or standard input is no text. -/
inductive Troubled [Glob.Engine] (o : MatchOptions) : Prop where
  /-- The pattern file cannot be read. -/
  | patterns {path : Text} {e : Files.Cause} :
      o.patterns = .file path → w.tree.readText w.cwd path = .error e → Troubled o
  /-- The changes of the repository cannot be told. -/
  | changes {patterns base : Text} {rules : RuleSet} {e : Repository.ChangesError} :
      w.HasPatterns o.patterns patterns → RuleSet.ofText patterns = .ok rules →
      o.files = .changedSince base → w.inRepository = true →
      Repository.changedFiles w.tree w.cwd w.workdir base = .error e → Troubled o
  /-- Standard input is no text. -/
  | input {patterns : Text} {rules : RuleSet} :
      w.HasPatterns o.patterns patterns → RuleSet.ofText patterns = .ok rules →
      o.files = .input → (∀ t, w.input ≠ Text.encode t) → Troubled o

/-- **What an exit status tells about a match**, by its number. -/
structure Tells [Glob.Engine] (o : MatchOptions) (code : Nat) : Prop where
  /-- It was asked to tell that no candidate is included, and none is. -/
  one : code = 1 ↔ o.exitCode = true ∧
    ∃ rules files, w.Matches o rules files ∧ ∀ file ∈ files, rules.includes file = false
  /-- The options are misused. -/
  two : code = 2 ↔ w.Misused o
  /-- The machine is in trouble. -/
  three : code = 3 ↔ w.Troubled o
  /-- There is a match, and some candidate is included unless that does not matter. -/
  zero : code = 0 ↔ ∃ rules files, w.Matches o rules files ∧
    (o.exitCode = true → ∃ file ∈ files, rules.includes file = true)

variable {w} {o : MatchOptions} {files : List Text}

/-! ## (2) One way to end -/

/-- A source has one pattern text. -/
theorem HasPatterns.unique {source : PatternSource} {s t : Text} (hs : w.HasPatterns source s)
    (ht : w.HasPatterns source t) : s = t := by
  cases source with
  | given patterns => exact hs.trans ht.symm
  | file path => exact Except.ok.inj (Eq.trans (Eq.symm hs) ht)

/-- A pattern text from a file was read. -/
theorem HasPatterns.ne_error {source : PatternSource} {patterns path : Text} {e : Files.Cause}
    (h : w.HasPatterns source patterns) (hsource : source = .file path) :
    w.tree.readText w.cwd path ≠ .error e := by
  subst hsource
  intro hfails
  exact absurd (Eq.trans (Eq.symm h) hfails) (by simp)

/-- A source has one list of candidates. -/
theorem HasCandidates.unique {source : FileSource} {files files' : List Text}
    (h : w.HasCandidates source files) (h' : w.HasCandidates source files') : files = files' := by
  cases source with
  | given first more => exact Eq.trans h (Eq.symm h')
  | input =>
    have hread := Program.fileList?_eq_some_iff.mpr h
    exact Option.some.inj (hread.symm.trans (Program.fileList?_eq_some_iff.mpr h'))
  | changedSince base => exact Except.ok.inj (Eq.trans (Eq.symm h) h')

/-- Options are matched to one list of rules and one of candidates. -/
theorem Matches.unique [Glob.Engine] {rules rules' : RuleSet} {files' : List Text}
    (h : w.Matches o rules files) (h' : w.Matches o rules' files') : rules = rules' ∧ files = files' := by
  obtain ⟨patterns, hpatterns, hrules, hfiles⟩ := h
  obtain ⟨patterns', hpatterns', hrules', hfiles'⟩ := h'
  obtain rfl := hpatterns.unique hpatterns'
  exact ⟨Except.ok.inj (hrules.symm.trans hrules'), hfiles.unique hfiles'⟩

/-- Changes that can be told are those of a repository. -/
theorem inRepository_of_changedFiles {base : Text}
    (h : Repository.changedFiles w.tree w.cwd w.workdir base = .ok files) :
    w.inRepository = true := by
  unfold inRepository Repository.isRepository
  unfold Repository.changedFiles at h
  cases hdiscover : Repository.discover w.tree w.cwd w.workdir with
  | error e =>
    rw [hdiscover] at h
    exact absurd h (by simp)
  | ok l => rfl

/-- Where there is a match, nothing is misused. -/
theorem Matches.not_misused [Glob.Engine] {rules : RuleSet} (h : w.Matches o rules files) :
    ¬ w.Misused o := by
  obtain ⟨patterns, hpatterns, hrules, hfiles⟩ := h
  rintro (⟨hpatterns', hfails⟩ | ⟨-, hbase, houtside⟩)
  · obtain rfl := hpatterns.unique hpatterns'
    exact absurd (hrules.symm.trans hfails) (by simp)
  · rw [hbase] at hfiles
    exact absurd ((inRepository_of_changedFiles hfiles).symm.trans houtside) (by simp)

/-- Where there is a match, there is no trouble. -/
theorem Matches.not_troubled [Glob.Engine] {rules : RuleSet} (h : w.Matches o rules files) :
    ¬ w.Troubled o := by
  obtain ⟨patterns, hpatterns, hrules, hfiles⟩ := h
  rintro (⟨hsource, hfails⟩ | ⟨-, -, hbase, -, hfails⟩ | ⟨-, -, hinput, hfails⟩)
  · exact hpatterns.ne_error hsource hfails
  · rw [hbase] at hfiles
    exact absurd (Eq.trans (Eq.symm hfiles) hfails) (by simp)
  · rw [hinput] at hfiles
    obtain ⟨t, ht, -⟩ := hfiles
    exact hfails t ht

/-- Where something is misused, there is no trouble. -/
theorem Misused.not_troubled [Glob.Engine] (h : w.Misused o) : ¬ w.Troubled o := by
  rintro (⟨hsource, hunread⟩ | ⟨hpatterns, hrules, hbase, hinside, -⟩ | ⟨hpatterns, hrules, hinput, -⟩)
  · -- there would be no pattern text
    rcases h with ⟨hpatterns, -⟩ | ⟨hpatterns, -, -⟩
    · exact hpatterns.ne_error hsource hunread
    · exact hpatterns.ne_error hsource hunread
  · rcases h with ⟨hpatterns', hfails⟩ | ⟨-, -, houtside⟩
    · obtain rfl := hpatterns.unique hpatterns'
      exact absurd (hrules.symm.trans hfails) (by simp)
    · exact absurd (hinside.symm.trans houtside) (by simp)
  · rcases h with ⟨hpatterns', hfails⟩ | ⟨-, hbase, -⟩
    · obtain rfl := hpatterns.unique hpatterns'
      exact absurd (hrules.symm.trans hfails) (by simp)
    · exact absurd (hinput.symm.trans hbase) (by simp)

end Machine

namespace Program

variable (w : Machine)

/-! ## (3) The steps of the command -/

/-- The pattern text is read, or the pattern file cannot be. -/
theorem patternsOf_cases (source : PatternSource) :
    (∃ patterns, w.HasPatterns source patterns ∧
      (patternsOf source : Session _) w = (.ok patterns, w)) ∨
    ∃ path e, source = .file path ∧ w.tree.readText w.cwd path = .error e ∧
      (patternsOf source : Session _) w = (.error (.file path e.message), w) := by
  cases source with
  | given patterns => exact .inl ⟨patterns, rfl, rfl⟩
  | file path =>
    rw [patternsOf, readPatterns, Session.bind_apply, Host.readText_apply]
    dsimp only
    cases hread : w.tree.readText w.cwd path with
    | error e => exact .inr ⟨path, e, rfl, hread, rfl⟩
    | ok patterns => exact .inl ⟨patterns, hread, rfl⟩

/-- The changes since a revision are told, or there is no repository, or its changes cannot be told. -/
theorem changedSince_cases (base : Text) :
    ∃ errors,
      (∃ files, w.HasCandidates (.changedSince base) files ∧
        (changedSince base : Session _) w = (.ok files, { w with errors := errors })) ∨
      (w.inRepository = false ∧ (changedSince base : Session _) w = (.error (.noRepository base), w)) ∨
      ∃ e, w.inRepository = true ∧
        Repository.changedFiles w.tree w.cwd w.workdir base = .error e ∧
        (changedSince base : Session _) w = (.error (.repository e.message), w) := by
  have hinside : (Host.inRepository : Session Bool) w = (w.inRepository, w) := rfl
  have hchanges : (Host.changedSince base : Session _) w =
      (Repository.changedFiles w.tree w.cwd w.workdir base, w) := rfl
  rw [changedSince, Session.bind_apply, hinside]
  dsimp only
  cases hrepository : w.inRepository with
  | false => exact ⟨w.errors, .inr (.inl ⟨rfl, rfl⟩)⟩
  | true =>
    rw [if_pos rfl, Session.bind_apply, hchanges]
    dsimp only
    cases hfiles : Repository.changedFiles w.tree w.cwd w.workdir base with
    | error e => exact ⟨w.errors, .inr (.inr ⟨e, rfl, rfl, rfl⟩)⟩
    | ok files =>
      obtain ⟨errors, hlog⟩ := Host.log_apply w (changesEvent base files)
      refine ⟨errors, .inl ⟨files, hfiles, ?_⟩⟩
      simp only [Session.bind_apply, hlog, Session.pure_apply]

/-- The names on standard input are read, or it is no text. -/
theorem readFiles_cases :
    (∃ files, w.HasCandidates .input files ∧ (readFiles : Session _) w = (.ok files, w)) ∨
    (∀ t, w.input ≠ Text.encode t) ∧
      (readFiles : Session _) w = (.error (.input Files.Cause.notText.message), w) := by
  have hinput : (Host.readInput : Session _) w = (w.input, w) := rfl
  rw [readFiles, Session.bind_apply, hinput]
  dsimp only
  cases hfiles : fileList? w.input with
  | none => exact .inr ⟨fileList?_eq_none_iff.mp hfiles, rfl⟩
  | some files => exact .inl ⟨files, fileList?_eq_some_iff.mp hfiles, rfl⟩

/-- **Once the patterns are compiled, the candidates are found**, or what is wrong is either misuse or
trouble. -/
theorem filesOf_cases [Glob.Engine] {o : MatchOptions} {patterns : Text} {rules : RuleSet}
    (hpatterns : w.HasPatterns o.patterns patterns) (hrules : RuleSet.ofText patterns = .ok rules)
    (first : Text) :
    ∃ errors,
      (∃ files, w.Matches o rules files ∧
        (filesOf o.files : Session _) { w with errors := first } =
          (.ok files, { w with errors := errors })) ∨
      ∃ f, (filesOf o.files : Session _) { w with errors := first } =
          (.error f, { w with errors := errors }) ∧
        (w.Misused o ∧ f.status = .misuse ∨ w.Troubled o ∧ f.status = .trouble) := by
  cases hsource : o.files with
  | given name more =>
    exact ⟨first, .inl ⟨name :: more, ⟨patterns, hpatterns, hrules, by rw [hsource]; rfl⟩, rfl⟩⟩
  | input =>
    rcases readFiles_cases { w with errors := first } with ⟨files, hfiles, hrun⟩ | ⟨hnone, hrun⟩
    · exact ⟨first, .inl ⟨files, ⟨patterns, hpatterns, hrules, by rw [hsource]; exact hfiles⟩, hrun⟩⟩
    · exact ⟨first, .inr ⟨_, hrun, .inr ⟨.input hpatterns hrules hsource hnone, rfl⟩⟩⟩
  | changedSince base =>
    obtain ⟨errors, ⟨files, hfiles, hrun⟩ | ⟨houtside, hrun⟩ | ⟨e, hinside, hfails, hrun⟩⟩ :=
      changedSince_cases { w with errors := first } base
    · exact ⟨errors, .inl ⟨files, ⟨patterns, hpatterns, hrules, by rw [hsource]; exact hfiles⟩, hrun⟩⟩
    · exact ⟨first, .inr ⟨_, hrun, .inl ⟨.outside hpatterns hsource houtside, rfl⟩⟩⟩
    · exact ⟨first, .inr
        ⟨_, hrun, .inr ⟨.changes hpatterns hrules hsource hinside hfails, rfl⟩⟩⟩

/-- **Matching files** ends with a report where the machine matches the options, and with a failure
where they are misused or the machine is in trouble. -/
theorem matchFiles_cases [Glob.Engine] (format : Format) (o : MatchOptions) :
    ∃ errors,
      (∃ rules files, w.Matches o rules files ∧
        (matchFiles format o : Session _) w = (.ok (statusAfter o (Report.of rules files)),
          { w with
            output := w.output ++ reportText format w.coloring (Report.of rules files)
            errors := errors })) ∨
      ∃ f, (matchFiles format o : Session _) w = (.error f, { w with errors := errors }) ∧
        (w.Misused o ∧ f.status = .misuse ∨ w.Troubled o ∧ f.status = .trouble) := by
  rw [matchFiles, Session.bind_apply]
  -- first the pattern text, then its patterns, then the files: what fails first decides
  rcases patternsOf_cases w o.patterns with ⟨patterns, hpatterns, hrun⟩ | ⟨path, e, hsource, hread, hrun⟩
  · rw [hrun]
    dsimp only
    obtain ⟨first, hcompile⟩ := compile_apply w patterns
    rw [Session.bind_apply, hcompile]
    cases hrules : RuleSet.ofText patterns with
    | error e => exact ⟨first, .inr ⟨_, rfl, .inl ⟨.pattern hpatterns hrules, rfl⟩⟩⟩
    | ok rules =>
      have hcompiled : (Except.ok rules).mapError Failure.pattern = .ok rules := rfl
      rw [hcompiled]
      dsimp only
      obtain ⟨errors, ⟨files, hmatches, hfiles⟩ | ⟨f, hfiles, hf⟩⟩ :=
        filesOf_cases w hpatterns hrules first
      · refine ⟨errors, .inl ⟨rules, files, hmatches, ?_⟩⟩
        rw [Session.bind_apply, hfiles]
        rfl
      · refine ⟨errors, .inr ⟨f, ?_, hf⟩⟩
        rw [Session.bind_apply, hfiles]
        rfl
  · rw [hrun]
    exact ⟨w.errors, .inr ⟨_, rfl, .inr ⟨.patterns hsource hread, rfl⟩⟩⟩

/-- The format of the report does not matter to how matching files ends. -/
theorem matchFiles_format [Glob.Engine] (format format' : Format) (o : MatchOptions) :
    ((matchFiles format o : Session _) w).1 = ((matchFiles format' o : Session _) w).1 := by
  simp only [matchFiles, Session.bind_apply]
  generalize (patternsOf o.patterns : Session _) w = read
  obtain ⟨f | patterns, v⟩ := read
  · rfl
  simp only [Session.bind_apply]
  generalize (compile patterns : Session _) v = compiled
  obtain ⟨f | rules, v⟩ := compiled
  · rfl
  simp only [Session.bind_apply]
  generalize (filesOf o.files : Session _) v = found
  obtain ⟨f | files, v⟩ := found
  · rfl
  · rfl

/-! ## (4) Runs -/

/-- A report says that something changed exactly if some candidate is included. -/
theorem changed_iff [Glob.Engine] {rules : RuleSet} {files : List Text} :
    (Report.of rules files).changed = true ↔ ∃ file ∈ files, rules.includes file = true :=
  List.any_eq_true

/-- The status after a report is 1 if it is asked to tell that no candidate is included. -/
theorem code_statusAfter_eq_one [Glob.Engine] {o : MatchOptions} {rules : RuleSet} {files : List Text} :
    (statusAfter o (Report.of rules files)).code = 1 ↔
      o.exitCode = true ∧ ∀ file ∈ files, rules.includes file = false := by
  have hnone : (Report.of rules files).changed = false ↔
      ∀ file ∈ files, rules.includes file = false := by
    rw [← Bool.not_eq_true, changed_iff]
    simp
  rw [← hnone, statusAfter]
  cases o.exitCode <;> cases (Report.of rules files).changed <;> decide

/-- Otherwise it is 0. -/
theorem code_statusAfter_eq_zero [Glob.Engine] {o : MatchOptions} {rules : RuleSet} {files : List Text} :
    (statusAfter o (Report.of rules files)).code = 0 ↔
      (o.exitCode = true → ∃ file ∈ files, rules.includes file = true) := by
  rw [← changed_iff, statusAfter]
  cases o.exitCode <;> cases (Report.of rules files).changed <;> decide

/-- A status after a report is none of those after a failure. -/
theorem code_statusAfter_ne {o : MatchOptions} {r : Report} {code : Nat} (h : 1 < code) :
    (statusAfter o r).code ≠ code := by
  unfold statusAfter
  split
  · exact Nat.ne_of_lt h
  · exact Nat.ne_of_lt (by omega : 0 < code)

variable {w}

/-- The status after a report tells that there is a match. -/
theorem tells_of_matches [Glob.Engine] {o : MatchOptions} {rules : RuleSet} {files : List Text}
    (h : w.Matches o rules files) : w.Tells o (statusAfter o (Report.of rules files)).code where
  one := by
    rw [code_statusAfter_eq_one]
    constructor
    · rintro ⟨hasked, hnone⟩
      exact ⟨hasked, rules, files, h, hnone⟩
    · rintro ⟨hasked, rules', files', h', hnone⟩
      obtain ⟨rfl, rfl⟩ := h.unique h'
      exact ⟨hasked, hnone⟩
  two := iff_of_false (code_statusAfter_ne (by omega)) h.not_misused
  three := iff_of_false (code_statusAfter_ne (by omega)) h.not_troubled
  zero := by
    rw [code_statusAfter_eq_zero]
    constructor
    · intro hsome
      exact ⟨rules, files, h, hsome⟩
    · rintro ⟨rules', files', h', hsome⟩
      obtain ⟨rfl, rfl⟩ := h.unique h'
      exact hsome

/-- The status after misuse tells of it. -/
theorem tells_of_misused [Glob.Engine] {o : MatchOptions} (h : w.Misused o) :
    w.Tells o ExitStatus.misuse.code where
  one := iff_of_false (by decide) fun ⟨_, _, _, hmatches, _⟩ => hmatches.not_misused h
  two := iff_of_true rfl h
  three := iff_of_false (by decide) h.not_troubled
  zero := iff_of_false (by decide) fun ⟨_, _, hmatches, _⟩ => hmatches.not_misused h

/-- The status after trouble tells of it. -/
theorem tells_of_troubled [Glob.Engine] {o : MatchOptions} (h : w.Troubled o) :
    w.Tells o ExitStatus.trouble.code where
  one := iff_of_false (by decide) fun ⟨_, _, _, hmatches, _⟩ => hmatches.not_troubled h
  two := iff_of_false (by decide) fun hmisused => hmisused.not_troubled h
  three := iff_of_true rfl h
  zero := iff_of_false (by decide) fun ⟨_, _, hmatches, _⟩ => hmatches.not_troubled h

/-- The end of a run is the status of what its command leads to, wherever it is carried out. -/
theorem conclusion_status (result : Except Failure ExitStatus) (w v : Machine) :
    ((conclusion result : Session _) w).1 = ((conclusion result : Session _) v).1 := by
  cases result <;> rfl

/-- **The exit status of a match.** It is 1 when it is asked to tell that no candidate is included, 2 when
the options are misused, 3 when the machine is in trouble, and 0 otherwise. A report is printed where the
machine matches the options, which is so exactly if the status is 0 or 1; it says that something changed
exactly if some candidate is included. The format of the report does not matter to the status. -/
theorem run_match_status_iff [Glob.Engine] {arguments : List Text} {i : Invocation} {o : MatchOptions}
    (hread : CommandLine.read w.valueOf arguments = .ok i) (hcommand : i.command = some (.match_ o)) :
    ∃ status left, (run arguments : Session ExitStatus) w = (status, left) ∧ w.Tells o status.code ∧
      (status.code = 0 ∨ status.code = 1 → ∃ rules files, w.Matches o rules files ∧
        left.output = w.output ++ reportText i.format w.coloring (Report.of rules files) ∧
        ((Report.of rules files).changed = true ↔ ∃ file ∈ files, rules.includes file = true)) ∧
      (status.code = 2 ∨ status.code = 3 → left.output = w.output) ∧
      ∀ format other, CommandLine.read w.valueOf other = .ok { i with format := format } →
        ((run other : Session ExitStatus) w).1 = status := by
  have hformat : ∀ format other, CommandLine.read w.valueOf other = .ok { i with format := format } →
      ((run other : Session ExitStatus) w).1 = ((run arguments : Session ExitStatus) w).1 := by
    intro format other hother
    rw [run_match_apply hother hcommand, run_match_apply hread hcommand,
      matchFiles_format w format i.format]
    exact conclusion_status _ _ _
  rw [run_match_apply hread hcommand] at hformat ⊢
  -- a match ends with a report, and everything else with a status above that of any report
  obtain ⟨errors, ⟨rules, files, hmatches, hrun⟩ | ⟨f, hrun, hf⟩⟩ := matchFiles_cases w i.format o
  · rw [hrun] at hformat ⊢
    refine ⟨statusAfter o (Report.of rules files), _, rfl, tells_of_matches hmatches,
      fun _ => ⟨rules, files, hmatches, rfl, changed_iff⟩, ?_, hformat⟩
    rintro (htwo | hthree)
    · exact absurd htwo (code_statusAfter_ne (by omega))
    · exact absurd hthree (code_statusAfter_ne (by omega))
  · rw [hrun] at hformat ⊢
    have htells : w.Tells o f.status.code := by
      rcases hf with ⟨hmisused, hstatus⟩ | ⟨htroubled, hstatus⟩
      · exact hstatus ▸ tells_of_misused hmisused
      · exact hstatus ▸ tells_of_troubled htroubled
    have hcode : 1 < f.status.code := by
      rcases hf with ⟨-, hstatus⟩ | ⟨-, hstatus⟩
      · rw [hstatus]
        decide
      · rw [hstatus]
        decide
    exact ⟨f.status, _, rfl, htells, fun _ => by omega, fun _ => rfl, hformat⟩

/-- A machine with one name on standard input. -/
def listedDocument : Machine := .start [] ⟨[]⟩ [] (Text.encode "b.md\r\n".toList) (.ofScript [])

/-- The arguments that ask whether that name matches, in the usual format. -/
def documentArguments : List Text :=
  ["match".toList, "--exit-code".toList, "--patterns".toList, "- '*.txt'".toList]

/-- The options that these arguments stand for. -/
def documentMatch : MatchOptions := ⟨.given "- '*.txt'".toList, .input, true⟩

/-- The name is not included, so the status is 1 in either format. -/
theorem run_match_status_iff_document :
    CommandLine.read listedDocument.valueOf documentArguments =
      .ok ⟨none, .text, some (.match_ documentMatch)⟩ ∧
    ∃ status left, (run documentArguments : Session ExitStatus) listedDocument = (status, left) ∧
      status.code = 1 ∧
      left.output =
        "Changed files (1):\n- b.md\nIncluded files (0):\nFiles match filter: false\n".toList ∧
      ((run (documentArguments ++ ["--output=json".toList]) : Session ExitStatus)
        listedDocument).1.code = 1 := by
  have hread : CommandLine.read listedDocument.valueOf documentArguments =
      .ok ⟨none, .text, some (.match_ documentMatch)⟩ := rfl
  have hjson : CommandLine.read listedDocument.valueOf
      (documentArguments ++ ["--output=json".toList]) =
        .ok ⟨none, .json, some (.match_ documentMatch)⟩ := rfl
  obtain ⟨status, left, hrun, htells, -, -, hformat⟩ := run_match_status_iff hread rfl
  have hmatches : ∃ rules files, listedDocument.Matches documentMatch rules files ∧
      ∀ file ∈ files, rules.includes file = false :=
    ⟨_, ["b.md".toList], ⟨_, rfl, rfl, "b.md\r\n".toList, rfl, by decide⟩, by decide⟩
  have hstatus : status.code = 1 := htells.one.mpr ⟨rfl, hmatches⟩
  have houtput : ((run documentArguments : Session ExitStatus) listedDocument).2.output =
      "Changed files (1):\n- b.md\nIncluded files (0):\nFiles match filter: false\n".toList := by
    decide +kernel
  rw [hrun] at houtput
  refine ⟨hread, status, left, hrun, hstatus, houtput, ?_⟩
  rw [hformat .json _ hjson]
  exact hstatus

end Program

end ChangeGate
