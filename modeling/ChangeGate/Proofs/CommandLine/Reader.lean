import ChangeGate.CommandLine.Help
import ChangeGate.CommandLine.Reader
import ChangeGate.Program.Run
import ChangeGate.Proofs.Host.Session
import ChangeGate.Proofs.Basic

/-! # What a command line is read with

Reading a command line looks at no other variables than those that stand in for options
(**`read_congr`**), and where an option is given, it does not even look at the variable that stands in for
it (**`read_of_gives`**). A run looks these variables up first, so what it reads is what the whole
environment of its machine gives (**`run_apply`**). -/

namespace ChangeGate

namespace CommandLine

/-! ## (1) The variables that count -/

/-- The options that variables stand in for. -/
def standInPairs : List (Flag × Text) :=
  [.config, .patterns, .outputFile, .address].zip Flag.standIns

/-- A variable that stands in for an option of a level is in that list with the option. -/
theorem mem_standInPairs {f : Flag} {l : Level} {name : Text} (h : f.standIn? l = some name) :
    (f, name) ∈ standInPairs := by
  unfold Flag.standIn? at h
  split at h
  · rw [← Option.some.inj h]
    decide
  · rw [← Option.some.inj h]
    decide
  · rw [← Option.some.inj h]
    decide
  · rw [← Option.some.inj h]
    decide
  · exact absurd h (by simp)

/-- So is the variable in the list of all variables that do. -/
theorem mem_standIns {f : Flag} {l : Level} {name : Text} (h : f.standIn? l = some name) :
    name ∈ Flag.standIns :=
  (List.of_mem_zip (mem_standInPairs h)).2

/-- A variable stands in for one option. -/
theorem eq_of_standIn? {f g : Flag} {l l' : Level} {name : Text} (h : f.standIn? l = some name)
    (h' : g.standIn? l' = some name) : f = g := by
  have hone : ∀ a ∈ standInPairs, ∀ b ∈ standInPairs, a.2 = b.2 → a.1 = b.1 := by decide
  exact hone _ (mem_standInPairs h) _ (mem_standInPairs h') rfl

variable {lookup lookup' : Text → Option Text}

/-- The value of an option depends on the variable that stands in for it. -/
theorem valueOf_eq {l : Level} {s : Scan} {f : Flag}
    (h : ∀ name, f.standIn? l = some name → lookup name = lookup' name) :
    valueOf lookup l s f = valueOf lookup' l s f := by
  unfold valueOf
  cases hstand : f.standIn? l with
  | none => rfl
  | some name => rw [Option.bind_some, Option.bind_some, h name hstand]

/-- The value of an option depends on the variables that stand in for options. -/
theorem valueOf_congr (h : ∀ name ∈ Flag.standIns, lookup name = lookup' name) (l : Level) (s : Scan)
    (f : Flag) : valueOf lookup l s f = valueOf lookup' l s f :=
  valueOf_eq fun name hstand => h name (mem_standIns hstand)

theorem finish_congr (h : ∀ name ∈ Flag.standIns, lookup name = lookup' name) (l : Level) (s : Scan) :
    finish lookup l s = finish lookup' l s := by
  unfold finish acceptsVariables
  cases s.resolve with
  | error e => rfl
  | ok r => simp only [valueOf_congr h]

theorem commandOf_congr (h : ∀ name ∈ Flag.standIns, lookup name = lookup' name) (l : Level)
    (s : Scan) : commandOf lookup l s = commandOf lookup' l s := by
  cases l with
  | top => rfl
  | detect => simp only [commandOf, valueOf_congr h]
  | match_ => rfl

/-- **Reading a command line depends only on the variables that stand in for options.** -/
theorem read_congr (h : ∀ name ∈ Flag.standIns, lookup name = lookup' name) (arguments : List Text) :
    read lookup arguments = read lookup' arguments := by
  simp only [read, finish_congr h, commandOf_congr h, valueOf_congr h]

/-- The value of an option in a help text depends on the variables that stand in for options, an empty
one being shown like none. -/
theorem text_congr (h : ∀ name ∈ Flag.standIns, (lookup name).getD [] = (lookup' name).getD [])
    (topic : Topic) : topic.text lookup = topic.text lookup' := by
  have hdescribed : ∀ column line source, source.toList ∈ Flag.standIns →
      described lookup column line source = described lookup' column line source := by
    intro column line source hsource
    rw [described, described, h _ hsource]
  rcases topic with l | -
  · cases l with
    | top => simp only [Topic.text, topHelp, hdescribed _ _ "PATHGATE_CONFIG" (by decide)]
    | detect =>
      simp only [Topic.text, detectHelp, hdescribed _ _ "PATHGATE_CONFIG" (by decide),
        hdescribed _ _ "INPUT_FILE-PATTERNS" (by decide), hdescribed _ _ "GITHUB_OUTPUT" (by decide),
        hdescribed _ _ "GITHUB_API_URL" (by decide)]
    | match_ => simp only [Topic.text, matchHelp, hdescribed _ _ "PATHGATE_CONFIG" (by decide)]
  · rfl

/-! ## (2) Commands -/

/-- **What is read of a command line with a command**: what stands before the command and what follows it
are read apart, and the values that are given behind the command count first. -/
theorem read_command {arguments : List Text} {i : Invocation} {command : Command}
    (hread : read lookup arguments = .ok i) (hcommand : i.command = some command) :
    ∃ l top rest below inner outer, scan .top .empty arguments = .ok (top, some (l, rest)) ∧
      (∃ r, scan l .empty rest = .ok (below, r)) ∧ finish lookup l below = .ok inner ∧
      commandOf lookup l inner = .ok (some command) ∧ finish lookup .top top = .ok outer ∧
      i.config = (inner.value? .config).or (valueOf lookup .top outer .config) ∧
      i.format = formatOf ((inner.value? .output).or (outer.value? .output)) := by
  unfold read at hread
  split at hread
  · exact absurd hread (by simp)
  · -- there is no command
    rename_i top hscan
    cases hfinish : finish lookup .top top with
    | error e =>
      rw [hfinish] at hread
      exact absurd hread (by simp [Except.map])
    | ok outer =>
      rw [hfinish] at hread
      obtain rfl := Except.ok.inj hread
      exact absurd hcommand (by simp)
  · -- there is a command, so every step on the way has gone well
    rename_i top l rest hscan
    split at hread
    · exact absurd hread (by simp)
    rename_i below r hbelow
    split at hread
    · exact absurd hread (by simp)
    rename_i inner hinner
    split at hread
    · exact absurd hread (by simp)
    rename_i found hoptions
    cases hfinish : finish lookup .top top with
    | error e =>
      rw [hfinish] at hread
      exact absurd hread (by simp [Except.map])
    | ok outer =>
      rw [hfinish] at hread
      obtain rfl := Except.ok.inj hread
      obtain rfl : found = some command := hcommand
      exact ⟨l, top, rest, below, inner, outer, hscan, ⟨r, hbelow⟩, hinner, hoptions, hfinish, rfl, rfl⟩

/-- Only one level takes the options of the check. -/
theorem eq_detect_of_commandOf {l : Level} {s : Scan} {o : DetectOptions}
    (h : commandOf lookup l s = .ok (some (.detect o))) : l = .detect := by
  cases l with
  | top => exact absurd (Except.ok.inj h) (by simp)
  | detect => rfl
  | match_ =>
    simp only [commandOf] at h
    split at h <;> simp at h

/-- Only one level takes the options of a match. -/
theorem eq_match_of_commandOf {l : Level} {s : Scan} {o : MatchOptions}
    (h : commandOf lookup l s = .ok (some (.match_ o))) : l = .match_ := by
  cases l with
  | top => exact absurd (Except.ok.inj h) (by simp)
  | detect => exact absurd (Option.some.inj (Except.ok.inj h)) (by simp)
  | match_ => rfl

/-- What is read of a command line that asks for the check. -/
theorem read_detect {arguments : List Text} {i : Invocation} {o : DetectOptions}
    (hread : read lookup arguments = .ok i) (hcommand : i.command = some (.detect o)) :
    ∃ top rest below inner outer, scan .top .empty arguments = .ok (top, some (.detect, rest)) ∧
      (∃ r, scan .detect .empty rest = .ok (below, r)) ∧ finish lookup .detect below = .ok inner ∧
      commandOf lookup .detect inner = .ok (some (.detect o)) ∧ finish lookup .top top = .ok outer ∧
      i.config = (inner.value? .config).or (valueOf lookup .top outer .config) ∧
      i.format = formatOf ((inner.value? .output).or (outer.value? .output)) := by
  obtain ⟨l, top, rest, below, inner, outer, hscan, hbelow, hinner, hoptions, hread⟩ :=
    read_command hread hcommand
  obtain rfl := eq_detect_of_commandOf hoptions
  exact ⟨top, rest, below, inner, outer, hscan, hbelow, hinner, hoptions, hread⟩

/-- What is read of a command line that asks for a match. -/
theorem read_match {arguments : List Text} {i : Invocation} {o : MatchOptions}
    (hread : read lookup arguments = .ok i) (hcommand : i.command = some (.match_ o)) :
    ∃ top rest below inner outer, scan .top .empty arguments = .ok (top, some (.match_, rest)) ∧
      (∃ r, scan .match_ .empty rest = .ok (below, r)) ∧ finish lookup .match_ below = .ok inner ∧
      commandOf lookup .match_ inner = .ok (some (.match_ o)) ∧ finish lookup .top top = .ok outer ∧
      i.config = (inner.value? .config).or (valueOf lookup .top outer .config) ∧
      i.format = formatOf ((inner.value? .output).or (outer.value? .output)) := by
  obtain ⟨l, top, rest, below, inner, outer, hscan, hbelow, hinner, hoptions, hread⟩ :=
    read_command hread hcommand
  obtain rfl := eq_match_of_commandOf hoptions
  exact ⟨top, rest, below, inner, outer, hscan, hbelow, hinner, hoptions, hread⟩

/-- The arguments of a command are read one after the other. -/
theorem scan_cons {l : Level} (hl : l ≠ .top) (s : Scan) (t : Text) (rest : List Text) :
    scan l s (t :: rest) =
      match s.argument l t with
      | .error e => .error e
      | .ok r => scan l r rest := by
  cases hargument : s.argument l t with
  | error e => simp only [scan, hl, false_and, if_false, hargument]
  | ok r => simp only [scan, hl, false_and, if_false, hargument]

/-- What follows the command does not matter to what is read before it: induction on what stands before
the command. -/
theorem scan_top_command {s top : Scan} {arguments rest : List Text} {l : Level}
    (h : scan .top s arguments = .ok (top, some (l, rest))) :
    ∃ front command, arguments = front ++ command :: rest ∧
      ∀ rest', scan .top s (front ++ command :: rest') = .ok (top, some (l, rest')) := by
  induction arguments generalizing s with
  | nil => exact absurd (Prod.mk.inj (Except.ok.inj h)).2 (by simp)
  | cons t arguments ih =>
    rw [scan] at h
    split at h
    · exact absurd h (by simp)
    rename_i hhelp
    split at h
    · rename_i below hcommand
      obtain ⟨rfl, hbelow⟩ := Prod.mk.inj (Except.ok.inj h)
      obtain ⟨rfl, rfl⟩ := Prod.mk.inj (Option.some.inj hbelow)
      refine ⟨[], t, rfl, ?_⟩
      intro rest'
      rw [List.nil_append, scan, if_neg hhelp, hcommand]
    · -- the command comes later
      rename_i hcommand
      split at h
      · exact absurd h (by simp)
      rename_i r hargument
      obtain ⟨front, command, rfl, hfront⟩ := ih h
      refine ⟨t :: front, command, rfl, ?_⟩
      intro rest'
      rw [List.cons_append, scan, if_neg hhelp, hcommand, hargument]
      exact hfront rest'

/-- Settling the last option is all that finishing a level changes. -/
theorem resolve_of_finish {l : Level} {s r : Scan} (h : finish lookup l s = .ok r) :
    s.resolve = .ok r := by
  unfold finish at h
  cases hresolve : s.resolve with
  | error e =>
    rw [hresolve] at h
    exact absurd h (by simp)
  | ok settled =>
    rw [hresolve] at h
    dsimp only at h
    split at h
    · rw [Except.ok.inj h]
    · exact absurd h (by simp)

/-! ## (3) Options that are given -/

/-- **A command line gives an option** behind the command that asks for the check. -/
def Gives (arguments : List Text) (f : Flag) : Prop :=
  ∃ top rest below r inner, scan .top .empty arguments = .ok (top, some (.detect, rest)) ∧
    scan .detect .empty rest = .ok (below, r) ∧ below.resolve = .ok inner ∧
    (inner.value? f).isSome = true

example : Gives ["detect".toList, "--github-output=out".toList] .outputFile :=
  ⟨_, _, _, _, _, rfl, rfl, rfl, rfl⟩

/-- **Where an option is given, the variable that stands in for it does not matter.** -/
theorem read_of_gives {arguments : List Text} {f : Flag} {name : Text}
    (hstand : f.standIn? .detect = some name) (htop : f.standIn? .top = none)
    (hgives : Gives arguments f) (hsame : ∀ other, other ≠ name → lookup' other = lookup other) :
    read lookup' arguments = read lookup arguments := by
  obtain ⟨top, rest, below, r, inner, hscan, hbelow, hinner, hgiven⟩ := hgives
  have hother : ∀ l g s, g ≠ f ∨ l = .top → valueOf lookup' l s g = valueOf lookup l s g := by
    intro l g s hg
    refine valueOf_eq fun other hstand' => hsame other ?_
    rintro rfl
    rcases hg with hg | rfl
    · exact hg (eq_of_standIn? hstand' hstand)
    · obtain rfl := eq_of_standIn? hstand' hstand
      rw [htop] at hstand'
      exact absurd hstand' (by simp)
  have htopAccepts : ∀ s, acceptsVariables lookup' .top s = acceptsVariables lookup .top s := by
    intro s
    simp only [acceptsVariables, hother .top _ _ (.inr rfl)]
  -- behind the command, the value that is given comes first
  have hvalue : ∀ g, valueOf lookup' .detect inner g = valueOf lookup .detect inner g := by
    intro g
    by_cases hg : g = f
    · subst hg
      obtain ⟨v, hv⟩ := Option.isSome_iff_exists.mp hgiven
      rw [valueOf, valueOf, hv, Option.some_or, Option.some_or]
    · exact hother .detect g inner (.inl hg)
  have haccepts : acceptsVariables lookup' .detect inner = acceptsVariables lookup .detect inner := by
    simp only [acceptsVariables, hvalue]
  have hfinish : finish lookup' .detect below = finish lookup .detect below := by
    simp only [finish, hinner, haccepts]
  have hresolved : ∀ s, finish lookup .detect below = .ok s → s = inner := by
    intro s hs
    exact Except.ok.inj ((resolve_of_finish hs).symm.trans hinner)
  have htopFinish : finish lookup' .top top = finish lookup .top top := by
    simp only [finish, htopAccepts]
  simp only [read, hscan, hbelow, htopFinish, hfinish]
  cases hs : finish lookup .detect below with
  | error e => rfl
  | ok s =>
    obtain rfl := hresolved s hs
    simp only [commandOf, hvalue, hother .top _ _ (.inr rfl)]

/-! ## (4) Empty variables -/

variable {arguments : List Text} {i : Invocation} {o : DetectOptions}

/-- **An empty variable for the output file is refused**, where a command line that asks for the check
gives no output file itself: no path is empty. -/
theorem read_of_empty_outputFile (hread : read lookup arguments = .ok i)
    (hcommand : i.command = some (.detect o)) (hnone : o.outputFile = none)
    (hempty : lookup' "GITHUB_OUTPUT".toList = some []) :
    read lookup' arguments = .error (.refused .invalidValue) := by
  obtain ⟨top, rest, below, inner, outer, hscan, ⟨r, hbelow⟩, hinner, hoptions, -⟩ :=
    read_detect hread hcommand
  obtain rfl := Command.detect.inj (Option.some.inj (Except.ok.inj hoptions))
  have hvalue : valueOf lookup' .detect inner .outputFile = some [] := by
    rw [valueOf, (Option.or_eq_none_iff.mp hnone).1, Option.none_or]
    exact hempty
  have hrefused : acceptsVariables lookup' .detect inner = false := by
    rw [acceptsVariables, List.all_eq_false]
    exact ⟨.outputFile, by decide, by rw [hvalue]; decide⟩
  have hfinish : finish lookup' .detect below = .error (.refused .invalidValue) := by
    rw [finish, resolve_of_finish hinner]
    dsimp only
    rw [hrefused]
    rfl
  simp only [read, hscan, hbelow, hfinish]

/-- **An empty variable for the address counts as an address**, where a command line that asks for the
check gives none itself. -/
theorem read_of_empty_address (hread : read lookup arguments = .ok i)
    (hcommand : i.command = some (.detect o)) (hnone : o.address = none)
    (hempty : lookup' "GITHUB_API_URL".toList = some [])
    (hsame : ∀ name, name ≠ "GITHUB_API_URL".toList → lookup' name = lookup name) :
    read lookup' arguments =
      .ok { i with command := some (.detect { o with address := some [] }) } := by
  obtain ⟨top, rest, below, inner, outer, hscan, ⟨r, hbelow⟩, hinner, hoptions, houter, hconfig,
    hformat⟩ := read_detect hread hcommand
  obtain rfl := Command.detect.inj (Option.some.inj (Except.ok.inj hoptions))
  -- the variable stands in for the address only, and an address may be any text
  have hother : ∀ l (f : Flag) name, f ≠ .address → f.standIn? l = some name →
      name ≠ "GITHUB_API_URL".toList := by
    rintro l f _ hf hstand rfl
    exact hf (eq_of_standIn? hstand (show Flag.address.standIn? .detect = _ from rfl))
  have hvalue : ∀ l s f, f ≠ .address → valueOf lookup' l s f = valueOf lookup l s f :=
    fun l s f hf => valueOf_eq fun name hstand => hsame name (hother l f name hf hstand)
  have haccepts : ∀ l s, acceptsVariables lookup' l s = acceptsVariables lookup l s := by
    intro l s
    rw [acceptsVariables, acceptsVariables]
    congr 1
    funext f
    by_cases hf : f = .address
    · have hany : Flag.address.accepts = fun _ => true := rfl
      rw [hf, hany]
      simp
    · rw [hvalue l s f hf]
  have hfinish : ∀ l s, finish lookup' l s = finish lookup l s := by
    intro l s
    simp only [finish, haccepts]
  have haddress : valueOf lookup' .detect inner .address = some [] := by
    rw [valueOf, (Option.or_eq_none_iff.mp hnone).1, Option.none_or]
    exact hempty
  have hcommandOf : commandOf lookup' .detect inner = .ok (some (.detect
      ⟨valueOf lookup .detect inner .patterns, valueOf lookup .detect inner .outputFile,
        inner.value? .outputKey, some [], (inner.value? .strict).isSome⟩)) := by
    rw [commandOf, hvalue _ _ _ (by simp), hvalue _ _ _ (by simp), haddress]
  simp only [read, hscan, hbelow, hfinish, hinner, hcommandOf, houter, Except.map, hconfig, hformat,
    hvalue .top outer .config (by simp)]

end CommandLine

namespace Program

open CommandLine (Flag)

/-! ## (5) Runs -/

/-- Looking up variables one by one. -/
theorem optionVariables_apply (names : List Text) (w : Machine) :
    (optionVariables names : Session _) w = (names.map fun name => (name, w.valueOf name), w) := by
  induction names with
  | nil => rfl
  | cons name names ih =>
    simp only [optionVariables, Session.bind_apply, Host.lookup_apply, ih, Session.pure_apply,
      List.map_cons]

/-- A variable that was looked up has the value that the environment gives it. -/
theorem valueIn_map (value : Text → Option Text) {names : List Text} {name : Text}
    (h : name ∈ names) : valueIn (names.map fun name => (name, value name)) name = value name := by
  rw [valueIn, Text.lookup_map_of_mem value h]
  rfl

/-- The values of the variables that stand in for options, as a run looks them up. -/
def lookedUp (w : Machine) : Text → Option Text :=
  valueIn (Flag.standIns.map fun name => (name, w.valueOf name))

theorem lookedUp_of_mem (w : Machine) {name : Text} (h : name ∈ Flag.standIns) :
    lookedUp w name = w.valueOf name := valueIn_map w.valueOf h

/-- **A run reads its command line** with the variables of its machine, and answers it or carries it
out. -/
theorem run_eq [Glob.Engine] (arguments : List Text) (w : Machine) :
    (run arguments : Session ExitStatus) w =
      match CommandLine.read w.valueOf arguments with
      | .error stop => (answer (lookedUp w) stop : Session _) w
      | .ok i => (carryOut (lookedUp w) i >>= conclusion : Session _) w := by
  have hread : CommandLine.read (lookedUp w) arguments = CommandLine.read w.valueOf arguments :=
    CommandLine.read_congr (fun _ hname => lookedUp_of_mem w hname) arguments
  rw [run, Session.bind_apply, optionVariables_apply, ← hread]
  dsimp only [lookedUp]
  cases CommandLine.read (valueIn (Flag.standIns.map fun name => (name, w.valueOf name))) arguments with
  | error stop => rfl
  | ok i => rfl

variable {w : Machine} {arguments : List Text} {i : CommandLine.Invocation}

/-- **A run of a command line that is accepted** carries out its command on the machine as it is, and
concludes. -/
theorem run_apply [Glob.Engine] (h : CommandLine.read w.valueOf arguments = .ok i) :
    ∃ lookup, (run arguments : Session _) w =
      (conclusion ((carryOut lookup i : Session _) w).1 : Session _)
        ((carryOut lookup i : Session _) w).2 := by
  refine ⟨lookedUp w, ?_⟩
  rw [run_eq, h]
  rfl

/-- A run of a command line that asks for the check concludes what the check leads to. -/
theorem run_detect_apply [Glob.Engine] {o : CommandLine.DetectOptions}
    (hread : CommandLine.read w.valueOf arguments = .ok i) (hcommand : i.command = some (.detect o)) :
    (run arguments : Session ExitStatus) w =
      (conclusion ((detect i o : Session _) w).1 : Session _) ((detect i o : Session _) w).2 := by
  obtain ⟨lookup, hrun⟩ := run_apply hread
  rw [hrun, carryOut, hcommand]

/-- A run of a command line that asks for a match concludes what the match leads to. -/
theorem run_match_apply [Glob.Engine] {o : CommandLine.MatchOptions}
    (hread : CommandLine.read w.valueOf arguments = .ok i) (hcommand : i.command = some (.match_ o)) :
    (run arguments : Session ExitStatus) w =
      (conclusion ((matchFiles i.format o : Session _) w).1 : Session _)
        ((matchFiles i.format o : Session _) w).2 := by
  obtain ⟨lookup, hrun⟩ := run_apply hread
  rw [hrun, carryOut, hcommand]

/-- A run of a command line that is refused says so, and does nothing else. -/
theorem run_refused_apply [Glob.Engine] {why : CommandLine.Refusal}
    (h : CommandLine.read w.valueOf arguments = .error (.refused why)) :
    (run arguments : Session ExitStatus) w =
      (.misuse, { w with errors := w.errors ++ ("error: ".toList ++ why.message ++ ['\n']) }) := by
  rw [run_eq, h]
  rfl

end Program

end ChangeGate
