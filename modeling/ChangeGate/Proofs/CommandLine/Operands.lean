import ChangeGate.Proofs.CommandLine.Reader

/-! # Operands behind a separator

Behind `--` every argument of a match is an operand, whatever it looks like (**`scan_operands`**). A
command line that asks for a match of the files of the standard input becomes one that asks for the same
match of the files that are named, once `--` and their names are added (**`read_operands`**). There is
such a command line for every source of patterns (**`read_matchLine`**). -/

namespace ChangeGate.CommandLine

/-! ## (1) Settling the last option -/

namespace Scan

variable {s r : Scan}

theorem resolve_of_pending (h : s.pending = none) : s.resolve = .ok s := by
  rw [resolve, h]

/-- Nothing is pending once the last option is settled, and the operands are what they were. -/
theorem of_resolve (h : s.resolve = .ok r) :
    r.pending = none ∧ r.operands = s.operands ∧ r.trailing = s.trailing := by
  unfold resolve at h
  split at h
  · rename_i hpending
    obtain rfl := Except.ok.inj h
    exact ⟨hpending, rfl, rfl⟩
  · exact absurd h (by simp)
  · unfold settle at h
    split at h
    · exact absurd h (by simp)
    split at h
    · exact absurd h (by simp)
    obtain rfl := Except.ok.inj h
    exact ⟨rfl, rfl, rfl⟩

/-- An option that still waits for its value cannot be settled. -/
theorem awaiting?_of_resolve (h : s.resolve = .ok r) : s.awaiting? = none := by
  unfold resolve at h
  split at h
  · rename_i hpending
    rw [awaiting?, hpending]
  · exact absurd h (by simp)
  · rename_i hpending
    rw [awaiting?, hpending]

/-- A separator does not matter to the options. -/
theorem resolve_trailing (h : s.resolve = .ok r) (b : Bool) :
    { s with trailing := b }.resolve = .ok { r with trailing := b } := by
  obtain ⟨given, pending, operands, trailing⟩ := s
  match pending with
  | none =>
    obtain rfl := Except.ok.inj h
    rfl
  | some (_, none) => exact absurd h (by simp [resolve])
  | some (f, some v) =>
    simp only [resolve, settle, value?] at h ⊢
    split at h
    · exact absurd h (by simp)
    rename_i hgiven
    split at h
    · exact absurd h (by simp)
    rename_i haccepts
    obtain rfl := Except.ok.inj h
    rw [if_neg hgiven, if_neg haccepts]

/-- **The separator**: where no option waits for its value, only operands follow `--`. -/
theorem argument_separator (htrailing : s.trailing = false) (hwaiting : s.awaiting? = none)
    (l : Level) : s.argument l "--".toList = .ok { s with trailing := true } := by
  have hdashes : "--".toList = ['-', '-'] := rfl
  rw [argument, if_neg (by simp [htrailing]), hwaiting, hdashes]
  rfl

/-- Behind the separator an argument of a match is an operand. -/
theorem argument_trailing (htrailing : s.trailing = true) (h : s.resolve = .ok r) (t : Text) :
    s.argument .match_ t = .ok { r with operands := r.operands ++ [t] } := by
  rw [argument, if_pos htrailing, operand, h]
  rfl

end Scan

/-! ## (2) Going through the arguments -/

/-- The arguments of a command can be read in two portions. -/
theorem scan_append {l : Level} (hl : l ≠ .top) (s : Scan) (front rest : List Text) :
    scan l s (front ++ rest) =
      match scan l s front with
      | .error e => .error e
      | .ok (r, _) => scan l r rest := by
  induction front generalizing s with
  | nil => rfl
  | cons t front ih =>
    rw [List.cons_append, scan_cons hl, scan_cons hl]
    cases s.argument l t with
    | error e => rfl
    | ok r => exact ih r

/-- Once no option is pending, all that follows the separator is an operand: induction on what
follows. -/
theorem scan_trailing {s : Scan} (hpending : s.pending = none) (htrailing : s.trailing = true)
    (names : List Text) :
    scan .match_ s names = .ok ({ s with operands := s.operands ++ names }, none) := by
  induction names generalizing s with
  | nil =>
    rw [List.append_nil]
    rfl
  | cons name names ih =>
    rw [scan_cons (by simp), Scan.argument_trailing htrailing (Scan.resolve_of_pending hpending)]
    have hrest := @ih { s with operands := s.operands ++ [name] } hpending htrailing
    rw [List.append_assoc, List.singleton_append] at hrest
    exact hrest

/-- **Behind the separator there are only operands**: those that follow it, in their order. -/
theorem scan_operands {s r : Scan} (hresolve : s.resolve = .ok r) (htrailing : s.trailing = false)
    (first : Text) (more : List Text) :
    scan .match_ s ("--".toList :: first :: more) =
      .ok ({ r with trailing := true, operands := s.operands ++ first :: more }, none) := by
  obtain ⟨hpending, hoperands, -⟩ := Scan.of_resolve hresolve
  rw [scan_cons (by simp), Scan.argument_separator htrailing (Scan.awaiting?_of_resolve hresolve)]
  dsimp only
  rw [scan_cons (by simp), Scan.argument_trailing rfl (Scan.resolve_trailing hresolve true)]
  have hrest := @scan_trailing { r with trailing := true, operands := r.operands ++ [first] } hpending
    rfl more
  rw [hoperands, List.append_assoc, List.singleton_append] at hrest
  rw [hoperands]
  exact hrest

/-! ## (3) Command lines -/

variable {lookup : Text → Option Text} {i : Invocation} {o : MatchOptions}

/-- The options decide whether the variables that stand in for the others have values. -/
theorem acceptsVariables_of_given {s r : Scan} (h : r.given = s.given) (l : Level) :
    acceptsVariables lookup l r = acceptsVariables lookup l s := by
  simp only [acceptsVariables, valueOf, Scan.value?, h]

/-- The standard input is read where no operand and no revision is given. -/
theorem source_eq_input {files : List Text} {base : Option Text}
    (h : commandOf.source files base = .input) : files = [] ∧ base = none := by
  cases files with
  | cons t rest => exact absurd h (by simp [commandOf.source])
  | nil =>
    cases base with
    | some b => exact absurd h (by simp [commandOf.source])
    | none => exact ⟨rfl, rfl⟩

/-- **Operands can take the place of the standard input**: where that is read there are none yet, and
with some the command asks for the same match of other files. -/
theorem commandOf_operands {s : Scan} (h : commandOf lookup .match_ s = .ok (some (.match_ o)))
    (hinput : o.files = .input) (trailing : Bool) (first : Text) (more : List Text) :
    s.operands = [] ∧
      commandOf lookup .match_ { s with trailing := trailing, operands := first :: more } =
        .ok (some (.match_ { o with files := .given first more })) := by
  simp only [commandOf, commandOf.exitCode, Scan.value?] at h ⊢
  split at h
  · exact absurd h (by simp)
  · exact absurd h (by simp)
  · exact absurd h (by simp)
  · rename_i hpatterns hfile _
    obtain rfl := Command.match_.inj (Option.some.inj (Except.ok.inj h))
    obtain ⟨hoperands, hbase⟩ := source_eq_input hinput
    rw [hpatterns, hfile, hbase]
    exact ⟨hoperands, rfl⟩
  · rename_i hpatterns hfile _
    obtain rfl := Command.match_.inj (Option.some.inj (Except.ok.inj h))
    obtain ⟨hoperands, hbase⟩ := source_eq_input hinput
    rw [hpatterns, hfile, hbase]
    exact ⟨hoperands, rfl⟩

/-- **What more arguments do to a match**: only its own level reads them, and where they add operands
only, the command alone can become another one. -/
theorem read_match_append {front : List Text} (hread : read lookup front = .ok i)
    (hcommand : i.command = some (.match_ o)) :
    ∃ below inner, below.resolve = .ok inner ∧
      commandOf lookup .match_ inner = .ok (some (.match_ o)) ∧
      ∀ more after settled command, scan .match_ below more = .ok (after, none) →
        after.resolve = .ok settled → settled.given = inner.given →
        commandOf lookup .match_ settled = .ok command →
        read lookup (front ++ more) = .ok { i with command := command } := by
  obtain ⟨top, rest, below, inner, outer, hscan, ⟨r, hbelow⟩, hinner, hoptions, houter, hconfig,
    hformat⟩ := read_match hread hcommand
  -- what stands before the command does not depend on what stands behind it
  obtain ⟨before, word, rfl, hbefore⟩ := scan_top_command hscan
  refine ⟨below, inner, resolve_of_finish hinner, hoptions, ?_⟩
  intro more after settled command hmore hresolve hgiven hcommandOf
  have haccepts : acceptsVariables lookup .match_ inner = true := by
    rw [finish, resolve_of_finish hinner] at hinner
    dsimp only at hinner
    split at hinner
    · assumption
    · exact absurd hinner (by simp)
  have hall : scan .match_ .empty (rest ++ more) = .ok (after, none) := by
    rw [scan_append (by simp), hbelow]
    exact hmore
  have hfinish : finish lookup .match_ after = .ok settled := by
    rw [finish, hresolve]
    dsimp only
    rw [acceptsVariables_of_given hgiven, if_pos haccepts]
  rw [read, List.append_assoc, List.cons_append, hbefore]
  simp only [hall, hfinish, hcommandOf, houter, Except.map, Scan.value?, hgiven]
  rw [hconfig, hformat]
  rfl

/-- **Naming the files of a match.** Let a command line ask for a match of the files of the standard
input, and let `--` behind it change nothing. Then `--` and some names behind it ask for the same match of
these files, in their order. -/
theorem read_operands {front : List Text} (hfront : read lookup front = .ok i)
    (hseparator : read lookup (front ++ ["--".toList]) = .ok i)
    (hcommand : i.command = some (.match_ o)) (hinput : o.files = .input)
    (first : Text) (more : List Text) :
    read lookup (front ++ "--".toList :: first :: more) =
      .ok { i with command := some (.match_ { o with files := .given first more }) } := by
  obtain ⟨below, inner, hresolve, hoptions, hmore⟩ := read_match_append hfront hcommand
  obtain ⟨hpending, hoperands, -⟩ := Scan.of_resolve hresolve
  have hempty : inner.operands = [] := (commandOf_operands hoptions hinput false first more).1
  cases htrailing : below.trailing with
  | true =>
    -- behind another separator this one is an operand, and no longer the standard input is read
    have hscan : scan .match_ below ["--".toList] =
        .ok ({ inner with operands := inner.operands ++ ["--".toList] }, none) := by
      rw [scan_cons (by simp), Scan.argument_trailing htrailing hresolve]
      rfl
    have hother := hmore _ _ _ _ hscan (Scan.resolve_of_pending hpending) rfl
      (by
        rw [hempty]
        exact (commandOf_operands hoptions hinput inner.trailing "--".toList []).2)
    rw [hseparator] at hother
    have hsame := congrArg Invocation.command (Except.ok.inj hother)
    rw [hcommand] at hsame
    have hfiles := congrArg MatchOptions.files (Command.match_.inj (Option.some.inj hsame))
    rw [hinput] at hfiles
    exact absurd hfiles (by simp)
  | false =>
    have hscan := scan_operands hresolve htrailing first more
    rw [← hoperands, hempty, List.nil_append] at hscan
    exact hmore _ _ _ _ hscan (Scan.resolve_of_pending hpending) rfl
      (commandOf_operands hoptions hinput true first more).2

/-! ## (4) A command line for any patterns -/

/-- The arguments that ask for a match of the files of the standard input, with the patterns of a
source. -/
def matchLine : PatternSource → List Text
  | .given t => ["match".toList, "--patterns".toList, t]
  | .file path => ["match".toList, "--patterns-file=".toList ++ path]

/-- A level is read once its last option is settled and the variables are accepted. -/
theorem finish_of_accepts {l : Level} {s r : Scan} (hresolve : s.resolve = .ok r)
    (haccepts : acceptsVariables lookup l r = true) : finish lookup l s = .ok r := by
  rw [finish, hresolve]
  exact if_pos haccepts

/-- **Any patterns can be asked for**, whatever their text looks like, and `--` behind them changes
nothing. Only a path may not be empty, neither the one of the patterns nor, in a variable, the one of the
configuration. -/
theorem read_matchLine {source : PatternSource}
    (hconfig : (lookup "PATHGATE_CONFIG".toList).all Flag.config.accepts = true)
    (hsource : source ≠ .file []) {rest : List Text} (hrest : rest = [] ∨ rest = ["--".toList]) :
    read lookup (matchLine source ++ rest) =
      .ok ⟨lookup "PATHGATE_CONFIG".toList, .text, some (.match_ ⟨source, .input, false⟩)⟩ := by
  have houter : finish lookup .top .empty = .ok .empty :=
    finish_of_accepts rfl (Bool.and_eq_true_iff.mpr ⟨hconfig, rfl⟩)
  -- either way the one option is settled at the end, and the separator is only noted
  obtain ⟨options, below, inner, hscan, hbelow, hresolve, haccepts, hcommand, hdefault, hformat⟩ :
      ∃ options below inner,
        scan .top .empty (matchLine source ++ rest) = .ok (.empty, some (.match_, options)) ∧
        scan .match_ .empty options = .ok (below, none) ∧ below.resolve = .ok inner ∧
        acceptsVariables lookup .match_ inner = true ∧
        commandOf lookup .match_ inner = .ok (some (.match_ ⟨source, .input, false⟩)) ∧
        inner.value? .config = none ∧ inner.value? .output = none := by
    cases source with
    | given t =>
      have haccepts : ∀ b, acceptsVariables lookup .match_ ⟨[(.patterns, t)], none, [], b⟩ = true :=
        fun _ => Bool.and_eq_true_iff.mpr ⟨hconfig, rfl⟩
      rcases hrest with rfl | rfl
      · exact ⟨_, _, _, rfl, rfl, rfl, haccepts _, rfl, rfl, rfl⟩
      · exact ⟨_, _, _, rfl, rfl, rfl, haccepts _, rfl, rfl, rfl⟩
    | file path =>
      cases path with
      | nil => exact absurd rfl hsource
      | cons c path =>
        have haccepts : ∀ b,
            acceptsVariables lookup .match_ ⟨[(.patternsFile, c :: path)], none, [], b⟩ = true :=
          fun _ => Bool.and_eq_true_iff.mpr ⟨hconfig, rfl⟩
        rcases hrest with rfl | rfl
        · exact ⟨_, _, _, rfl, rfl, rfl, haccepts _, rfl, rfl, rfl⟩
        · exact ⟨_, _, _, rfl, rfl, rfl, haccepts _, rfl, rfl, rfl⟩
  have hinner := finish_of_accepts hresolve haccepts
  simp only [read, hscan, hbelow, hinner, hcommand, houter, hdefault, hformat]
  rfl

end ChangeGate.CommandLine
