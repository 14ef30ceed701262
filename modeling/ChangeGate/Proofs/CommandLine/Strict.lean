import ChangeGate.Proofs.CommandLine.Reader

/-! # Asking for strictness

The option `--strict` takes no value, so it can be put behind the command of a command line without a
change to what the other arguments mean: what is read is the same invocation, only that a failure now
ends the run (**`read_strict`**). Each step of a scan is **steady**: it goes the same way whether the
option was given before or not, as long as it is not given once more. -/

namespace ChangeGate.CommandLine

/-! ## (1) Scans with the option -/

namespace Scan

/-- A scan at whose start the option was given. -/
def withStrict (s : Scan) : Scan := { s with given := (.strict, []) :: s.given }

/-- Other options have the same values with it. -/
theorem value?_withStrict {f : Flag} (h : f ≠ .strict) (s : Scan) :
    s.withStrict.value? f = s.value? f := by
  have hf : (f == Flag.strict) = false := by simpa using h
  rw [value?, withStrict, List.lookup_cons, hf]
  rfl

/-- **A step is steady** when it does not give the option and goes the same way from a scan with the
option: `x` is what it leads to from a scan, and `y` from that scan with the option. -/
def Steady (s : Scan) (x y : Except Stop Scan) : Prop :=
  ∀ r, x = .ok r → r.value? .strict = none → s.value? .strict = none ∧ y = .ok r.withStrict

variable {s : Scan} {x y : Except Stop Scan}

/-- A step that fails is steady. -/
theorem Steady.error (e : Stop) : Steady s (.error e) y := by
  intro r h
  exact absurd h (by simp)

/-- A step that leads to another scan with the same options is steady. -/
theorem Steady.ok {r : Scan} (h : r.given = s.given) : Steady s (.ok r) (.ok r.withStrict) := by
  intro r' hr hfree
  obtain rfl := Except.ok.inj hr
  rw [value?, h] at hfree
  exact ⟨hfree, rfl⟩

/-- Steps in a row are steady. -/
theorem Steady.bind {next : Scan → Except Stop Scan} (h : Steady s x y)
    (hnext : ∀ r, Steady r (next r) (next r.withStrict)) :
    Steady s (x.bind next) (y.bind next) := by
  intro r hr hfree
  cases x with
  | error e => exact absurd hr (by simp [Except.bind])
  | ok middle =>
    obtain ⟨hmiddle, hlast⟩ := hnext middle r hr hfree
    obtain ⟨hstart, rfl⟩ := h middle rfl hmiddle
    exact ⟨hstart, hlast⟩

/-! ## (2) The steps of a scan -/

/-- Settling an option is steady: it is another one, because otherwise it would be given afterwards. -/
theorem steady_settle (s : Scan) (f : Flag) (v : Text) :
    Steady s (s.settle f v) (s.withStrict.settle f v) := by
  intro r h hfree
  unfold settle at h ⊢
  by_cases hgiven : (s.value? f).isSome = true
  · rw [if_pos hgiven] at h
    exact absurd h (by simp)
  rw [if_neg hgiven] at h
  by_cases haccepts : f.accepts v = true
  · rw [if_neg (by simp [haccepts])] at h
    obtain rfl := Except.ok.inj h
    rw [value?, List.lookup_append, Option.or_eq_none_iff] at hfree
    obtain ⟨hstart, hlast⟩ := hfree
    have hother : f ≠ .strict := by
      rintro rfl
      exact absurd hlast (by simp)
    refine ⟨hstart, ?_⟩
    rw [value?_withStrict hother, if_neg hgiven, if_neg (by simp [haccepts])]
    rfl
  · rw [if_pos (by simp [haccepts])] at h
    exact absurd h (by simp)

/-- Settling what is pending is steady. -/
theorem steady_resolve (s : Scan) : Steady s s.resolve s.withStrict.resolve := by
  obtain ⟨given, pending, operands, trailing⟩ := s
  cases pending with
  | none => exact Steady.ok rfl
  | some waiting =>
    obtain ⟨f, v⟩ := waiting
    cases v with
    | none => exact Steady.error _
    | some v => exact steady_settle ⟨given, none, operands, trailing⟩ f v

theorem steady_give (s : Scan) (f : Flag) (v : Text) :
    Steady s (s.give f v) (s.withStrict.give f v) :=
  (steady_resolve s).bind fun r => steady_settle r f v

theorem steady_await (s : Scan) (f : Flag) : Steady s (s.await f) (s.withStrict.await f) := by
  have hwaits : ∀ r : Scan, Steady r (.ok { r with pending := some (f, none) })
      (.ok { r.withStrict with pending := some (f, none) }) := fun r => Steady.ok rfl
  exact (steady_resolve s).bind hwaits

/-- An option without a value is steady to give, whichever it is. -/
theorem steady_giveBare (l : Level) (s : Scan) (f : Flag) :
    Steady s (s.giveBare l f) (s.withStrict.giveBare l f) := by
  cases f with
  | help => exact (steady_resolve s).bind fun _ => Steady.error _
  | version => exact (steady_resolve s).bind fun _ => Steady.error _
  | _ => exact steady_give s _ []

theorem steady_named (l : Level) (s : Scan) (name : Text) (v : Option Text) :
    Steady s (s.named l name v) (s.withStrict.named l name v) := by
  unfold named
  cases l.named? name with
  | none => exact Steady.error _
  | some f =>
    dsimp only
    by_cases hvalue : f.takesValue = true
    · rw [if_pos hvalue, if_pos hvalue]
      cases v with
      | none => exact steady_await s f
      | some t => exact steady_give s f t
    rw [if_neg hvalue, if_neg hvalue]
    by_cases hneedless : v.isSome = true
    · rw [if_pos hneedless]
      exact Steady.error _
    · rw [if_neg hneedless, if_neg hneedless]
      exact steady_giveBare l s f

/-- Letters after an option without a value are read on from where it leads. -/
theorem lettered_cons_bare {l : Level} {c : Char} {f : Flag} (hf : l.lettered? c = some f)
    (hvalue : f.takesValue = false) (s : Scan) (rest : Text) :
    s.lettered l (c :: rest) = (s.giveBare l f).bind fun r => r.lettered l rest := by
  rw [lettered, hf]
  dsimp only
  rw [if_neg (by simp [hvalue])]
  cases s.giveBare l f <;> rfl

/-- Options by their letters are steady: induction on the letters. -/
theorem steady_lettered (l : Level) (s : Scan) (letters : Text) :
    Steady s (s.lettered l letters) (s.withStrict.lettered l letters) := by
  induction letters generalizing s with
  | nil => exact Steady.ok rfl
  | cons c rest ih =>
    cases hf : l.lettered? c with
    | none =>
      rw [lettered, hf]
      exact Steady.error _
    | some f =>
      cases hvalue : f.takesValue with
      | false =>
        rw [lettered_cons_bare hf hvalue, lettered_cons_bare hf hvalue]
        exact (steady_giveBare l s f).bind ih
      | true =>
        -- what follows is the value, and no letters are left
        simp only [lettered, hf, hvalue, if_true]
        split
        · exact steady_await s f
        · exact steady_give s f _
        · exact steady_give s f _

/-- An argument of the command that is no option is refused, so it is steady. -/
theorem steady_operand (s : Scan) (t : Text) :
    Steady s (s.operand .detect t) (s.withStrict.operand .detect t) := Steady.error _

/-- **Reading an argument of the command is steady.** -/
theorem steady_argument (s : Scan) (t : Text) :
    Steady s (s.argument .detect t) (s.withStrict.argument .detect t) := by
  have htrailing : s.withStrict.trailing = s.trailing := rfl
  have hawaiting : s.withStrict.awaiting? = s.awaiting? := rfl
  unfold argument
  rw [htrailing, hawaiting]
  by_cases htrail : s.trailing = true
  · rw [if_pos htrail, if_pos htrail]
    exact steady_operand s t
  rw [if_neg htrail, if_neg htrail]
  -- an argument is a value where one is waited for
  cases s.awaiting? with
  | none =>
    dsimp only
    split
    · exact Steady.ok rfl
    · exact steady_named _ s _ _
    · exact steady_lettered _ s _
    · exact steady_operand s t
  | some f =>
    dsimp only
    by_cases hdashes : f.takesDashes = true
    · rw [if_pos hdashes, if_pos hdashes]
      exact Steady.ok rfl
    · rw [if_neg hdashes, if_neg hdashes]
      split
      · exact Steady.ok rfl
      · exact steady_named _ s _ _
      · exact steady_lettered _ s _
      · exact Steady.ok rfl

end Scan

/-! ## (3) Command lines -/

/-- **The arguments of the command lead to the same scan with the option as without it**, as long as
they do not give it: induction on the arguments. -/
theorem scan_withStrict {s r : Scan} {arguments : List Text}
    {below : Option (Level × List Text)} (h : scan .detect s arguments = .ok (r, below))
    (hfree : r.value? .strict = none) :
    s.value? .strict = none ∧ scan .detect s.withStrict arguments = .ok (r.withStrict, below) := by
  induction arguments generalizing s with
  | nil =>
    obtain ⟨rfl, rfl⟩ := Prod.mk.inj (Except.ok.inj h)
    exact ⟨hfree, rfl⟩
  | cons t rest ih =>
    rw [scan_cons (by simp)] at h ⊢
    cases hargument : s.argument .detect t with
    | error e =>
      rw [hargument] at h
      exact absurd h (by simp)
    | ok middle =>
      rw [hargument] at h
      obtain ⟨hmiddle, hrest⟩ := ih h
      obtain ⟨hstart, hstrict⟩ := Scan.steady_argument s t middle hargument hmiddle
      refine ⟨hstart, ?_⟩
      rw [hstrict]
      exact hrest

variable {lookup : Text → Option Text}

/-- Variables stand in for the same options with it as without it. -/
theorem valueOf_withStrict {f : Flag} (h : f ≠ .strict) (s : Scan) :
    valueOf lookup .detect s.withStrict f = valueOf lookup .detect s f := by
  rw [valueOf, valueOf, Scan.value?_withStrict h]

/-- Every option still has a value that it may have. -/
theorem acceptsVariables_withStrict {s : Scan} (h : acceptsVariables lookup .detect s = true) :
    acceptsVariables lookup .detect s.withStrict = true := by
  unfold acceptsVariables at h ⊢
  rw [List.all_eq_true] at h ⊢
  intro f hf
  by_cases hstrict : f = .strict
  · subst hstrict
    rfl
  · rw [valueOf_withStrict hstrict]
    exact h f hf

/-- The arguments of the command are accepted with the option as well. -/
theorem finish_withStrict {s r : Scan} (h : finish lookup .detect s = .ok r)
    (hfree : r.value? .strict = none) :
    s.value? .strict = none ∧ finish lookup .detect s.withStrict = .ok r.withStrict := by
  unfold finish at h ⊢
  cases hresolve : s.resolve with
  | error e =>
    rw [hresolve] at h
    exact absurd h (by simp)
  | ok settled =>
    rw [hresolve] at h
    dsimp only at h
    by_cases haccepts : acceptsVariables lookup .detect settled = true
    · rw [if_pos haccepts] at h
      obtain rfl := Except.ok.inj h
      obtain ⟨hstart, hstrict⟩ := Scan.steady_resolve s settled hresolve hfree
      refine ⟨hstart, ?_⟩
      rw [hstrict]
      dsimp only
      rw [if_pos (acceptsVariables_withStrict haccepts)]
    · rw [if_neg haccepts] at h
      exact absurd h (by simp)

/-- The options of the command ask for strictness with it, and are the same otherwise. -/
theorem commandOf_withStrict (s : Scan) : commandOf lookup .detect s.withStrict =
    .ok (some (.detect
      ⟨valueOf lookup .detect s .patterns, valueOf lookup .detect s .outputFile, s.value? .outputKey,
        valueOf lookup .detect s .address, true⟩)) := by
  rw [commandOf, valueOf_withStrict (by simp), valueOf_withStrict (by simp),
    valueOf_withStrict (by simp), Scan.value?_withStrict (by simp)]
  rfl

/-- **The option behind the command asks for strictness**, and changes nothing else of what a command
line means. -/
theorem read_strict {arguments : List Text} {i : Invocation} {o : DetectOptions}
    (hread : read lookup arguments = .ok i) (hcommand : i.command = some (.detect o))
    (hlenient : o.strict = false) :
    ∃ front command rest, arguments = front ++ command :: rest ∧
      read lookup (front ++ command :: "--strict".toList :: rest) =
        .ok { i with command := some (.detect { o with strict := true }) } := by
  obtain ⟨top, rest, below, inner, outer, hscan, ⟨r, hbelow⟩, hinner, hoptions, houter, hconfig,
    hformat⟩ := read_detect hread hcommand
  obtain ⟨front, command, rfl, hfront⟩ := scan_top_command hscan
  refine ⟨front, command, rest, rfl, ?_⟩
  obtain rfl := Command.detect.inj (Option.some.inj (Except.ok.inj hoptions))
  have hfree : inner.value? .strict = none := by simpa using hlenient
  obtain ⟨hfreeBelow, hinnerStrict⟩ := finish_withStrict hinner hfree
  -- the option is given first, to a scan that is still empty
  have hgiven : scan .detect .empty ("--strict".toList :: rest) =
      scan .detect Scan.empty.withStrict rest := rfl
  obtain ⟨-, hbelowStrict⟩ := scan_withStrict hbelow hfreeBelow
  have hconfigStrict : (inner.withStrict.value? .config).or (valueOf lookup .top outer .config) =
      i.config := by rw [Scan.value?_withStrict (by simp), hconfig]
  have hformatStrict : formatOf ((inner.withStrict.value? .output).or (outer.value? .output)) =
      i.format := by rw [Scan.value?_withStrict (by simp), hformat]
  simp only [read, hfront, hgiven, hbelowStrict, hinnerStrict, commandOf_withStrict, houter,
    Except.map, hconfigStrict, hformatStrict]

end ChangeGate.CommandLine
