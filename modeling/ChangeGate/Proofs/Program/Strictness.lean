import ChangeGate.Proofs.CommandLine.Strict
import ChangeGate.Proofs.Program.Verdict

/-! # What strictness changes

A strict check and one that forgives failures make the same **attempt**, and only differ in what follows
one that fails: the strict check ends there, and the other one reports the failure and gives the output
`false`. So of two runs that differ in strictness alone, either both end alike, or the strict one fails
and leaves the files as they were (**`run_strict_lenient`**), unless what fails is the write to the output
file: then the beginning of a line is left. -/

namespace ChangeGate

open CommandLine (Invocation DetectOptions)

/-! ## (1) What a failed attempt leaves -/

/-- **What a failed attempt leaves in a tree**: all is as before, or the disk has stopped the line with the
verdict, so a beginning of it stands at the end of the output file. -/
inductive Machine.Leaves [Glob.Engine] (w : Machine) (i : Invocation) (o : DetectOptions) (key : Text)
    (f : Failure) (t : Files.Tree) : Prop where
  /-- No file is touched. -/
  | nothing : t = w.tree → Leaves w i o key f t
  /-- The output file was opened, and writing the line to it is what fails. -/
  | beginning {file : Text} {place : Path} {b : Bool} {first : Text.Bytes} :
      w.CanGive o key file place → f.kind = .file → (b = true ↔ w.Affirms i o) →
      first <+: Text.encode (Action.outputLine key b) →
      first ≠ Text.encode (Action.outputLine key b) → t = w.tree.addTo place first →
      Leaves w i o key f t

/-- Where the output cannot be given, nothing is left. -/
theorem Machine.Leaves.eq_tree [Glob.Engine] {w : Machine} {i : Invocation} {o : DetectOptions}
    {key : Text} {f : Failure} {t : Files.Tree} (h : w.Leaves i o key f t)
    (hnever : ∀ file place, ¬ w.CanGive o key file place) : t = w.tree := by
  cases h with
  | nothing hkept => exact hkept
  | beginning hgive => exact absurd hgive (hnever _ _)

/-- The status after a failure tells a mistake of the user from other trouble. -/
theorem Failure.code_status (f : Failure) : f.status.code =
    if f.kind = .config ∨ f.kind = .argument ∨ f.kind = .pattern then 2 else 3 := by
  obtain ⟨kind, wording, causes⟩ := f
  cases kind <;> rfl

/-- **What is given stands at the end of the output file**: as much of the line as the disk lets through,
which is all of it if the file is writable. -/
theorem Machine.Gives.exists_written {w : Machine} {o : DetectOptions} {key file : Text} {place : Path}
    {t : Files.Tree} (h : w.Gives o key false t) (hgive : w.CanGive o key file place) :
    ∃ second, second <+: Text.encode (key ++ "=false\n".toList) ∧ t = w.tree.addTo place second ∧
      t.read w.cwd file = .ok (w.tree.contentOf w.cwd file ++ second) ∧
      (w.Writable file → second = Text.encode (key ++ "=false\n".toList)) := by
  have htree := h.line file place hgive
  rw [← Program.outputLine_false]
  refine ⟨_, Program.isPrefix_written false, htree, ?_, ?_⟩
  · rw [htree]
    exact Files.Tree.read_addTo hgive.2.2 _
  · intro hwritable
    exact Program.written_eq_line_iff.mpr (hwritable.written hgive.2.2 _).1

namespace Program

variable {w : Machine} {i : Invocation} {o : DetectOptions}

/-- **What a failed attempt leaves**: the file tree as it was, or, where the disk has stopped the line with
the verdict, a beginning of that line. In both cases the output can be given where it could be before, and a
writable file was not touched. -/
theorem attempt_of_error [Glob.Engine] {key : Text} {f : Failure} {left : Machine}
    (h : (attempt i o : Session _) w = ((key, .error f), left)) :
    (∀ k, w.UsesKey i o k ↔ k = key) ∧ (f.overflowed = true ↔ w.Outgrows i o) ∧
      left.cwd = w.cwd ∧ (∀ file place, w.CanGive o key file place → left.CanGive o key file place) ∧
      w.Leaves i o key f left.tree ∧
      ∀ file, o.outputFile = some file → w.Writable file → left.tree = w.tree ∧ left.Writable file := by
  obtain ⟨key', hkey, output, errors, sent,
      ⟨file, place, b, hgive, hb, hfits, hattempt⟩ | ⟨f', hfails, hoverflow, hattempt⟩⟩ :=
    attempt_cases w i o
  · rw [h] at hattempt
    obtain ⟨hresult, rfl⟩ := Prod.mk.inj hattempt
    obtain ⟨rfl, hfailed⟩ := Prod.mk.inj hresult
    cases hfault : (w.written place (Action.outputParts key b)).fault with
    | none =>
      rw [hfault] at hfailed
      exact absurd hfailed (by simp)
    | some e =>
      rw [hfault] at hfailed
      obtain rfl := Except.error.inj hfailed
      refine ⟨hkey, iff_of_false (by simp [Failure.file]) hfits, rfl, ?_,
        .beginning hgive rfl hb (isPrefix_written b) ?_ rfl, ?_⟩
      · intro file' place' hgive'
        obtain ⟨rfl, rfl⟩ := hgive.unique hgive'
        exact canGive_afterWriting hgive _
      · intro hline
        rw [written_eq_line_iff, hfault] at hline
        exact absurd hline (by simp)
      · -- a writable file takes the whole line
        intro file' hfile' hwritable
        obtain rfl := Option.some.inj (hgive.1.symm.trans hfile')
        rw [(hwritable.written hgive.2.2 _).1] at hfault
        exact absurd hfault (by simp)
  · rw [h] at hattempt
    obtain ⟨hresult, rfl⟩ := Prod.mk.inj hattempt
    obtain ⟨rfl, hfailed⟩ := Prod.mk.inj hresult
    obtain rfl := Except.error.inj hfailed
    exact ⟨hkey, hoverflow, rfl, fun _ _ hgive => hgive, .nothing rfl,
      fun _ _ hwritable => ⟨rfl, hwritable⟩⟩

/-- An attempt that ends well was not outgrown. -/
theorem not_outgrows_of_ok [Glob.Engine] {key : Text} {left : Machine}
    (h : (attempt i o : Session _) w = ((key, .ok ()), left)) : ¬ w.Outgrows i o := by
  intro houtgrows
  obtain ⟨output, errors, sent, hdetect⟩ := detect_of_outgrows houtgrows
  rw [detect_of_ok h] at hdetect
  exact absurd (Except.ok.inj (Prod.mk.inj hdetect).1) (by simp)

/-- An attempt that is outgrown touches no file. -/
theorem tree_of_outgrows [Glob.Engine] {key : Text} {f : Failure} {left : Machine}
    (h : (attempt i o : Session _) w = ((key, .error f), left)) (hoverflow : f.overflowed = true)
    (houtgrows : w.Outgrows i o) : left.tree = w.tree := by
  obtain ⟨output, errors, sent, hdetect⟩ := detect_of_outgrows houtgrows
  rw [detect_of_overflow h hoverflow] at hdetect
  rw [(Prod.mk.inj hdetect).2]

/-! ## (2) Two runs -/

/-- **A strict run and one that forgives failures.** Strictness is asked for by an option behind the
command. If the strict run ends well, the other one is the same run, and a listing that overflows breaks off
both alike. If the strict run fails otherwise, its status tells a mistake of the user from other trouble, and
no file is touched, unless the disk has stopped the line with the verdict: then a beginning of that line is
left. The other run has sent the same requests and printed the same and ends well; behind what the strict run
leaves in the output file it writes what it can of the line that says `false`, which is all of it if the file
is then writable, and it touches no file where the output cannot be given. -/
theorem run_strict_lenient [Glob.Engine] {strictArguments lenientArguments : List Text}
    (hstrict : CommandLine.read w.valueOf strictArguments =
      .ok { i with command := some (.detect { o with strict := true }) })
    (hlenient : CommandLine.read w.valueOf lenientArguments =
      .ok { i with command := some (.detect { o with strict := false }) }) :
    (∃ front command rest, lenientArguments = front ++ command :: rest ∧
      CommandLine.read w.valueOf (front ++ command :: "--strict".toList :: rest) =
        .ok { i with command := some (.detect { o with strict := true }) }) ∧
    ∃ strictStatus strictEnd lenientStatus lenientEnd,
      (run strictArguments : Session ExitStatus) w = (strictStatus, strictEnd) ∧
      (run lenientArguments : Session ExitStatus) w = (lenientStatus, lenientEnd) ∧
      (strictStatus.code = 0 → lenientStatus = strictStatus ∧ lenientEnd = strictEnd) ∧
      (w.Outgrows i o → strictStatus = .overflow ∧ lenientStatus = .overflow ∧
        lenientEnd = strictEnd ∧ strictEnd.tree = w.tree) ∧
      (strictStatus.code ≠ 0 → ¬ w.Outgrows i o → ∃ f key,
        ((detect i { o with strict := true } : Session _) w).1 = .error f ∧
        strictStatus.code =
          (if f.kind = .config ∨ f.kind = .argument ∨ f.kind = .pattern then 2 else 3) ∧
        lenientStatus.code = 0 ∧ lenientEnd.requests = strictEnd.requests ∧
        lenientEnd.output = strictEnd.output ∧ (∀ k, w.UsesKey i o k ↔ k = key) ∧
        w.Leaves i o key f strictEnd.tree ∧
        (∀ file, o.outputFile = some file → w.Writable file →
          strictEnd.tree = w.tree ∧ strictEnd.Writable file) ∧
        (∀ file place, w.CanGive o key file place →
          ∃ second, second <+: Text.encode (key ++ "=false\n".toList) ∧
            lenientEnd.tree = strictEnd.tree.addTo place second ∧
            lenientEnd.tree.read w.cwd file = .ok (strictEnd.tree.contentOf w.cwd file ++ second) ∧
            (strictEnd.Writable file → second = Text.encode (key ++ "=false\n".toList))) ∧
        ((∀ file place, ¬ w.CanGive o key file place) → lenientEnd.tree = w.tree)) := by
  obtain ⟨front, command, rest, hlist, hread⟩ := CommandLine.read_strict hlenient rfl rfl
  refine ⟨⟨front, command, rest, hlist, hread⟩, ?_⟩
  rw [run_detect_apply hstrict rfl, run_detect_apply hlenient rfl]
  -- both runs make the same attempt
  have hsame (strict : Bool) (command : Option CommandLine.Command) :
      (attempt { i with command := command } { o with strict := strict } : Session _) w =
        (attempt i o : Session _) w := rfl
  cases hattempt : (attempt i o : Session _) w with
  | mk attempted left =>
    obtain ⟨key, f | ⟨⟩⟩ := attempted
    · obtain ⟨hkey, hoverflow, hcwd, hgive, htree, hwritable⟩ := attempt_of_error hattempt
      -- an overflow is the one failure after which neither run goes on
      by_cases houtgrows : w.Outgrows i o
      · have hbroken := hoverflow.mpr houtgrows
        rw [detect_of_overflow ((hsame true _).trans hattempt) hbroken,
          detect_of_overflow ((hsame false _).trans hattempt) hbroken]
        exact ⟨_, _, _, _, rfl, rfl, fun hends => absurd hends (by decide),
          fun _ => ⟨rfl, rfl, rfl, tree_of_outgrows hattempt hbroken houtgrows⟩,
          fun _ hfits => absurd houtgrows hfits⟩
      have hfits : f.overflowed = false := by
        rw [← Bool.not_eq_true, hoverflow]
        exact houtgrows
      -- the strict run ends here, and the other one gives the output where it still can
      obtain ⟨t, writes, errors, hgives, hforgive⟩ := forgive_apply left o key f
      have hforgiveLenient : (forgive { o with strict := false } key f : Session _) left = ((), _) :=
        hforgive
      have hfails : ((detect i { o with strict := true } : Session _) w).1 = .error f := by
        rw [detect_of_strict (o := { o with strict := true }) hattempt hfits rfl]
      rw [detect_of_strict ((hsame true _).trans hattempt) hfits rfl,
        detect_of_lenient ((hsame false _).trans hattempt) hfits rfl, hforgiveLenient]
      refine ⟨_, _, _, _, rfl, rfl, fun hends => ?_, fun h => absurd h houtgrows,
        fun _ _ => ⟨f, key, hfails, f.code_status, rfl, rfl, rfl, hkey, htree, hwritable, ?_, ?_⟩⟩
      · exact absurd hends (by rw [f.code_status]; split <;> simp)
      · -- what the failed attempt has left does not take away the place for the output
        intro file place hfile
        rw [← hcwd]
        exact hgives.exists_written (hgive file place hfile)
      · intro hnever
        have hkept : left.tree = w.tree := htree.eq_tree hnever
        rw [← hkept]
        refine hgives.kept ?_
        rintro file place ⟨hfile, hvalid, hopened⟩
        rw [hkept, hcwd] at hopened
        exact hnever file place ⟨hfile, hvalid, hopened⟩
    · rw [detect_of_ok ((hsame true _).trans hattempt), detect_of_ok ((hsame false _).trans hattempt)]
      exact ⟨_, _, _, _, rfl, rfl, fun _ => ⟨rfl, rfl⟩,
        fun houtgrows => absurd houtgrows (not_outgrows_of_ok hattempt), fun hfails => absurd rfl hfails⟩

/-- A workflow without patterns, with an output file that holds a line already. -/
def bareWorkflow : Machine :=
  .start [("GITHUB_OUTPUT".toList, "/out".toList)]
    ⟨[(["out".toList], .file (Text.encode "a=b\n".toList) false)]⟩ [] [] (.ofScript [])

/-- The options that the variable of that workflow stands for. -/
def bareOptions : DetectOptions := ⟨none, some "/out".toList, none, none, false⟩

/-- Without patterns the strict run ends with the status of a mistake, and the other one leaves one line
more. -/
theorem run_strict_lenient_bare :
    CommandLine.read bareWorkflow.valueOf ["detect".toList, "--strict".toList] =
      .ok ⟨none, .text, some (.detect { bareOptions with strict := true })⟩ ∧
    CommandLine.read bareWorkflow.valueOf ["detect".toList] =
      .ok ⟨none, .text, some (.detect { bareOptions with strict := false })⟩ ∧
    ∃ strictStatus strictEnd lenientStatus lenientEnd,
      (run ["detect".toList, "--strict".toList] : Session ExitStatus) bareWorkflow =
        (strictStatus, strictEnd) ∧
      (run ["detect".toList] : Session ExitStatus) bareWorkflow = (lenientStatus, lenientEnd) ∧
      strictStatus.code = 2 ∧ strictEnd.tree = bareWorkflow.tree ∧ lenientStatus.code = 0 ∧
      lenientEnd.tree.read [] "/out".toList = .ok (Text.encode "a=b\nchanged=false\n".toList) := by
  have hstrict : CommandLine.read bareWorkflow.valueOf ["detect".toList, "--strict".toList] =
      .ok ⟨none, .text, some (.detect { bareOptions with strict := true })⟩ := rfl
  have hlenient : CommandLine.read bareWorkflow.valueOf ["detect".toList] =
      .ok ⟨none, .text, some (.detect { bareOptions with strict := false })⟩ := rfl
  obtain ⟨-, strictStatus, strictEnd, lenientStatus, lenientEnd, hstrictRun, hlenientRun, -, -, hfails⟩ :=
    run_strict_lenient (i := ⟨none, .text, some (.detect bareOptions)⟩) hstrict hlenient
  have hstatus : ((run ["detect".toList, "--strict".toList] : Session ExitStatus) bareWorkflow).1 =
      .misuse := by decide +kernel
  obtain rfl : strictStatus = .misuse := by rw [hstrictRun] at hstatus; exact hstatus
  -- without patterns there is no listing
  have hfits : ¬ bareWorkflow.Outgrows ⟨none, .text, some (.detect bareOptions)⟩ bareOptions := by
    rintro ⟨-, key, -, -, ⟨patterns, file, rules, hready, -⟩, -⟩
    obtain ⟨-, ⟨hpatterns, -⟩, -⟩ := (prerequisites_eq_ok bareOptions key).mp hready
    exact absurd hpatterns (by simp [bareOptions])
  obtain ⟨f, key, -, -, hends, -, -, hkey, -, hkept, hgiven, -⟩ := hfails (by decide) hfits
  have hdefault : bareWorkflow.UsesKey ⟨none, .text, some (.detect bareOptions)⟩ bareOptions
      Config.default.key := .configured rfl rfl
  obtain rfl := (hkey _).mp hdefault
  have hopened : bareWorkflow.tree.opened bareWorkflow.cwd "/out".toList = .ok ["out".toList] := by
    decide +kernel
  obtain ⟨htree, hwritable⟩ := hkept _ rfl ⟨_, hopened, fun _ _ => rfl⟩
  obtain ⟨second, -, -, hread, hwhole⟩ := hgiven _ _ ⟨rfl, by decide, hopened⟩
  rw [hwhole hwritable, htree] at hread
  exact ⟨hstrict, hlenient, _, _, _, _, hstrictRun, hlenientRun, rfl, htree, hends, hread⟩

/-- That workflow on a disk that stops the third write. -/
def narrowWorkflow : Machine :=
  { documentWorkflow with disk := fun _ n => if n = 2 then some ⟨0, .noRoom⟩ else none }

/-- **Strictness can leave something, and forgiving can leave nothing.** On a disk that stops a write, the
strict run leaves the beginning of a line, and the other one writes its line behind that; to the device that
is always full not even that line can be written; and a listing without an end breaks off the run that
forgives failures, too. -/
theorem run_strict_lenient_stopped :
    (CommandLine.read narrowWorkflow.valueOf ["detect".toList, "--strict".toList] =
        .ok ⟨none, .text, some (.detect { documentOptions with strict := true })⟩ ∧
      CommandLine.read narrowWorkflow.valueOf ["detect".toList] =
        .ok ⟨none, .text, some (.detect { documentOptions with strict := false })⟩ ∧
      ((run ["detect".toList, "--strict".toList] : Session ExitStatus) narrowWorkflow).1.code = 3 ∧
      ((run ["detect".toList, "--strict".toList] : Session ExitStatus) narrowWorkflow).2.tree.read []
        "/out".toList = .ok (Text.encode "a=b\nchanged=".toList) ∧
      ((run ["detect".toList] : Session ExitStatus) narrowWorkflow).2.tree.read [] "/out".toList =
        .ok (Text.encode "a=b\nchanged=changed=false\n".toList)) ∧
    ((∃ o : DetectOptions, CommandLine.read fullWorkflow.valueOf ["detect".toList, "--strict".toList] =
          .ok ⟨none, .text, some (.detect { o with strict := true })⟩ ∧
        CommandLine.read fullWorkflow.valueOf ["detect".toList] =
          .ok ⟨none, .text, some (.detect { o with strict := false })⟩ ∧
        o.outputFile = some "/dev/full".toList ∧ o.outputKey = none) ∧
      fullWorkflow.Configured none .default ∧ Action.isKey Config.default.key = true ∧
      fullWorkflow.tree.Opens [] "/dev/full".toList ∧
      ((run ["detect".toList, "--strict".toList] : Session ExitStatus) fullWorkflow).1.code = 3 ∧
      ((run ["detect".toList] : Session ExitStatus) fullWorkflow).2.tree.read [] "/dev/full".toList =
        .ok (fullWorkflow.tree.contentOf [] "/dev/full".toList)) ∧
    ((run ["detect".toList] : Session ExitStatus) endlessWorkflow).1.code = 101 := by
  refine ⟨⟨rfl, rfl, ?_, ?_, ?_⟩, ⟨⟨{ documentOptions with outputFile := some "/dev/full".toList }, rfl, rfl,
    rfl, rfl⟩, rfl, by decide, ⟨["dev".toList, "full".toList], by decide +kernel⟩, ?_, ?_⟩, ?_⟩
  · decide +kernel
  · decide +kernel
  · decide +kernel
  · decide +kernel
  · decide +kernel
  · rw [run_endless]
    rfl

end Program

end ChangeGate
