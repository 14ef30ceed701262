import ChangeGate.Proofs.Program.Reporting
import ChangeGate.Proofs.Program.Settings
import ChangeGate.Proofs.PullRequest.Pagination
import ChangeGate.Proofs.PullRequest.Runner

/-! # What the check of a pull request does

A machine **affirms** an invocation when everything goes well up to the verdict and some listed file
is included; it **outgrows** the invocation when the listing overflows. Each function of the check has a
lemma that says all it can do, failures included: **`pullRequestFiles_apply`**, **`check_cases`**,
**`attempt_cases`** and **`forgive_apply`**. None of them touches the file tree before the output is given,
and a failed attempt has not given it, unless the disk has stopped it in the middle. -/

namespace ChangeGate

open CommandLine (Invocation DetectOptions Format)
open PullRequest (Client Runner)

/-! ## (1) The verdict of a run -/

/-- **The exchange of a check**: the requests that list the files of the pull request behind the event,
the client being one that can be made, and what comes of them. -/
def Machine.Exchanges (w : Machine) (o : DetectOptions) (config : Config)
    (sent : List Http.Request) (outcome : Except PullRequest.Fault (List Text)) : Prop :=
  ∃ p client, (Runner.ofVariables w.valueOf).Resolves w p ∧
    Client.of config.server (Program.effectiveAddress o.address config) = .ok client ∧
    client.Lists p w.server w.requests 1 sent outcome

/-- **The files of the pull request behind the event**: the exchange ends without a fault. -/
def Machine.ListsFiles (w : Machine) (o : DetectOptions) (config : Config) (files : List Text) : Prop :=
  ∃ sent, w.Exchanges o config sent (.ok files)

/-- **The listing overflows**: the pages of the exchange outnumber their counter. -/
def Machine.Overflows (w : Machine) (o : DetectOptions) (config : Config) : Prop :=
  ∃ sent, w.Exchanges o config sent (.error (.request .overflow))

/-- **The options are ready** for an output key: it can be read back, the patterns are not blank and can
be compiled, and the output file is known. -/
def CommandLine.DetectOptions.Ready [Glob.Engine] (o : DetectOptions) (key : Text) : Prop :=
  ∃ patterns file rules, Program.prerequisites o key = .ok (patterns, file) ∧
    RuleSet.ofText patterns = .ok rules

/-- **The settings confirm the options** when the patterns are not blank and can be compiled, and some
listed file is included. -/
def Machine.Confirms [Glob.Engine] (w : Machine) (o : DetectOptions) (config : Config) : Prop :=
  ∃ patterns rules files, o.patterns = some patterns ∧ Text.blank patterns = false ∧
    RuleSet.ofText patterns = .ok rules ∧ w.ListsFiles o config files ∧
    ∃ file ∈ files, rules.includes file = true

/-- **A machine affirms an invocation** when there are settings, and they confirm its options. -/
def Machine.Affirms [Glob.Engine] (w : Machine) (i : Invocation) (o : DetectOptions) : Prop :=
  ∃ config, w.Configured i.config config ∧ w.Confirms o config

/-- **A machine outgrows an invocation** when there are settings, the options are ready for the output key
of the run, and the listing overflows. -/
def Machine.Outgrows [Glob.Engine] (w : Machine) (i : Invocation) (o : DetectOptions) : Prop :=
  ∃ config key, w.Configured i.config config ∧ w.UsesKey i o key ∧ o.Ready key ∧ w.Overflows o config

/-- A place in which the output can be given: the output file opens there, and the key can be read
back. -/
def Machine.CanGive (w : Machine) (o : DetectOptions) (key file : Text) (place : Path) : Prop :=
  o.outputFile = some file ∧ Action.isKey key = true ∧ w.tree.opened w.cwd file = .ok place

/-- There is one place for the output only. -/
theorem Machine.CanGive.unique {w : Machine} {o : DetectOptions} {key key' file file' : Text}
    {place place' : Path} (h : w.CanGive o key file place) (h' : w.CanGive o key' file' place') :
    file = file' ∧ place = place' := by
  obtain rfl := Option.some.inj (h.1.symm.trans h'.1)
  exact ⟨rfl, Except.ok.inj (h.2.2.symm.trans h'.2.2)⟩

/-- There is none where the output file cannot be opened. -/
theorem Machine.not_canGive_of_error {w : Machine} {o : DetectOptions} {key file file' : Text}
    {place : Path} {e : Files.Cause} (hfile : o.outputFile = some file)
    (hopened : w.tree.opened w.cwd file = .error e) : ¬ w.CanGive o key file' place := by
  rintro ⟨hfile', -, hopened'⟩
  obtain rfl := Option.some.inj (hfile.symm.trans hfile')
  rw [hopened] at hopened'
  exact absurd hopened' (by simp)

/-- **A tree in which the output was given**: as much of the line as the disk lets through stands at the
end of the output file, or all is as before where the output cannot be given. -/
structure Machine.Gives (w : Machine) (o : DetectOptions) (key : Text) (value : Bool)
    (t : Files.Tree) : Prop where
  /-- The line of the key is written. -/
  line (file : Text) (place : Path) : w.CanGive o key file place →
    t = w.tree.addTo place (w.written place (Action.outputParts key value)).bytes
  /-- There is no file to write it to. -/
  kept : (∀ file place, ¬ w.CanGive o key file place) → t = w.tree

/-! ## (2) Finding the files -/

variable {w : Machine} {o : DetectOptions} {config : Config} {files : List Text}
  {sent sent' : List Http.Request} {outcome outcome' : Except PullRequest.Fault (List Text)}
  {result : Except Failure (List Text)}

/-- **The exchange of a check is determined.** -/
theorem Machine.Exchanges.unique (h : w.Exchanges o config sent outcome)
    (h' : w.Exchanges o config sent' outcome') : sent = sent' ∧ outcome = outcome' := by
  obtain ⟨p, client, hp, hclient, hlists⟩ := h
  obtain ⟨p', client', hp', hclient', hlists'⟩ := h'
  obtain rfl := hp.unique hp'
  obtain rfl := Except.ok.inj (hclient.symm.trans hclient')
  exact hlists.unique hlists'

/-- **What comes of looking for the files of a pull request**: the requests that are sent, and the
result. -/
inductive Machine.Finds (w : Machine) (o : DetectOptions) (config : Config) :
    List Http.Request → Except Failure (List Text) → Prop where
  /-- The exchange takes place. -/
  | exchange {sent : List Http.Request} {outcome : Except PullRequest.Fault (List Text)} :
      w.Exchanges o config sent outcome → Finds w o config sent (outcome.mapError .pullRequest)
  /-- There is no pull request. -/
  | nothing : (∀ sent outcome, ¬ w.Exchanges o config sent outcome) → Finds w o config [] (.ok [])
  /-- There is a failure before any request. -/
  | failure {f : Failure} : (∀ sent outcome, ¬ w.Exchanges o config sent outcome) →
      f.overflowed = false → Finds w o config [] (.error f)

namespace Machine.Finds

/-- Requests are those of an exchange. -/
theorem asked (h : w.Finds o config sent result) :
    sent = [] ∨ ∃ outcome, w.Exchanges o config sent outcome := by
  cases h with
  | exchange hexchange => exact .inr ⟨_, hexchange⟩
  | nothing => exact .inl rfl
  | failure => exact .inl rfl

/-- The files of the pull request are found. -/
theorem eq_ok (h : w.Finds o config sent result) (hlists : w.ListsFiles o config files) :
    result = .ok files := by
  obtain ⟨sent', hlists⟩ := hlists
  cases h with
  | exchange hexchange =>
    obtain ⟨-, rfl⟩ := hexchange.unique hlists
    rfl
  | nothing hnever => exact absurd hlists (hnever _ _)
  | failure hnever => exact absurd hlists (hnever _ _)

/-- What is found are the files of the pull request, if there are any. -/
theorem listsFiles (h : w.Finds o config sent (.ok files)) :
    files = [] ∨ w.ListsFiles o config files := by
  generalize hresult : (.ok files : Except Failure (List Text)) = result at h
  cases h with
  | @exchange _ outcome hexchange =>
    cases outcome with
    | error f => exact absurd hresult (by simp [Except.mapError])
    | ok names =>
      obtain rfl := Except.ok.inj hresult
      exact .inr ⟨_, hexchange⟩
  | nothing => exact .inl (Except.ok.inj hresult)
  | failure => exact absurd hresult (by simp)

/-- The failure tells whether the listing overflows. -/
theorem overflowed_iff {f : Failure} (h : w.Finds o config sent (.error f)) :
    f.overflowed = true ↔ w.Overflows o config := by
  generalize hresult : (.error f : Except Failure (List Text)) = result at h
  cases h with
  | @exchange _ outcome hexchange =>
    cases outcome with
    | ok names => exact absurd hresult (by simp [Except.mapError])
    | error fault =>
      obtain rfl := Except.error.inj hresult
      have hfault : (Failure.pullRequest fault).overflowed = true ↔ fault = .request .overflow :=
        beq_iff_eq
      rw [hfault]
      constructor
      · rintro rfl
        exact ⟨_, hexchange⟩
      · rintro ⟨sent', hoverflow⟩
        exact Except.error.inj (hexchange.unique hoverflow).2
  | nothing => exact absurd hresult (by simp)
  | failure hnever hno =>
    obtain rfl := Except.error.inj hresult
    rw [hno]
    exact iff_of_false (by simp) fun ⟨_, hoverflow⟩ => hnever _ _ hoverflow

/-- Where files are found, the listing does not overflow. -/
theorem not_overflows (h : w.Finds o config sent (.ok files)) : ¬ w.Overflows o config := by
  rintro ⟨sent', hoverflow⟩
  generalize hresult : (.ok files : Except Failure (List Text)) = result at h
  cases h with
  | exchange hexchange =>
    obtain ⟨-, rfl⟩ := hexchange.unique hoverflow
    exact absurd hresult (by simp [Except.mapError])
  | nothing hnever => exact hnever _ _ hoverflow
  | failure => exact absurd hresult (by simp)

/-- A report on the files that are found says that something changed exactly if the settings confirm the
options. -/
theorem changed_iff_confirms [Glob.Engine] (h : w.Finds o config sent (.ok files)) {patterns : Text}
    {rules : RuleSet} (hpatterns : o.patterns = some patterns) (hblank : Text.blank patterns = false)
    (hrules : RuleSet.ofText patterns = .ok rules) :
    (Report.of rules files).changed = true ↔ w.Confirms o config := by
  rw [Report.of, RuleSet.includesAny, List.any_eq_true]
  constructor
  · rintro ⟨file, hfile, hincluded⟩
    rcases h.listsFiles with rfl | hlists
    · exact absurd hfile (by simp)
    · exact ⟨patterns, rules, files, hpatterns, hblank, hrules, hlists, file, hfile, hincluded⟩
  · rintro ⟨patterns', rules', files', hpatterns', -, hrules', hlists, hfile⟩
    obtain rfl := Option.some.inj (hpatterns.symm.trans hpatterns')
    obtain rfl := Except.ok.inj (hrules.symm.trans hrules')
    obtain rfl := Except.ok.inj (h.eq_ok hlists)
    exact hfile

end Machine.Finds

namespace Program

variable (w : Machine) (i : Invocation) (o : DetectOptions) (config : Config) (key : Text)

/-- **Listing files** sends the requests of the exchange, if any, and writes on standard error. What was
written there before does not matter. -/
theorem pullRequestFiles_apply (before : Text) :
    ∃ errors sent result, w.Finds o config sent result ∧
      (pullRequestFiles o config : Session _) { w with errors := before } =
        (result, { w with errors := errors, requests := w.requests ++ sent }) := by
  obtain ⟨first, found, hfound, hresolves, hrefuses⟩ :=
    Runner.pullRequest_apply (Runner.ofVariables w.valueOf) { w with errors := before }
  have hrunner : (Runner.ofHost : Session _) { w with errors := before } =
      (Runner.ofVariables w.valueOf, { w with errors := before }) := Runner.ofHost_apply _
  rw [pullRequestFiles, Session.bind_apply, hrunner, Session.bind_apply, hfound]
  dsimp only
  -- without a pull request there is no exchange
  have hnever : (∀ p, found ≠ .ok (some p)) → ∀ sent outcome, ¬ w.Exchanges o config sent outcome := by
    rintro hnone sent outcome ⟨p, -, hp, -⟩
    exact hnone p ((hresolves p).mpr hp)
  cases found with
  | error f =>
    have hfault : (Failure.pullRequest f).overflowed = false := by
      obtain ⟨-, path, -, -, ⟨cause, -, rfl⟩ | ⟨content, fault, -, -, rfl⟩⟩ := (hrefuses f).mp rfl
      · rfl
      · rfl
    exact ⟨first, [], _, .failure (hnever (by simp)) hfault, by rw [List.append_nil]; rfl⟩
  | ok found =>
    cases found with
    | none =>
      obtain ⟨errors, hlog⟩ := Host.log_apply { w with errors := first } ⟨.info, .detect,
        "no pull request context; treating change list as empty".toList, []⟩
      refine ⟨errors, [], _, .nothing (hnever (by simp)), ?_⟩
      simp only [Session.bind_apply, hlog, Session.pure_apply, List.append_nil]
    | some p =>
      have hp : (Runner.ofVariables w.valueOf).Resolves w p := (hresolves p).mp rfl
      dsimp only
      cases hclient : Client.of config.server (effectiveAddress o.address config) with
      | error f =>
        have hfault : (Failure.pullRequest (.request f)).overflowed = false := by
          rw [Client.fault_of hclient]
          rfl
        refine ⟨first, [], _, .failure ?_ hfault, by rw [List.append_nil]; rfl⟩
        rintro sent outcome ⟨-, client, -, hclient', -⟩
        rw [hclient] at hclient'
        exact absurd hclient' (by simp)
      | ok client =>
        obtain ⟨errors, sent, outcome, hlists, hrun⟩ :=
          Client.files_apply client p { w with errors := first }
        refine ⟨errors, sent, _, .exchange ⟨p, client, hp, hclient, hlists⟩, ?_⟩
        simp only [Session.bind_apply, hrun]
        cases outcome <;> rfl

/-! ## (3) The steps of the check -/

/-- What has to be known is known when the key is one, there are patterns that are not blank, and
there is an output file. -/
theorem prerequisites_eq_ok {patterns file : Text} :
    prerequisites o key = .ok (patterns, file) ↔
      Action.isKey key = true ∧ (o.patterns = some patterns ∧ Text.blank patterns = false) ∧
        o.outputFile = some file := by
  rw [← PullRequest.nonBlank_eq_some, Action.isKey]
  unfold prerequisites
  cases Action.keyFault? key with
  | some f => simp
  | none =>
    cases PullRequest.nonBlank o.patterns with
    | none => simp
    | some t =>
      cases o.outputFile with
      | none => simp
      | some given => simp

/-- What has to be known is missing for a reason that is no overflow. -/
theorem overflowed_of_prerequisites {f : Failure} (h : prerequisites o key = .error f) :
    f.overflowed = false := by
  unfold prerequisites at h
  split at h
  · rw [← Except.error.inj h]
    rfl
  split at h
  · rw [← Except.error.inj h]
    rfl
  split at h
  · rw [← Except.error.inj h]
    rfl
  · exact absurd h (by simp)

/-- A check that is ready compiles its patterns, and goes on with the files of the pull request. -/
theorem check_of_ready [Glob.Engine] {patterns file : Text} {rules : RuleSet} (format : Format)
    (hready : prerequisites o key = .ok (patterns, file))
    (hrules : RuleSet.ofText patterns = .ok rules) :
    (check format o config key : Session _) w =
      ((do
        match ← pullRequestFiles o config with
        | .error f => pure (.error f)
        | .ok files => conclude format file key (Report.of rules files)) : Session _)
      { w with errors := w.errors ++ w.shown (rulesEvents rules) } := by
  rw [check, hready]
  dsimp only
  rewrite [Session.bind_apply, compile_ok_apply w hrules]
  rfl

/-- Concluding prints the report, and fails if the output file cannot be opened. -/
theorem conclude_of_error {file : Text} {e : Files.Cause} (h : w.tree.opened w.cwd file = .error e)
    (format : Format) (r : Report) :
    (conclude format file key r : Session _) w = (.error (.file file e.message),
      { w with output := w.output ++ reportText format w.coloring r }) := by
  have happend := Action.appendOutput_of_error
    (w := { w with output := w.output ++ reportText format w.coloring r }) h key r.changed
  rw [conclude, Session.bind_apply, printReport_apply, Session.bind_apply, happend]
  rfl

/-- **Concluding prints the report and gives the output**; it fails if the disk stops the line. -/
theorem conclude_of_opened {file : Text} {place : Path} (h : w.tree.opened w.cwd file = .ok place)
    (format : Format) (r : Report) :
    ∃ errors, (conclude format file key r : Session _) w =
      ((w.written place (Action.outputParts key r.changed)).fault.elim (.ok ())
          fun e => .error (.file file e.message),
        { w.afterWriting place (Action.outputParts key r.changed) with
          output := w.output ++ reportText format w.coloring r, errors := errors }) := by
  obtain ⟨errors, happend⟩ := Action.appendOutput_of_opened
    (w := { w with output := w.output ++ reportText format w.coloring r }) h key r.changed
  refine ⟨errors, ?_⟩
  rw [conclude, Session.bind_apply, printReport_apply, Session.bind_apply, happend]
  have hwritten : Machine.written { w with output := w.output ++ reportText format w.coloring r } place
      (Action.outputParts key r.changed) = w.written place (Action.outputParts key r.changed) := rfl
  dsimp only
  rw [hwritten]
  cases (w.written place (Action.outputParts key r.changed)).fault <;> rfl

/-- **The check concludes with a report or fails before.** In the one case the report says that
something changed exactly if the settings confirm the options; in the other they do not confirm
them. Requests are only sent once the options are ready, and only then the listing can overflow. -/
theorem check_cases [Glob.Engine] (format : Format) :
    ∃ errors sent,
      (sent = [] ∨ o.Ready key ∧ ∃ outcome, w.Exchanges o config sent outcome) ∧
      ((∃ file r, Action.isKey key = true ∧ o.outputFile = some file ∧
        (r.changed = true ↔ w.Confirms o config) ∧ ¬ w.Overflows o config ∧
        (check format o config key : Session _) w = (conclude format file key r : Session _)
          { w with errors := errors, requests := w.requests ++ sent }) ∨
      ∃ f, (Action.isKey key = true → o.outputFile ≠ none → ¬ w.Confirms o config) ∧
        (f.overflowed = true ↔ o.Ready key ∧ w.Overflows o config) ∧
        (check format o config key : Session _) w =
          (.error f, { w with errors := errors, requests := w.requests ++ sent })) := by
  cases hready : prerequisites o key with
  | error f =>
    -- something is missing, so nothing is compiled and nothing is asked for
    have hunready : ¬ o.Ready key := by
      rintro ⟨patterns, file, rules, hready', -⟩
      rw [hready] at hready'
      exact absurd hready' (by simp)
    refine ⟨w.errors, [], .inl rfl,
      .inr ⟨f, ?_, ?_, by simp only [check, hready, List.append_nil]; rfl⟩⟩
    · rintro hkey hfile ⟨patterns, rules, files, hpatterns, hblank, -⟩
      obtain ⟨file, hfile⟩ := Option.ne_none_iff_exists'.mp hfile
      rw [(prerequisites_eq_ok o key).mpr ⟨hkey, ⟨hpatterns, hblank⟩, hfile⟩] at hready
      exact absurd hready (by simp)
    · rw [overflowed_of_prerequisites o key hready]
      exact iff_of_false (by simp) fun h => hunready h.1
  | ok known =>
    obtain ⟨patterns, file⟩ := known
    obtain ⟨hkey, ⟨hpatterns, hblank⟩, hfile⟩ := (prerequisites_eq_ok o key).mp hready
    obtain ⟨first, hcompile⟩ := compile_apply w patterns
    simp only [check, hready, Session.bind_apply, hcompile]
    cases hrules : RuleSet.ofText patterns with
    | error e =>
      refine ⟨first, [], .inl rfl, .inr ⟨.pattern e, ?_, ?_, by simp only [List.append_nil]; rfl⟩⟩
      · rintro - - ⟨patterns', rules', files', hpatterns', -, hrules', -⟩
        obtain rfl := Option.some.inj (hpatterns.symm.trans hpatterns')
        rw [hrules] at hrules'
        exact absurd hrules' (by simp)
      · refine iff_of_false (by simp [Failure.pattern]) ?_
        rintro ⟨⟨patterns', file', rules', hready', hrules'⟩, -⟩
        obtain ⟨rfl, -⟩ := Prod.mk.inj (Except.ok.inj (hready.symm.trans hready'))
        rw [hrules] at hrules'
        exact absurd hrules' (by simp)
    | ok rules =>
      have hisReady : o.Ready key := ⟨patterns, file, rules, hready, hrules⟩
      obtain ⟨errors, sent, result, hfinds, hrun⟩ := pullRequestFiles_apply w o config first
      have hcompiled : (Except.ok rules).mapError Failure.pattern = .ok rules := rfl
      simp only [hcompiled, Session.bind_apply, hrun]
      refine ⟨errors, sent, hfinds.asked.imp_right fun h => ⟨hisReady, h⟩, ?_⟩
      cases result with
      | error f =>
        refine .inr ⟨f, ?_, ?_, rfl⟩
        · rintro - - ⟨patterns', rules', files, -, -, -, hlists, -⟩
          exact absurd (hfinds.eq_ok hlists) (by simp)
        · rw [hfinds.overflowed_iff]
          exact (and_iff_right hisReady).symm
      | ok files =>
        exact .inl ⟨file, Report.of rules files, hkey, hfile,
          hfinds.changed_iff_confirms hpatterns hblank hrules, hfinds.not_overflows, rfl⟩

/-! ## (4) The attempt and the fallback -/

/-- There are no other settings than those that were found, so the verdict is up to these. -/
theorem affirms_iff_confirms [Glob.Engine] {config : Config} {ε : Type}
    (hsettings : ∀ c, (.ok config : Except ε Config) = .ok c ↔ w.Configured i.config c) :
    w.Affirms i o ↔ w.Confirms o config := by
  constructor
  · rintro ⟨config', hconfigured, hconfirms⟩
    obtain rfl := Except.ok.inj ((hsettings config').mpr hconfigured)
    exact hconfirms
  · intro hconfirms
    exact ⟨config, (hsettings config).mp rfl, hconfirms⟩

/-- There is no other output key either, so an overflow is up to these settings and this key. -/
theorem outgrows_iff [Glob.Engine] {config : Config} {ε : Type}
    (hsettings : ∀ c, (.ok config : Except ε Config) = .ok c ↔ w.Configured i.config c)
    (hkeys : ∀ k, w.UsesKey i o k ↔ k = key) :
    w.Outgrows i o ↔ o.Ready key ∧ w.Overflows o config := by
  constructor
  · rintro ⟨config', key', hconfigured, hkey, hready, hoverflows⟩
    obtain rfl := Except.ok.inj ((hsettings config').mpr hconfigured)
    obtain rfl := (hkeys key').mp hkey
    exact ⟨hready, hoverflows⟩
  · rintro ⟨hready, hoverflows⟩
    exact ⟨config, key, (hsettings config).mp rfl, (hkeys key).mpr rfl, hready, hoverflows⟩

/-- **An attempt gives the output or fails before.** In the one case the line with the verdict is written,
which is `true` exactly if the machine affirms the invocation, and the attempt fails if the disk stops it.
In the other case the file tree is as before, and the machine does not affirm the invocation where the
output can still be given. -/
theorem attempt_cases [Glob.Engine] :
    ∃ key, (∀ k, w.UsesKey i o k ↔ k = key) ∧ ∃ output errors sent,
      (∃ file place b, w.CanGive o key file place ∧ (b = true ↔ w.Affirms i o) ∧ ¬ w.Outgrows i o ∧
        (attempt i o : Session _) w =
          ((key, (w.written place (Action.outputParts key b)).fault.elim (.ok ())
              fun e => .error (.file file e.message)),
            { w.afterWriting place (Action.outputParts key b) with
              output := output, errors := errors, requests := w.requests ++ sent })) ∨
      ∃ f, (∀ file place, w.CanGive o key file place → ¬ w.Affirms i o) ∧
        (f.overflowed = true ↔ w.Outgrows i o) ∧
        (attempt i o : Session _) w = ((key, .error f),
          { w with output := output, errors := errors, requests := w.requests ++ sent }) := by
  obtain ⟨first, result, hconfig, hsettings, hno⟩ := configFor_apply w i.config
  have hkeys (k : Text) : w.UsesKey i o k ↔ k = effectiveKey o.outputKey result :=
    Machine.usesKey_iff hsettings
  refine ⟨effectiveKey o.outputKey result, hkeys, ?_⟩
  simp only [attempt, Session.bind_apply, hconfig]
  cases result with
  | error f =>
    refine ⟨w.output, first, [], .inr ⟨f, ?_, ?_, by simp only [List.append_nil]; rfl⟩⟩
    · rintro file place - ⟨config, hconfigured, -⟩
      exact absurd ((hsettings config).mpr hconfigured) (by simp)
    · rw [hno f rfl]
      refine iff_of_false (by simp) ?_
      rintro ⟨config, -, hconfigured, -⟩
      exact absurd ((hsettings config).mpr hconfigured) (by simp)
  | ok config =>
    rw [affirms_iff_confirms w i o hsettings, outgrows_iff w i o _ hsettings hkeys]
    simp only [Session.bind_apply, Session.pure_apply]
    generalize effectiveKey o.outputKey (.ok config) = key
    obtain ⟨second, sent, -,
        ⟨file, r, hkey, hfile, hchanged, hfits, hcheck⟩ | ⟨f, hfails, hoverflow, hcheck⟩⟩ :=
      check_cases { w with errors := first } o config key i.format
    · -- the report is there, and the output file opens or does not
      rw [hcheck]
      cases hopened : w.tree.opened w.cwd file with
      | error e =>
        have hconclude := conclude_of_error
          { w with errors := second, requests := w.requests ++ sent } key hopened i.format r
        refine ⟨_, second, sent, .inr ⟨.file file e.message, ?_, ?_, by rw [hconclude]⟩⟩
        · exact fun file' place hgive => absurd hgive (Machine.not_canGive_of_error hfile hopened)
        · exact iff_of_false (by simp [Failure.file]) fun h => hfits h.2
      | ok place =>
        obtain ⟨errors, hconclude⟩ := conclude_of_opened
          { w with errors := second, requests := w.requests ++ sent } key hopened i.format r
        exact ⟨_, errors, sent, .inl ⟨file, place, r.changed, ⟨hfile, hkey, hopened⟩, hchanged,
          fun h => hfits h.2, by rw [hconclude]; rfl⟩⟩
    · rw [hcheck]
      refine ⟨w.output, second, sent, .inr ⟨f, ?_, hoverflow, rfl⟩⟩
      rintro file place ⟨hfile, hkey, -⟩
      exact hfails hkey (by rw [hfile]; simp)

/-- The output was given where its line was written. -/
theorem gives_afterWriting {file : Text} {place : Path} {value : Bool}
    (h : w.CanGive o key file place) :
    w.Gives o key value (w.afterWriting place (Action.outputParts key value)).tree where
  line file' place' h' := by
    obtain ⟨rfl, rfl⟩ := h.unique h'
    rfl
  kept hnever := absurd h (hnever file place)

/-- **Forgiving a failure** gives the output `false` where it can be given. -/
theorem forgive_apply (f : Failure) :
    ∃ t writes errors, w.Gives o key false t ∧
      (forgive o key f : Session _) w =
        ((), { w with tree := t, writes := writes, errors := errors }) := by
  simp only [forgive, Session.bind_apply, Host.complain_apply]
  cases hfile : o.outputFile with
  | none =>
    refine ⟨w.tree, w.writes, _, ⟨?_, fun _ => rfl⟩, rfl⟩
    rintro file place ⟨hfile', -, -⟩
    exact absurd (hfile.symm.trans hfile') (by simp)
  | some file =>
    dsimp only
    cases hkey : Action.isKey key with
    | false =>
      refine ⟨w.tree, w.writes, _, ⟨?_, fun _ => rfl⟩, rfl⟩
      rintro file' place ⟨-, hkey', -⟩
      exact absurd (hkey.symm.trans hkey') (by simp)
    | true =>
      simp only [if_true, Session.bind_apply]
      generalize w.errors ++ ("pathgate: error: ".toList ++ f.full ++ ['\n']) = first
      cases hopened : w.tree.opened w.cwd file with
      | error e =>
        have happend := Action.appendOutput_of_error (w := { w with errors := first }) hopened key false
        refine ⟨w.tree, w.writes, _, ⟨?_, fun _ => rfl⟩, by rw [happend]; rfl⟩
        exact fun file' place hgive => absurd hgive (Machine.not_canGive_of_error hfile hopened)
      | ok place =>
        obtain ⟨errors, happend⟩ :=
          Action.appendOutput_of_opened (w := { w with errors := first }) hopened key false
        rw [happend]
        have hgives : w.Gives o key false (w.afterWriting place (Action.outputParts key false)).tree :=
          gives_afterWriting w o key ⟨hfile, hkey, hopened⟩
        cases (Machine.written { w with errors := first } place (Action.outputParts key false)).fault with
        | none => exact ⟨_, _, _, hgives, rfl⟩
        | some e => exact ⟨_, _, _, hgives, rfl⟩

/-! ## (5) What follows an attempt -/

section Follow

variable {w i o} [Glob.Engine]

/-- After an attempt that ends well nothing is left to do. -/
theorem detect_of_ok {key : Text} {w' : Machine}
    (h : (attempt i o : Session _) w = ((key, .ok ()), w')) :
    (detect i o : Session _) w = (.ok .success, w') := by
  simp only [detect, Session.bind_apply, h, Session.pure_apply]

/-- An overflow ends the check, strict or not. -/
theorem detect_of_overflow {key : Text} {f : Failure} {w' : Machine}
    (h : (attempt i o : Session _) w = ((key, .error f), w')) (hoverflow : f.overflowed = true) :
    (detect i o : Session _) w = (.ok .overflow, w') := by
  simp only [detect, Session.bind_apply, h, if_pos hoverflow, Session.pure_apply]

/-- A strict check ends with the failure of the attempt, and does nothing more. -/
theorem detect_of_strict {key : Text} {f : Failure} {w' : Machine}
    (h : (attempt i o : Session _) w = ((key, .error f), w')) (hfits : f.overflowed = false)
    (hstrict : o.strict = true) : (detect i o : Session _) w = (.error f, w') := by
  simp only [detect, Session.bind_apply, h, hfits, Bool.false_eq_true, if_false, if_pos hstrict,
    Session.pure_apply]

/-- A check that forgives failures goes on where the attempt has failed. -/
theorem detect_of_lenient {key : Text} {f : Failure} {w' : Machine}
    (h : (attempt i o : Session _) w = ((key, .error f), w')) (hfits : f.overflowed = false)
    (hlenient : o.strict = false) :
    (detect i o : Session _) w = (.ok .success, ((forgive o key f : Session _) w').2) := by
  simp only [detect, Session.bind_apply, h, hfits, hlenient, Bool.false_eq_true, if_false,
    Session.pure_apply]

/-- **A check that is outgrown** is broken off with a status of its own, and no file is touched. -/
theorem detect_of_outgrows (h : w.Outgrows i o) :
    ∃ output errors sent, (detect i o : Session _) w = (.ok .overflow,
      { w with output := output, errors := errors, requests := w.requests ++ sent }) := by
  obtain ⟨key, -, output, errors, sent, ⟨-, -, -, -, -, hfits, -⟩ | ⟨f, -, hoverflow, hattempt⟩⟩ :=
    attempt_cases w i o
  · exact absurd h hfits
  · exact ⟨output, errors, sent, detect_of_overflow hattempt (hoverflow.mpr h)⟩

end Follow

end Program

end ChangeGate
