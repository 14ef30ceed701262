import ChangeGate.Proofs.Config.Range
import ChangeGate.Proofs.Program.Verdict

/-! # Checks with settings that were accepted

The settings of a run are in range (`Machine.Configured.inRange`), so their output key can be read back, and
their client takes them as they are. All that they can spoil is the client itself: a check that is ready
otherwise reaches the listing exactly if a header can hold the name of the client
(**`attempt_of_configured`**), and a name with a line break is accepted all the same
(`run_differs_of_lineBreak`). -/

namespace ChangeGate

open CommandLine (Invocation DetectOptions Format)
open PullRequest (Client Runner)

/-- **All but the settings is ready** for the check of a pull request: the patterns are not blank and can be
compiled, the output file is known, the key is left to the settings, and the event is about the pull
request. -/
structure Machine.ReadyFor [Glob.Engine] (w : Machine) (o : DetectOptions) (rules : RuleSet)
    (file : Text) (p : PullRequest) : Prop where
  patterns : ∃ patterns, o.patterns = some patterns ∧ Text.blank patterns = false ∧
    RuleSet.ofText patterns = .ok rules
  file : o.outputFile = some file
  key : o.outputKey = none
  resolves : (Runner.ofVariables w.valueOf).Resolves w p

/-- **The settings of a run are in range.** -/
theorem Machine.Configured.inRange {w : Machine} {given : Option Text} {c : Config}
    (h : w.Configured given c) : c.InRange := by
  unfold Machine.Configured at h
  cases hpath : w.configPath given with
  | none =>
    rw [hpath] at h
    rw [h]
    exact Config.inRange_default
  | some path =>
    rw [hpath] at h
    obtain ⟨content, -, hcontent⟩ := h
    exact Config.inRange_of_ofText hcontent

namespace Program

section

variable [Glob.Engine]

/-- What is left of a check once there is a client: the files of the pull request are listed, and the
report on them is concluded. -/
def listAndConclude {m : Type → Type} [Monad m] [Host m] (format : Format) (file key : Text)
    (rules : RuleSet) (client : Client) (p : PullRequest) : m (Except Failure Unit) := do
  match ← client.files p with
  | .error f => pure (.error (.pullRequest f))
  | .ok files => conclude format file key (Report.of rules files)

variable {w : Machine} {i : Invocation} {o : DetectOptions} {c : Config} {rules : RuleSet}
  {file : Text} {p : PullRequest}

/-- **A check that is ready but for its settings** lists the files of the pull request with the client of
these settings, or fails without a request if there is no such client. -/
theorem check_of_readyFor (hready : w.ReadyFor o rules file p) (hkey : Action.isKey c.key = true)
    (format : Format) :
    ∃ errors, (check format o c c.key : Session _) w =
      match Client.of c.server (effectiveAddress o.address c) with
      | .error f => (.error (.pullRequest (.request f)), { w with errors := errors })
      | .ok client => (listAndConclude format file c.key rules client p : Session _)
          { w with errors := errors } := by
  obtain ⟨⟨patterns, hpatterns, hblank, hrules⟩, hfile, -, hresolves⟩ := hready
  have hprerequisites := (prerequisites_eq_ok o c.key).mpr ⟨hkey, ⟨hpatterns, hblank⟩, hfile⟩
  rw [check_of_ready w o c c.key format hprerequisites hrules]
  generalize w.errors ++ w.shown (rulesEvents rules) = first
  obtain ⟨errors, found, hfound, hiff, -⟩ :=
    Runner.pullRequest_apply (Runner.ofVariables w.valueOf) { w with errors := first }
  -- what compiling has written on standard error does not matter for the event
  obtain rfl : found = .ok (some p) := (hiff p).mpr hresolves
  have hrunner : (Runner.ofHost : Session _) { w with errors := first } =
      (Runner.ofVariables w.valueOf, { w with errors := first }) := Runner.ofHost_apply _
  refine ⟨errors, ?_⟩
  rw [Session.bind_apply, pullRequestFiles, Session.bind_apply, hrunner]
  dsimp only
  rw [Session.bind_apply, hfound]
  dsimp only
  cases Client.of c.server (effectiveAddress o.address c) with
  | error f => rfl
  | ok client =>
    dsimp only
    rw [Session.bind_apply, listAndConclude, Session.bind_apply]
    cases ((client.files p : Session _) { w with errors := errors }).1 <;> rfl

/-- **With the settings of a run, the attempt of a check that is ready** reaches the listing with a client
that takes these settings as they are, or fails without a request if no header can hold the name of the
client. -/
theorem attempt_of_configured (hconfigured : w.Configured i.config c)
    (hready : w.ReadyFor o rules file p) :
    ∃ errors, (attempt i o : Session _) w =
      if Http.isHeaderValue c.server.userAgent then
        ((do
          let result ← listAndConclude i.format file c.key rules
            ⟨Client.withoutSlashes (effectiveAddress o.address c), c.server.pageSize,
              c.server.userAgent⟩ p
          pure (c.key, result)) : Session _) { w with errors := errors }
      else ((c.key, .error (.pullRequest (.request .header))), { w with errors := errors }) := by
  have hrange : c.InRange := hconfigured.inRange
  obtain ⟨first, found, hfound, hsettings, -⟩ := configFor_apply w i.config
  obtain rfl := (hsettings c).mpr hconfigured
  -- looking for the settings has only written on standard error
  have hready' : Machine.ReadyFor { w with errors := first } o rules file p :=
    ⟨hready.patterns, hready.file, hready.key, hready.resolves⟩
  obtain ⟨errors, hcheck⟩ := check_of_readyFor hready' hrange.isKey i.format
  rw [Client.of_inRange hrange] at hcheck
  have hkey : effectiveKey o.outputKey (.ok c) = c.key := by
    rw [hready.key]
    rfl
  refine ⟨errors, ?_⟩
  rw [attempt, Session.bind_apply, hfound]
  dsimp only
  rewrite [hkey, Session.bind_apply, hcheck]
  by_cases hheader : Http.isHeaderValue c.server.userAgent = true
  · rewrite [if_pos hheader, if_pos hheader, Session.bind_apply]
    rfl
  · rewrite [if_neg hheader, if_neg hheader]
    rfl

/-- **Accepted settings keep a check from nothing but the listing, and that only by the name of the client.**
The output key can be read back, and for every address there is a client that takes the size of the pages
and its name from the settings, if a header can hold the name. A check that is ready but for its settings
then lists the files and concludes. If no header can hold the name, there is no client for any address, and
the check fails without a request. -/
theorem attempt_of_ofText {t : Text} (h : Config.ofText t = .ok c) :
    Action.isKey c.key = true ∧
    (∀ address, Client.of c.server address =
      if Http.isHeaderValue c.server.userAgent then
        .ok ⟨Client.withoutSlashes address, c.server.pageSize, c.server.userAgent⟩
      else .error .header) ∧
    ∀ w i o rules file p, Machine.Configured w i.config c → w.ReadyFor o rules file p →
      ∃ errors, (attempt i o : Session _) w =
        if Http.isHeaderValue c.server.userAgent then
          ((do
            let result ← listAndConclude i.format file c.key rules
              ⟨Client.withoutSlashes (effectiveAddress o.address c), c.server.pageSize,
                c.server.userAgent⟩ p
            pure (c.key, result)) : Session _) { w with errors := errors }
        else ((c.key, .error (.pullRequest (.request .header))), { w with errors := errors }) := by
  have hrange : c.InRange := Config.inRange_of_ofText h
  refine ⟨hrange.isKey, Client.of_inRange hrange, ?_⟩
  intro w i o rules file p hconfigured hready
  exact attempt_of_configured hconfigured hready

end

/-- The workflow of a changed document, with a configuration file. -/
def configuredWorkflow (t : Text) : Machine :=
  { documentWorkflow with
    tree := documentWorkflow.tree.insert ["pathgate.toml".toList] (.file (Text.encode t) false) }

/-- The text of a configuration that gives a setting for each range. -/
def gateText : Text :=
  "version = 1\n[github]\nper_page = 7\nuser_agent = \"gate\"\n[output]\nkey = \"docs\"\n".toList

/-- The settings that this text gives. -/
def gateConfig : Config := ⟨1, ⟨none, 7, "gate".toList, 30⟩, "docs".toList⟩

/-- With these settings the workflow lists its files, seven on a page. -/
theorem attempt_of_ofText_gate :
    Config.ofText gateText = .ok gateConfig ∧
    Client.of gateConfig.server "https://h/".toList = .ok ⟨"https://h".toList, 7, "gate".toList⟩ ∧
    (configuredWorkflow gateText).Configured none gateConfig ∧
    ∃ rules, (configuredWorkflow gateText).ReadyFor documentOptions rules "/out".toList
        documentPullRequest ∧
      ∃ errors, (attempt ⟨none, .text, some (.detect documentOptions)⟩ documentOptions : Session _)
          (configuredWorkflow gateText) =
        ((do
          let result ← listAndConclude .text "/out".toList "docs".toList rules
            ⟨"https://api.github.com".toList, 7, "gate".toList⟩ documentPullRequest
          pure ("docs".toList, result)) : Session _)
        { configuredWorkflow gateText with errors := errors } := by
  have htext : Config.ofText gateText = .ok gateConfig := by decide +kernel
  have hconfigured : (configuredWorkflow gateText).Configured none gateConfig := by
    have hpath : (configuredWorkflow gateText).configPath none = some "/pathgate.toml".toList := by
      decide +kernel
    unfold Machine.Configured
    rw [hpath]
    exact ⟨gateText, by decide +kernel, htext⟩
  obtain ⟨rules, hrules⟩ : ∃ rules, RuleSet.ofText "- '*.md'".toList = .ok rules := ⟨_, rfl⟩
  have hready : (configuredWorkflow gateText).ReadyFor documentOptions rules "/out".toList
      documentPullRequest :=
    { patterns := ⟨_, rfl, by decide, hrules⟩
      file := rfl
      key := rfl
      resolves := ⟨by decide, "/event".toList, _, 7, by decide, by decide +kernel, rfl, rfl, by decide⟩ }
  obtain ⟨-, hclient, hattempt⟩ := attempt_of_ofText htext
  refine ⟨htext, hclient "https://h/".toList, hconfigured, rules, hready, ?_⟩
  exact hattempt _ ⟨none, .text, some (.detect documentOptions)⟩ _ _ _ _ hconfigured hready

/-- The text of a configuration whose name of the client ends in a line break. -/
def lineBreakText : Text := "version = 1\n[github]\nuser_agent = \"pathgate\\n\"\n".toList

/-- **A name with a line break is accepted**, but there is no client of that name: nothing is asked for, and
the output says that nothing changed. Without the line break the change is found. -/
theorem run_differs_of_lineBreak :
    (∃ c, Config.ofText lineBreakText = .ok c ∧
      Client.of c.server "https://api.github.com".toList = .error .header) ∧
    ((run ["detect".toList] : Session ExitStatus) (configuredWorkflow lineBreakText)).2.requests = [] ∧
    ((run ["detect".toList] : Session ExitStatus)
        (configuredWorkflow lineBreakText)).2.tree.read [] "/out".toList =
      .ok (Text.encode "a=b\nchanged=false\n".toList) ∧
    ((run ["detect".toList] : Session ExitStatus) (configuredWorkflow
        "version = 1\n[github]\nuser_agent = \"pathgate\"\n".toList)).2.tree.read [] "/out".toList =
      .ok (Text.encode "a=b\nchanged=true\n".toList) := by
  refine ⟨⟨⟨1, ⟨none, 100, "pathgate\n".toList, 30⟩, "changed".toList⟩, ?_, ?_⟩, ?_, ?_, ?_⟩
  all_goals decide +kernel

end Program

end ChangeGate
