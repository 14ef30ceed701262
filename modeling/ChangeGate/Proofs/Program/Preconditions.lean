import ChangeGate.Proofs.Program.Blindness
import ChangeGate.Proofs.Program.Verdict
import ChangeGate.Proofs.PullRequest.Trigger

/-! # What has to be settled before a request

A check is **prepared** when its settings, its output key, its patterns and its output file are in order,
and it is **triggered by** a pull request when the workflow tells which one it is about. Without both no
request is sent, and all requests are made for that pull request (**`run_requests_prepared`**), which they
name if its owner and its repository are plain. A check that is prepared, but not about any pull request,
reports no files and gives the output `false` (`attempt_of_none`). -/

namespace ChangeGate

open CommandLine (Invocation DetectOptions)
open PullRequest (Client Runner)

/-! ## (1) Preconditions -/

/-- **A machine is prepared** for a check with an output key and an output file: the configuration can be
read or is absent, the key is the one of the run and can be read back, the patterns are not blank and can
be compiled, and the output file is known. -/
structure Machine.Prepared [Glob.Engine] (w : Machine) (i : Invocation) (o : DetectOptions)
    (key file : Text) : Prop where
  configured : ∃ config, w.Configured i.config config
  usesKey : w.UsesKey i o key
  isKey : Action.isKey key = true
  patterns : ∃ patterns rules, o.patterns = some patterns ∧ Text.blank patterns = false ∧
    RuleSet.ofText patterns = .ok rules
  file : o.outputFile = some file

/-- **A workflow is triggered by a pull request**: the event is about one, the payload has its number,
which is above zero, and its owner, its repository and a token are known. -/
structure Machine.TriggeredBy (w : Machine) (p : PullRequest) : Prop where
  event : ∃ name ∈ PullRequest.pullRequestEvents, w.valueOf "GITHUB_EVENT_NAME".toList = some name
  payload : ∃ path content, w.valueOf "GITHUB_EVENT_PATH".toList = some path ∧
    w.tree.readText w.cwd path = .ok content ∧
    PullRequest.payloadNumber content = .ok (some p.number)
  number : 0 < p.number
  repository : ∃ name rest, w.valueOf "GITHUB_REPOSITORY".toList = some name ∧
    Text.pieces '/' name = p.owner :: p.repository :: rest
  owner_ne : p.owner ≠ []
  repository_ne : p.repository ≠ []
  token : ∃ name ∈ PullRequest.tokenVariables, w.valueOf name = some p.token
  token_ne : p.token ≠ []

/-- **The requests of a run that is prepared and triggered by a pull request**: they are made for this pull
request by the client of the settings. -/
structure Machine.Asks [Glob.Engine] (w : Machine) (i : Invocation) (o : DetectOptions)
    (p : PullRequest) (client : Client) (sent : List Http.Request) : Prop where
  prepared : ∃ key file, w.Prepared i o key file
  triggered : w.TriggeredBy p
  settings : ∃ config, w.Configured i.config config ∧
    Client.of config.server (Program.effectiveAddress o.address config) = .ok client
  requests : ∀ r ∈ sent, ∃ page, client.request p page = .ok r

/-! ## (2) The pull request behind the event -/

namespace PullRequest

/-- What a workflow is about has triggered it. -/
theorem triggeredBy_of_isAbout {w : Machine} {p : PullRequest} (h : w.IsAbout p) : w.TriggeredBy p := by
  obtain ⟨path, content, hpayload, hcontent, hread⟩ := h.payload
  obtain ⟨name, ⟨hname, -⟩, hstarts⟩ := h.repository
  obtain ⟨rest, hpieces⟩ := startsName_iff.mp hstarts
  obtain ⟨before, source, after, hsources, ⟨htoken, hblank⟩, -⟩ := h.token
  have hsource : source ∈ tokenVariables := by
    rw [Runner.tokenVariables_eq, hsources]
    exact List.mem_append_right before List.mem_cons_self
  exact
    { event := by
        rcases hpayload.event with ⟨hevent, -⟩ | ⟨hevent, -⟩
        · exact ⟨_, List.mem_cons_self, hevent⟩
        · exact ⟨_, List.mem_cons_of_mem _ List.mem_cons_self, hevent⟩
      payload := ⟨path, content, hpayload.told.1, hcontent,
        payloadNumber_eq_some.mpr ⟨hread, h.number⟩⟩
      number := h.number
      repository := ⟨name, rest, hname, hpieces⟩
      owner_ne := h.owner_ne
      repository_ne := h.repository_ne
      token := ⟨source, hsource, htoken⟩
      token_ne := by
        intro hnil
        rw [hnil] at hblank
        exact absurd hblank (by decide) }

/-- **The pull request behind the event triggers the workflow.** -/
theorem Runner.Resolves.triggeredBy {w : Machine} {p : PullRequest}
    (h : (Runner.ofVariables w.valueOf).Resolves w p) : w.TriggeredBy p :=
  triggeredBy_of_isAbout (Runner.resolves_iff.mp h)

end PullRequest

namespace Program

variable {w : Machine} {i : Invocation} {o : DetectOptions}

/-! ## (3) The requests of a run -/

/-- The exchange of a check that is ready asks about the pull request behind the event. -/
theorem asks_of_exchanges [Glob.Engine] {config : Config} {key : Text} {sent : List Http.Request}
    {outcome : Except PullRequest.Fault (List Text)} (hconfig : w.Configured i.config config)
    (hkey : w.UsesKey i o key) (hready : o.Ready key) (h : w.Exchanges o config sent outcome) :
    ∃ p client, w.Asks i o p client sent := by
  obtain ⟨patterns, file, rules, hready, hrules⟩ := hready
  obtain ⟨hvalid, ⟨hpatterns, hblank⟩, hfile⟩ := (prerequisites_eq_ok o key).mp hready
  obtain ⟨p, client, hp, hclient, hlists⟩ := h
  exact ⟨p, client,
    { prepared := ⟨key, file, ⟨config, hconfig⟩, hkey, hvalid,
        ⟨patterns, rules, hpatterns, hblank, hrules⟩, hfile⟩
      triggered := hp.triggeredBy
      settings := ⟨config, hconfig, hclient⟩
      requests := fun _ => hlists.request_of_mem }⟩

/-- Concluding sends no request. -/
theorem requests_of_conclude (w : Machine) (format : CommandLine.Format) (file key : Text)
    (r : Report) : ((conclude format file key r : Session _) w).2.requests = w.requests := by
  cases hopened : w.tree.opened w.cwd file with
  | error e => rw [conclude_of_error w key hopened format r]
  | ok place =>
    obtain ⟨errors, hconclude⟩ := conclude_of_opened w key hopened format r
    rw [hconclude]
    rfl

/-- An attempt asks about a pull request or not at all. -/
theorem requests_of_attempt [Glob.Engine] (w : Machine) (i : Invocation) (o : DetectOptions) :
    ∃ sent, ((attempt i o : Session _) w).2.requests = w.requests ++ sent ∧
      (sent ≠ [] → ∃ p client, w.Asks i o p client sent) := by
  obtain ⟨first, result, hconfig, hsettings, -⟩ := configFor_apply w i.config
  simp only [attempt, Session.bind_apply, hconfig]
  cases result with
  | error f => exact ⟨[], (List.append_nil _).symm, fun h => absurd rfl h⟩
  | ok config =>
    have hkey := (Machine.usesKey_iff (o := o) hsettings).mpr rfl
    simp only [Session.bind_apply, Session.pure_apply]
    obtain ⟨errors, sent, hsent, hcases⟩ :=
      check_cases { w with errors := first } o config (effectiveKey o.outputKey (.ok config)) i.format
    refine ⟨sent, ?_, ?_⟩
    · -- what follows the check adds no request
      rcases hcases with ⟨file, r, -, -, -, -, hcheck⟩ | ⟨f, -, -, hcheck⟩
      · rw [hcheck, requests_of_conclude]
      · rw [hcheck]
    · intro hasked
      obtain ⟨hready, outcome, hexchange⟩ := hsent.resolve_left hasked
      exact asks_of_exchanges ((hsettings config).mp rfl) hkey hready hexchange

/-- What follows an attempt sends no request. -/
theorem requests_of_detect [Glob.Engine] (w : Machine) (i : Invocation) (o : DetectOptions) :
    ((detect i o : Session _) w).2.requests = ((attempt i o : Session _) w).2.requests := by
  cases hattempt : (attempt i o : Session _) w with
  | mk attempted left =>
    obtain ⟨key, f | ⟨⟩⟩ := attempted
    · cases hoverflow : f.overflowed with
      | true => rw [detect_of_overflow hattempt hoverflow]
      | false =>
        cases hstrict : o.strict with
        | true => rw [detect_of_strict hattempt hoverflow hstrict]
        | false =>
          obtain ⟨t, writes, errors, -, hforgive⟩ := forgive_apply left o key f
          rw [detect_of_lenient hattempt hoverflow hstrict, hforgive]
    · rw [detect_of_ok hattempt]

/-- The end of a run sends no request. -/
theorem requests_of_conclusion (result : Except Failure ExitStatus) (w : Machine) :
    ((conclusion result : Session _) w).2.requests = w.requests := by
  cases result <;> rfl

end Program

/-! ## (4) A run without a pull request -/

/-- Machines that are alike but for what was written on standard error. -/
def Machine.Noted (w w' : Machine) : Prop := ∃ errors, w' = { w with errors := errors }

/-- What was written on standard error is not read. -/
theorem Machine.neutral_noted : Machine.Neutral Machine.Noted where
  tree := by
    rintro w _ ⟨errors, rfl⟩
    rfl
  disk := by
    rintro w _ ⟨errors, rfl⟩
    rfl
  writes := by
    rintro w _ ⟨errors, rfl⟩
    rfl
  cwd := by
    rintro w _ ⟨errors, rfl⟩
    rfl
  input := by
    rintro w _ ⟨errors, rfl⟩
    rfl
  terminal := by
    rintro w _ ⟨errors, rfl⟩
    rfl
  filter := by
    rintro w _ ⟨errors, rfl⟩
    rfl
  written := by
    rintro w _ t n ⟨errors, rfl⟩
    exact ⟨errors, rfl⟩
  printed := by
    rintro w _ t ⟨errors, rfl⟩
    exact ⟨errors, rfl⟩
  complained := by
    rintro w _ t ⟨errors, rfl⟩
    exact ⟨errors ++ t, rfl⟩

/-- The pull request behind an event does not depend on what was written on standard error. -/
theorem PullRequest.Runner.pullRequest_noted (r : Runner) (w : Machine) (errors : Text) :
    ((r.pullRequest : Session _) { w with errors := errors }).1 =
      ((r.pullRequest : Session _) w).1 := by
  -- couple the two runs, the runner being the same
  have hresolve := Runner.coupled_resolve Machine.neutral_noted (S := Eq) (r := r) rfl rfl
    fun _ _ => .refl (.refl fun _ => rfl) _
  obtain ⟨hmatched, -⟩ :=
    Runner.coupled_pullRequest Machine.neutral_noted hresolve w _ ⟨errors, rfl⟩
  generalize ((r.pullRequest : Session _) w).1 = one,
    ((r.pullRequest : Session _) { w with errors := errors }).1 = two at hmatched ⊢
  rcases hmatched with f | (hsame | _)
  · rfl
  · rw [hsame]
  · rfl

namespace Program

variable {w : Machine} {i : Invocation} {o : DetectOptions}

/-- Without a pull request there are no files. -/
theorem pullRequestFiles_of_none {config : Config}
    (h : (((Runner.ofVariables w.valueOf).pullRequest : Session _) w).1 = .ok none) :
    ∃ errors, (pullRequestFiles o config : Session _) w = (.ok [], { w with errors := errors }) := by
  obtain ⟨first, found, hfound, -⟩ := Runner.pullRequest_apply (Runner.ofVariables w.valueOf) w
  rw [hfound] at h
  obtain rfl : found = .ok none := h
  obtain ⟨errors, hlog⟩ := Host.log_apply { w with errors := first } ⟨.info, .detect,
    "no pull request context; treating change list as empty".toList, []⟩
  refine ⟨errors, ?_⟩
  rw [pullRequestFiles, Session.bind_apply, Runner.ofHost_apply, Session.bind_apply, hfound]
  simp only [Session.bind_apply, hlog, Session.pure_apply]

/-- A check that is ready, but not about any pull request, concludes with a report on no files. -/
theorem check_of_none [Glob.Engine] (config : Config) {key patterns file : Text} {rules : RuleSet}
    (hready : prerequisites o key = .ok (patterns, file))
    (hrules : RuleSet.ofText patterns = .ok rules)
    (hnone : (((Runner.ofVariables w.valueOf).pullRequest : Session _) w).1 = .ok none)
    (format : CommandLine.Format) :
    ∃ errors, (check format o config key : Session _) w =
      (conclude format file key ⟨false, [], []⟩ : Session _) { w with errors := errors } := by
  have hnone' := (Runner.pullRequest_noted (Runner.ofVariables w.valueOf) w
    (w.errors ++ w.shown (rulesEvents rules))).trans hnone
  obtain ⟨errors, hfiles⟩ := @pullRequestFiles_of_none
    { w with errors := w.errors ++ w.shown (rulesEvents rules) } o config hnone'
  refine ⟨errors, ?_⟩
  rw [check_of_ready w o config key format hready hrules, Session.bind_apply, hfiles]
  rfl

/-- **A check that is prepared, but not about any pull request**, reports no files and gives the output
`false` in a writable file. -/
theorem attempt_of_none [Glob.Engine] {key file : Text} {place : Path}
    (hprepared : w.Prepared i o key file) (hwritable : w.Writable file)
    (hopened : w.tree.opened w.cwd file = .ok place)
    (hnone : (((Runner.ofVariables w.valueOf).pullRequest : Session _) w).1 = .ok none) :
    ∃ errors, (attempt i o : Session _) w = ((key, .ok ()),
      { w.afterWriting place (Action.outputParts key false) with
        output := w.output ++ reportText i.format w.coloring ⟨false, [], []⟩, errors := errors }) := by
  obtain ⟨⟨config, hconfig⟩, hkey, hvalid, ⟨patterns, rules, hpatterns, hblank, hrules⟩, hfile⟩ :=
    hprepared
  obtain ⟨first, result, hrun, hsettings, -⟩ := configFor_apply w i.config
  obtain rfl := (hsettings config).mpr hconfig
  have hready := (prerequisites_eq_ok o key).mpr ⟨hvalid, ⟨hpatterns, hblank⟩, hfile⟩
  -- what the log has shown so far does not make a pull request appear
  have hnone' := (Runner.pullRequest_noted (Runner.ofVariables w.valueOf) w first).trans hnone
  obtain ⟨second, hcheck⟩ :=
    check_of_none (w := { w with errors := first }) config hready hrules hnone' i.format
  obtain ⟨errors, hconclude⟩ :=
    conclude_of_opened { w with errors := second } key hopened i.format ⟨false, [], []⟩
  have hfault : (w.written place (Action.outputParts key false)).fault = none :=
    (hwritable.written hopened _).1
  have hconcluded : (conclude i.format file key ⟨false, [], []⟩ : Session _) { w with errors := second } =
      ((w.written place (Action.outputParts key false)).fault.elim (.ok ())
        fun e => .error (.file file e.message), _) := hconclude
  rw [hfault, Option.elim_none] at hconcluded
  refine ⟨errors, ?_⟩
  rw [attempt, Session.bind_apply, hrun]
  dsimp only
  rw [← (Machine.usesKey_iff hsettings).mp hkey, Session.bind_apply, hcheck, hconcluded]
  rfl

/-! ## (5) Runs -/

/-- **No request before all is settled.** No request is sent unless the check is prepared and triggered by a
pull request. Every request is one for a page of the files of this pull request, made by the client of the
settings, with the token as its credentials; and if the address has neither a query nor a fragment, and owner
and repository are plain, it names the pull request. If the check is prepared, the output file is writable,
and there is no pull request behind the event, then the run ends well, reports no files and gives the output
`false`; neither the patterns nor strictness matter. -/
theorem run_requests_prepared [Glob.Engine] {arguments : List Text}
    (hread : CommandLine.read w.valueOf arguments = .ok i)
    (hcommand : i.command = some (.detect o)) :
    ∃ status left sent, (run arguments : Session ExitStatus) w = (status, left) ∧
      left.requests = w.requests ++ sent ∧
      (sent ≠ [] → ∃ p client, w.Asks i o p client sent ∧
        (∀ r ∈ sent, r.authorization = "token ".toList ++ p.token) ∧
        ('?' ∉ client.address → '#' ∉ client.address →
          Url.IsPlain p.owner → Url.IsPlain p.repository → ∀ r ∈ sent, client.Names p r)) ∧
      ((∀ key file, ¬ w.Prepared i o key file) ∨ (∀ p, ¬ w.TriggeredBy p) → sent = []) ∧
      ∀ key file, w.Prepared i o key file → w.Writable file →
        (((Runner.ofVariables w.valueOf).pullRequest : Session _) w).1 = .ok none →
        status.code = 0 ∧ sent = [] ∧
          left.output = w.output ++ reportText i.format w.coloring ⟨false, [], []⟩ ∧
          left.tree.read w.cwd file =
            .ok (w.tree.contentOf w.cwd file ++ Text.encode (key ++ "=false\n".toList)) ∧
          ∃ place, w.tree.opened w.cwd file = .ok place ∧
            left.tree = w.tree.addTo place (Text.encode (key ++ "=false\n".toList)) := by
  obtain ⟨sent, hsent, hasks⟩ := requests_of_attempt w i o
  have hrequests : ((run arguments : Session ExitStatus) w).2.requests = w.requests ++ sent := by
    rw [run_detect_apply hread hcommand, requests_of_conclusion, requests_of_detect, hsent]
  cases hrun : (run arguments : Session ExitStatus) w with
  | mk status left =>
    rw [hrun] at hrequests
    refine ⟨status, left, sent, rfl, hrequests, ?_, ?_, ?_⟩
    · intro hasked
      obtain ⟨p, client, hp⟩ := hasks hasked
      refine ⟨p, client, hp, fun r hr => ?_, fun hquery hfragment howner hrepository r hr => ?_⟩
      · obtain ⟨page, hrequest⟩ := hp.requests r hr
        exact Client.authorization_of_request hrequest
      · obtain ⟨page, hrequest⟩ := hp.requests r hr
        exact Client.names_of_request hrequest hquery hfragment howner hrepository
    · intro hfails
      by_contra hasked
      obtain ⟨p, client, hp⟩ := hasks hasked
      obtain ⟨key, file, hprepared⟩ := hp.prepared
      rcases hfails with hnever | hnever
      · exact hnever key file hprepared
      · exact hnever p hp.triggered
    · intro key file hprepared hwritable hnone
      obtain ⟨place, hopened, -⟩ := id hwritable
      obtain ⟨errors, hattempt⟩ := attempt_of_none hprepared hwritable hopened hnone
      rw [run_detect_apply hread hcommand, detect_of_ok hattempt] at hrun
      obtain ⟨rfl, rfl⟩ := Prod.mk.inj hrun
      have hempty : sent = [] := List.self_eq_append_right.mp hrequests
      have hline : (w.written place (Action.outputParts key false)).bytes =
          Text.encode (key ++ "=false\n".toList) := by
        rw [(hwritable.written hopened _).2, Action.flatten_outputParts, outputLine_false]
      have htree : (w.afterWriting place (Action.outputParts key false)).tree =
          w.tree.addTo place (Text.encode (key ++ "=false\n".toList)) := by
        rw [Machine.afterWriting, hline]
      refine ⟨rfl, hempty, rfl, ?_, place, hopened, htree⟩
      exact (congrArg (Files.Tree.read · w.cwd file) htree).trans (Files.Tree.read_addTo hopened _)

/-- The same workflow after an event that is not about a pull request. -/
def pushWorkflow : Machine :=
  { documentWorkflow with
    environment := ("GITHUB_EVENT_NAME".toList, "push".toList) :: documentWorkflow.environment }

/-- A pull request is asked about once, and a push is not; even a strict run then ends well. -/
theorem run_requests_prepared_push :
    CommandLine.read documentWorkflow.valueOf ["detect".toList] =
      .ok ⟨none, .text, some (.detect documentOptions)⟩ ∧
    CommandLine.read pushWorkflow.valueOf ["detect".toList, "--strict".toList] =
      .ok ⟨none, .text, some (.detect { documentOptions with strict := true })⟩ ∧
    (∃ status left, (run ["detect".toList] : Session ExitStatus) documentWorkflow = (status, left) ∧
      left.requests = [documentRequest] ∧
      ∃ p client, documentWorkflow.Asks ⟨none, .text, some (.detect documentOptions)⟩
        documentOptions p client [documentRequest]) ∧
    ∃ status left, (run ["detect".toList, "--strict".toList] : Session ExitStatus) pushWorkflow =
        (status, left) ∧
      status.code = 0 ∧ left.requests = [] ∧
      left.output =
        "Changed files (0):\nFiles match filter: false\n".toList ∧
      left.tree.read [] "/out".toList = .ok (Text.encode "a=b\nchanged=false\n".toList) := by
  have hread : CommandLine.read documentWorkflow.valueOf ["detect".toList] =
      .ok ⟨none, .text, some (.detect documentOptions)⟩ := rfl
  have hstrict : CommandLine.read pushWorkflow.valueOf ["detect".toList, "--strict".toList] =
      .ok ⟨none, .text, some (.detect { documentOptions with strict := true })⟩ := rfl
  refine ⟨hread, hstrict, ?_, ?_⟩
  · obtain ⟨status, left, sent, hrun, hrequests, hasks, -⟩ := run_requests_prepared hread rfl
    have hsent : ((run ["detect".toList] : Session ExitStatus) documentWorkflow).2.requests =
        [documentRequest] := by decide +kernel
    rw [hrun] at hsent
    obtain rfl : sent = [documentRequest] := hrequests.symm.trans hsent
    obtain ⟨p, client, hp, -⟩ := hasks (by simp)
    exact ⟨status, left, hrun, hsent, p, client, hp⟩
  · obtain ⟨status, left, sent, hrun, hrequests, -, -, hnone⟩ := run_requests_prepared hstrict rfl
    have hconfigured : pushWorkflow.Configured none .default := rfl
    have hkey : pushWorkflow.UsesKey
        ⟨none, .text, some (.detect { documentOptions with strict := true })⟩
        { documentOptions with strict := true } Config.default.key := .configured rfl hconfigured
    have hprepared : pushWorkflow.Prepared
        ⟨none, .text, some (.detect { documentOptions with strict := true })⟩
        { documentOptions with strict := true } "changed".toList "/out".toList :=
      { configured := ⟨.default, hconfigured⟩
        usesKey := hkey
        isKey := by decide
        patterns := ⟨"- '*.md'".toList, _, rfl, by decide, rfl⟩
        file := rfl }
    have hwritable : pushWorkflow.Writable "/out".toList :=
      ⟨["out".toList], by decide +kernel, fun _ _ => rfl⟩
    obtain ⟨hstatus, rfl, houtput, hcontent, -⟩ := hnone _ _ hprepared hwritable rfl
    have hreport : pushWorkflow.output ++ reportText .text pushWorkflow.coloring ⟨false, [], []⟩ =
        "Changed files (0):\nFiles match filter: false\n".toList := by
      decide +kernel
    exact ⟨status, left, hrun, hstatus, hrequests, houtput.trans hreport, hcontent⟩

/-- The same workflow in a repository whose owner and whose name are two dots each. -/
def dotsWorkflow : Machine :=
  { documentWorkflow with
    environment := ("GITHUB_REPOSITORY".toList, "../..".toList) :: documentWorkflow.environment }

/-- **Not every request names its pull request**: dots for an owner and a repository lead up from where they
stand in a path, so neither is left in the target. -/
theorem run_requests_prepared_dots :
    CommandLine.read dotsWorkflow.valueOf ["detect".toList] =
      .ok ⟨none, .text, some (.detect documentOptions)⟩ ∧
    dotsWorkflow.TriggeredBy ⟨"..".toList, "..".toList, 7, "t".toList⟩ ∧
    ∃ r, ((run ["detect".toList] : Session ExitStatus) dotsWorkflow).2.requests = [r] ∧
      r.target = "/pulls/7/files?per_page=100&page=1".toList ∧
      ∀ client : Client, ¬ client.Names ⟨"..".toList, "..".toList, 7, "t".toList⟩ r := by
  have hresolves : (Runner.ofVariables dotsWorkflow.valueOf).Resolves dotsWorkflow
      ⟨"..".toList, "..".toList, 7, "t".toList⟩ :=
    ⟨by decide, "/event".toList, _, 7, by decide, by decide +kernel, rfl, rfl, by decide⟩
  refine ⟨rfl, hresolves.triggeredBy, ⟨"/pulls/7/files?per_page=100&page=1".toList, "token t".toList,
    PullRequest.listFormat, "pathgate".toList⟩, by decide +kernel, rfl, ?_⟩
  rintro client ⟨base, page, htarget⟩
  dsimp only at htarget
  have hdot : '.' ∈ "/pulls/7/files?per_page=100&page=1".toList := by
    rw [htarget]
    simp
  exact absurd hdot (by decide)

end Program

end ChangeGate
