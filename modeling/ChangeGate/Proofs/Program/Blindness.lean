import ChangeGate.Proofs.CommandLine.Reader
import ChangeGate.Proofs.Host.Coupling

/-! # What the commands do not see

A command sees the variables of its machine in few places: where it finds out about the workflow, where it
lists the files of a pull request, and where it colors a report. So it is blind to what a neutral relation
tells apart as soon as these places are (**`blind_detect`**, **`blind_matchFiles`**), and a whole run is
so if the command line is read alike as well (**`blind_run`**). -/

namespace ChangeGate

open Session (Blind Coupled Matched)
open PullRequest (Client Runner)
open CommandLine (Invocation DetectOptions MatchOptions PatternSource FileSource Format Stop)

variable {R : Machine → Machine → Prop}

/-! ## (1) Pull requests -/

namespace PullRequest

/-- Resolving sees files, and makes a pull request of what it reads. -/
theorem Runner.coupled_resolve (h : Machine.Neutral R) {S : PullRequest → PullRequest → Prop}
    {r r' : Runner} (hevent : r.event = r'.event) (hpayload : r.payload = r'.payload)
    (hread : ∀ path content,
      Matched (Matched S) (r.ofPayload path content) (r'.ofPayload path content)) :
    Coupled R (Matched (Matched S)) r.resolve r'.resolve := by
  unfold resolve hasPullRequestEvent
  rw [hevent, hpayload]
  split
  · exact .pure (.ok (.error _))
  cases r'.payload with
  | none => exact .pure (.ok (.error _))
  | some path =>
    refine (h.isOccupied path).bind_coupled fun occupied => ?_
    cases occupied with
    | false => exact .pure (.ok (.error _))
    | true =>
      refine (h.readText path).bind_coupled fun content => ?_
      cases content with
      | error e => exact .pure (.error _)
      | ok content => exact .pure (hread path content)

/-- Finding the pull request sees no more than resolving. -/
theorem Runner.coupled_pullRequest (h : Machine.Neutral R) {S : PullRequest → PullRequest → Prop}
    {r r' : Runner} (hresolve : Coupled R (Matched (Matched S)) r.resolve r'.resolve) :
    Coupled R (Matched (Option.Rel S)) r.pullRequest r'.pullRequest := by
  refine hresolve.bind ?_
  rintro _ _ (f | a | hp)
  · exact .pure (.error f)
  · exact (h.log _).bind_coupled fun _ => .pure (.ok .none)
  · exact .pure (.ok (.some hp))

namespace Client

/-- Asking for a page sees the request for it and the server. -/
theorem coupled_fetchPage (h : Machine.Neutral R) {S : Http.Request → Http.Request → Prop}
    (hsends : ∀ r r', S r r' → Coupled R Eq (Host.send r) (Host.send r')) {c : Client}
    {p p' : PullRequest} {page : Nat} (hevent : c.requestEvent p page = c.requestEvent p' page)
    (hrequest : Matched S (c.request p page) (c.request p' page)) :
    Coupled R Eq (c.fetchPage p page) (c.fetchPage p' page) := by
  unfold fetchPage
  rw [hevent]
  refine (h.log _).bind_coupled fun _ => ?_
  generalize c.request p page = one, c.request p' page = two at hrequest
  cases hrequest with
  | error f => exact .pure rfl
  | ok hr =>
    refine (hsends _ _ hr).bind ?_
    rintro response _ rfl
    exact .pure rfl

/-- Pages are asked for one after the other: induction on the number of pages that may be asked for. -/
theorem coupled_filesFrom {c : Client} {p p' : PullRequest}
    (hfetch : ∀ page, Coupled R Eq (c.fetchPage p page) (c.fetchPage p' page)) (fuel page : Nat) :
    Coupled R Eq (c.filesFrom p fuel page) (c.filesFrom p' fuel page) := by
  induction fuel generalizing page with
  | zero => exact .pure rfl
  | succ fuel ih =>
    refine (hfetch page).bind ?_
    rintro (f | _ | elements) _ rfl
    · exact .pure rfl
    · exact .pure rfl
    dsimp only
    split
    · exact .pure rfl
    · refine (ih (page + 1)).bind ?_
      rintro (f | more) _ rfl
      · exact .pure rfl
      · exact .pure rfl

/-- **Listing files** sees no more than asking for pages, and what the log says of the list. -/
theorem coupled_files (h : Machine.Neutral R) {c : Client} {p p' : PullRequest}
    (hfetch : ∀ page, Coupled R Eq (c.fetchPage p page) (c.fetchPage p' page))
    (hevent : ∀ names, listEvent p names = listEvent p' names) :
    Coupled R Eq (c.files p) (c.files p') := by
  refine (coupled_filesFrom hfetch _ 1).bind ?_
  rintro (f | names) _ rfl
  · exact .pure rfl
  · dsimp only
    rw [hevent]
    exact (h.log _).bind_coupled fun _ => .pure rfl

theorem blind_fetchPage (h : Machine.Neutral R) (hsends : ∀ r, Blind R (Host.send r)) (c : Client)
    (p : PullRequest) (page : Nat) : Blind R (c.fetchPage p page) := by
  refine coupled_fetchPage (S := Eq) h ?_ rfl (.refl (fun _ => rfl) _)
  rintro r _ rfl
  exact hsends r

theorem blind_files (h : Machine.Neutral R) (hsends : ∀ r, Blind R (Host.send r)) (c : Client)
    (p : PullRequest) : Blind R (c.files p) :=
  coupled_files h (c.blind_fetchPage h hsends p) fun _ => rfl

end Client

end PullRequest

/-! ## (2) Steps of the commands -/

theorem Action.blind_appendOutput (h : Machine.Neutral R) (file key : Text) (value : Bool) :
    Blind R (appendOutput file key value) := by
  refine (h.appendFile file _).bind fun written => ?_
  cases written with
  | error e => exact .pure _
  | ok _ => exact (h.log _).bind fun _ => .pure _

namespace Program

variable (h : Machine.Neutral R)
include h

theorem blind_findConfig (given : Option Text) (directory : Text) :
    Blind R (findConfig given directory) := by
  cases given with
  | some path => exact .pure _
  | none =>
    refine (h.isFile _).bind fun found => ?_
    cases found with
    | true => exact .pure _
    | false => exact .pure _

theorem blind_warnUnknown (path : Text) (keys : List Text) : Blind R (warnUnknown path keys) := by
  induction keys with
  | nil => exact .pure _
  | cons key keys ih => exact (h.complain _).bind fun _ => ih

theorem blind_loadConfig (path : Text) : Blind R (loadConfig path) := by
  refine (h.readText path).bind fun content => ?_
  cases content with
  | error e => exact .pure _
  | ok content =>
    dsimp only
    cases Config.ofText content with
    | error f => exact .pure _
    | ok c => exact (blind_warnUnknown h path _).bind fun _ => .pure _

/-- Finding the settings sees files only. -/
theorem blind_configFor (given : Option Text) : Blind R (configFor given) := by
  refine h.workdir.bind fun directory => (blind_findConfig h given directory).bind fun path => ?_
  cases path with
  | none => exact .pure _
  | some path => exact (h.log _).bind fun _ => blind_loadConfig h path

theorem blind_compile [Glob.Engine] (patterns : Text) : Blind R (compile patterns) := by
  unfold compile
  cases RuleSet.ofText patterns with
  | error e => exact .pure _
  | ok rules => exact (h.logAll _).bind fun _ => .pure _

theorem blind_forgive (o : DetectOptions) (key : Text) (f : Failure) : Blind R (forgive o key f) := by
  refine (h.complain _).bind fun _ => ?_
  cases o.outputFile with
  | none => exact .pure _
  | some file =>
    dsimp only
    split
    · refine (Action.blind_appendOutput h file key false).bind fun written => ?_
      cases written with
      | error e => exact h.complain _
      | ok _ => exact .pure _
    · exact .pure _

theorem blind_readPatterns (path : Text) : Blind R (readPatterns path) := by
  refine (h.readText path).bind fun content => ?_
  cases content with
  | error e => exact .pure _
  | ok t => exact .pure _

theorem blind_patternsOf (source : PatternSource) : Blind R (patternsOf source) := by
  cases source with
  | given t => exact .pure _
  | file path => exact blind_readPatterns h path

theorem blind_changedSince (base : Text) : Blind R (changedSince base) := by
  refine h.inRepository.bind fun inside => ?_
  cases inside with
  | false => exact .pure _
  | true =>
    refine (h.changedSince base).bind fun files => ?_
    cases files with
    | error e => exact .pure _
    | ok files => exact (h.log _).bind fun _ => .pure _

theorem blind_readFiles : Blind R readFiles := by
  refine h.readInput.bind fun bytes => ?_
  cases fileList? bytes with
  | none => exact .pure _
  | some files => exact .pure _

theorem blind_filesOf (source : FileSource) : Blind R (filesOf source) := by
  cases source with
  | given first more => exact .pure _
  | input => exact blind_readFiles h
  | changedSince base => exact blind_changedSince h base

theorem blind_conclusion (result : Except Failure ExitStatus) : Blind R (conclusion result) := by
  cases result with
  | ok status => exact .pure _
  | error f => exact (h.complain _).bind fun _ => .pure _

/-! ## (3) Commands -/

/-- Listing the files of a pull request sees the workflow, the pull request behind it and the server. -/
theorem coupled_pullRequestFiles {T : Runner → Runner → Prop} {S : PullRequest → PullRequest → Prop}
    (hworkflow : Coupled R T Runner.ofHost Runner.ofHost)
    (hfound : ∀ r r', T r r' →
      Coupled R (Matched (Option.Rel S)) r.pullRequest r'.pullRequest)
    (o : DetectOptions) (config : Config)
    (hfiles : ∀ client p p', S p p' →
      Client.of config.server (effectiveAddress o.address config) = .ok client →
        Coupled R Eq (client.files p) (client.files p')) : Blind R (pullRequestFiles o config) := by
  refine hworkflow.bind fun runner runner' hrunner => (hfound _ _ hrunner).bind ?_
  rintro _ _ (f | found)
  · exact .pure rfl
  cases found with
  | none => exact (h.log _).bind_coupled fun _ => .pure rfl
  | some hp =>
    dsimp only
    cases hclient : Client.of config.server (effectiveAddress o.address config) with
    | error f => exact .pure rfl
    | ok client =>
      refine (hfiles client _ _ hp hclient).bind ?_
      rintro (f | files) _ rfl
      · exact .pure rfl
      · exact .pure rfl

theorem blind_pullRequestFiles (hworkflow : Blind R Runner.ofHost)
    (o : DetectOptions) (config : Config)
    (hfiles : ∀ client p, Client.of config.server (effectiveAddress o.address config) = .ok client →
      Blind R (client.files p)) : Blind R (pullRequestFiles o config) := by
  refine coupled_pullRequestFiles (T := Eq) (S := Eq) h hworkflow ?_ o config ?_
  · rintro runner _ rfl
    exact Runner.coupled_pullRequest h
      (Runner.coupled_resolve h rfl rfl fun _ _ => .refl (.refl fun _ => rfl) _)
  · rintro client p _ rfl hclient
    exact hfiles client p hclient

/-- Coloring sees three variables and the terminal. -/
theorem blind_colorContext (hrefused : Blind R (Host.lookup "NO_COLOR".toList))
    (hdemanded : Blind R (Host.lookup "COLOR".toList))
    (hintegration : Blind R (Host.lookup "CI".toList)) : Blind R colorContext :=
  hrefused.bind fun _ => hdemanded.bind fun _ => hintegration.bind fun _ =>
    h.isTerminal.bind fun _ => .pure _

variable (hcolors : Blind R colorContext)
include hcolors

theorem blind_printReport (format : Format) (r : Report) : Blind R (printReport format r) :=
  hcolors.bind fun _ => h.print _

theorem blind_conclude (format : Format) (file key : Text) (r : Report) :
    Blind R (conclude format file key r) := by
  refine (blind_printReport h hcolors format r).bind fun _ =>
    (Action.blind_appendOutput h file key r.changed).bind fun written => ?_
  cases written with
  | error e => exact .pure _
  | ok _ => exact .pure _

section Detect

variable {o : DetectOptions} (hfiles : ∀ config, Blind R (pullRequestFiles o config))
include hfiles

theorem blind_check [Glob.Engine] (format : Format) (config : Config) (key : Text) :
    Blind R (check format o config key) := by
  unfold check
  cases prerequisites o key with
  | error f => exact .pure _
  | ok known =>
    obtain ⟨patterns, file⟩ := known
    refine (blind_compile h patterns).bind fun rules => ?_
    cases rules with
    | error f => exact .pure _
    | ok rules =>
      refine (hfiles config).bind fun files => ?_
      cases files with
      | error f => exact .pure _
      | ok files => exact blind_conclude h hcolors format file key _

theorem blind_attempt [Glob.Engine] (i : Invocation) : Blind R (attempt i o) := by
  refine (blind_configFor h i.config).bind fun config => ?_
  cases config with
  | error f => exact .pure _
  | ok c => exact (blind_check h hcolors hfiles i.format c _).bind fun _ => .pure _

/-- **Checking the pull request of a workflow** sees no more than listing its files and coloring. -/
theorem blind_detect [Glob.Engine] (i : Invocation) : Blind R (detect i o) := by
  refine (blind_attempt h hcolors hfiles i).bind fun attempted => ?_
  rcases attempted with ⟨key, f | _⟩
  · dsimp only
    split
    · exact .pure _
    split
    · exact .pure _
    · exact (blind_forgive h o key f).bind fun _ => .pure _
  · exact .pure _

end Detect

/-- **Matching files** sees no more than coloring. -/
theorem blind_matchFiles [Glob.Engine] (format : Format) (o : MatchOptions) :
    Blind R (matchFiles format o) := by
  refine (blind_patternsOf h o.patterns).bind fun patterns => ?_
  cases patterns with
  | error f => exact .pure _
  | ok patterns =>
    refine (blind_compile h patterns).bind fun rules => ?_
    cases rules with
    | error f => exact .pure _
    | ok rules =>
      refine (blind_filesOf h o.files).bind fun files => ?_
      cases files with
      | error f => exact .pure _
      | ok files => exact (blind_printReport h hcolors format _).bind fun _ => .pure _

/-! ## (4) Runs -/

section Shown

variable {lookup lookup' : Text → Option Text}
  (hshown : ∀ name ∈ CommandLine.Flag.standIns, (lookup name).getD [] = (lookup' name).getD [])
include hshown

omit hcolors in
/-- The answer to a command line that asks for no run shows the variables that stand in for options. -/
theorem coupled_answer (stop : Stop) :
    Coupled R Eq (answer lookup stop : Session _) (answer lookup' stop : Session _) := by
  cases stop with
  | refused why => exact (h.complain _).bind_coupled fun _ => .pure rfl
  | help topic =>
    rw [answer, answer, CommandLine.text_congr hshown]
    exact (h.print _).bind_coupled fun _ => .pure rfl
  | version level => exact (h.print _).bind_coupled fun _ => .pure rfl

/-- Carrying out a command shows the variables that stand in for options when there is none. -/
theorem coupled_carryOut [Glob.Engine] (i : Invocation)
    (hfiles : ∀ o config, Blind R (pullRequestFiles o config)) :
    Coupled R Eq (carryOut lookup i : Session _) (carryOut lookup' i : Session _) := by
  cases hcommand : i.command with
  | none =>
    have htext : CommandLine.topHelp lookup = CommandLine.topHelp lookup' :=
      CommandLine.text_congr hshown (.level .top)
    simp only [carryOut, hcommand, htext]
    exact (h.print _).bind_coupled fun _ => .pure rfl
  | some command =>
    simp only [carryOut, hcommand]
    cases command with
    | detect o => exact blind_detect h hcolors (hfiles o) i
    | match_ o => exact blind_matchFiles h hcolors i.format o

end Shown

/-- **A run** sees no more than its commands, if the command line is read alike and the same is shown of
the variables that stand in for options. -/
theorem blind_run [Glob.Engine] {arguments : List Text}
    (hread : ∀ w w', R w w' →
      CommandLine.read w.valueOf arguments = CommandLine.read w'.valueOf arguments)
    (hshown : ∀ w w', R w w' → ∀ name ∈ CommandLine.Flag.standIns,
      (w.valueOf name).getD [] = (w'.valueOf name).getD [])
    (hfiles : ∀ o config, Blind R (pullRequestFiles o config)) : Blind R (run arguments) := by
  intro w w' hw
  have hlookups : ∀ name ∈ CommandLine.Flag.standIns,
      (lookedUp w name).getD [] = (lookedUp w' name).getD [] := by
    intro name hname
    rw [lookedUp_of_mem w hname, lookedUp_of_mem w' hname]
    exact hshown w w' hw name hname
  rw [run_eq, run_eq, ← hread w w' hw]
  cases CommandLine.read w.valueOf arguments with
  | error stop => exact coupled_answer h hlookups stop w w' hw
  | ok i =>
    have hcarried := coupled_carryOut h hcolors hlookups i hfiles
    refine (hcarried.bind ?_) w w' hw
    rintro result _ rfl
    exact blind_conclusion h result

end Program

end ChangeGate
