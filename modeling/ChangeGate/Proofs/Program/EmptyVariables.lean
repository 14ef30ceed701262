import ChangeGate.Proofs.Program.Blindness
import ChangeGate.Proofs.CommandLine.Reader
import ChangeGate.Proofs.Program.Detect
import ChangeGate.Proofs.Basic
import ChangeGate.Proofs.Url.Host

/-! # Variables that are set to nothing

A runner that has nothing to tell leaves a variable empty. What the environment tells about a workflow
is then the same as if the variable were unset, and so is a whole run (**`run_without_empty`**). Two
variables of the runner stand in for options instead, and there an empty one is a value like others: it
counts as unset only where the command line gives the option itself. -/

namespace ChangeGate

open CommandLine (Invocation DetectOptions Flag)
open PullRequest (Client Runner nonBlank)
open Session (Blind)

/-! ## (1) Machines without a variable -/

namespace Machine

/-- The variables that a runner tells a workflow with. -/
def runnerVariables : List Text :=
  ["GITHUB_EVENT_NAME".toList, "GITHUB_EVENT_PATH".toList, "GITHUB_REPOSITORY".toList] ++
    PullRequest.tokenVariables ++ ["GITHUB_API_URL".toList, "GITHUB_OUTPUT".toList]

/-- A machine without a variable. -/
def without (w : Machine) (name : Text) : Machine :=
  { w with environment := w.environment.filter fun e => e.1 != name }

variable (w : Machine) {name other : Text}

@[simp] theorem valueOf_without_self (name : Text) : (w.without name).valueOf name = none :=
  Text.lookup_filter_self name w.environment

theorem valueOf_without_of_ne (h : other ≠ name) : (w.without name).valueOf other = w.valueOf other :=
  Text.lookup_filter_of_ne h w.environment

/-- An empty variable and one that is unset are shown alike. -/
theorem getD_without (h : w.valueOf name = some []) (other : Text) :
    ((w.without name).valueOf other).getD [] = (w.valueOf other).getD [] := by
  by_cases hother : other = name
  · rw [hother, w.valueOf_without_self, h]
    rfl
  · rw [w.valueOf_without_of_ne hother]

/-- A variable that is not among those of the runner is another one than one of them. -/
theorem ne_of_mem_runnerVariables (h : name ∈ runnerVariables) (hother : other ∉ runnerVariables) :
    other ≠ name := by
  rintro rfl
  exact hother h

/-- Machines with the same variables have the same ones without one of them. -/
theorem valueOf_without_congr {v : Machine} (h : v.valueOf = w.valueOf) :
    (v.without name).valueOf = (w.without name).valueOf := by
  funext other
  by_cases hother : other = name
  · rw [hother, v.valueOf_without_self, w.valueOf_without_self]
  · rw [v.valueOf_without_of_ne hother, w.valueOf_without_of_ne hother, h]

/-- The two machines on which a run is compared: one has variables with the given values, and the other
has all but one of them. -/
def Drops (lookup : Text → Option Text) (name : Text) (w w' : Machine) : Prop :=
  w.valueOf = lookup ∧ w' = w.without name

/-- **Dropping a variable is neutral**, unless the variable is the one that filters the log. -/
theorem neutral_drops {lookup : Text → Option Text} (h : filterVariable ≠ name) :
    Neutral (Drops lookup name) where
  tree := by
    rintro w w' ⟨-, rfl⟩
    rfl
  disk := by
    rintro w w' ⟨-, rfl⟩
    rfl
  writes := by
    rintro w w' ⟨-, rfl⟩
    rfl
  cwd := by
    rintro w w' ⟨-, rfl⟩
    rfl
  input := by
    rintro w w' ⟨-, rfl⟩
    rfl
  terminal := by
    rintro w w' ⟨-, rfl⟩
    rfl
  filter := by
    rintro w w' ⟨-, rfl⟩
    rw [filter, filter, valueOf_without_of_ne w h]
  written := by
    rintro w w' t n ⟨hlookup, rfl⟩
    exact ⟨hlookup, rfl⟩
  printed := by
    rintro w w' t ⟨hlookup, rfl⟩
    exact ⟨hlookup, rfl⟩
  complained := by
    rintro w w' t ⟨hlookup, rfl⟩
    exact ⟨hlookup, rfl⟩

end Machine

/-! ## (2) What a run sees of a variable -/

variable {lookup : Text → Option Text} {name : Text}

open Machine (Drops)

/-- The server is asked the same. -/
theorem blind_send_drops (r : Http.Request) : Blind (Drops lookup name) (Host.send r) := by
  rintro w _ ⟨hlookup, rfl⟩
  exact ⟨rfl, hlookup, rfl⟩

/-- Looking up another variable gives the same. -/
theorem blind_lookup_drops {other : Text} (h : other ≠ name) :
    Blind (Drops lookup name) (Host.lookup other) := by
  rintro w w' hw
  refine ⟨?_, hw⟩
  rw [Host.lookup_apply, Host.lookup_apply, hw.2, w.valueOf_without_of_ne h]

/-- Colors are settled by three other variables. -/
theorem blind_colorContext_drops (hrefused : "NO_COLOR".toList ≠ name)
    (hdemanded : "COLOR".toList ≠ name) (hintegration : "CI".toList ≠ name)
    (hfilter : Machine.filterVariable ≠ name) :
    Blind (Drops lookup name) Program.colorContext :=
  Program.blind_colorContext (Machine.neutral_drops hfilter) (blind_lookup_drops hrefused)
    (blind_lookup_drops hdemanded) (blind_lookup_drops hintegration)

/-- **A blank variable tells nothing about a workflow**, as if it were unset. -/
theorem PullRequest.Runner.ofVariables_without {w : Machine} (hblank : nonBlank (w.valueOf name) = none) :
    Runner.ofVariables (w.without name).valueOf = Runner.ofVariables w.valueOf := by
  apply Runner.ofVariables_congr
  intro other
  by_cases hother : other = name
  · rw [hother, w.valueOf_without_self, hblank]
    rfl
  · rw [w.valueOf_without_of_ne hother]

theorem blind_ofHost_drops (hempty : lookup name = some []) :
    Blind (Drops lookup name) Runner.ofHost := by
  rintro w w' ⟨hlookup, rfl⟩
  have hblank : nonBlank (w.valueOf name) = none := by
    rw [hlookup, hempty]
    rfl
  rw [Runner.ofHost_apply, Runner.ofHost_apply, Runner.ofVariables_without hblank]
  exact ⟨rfl, hlookup, rfl⟩

/-! ## (3) An empty address -/

/-- **Without an address no request can be sent**: what is left of the address of a listing is no
address. -/
theorem PullRequest.Client.request_of_no_address {c : Client} (h : c.address = []) (p : PullRequest)
    (page : Nat) : c.request p page = .error (.address .relative) := by
  have hlist : ∃ t, c.listAddress p = '/' :: t := by
    rw [listAddress, h]
    exact ⟨_, rfl⟩
  obtain ⟨t, ht⟩ := hlist
  rw [request, ht, Url.ofText_of_slash]

/-- A client for the empty address has none. -/
theorem PullRequest.Client.address_of {s : ServerSettings} {c : Client} (h : Client.of s [] = .ok c) :
    c.address = [] := by
  rw [Client.of] at h
  split at h
  · rw [← Except.ok.inj h]
    rfl
  · exact absurd h (by simp)

namespace Program

variable {o : DetectOptions}

/-- With an empty address no files are listed. -/
theorem not_listsFiles_of_empty_address (h : o.address = some []) {w : Machine} {config : Config}
    {files : List Text} : ¬ w.ListsFiles o config files := by
  rintro ⟨sent, p, client, -, hclient, hlists⟩
  rw [effectiveAddress, h, Option.getD_some] at hclient
  have hrequest := Client.request_of_no_address (Client.address_of hclient) p 1
  obtain ⟨-, hresult⟩ := hlists.unique (.unsent (by decide) hrequest)
  exact absurd hresult (by simp)

/-- With an empty address the check is silent: the first request of a listing fails already. -/
theorem blind_asked_of_empty_address (h : o.address = some []) (past : List Http.Request)
    (config : Config) : Blind (Machine.Asked past) (pullRequestFiles o config) := by
  refine blind_pullRequestFiles (Machine.neutral_asked past) ?_ o config ?_
  · rintro w _ ⟨rfl, hpast⟩
    rw [Runner.ofHost_apply]
    exact ⟨rfl, rfl, hpast⟩
  · rintro client p hclient _ w ⟨rfl, hpast⟩
    rw [effectiveAddress, h, Option.getD_some] at hclient
    have hrequest := Client.request_of_no_address (Client.address_of hclient) p 1
    obtain ⟨errors, sent, result, hlists, hrun⟩ := Client.files_apply client p w
    obtain ⟨rfl, -⟩ := hlists.unique (.unsent (by decide) hrequest)
    rw [hrun]
    exact ⟨rfl, rfl, by rw [List.append_nil]; exact hpast⟩

/-- **With an empty address a check sends no request.** -/
theorem requests_of_empty_address [Glob.Engine] (h : o.address = some []) (i : Invocation) (w : Machine) :
    ((detect i o : Session _) w).2.requests = w.requests := by
  refine Session.Blind.requests_eq (fun past => ?_) w
  refine blind_detect (Machine.neutral_asked past) ?_ (blind_asked_of_empty_address h past) i
  rintro w _ ⟨rfl, hpast⟩
  exact ⟨rfl, rfl, hpast⟩

/-! ## (4) Runs -/

/-- A command line is read alike without a variable that stands in for no option. -/
theorem read_without {w : Machine} {name : Text} {arguments : List Text}
    (h : name ∈ Flag.standIns → CommandLine.read w.valueOf arguments =
      CommandLine.read (w.without name).valueOf arguments) :
    CommandLine.read w.valueOf arguments = CommandLine.read (w.without name).valueOf arguments := by
  by_cases hname : name ∈ Flag.standIns
  · exact h hname
  · refine CommandLine.read_congr (fun other hother => (w.valueOf_without_of_ne ?_).symm) arguments
    rintro rfl
    exact hname hother

/-- A run is blind to a variable of the runner that is empty, if the command line is read alike without
it. -/
theorem blind_run_drops [Glob.Engine] {w : Machine} {name : Text} {arguments : List Text}
    (hname : name ∈ Machine.runnerVariables) (hempty : w.valueOf name = some [])
    (hread : CommandLine.read w.valueOf arguments =
      CommandLine.read (w.without name).valueOf arguments) :
    Blind (Drops w.valueOf name) (run arguments) := by
  have hfilter : Machine.filterVariable ≠ name :=
    Machine.ne_of_mem_runnerVariables hname (by decide +kernel)
  have hneutral : Machine.Neutral (Drops w.valueOf name) := Machine.neutral_drops hfilter
  have hcolors : Blind (Drops w.valueOf name) colorContext :=
    blind_colorContext_drops (Machine.ne_of_mem_runnerVariables hname (by decide +kernel))
      (Machine.ne_of_mem_runnerVariables hname (by decide +kernel))
      (Machine.ne_of_mem_runnerVariables hname (by decide +kernel)) hfilter
  refine blind_run hneutral hcolors ?_ ?_ ?_
  · rintro v _ ⟨hlookup, rfl⟩
    rw [hlookup, w.valueOf_without_congr hlookup]
    exact hread
  · rintro v _ ⟨hlookup, rfl⟩ other -
    rw [hlookup, w.valueOf_without_congr hlookup]
    exact (w.getD_without hempty other).symm
  · intro o config
    exact blind_pullRequestFiles hneutral (blind_ofHost_drops hempty) o config fun client p _ =>
      client.blind_files hneutral blind_send_drops p

/-- A run is the same without a variable of the runner that is empty, if the command line is read alike. -/
theorem run_without_of_read [Glob.Engine] {w : Machine} {name : Text} {arguments : List Text}
    (hname : name ∈ Machine.runnerVariables) (hempty : w.valueOf name = some [])
    (hread : CommandLine.read w.valueOf arguments =
      CommandLine.read (w.without name).valueOf arguments) :
    (run arguments : Session ExitStatus) (w.without name) =
      (((run arguments : Session ExitStatus) w).1,
        (((run arguments : Session ExitStatus) w).2).without name) := by
  have hrun := blind_run_drops hname hempty hread
  obtain ⟨hstatus, -, hleft⟩ := hrun w (w.without name) ⟨rfl, rfl⟩
  exact Prod.ext hstatus.symm hleft

/-- **A run whose command line gives an option** is the same without the variable that stands in for it,
if that is one of the runner and empty. -/
theorem run_without_of_gives [Glob.Engine] {w : Machine} {name : Text} {arguments : List Text}
    {f : Flag} (hname : name ∈ Machine.runnerVariables) (hempty : w.valueOf name = some [])
    (hstand : f.standIn? .detect = some name) (hgives : CommandLine.Gives arguments f) :
    (run arguments : Session ExitStatus) (w.without name) =
      (((run arguments : Session ExitStatus) w).1,
        (((run arguments : Session ExitStatus) w).2).without name) := by
  have htop : f.standIn? .top = none := by
    -- the one variable that stands in on both levels is none of the runner
    cases f with
    | config =>
      obtain rfl := Option.some.inj hstand
      exact absurd hname (by decide +kernel)
    | _ => rfl
  refine run_without_of_read hname hempty ?_
  exact CommandLine.read_of_gives hstand htop hgives fun other hother =>
    (w.valueOf_without_of_ne hother).symm

/-- **A run without a variable that is empty.** If the variable stands in for no option, or the command
line is read alike without it, the run is the same in every respect. The two variables that stand in for
options are the exception, where a command line asks for the check and does not give the option itself:
an empty output file is refused, though the run may go well without the variable; and an empty address
takes the place of the one in the settings, so that no request is sent and nothing is affirmed. -/
theorem run_without_empty [Glob.Engine] {w : Machine} {name : Text} {arguments : List Text}
    (hname : name ∈ Machine.runnerVariables) (hempty : w.valueOf name = some []) :
    ((name ∈ Flag.standIns → CommandLine.read w.valueOf arguments =
        CommandLine.read (w.without name).valueOf arguments) →
      (run arguments : Session ExitStatus) (w.without name) =
        (((run arguments : Session ExitStatus) w).1,
          (((run arguments : Session ExitStatus) w).2).without name)) ∧
    ∀ i o, CommandLine.read (w.without name).valueOf arguments = .ok i →
      i.command = some (.detect o) →
      (name = "GITHUB_OUTPUT".toList → o.outputFile = none →
        ∃ errors, (run arguments : Session ExitStatus) w = (.misuse, { w with errors := errors })) ∧
      (name = "GITHUB_API_URL".toList → o.address = none →
        CommandLine.read w.valueOf arguments =
          .ok { i with command := some (.detect { o with address := some [] }) } ∧
        ((run arguments : Session ExitStatus) w).2.requests = w.requests ∧
        ¬ w.Affirms i { o with address := some [] }) := by
  refine ⟨fun hread => run_without_of_read hname hempty (read_without hread),
    fun i o hread hcommand => ⟨?_, ?_⟩⟩
  · rintro rfl hnone
    exact ⟨_, run_refused_apply (CommandLine.read_of_empty_outputFile hread hcommand hnone hempty)⟩
  · rintro rfl hnone
    have hreadEmpty := CommandLine.read_of_empty_address hread hcommand hnone hempty
      fun other hother => (w.valueOf_without_of_ne hother).symm
    refine ⟨hreadEmpty, ?_, ?_⟩
    · rw [run_detect_apply hreadEmpty rfl, Session.Blind.requests_eq fun past =>
        blind_conclusion (Machine.neutral_asked past) _]
      exact requests_of_empty_address rfl _ w
    · rintro ⟨config, -, patterns, rules, files, -, -, -, hlists, -⟩
      exact not_listsFiles_of_empty_address rfl hlists

/-- A workflow that was triggered by a pull request with one file, the patterns being about it, and whose
runner tells something more. -/
def toldWorkflow (more : List (Text × Text)) : Machine :=
  .start
    (more ++ [("INPUT_FILE-PATTERNS".toList, "- '*.md'".toList),
      ("GITHUB_EVENT_NAME".toList, "pull_request".toList),
      ("GITHUB_EVENT_PATH".toList, "/event".toList),
      ("GITHUB_REPOSITORY".toList, "o/r".toList), ("GH_TOKEN".toList, "t".toList)])
    ⟨[(["event".toList],
        .file (Text.encode "\x7b\"pull_request\":\x7b\"number\":7\x7d\x7d".toList) false)]⟩
    [] [] (.ofScript [⟨200, Text.encode "[\x7b\"filename\":\"a.md\"\x7d]".toList⟩])

/-- That workflow with an empty token, which comes before the token that is there. -/
def emptyToken : Machine :=
  toldWorkflow [("GITHUB_OUTPUT".toList, "/out".toList), ("GITHUB_TOKEN".toList, [])]

/-- That workflow with an empty address. -/
def emptyAddress : Machine :=
  toldWorkflow [("GITHUB_OUTPUT".toList, "/out".toList), ("GITHUB_API_URL".toList, [])]

/-- That workflow with an empty output file. -/
def emptyOutputFile : Machine := toldWorkflow [("GITHUB_OUTPUT".toList, [])]

/-- An empty token counts as unset: the other token is taken, and the change is found. -/
theorem run_without_empty_token :
    "GITHUB_TOKEN".toList ∈ Machine.runnerVariables ∧
    emptyToken.valueOf "GITHUB_TOKEN".toList = some [] ∧ "GITHUB_TOKEN".toList ∉ Flag.standIns ∧
    (run ["detect".toList] : Session ExitStatus) (emptyToken.without "GITHUB_TOKEN".toList) =
      (((run ["detect".toList] : Session ExitStatus) emptyToken).1,
        (((run ["detect".toList] : Session ExitStatus) emptyToken).2).without
          "GITHUB_TOKEN".toList) ∧
    ((run ["detect".toList] : Session ExitStatus) emptyToken).2.tree.read [] "/out".toList =
      .ok (Text.encode "changed=true\n".toList) := by
  have hname : "GITHUB_TOKEN".toList ∈ Machine.runnerVariables := by decide +kernel
  have hempty : emptyToken.valueOf "GITHUB_TOKEN".toList = some [] := by decide +kernel
  have hother : "GITHUB_TOKEN".toList ∉ Flag.standIns := by decide +kernel
  refine ⟨hname, hempty, hother, ?_, by decide +kernel⟩
  exact (run_without_empty hname hempty).1 fun h => absurd h hother

/-- The two variables that stand in for options do not count as unset when they are empty: an empty output
file ends a run that would end well, and with an empty address the change is not found. -/
theorem run_differs_of_empty :
    ("GITHUB_OUTPUT".toList ∈ Machine.runnerVariables ∧
      emptyOutputFile.valueOf "GITHUB_OUTPUT".toList = some [] ∧
      ((run ["detect".toList] : Session ExitStatus) emptyOutputFile).1.code = 2 ∧
      ((run ["detect".toList] : Session ExitStatus)
        (emptyOutputFile.without "GITHUB_OUTPUT".toList)).1.code = 0) ∧
    "GITHUB_API_URL".toList ∈ Machine.runnerVariables ∧
    emptyAddress.valueOf "GITHUB_API_URL".toList = some [] ∧
    ((run ["detect".toList] : Session ExitStatus) emptyAddress).2.tree.read [] "/out".toList =
      .ok (Text.encode "changed=false\n".toList) ∧
    ((run ["detect".toList] : Session ExitStatus)
        (emptyAddress.without "GITHUB_API_URL".toList)).2.tree.read [] "/out".toList =
      .ok (Text.encode "changed=true\n".toList) := by
  refine ⟨⟨?_, ?_, ?_, ?_⟩, ?_, ?_, ?_, ?_⟩
  all_goals decide +kernel

end Program

end ChangeGate
