import ChangeGate.Proofs.PullRequest.Runner
import ChangeGate.Proofs.Basic
import ChangeGate.Proofs.Text.Lines

/-! # What triggered a workflow

A workflow is told about its event by variables, of which a blank one tells nothing, and by a file. What they
say together is one of three things. The workflow **is about** a pull request, and then about one only; or its
payload **is refused**, whatever else is told; or there is no pull request. The program gives these answers
(**`pullRequest_outcome`**), and nothing but the files and what the variables tell has a part in them. -/

namespace ChangeGate

/-! ## (1) Events, payloads and names -/

namespace Machine

/-- **A variable says a value**: it is set, and not to white space alone. -/
def Says (w : Machine) (name value : Text) : Prop :=
  w.valueOf name = some value ∧ Text.blank value = false

/-- **There is a payload** at a path: the event is about a pull request, and something stands at the path
that the workflow was told. -/
structure HasPayload (w : Machine) (path : Text) : Prop where
  event : w.Says "GITHUB_EVENT_NAME".toList "pull_request".toList ∨
    w.Says "GITHUB_EVENT_NAME".toList "pull_request_target".toList
  told : w.Says "GITHUB_EVENT_PATH".toList path
  occupied : w.tree.occupied w.cwd path = true

/-- **A payload is refused.** -/
inductive RefusesPayload (w : Machine) : PullRequest.Fault → Prop where
  /-- What stands at its path cannot be read, or is no text. -/
  | unreadable {path : Text} {cause : Files.Cause} : w.HasPayload path →
      w.tree.readText w.cwd path = .error cause → RefusesPayload w (.payloadUnreadable path cause)
  /-- Its text cannot be decoded. -/
  | malformed {path content : Text} {fault : Json.Fault} : w.HasPayload path →
      w.tree.readText w.cwd path = .ok content → PullRequest.readPayload content = .error fault →
      RefusesPayload w (.payloadMalformed path content fault)

/-- The variables that may hold a token, in the order in which they count. -/
def tokenNames : List Text :=
  ["GITHUB_TOKEN".toList, "GH_TOKEN".toList, "INPUT_GITHUB_TOKEN".toList]

/-- **The token of a workflow** is the value of the first variable that tells one. -/
def HasToken (w : Machine) (token : Text) : Prop :=
  ∃ before name after, tokenNames = before ++ name :: after ∧ w.Says name token ∧
    ∀ other ∈ before, ∀ value, ¬ w.Says other value

end Machine

/-- **The first two parts of a name** between slashes, which may be all of it. -/
structure PullRequest.StartsName (owner repository name : Text) : Prop where
  owner_slash : '/' ∉ owner
  repository_slash : '/' ∉ repository
  name_eq : name = owner ++ '/' :: repository ∨ ∃ more, name = owner ++ '/' :: (repository ++ '/' :: more)

/-- **A workflow is about a pull request**: the payload holds its number, which is above zero, its owner and
its repository are the first two parts of the name that is told, and its token is the one of the workflow. -/
structure Machine.IsAbout (w : Machine) (p : PullRequest) : Prop where
  payload : ∃ path content, w.HasPayload path ∧ w.tree.readText w.cwd path = .ok content ∧
    PullRequest.readPayload content = .ok (some p.number)
  number : 0 < p.number
  repository : ∃ name, w.Says "GITHUB_REPOSITORY".toList name ∧
    PullRequest.StartsName p.owner p.repository name
  owner_ne : p.owner ≠ []
  repository_ne : p.repository ≠ []
  token : w.HasToken p.token

namespace PullRequest

/-- The first two parts of a name are its first two pieces. -/
theorem startsName_iff {owner repository name : Text} :
    StartsName owner repository name ↔
      ∃ rest, Text.pieces '/' name = owner :: repository :: rest := by
  constructor
  · rintro ⟨howner, hrepository, rfl | ⟨more, rfl⟩⟩
    · exact ⟨[], by rw [Text.pieces_append howner, Text.pieces_of_not_mem hrepository]⟩
    · exact ⟨_, by rw [Text.pieces_append howner, Text.pieces_append hrepository]⟩
  · rintro ⟨rest, hpieces⟩
    obtain ⟨howner, ⟨-, hnone⟩ | ⟨behind, rfl, hbehind⟩⟩ := Text.pieces_eq_cons_iff.mp hpieces
    · exact absurd hnone (List.cons_ne_nil _ _)
    · obtain ⟨hrepository, ⟨rfl, -⟩ | ⟨more, rfl, -⟩⟩ := Text.pieces_eq_cons_iff.mp hbehind
      · exact ⟨howner, hrepository, .inl rfl⟩
      · exact ⟨howner, hrepository, .inr ⟨more, rfl⟩⟩

namespace Runner

variable {w : Machine}

/-! ## (2) What the variables tell -/

/-- A variable that is not blank tells its value. -/
theorem nonBlank_valueOf {name value : Text} :
    nonBlank (w.valueOf name) = some value ↔ w.Says name value := nonBlank_eq_some

/-- The event is about a pull request if it has one of two names. -/
theorem hasPullRequestEvent_iff :
    (ofVariables w.valueOf).hasPullRequestEvent = true ↔
      w.Says "GITHUB_EVENT_NAME".toList "pull_request".toList ∨
        w.Says "GITHUB_EVENT_NAME".toList "pull_request_target".toList := by
  rw [hasPullRequestEvent, ofVariables, ← nonBlank_valueOf, ← nonBlank_valueOf]
  cases nonBlank (w.valueOf "GITHUB_EVENT_NAME".toList) with
  | none => simp
  | some event => simp [pullRequestEvents]

/-- The variables that may hold a token, by name. -/
theorem tokenVariables_eq : tokenVariables = Machine.tokenNames := by decide

/-- The token is the value of the first variable that tells one. -/
theorem token_ofVariables {token : Text} :
    (ofVariables w.valueOf).token = some token ↔ w.HasToken token := by
  have hsilent : ∀ name, nonBlank (w.valueOf name) = none ↔ ∀ value, ¬ w.Says name value := by
    intro name
    rw [Option.eq_none_iff_forall_ne_some]
    exact forall_congr' fun value => not_congr nonBlank_valueOf
  rw [ofVariables, tokenVariables_eq, List.findSome?_eq_some_iff, Machine.HasToken]
  simp only [nonBlank_valueOf, hsilent]

/-- There is a payload at the path that the runner was told. -/
theorem hasPayload_iff {path : Text} :
    w.HasPayload path ↔ (ofVariables w.valueOf).hasPullRequestEvent = true ∧
      (ofVariables w.valueOf).payload = some path ∧ w.tree.occupied w.cwd path = true := by
  have htold : (ofVariables w.valueOf).payload = some path ↔
      w.Says "GITHUB_EVENT_PATH".toList path := nonBlank_valueOf
  rw [hasPullRequestEvent_iff, htold]
  constructor
  · rintro ⟨hevent, hpath, hoccupied⟩
    exact ⟨hevent, hpath, hoccupied⟩
  · rintro ⟨hevent, hpath, hoccupied⟩
    exact ⟨hevent, hpath, hoccupied⟩

/-- Owner and repository are those of the name that is told; a name that is not told has no parts. -/
theorem startsName_told {owner repository : Text} (howner : owner ≠ []) (hrepository : repository ≠ []) :
    ownerAndRepository ((ofVariables w.valueOf).repository.getD []) = (owner, repository) ↔
      ∃ name, w.Says "GITHUB_REPOSITORY".toList name ∧ StartsName owner repository name := by
  rw [ownerAndRepository_eq_iff howner hrepository, ← startsName_iff]
  have htold : ∀ name, (ofVariables w.valueOf).repository = some name ↔
      w.Says "GITHUB_REPOSITORY".toList name := fun name => nonBlank_valueOf
  simp only [← htold]
  cases (ofVariables w.valueOf).repository with
  | none =>
    constructor
    · intro hstarts
      -- the empty name holds no slash
      obtain ⟨-, -, hname | ⟨more, hname⟩⟩ := hstarts <;> exact absurd hname (by simp)
    · rintro ⟨name, hname, -⟩
      exact absurd hname (by simp)
  | some name => simp

/-- The runner identifies a pull request exactly if the workflow was told its name and a token. -/
theorem identified?_ofVariables {number : Nat} {p : PullRequest} :
    (ofVariables w.valueOf).identified? number = some p ↔
      p.number = number ∧ w.HasToken p.token ∧ p.owner ≠ [] ∧ p.repository ≠ [] ∧
        ∃ name, w.Says "GITHUB_REPOSITORY".toList name ∧ StartsName p.owner p.repository name := by
  rw [identified?_eq_some, token_ofVariables]
  constructor
  · rintro ⟨hnumber, htoken, howner, hrepository, hparts⟩
    exact ⟨hnumber, htoken, howner, hrepository, (startsName_told howner hrepository).mp hparts⟩
  · rintro ⟨hnumber, htoken, howner, hrepository, hname⟩
    exact ⟨hnumber, htoken, howner, hrepository, (startsName_told howner hrepository).mpr hname⟩

/-- **The pull request behind the event** is the one that the workflow is about. -/
theorem resolves_iff {p : PullRequest} : (ofVariables w.valueOf).Resolves w p ↔ w.IsAbout p := by
  constructor
  · rintro ⟨hevent, path, content, number, hpath, hoccupied, hcontent, hnumber, hidentified⟩
    obtain ⟨rfl, htoken, howner, hrepository, hname⟩ := identified?_ofVariables.mp hidentified
    obtain ⟨hread, hpositive⟩ := payloadNumber_eq_some.mp hnumber
    have hpayload : w.HasPayload path := hasPayload_iff.mpr ⟨hevent, hpath, hoccupied⟩
    exact ⟨⟨path, content, hpayload, hcontent, hread⟩, hpositive, hname, howner, hrepository, htoken⟩
  · rintro ⟨⟨path, content, hpayload, hcontent, hread⟩, hpositive, hname, howner, hrepository, htoken⟩
    obtain ⟨hevent, hpath, hoccupied⟩ := hasPayload_iff.mp hpayload
    exact ⟨hevent, path, content, p.number, hpath, hoccupied, hcontent,
      payloadNumber_eq_some.mpr ⟨hread, hpositive⟩,
      identified?_ofVariables.mpr ⟨rfl, htoken, howner, hrepository, hname⟩⟩

/-- **The runner refuses a payload** exactly if the machine does. -/
theorem refuses_iff {f : Fault} : (ofVariables w.valueOf).Refuses w f ↔ w.RefusesPayload f := by
  constructor
  · rintro ⟨hevent, path, hpath, hoccupied, ⟨cause, htext, rfl⟩ | ⟨content, fault, htext, hfault, rfl⟩⟩
    · exact .unreadable (hasPayload_iff.mpr ⟨hevent, hpath, hoccupied⟩) htext
    · exact .malformed (hasPayload_iff.mpr ⟨hevent, hpath, hoccupied⟩) htext
        (payloadNumber_eq_error.mp hfault)
  · intro h
    cases h with
    | @unreadable path cause hpayload htext =>
      obtain ⟨hevent, hpath, hoccupied⟩ := hasPayload_iff.mp hpayload
      exact ⟨hevent, path, hpath, hoccupied, .inl ⟨cause, htext, rfl⟩⟩
    | @malformed path content fault hpayload htext hfault =>
      obtain ⟨hevent, hpath, hoccupied⟩ := hasPayload_iff.mp hpayload
      exact ⟨hevent, path, hpath, hoccupied,
        .inr ⟨content, fault, htext, payloadNumber_eq_error.mpr hfault, rfl⟩⟩

/-- Machines whose variables tell the same have the same runner. -/
theorem ofVariables_of_says {v : Machine} (h : ∀ name value, v.Says name value ↔ w.Says name value) :
    ofVariables v.valueOf = ofVariables w.valueOf := by
  apply ofVariables_congr
  intro name
  apply Option.ext
  intro value
  rw [nonBlank_valueOf, nonBlank_valueOf, h]

/-! ## (3) The outcome -/

/-- Machines with the same files whose variables tell the same are about the same pull request. -/
theorem isAbout_congr {v : Machine} (htree : v.tree = w.tree) (hcwd : v.cwd = w.cwd)
    (h : ∀ name value, v.Says name value ↔ w.Says name value) (p : PullRequest) :
    v.IsAbout p ↔ w.IsAbout p := by
  rw [← resolves_iff, ← resolves_iff, ofVariables_of_says h, Resolves, Resolves, htree, hcwd]

/-- Machines with the same files whose variables tell the same refuse the same payloads. -/
theorem refusesPayload_congr {v : Machine} (htree : v.tree = w.tree) (hcwd : v.cwd = w.cwd)
    (h : ∀ name value, v.Says name value ↔ w.Says name value) (f : Fault) :
    v.RefusesPayload f ↔ w.RefusesPayload f := by
  rw [← refuses_iff, ← refuses_iff, ofVariables_of_says h, Refuses, Refuses, htree, hcwd]

/-- An outcome is known when it is known what is found and why it fails. -/
theorem eq_of_outcomes {x y : Except Fault (Option PullRequest)}
    (hfound : ∀ p, x = .ok (some p) ↔ y = .ok (some p)) (hfails : ∀ f, x = .error f ↔ y = .error f) :
    x = y := by
  rcases x with f | _ | p
  · exact ((hfails f).mp rfl).symm
  · rcases y with f | _ | p
    · exact (hfails f).mpr rfl
    · rfl
    · exact (hfound p).mpr rfl
  · exact ((hfound p).mp rfl).symm

/-- What looking for the pull request of a workflow gives. -/
theorem outcome_apply (w : Machine) :
    ∃ errors result, (ofHost >>= pullRequest : Session (Except Fault (Option PullRequest))) w =
        (result, { w with errors := errors }) ∧
      (∀ p, result = .ok (some p) ↔ w.IsAbout p) ∧ ∀ f, result = .error f ↔ w.RefusesPayload f := by
  obtain ⟨errors, result, hrun, hfound, hrefused⟩ := pullRequest_apply (ofVariables w.valueOf) w
  refine ⟨errors, result, ?_, ?_, ?_⟩
  · rw [Session.bind_apply, ofHost_apply, hrun]
  · intro p
    rw [hfound, resolves_iff]
  · intro f
    rw [hrefused, refuses_iff]

/-- **What triggered a workflow.** The program finds a pull request exactly if the workflow is about it, fails
exactly if the payload is refused, whatever repository and token are told, and finds nothing in every other
case; it writes on standard error at most. A variable that tells nothing counts as one that is unset: with the
same files, all that matters is what the variables tell. -/
theorem pullRequest_outcome (w : Machine) :
    ∃ errors result, (ofHost >>= pullRequest : Session (Except Fault (Option PullRequest))) w =
        (result, { w with errors := errors }) ∧
      (∀ p, result = .ok (some p) ↔ w.IsAbout p) ∧
      (∀ f, result = .error f ↔ w.RefusesPayload f) ∧
      (result = .ok none ↔ (∀ p, ¬ w.IsAbout p) ∧ ∀ f, ¬ w.RefusesPayload f) ∧
      ∀ v : Machine, v.tree = w.tree → v.cwd = w.cwd →
        (∀ name value, v.Says name value ↔ w.Says name value) →
        ((ofHost >>= pullRequest : Session (Except Fault (Option PullRequest))) v).1 = result := by
  obtain ⟨errors, result, hrun, hfound, hrefused⟩ := outcome_apply w
  refine ⟨errors, result, hrun, hfound, hrefused, ?_, ?_⟩
  · simp only [← hfound, ← hrefused]
    rcases result with f | _ | p <;> simp
  · intro v htree hcwd hsays
    obtain ⟨errors', result', hrun', hfound', hrefused'⟩ := outcome_apply v
    rw [hrun']
    apply eq_of_outcomes
    · intro p
      rw [hfound', hfound, isAbout_congr htree hcwd hsays]
    · intro f
      rw [hrefused', hrefused, refusesPayload_congr htree hcwd hsays]

/-- A workflow with a blank variable, a token with white space around it, and more behind the repository. -/
def loosePullRequest : Machine :=
  .start
    [("GITHUB_EVENT_NAME".toList, "pull_request_target".toList),
      ("GITHUB_EVENT_PATH".toList, "/event".toList), ("GITHUB_REPOSITORY".toList, "o/r/x".toList),
      ("GITHUB_TOKEN".toList, " \t".toList), ("GH_TOKEN".toList, " t ".toList),
      ("INPUT_GITHUB_TOKEN".toList, "u".toList)]
    ⟨[(["event".toList],
      .file (Text.encode "\x7b\"pull_request\":\x7b\"number\":7\x7d\x7d".toList) false)]⟩
    [] [] (.ofScript [])

/-- The same workflow without the blank variable. -/
def tightPullRequest : Machine :=
  { loosePullRequest with
    environment := loosePullRequest.environment.filter fun e => e.1 != "GITHUB_TOKEN".toList }

/-- The second token counts and is not trimmed, and the blank variable might as well be unset. -/
theorem pullRequest_outcome_loose :
    loosePullRequest.IsAbout ⟨"o".toList, "r".toList, 7, " t ".toList⟩ ∧
    (∀ name value, tightPullRequest.Says name value ↔ loosePullRequest.Says name value) ∧
    ((ofHost >>= pullRequest : Session (Except Fault (Option PullRequest))) tightPullRequest).1 =
      .ok (some ⟨"o".toList, "r".toList, 7, " t ".toList⟩) := by
  have habout : loosePullRequest.IsAbout ⟨"o".toList, "r".toList, 7, " t ".toList⟩ := by
    refine resolves_iff.mp ⟨by decide, "/event".toList, _, 7, by decide, by decide, rfl, rfl, by decide⟩
  have hsays : ∀ name value,
      tightPullRequest.Says name value ↔ loosePullRequest.Says name value := by
    intro name value
    by_cases hname : name = "GITHUB_TOKEN".toList
    · have hunset : tightPullRequest.valueOf name = none := by
        rw [hname]
        exact Text.lookup_filter_self _ _
      have hblank : loosePullRequest.valueOf name = some " \t".toList := by
        rw [hname]
        rfl
      constructor
      · rintro ⟨hvalue, -⟩
        rw [hunset] at hvalue
        exact absurd hvalue (by simp)
      · rintro ⟨hvalue, hnot⟩
        obtain rfl := Option.some.inj (hblank.symm.trans hvalue)
        exact absurd hnot (by decide)
    · have hvalue : tightPullRequest.valueOf name = loosePullRequest.valueOf name :=
        Text.lookup_filter_of_ne hname _
      rw [Machine.Says, Machine.Says, hvalue]
  obtain ⟨errors, result, -, hfound, -, -, hsame⟩ := pullRequest_outcome loosePullRequest
  refine ⟨habout, hsays, ?_⟩
  rw [hsame tightPullRequest rfl rfl hsays, hfound]
  exact habout

end Runner

end PullRequest

end ChangeGate
