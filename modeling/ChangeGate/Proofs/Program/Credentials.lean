import ChangeGate.Proofs.Program.Blindness
import ChangeGate.Proofs.Program.Verdict

/-! # What a run tells of its token

A token is sent to the server and goes nowhere else. Two machines are **alike but** for the token, and stay
so: it decides neither what is written nor what is asked, except that no request can be sent with a
token that no header can hold. So a run does the same with any two tokens, if headers can hold both or
none of them (**`run_token_unseen`**), and diagnostics do not show it either. -/

namespace ChangeGate

open CommandLine (Flag)
open PullRequest (Client Runner nonBlank)
open Session (Blind Coupled Matched)

/-! ## (1) Requests without credentials -/

namespace Http

/-- A request without the credentials. -/
def Request.anonymous (r : Request) : Request := { r with authorization := [] }

/-- **A server that reads lines only**: its answer depends on the line of a request, and on those of the
requests before. -/
def Server.ReadsLines (s : Server) : Prop :=
  ∃ rule : List Text → Text → Except Breakdown Response,
    ∀ past r, s past r = rule (past.map Request.line) r.line

/-- The line of a request does not show the credentials. -/
theorem Request.line_eq {r r' : Request} (h : r.anonymous = r'.anonymous) : r.line = r'.line := by
  have hline : r.anonymous.line = r'.anonymous.line := by rw [h]
  exact hline

/-- A server that reads lines only answers alike whatever the credentials are. -/
theorem Server.ReadsLines.answer_eq {s : Server} (h : s.ReadsLines) {past past' : List Request}
    {r r' : Request} (hpast : past.map Request.anonymous = past'.map Request.anonymous)
    (hr : r.anonymous = r'.anonymous) : s past r = s past' r' := by
  obtain ⟨rule, hrule⟩ := h
  have hlines : past.map Request.line = past'.map Request.line := by
    have hmapped := congrArg (List.map Request.line) hpast
    rw [List.map_map, List.map_map] at hmapped
    exact hmapped
  rw [hrule, hrule, hlines, Request.line_eq hr]

/-- A server that gives out responses in turn does not even read lines. -/
theorem readsLines_ofScript (responses : List Response) : (Server.ofScript responses).ReadsLines := by
  refine ⟨fun lines _ => .ok ((responses[lines.length]?).getD .emptyList), ?_⟩
  intro past r
  simp only [Server.ofScript, List.length_map]

end Http

/-! ## (2) Machines with different tokens -/

namespace Machine

/-- A machine on which a variable has a value. -/
def supplied (w : Machine) (name t : Text) : Machine :=
  { w with environment := (name, t) :: w.environment }

@[simp] theorem valueOf_supplied_self (w : Machine) (name t : Text) :
    (w.supplied name t).valueOf name = some t := by
  simp [supplied, valueOf]

theorem valueOf_supplied_of_ne (w : Machine) {name other : Text} (h : other ≠ name) (t : Text) :
    (w.supplied name t).valueOf other = w.valueOf other := by
  have hother : (other == name) = false := by simpa using h
  rw [valueOf, supplied, List.lookup_cons, hother]
  rfl

/-- **Machines that are alike but for a variable**, and for the credentials in the requests that were
sent, the server reading lines only. -/
structure AlikeBut (name t t' : Text) (w w' : Machine) : Prop where
  rest : w' = { w with environment := w'.environment, requests := w'.requests }
  value : w.valueOf name = some t
  value' : w'.valueOf name = some t'
  others {other : Text} : other ≠ name → w'.valueOf other = w.valueOf other
  server : w.server.ReadsLines
  requests : w.requests.map Http.Request.anonymous = w'.requests.map Http.Request.anonymous

variable {name t t' : Text}

/-- Two values of a variable make machines that are alike but for it. -/
theorem alikeBut_supplied {w : Machine} (h : w.server.ReadsLines) :
    AlikeBut name t t' (w.supplied name t) (w.supplied name t') where
  rest := rfl
  value := w.valueOf_supplied_self name t
  value' := w.valueOf_supplied_self name t'
  others hother := by rw [valueOf_supplied_of_ne w hother, valueOf_supplied_of_ne w hother]
  server := h
  requests := rfl

/-- **Being alike but for a variable is neutral**, unless the variable is the one that filters the
log. -/
theorem neutral_alikeBut (h : filterVariable ≠ name) : Neutral (AlikeBut name t t') where
  tree hw := by rw [hw.rest]
  disk hw := by rw [hw.rest]
  writes hw := by rw [hw.rest]
  cwd hw := by rw [hw.rest]
  input hw := by rw [hw.rest]
  terminal hw := by rw [hw.rest]
  filter hw := by rw [filter, filter, hw.others h]
  written s n hw :=
    ⟨congrArg (fun v : Machine => { v with tree := s, writes := n }) hw.rest, hw.value, hw.value', hw.others,
      hw.server, hw.requests⟩
  printed s hw :=
    ⟨congrArg (fun v : Machine => { v with output := v.output ++ s }) hw.rest, hw.value, hw.value',
      hw.others, hw.server, hw.requests⟩
  complained s hw :=
    ⟨congrArg (fun v : Machine => { v with errors := v.errors ++ s }) hw.rest, hw.value, hw.value',
      hw.others, hw.server, hw.requests⟩

end Machine

open Machine (AlikeBut)

variable {name t t' : Text}

/-- Looking up another variable gives the same. -/
theorem blind_lookup_alikeBut {other : Text} (h : other ≠ name) :
    Blind (AlikeBut name t t') (Host.lookup other) :=
  fun _ _ hw => ⟨(hw.others h).symm, hw⟩

/-- **A request is answered alike** whatever its credentials are. -/
theorem coupled_send_alikeBut {r r' : Http.Request} (h : r.anonymous = r'.anonymous) :
    Coupled (AlikeBut name t t') Eq (Host.send r) (Host.send r') := by
  intro w w' hw
  have hserver : w'.server = w.server := by rw [hw.rest]
  refine ⟨?_, ?_⟩
  · rw [Host.send_apply, Host.send_apply, hserver]
    exact hw.server.answer_eq hw.requests h
  · refine ⟨congrArg (fun v : Machine => { v with requests := w'.requests ++ [r'] }) hw.rest,
      hw.value, hw.value', hw.others, hw.server, ?_⟩
    show (w.requests ++ [r]).map _ = (w'.requests ++ [r']).map _
    rw [List.map_append, List.map_append, hw.requests, List.map_singleton, List.map_singleton, h]

/-! ## (3) Pull requests with different tokens -/

namespace PullRequest

/-- **Pull requests that are alike but for the token**, which headers can hold in both cases or in
none. -/
structure Alike (p p' : PullRequest) : Prop where
  rest : p' = { p with token := p'.token }
  legal : Http.isHeaderValue p.token = Http.isHeaderValue p'.token

/-- **Runners that are alike but for the token**, which headers can hold in both cases or in none. -/
structure Runner.Alike (r r' : Runner) : Prop where
  rest : r' = { r with token := r'.token }
  legal : r.token.map Http.isHeaderValue = r'.token.map Http.isHeaderValue

namespace Runner.Alike

variable {r r' : Runner} (h : r.Alike r')
include h

theorem event_eq : r.event = r'.event := by rw [h.rest]

theorem payload_eq : r.payload = r'.payload := by rw [h.rest]

theorem repository_eq : r.repository = r'.repository := by rw [h.rest]

/-- Runners that are alike identify pull requests that are alike. -/
theorem identified (number : Nat) :
    Option.Rel PullRequest.Alike (r.identified? number) (r'.identified? number) := by
  have hlegal := h.legal
  unfold identified?
  rw [h.repository_eq]
  cases htoken : r.token with
  | none =>
    rw [htoken] at hlegal
    rw [Option.map_eq_none_iff.mp hlegal.symm]
    exact .none
  | some token =>
    rw [htoken] at hlegal
    obtain ⟨token', htoken', hsame⟩ := Option.map_eq_some_iff.mp hlegal.symm
    rw [htoken']
    dsimp only
    split
    · exact .none
    · exact .some ⟨rfl, hsame.symm⟩

/-- Runners that are alike make pull requests that are alike of a payload. -/
theorem ofPayload (path content : Text) :
    Matched (Matched PullRequest.Alike) (r.ofPayload path content) (r'.ofPayload path content) := by
  unfold Runner.ofPayload
  rcases payloadNumber content with f | _ | number
  · exact .error _
  · exact .ok (.error _)
  · have hidentified := h.identified number
    dsimp only
    generalize r.identified? number = one, r'.identified? number = two at hidentified
    cases hidentified with
    | none => exact .ok (.error _)
    | some hp => exact .ok (.ok hp)

end Runner.Alike

/-- Two values of a token variable make runners that are alike. -/
theorem Runner.alike_ofVariables {w w' : Machine} (hw : AlikeBut name t t' w w')
    (hname : name ∈ tokenVariables) (ht : Text.blank t = false) (ht' : Text.blank t' = false)
    (hlegal : Http.isHeaderValue t = Http.isHeaderValue t') :
    (Runner.ofVariables w.valueOf).Alike (Runner.ofVariables w'.valueOf) := by
  have hother : ∀ other ∉ tokenVariables, w'.valueOf other = w.valueOf other := by
    intro other hother
    refine hw.others ?_
    rintro rfl
    exact hother hname
  have hnonBlank : ∀ {s}, Text.blank s = false → nonBlank (some s) = some s := by
    intro s hs
    rw [nonBlank, Option.filter_some, hs]
    rfl
  have htoken : ∀ v : Machine, (ofVariables v.valueOf).token.map Http.isHeaderValue =
      tokenVariables.findSome? fun other => (nonBlank (v.valueOf other)).map Http.isHeaderValue :=
    fun v => List.map_findSome? ..
  constructor
  · unfold ofVariables
    rw [hother _ (by decide +kernel), hother _ (by decide +kernel), hother _ (by decide +kernel)]
  · -- the order of the variables decides alike, as no value of this one is blank
    rw [htoken, htoken]
    congr 1
    funext other
    by_cases hsame : other = name
    · rw [hsame, hw.value, hw.value', hnonBlank ht, hnonBlank ht', Option.map_some, Option.map_some,
        hlegal]
    · rw [hw.others hsame]

/-- Pull requests that are alike are asked for alike. -/
theorem Alike.request {p p' : PullRequest} (h : p.Alike p') (c : Client) (page : Nat) :
    Matched (fun r r' => r.anonymous = r'.anonymous) (c.request p page) (c.request p' page) := by
  have haddress : c.listAddress p = c.listAddress p' := by rw [h.rest]; rfl
  unfold Client.request
  rw [haddress, Client.isHeaderValue_credentials, Client.isHeaderValue_credentials, h.legal]
  cases Url.ofText (c.listAddress p') with
  | error f => exact .error _
  | ok u =>
    dsimp only
    split
    · exact .error _
    split
    · exact .error _
    split
    · exact .ok rfl
    · exact .error _

/-- **Listing the files** of pull requests that are alike gives the same. -/
theorem Alike.files {R : Machine → Machine → Prop} (hR : Machine.Neutral R)
    (hsends : ∀ r r', r.anonymous = r'.anonymous → Coupled R Eq (Host.send r) (Host.send r'))
    {p p' : PullRequest} (h : p.Alike p') (c : Client) : Coupled R Eq (c.files p) (c.files p') := by
  refine c.coupled_files hR (fun page => ?_) fun names => ?_
  · refine c.coupled_fetchPage hR hsends ?_ (h.request c page)
    rw [h.rest]
    rfl
  · rw [h.rest]
    rfl

end PullRequest

/-! ## (4) Runs -/

namespace Program

/-- A run is blind to a token, if headers can hold both values of it or none of them. -/
theorem blind_run_alikeBut [Glob.Engine] (hname : name ∈ PullRequest.tokenVariables)
    (ht : Text.blank t = false) (ht' : Text.blank t' = false)
    (hlegal : Http.isHeaderValue t = Http.isHeaderValue t') (arguments : List Text) :
    Blind (AlikeBut name t t') (run arguments) := by
  -- options, log and colors are told by other variables, so the token only takes part in a listing
  have hother : ∀ other ∉ PullRequest.tokenVariables, other ≠ name := by
    rintro other hother rfl
    exact hother hname
  have hR : Machine.Neutral (AlikeBut name t t') :=
    Machine.neutral_alikeBut (hother _ (by decide +kernel))
  have hstandIn : ∀ other ∈ Flag.standIns, other ≠ name := by
    intro other hmem
    exact hother other (by revert other; decide +kernel)
  have hcolors : Blind (AlikeBut name t t') colorContext :=
    blind_colorContext hR (blind_lookup_alikeBut (hother _ (by decide +kernel)))
      (blind_lookup_alikeBut (hother _ (by decide +kernel)))
      (blind_lookup_alikeBut (hother _ (by decide +kernel)))
  refine blind_run hR hcolors ?_ ?_ ?_
  · intro w w' hw
    exact CommandLine.read_congr (fun other hmem => (hw.others (hstandIn other hmem)).symm) arguments
  · intro w w' hw other hmem
    rw [hw.others (hstandIn other hmem)]
  · intro o config
    refine coupled_pullRequestFiles hR (T := Runner.Alike) (S := PullRequest.Alike) ?_ ?_ o config ?_
    · intro w w' hw
      rw [Runner.ofHost_apply, Runner.ofHost_apply]
      exact ⟨Runner.alike_ofVariables hw hname ht ht' hlegal, hw⟩
    · intro r r' h
      exact Runner.coupled_pullRequest hR
        (Runner.coupled_resolve hR h.event_eq h.payload_eq h.ofPayload)
    · intro client p p' h _
      exact h.files hR (fun _ _ => coupled_send_alikeBut) client

/-- **A token is not seen.** With any two tokens in the same variable that are not blank, headers being
able to hold both or none of them, a run on a machine whose server reads lines only ends with the same
status, writes the same, and sends the same requests but for the credentials. Diagnostics of a runner or
of a pull request show no token either. -/
theorem run_token_unseen [Glob.Engine] {w : Machine} (hname : name ∈ PullRequest.tokenVariables)
    (ht : Text.blank t = false) (ht' : Text.blank t' = false)
    (hlegal : Http.isHeaderValue t = Http.isHeaderValue t') (hserver : w.server.ReadsLines)
    (arguments : List Text) :
    (∃ status left left', (run arguments : Session ExitStatus) (w.supplied name t) = (status, left) ∧
      (run arguments : Session ExitStatus) (w.supplied name t') = (status, left') ∧
      left'.output = left.output ∧ left'.errors = left.errors ∧ left'.tree = left.tree ∧
      left'.requests.map Http.Request.anonymous = left.requests.map Http.Request.anonymous) ∧
    (∀ (r : Runner) (s s' : Text),
      { r with token := some s }.describe = { r with token := some s' }.describe) ∧
    ∀ (p : PullRequest) (s s' : Text),
      { p with token := s }.describe = { p with token := s' }.describe := by
  refine ⟨?_, fun _ _ _ => rfl, fun _ _ _ => rfl⟩
  have hblind := blind_run_alikeBut hname ht ht' hlegal arguments _ _
    (Machine.alikeBut_supplied hserver)
  cases hrun : (run arguments : Session ExitStatus) (w.supplied name t) with
  | mk status left =>
    cases hrun' : (run arguments : Session ExitStatus) (w.supplied name t') with
    | mk status' left' =>
      rw [hrun, hrun'] at hblind
      obtain rfl : status = status' := hblind.1
      have hleft : AlikeBut name t t' left left' := hblind.2
      exact ⟨status, left, left', rfl, rfl, by rw [hleft.rest], by rw [hleft.rest],
        by rw [hleft.rest], hleft.requests.symm⟩

/-- With two tokens the same is written and the same is asked, each time with the token. -/
theorem run_token_unseen_document :
    "GITHUB_TOKEN".toList ∈ PullRequest.tokenVariables ∧ documentWorkflow.server.ReadsLines ∧
    ∃ status left left',
      (run ["detect".toList] : Session ExitStatus)
        (documentWorkflow.supplied "GITHUB_TOKEN".toList "first".toList) = (status, left) ∧
      (run ["detect".toList] : Session ExitStatus)
        (documentWorkflow.supplied "GITHUB_TOKEN".toList "second".toList) = (status, left') ∧
      left'.output = left.output ∧ left'.tree = left.tree ∧
      left'.requests.map Http.Request.anonymous = left.requests.map Http.Request.anonymous ∧
      left.requests = [{ documentRequest with authorization := "token first".toList }] ∧
      left'.requests = [{ documentRequest with authorization := "token second".toList }] := by
  have hname : "GITHUB_TOKEN".toList ∈ PullRequest.tokenVariables := by decide +kernel
  have hserver : documentWorkflow.server.ReadsLines := Http.readsLines_ofScript _
  obtain ⟨⟨status, left, left', hrun, hrun', houtput, -, htree, hasked⟩, -⟩ :=
    @run_token_unseen "GITHUB_TOKEN".toList "first".toList "second".toList _ documentWorkflow hname
      (by decide) (by decide) (by decide) hserver ["detect".toList]
  have hsent : ((run ["detect".toList] : Session ExitStatus)
      (documentWorkflow.supplied "GITHUB_TOKEN".toList "first".toList)).2.requests =
        [{ documentRequest with authorization := "token first".toList }] := by
    decide +kernel
  have hsent' : ((run ["detect".toList] : Session ExitStatus)
      (documentWorkflow.supplied "GITHUB_TOKEN".toList "second".toList)).2.requests =
        [{ documentRequest with authorization := "token second".toList }] := by
    decide +kernel
  rw [hrun] at hsent
  rw [hrun'] at hsent'
  exact ⟨hname, hserver, status, left, left', hrun, hrun', houtput, htree, hasked, hsent, hsent'⟩

end Program

end ChangeGate
