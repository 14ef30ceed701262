import ChangeGate.Proofs.Json.Category
import ChangeGate.Proofs.PullRequest.Script

/-! # Refused listings

A listing **reaches** a page when the responses for the pages before it are full pages. If the response that
it receives there has the status of an error, nothing that was listed before counts: the listing ends with
this status and the text of this response, and no listing ends with a status in another way
(**`files_of_refused`**). The statuses of errors end at 599; a response with a status beyond that is taken for
what its text is (`pageOf_of_overlarge`, `files_of_overlarge`). A text that cannot be read ends the listing,
too, but never for the shape of what it says (**`files_of_unreadable`**). -/

namespace ChangeGate.PullRequest

/-- The meaning of a response is the one that the client takes it for. -/
theorem means_of_pageOf {r : Http.Response} {m : Meaning} (h : Client.pageOf r = m.fetched) :
    Means r m := by
  obtain ⟨m', hmeans⟩ := exists_means r
  have hsame : m.fetched = m'.fetched := h.symm.trans (pageOf_of_means hmeans)
  rwa [Meaning.fetched_injective hsame]

/-- A response that means an error of a status has this status and this text. -/
theorem Means.eq_of_status {r : Http.Response} {status : Nat} {body : Text}
    (h : Means r (.failure (.status status body))) :
    RefusedStatus r.status ∧ r.status = status ∧ r.text = body := by
  cases h with
  | refused hstatus => exact ⟨hstatus, rfl, rfl⟩

namespace Client

/-! ## (1) The pages that a listing reaches -/

/-- **A listing reaches a page** from another one, with the requests that were sent before each of them: every
page from the one to the other is full. -/
inductive Reaches (c : Client) (p : PullRequest) (server : Http.Server) :
    List Http.Request → Nat → List Http.Request → Nat → Prop where
  /-- The page is reached from itself, if there is such a number. -/
  | here {past : List Http.Request} {page : Nat} :
      page ≤ pageLimit → Reaches c p server past page past page
  /-- The response is a full page, and the other one is reached from the next page. -/
  | next {past past' : List Http.Request} {page page' : Nat} {r : Http.Request}
      {response : Http.Response} {elements : List Json.Value} :
      page ≤ pageLimit → c.request p page = .ok r → server past r = .ok response →
      Means response (.page elements) →
      elements ≠ [] → c.pageSize ≤ elements.length →
      Reaches c p server (past ++ [r]) (page + 1) past' page' →
      Reaches c p server past page past' page'

variable {c : Client} {p : PullRequest} {server : Http.Server} {past past' sent : List Http.Request}
  {page page' : Nat} {r : Http.Request} {f : Fault} {result : Except Fault (List Text)}

/-- A page has others behind it exactly if it holds as many elements as it can. -/
theorem isLast_eq_false {elements : List Json.Value} :
    c.isLast elements = false ↔ elements ≠ [] ∧ c.pageSize ≤ elements.length := by
  rw [isLast, Bool.or_eq_false_iff, List.isEmpty_eq_false_iff, decide_eq_false_iff_not, Nat.not_lt]

/-- **A failure at a page that is reached is the failure of the listing**: induction on the pages before it,
which leave their requests but none of their names. -/
theorem Reaches.lists_error (h : c.Reaches p server past page past' page')
    (hrequest : c.request p page' = .ok r) (hfail : received (server past' r) = .error f) :
    ∃ sent, past' = past ++ sent ∧ c.Lists p server past page (sent ++ [r]) (.error f) := by
  induction h with
  | here hlimit => exact ⟨[], (List.append_nil _).symm, .fault hlimit hrequest hfail⟩
  | @next past past' page page' q response elements hlimit hq hanswer hmeans hne hfull _ ih =>
    obtain ⟨sent, hpast, hlists⟩ := ih hrequest hfail
    have hfetched : received (server past q) = .ok (some elements) := by
      rw [hanswer]
      exact pageOf_of_means hmeans
    have hmore := Lists.more hlimit hq hfetched (isLast_eq_false.mpr ⟨hne, hfull⟩) hlists
    refine ⟨q :: sent, ?_, hmore⟩
    rw [hpast, List.append_assoc, List.singleton_append]

/-- A page is received from a response. -/
theorem exists_of_received {answer : Except Http.Breakdown Http.Response}
    {found : Option (List Json.Value)} (h : received answer = .ok found) :
    ∃ response, answer = .ok response ∧ pageOf response = .ok found := by
  cases answer with
  | error b => exact absurd h (by simp [received])
  | ok response => exact ⟨response, rfl, h⟩

/-- **A listing that fails for a response has received it** at a page that it reached: induction on the
exchange. -/
theorem Lists.reaches_of_fault (h : c.Lists p server past page sent result) (hresult : result = .error f)
    (hf : ∀ q, f ≠ .request q) :
    ∃ past' page' r response, c.Reaches p server past page past' page' ∧ c.request p page' = .ok r ∧
      server past' r = .ok response ∧ pageOf response = .error f := by
  induction h with
  | overflow => exact absurd (Except.error.inj hresult).symm (hf _)
  | unsent => exact absurd (Except.error.inj hresult).symm (hf _)
  | stop => exact absurd hresult (by simp)
  | last => exact absurd hresult (by simp)
  | @fault past page r f' hlimit hrequest hpage =>
    obtain rfl := Except.error.inj hresult
    cases hanswer : server past r with
    | error b =>
      rw [hanswer] at hpage
      exact absurd (Except.error.inj hpage).symm (hf _)
    | ok response =>
      rw [hanswer] at hpage
      exact ⟨past, page, r, response, .here hlimit, hrequest, hanswer, hpage⟩
  | @more past page q elements sent result hlimit hrequest hpage hlast _ ih =>
    obtain ⟨past', page', r, last, hreaches, hreceived⟩ := ih (map_eq_error.mp hresult)
    obtain ⟨response, hanswer, hfetched⟩ := exists_of_received hpage
    have hmeans : Means response (.page elements) := means_of_pageOf hfetched
    obtain ⟨hne, hfull⟩ := isLast_eq_false.mp hlast
    exact ⟨past', page', r, last, .next hlimit hrequest hanswer hmeans hne hfull hreaches, hreceived⟩

/-! ## (2) Whole listings -/

/-- **A status of an error ends the listing**, whatever the text of the response is and whatever was listed
before: the result is this status with this text, without any names, and the request that received it is the
last one. A listing fails with a status only so. -/
theorem files_of_refused (c : Client) (p : PullRequest) (w : Machine) :
    (∀ past page r response, c.Reaches p w.server w.requests 1 past page → c.request p page = .ok r →
      w.server past r = .ok response → 400 ≤ response.status → response.status ≤ 599 →
      ∃ errors, (c.files p : Session _) w =
        (.error (.status response.status response.text),
          { w with errors := errors, requests := past ++ [r] })) ∧
    ∀ status body, ((c.files p : Session _) w).1 = .error (.status status body) →
      400 ≤ status ∧ status ≤ 599 ∧
      ∃ past page r response, c.Reaches p w.server w.requests 1 past page ∧
        c.request p page = .ok r ∧ w.server past r = .ok response ∧ response.status = status ∧
        response.text = body := by
  obtain ⟨errors, sent, result, hlists, hrun⟩ := files_apply c p w
  rw [hrun]
  constructor
  · intro past page r response hreaches hrequest hanswer hlow hhigh
    have hfail : received (w.server past r) = .error (.status response.status response.text) := by
      rw [hanswer]
      exact pageOf_of_means (.refused ⟨hlow, hhigh⟩)
    obtain ⟨before, rfl, hfailed⟩ := hreaches.lists_error hrequest hfail
    -- there is one exchange only, so the run is the one that fails
    obtain ⟨rfl, rfl⟩ := hlists.unique hfailed
    rw [List.append_assoc]
    exact ⟨errors, rfl⟩
  · intro status body hresult
    obtain ⟨past, page, r, response, hreaches, hrequest, hanswer, hpage⟩ :=
      hlists.reaches_of_fault hresult (by simp)
    have hmeans : Means response (.failure (.status status body)) := means_of_pageOf hpage
    obtain ⟨hrefused, rfl, htext⟩ := hmeans.eq_of_status
    exact ⟨hrefused.1, hrefused.2, past, page, r, response, hreaches, hrequest, hanswer, rfl, htext⟩

/-- A pull request of the smallest client. -/
def smallestPull : PullRequest := ⟨"o".toList, "r".toList, 7, "t".toList⟩

/-- Every page of its files can be asked for. -/
theorem request_smallestPull (page : Nat) :
    smallestClient.request smallestPull page = .ok (smallestRequest page) := by
  have hurl : Url.ofText (smallestClient.listAddress smallestPull) =
      .ok ⟨"http".toList, some "h".toList, "/repos/o/r/pulls/7/files".toList, none, none⟩ := by
    decide +kernel
  have htoken : Http.isHeaderValue smallestPull.token = true := by decide
  exact request_of_web hurl (.inl rfl) htoken page

/-- An entry with a name. -/
def namedEntry : List Json.Value := [.object [("filename".toList, .string "a".toList)]]

/-- The text of a list of this entry. -/
def namedText : Text := "[\x7b\"filename\":\"a\"\x7d]".toList

/-- A success with this text is a page. -/
theorem means_namedText : Means ⟨200, Text.encode namedText⟩ (.page namedEntry) := by
  have htext : Http.Response.text ⟨200, Text.encode namedText⟩ = namedText := by decide
  have hlist : Json.readDocument namedText = .ok (.list namedEntry) := by cbv
  refine .page (by simp [RefusedStatus]) ?_
  rw [htext]
  exact hlist

/-- A full page, and then an error of the server whose text is a list too. -/
def pageThenRefused : List Http.Response :=
  [⟨200, Text.encode namedText⟩, ⟨404, Text.encode namedText⟩]

/-- Neither the list behind the error nor the page before it is listed. -/
theorem files_of_refused_list :
    smallestClient.Reaches smallestPull (.ofScript pageThenRefused) [] 1 [smallestRequest 1] 2 ∧
    smallestClient.request smallestPull 2 = .ok (smallestRequest 2) ∧
    ∃ errors, (smallestClient.files smallestPull : Session _)
        (.start [] ⟨[]⟩ [] [] (.ofScript pageThenRefused)) =
      (.error (.status 404 namedText),
        { Machine.start [] ⟨[]⟩ [] [] (.ofScript pageThenRefused) with
          errors := errors
          requests := [smallestRequest 1, smallestRequest 2] }) := by
  have hfirst : Http.Server.ofScript pageThenRefused [] (smallestRequest 1) =
      .ok ⟨200, Text.encode namedText⟩ := rfl
  have hsecond : Http.Server.ofScript pageThenRefused [smallestRequest 1] (smallestRequest 2) =
      .ok ⟨404, Text.encode namedText⟩ := rfl
  have hreaches : smallestClient.Reaches smallestPull (.ofScript pageThenRefused) [] 1
      [smallestRequest 1] 2 :=
    .next (by decide) (request_smallestPull 1) hfirst means_namedText (by decide) (by decide)
      (.here (by decide))
  have hrun := (files_of_refused smallestClient smallestPull
    (.start [] ⟨[]⟩ [] [] (.ofScript pageThenRefused))).1 _ _ _ _ hreaches (request_smallestPull 2) hsecond
    (by decide) (by decide)
  have htext : Http.Response.text ⟨404, Text.encode namedText⟩ = namedText := by decide
  rw [← htext]
  exact ⟨hreaches, request_smallestPull 2, hrun⟩

/-! ## (3) Statuses beyond those of errors -/

/-- **A status beyond 599 is taken for that of a success.** -/
theorem pageOf_of_overlarge {status : Nat} (h : 600 ≤ status) (body : Text.Bytes) :
    pageOf ⟨status, body⟩ = pageOf ⟨200, body⟩ := by
  have herror : Http.Response.isError ⟨status, body⟩ = false := by
    rw [← Bool.not_eq_true, isError_eq_true]
    rintro ⟨-, hhigh⟩
    exact absurd hhigh (by dsimp only; omega)
  have hsuccess : Http.Response.isError ⟨200, body⟩ = false := rfl
  have htext : Http.Response.text ⟨status, body⟩ = Http.Response.text ⟨200, body⟩ := by
    have hbare : Http.Response.isBare ⟨status, body⟩ = false := by
      simp only [Http.Response.isBare, Bool.or_eq_false_iff, beq_eq_false_iff_ne]
      omega
    rw [Http.Response.text, Http.Response.text, hbare]
    rfl
  -- so only the text decides
  rw [pageOf, pageOf, herror, hsuccess, htext]
  rfl

/-- One response, whose status is beyond those of errors. -/
def overlarge : List Http.Response := [⟨600, Text.encode namedText⟩]

/-- What such a response holds is listed, although its status is not one of a success. -/
theorem files_of_overlarge :
    smallestClient.Reaches smallestPull (.ofScript overlarge) [] 1 [] 1 ∧
    smallestClient.request smallestPull 1 = .ok (smallestRequest 1) ∧
    Http.Server.ofScript overlarge [] (smallestRequest 1) = .ok ⟨600, Text.encode namedText⟩ ∧
    ((smallestClient.files smallestPull : Session _)
      (.start [] ⟨[]⟩ [] [] (.ofScript overlarge))).1 = .ok ["a".toList] := by
  have hanswer : Http.Server.ofScript overlarge [] (smallestRequest 1) =
      .ok ⟨600, Text.encode namedText⟩ := rfl
  have hbehind : Http.Server.ofScript overlarge [smallestRequest 1] (smallestRequest 2) =
      .ok .emptyList := rfl
  have hpage : received (Http.Server.ofScript overlarge [] (smallestRequest 1)) =
      .ok (some namedEntry) := by
    rw [hanswer]
    exact (pageOf_of_overlarge (le_refl 600) _).trans (pageOf_of_means means_namedText)
  have hempty : received (Http.Server.ofScript overlarge [smallestRequest 1] (smallestRequest 2)) =
      .ok (some []) := by
    rw [hbehind]
    exact pageOf_of_means means_emptyList
  -- the page is full, and the one behind it is empty
  have hlists := Lists.more (by decide) (request_smallestPull 1) hpage (by decide)
    (Lists.last (by decide) (request_smallestPull 2) hempty (by decide))
  obtain ⟨errors, sent, result, hrun, hfiles⟩ := files_apply smallestClient smallestPull
    (.start [] ⟨[]⟩ [] [] (.ofScript overlarge))
  obtain ⟨-, rfl⟩ := hrun.unique hlists
  refine ⟨.here (by decide), request_smallestPull 1, hanswer, ?_⟩
  rw [hfiles]
  rfl

/-! ## (4) Texts that cannot be read -/

/-- A response that cannot be read is one whose text is no document. -/
theorem readDocument_of_pageOf {response : Http.Response} {body : Text} {f : Json.Fault}
    (h : pageOf response = .error (.response body f)) :
    response.text = body ∧ Json.readDocument body = .error f := by
  unfold pageOf at h
  split at h
  · exact absurd h (by simp)
  split at h
  · exact absurd h (by simp)
  split at h
  · rename_i fault hread
    obtain ⟨rfl, rfl⟩ := Fault.response.inj (Except.error.inj h)
    exact ⟨rfl, hread⟩
  · exact absurd h (by simp)
  · exact absurd h (by simp)

/-- **No listing fails for the shape of a response.** If a listing fails because a text cannot be read, this is
the text of a response at a page that it reached, and the text is malformed or ends too early. -/
theorem files_of_unreadable (c : Client) (p : PullRequest) (w : Machine) {body : Text} {f : Json.Fault}
    (h : ((c.files p : Session _) w).1 = .error (.response body f)) :
    Json.readDocument body = .error f ∧ f.reason.category ≠ .wrongShape ∧
      ∃ past page r response, c.Reaches p w.server w.requests 1 past page ∧
        c.request p page = .ok r ∧ w.server past r = .ok response ∧ response.text = body := by
  obtain ⟨errors, sent, result, hlists, hrun⟩ := files_apply c p w
  rw [hrun] at h
  obtain ⟨past, page, r, response, hreaches, hrequest, hanswer, hpage⟩ :=
    hlists.reaches_of_fault h (by simp)
  obtain ⟨htext, hread⟩ := readDocument_of_pageOf hpage
  exact ⟨hread, Json.formal_readDocument body f hread, past, page, r, response, hreaches, hrequest,
    hanswer, htext⟩

end Client

end ChangeGate.PullRequest
