import ChangeGate.Proofs.PullRequest.Pagination
import ChangeGate.Proofs.PullRequest.Requests

/-! # Listing from any responses

A response **means** a failure, the end of the listing, or a page, and it means exactly one of them
(`exists_means`, `Means.unique`). What a listing is to make of a script of responses is then said without a
look at requests: **ReadsScript** takes the full pages at the start of the script, and the response behind
them ends the listing with its meaning. The exchange of a listing with a server that gives out the
responses in turn follows the script step by step (`lists_of_readsScript`), so it asks for the pages that
are read, in order, and for no further one (**`files_of_script`**). -/

namespace ChangeGate.PullRequest

/-! ## (1) The meaning of a response -/

/-- **What a response means** for a listing. -/
inductive Meaning where
  /-- The listing fails. -/
  | failure (f : Fault)
  /-- There is nothing more to list. -/
  | stop
  /-- These are the elements of a page. -/
  | page (elements : List Json.Value)

/-- A status that tells of an error. -/
def RefusedStatus (status : Nat) : Prop := 400 ≤ status ∧ status ≤ 599

/-- **The meaning of a response** by its status and its text. -/
inductive Means (r : Http.Response) : Meaning → Prop where
  /-- The status tells of an error, whatever the text is. -/
  | refused : RefusedStatus r.status → Means r (.failure (.status r.status r.text))
  /-- The text is not blank, and no value of JSON. -/
  | malformed {f : Json.Fault} : ¬ RefusedStatus r.status → Text.blank r.text = false →
      Json.readDocument r.text = .error f → Means r (.failure (.response r.text f))
  /-- The text is blank. -/
  | blank : ¬ RefusedStatus r.status → Text.blank r.text = true → Means r .stop
  /-- The text is a value, but no list. -/
  | other {v : Json.Value} : ¬ RefusedStatus r.status → Json.readDocument r.text = .ok v →
      (∀ elements, v ≠ .list elements) → Means r .stop
  /-- The text is a list. -/
  | page {elements : List Json.Value} : ¬ RefusedStatus r.status →
      Json.readDocument r.text = .ok (.list elements) → Means r (.page elements)

namespace Meaning

/-- A meaning as a result of fetching a page. -/
def fetched : Meaning → Except Fault (Option (List Json.Value))
  | .failure f => .error f
  | .stop => .ok none
  | .page elements => .ok (some elements)

/-- Whether a page is full, so that the listing goes on behind it. -/
def IsFull (size : Nat) : Meaning → Prop
  | .page elements => size ≤ elements.length
  | _ => False

/-- **What a listing ends with** when a response with a meaning follows some full pages: the failure alone,
or the names on all the pages in order. -/
def result (pages : List (List Json.Value)) : Meaning → Except Fault (List Text)
  | .failure f => .error f
  | .stop => .ok (pages.flatMap Client.namesIn)
  | .page elements => .ok ((pages ++ [elements]).flatMap Client.namesIn)

theorem fetched_injective : Function.Injective fetched := by
  intro m m' h
  cases m <;> cases m' <;> simp_all [fetched]

/-- A page in front adds its names, unless the listing fails. -/
theorem result_cons (elements : List Json.Value) (pages : List (List Json.Value)) (m : Meaning) :
    m.result (elements :: pages) = (m.result pages).map (Client.namesIn elements ++ ·) := by
  cases m <;> rfl

end Meaning

/-- A status is refused exactly if it is one of an error. -/
theorem isError_eq_true {r : Http.Response} : r.isError = true ↔ RefusedStatus r.status := by
  simp [Http.Response.isError, RefusedStatus]

/-- **The client takes a response for what it means.** -/
theorem pageOf_of_means {r : Http.Response} {m : Meaning} (h : Means r m) :
    Client.pageOf r = m.fetched := by
  unfold Client.pageOf
  -- the status is looked at first, then whether there is any text, and the text is read last
  cases h with
  | refused hstatus => rw [if_pos (isError_eq_true.mpr hstatus), Meaning.fetched]
  | malformed hstatus hblank hfault =>
    rw [if_neg (mt isError_eq_true.mp hstatus), hblank, if_neg (by simp), hfault, Meaning.fetched]
  | blank hstatus hblank =>
    rw [if_neg (mt isError_eq_true.mp hstatus), if_pos hblank, Meaning.fetched]
  | @other v hstatus hvalue hlist =>
    rw [if_neg (mt isError_eq_true.mp hstatus), Json.blank_of_readDocument hvalue, if_neg (by simp),
      hvalue]
    cases v with
    | list elements => exact absurd rfl (hlist elements)
    | _ => rfl
  | page hstatus hlist =>
    rw [if_neg (mt isError_eq_true.mp hstatus), Json.blank_of_readDocument hlist, if_neg (by simp),
      hlist, Meaning.fetched]

/-- A response has no two meanings. -/
theorem Means.unique {r : Http.Response} {m m' : Meaning} (h : Means r m) (h' : Means r m') :
    m = m' :=
  Meaning.fetched_injective ((pageOf_of_means h).symm.trans (pageOf_of_means h'))

/-- Every response has a meaning. -/
theorem exists_means (r : Http.Response) : ∃ m, Means r m := by
  by_cases hstatus : RefusedStatus r.status
  · exact ⟨_, .refused hstatus⟩
  · cases hblank : Text.blank r.text with
    | true => exact ⟨_, .blank hstatus hblank⟩
    | false =>
      cases hvalue : Json.readDocument r.text with
      | error f => exact ⟨_, .malformed hstatus hblank hvalue⟩
      | ok v =>
        by_cases hlist : ∃ elements, v = .list elements
        · obtain ⟨elements, rfl⟩ := hlist
          exact ⟨_, .page hstatus hvalue⟩
        · exact ⟨_, .other hstatus hvalue fun elements helements => hlist ⟨elements, helements⟩⟩

/-- The empty list is a page without elements. -/
theorem means_emptyList : Means .emptyList (.page []) := by
  have hlist : Json.readDocument "[]".toList = .ok (.list []) := by cbv
  refine .page (by simp [RefusedStatus, Http.Response.emptyList]) ?_
  rw [show Http.Response.emptyList.text = "[]".toList by decide]
  exact hlist

/-! ## (2) Reading a script -/

/-- **Reading a script** of responses: `pages` are the full pages at its start, and `m` is the meaning of the
response behind them. A script that is used up goes on with an empty list. -/
inductive ReadsScript (size : Nat) :
    List Http.Response → List (List Json.Value) → Meaning → Prop where
  /-- The next response is no full page. -/
  | ends {script : List Http.Response} {m : Meaning} :
      Means (script.headD .emptyList) m → ¬ m.IsFull size → ReadsScript size script [] m
  /-- The next response is a full page. -/
  | full {r : Http.Response} {rest : List Http.Response} {elements : List Json.Value}
      {pages : List (List Json.Value)} {m : Meaning} :
      Means r (.page elements) → size ≤ elements.length → ReadsScript size rest pages m →
      ReadsScript size (r :: rest) (elements :: pages) m

variable {size : Nat} {script : List Http.Response} {pages pages' : List (List Json.Value)}
  {m m' : Meaning}

/-- A script is read in one way. -/
theorem ReadsScript.unique (h : ReadsScript size script pages m)
    (h' : ReadsScript size script pages' m') : pages = pages' ∧ m = m' := by
  induction h generalizing pages' with
  | ends hmeans hfull =>
    cases h' with
    | ends hmeans' _ => exact ⟨rfl, hmeans.unique hmeans'⟩
    | full hmeans' hsize _ =>
      -- a response has one meaning, so it is full in both readings or in none
      obtain rfl := hmeans.unique hmeans'
      exact absurd hsize hfull
  | full hmeans hsize _ ih =>
    cases h' with
    | ends hmeans' hfull =>
      obtain rfl := hmeans'.unique hmeans
      exact absurd hsize hfull
    | full hmeans' _ hrest =>
      obtain ⟨rfl, rfl⟩ := ih hrest
      obtain rfl := Meaning.page.inj (hmeans.unique hmeans')
      exact ⟨rfl, rfl⟩

/-- Every script can be read, for a page that is empty is not full. -/
theorem exists_readsScript (hsize : 0 < size) (script : List Http.Response) :
    ∃ pages m, ReadsScript size script pages m := by
  induction script with
  | nil => exact ⟨[], .page [], .ends means_emptyList (by simp [Meaning.IsFull]; omega)⟩
  | cons r rest ih =>
    obtain ⟨m, hmeans⟩ := exists_means r
    by_cases hfull : m.IsFull size
    · -- only a page can be full, and behind it the rest is read
      cases m with
      | failure f => exact absurd hfull id
      | stop => exact absurd hfull id
      | page elements =>
        obtain ⟨pages, last, hrest⟩ := ih
        exact ⟨elements :: pages, last, .full hmeans hfull hrest⟩
    · exact ⟨[], m, .ends hmeans hfull⟩

/-- There are no more full pages than responses. -/
theorem ReadsScript.length_le (h : ReadsScript size script pages m) :
    pages.length ≤ script.length := by
  induction h with
  | ends => exact Nat.zero_le _
  | full _ _ _ ih => exact Nat.succ_le_succ ih

/-! ## (3) The exchange with a server that follows a script -/

namespace Client

variable {c : Client} {p : PullRequest} {request : Nat → Http.Request}

/-- A page is the last one exactly if it is not full. -/
theorem isLast_iff (hsize : 0 < c.pageSize) {elements : List Json.Value} :
    c.isLast elements = true ↔ ¬ (Meaning.page elements).IsFull c.pageSize := by
  rw [isLast, Bool.or_eq_true, decide_eq_true_eq, List.isEmpty_iff, Meaning.IsFull, Nat.not_le,
    ← List.length_eq_zero_iff]
  omega

/-- The response of a server that follows a script is the first one that is left of the script. -/
theorem ofScript_apply {left : List Http.Response} {past : List Http.Request}
    (hleft : script.drop past.length = left) (r : Http.Request) :
    Http.Server.ofScript script past r = .ok (left.headD .emptyList) := by
  rw [Http.Server.ofScript, ← hleft, List.headD_eq_head?_getD, List.head?_drop]

/-- **The exchange follows the script** from any place of it on: induction on the full pages that are read
from there. -/
theorem lists_of_readsScript (hsize : 0 < c.pageSize)
    (hrequest : ∀ page, c.request p page = .ok (request page)) (hlimit : script.length < pageLimit)
    {left : List Http.Response} (h : ReadsScript c.pageSize left pages m) {past : List Http.Request}
    (hleft : script.drop past.length = left) (hpast : past.length ≤ script.length) :
    c.Lists p (.ofScript script) past (past.length + 1)
      ((List.range' (past.length + 1) (pages.length + 1)).map request) (m.result pages) := by
  have hpage : past.length + 1 ≤ pageLimit := by omega
  induction h generalizing past with
  | @ends left m hmeans hfull =>
    have hfetched : received (Http.Server.ofScript script past (request (past.length + 1))) =
        m.fetched := by
      rw [ofScript_apply hleft]
      exact pageOf_of_means hmeans
    cases m with
    | failure f => exact .fault hpage (hrequest _) hfetched
    | stop => exact .stop hpage (hrequest _) hfetched
    | page elements =>
      have hlists := Lists.last hpage (hrequest _) hfetched ((isLast_iff hsize).mpr hfull)
      rw [filterMap_fileName?] at hlists
      rw [Meaning.result, List.nil_append, List.flatMap_singleton]
      exact hlists
  | @full r rest elements pages m hmeans hfull _ ih =>
    have hfetched : received (Http.Server.ofScript script past (request (past.length + 1))) =
        .ok (some elements) := by
      rw [ofScript_apply hleft]
      exact pageOf_of_means hmeans
    have hlast : c.isLast elements = false := by
      rw [← Bool.not_eq_true, isLast_iff hsize, not_not]
      exact hfull
    -- the response of this page is used up, and the next one is asked for with the rest
    have hlt : past.length < script.length := by
      have hcount := congrArg List.length hleft
      rw [List.length_drop, List.length_cons] at hcount
      omega
    have hlength : (past ++ [request (past.length + 1)]).length = past.length + 1 := by
      rw [List.length_append, List.length_singleton]
    have hrest : script.drop (past ++ [request (past.length + 1)]).length = rest := by
      rw [hlength, ← List.tail_drop, hleft, List.tail_cons]
    have hnext := ih hrest (by omega) (by omega)
    rw [hlength] at hnext
    have hlists := Lists.more hpage (hrequest _) hfetched hlast hnext
    rw [filterMap_fileName?] at hlists
    rw [List.length_cons, List.range'_succ, List.map_cons, Meaning.result_cons]
    exact hlists

/-! ## (4) The whole listing -/

/-- **A listing reads the script of the server.** The script is read in one way, and the listing ends with
what that reading ends with. It asks for the pages that are read in order, beginning with the first one,
and for one page at most that the script says nothing about; apart from the number of the page all the
requests are the same. -/
theorem files_of_script {s : ServerSettings} {address : Text} {url : Url} {w : Machine}
    (hc : Client.of s address = .ok c) (hurl : Url.ofText (c.listAddress p) = .ok url)
    (hweb : url.scheme = "http".toList ∨ url.scheme = "https".toList)
    (htoken : Http.isHeaderValue p.token = true) (hscript : script.length < 4294967295)
    (hserver : w.server = .ofScript script) (hpast : w.requests = []) :
    c.pageSize = max 1 (min s.pageSize 100) ∧
    ∃ pages m, (∀ pages' m', ReadsScript c.pageSize script pages' m' ↔ pages' = pages ∧ m' = m) ∧
      pages.length ≤ script.length ∧
      ∃ errors, (c.files p : Session _) w =
        (m.result pages,
          { w with
            errors := errors
            requests := (List.range' 1 (pages.length + 1)).map (c.pageRequest p url) }) := by
  have hpageSize : c.pageSize = max 1 (min s.pageSize maxPageSize) := pageSize_of hc
  refine ⟨hpageSize, ?_⟩
  have hsize : 0 < c.pageSize := by omega
  have hlimit : script.length < pageLimit := by rwa [pageLimit]
  obtain ⟨pages, m, hreads⟩ := exists_readsScript hsize script
  refine ⟨pages, m, ?_, hreads.length_le, ?_⟩
  · intro pages' m'
    constructor
    · exact fun h => h.unique hreads
    · rintro ⟨rfl, rfl⟩
      exact hreads
  · have hrequest := request_of_web hurl hweb htoken
    have hnone : script.drop ([] : List Http.Request).length = script := rfl
    have hlists := lists_of_readsScript hsize hrequest hlimit hreads hnone (Nat.zero_le _)
    rw [List.length_nil, Nat.zero_add] at hlists
    -- running the listing is an exchange, and there is no other one than that of the script
    obtain ⟨errors, sent, result, hrun, hfiles⟩ := files_apply c p w
    rw [hserver, hpast] at hrun
    obtain ⟨hsent, hresult⟩ := hrun.unique hlists
    rw [hpast, List.nil_append sent] at hfiles
    rw [hresult, hsent] at hfiles
    exact ⟨errors, hfiles⟩

/-- Two entries, of which the second one has no name. -/
def namedAndNameless : List Json.Value :=
  [.object [("filename".toList, .string "a".toList)], .object [("sha".toList, .string "x".toList)]]

/-- A page with more elements than were asked for, and then an error of the server. -/
def overlongThenRefused : List Http.Response :=
  [⟨200, Text.encode "[\x7b\"filename\":\"a\"\x7d,\x7b\"sha\":\"x\"\x7d]".toList⟩,
    ⟨500, Text.encode "boom".toList⟩]

/-- A page that is too long is full too, and an error behind it leaves nothing of its names. -/
theorem files_of_script_refused :
    Client.of ⟨none, 0, "pathgate".toList, 30⟩ "http://h/".toList = .ok smallestClient ∧
    Url.ofText (smallestClient.listAddress ⟨"o".toList, "r".toList, 7, "t".toList⟩) =
      .ok ⟨"http".toList, some "h".toList, "/repos/o/r/pulls/7/files".toList, none, none⟩ ∧
    Http.isHeaderValue "t".toList = true ∧ overlongThenRefused.length < 4294967295 ∧
    ∃ errors, (smallestClient.files ⟨"o".toList, "r".toList, 7, "t".toList⟩ : Session _)
        (.start [] ⟨[]⟩ [] [] (.ofScript overlongThenRefused)) =
      (.error (.status 500 "boom".toList),
        { Machine.start [] ⟨[]⟩ [] [] (.ofScript overlongThenRefused) with
          errors := errors
          requests := [smallestRequest 1, smallestRequest 2] }) := by
  have hclient : Client.of ⟨none, 0, "pathgate".toList, 30⟩ "http://h/".toList =
      .ok smallestClient := by decide
  have hurl : Url.ofText (smallestClient.listAddress ⟨"o".toList, "r".toList, 7, "t".toList⟩) =
      .ok ⟨"http".toList, some "h".toList, "/repos/o/r/pulls/7/files".toList, none, none⟩ := by
    decide +kernel
  have htoken : Http.isHeaderValue "t".toList = true := by decide
  have hscript : overlongThenRefused.length < 4294967295 := by decide
  -- the script is read as a full page and a failure
  have hlist : Json.readDocument "[\x7b\"filename\":\"a\"\x7d,\x7b\"sha\":\"x\"\x7d]".toList =
      .ok (.list namedAndNameless) := by cbv
  have hpage : Means ⟨200,
      Text.encode "[\x7b\"filename\":\"a\"\x7d,\x7b\"sha\":\"x\"\x7d]".toList⟩
      (.page namedAndNameless) := by
    refine .page (by simp [RefusedStatus]) ?_
    rw [show Http.Response.text _ =
      "[\x7b\"filename\":\"a\"\x7d,\x7b\"sha\":\"x\"\x7d]".toList by decide]
    exact hlist
  have hrefused : Means ⟨500, Text.encode "boom".toList⟩ (.failure (.status 500 "boom".toList)) := by
    have htext : Http.Response.text ⟨500, Text.encode "boom".toList⟩ = "boom".toList := by decide
    rw [← htext]
    exact .refused (by simp [RefusedStatus])
  have hreads : ReadsScript smallestClient.pageSize overlongThenRefused [namedAndNameless]
      (.failure (.status 500 "boom".toList)) :=
    .full hpage (by decide) (.ends hrefused id)
  obtain ⟨-, pages, m, hunique, -, errors, hrun⟩ := files_of_script
    (w := .start [] ⟨[]⟩ [] [] (.ofScript overlongThenRefused)) hclient hurl (.inl rfl) htoken
    hscript rfl rfl
  obtain ⟨rfl, rfl⟩ := (hunique _ _).mp hreads
  exact ⟨hclient, hurl, htoken, hscript, errors, hrun⟩

end Client

end ChangeGate.PullRequest
