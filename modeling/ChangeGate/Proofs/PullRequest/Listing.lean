import ChangeGate.Proofs.Basic
import ChangeGate.Proofs.Host.Session
import ChangeGate.PullRequest.Listing

/-! # The exchange behind a listing

**Client.Lists** describes the exchange with a server that lists the files of a pull request: which
requests are sent from a page on, and what comes of them. It has one rule for each way in which a page
can end the listing or lead to the next one. The exchange is determined by the server and by what it
was asked before (**`Lists.unique`**), each of its requests asks for a page (`Lists.request_of_mem`), and
running `Client.files` is that exchange (**`files_apply`**). It overflows if every page is full
(`Lists.overflow_of_full`), and only after all the pages that have a number
(`Lists.length_of_overflow`). -/

namespace ChangeGate.PullRequest.Client

/-! ## (1) The exchange -/

/-- **The exchange of a listing** from a page on: after the requests `past`, the requests `sent` are
sent, and the listing ends with `result`. -/
inductive Lists (c : Client) (p : PullRequest) (server : Http.Server) :
    List Http.Request → Nat → List Http.Request → Except Fault (List Text) → Prop where
  /-- There are no more numbers for pages. -/
  | overflow {past : List Http.Request} {page : Nat} :
      pageLimit < page → Lists c p server past page [] (.error (.request .overflow))
  /-- The page cannot be asked for. -/
  | unsent {past : List Http.Request} {page : Nat} {f : RequestFault} :
      page ≤ pageLimit → c.request p page = .error f →
      Lists c p server past page [] (.error (.request f))
  /-- There is no response, or it is a fault. -/
  | fault {past : List Http.Request} {page : Nat} {r : Http.Request} {f : Fault} :
      page ≤ pageLimit → c.request p page = .ok r → received (server past r) = .error f →
      Lists c p server past page [r] (.error f)
  /-- The response is no list. -/
  | stop {past : List Http.Request} {page : Nat} {r : Http.Request} :
      page ≤ pageLimit → c.request p page = .ok r → received (server past r) = .ok none →
      Lists c p server past page [r] (.ok [])
  /-- The page is short. -/
  | last {past : List Http.Request} {page : Nat} {r : Http.Request} {elements : List Json.Value} :
      page ≤ pageLimit → c.request p page = .ok r → received (server past r) = .ok (some elements) →
      c.isLast elements = true → Lists c p server past page [r] (.ok (elements.filterMap fileName?))
  /-- The page is full, and the listing goes on with the next one. -/
  | more {past : List Http.Request} {page : Nat} {r : Http.Request} {elements : List Json.Value}
      {sent : List Http.Request} {result : Except Fault (List Text)} :
      page ≤ pageLimit → c.request p page = .ok r → received (server past r) = .ok (some elements) →
      c.isLast elements = false → Lists c p server (past ++ [r]) (page + 1) sent result →
      Lists c p server past page (r :: sent) (result.map (elements.filterMap fileName? ++ ·))

variable {c : Client} {p : PullRequest} {server : Http.Server} {past sent sent' : List Http.Request}
  {page : Nat} {result result' : Except Fault (List Text)}

/-- **The exchange is determined** by the server and what it was asked before. -/
theorem Lists.unique (h : c.Lists p server past page sent result)
    (h' : c.Lists p server past page sent' result') : sent = sent' ∧ result = result' := by
  induction h generalizing sent' result' with
  | overflow hlimit =>
    cases h' with
    | overflow => exact ⟨rfl, rfl⟩
    | _ => omega
  | unsent _ hrequest =>
    cases h' with
    | overflow => omega
    | _ => simp_all
  | fault _ hrequest hpage =>
    cases h' with
    | overflow => omega
    | _ => simp_all
  | stop _ hrequest hpage =>
    cases h' with
    | overflow => omega
    | _ => simp_all
  | last _ hrequest hpage hlast =>
    cases h' with
    | overflow => omega
    | _ => simp_all
  | more _ hrequest hpage hlast _ ih =>
    cases h' with
    | more _ hrequest' hpage' _ hlists =>
      -- the same page is received, so what follows is the same exchange
      obtain rfl := Except.ok.inj (hrequest.symm.trans hrequest')
      obtain rfl := Option.some.inj (Except.ok.inj (hpage.symm.trans hpage'))
      obtain ⟨rfl, rfl⟩ := ih hlists
      exact ⟨rfl, rfl⟩
    | overflow => omega
    | _ => simp_all

/-- Every request of the exchange asks for a page. -/
theorem Lists.request_of_mem (h : c.Lists p server past page sent result) {r : Http.Request}
    (hr : r ∈ sent) : ∃ page, c.request p page = .ok r := by
  induction h with
  | overflow => exact absurd hr (by simp)
  | unsent => exact absurd hr (by simp)
  | fault _ hrequest => exact ⟨_, List.mem_singleton.mp hr ▸ hrequest⟩
  | stop _ hrequest => exact ⟨_, List.mem_singleton.mp hr ▸ hrequest⟩
  | last _ hrequest => exact ⟨_, List.mem_singleton.mp hr ▸ hrequest⟩
  | more _ hrequest _ _ _ ih =>
    rcases List.mem_cons.mp hr with rfl | hr
    · exact ⟨_, hrequest⟩
    · exact ih hr

/-- **The exchange asks for one page after another**, if every page can be asked for. -/
theorem Lists.sent_eq {request : Nat → Http.Request} (h : c.Lists p server past page sent result)
    (hrequest : ∀ page, c.request p page = .ok (request page)) :
    sent = (List.range' page sent.length).map request := by
  have hrequested {page : Nat} {r : Http.Request} (hr : c.request p page = .ok r) : r = request page :=
    Except.ok.inj (hr.symm.trans (hrequest page))
  induction h with
  | overflow => rfl
  | unsent _ hfault =>
    rw [hrequest] at hfault
    exact absurd hfault (by simp)
  | fault _ hr => rw [hrequested hr]; rfl
  | stop _ hr => rw [hrequested hr]; rfl
  | last _ hr => rw [hrequested hr]; rfl
  | more _ hr _ _ _ ih => rw [List.length_cons, List.range'_succ, List.map_cons, ← ih, hrequested hr]

/-- The exchange asks for a page, if it can be asked for and has a number. -/
theorem Lists.sent_ne_nil {r : Http.Request} (h : c.Lists p server past page sent result)
    (hpage : page ≤ pageLimit) (hrequest : c.request p page = .ok r) : sent ≠ [] := by
  cases h with
  | overflow hlimit => exact absurd hpage (Nat.not_le.mpr hlimit)
  | unsent _ hfault =>
    rw [hrequest] at hfault
    exact absurd hfault (by simp)
  | fault => simp
  | stop => simp
  | last => simp
  | more => simp

/-! ## (2) Overflow -/

/-- Making a request is not what overflows. -/
theorem request_ne_overflow (c : Client) (p : PullRequest) (page : Nat) :
    c.request p page ≠ .error .overflow := by
  unfold request
  split
  · simp
  split
  · simp
  split
  · simp
  dsimp only
  split <;> simp

/-- What comes of a request is not what overflows. -/
theorem received_ne_overflow (answer : Except Http.Breakdown Http.Response) :
    received answer ≠ .error (.request .overflow) := by
  cases answer with
  | error b => simp [received]
  | ok r =>
    unfold received pageOf
    dsimp only
    split
    · simp
    split
    · simp
    split <;> simp

/-- **An exchange that overflows has asked for every page** that has a number. -/
theorem Lists.length_of_overflow (h : c.Lists p server past page sent (.error (.request .overflow)))
    (hpage : page ≤ pageLimit + 1) : sent.length + page = pageLimit + 1 := by
  generalize hresult : (.error (.request .overflow) : Except Fault (List Text)) = result at h
  induction h with
  | overflow hlimit =>
    rw [List.length_nil]
    omega
  | unsent _ hrequest =>
    cases hresult
    exact absurd hrequest (request_ne_overflow _ _ _)
  | fault _ _ hanswer =>
    cases hresult
    exact absurd hanswer (received_ne_overflow _)
  | stop => exact absurd hresult (by simp)
  | last => exact absurd hresult (by simp)
  | more hlimit _ _ _ _ ih =>
    -- only the rest of the listing can have overflowed
    have hrest := ih (by omega) (map_eq_error.mp hresult.symm).symm
    rw [List.length_cons]
    omega

/-- **An exchange overflows if every page is full.** -/
theorem Lists.overflow_of_full (h : c.Lists p server past page sent result)
    (hrequest : ∀ page, ∃ r, c.request p page = .ok r)
    (hfull : ∀ past r, ∃ elements, received (server past r) = .ok (some elements) ∧
      c.isLast elements = false) : result = .error (.request .overflow) := by
  induction h with
  | overflow => rfl
  | unsent _ hfault =>
    obtain ⟨r, hr⟩ := hrequest _
    rw [hr] at hfault
    exact absurd hfault (by simp)
  | fault _ _ hanswer =>
    obtain ⟨elements, helements, -⟩ := hfull _ _
    rw [helements] at hanswer
    exact absurd hanswer (by simp)
  | stop _ _ hanswer =>
    obtain ⟨elements, helements, -⟩ := hfull _ _
    rw [helements] at hanswer
    exact absurd hanswer (by simp)
  | last _ _ hanswer hlast =>
    obtain ⟨elements, helements, hmore⟩ := hfull _ _
    rw [helements] at hanswer
    obtain rfl := Option.some.inj (Except.ok.inj hanswer)
    rw [hmore] at hlast
    exact absurd hlast (by simp)
  | more _ _ _ _ _ ih => rw [ih, Except.map]

/-! ## (3) Running a listing -/

variable (c p) (w : Machine)

/-- Asking for a page sends one request, unless it cannot be made. -/
theorem fetchPage_apply (page : Nat) :
    ∃ errors, (c.fetchPage p page : Session _) w =
      match c.request p page with
      | .error f => (.error (.request f), { w with errors := errors })
      | .ok r => (received (w.server w.requests r),
          { w with errors := errors, requests := w.requests ++ [r] }) := by
  obtain ⟨errors, hlog⟩ := Host.log_apply w (c.requestEvent p page)
  refine ⟨errors, ?_⟩
  rw [fetchPage, Session.bind_apply, hlog]
  cases c.request p page with
  | error f => rfl
  | ok r => rfl

/-- **Running a listing from a page on is its exchange**: induction on the numbers that are left for
pages. -/
theorem filesFrom_apply {fuel page : Nat} (h : fuel + page = pageLimit + 1) :
    ∃ errors sent result, c.Lists p w.server w.requests page sent result ∧
      (c.filesFrom p fuel page : Session _) w =
        (result, { w with errors := errors, requests := w.requests ++ sent }) := by
  induction fuel generalizing page w with
  | zero =>
    refine ⟨w.errors, [], .error (.request .overflow), .overflow (by omega), ?_⟩
    rw [List.append_nil]
    rfl
  | succ fuel ih =>
    have hlimit : page ≤ pageLimit := by omega
    obtain ⟨errors, hfetch⟩ := fetchPage_apply c p w page
    rw [filesFrom, Session.bind_apply, hfetch]
    cases hrequest : c.request p page with
    | error f =>
      refine ⟨errors, [], _, .unsent hlimit hrequest, ?_⟩
      rw [List.append_nil]
      rfl
    | ok r =>
      dsimp only
      cases hpage : received (w.server w.requests r) with
      | error f => exact ⟨errors, [r], _, .fault hlimit hrequest hpage, rfl⟩
      | ok found =>
        cases found with
        | none => exact ⟨errors, [r], _, .stop hlimit hrequest hpage, rfl⟩
        | some elements =>
          cases hlast : c.isLast elements with
          | true =>
            refine ⟨errors, [r], _, .last hlimit hrequest hpage hlast, ?_⟩
            simp [hlast]
          | false =>
            have hfuel : fuel + (page + 1) = pageLimit + 1 := by omega
            obtain ⟨errors', sent, result, hlists, hrun⟩ :=
              ih { w with errors := errors, requests := w.requests ++ [r] } hfuel
            refine ⟨errors', r :: sent, _, .more hlimit hrequest hpage hlast hlists, ?_⟩
            rw [List.append_cons]
            cases result <;> simp [hlast, hrun, Except.map]

/-- **Running a whole listing is its exchange** from the first page on. -/
theorem files_apply :
    ∃ errors sent result, c.Lists p w.server w.requests 1 sent result ∧
      (c.files p : Session _) w =
        (result, { w with errors := errors, requests := w.requests ++ sent }) := by
  have hpages : pageLimit + 1 = pageLimit + 1 := rfl
  obtain ⟨errors, sent, result, hlists, hrun⟩ := filesFrom_apply c p w hpages
  rw [files, Session.bind_apply, hrun]
  cases result with
  | error f => exact ⟨errors, sent, _, hlists, rfl⟩
  | ok names =>
    obtain ⟨errors', hlog⟩ :=
      Host.log_apply { w with errors := errors, requests := w.requests ++ sent } (listEvent p names)
    refine ⟨errors', sent, _, hlists, ?_⟩
    simp only [Session.bind_apply, hlog, Session.pure_apply]

end ChangeGate.PullRequest.Client
