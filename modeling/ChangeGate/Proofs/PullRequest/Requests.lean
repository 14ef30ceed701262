import ChangeGate.Proofs.Url.Host
import ChangeGate.PullRequest.Listing

/-! # What a listing asks for

Each request of a listing has the token as its credentials (**`authorization_of_request`**), and its target
comes from an address in which owner, repository and number are written down. The target **names** them only
where owner and repository stand in a path as they are and the address has neither a query nor a fragment
(**`names_of_request`**): dots lead up from where they stand, and other signs end a path. -/

namespace ChangeGate.PullRequest.Client

/-- **A request that names a pull request**: its target ends in the owner, the repository and the number,
with a page in the query. -/
def Names (c : Client) (p : PullRequest) (r : Http.Request) : Prop :=
  ∃ base page, r.target = base ++ '/' :: p.owner ++ '/' :: p.repository ++ "/pulls/".toList ++
    Text.ofNat p.number ++ "/files?".toList ++ c.pageQuery page

/-- The segments at the end of the address of a list. -/
theorem listAddress_eq (c : Client) (p : PullRequest) :
    c.listAddress p = c.address ++ Url.segments ["repos".toList, p.owner, p.repository,
      "pulls".toList, Text.ofNat p.number, "files".toList] := by
  simp only [listAddress, Url.segments_cons, Url.segments_nil, List.append_assoc]
  rfl

/-- The target of a request for an address that ends in plain segments. -/
theorem target_of_plain {c : Client} {p : PullRequest} {url : Url}
    (h : Url.ofText (c.listAddress p) = .ok url) (hweb : Url.isSpecial url.scheme = true)
    (hquery : '?' ∉ c.address) (hfragment : '#' ∉ c.address) (howner : Url.IsPlain p.owner)
    (hrepository : Url.IsPlain p.repository) (query : Text) :
    ∃ base, (url.addQuery query).target = base ++ '/' :: p.owner ++ '/' :: p.repository ++
      "/pulls/".toList ++ Text.ofNat p.number ++ "/files?".toList ++ query := by
  have hplain : ∀ s ∈ [p.owner, p.repository, "pulls".toList, Text.ofNat p.number,
      "files".toList], Url.IsPlain s := by
    simp only [List.forall_mem_cons, List.not_mem_nil, false_implies, implies_true, and_true]
    exact ⟨howner, hrepository, by decide, Url.isPlain_ofNat _, by decide⟩
  rw [listAddress_eq] at h
  obtain ⟨⟨base, hpath⟩, hnone⟩ :=
    Url.path_of_plain (by decide) (by simp) hplain (by simp) hquery hfragment h hweb
  refine ⟨base, ?_⟩
  rw [Url.addQuery, hnone]
  simp only [Url.target, hpath, Url.segments_cons, Url.segments_nil, List.append_assoc]
  rfl

/-- What a request for a page is made of: an address of the web, and the token. -/
theorem request_eq_ok {c : Client} {p : PullRequest} {page : Nat} {r : Http.Request}
    (h : c.request p page = .ok r) :
    ∃ url, Url.ofText (c.listAddress p) = .ok url ∧ Url.isSpecial url.scheme = true ∧
      r = ⟨(url.addQuery (c.pageQuery page)).target, credentials p, listFormat, c.userAgent⟩ := by
  unfold request at h
  cases hurl : Url.ofText (c.listAddress p) with
  | error f =>
    rw [hurl] at h
    exact absurd h (by simp)
  | ok url =>
    rw [hurl] at h
    dsimp only at h
    split at h
    · exact absurd h (by simp)
    split at h
    · exact absurd h (by simp)
    split at h
    · rename_i hscheme
      rw [Url.addQuery_scheme] at hscheme
      exact ⟨url, rfl, Url.isSpecial_of_web hscheme, (Except.ok.inj h).symm⟩
    · exact absurd h (by simp)

/-- **The credentials of a request are the token.** -/
theorem authorization_of_request {c : Client} {p : PullRequest} {page : Nat} {r : Http.Request}
    (h : c.request p page = .ok r) : r.authorization = "token ".toList ++ p.token := by
  obtain ⟨url, -, -, rfl⟩ := request_eq_ok h
  rfl

/-- **A request names its pull request** if owner and repository are plain and the address has neither a
query nor a fragment. -/
theorem names_of_request {c : Client} {p : PullRequest} {page : Nat} {r : Http.Request}
    (h : c.request p page = .ok r) (hquery : '?' ∉ c.address) (hfragment : '#' ∉ c.address)
    (howner : Url.IsPlain p.owner) (hrepository : Url.IsPlain p.repository) : c.Names p r := by
  obtain ⟨url, hurl, hweb, rfl⟩ := request_eq_ok h
  obtain ⟨base, htarget⟩ :=
    target_of_plain hurl hweb hquery hfragment howner hrepository (c.pageQuery page)
  exact ⟨base, page, htarget⟩

/-- A header can hold the credentials exactly if it can hold the token. -/
theorem isHeaderValue_credentials (p : PullRequest) :
    Http.isHeaderValue (credentials p) = Http.isHeaderValue p.token := by
  have hlabel : Http.isHeaderValue "token ".toList = true := by decide
  have happend : Http.isHeaderValue (credentials p) =
      (Http.isHeaderValue "token ".toList && Http.isHeaderValue p.token) :=
    Http.isHeaderValue_append ..
  rw [happend, hlabel, Bool.true_and]

/-- The parts of a query that asks for a page. -/
theorem pageQuery_eq (c : Client) (page : Nat) :
    c.pageQuery page = "per_page=".toList ++ Text.ofNat c.pageSize ++ "&page=".toList ++
      Text.ofNat page := rfl

/-- The request for a page of a list at an address. -/
def pageRequest (c : Client) (p : PullRequest) (url : Url) (page : Nat) : Http.Request where
  target := url.path ++ url.queryStart ++ "per_page=".toList ++ Text.ofNat c.pageSize ++
    "&page=".toList ++ Text.ofNat page
  authorization := "token ".toList ++ p.token
  accept := "application/vnd.github+json".toList
  userAgent := c.userAgent

/-- **The request for a page** can be made when the address is one of the web and a header can hold the
token. Apart from the number of the page it is the same for all pages. -/
theorem request_of_web {c : Client} {p : PullRequest} {url : Url}
    (hurl : Url.ofText (c.listAddress p) = .ok url)
    (hweb : url.scheme = "http".toList ∨ url.scheme = "https".toList)
    (htoken : Http.isHeaderValue p.token = true) (page : Nat) :
    c.request p page = .ok (c.pageRequest p url page) := by
  have hhost : url.hasHost = true := Url.hasHost_of_ofText hurl (Url.isSpecial_of_web hweb)
  have hscheme : (url.addQuery (c.pageQuery page)).scheme = "http".toList ∨
      (url.addQuery (c.pageQuery page)).scheme = "https".toList := by
    rw [Url.addQuery_scheme]
    exact hweb
  unfold request
  rw [hurl]
  dsimp only
  rw [hhost, isHeaderValue_credentials, htoken, if_neg (by simp),
    if_neg (by simp), if_pos hscheme, Url.target_addQuery, pageQuery_eq, pageRequest]
  simp only [List.append_assoc]
  rfl

end ChangeGate.PullRequest.Client
