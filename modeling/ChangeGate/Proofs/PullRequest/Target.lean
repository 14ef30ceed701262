import ChangeGate.Proofs.PullRequest.Requests
import ChangeGate.Proofs.PullRequest.Pagination
import ChangeGate.Proofs.Url.Place

/-! # The targets of a listing

The address of a list is put together as a text and then read as an address. Where its parts are plain, reading
changes none of them, so the target of a request is the path of the server, the segments of the list and the
page (`request_of_place`), and it tells which list and which page are asked for (`filesTarget_inj`). A client
drops the slashes at the end of the address of its server, so their number does not matter; and a listing sends
the requests for the pages in turn (**`files_targets`**). -/

namespace ChangeGate.PullRequest

/-! ## (1) Targets -/

/-- **What a request for a page of the files of a pull request asks for**, at a server with a path. -/
def filesTarget (base : List Text) (size : Nat) (p : PullRequest) (page : Nat) : Text :=
  Url.segments base ++ "/repos/".toList ++ p.owner ++ '/' :: p.repository ++ "/pulls/".toList ++
    Text.ofNat p.number ++ "/files?per_page=".toList ++ Text.ofNat size ++ "&page=".toList ++
    Text.ofNat page

/-- The segments of the list of the files of a pull request. -/
def listSegments (p : PullRequest) : List Text :=
  ["repos".toList, p.owner, p.repository, "pulls".toList, Text.ofNat p.number, "files".toList]

variable {base : List Text} {p p' : PullRequest}

/-- A target consists of plain segments and a query. -/
theorem filesTarget_eq (base : List Text) (size : Nat) (p : PullRequest) (page : Nat) :
    filesTarget base size p page = Url.segments (base ++ listSegments p) ++
      '?' :: ("per_page=".toList ++ Text.ofNat size ++ "&page=".toList ++ Text.ofNat page) := by
  rw [Url.segments, List.flatMap_append, ← Url.segments, ← Url.segments]
  simp only [filesTarget, listSegments, Url.segments_cons, Url.segments_nil, List.append_assoc]
  rfl

/-- The segments of a list are plain if owner and repository are words. -/
theorem isPlain_listSegments (hbase : ∀ t ∈ base, Url.IsWord t) (howner : Url.IsWord p.owner)
    (hrepository : Url.IsWord p.repository) : ∀ s ∈ base ++ listSegments p, Url.IsPlain s := by
  intro s hs
  rcases List.mem_append.mp hs with hs | hs
  · exact (hbase s hs).isPlain
  · simp only [listSegments, List.mem_cons, List.not_mem_nil, or_false] at hs
    rcases hs with rfl | rfl | rfl | rfl | rfl | rfl
    · decide
    · exact howner.isPlain
    · exact hrepository.isPlain
    · decide
    · exact Url.isPlain_ofNat _
    · decide

/-- **A target tells what is asked for**: different owners, repositories, numbers and pages never share one. -/
theorem filesTarget_inj (hbase : ∀ t ∈ base, Url.IsWord t) (howner : Url.IsWord p.owner)
    (hrepository : Url.IsWord p.repository) (howner' : Url.IsWord p'.owner)
    (hrepository' : Url.IsWord p'.repository) {size page page' : Nat}
    (h : filesTarget base size p page = filesTarget base size p' page') :
    p.owner = p'.owner ∧ p.repository = p'.repository ∧ p.number = p'.number ∧ page = page' := by
  have hplain := isPlain_listSegments hbase howner hrepository
  have hplain' := isPlain_listSegments hbase howner' hrepository'
  rw [filesTarget_eq, filesTarget_eq] at h
  -- the path ends at the first question mark
  have hpath : Url.segments (base ++ listSegments p) = Url.segments (base ++ listSegments p') := by
    have hpieces := congrArg (Text.pieces '?') h
    rw [Text.pieces_append (Url.not_mem_segments hplain (by decide)),
      Text.pieces_append (Url.not_mem_segments hplain' (by decide))] at hpieces
    exact (List.cons.inj hpieces).1
  have hsegments : listSegments p = listSegments p' :=
    List.append_cancel_left (Url.segments_inj hplain hplain' hpath)
  have hpage : Text.ofNat page = Text.ofNat page' := by
    rw [hpath] at h
    exact List.append_cancel_left (List.cons.inj (List.append_cancel_left h)).2
  simp only [listSegments, List.cons.injEq] at hsegments
  obtain ⟨-, howners, hrepositories, -, hnumbers, -⟩ := hsegments
  exact ⟨howners, hrepositories, Text.ofNat_injective hnumbers, Text.ofNat_injective hpage⟩

/-! ## (2) Requests -/

namespace Client

variable {c : Client} {scheme place : Text}

/-- Slashes behind an address that ends in something else are dropped. -/
theorem withoutSlashes_replicate {t : Text} (h : t.getLast? ≠ some '/') (slashes : Nat) :
    withoutSlashes (t ++ List.replicate slashes '/') = t := by
  have hslashes : ∀ c ∈ List.replicate slashes '/', (c == '/') = true := by
    intro c hc
    rw [List.eq_of_mem_replicate hc]
    rfl
  have hrest : t.reverse.dropWhile (· == '/') = t.reverse := by
    cases hreverse : t.reverse with
    | nil => rfl
    | cons c rest =>
      have hlast : t.getLast? = some c := by rw [← List.head?_reverse, hreverse]; rfl
      rw [hlast] at h
      exact List.dropWhile_cons_of_neg (by simpa using h)
  rw [withoutSlashes, List.reverse_append, List.reverse_replicate, List.dropWhile_append_of_pos hslashes,
    hrest, List.reverse_reverse]

/-- A place and words behind it do not end in a slash. -/
theorem getLast?_ne_slash (hplace : Url.IsPlace place) (hbase : ∀ t ∈ base, Url.IsWord t) (front : Text) :
    (front ++ place ++ Url.segments base).getLast? ≠ some '/' := by
  have hend {front t : Text} (hne : t ≠ []) (hslash : '/' ∉ t) : (front ++ t).getLast? ≠ some '/' := by
    rw [List.getLast?_append_of_ne_nil _ hne]
    exact fun hlast => hslash (List.mem_of_getLast? hlast)
  rcases List.eq_nil_or_concat base with rfl | ⟨words, word, rfl⟩
  · rw [Url.segments_nil, List.append_nil]
    exact hend hplace.ne_nil (hplace.not_mem (by decide))
  · have hword : Url.IsWord word := hbase word (by simp)
    have hsegments : Url.segments (words.concat word) = Url.segments words ++ ['/'] ++ word := by
      simp [Url.segments, List.concat_eq_append]
    rw [hsegments, ← List.append_assoc]
    exact hend hword.ne_nil hword.isPlain.slash_not_mem

/-- **The client for a plain address** is the same whatever slashes stand behind the address. -/
theorem exists_client {s : ServerSettings} (hagent : Http.isHeaderValue s.userAgent = true)
    (hplace : Url.IsPlace place) (hbase : ∀ t ∈ base, Url.IsWord t) (front : Text) :
    ∃ c : Client, c.address = front ++ place ++ Url.segments base ∧
      c.pageSize = max 1 (min s.pageSize 100) ∧
      ∀ slashes, Client.of s (front ++ place ++ Url.segments base ++ List.replicate slashes '/') = .ok c := by
  refine ⟨⟨_, _, s.userAgent⟩, rfl, rfl, fun slashes => ?_⟩
  rw [Client.of, if_pos hagent, withoutSlashes_replicate (getLast?_ne_slash hplace hbase front)]
  rfl

/-- **The request for a page** from a server at a plain address. -/
theorem request_of_place (hscheme : scheme = "http".toList ∨ scheme = "https".toList)
    (hplace : Url.IsPlace place) (hbase : ∀ t ∈ base, Url.IsWord t)
    (hc : c.address = scheme ++ "://".toList ++ place ++ Url.segments base) (howner : Url.IsWord p.owner)
    (hrepository : Url.IsWord p.repository) (htoken : Http.isHeaderValue p.token = true) (page : Nat) :
    c.request p page = .ok ⟨filesTarget base c.pageSize p page, "token ".toList ++ p.token,
      "application/vnd.github+json".toList, c.userAgent⟩ := by
  have hplain := isPlain_listSegments hbase howner hrepository
  obtain ⟨a, hread⟩ := Url.ofText_of_isPlace hscheme hplace hplain (by simp [listSegments])
  have hurl : Url.ofText (c.listAddress p) =
      .ok ⟨scheme, some a, Url.segments (base ++ listSegments p), none, none⟩ := by
    rw [listAddress_eq, hc, List.append_assoc _ (Url.segments base), ← hread, Url.segments, Url.segments,
      ← List.flatMap_append]
    rfl
  rw [request_of_web hurl hscheme htoken, pageRequest, filesTarget_eq]
  simp only [Url.queryStart, List.append_assoc]
  rfl

/-! ## (3) Listings -/

/-- **A listing asks for the pages of one list in turn.** For the address of a server on the web with a path of
words there is one client, however many slashes stand behind the address. Its request for a page can be made,
and the target is the path of the server, the words, numerals and page size as they are given and the page.
The requests that a listing sends are those for the pages, beginning with the first one, and different owners,
repositories, numbers and pages never share a target. -/
theorem files_targets {s : ServerSettings} (hagent : Http.isHeaderValue s.userAgent = true)
    (hscheme : scheme = "http".toList ∨ scheme = "https".toList) (hplace : Url.IsPlace place)
    (hbase : ∀ t ∈ base, Url.IsWord t) :
    ∃ c : Client,
      (∀ slashes, Client.of s (scheme ++ "://".toList ++ place ++ Url.segments base ++
        List.replicate slashes '/') = .ok c) ∧
      (∀ p : PullRequest, Url.IsWord p.owner → Url.IsWord p.repository →
        Http.isHeaderValue p.token = true →
        (∀ page, ∃ r, c.request p page = .ok r ∧
          r.target = filesTarget base (max 1 (min s.pageSize 100)) p page) ∧
        ∀ w : Machine, ∃ sent, sent ≠ [] ∧
          ((c.files p : Session _) w).2.requests = w.requests ++ sent ∧
          sent.map Http.Request.target = (List.range' 1 sent.length).map
            (filesTarget base (max 1 (min s.pageSize 100)) p)) ∧
      (∀ (p p' : PullRequest) page page', Url.IsWord p.owner → Url.IsWord p.repository →
        Url.IsWord p'.owner → Url.IsWord p'.repository →
        filesTarget base (max 1 (min s.pageSize 100)) p page =
          filesTarget base (max 1 (min s.pageSize 100)) p' page' →
        p.owner = p'.owner ∧ p.repository = p'.repository ∧ p.number = p'.number ∧ page = page') := by
  obtain ⟨c, haddress, hsize, hof⟩ := exists_client hagent hplace hbase (scheme ++ "://".toList)
  refine ⟨c, hof, ?_, ?_⟩
  · intro p howner hrepository htoken
    have hrequest := request_of_place hscheme hplace hbase haddress howner hrepository htoken
    rw [hsize] at hrequest
    refine ⟨fun page => ⟨_, hrequest page, rfl⟩, fun w => ?_⟩
    obtain ⟨errors, sent, result, hlists, hrun⟩ := files_apply c p w
    refine ⟨sent, hlists.sent_ne_nil (by decide) (hrequest 1), by rw [hrun], ?_⟩
    have htargets := congrArg (List.map Http.Request.target) (hlists.sent_eq hrequest)
    rw [List.map_map] at htargets
    exact htargets
  · intro p p' page page' howner hrepository howner' hrepository' h
    exact filesTarget_inj hbase howner hrepository howner' hrepository' h

/-- The third page of the list of a pull request of `octo/.github`, from a server with a port and a path. The
page size that the settings ask for is too large. -/
theorem files_targets_path :
    Http.isHeaderValue "pathgate".toList = true ∧ Url.IsPlace "git.example.com:8080".toList ∧
    (∀ t ∈ ["api".toList, "v3".toList], Url.IsWord t) ∧ Url.IsWord "octo".toList ∧
    Url.IsWord ".github".toList ∧ Http.isHeaderValue "t".toList = true ∧
    ∃ c : Client,
      (∀ slashes, Client.of ⟨none, 250, "pathgate".toList, 30⟩
        ("http://git.example.com:8080/api/v3".toList ++ List.replicate slashes '/') = .ok c) ∧
      ∃ r, c.request ⟨"octo".toList, ".github".toList, 7, "t".toList⟩ 3 = .ok r ∧
        r.target = "/api/v3/repos/octo/.github/pulls/7/files?per_page=100&page=3".toList := by
  have hagent : Http.isHeaderValue "pathgate".toList = true := by decide
  have hhost : Url.IsHost "git.example.com".toList :=
    Url.isHost_of_name (by decide) (List.all_eq_true.mp (by decide)) (by decide)
  have hplace : Url.IsPlace "git.example.com:8080".toList :=
    @Url.IsPlace.port "git.example.com".toList "8080".toList hhost (List.all_eq_true.mp (by decide))
      (by decide)
  have hbase : ∀ t ∈ ["api".toList, "v3".toList], Url.IsWord t := by
    simp only [List.forall_mem_cons, List.not_mem_nil, false_implies, implies_true, and_true]
    exact ⟨by decide, by decide⟩
  have howner : Url.IsWord "octo".toList := by decide
  have hrepository : Url.IsWord ".github".toList := by decide
  have htoken : Http.isHeaderValue "t".toList = true := by decide
  obtain ⟨c, hof, hrequests, -⟩ :=
    @files_targets _ _ _ ⟨none, 250, "pathgate".toList, 30⟩ hagent (.inl rfl) hplace hbase
  obtain ⟨r, hrequest, htarget⟩ :=
    (hrequests ⟨"octo".toList, ".github".toList, 7, "t".toList⟩ howner hrepository htoken).1 3
  exact ⟨hagent, hplace, hbase, howner, hrepository, htoken, c, hof, r, hrequest, htarget⟩

end Client

end ChangeGate.PullRequest
