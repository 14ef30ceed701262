import ChangeGate.Proofs.PullRequest.Listing
import ChangeGate.Proofs.Text.Blank

/-! # Pagination loses nothing

A server **serves** a list of entries when its response to the request for each page holds the entries
of that page. Then the listing asks for every page up to the first one that is not full, and no further,
and the names that it puts together are those of the whole list in order (**`files_of_serves`**). The
induction runs backwards from that page: from a page on, the names of the entries from that page on
are listed (`lists_of_serves`). -/

namespace ChangeGate

/-! ## (1) Blank texts are no documents -/

namespace Json

/-- White space alone holds no value: no value starts with a character that is white space. -/
theorem readValueWithin_of_blank {t : Text} (h : Text.blank t = true) (fuel depth : Nat) :
    ∃ f, readValueWithin fuel depth t = .error f := by
  cases fuel with
  | zero => exact ⟨_, rfl⟩
  | succ fuel =>
    rw [readValueWithin]
    cases hskip : skipSpace t with
    | nil => exact ⟨_, rfl⟩
    | cons c rest =>
      have hmem : c ∈ t := by
        refine (List.dropWhile_sublist isSpace).mem ?_
        rw [show t.dropWhile isSpace = c :: rest from hskip]
        exact List.mem_cons_self
      have hc : Text.isBlank c = true := Text.blank_iff.mp h c hmem
      have hne : ∀ a, Text.isBlank a = false → c ≠ a := by
        rintro a ha rfl
        rw [hc] at ha
        exact absurd ha (by simp)
      -- none of the characters that a value starts with is blank
      split
      · exact ⟨_, rfl⟩
      · rename_i heq
        exact absurd (List.cons.inj heq).1 (hne 'n' (by decide))
      · rename_i heq
        exact absurd (List.cons.inj heq).1 (hne 't' (by decide))
      · rename_i heq
        exact absurd (List.cons.inj heq).1 (hne 'f' (by decide))
      · rename_i heq
        exact absurd (List.cons.inj heq).1 (hne '-' (by decide))
      · rename_i heq
        exact absurd (List.cons.inj heq).1 (hne '"' (by decide))
      · rename_i heq
        exact absurd (List.cons.inj heq).1 (hne '[' (by decide))
      · rename_i heq
        exact absurd (List.cons.inj heq).1 (hne '\x7b' (by decide))
      · rename_i first tail _ _ _ _ _ _ _ heq
        obtain ⟨rfl, rfl⟩ := List.cons.inj heq
        have hdigit : Text.isDigit c = false := by
          by_contra hd
          rw [Text.isBlank_of_isDigit (by simpa using hd)] at hc
          exact absurd hc (by simp)
        rw [if_neg (by simp [hdigit])]
        exact ⟨_, rfl⟩

/-- **A document is not blank.** -/
theorem blank_of_readDocument {t : Text} {v : Value} (h : readDocument t = .ok v) :
    Text.blank t = false := by
  by_contra hblank
  obtain ⟨f, hf⟩ := readValueWithin_of_blank (by simpa using hblank) (2 * t.length + 2) depthLimit
  rw [readDocument, hf] at h
  exact absurd h (by simp)

end Json

namespace PullRequest.Client

/-! ## (2) Pages of a list -/

/-- The entries of a list on a page of some size, pages being counted from one. -/
def onPage (size page : Nat) (entries : List Json.Value) : List Json.Value :=
  (entries.drop ((page - 1) * size)).take size

/-- The texts of the members `filename` of entries that are not empty. -/
def namesIn (entries : List Json.Value) : List Text :=
  ((entries.filterMap (·.field? "filename".toList)).filterMap Json.Value.text?).filter (!·.isEmpty)

theorem filterMap_fileName? (entries : List Json.Value) :
    entries.filterMap fileName? = namesIn entries := by
  rw [namesIn, List.filterMap_filterMap, List.filter_filterMap]
  rfl

theorem namesIn_append (front back : List Json.Value) :
    namesIn (front ++ back) = namesIn front ++ namesIn back := by
  rw [← filterMap_fileName?, ← filterMap_fileName?, ← filterMap_fileName?, List.filterMap_append]

/-- The names on a page, and those from the next page on. -/
theorem namesIn_drop (size pages : Nat) (entries : List Json.Value) :
    namesIn (entries.drop (pages * size)) =
      namesIn (onPage size (pages + 1) entries) ++ namesIn (entries.drop ((pages + 1) * size)) := by
  have hdrop : entries.drop ((pages + 1) * size) = (entries.drop (pages * size)).drop size := by
    rw [List.drop_drop, Nat.add_mul, Nat.one_mul]
  rw [onPage, Nat.add_sub_cancel, hdrop, ← namesIn_append, List.take_append_drop]

/-! ## (3) Serving a list -/

/-- The size of the pages of a client lies between one and the largest size of a page. -/
theorem pageSize_of {s : ServerSettings} {address : Text} {c : Client}
    (h : Client.of s address = .ok c) : c.pageSize = max 1 (min s.pageSize maxPageSize) := by
  unfold Client.of at h
  split at h
  · rw [← Except.ok.inj h]
  · exact absurd h (by simp)

/-- No client is made for one reason only: no header can hold its name. -/
theorem fault_of {s : ServerSettings} {address : Text} {f : RequestFault}
    (h : Client.of s address = .error f) : f = .header := by
  unfold Client.of at h
  split at h
  · exact absurd h (by simp)
  · exact (Except.error.inj h).symm

variable (c : Client) (p : PullRequest) (server : Http.Server) (past : List Http.Request)
  (request : Nat → Http.Request) (entries : List Json.Value)

/-- The requests for the pages from the first one to the one of a number, in order. -/
def requestsUpTo (pages : Nat) : List Http.Request := (List.range' 1 pages).map request

/-- **Serving a list** up to the first page that is not full: the request for a page is answered, the
response is a success, and its text is a list of the entries on that page. -/
def Serves : Prop :=
  ∀ page, 1 ≤ page → page ≤ entries.length / c.pageSize + 1 →
    c.request p page = .ok (request page) ∧
    ∃ response, server (past ++ requestsUpTo request (page - 1)) (request page) = .ok response ∧
      response.status = 200 ∧
      Json.readDocument response.text = .ok (.list (onPage c.pageSize page entries))

variable {c p server past request entries}

/-- The elements of a response that holds a list. -/
theorem pageOf_of_list {r : Http.Response} {elements : List Json.Value} (hstatus : r.status = 200)
    (hlist : Json.readDocument r.text = .ok (.list elements)) : pageOf r = .ok (some elements) := by
  have herror : r.isError = false := by
    rw [Http.Response.isError, hstatus]
    rfl
  rw [pageOf, herror, Json.blank_of_readDocument hlist, hlist]
  rfl

theorem requestsUpTo_succ (pages : Nat) :
    requestsUpTo request (pages + 1) = requestsUpTo request pages ++ [request (pages + 1)] := by
  rw [requestsUpTo, List.range'_concat, List.map_append, Nat.one_mul, Nat.add_comm 1 pages]
  rfl

/-- The request for the page after some full ones, and the elements of the response. -/
theorem Serves.nextPage (h : c.Serves p server past request entries) {pages : Nat}
    (hpages : pages ≤ entries.length / c.pageSize) :
    c.request p (pages + 1) = .ok (request (pages + 1)) ∧
    received (server (past ++ requestsUpTo request pages) (request (pages + 1))) =
      .ok (some (onPage c.pageSize (pages + 1) entries)) := by
  obtain ⟨hrequest, response, hresponse, hstatus, hlist⟩ := h (pages + 1) (by omega) (by omega)
  rw [Nat.add_sub_cancel] at hresponse
  rw [hresponse]
  exact ⟨hrequest, pageOf_of_list hstatus hlist⟩

theorem length_onPage (size pages : Nat) (entries : List Json.Value) :
    (onPage size (pages + 1) entries).length = min size (entries.length - pages * size) := by
  rw [onPage, List.length_take, List.length_drop, Nat.add_sub_cancel]

/-- A page before the last one is full. -/
theorem isLast_of_lt {pages : Nat} (hsize : 0 < c.pageSize)
    (h : pages < entries.length / c.pageSize) :
    c.isLast (onPage c.pageSize (pages + 1) entries) = false := by
  have hfull : (pages + 1) * c.pageSize ≤ entries.length :=
    (Nat.mul_le_mul_right _ h).trans (Nat.div_mul_le_self entries.length c.pageSize)
  rw [Nat.add_mul, Nat.one_mul] at hfull
  rw [isLast, Bool.or_eq_false_iff, decide_eq_false_iff_not, List.isEmpty_eq_false_iff,
    ← List.length_pos_iff, length_onPage]
  omega

/-- The entries behind all the full pages are fewer than a page holds. -/
theorem length_lt_of_eq_div {pages : Nat} (hsize : 0 < c.pageSize)
    (h : pages = entries.length / c.pageSize) :
    entries.length < (pages + 1) * c.pageSize := by
  rw [h, Nat.mul_comm]
  exact Nat.lt_mul_div_succ entries.length hsize

/-- The page behind all the full ones is the last one. -/
theorem isLast_of_eq {pages : Nat} (hsize : 0 < c.pageSize)
    (h : pages = entries.length / c.pageSize) :
    c.isLast (onPage c.pageSize (pages + 1) entries) = true := by
  have hshort := length_lt_of_eq_div hsize h
  rw [Nat.add_mul, Nat.one_mul] at hshort
  rw [isLast, Bool.or_eq_true, decide_eq_true_eq, length_onPage]
  omega

/-- **From a page on, the names of the entries from that page on are listed**: backwards induction
over the pages, `left` of which follow. -/
theorem lists_of_serves (hsize : 0 < c.pageSize) (h : c.Serves p server past request entries)
    (hcount : entries.length / c.pageSize + 1 ≤ pageLimit) {left pages : Nat}
    (hpages : pages + left = entries.length / c.pageSize) :
    c.Lists p server (past ++ requestsUpTo request pages) (pages + 1)
      ((List.range' (pages + 1) (left + 1)).map request)
      (.ok (namesIn (entries.drop (pages * c.pageSize)))) := by
  induction left generalizing pages with
  | zero =>
    obtain ⟨hrequest, hpage⟩ := h.nextPage (by omega : pages ≤ _)
    -- nothing is left behind the page that is not full
    have hnone : entries.drop ((pages + 1) * c.pageSize) = [] :=
      List.drop_eq_nil_iff.mpr (length_lt_of_eq_div hsize hpages).le
    have hlists := Lists.last (by omega) hrequest hpage (isLast_of_eq hsize hpages)
    rw [filterMap_fileName?] at hlists
    rw [namesIn_drop, hnone, show namesIn [] = [] from rfl, List.append_nil]
    exact hlists
  | succ left ih =>
    obtain ⟨hrequest, hpage⟩ := h.nextPage (by omega : pages ≤ _)
    have hnext := ih (by omega : pages + 1 + left = _)
    rw [requestsUpTo_succ, ← List.append_assoc] at hnext
    have hlists := Lists.more (by omega) hrequest hpage (isLast_of_lt hsize (by omega)) hnext
    rw [filterMap_fileName?] at hlists
    rw [namesIn_drop, List.range'_succ]
    exact hlists

/-! ## (4) The whole listing -/

/-- **A served list is listed completely.** The listing sends a request for each page up to the first
one that is not full, in order, and puts together the names of all the entries in order. -/
theorem files_of_serves {s : ServerSettings} {address : Text} {c : Client}
    (hc : Client.of s address = .ok c) (p : PullRequest) (w : Machine)
    (request : Nat → Http.Request) (entries : List Json.Value)
    (hserves : c.Serves p w.server w.requests request entries)
    (hcount : entries.length / c.pageSize + 1 ≤ 4294967295) :
    c.pageSize = max 1 (min s.pageSize 100) ∧
    ∃ errors, (c.files p : Session _) w =
      (.ok (namesIn entries),
        { w with
          errors := errors
          requests := w.requests ++ requestsUpTo request (entries.length / c.pageSize + 1) }) := by
  have hpageSize : c.pageSize = max 1 (min s.pageSize maxPageSize) := pageSize_of hc
  refine ⟨hpageSize, ?_⟩
  obtain ⟨errors, sent, result, hlists, hrun⟩ := files_apply c p w
  have hlisted := lists_of_serves (by omega) hserves hcount
    (Nat.zero_add (entries.length / c.pageSize))
  rw [Nat.zero_mul, List.drop_zero, show requestsUpTo request 0 = [] from rfl, List.append_nil]
    at hlisted
  obtain ⟨rfl, rfl⟩ := hlists.unique hlisted
  exact ⟨errors, hrun⟩

/-- The client of settings that ask for pages of no files at all. -/
def smallestClient : Client := ⟨"http://h".toList, 1, "pathgate".toList⟩

/-- The requests of that client for a pull request. -/
def smallestRequest (page : Nat) : Http.Request :=
  ⟨"/repos/o/r/pulls/7/files?per_page=1&page=".toList ++ Text.ofNat page, "token t".toList,
    listFormat, "pathgate".toList⟩

/-- Two entries, of which the second one has an empty name. -/
def namedAndUnnamed : List Json.Value :=
  [.object [("filename".toList, .string "a".toList)], .object [("filename".toList, .string [])]]

/-- The responses with one of the entries each, and then empty lists. -/
def namedAndUnnamedServer : Http.Server :=
  .ofScript [⟨200, Text.encode "[\x7b\"filename\":\"a\"\x7d]".toList⟩,
    ⟨200, Text.encode "[\x7b\"filename\":\"\"\x7d]".toList⟩]

/-- Three pages are asked for: an entry without a name fills its page, and the third page is empty. -/
theorem files_of_serves_three_pages :
    Client.of ⟨none, 0, "pathgate".toList, 30⟩ "http://h/".toList = .ok smallestClient ∧
    smallestClient.Serves ⟨"o".toList, "r".toList, 7, "t".toList⟩ namedAndUnnamedServer []
      smallestRequest namedAndUnnamed ∧
    namedAndUnnamed.length / smallestClient.pageSize + 1 ≤ 4294967295 ∧
    ∃ errors, (smallestClient.files ⟨"o".toList, "r".toList, 7, "t".toList⟩ : Session _)
        (.start [] ⟨[]⟩ [] [] namedAndUnnamedServer) =
      (.ok ["a".toList],
        { Machine.start [] ⟨[]⟩ [] [] namedAndUnnamedServer with
          errors := errors
          requests := [smallestRequest 1, smallestRequest 2, smallestRequest 3] }) := by
  have hclient : Client.of ⟨none, 0, "pathgate".toList, 30⟩ "http://h/".toList =
      .ok smallestClient := by decide
  -- the texts of the responses, and the lists that they are read as
  have hfirst : Json.readDocument "[\x7b\"filename\":\"a\"\x7d]".toList =
      .ok (.list (onPage 1 1 namedAndUnnamed)) := by cbv
  have hsecond : Json.readDocument "[\x7b\"filename\":\"\"\x7d]".toList =
      .ok (.list (onPage 1 2 namedAndUnnamed)) := by cbv
  have hthird : Json.readDocument "[]".toList = .ok (.list (onPage 1 3 namedAndUnnamed)) := by cbv
  have hserves : smallestClient.Serves ⟨"o".toList, "r".toList, 7, "t".toList⟩
      namedAndUnnamedServer [] smallestRequest namedAndUnnamed := by
    intro page hlow hhigh
    have hpage : page = 1 ∨ page = 2 ∨ page = 3 := by
      have hpages : namedAndUnnamed.length / smallestClient.pageSize + 1 = 3 := rfl
      omega
    rcases hpage with rfl | rfl | rfl
    · refine ⟨by decide +kernel, _, rfl, rfl, ?_⟩
      rw [show Http.Response.text _ = "[\x7b\"filename\":\"a\"\x7d]".toList by decide]
      exact hfirst
    · refine ⟨by decide +kernel, _, rfl, rfl, ?_⟩
      rw [show Http.Response.text _ = "[\x7b\"filename\":\"\"\x7d]".toList by decide]
      exact hsecond
    · refine ⟨by decide +kernel, _, rfl, rfl, ?_⟩
      rw [show Http.Response.text _ = "[]".toList by decide]
      exact hthird
  have hcount : namedAndUnnamed.length / smallestClient.pageSize + 1 ≤ 4294967295 := by decide
  exact ⟨hclient, hserves, hcount,
    (files_of_serves hclient _ (.start [] ⟨[]⟩ [] [] namedAndUnnamedServer) _ _ hserves hcount).2⟩

end PullRequest.Client

end ChangeGate
