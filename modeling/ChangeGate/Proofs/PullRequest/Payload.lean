import ChangeGate.Proofs.Json.Ignored
import ChangeGate.PullRequest.Payload
import Mathlib.Control.Monad.Basic

/-! # What a payload says

A payload is decoded from left to right, and what has no part in the number of the pull request is passed over
without a look at its values. **Decodes** compares such a reader with a view of whole values: whatever spells a
value is read as what the view makes of it. Readers for numbers, optional values and records decode their views
(**`readUnsigned_decodes`**, **`readOptional_decodes`**, **`readRecord_decodes`**). So a payload has the number
that its `pull_request` says, as if all of it was read first (**`payloadNumber_of_isPayload`**). -/

namespace ChangeGate.PullRequest

open Json

variable {α β : Type} {t behind rest : Text} {v : Value}

/-! ## (1) Readers and views of values -/

/-- **A result answers** what a value says: it is the same thing before the same rest, and a fault if the
value says nothing. -/
def Answers (result : Except Fault (α × Text)) (said : Option α) (rest : Text) : Prop :=
  match said with
  | some a => result = .ok (a, rest)
  | none => ∃ f, result = .error f

/-- **A reader decodes** values if it answers what they say, however they are spelled. -/
def Decodes (read : Reader α) (view : Value → Option α) : Prop :=
  ∀ {v t rest}, Spells (.value v) t rest → Answers (read t) (view v) rest

/-- A fault answers a value that says nothing. -/
theorem Answers.refused {result : Except Fault (α × Text)} {f : Fault} (h : result = .error f) :
    Answers result none rest := ⟨f, h⟩

/-- An answer is changed along with what is said. -/
theorem Answers.map {result : Except Fault (α × Text)} {said : Option α} (g : α → β)
    (h : Answers result said rest) :
    Answers (result.map fun (a, r) => (g a, r)) (said.map g) rest := by
  cases said with
  | some a =>
    have hok : result = .ok (a, rest) := h
    rw [hok]
    rfl
  | none =>
    obtain ⟨f, hfault⟩ : ∃ f, result = .error f := h
    rw [hfault]
    exact ⟨f, rfl⟩

/-- What is read behind an answer answers as well, if a fault before it is a fault of the whole. -/
theorem Answers.next {result : Except Fault (α × Text)} {said : Option α} {view : α → Option β}
    {whole : Except Fault (β × Text)} (h : Answers result said behind)
    (hread : ∀ a, result = .ok (a, behind) → Answers whole (view a) rest)
    (hfault : ∀ f, result = .error f → ∃ f, whole = .error f) :
    Answers whole (said.bind view) rest := by
  cases said with
  | some a => exact hread a h
  | none =>
    obtain ⟨f, hf⟩ : ∃ f, result = .error f := h
    exact hfault f hf

/-! ## (2) Numbers -/

/-- The number that a value is, if it is a whole number of 64 bits without a sign. -/
def natural? : Value → Option Nat
  | .number (.integer i) => if 0 ≤ i ∧ i ≤ maxUnsigned then some i.toNat else none
  | _ => none

/-- A number that was read stands for itself. -/
theorem unsigned_answers {n : Number}
    (h : (∃ x, n = .float x) ∨ ∃ i : Int, n = .integer i ∧ i ≤ maxUnsigned) :
    Answers (unsigned rest n) (natural? (.number n)) rest := by
  obtain ⟨x, rfl⟩ | ⟨i, rfl, hi⟩ := h
  · exact .refused rfl
  · cases i with
    | ofNat i =>
      rw [natural?, if_pos ⟨Int.natCast_nonneg i, hi⟩]
      rfl
    | negSucc i =>
      rw [natural?, if_neg fun h => absurd h.1 (by omega)]
      exact .refused rfl

/-- A value that starts with another character is no number. -/
theorem readUnsigned_other {c : Char} (hstart : skipSpace t = c :: behind) (hsign : c ≠ '-')
    (hdigit : Text.isDigit c = false) : ∃ f, readUnsigned t = .error f := by
  rw [readUnsigned, hstart]
  split
  case h_1 hnil => exact absurd hnil (List.cons_ne_nil c behind)
  case h_2 hmark => exact absurd (List.cons.inj hmark).1 hsign
  case h_3 hmark =>
    obtain ⟨rfl, rfl⟩ := List.cons.inj hmark
    rw [if_neg (by rw [hdigit]; decide)]
    exact ⟨_, rfl⟩

/-- A value that starts with a digit is read as a number without a sign. -/
theorem readUnsigned_digit {c : Char} {n : Number} (hstart : skipSpace t = c :: behind)
    (hdigit : Text.isDigit c = true) (hnumber : readNumber false (c :: behind) = .ok (n, rest)) :
    readUnsigned t = unsigned rest n := by
  have hsign : c ≠ '-' := by
    rintro rfl
    exact absurd hdigit (by decide)
  rw [readUnsigned, hstart]
  split
  case h_1 hnil => exact absurd hnil (List.cons_ne_nil c behind)
  case h_2 hmark => exact absurd (List.cons.inj hmark).1 hsign
  case h_3 hmark =>
    obtain ⟨rfl, rfl⟩ := List.cons.inj hmark
    rw [if_pos hdigit, hnumber]

/-- **Numbers without a sign** are read from the values that are such numbers. -/
theorem readUnsigned_decodes : Decodes readUnsigned natural? := by
  intro v t rest h
  cases h with
  | null hstart | true hstart | false hstart | string hstart | list hstart | object hstart =>
    exact readUnsigned_other hstart (by decide) (by decide)
  | @negative _ _ _ n hstart hnumber =>
    have hread : readUnsigned t = unsigned rest n := by simp only [readUnsigned, hstart, hnumber]
    rw [hread]
    exact unsigned_answers (readNumber_spec hnumber).1
  | number hstart hdigit hnumber =>
    rw [readUnsigned_digit hstart hdigit hnumber]
    exact unsigned_answers (readNumber_spec hnumber).1

/-! ## (3) Optional values -/

/-- What an optional value says: null says that there is none. -/
def optionally (view : Value → Option α) : Value → Option (Option α)
  | .null => some none
  | v => (view v).map some

/-- Only null starts with its letter. -/
theorem ne_null_of_spells (h : Spells (.value v) t rest) (hv : v ≠ .null) :
    ∀ more, skipSpace t ≠ 'n' :: more := by
  intro more hmore
  cases h with
  | null => exact hv rfl
  | true hstart | false hstart | string hstart | list hstart | object hstart =>
    exact absurd (hmore.symm.trans hstart) (by simp)
  | negative hstart => exact absurd (hmore.symm.trans hstart) (by simp)
  | number hstart hdigit =>
    obtain ⟨rfl, -⟩ := List.cons.inj (hmore.symm.trans hstart)
    exact absurd hdigit (by decide)

/-- **Optional values** are read from null and from what the values are read from. -/
theorem readOptional_decodes {read : Reader α} {view : Value → Option α} (hread : Decodes read view) :
    Decodes (readOptional read) (optionally view) := by
  intro v t rest h
  by_cases hv : v = .null
  · subst hv
    cases h with
    | null hstart hword =>
      have hnull : readOptional read t = .ok (none, rest) := by
        simp only [readOptional, hstart, hword, Except.map]
      exact hnull
  · have hother := ne_null_of_spells h hv
    have hsame : readOptional read t = (read (skipSpace t)).map fun (a, r) => (some a, r) := by
      unfold readOptional
      split
      · rename_i hnull
        exact absurd hnull (hother _)
      · rfl
    have hsaid : optionally view v = (view v).map some := by
      cases v <;> first | rfl | exact absurd rfl hv
    rw [hsame, hsaid]
    exact (hread h.skipSpace).map some

/-! ## (4) Records -/

/-- What the members of an object say to a record; `found` is what members before them said. The member of
the record may be there once. -/
def gather (field : Text) (view : Value → Option (Option α)) :
    Option (Option α) → List (Text × Value) → Option (Option α)
  | found, [] => some found.join
  | found, (key, v) :: members =>
    if key = field then
      if found.isSome then none else (view v).bind fun a => gather field view (some a) members
    else gather field view found members

/-- What a record with one optional member says: an object says it by its member, and a list by position. -/
def record (field : Text) (view : Value → Option (Option α)) : Value → Option (Option α)
  | .object members => gather field view none members
  | .list [v] => view v
  | _ => none

variable {shape : Shape} {read : Reader (Option α)} {view : Value → Option (Option α)}

/-- Members are read from left to right: those of another key are ignored, the first one of the key is read,
and a second one is refused. -/
theorem readMembers_answers (hread : Decodes read view) {ms : List (Text × Value)} :
    ∀ {fuel : Nat} {found : Option (Option α)} {first : Bool} {t : Text}, ms.length < fuel →
      Spells (.members first ms) t rest →
      Answers (readMembers shape read fuel found first t) (gather shape.field view found ms) rest := by
  induction ms with
  | nil =>
    intro fuel found first t hfuel h
    obtain ⟨fuel, rfl⟩ := Nat.exists_eq_succ_of_ne_zero (Nat.ne_of_gt hfuel)
    cases h with
    | objectEnd hend =>
      have hread : readMembers shape read (fuel + 1) found first t = .ok (found.join, rest) := by
        simp only [readMembers, hend]
      exact hread
  | cons member ms ih =>
    intro fuel found first t hfuel h
    obtain ⟨fuel, rfl⟩ := Nat.exists_eq_succ_of_ne_zero (Nat.ne_of_gt (Nat.zero_lt_of_lt hfuel))
    have hms : ms.length < fuel := Nat.lt_of_succ_lt_succ hfuel
    cases h with
    | @member _ _ _ _ value behind _ key v _ hnext hkey hcolon hvalue hmore =>
      unfold readMembers gather
      simp only [hnext, hkey, hcolon]
      by_cases hfield : key = shape.field
      · -- a second member is refused before its value is read
        simp only [if_pos hfield]
        cases found with
        | some a => exact .refused rfl
        | none =>
          refine (hread hvalue).next ?_ ?_
          · intro a hread
            simp only [hread]
            exact ih hms hmore
          · intro f hfault
            simp only [hfault]
            exact ⟨f, rfl⟩
      · -- a value that is spelled can be ignored, and is passed over up to the same rest
        simp only [if_neg hfield, ignoreValue_of_spells hvalue]
        exact ih hms hmore

/-- Behind the last element a list is closed. -/
theorem closeList_last (h : nextElement false t = .ok (false, rest)) : closeList t = .ok rest := by
  simp only [closeList, nextElement_end h]

/-- Before another element a list is not closed. -/
theorem closeList_more {start : Text} (h : nextElement false t = .ok (true, start)) :
    ∃ f, closeList t = .error f := by
  obtain ⟨behind, hcomma, -, c, more, hstart, hc⟩ := nextElement_more h
  have hseparated : skipSpace t = ',' :: behind := hcomma
  simp only [closeList, hseparated]
  split
  · exact ⟨_, rfl⟩
  · exact ⟨_, rfl⟩

/-- A list says what its first element says, if there is no second one. -/
theorem record_list {field : Text} {vs : List Value} :
    record field view (.list (v :: vs)) =
      (view v).bind fun a => if vs = [] then some a else none := by
  cases vs with
  | nil =>
    have hone : record field view (.list [v]) = view v := rfl
    rw [hone]
    cases view v <;> rfl
  | cons w vs =>
    have htwo : record field view (.list (v :: w :: vs)) = none := rfl
    rw [htwo]
    cases view v <;> rfl

/-- The first element of a list is read behind white space, and the list is closed behind it. -/
theorem readByPosition_cons {c : Char} {more : Text} (hstart : skipSpace t = c :: more) (hc : c ≠ ']') :
    readByPosition shape read t =
      match read (skipSpace t) with
      | .error f => .error f
      | .ok (a, r) => (closeList r).map fun r => (a, r) := by
  unfold readByPosition
  split
  · rename_i hnil
    exact absurd (hstart.symm.trans hnil) (List.cons_ne_nil c more)
  · rename_i hbracket
    exact absurd (List.cons.inj (hstart.symm.trans hbracket)).1 hc
  · rfl

/-- A list is read by its only element. -/
theorem readByPosition_answers (hread : Decodes read view) {vs : List Value}
    (h : Spells (.elements true vs) t rest) :
    Answers (readByPosition shape read t) (record shape.field view (.list vs)) rest := by
  cases h with
  | listEnd hend =>
    have hempty : ∃ f, readByPosition shape read t = .error f := by
      simp only [readByPosition, nextElement_end hend]
      exact ⟨_, rfl⟩
    exact hempty
  | @element _ _ start after _ v vs hnext hvalue hmore =>
    obtain ⟨behind, hfirst, rfl, c, more, hstart, hc⟩ := nextElement_more hnext
    obtain rfl : behind = t := hfirst
    rw [readByPosition_cons hstart hc, record_list]
    refine (hread hvalue).next ?_ ?_
    · intro a hread
      simp only [hread]
      cases hmore with
      | listEnd hend =>
        rw [closeList_last hend]
        rfl
      | element hsecond =>
        obtain ⟨f, hfault⟩ := closeList_more hsecond
        rw [hfault]
        exact .refused rfl
    · intro f hfault
      simp only [hfault]
      exact ⟨f, rfl⟩

/-- A value that starts with another character is no record. -/
theorem readRecord_other {c : Char} (hstart : skipSpace t = c :: behind) (hlist : c ≠ '[')
    (hobject : c ≠ '\x7b') : ∃ f, readRecord shape read t = .error f := by
  rw [readRecord, hstart]
  split
  case h_1 hnil => exact absurd hnil (List.cons_ne_nil c behind)
  case h_2 hmark => exact absurd (List.cons.inj hmark).1 hlist
  case h_3 hmark => exact absurd (List.cons.inj hmark).1 hobject
  case h_4 => exact ⟨_, rfl⟩

/-- **Records** are read from objects and lists. -/
theorem readRecord_decodes (hread : Decodes read view) :
    Decodes (readRecord shape read) (record shape.field view) := by
  intro v t rest h
  cases h with
  | null hstart | true hstart | false hstart | string hstart | negative hstart =>
    exact readRecord_other hstart (by decide) (by decide)
  | number hstart hdigit =>
    refine readRecord_other hstart ?_ ?_
    · rintro rfl
      exact absurd hdigit (by decide)
    · rintro rfl
      exact absurd hdigit (by decide)
  | @list _ behind _ _ hstart helements =>
    have hposition : readRecord shape read t = readByPosition shape read behind := by
      simp only [readRecord, hstart]
    rw [hposition]
    exact readByPosition_answers hread helements
  | @object _ behind _ ms hstart hmembers =>
    have hcount : ms.length + rest.length < behind.length := hmembers.length_lt
    have hmembersRead : readRecord shape read t =
        readMembers shape read (behind.length + 1) none true behind := by
      simp only [readRecord, hstart]
    rw [hmembersRead]
    exact readMembers_answers hread (by omega) hmembers

/-! ## (5) Members that are there once -/

/-- A first member counts if there is no later one of its key. -/
theorem field?_cons {field key : Text} {members : List (Text × Value)} :
    Value.field? field (.object ((key, v) :: members)) =
      (Value.field? field (.object members)).or (if field = key then some v else none) := by
  rw [Value.field?, Value.field?, List.reverse_cons, List.lookup_append, List.lookup_cons]
  by_cases h : field = key
  · rw [if_pos h, beq_iff_eq.mpr h]
  · rw [if_neg h, beq_eq_false_iff_ne.mpr h]
    rfl

/-- A key that is missing has no value. -/
theorem field?_of_not_mem {field : Text} {members : List (Text × Value)}
    (h : field ∉ members.map Prod.fst) : Value.field? field (.object members) = none := by
  induction members with
  | nil => rfl
  | cons member members ih =>
    obtain ⟨key, v⟩ := member
    obtain ⟨hkey, hmembers⟩ := not_or.mp fun hmem => h (List.mem_cons.mpr hmem)
    rw [field?_cons, ih hmembers, if_neg hkey]
    rfl

/-- Where a key is missing nothing is gathered. -/
theorem gather_of_not_mem {field : Text} {found : Option (Option α)} {members : List (Text × Value)}
    (h : field ∉ members.map Prod.fst) : gather field view found members = some found.join := by
  induction members with
  | nil => rfl
  | cons member members ih =>
    obtain ⟨key, v⟩ := member
    obtain ⟨hkey, hmembers⟩ := not_or.mp fun hmem => h (List.mem_cons.mpr hmem)
    rw [gather, if_neg (Ne.symm hkey), ih hmembers]

/-- **A member that is there once** is what an object says. -/
theorem gather_of_once {field : Text} {members : List (Text × Value)}
    (h : (members.map Prod.fst).count field ≤ 1) :
    gather field view none members =
      (Value.field? field (.object members)).elim (some none) view := by
  induction members with
  | nil => rfl
  | cons member members ih =>
    obtain ⟨key, v⟩ := member
    rw [gather, field?_cons]
    by_cases hkey : key = field
    · -- no later member has the key, so this one is not refused and counts
      subst hkey
      have habsent : key ∉ members.map Prod.fst := by
        rw [List.map_cons, List.count_cons_self] at h
        exact List.count_eq_zero.mp (by omega)
      rw [if_pos rfl, if_pos rfl, field?_of_not_mem habsent]
      simp only [gather_of_not_mem habsent, Option.join_some]
      exact Option.bind_fun_some (view v)
    · have hmembers : (members.map Prod.fst).count field ≤ 1 := by
        rwa [List.map_cons, List.count_cons_of_ne hkey] at h
      rw [if_neg hkey, if_neg (Ne.symm hkey), ih hmembers, Option.or_none]

/-! ## (6) Payloads -/

/-- **What a `number` says**: nothing at all, null and zero are no number, a whole number of 64 bits is
itself, and anything else is refused. -/
def numberSaid : Option Value → Option (Option Nat)
  | none => some none
  | some .null => some none
  | some (.number (.integer i)) =>
    if i = 0 then some none
    else if 0 < i ∧ i ≤ maxUnsigned then some (some i.toNat)
    else none
  | some _ => none

/-- **What a `pull_request` says**: nothing at all and null are no pull request, an object says what its
`number` says, a list of one element says it by position, and anything else is refused. -/
def requestSaid : Option Value → Option (Option Nat)
  | none => some none
  | some .null => some none
  | some (.object members) => numberSaid (Value.field? "number".toList (.object members))
  | some (.list [v]) => numberSaid (some v)
  | some _ => none

/-- What a number says, in the view of its reader. -/
theorem numberSaid_eq (said : Option Value) :
    numberSaid said = (said.elim (some none) (optionally natural?)).map (Option.filter (0 < ·)) := by
  match said with
  | none => rfl
  | some .null => rfl
  | some (.bool _) => rfl
  | some (.string _) => rfl
  | some (.list _) => rfl
  | some (.object _) => rfl
  | some (.number (.float _)) => rfl
  | some (.number (.integer i)) =>
    have hview : optionally natural? (.number (.integer i)) =
        (if 0 ≤ i ∧ i ≤ maxUnsigned then some i.toNat else none).map some := rfl
    rw [Option.elim_some, numberSaid, hview]
    by_cases hzero : i = 0
    · subst hzero
      rfl
    · by_cases hbound : 0 < i ∧ i ≤ maxUnsigned
      · rw [if_neg hzero, if_pos hbound, if_pos ⟨Int.le_of_lt hbound.1, hbound.2⟩]
        have hpositive : 0 < i.toNat := by omega
        have hkept : (some i.toNat).filter (0 < ·) = some i.toNat :=
          Option.filter_eq_some_iff.mpr ⟨rfl, decide_eq_true hpositive⟩
        exact congrArg some hkept.symm
      · rw [if_neg hzero, if_neg hbound, if_neg (by omega)]
        rfl

/-- A payload, whatever it spells. -/
theorem readPayload_of_spells (h : Spells (.value v) t rest) (hend : expectEnd rest = .ok ()) :
    (readPayload t).toOption =
      (record "pull_request".toList
        (optionally (record "number".toList (optionally natural?))) v).map Option.join := by
  have hrequest : Decodes readRequest (record "number".toList (optionally natural?)) :=
    readRecord_decodes (readOptional_decodes readUnsigned_decodes)
  have hpayload : Decodes (readRecord payloadShape (readOptional readRequest))
      (record "pull_request".toList (optionally (record "number".toList (optionally natural?)))) :=
    readRecord_decodes (readOptional_decodes hrequest)
  have hanswer := hpayload h
  rw [readPayload]
  generalize record "pull_request".toList
    (optionally (record "number".toList (optionally natural?))) v = said at hanswer
  cases said with
  | none =>
    obtain ⟨f, hfault⟩ := hanswer
    rw [hfault]
    rfl
  | some found =>
    have hok : readRecord payloadShape (readOptional readRequest) t = .ok (found, rest) := hanswer
    rw [hok]
    simp only [hend]
    rfl

/-- **A payload in plain JSON**: a text that spells an object, however deep the values in it are nested, and
nothing else. Its `pull_request` is not repeated, nor is the `number` of an object there. -/
structure IsPayload (t : Text) (members : List (Text × Value)) : Prop where
  read : ∃ fuel depth rest, readValueWithin fuel depth t = .ok (.object members, rest) ∧
    expectEnd rest = .ok ()
  request_once : (members.map Prod.fst).count "pull_request".toList ≤ 1
  number_once : ∀ inner,
    Value.field? "pull_request".toList (.object members) = some (.object inner) →
      (inner.map Prod.fst).count "number".toList ≤ 1

/-- **The same pull request** is described by the same value, and by two objects that only have their `number`
in common. -/
inductive SameRequest : Option Value → Option Value → Prop where
  | same (said : Option Value) : SameRequest said said
  | number {members members' : List (Text × Value)} :
      Value.field? "number".toList (.object members) = Value.field? "number".toList (.object members') →
      SameRequest (some (.object members)) (some (.object members'))

theorem requestSaid_congr {said said' : Option Value} (h : SameRequest said said') :
    requestSaid said = requestSaid said' := by
  cases h with
  | same => rfl
  | number hnumber => rw [requestSaid, requestSaid, hnumber]

theorem map_some_join (said : Option (Option α)) : (said.map some).map Option.join = said := by
  cases said <;> rfl

/-- The number of a payload is what its `pull_request` says. -/
theorem payloadNumber_eq {members : List (Text × Value)} (h : IsPayload t members) :
    (payloadNumber t).toOption =
      requestSaid (Value.field? "pull_request".toList (.object members)) := by
  obtain ⟨fuel, depth, rest, hread, hend⟩ := h.read
  have hpayload := readPayload_of_spells (spells_of_read hread) hend
  have hmap : (payloadNumber t).toOption =
      (readPayload t).toOption.map (Option.filter (0 < ·)) := by
    rw [payloadNumber]
    cases readPayload t <;> rfl
  rw [hmap, hpayload, record, gather_of_once h.request_once]
  have hnumber := h.number_once
  generalize Value.field? "pull_request".toList (.object members) = said at hnumber ⊢
  match said with
  | none => rfl
  | some .null => rfl
  | some (.bool _) => rfl
  | some (.string _) => rfl
  | some (.number _) => rfl
  | some (.list []) => rfl
  | some (.list (_ :: _ :: _)) => rfl
  -- by position or by its key, the number is seen in the view of its reader
  | some (.list [v]) =>
    rw [requestSaid, numberSaid_eq]
    exact congrArg _ (map_some_join (optionally natural? v))
  | some (.object inner) =>
    rw [requestSaid, numberSaid_eq, ← gather_of_once (hnumber inner rfl)]
    exact congrArg _ (map_some_join (record "number".toList (optionally natural?) (.object inner)))

/-- A text that is read as a document is no deeper than a payload may be. -/
theorem IsPayload.of_readDocument {members : List (Text × Value)}
    (hread : readDocument t = .ok (.object members))
    (hrequest : (members.map Prod.fst).count "pull_request".toList ≤ 1)
    (hnumber : ∀ inner,
      Value.field? "pull_request".toList (.object members) = some (.object inner) →
        (inner.map Prod.fst).count "number".toList ≤ 1) : IsPayload t members := by
  refine ⟨?_, hrequest, hnumber⟩
  unfold readDocument at hread
  split at hread
  · exact absurd hread (by simp)
  · rename_i v rest hvalue
    cases hend : expectEnd rest with
    | error f =>
      rw [hend] at hread
      exact absurd hread (by simp [Except.map])
    | ok =>
      rw [hend] at hread
      obtain rfl : v = .object members := Except.ok.inj hread
      exact ⟨_, _, rest, hvalue, hend⟩

/-- **Only the number of the pull request matters.** A payload in plain JSON is decoded to what its
`pull_request` says, and to a fault if that is refused; whatever else is in it, and however it is written,
has no influence. -/
theorem payloadNumber_of_isPayload {members : List (Text × Value)} (h : IsPayload t members) :
    (payloadNumber t).toOption =
      requestSaid (Value.field? "pull_request".toList (.object members)) ∧
    ∀ t' members', IsPayload t' members' →
      SameRequest (Value.field? "pull_request".toList (.object members))
        (Value.field? "pull_request".toList (.object members')) →
      (payloadNumber t').toOption = (payloadNumber t).toOption := by
  have hnumber := payloadNumber_eq h
  refine ⟨hnumber, ?_⟩
  intro t' members' h' hsame
  rw [hnumber, payloadNumber_eq h', requestSaid_congr hsame]

/-- A payload that has its members twice over, though never at the same place, and writes their keys with
escapes. -/
def decorated : Text :=
  "\x7b\"number\":3,\"a\":[\x7b\"pull_request\":null\x7d],\"pull_\\u0072equest\":\x7b\"a\":\x7b\"number\":-1\x7d,\"number\" : 12\x7d\x7d".toList

/-- The members of its `pull_request`. -/
def decoratedRequest : List (Text × Value) :=
  [("a".toList, .object [("number".toList, .number (.integer (-1)))]),
    ("number".toList, .number (.integer 12))]

/-- All its members. -/
def decoratedMembers : List (Text × Value) :=
  [("number".toList, .number (.integer 3)),
    ("a".toList, .list [.object [("pull_request".toList, .null)]]),
    ("pull_request".toList, .object decoratedRequest)]

/-- Members of the same name at another place do not count, and an escaped key counts as what it stands for. -/
theorem payloadNumber_of_isPayload_decorated :
    IsPayload decorated decoratedMembers ∧ (payloadNumber decorated).toOption = some (some 12) := by
  have hread : readDocument decorated = .ok (.object decoratedMembers) := by decide +kernel
  have hrequest : Value.field? "pull_request".toList (.object decoratedMembers) =
      some (.object decoratedRequest) := rfl
  have hpayload : IsPayload decorated decoratedMembers := by
    refine .of_readDocument hread (by decide) ?_
    intro inner hinner
    obtain rfl := Value.object.inj (Option.some.inj (hrequest.symm.trans hinner))
    decide
  refine ⟨hpayload, ?_⟩
  rw [(payloadNumber_of_isPayload hpayload).1, hrequest]
  decide

end ChangeGate.PullRequest
