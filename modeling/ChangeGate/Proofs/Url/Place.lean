import ChangeGate.Proofs.Text.Decoding
import ChangeGate.Proofs.Text.Decimal
import ChangeGate.Proofs.Url.Path

/-! # Addresses that are read as they are written

A **word** is a segment of letters, digits and a few signs. A **place** is a host and perhaps a port, written
without anything that could end it, so an address that consists of a scheme of the web, a place and plain
segments is read as these very parts (**`ofText_of_isPlace`**), whatever form the host is brought into. -/

namespace ChangeGate.Url

/-! ## (1) Words -/

/-- The characters of words: letters and digits of ASCII, and three signs. -/
def isWordChar (c : Char) : Bool := Text.isAsciiAlphanumeric c || "-_.".toList.contains c

/-- **A word**: a text of such characters that names neither the directory itself nor the one above. -/
structure IsWord (t : Text) : Prop where
  ne_nil : t ≠ []
  chars : ∀ c ∈ t, isWordChar c = true
  ne_dot : t ≠ ['.']
  ne_dots : t ≠ ['.', '.']

instance (t : Text) : Decidable (IsWord t) :=
  decidable_of_iff (t ≠ [] ∧ t.all isWordChar = true ∧ t ≠ ['.'] ∧ t ≠ ['.', '.'])
    ⟨fun ⟨hnil, hchars, hdot, hdots⟩ => ⟨hnil, List.all_eq_true.mp hchars, hdot, hdots⟩,
      fun h => ⟨h.ne_nil, List.all_eq_true.mpr h.chars, h.ne_dot, h.ne_dots⟩⟩

/-- The characters of words are characters of ASCII. -/
theorem toNat_lt_of_isWordChar {c : Char} (h : isWordChar c = true) : c.toNat < 128 := by
  have hbound {last : Char} (hlast : last.toNat < 128) (hc : c.val ≤ last.val) : c.toNat < 128 :=
    lt_of_le_of_lt (UInt32.le_iff_toNat_le.mp hc) hlast
  rw [isWordChar, Bool.or_eq_true] at h
  rcases h with h | h
  · -- each class of characters is a range that ends with a character of ASCII
    have hclass : (c.isUpper || c.isLower || c.isDigit) = true := h
    rw [Bool.or_eq_true, Bool.or_eq_true] at hclass
    rcases hclass with (hupper | hlower) | hdigit
    · have hrange : 'A'.val ≤ c.val ∧ c.val ≤ 'Z'.val := of_decide_eq_true hupper
      exact hbound (by decide) hrange.2
    · have hrange : (decide ('a'.val ≤ c.val) && decide (c.val ≤ 'z'.val)) = true := hlower
      exact hbound (by decide) (of_decide_eq_true (Bool.and_eq_true_iff.mp hrange).2)
    · have hrange : (decide ('0'.val ≤ c.val) && decide (c.val ≤ '9'.val)) = true := hdigit
      exact hbound (by decide) (of_decide_eq_true (Bool.and_eq_true_iff.mp hrange).2)
  · have hsign : c = '-' ∨ c = '_' ∨ c = '.' := by simpa using h
    rcases hsign with rfl | rfl | rfl <;> decide

/-- What the characters of words have in common: they stand for themselves in paths and in hosts, and in small
letters none of them becomes a percent sign, and only a point becomes a point. -/
structure IsInert (c : Char) : Prop where
  path : pathSet c = false
  slash : isSlash c = false
  host : forbiddenInHost c = false
  name : forbiddenInName c.toLower = false
  percent : c.toLower ≠ '%'
  point : c.toLower = '.' → c = '.'

/-- The characters of words are inert, which is tried on all of ASCII. -/
theorem isInert_of_isWordChar {c : Char} (h : isWordChar c = true) : IsInert c := by
  have hall : ∀ n < 128, isWordChar (Char.ofNat n) = true →
      pathSet (Char.ofNat n) = false ∧ isSlash (Char.ofNat n) = false ∧
        forbiddenInHost (Char.ofNat n) = false ∧ forbiddenInName (Char.ofNat n).toLower = false ∧
        (Char.ofNat n).toLower ≠ '%' ∧ ((Char.ofNat n).toLower = '.' → Char.ofNat n = '.') := by
    decide +kernel
  have hc := hall c.toNat (toNat_lt_of_isWordChar h)
  rw [Char.ofNat_toNat] at hc
  obtain ⟨hpath, hslash, hhost, hname, hpercent, hpoint⟩ := hc h
  exact ⟨hpath, hslash, hhost, hname, hpercent, hpoint⟩

/-- The characters of a word are inert. -/
theorem IsWord.inert {t : Text} (h : IsWord t) {c : Char} (hc : c ∈ t) : IsInert c :=
  isInert_of_isWordChar (h.chars c hc)

/-- **Words are plain segments.** -/
theorem IsWord.isPlain {t : Text} (h : IsWord t) : IsPlain t := by
  have hpercent : '%' ∉ lower t := by
    intro hmem
    obtain ⟨c, hc, hlower⟩ := List.mem_map.mp hmem
    exact (h.inert hc).percent hlower
  -- a text that becomes points consists of points
  have hpoints (n : Nat) (hlower : lower t = List.replicate n '.') : t = List.replicate n '.' := by
    rw [lower, List.eq_replicate_iff, List.length_map] at hlower
    refine List.eq_replicate_iff.mpr ⟨hlower.1, fun c hc => ?_⟩
    exact (h.inert hc).point (hlower.2 _ (List.mem_map_of_mem hc))
  refine ⟨fun c hc => ⟨(h.inert hc).path, (h.inert hc).slash⟩, ?_, ?_⟩
  · rw [isSingleDot, ← Bool.not_eq_true, List.contains_iff_mem]
    intro hmem
    rcases List.mem_cons.mp hmem with hdot | hmem
    · exact h.ne_dot (hpoints 1 hdot)
    · rw [List.mem_singleton.mp hmem] at hpercent
      exact hpercent (by decide)
  · rw [isDoubleDot, ← Bool.not_eq_true, List.contains_iff_mem]
    intro hmem
    rcases List.mem_cons.mp hmem with hdots | hmem
    · exact h.ne_dots (hpoints 2 hdots)
    · -- the other spellings hold a percent sign
      have hspelled : ∀ spelling ∈ [".%2e".toList, "%2e.".toList, "%2e%2e".toList], '%' ∈ spelling := by
        decide
      exact hpercent (hspelled _ hmem)

/-- Plain segments are the pieces of their path between the slashes, so no path is that of others. -/
theorem segments_inj {ss ss' : List Text} (hplain : ∀ s ∈ ss, IsPlain s) (hplain' : ∀ s ∈ ss', IsPlain s)
    (h : segments ss = segments ss') : ss = ss' := by
  have hpieces {ss : List Text} (hplain : ∀ s ∈ ss, IsPlain s) :
      Text.pieces '/' (segments ss) = [] :: ss := pieces_segments hplain []
  have hcons : ([] : Text) :: ss = [] :: ss' := by rw [← hpieces hplain, ← hpieces hplain', h]
  exact (List.cons.inj hcons).2

/-! ## (2) Hosts -/

/-- **A host** as it is written in an address: it can be read as one, and unless it stands between brackets
it holds nothing that could end it. -/
structure IsHost (t : Text) : Prop where
  reads : ∃ host, host? true t = .ok host
  chars : t.head? ≠ some '[' → ∀ c ∈ t, forbiddenInHost c = false

/-- The characters that end a host in an address, and those that are dropped from an address. -/
def hostBreaks : Text := "/?#\\@\t\n\x0d".toList

/-- Whether a character breaks a host. -/
def breaksHost (c : Char) : Bool := hostBreaks.contains c

/-- A property that holds of none of the characters that break a host excludes them. -/
theorem breaksHost_eq_false {p : Char → Bool} (hp : hostBreaks.all (fun c => !p c) = true) {c : Char}
    (hc : p c = true) : breaksHost c = false := by
  rw [breaksHost, ← Bool.not_eq_true, List.contains_iff_mem]
  intro hbreaks
  have hnot := List.all_eq_true.mp hp c hbreaks
  rw [hc] at hnot
  exact absurd hnot (by simp)

/-- What stands between the brackets of a host. -/
def isBracketed (c : Char) : Bool := (Text.hexDigit? c).isSome || c == ':' || c == '.'

/-- A text that starts with a bracket is a host exactly if it ends with one, and digits, colons and points stand
between them. -/
theorem isHost_bracket_iff {rest : Text} :
    IsHost ('[' :: rest) ↔ ∃ inner, rest = inner ++ [']'] ∧ ∀ c ∈ inner, isBracketed c = true := by
  constructor
  · intro h
    obtain ⟨host, hhost⟩ := h.reads
    rw [host?] at hhost
    split at hhost
    · rename_i hclosed
      obtain ⟨inner, rfl⟩ := List.getLast?_eq_some_iff.mp hclosed.1
      rw [List.dropLast_concat, List.all_eq_true] at hclosed
      exact ⟨inner, rfl, hclosed.2⟩
    · exact absurd hhost (by simp)
  · rintro ⟨inner, rfl, hinner⟩
    have hclosed : (inner ++ [']']).getLast? = some ']' := List.getLast?_concat
    have hall : (inner ++ [']']).dropLast.all isBracketed = true := by
      rwa [List.dropLast_concat, List.all_eq_true]
    refine ⟨⟨lower ('[' :: (inner ++ [']'])), ?_⟩, fun hhead => absurd rfl hhead⟩
    rw [host?, if_pos ⟨hclosed, hall⟩]

/-- Nothing in a host breaks it. -/
theorem IsHost.not_breaks {t : Text} (h : IsHost t) {c : Char} (hc : c ∈ t) : breaksHost c = false := by
  by_cases hhead : t.head? = some '['
  · obtain ⟨rest, rfl⟩ := List.head?_eq_some_iff.mp hhead
    obtain ⟨inner, rfl, hinner⟩ := isHost_bracket_iff.mp h
    rw [List.mem_cons, List.mem_append, List.mem_singleton] at hc
    rcases hc with rfl | hc | rfl
    · decide
    · exact breaksHost_eq_false (by decide) (hinner c hc)
    · decide
  · have hallowed : (!forbiddenInHost c) = true := by
      rw [h.chars hhead c hc]
      rfl
    exact breaksHost_eq_false (p := fun c => !forbiddenInHost c) (by decide) hallowed

/-- A host is not empty. -/
theorem IsHost.ne_nil {t : Text} (h : IsHost t) : t ≠ [] := by
  rintro rfl
  obtain ⟨host, hhost⟩ := h.reads
  exact absurd hhost (by simp [host?, decode, lower])

/-- A text without percent signs stands for its own bytes. -/
theorem decode_of_not_mem {t : Text} (h : '%' ∉ t) : decode t = Text.encode t := by
  induction t with
  | nil => rfl
  | cons c t ih =>
    rw [List.mem_cons, not_or] at h
    obtain ⟨hc, ht⟩ := h
    rw [decode, ih ht, Text.encode_cons]
    rintro a b rest rfl -
    exact hc rfl

/-- **Names are hosts**: a name consists of characters of words, and it does not seem to be a number. -/
theorem isHost_of_name {t : Text} (hne : t ≠ []) (hchars : ∀ c ∈ t, isWordChar c = true)
    (hnumber : endsInNumber (lower t) = false) : IsHost t := by
  have hbytes : decode t = Text.encode t :=
    decode_of_not_mem fun hmem => absurd (hchars _ hmem) (by decide)
  have hlower : lower t ≠ [] := by simpa [lower] using hne
  have hname : (lower t).any forbiddenInName = false := by
    rw [lower, List.any_map, List.any_eq_false]
    intro c hc
    rw [Function.comp_apply, (isInert_of_isWordChar (hchars c hc)).name]
    simp
  refine ⟨⟨lower t, ?_⟩, fun _ c hc => (isInert_of_isWordChar (hchars c hc)).host⟩
  rw [host?]
  · simp only [Bool.not_true, Bool.false_eq_true, if_false, hbytes, Text.decodeLossy_encode, hname,
      hnumber, if_neg hlower]
  · rintro rest rfl
    exact absurd (hchars _ List.mem_cons_self) (by decide)

/-! ## (3) Places -/

/-- A sign that does not stand in a text does not split it, seen from the end. -/
theorem splitLast_of_not_mem {sign : Char} {t : Text} (h : sign ∉ t) :
    splitLast sign t = (none, t) := by
  rw [splitLast, dropWhile_ne_of_not_mem (by simpa using h)]

/-- The last sign of a text splits it. -/
theorem splitLast_append {sign : Char} {back : Text} (h : sign ∉ back) (front : Text) :
    splitLast sign (front ++ sign :: back) = (some front, back) := by
  have hback : ∀ c ∈ back.reverse, (c != sign) = true := by
    intro c hc
    rw [bne_iff_ne]
    rintro rfl
    exact h (List.mem_reverse.mp hc)
  have hreverse : (front ++ sign :: back).reverse = back.reverse ++ sign :: front.reverse := by simp
  rw [splitLast, hreverse, List.dropWhile_append_of_pos hback, List.takeWhile_append_of_pos hback,
    List.dropWhile_cons_of_neg (by simp), List.takeWhile_cons_of_neg (by simp)]
  simp

/-- A sign that stands in a text stands in it for the last time somewhere. -/
theorem exists_last {sign : Char} {t : Text} (h : sign ∈ t) :
    ∃ front back, t = front ++ sign :: back ∧ sign ∉ back := by
  obtain ⟨back, front, hsplit, hback⟩ := List.eq_append_cons_of_mem (List.mem_reverse.mpr h)
  refine ⟨front.reverse, back.reverse, ?_, by simpa using hback⟩
  rw [← List.reverse_reverse t, hsplit]
  simp

/-- **A place**: a host, and perhaps a colon and a port behind it. -/
inductive IsPlace : Text → Prop where
  /-- A host alone. -/
  | host {t : Text} : IsHost t → IsPlace t
  /-- A host and the digits of a port. -/
  | port {t ds : Text} : IsHost t → (∀ c ∈ ds, Text.isDigit c = true) → Text.digitsValue 10 ds ≤ 65535 →
      IsPlace (t ++ ':' :: ds)

/-- A host alone has no port: the colons of an address in brackets stand before the last bracket. -/
theorem IsHost.splitPort_eq {t : Text} (h : IsHost t) : splitPort t = (t, none) := by
  by_cases hcolon : ':' ∈ t
  · by_cases hhead : t.head? = some '['
    · obtain ⟨rest, rfl⟩ := List.head?_eq_some_iff.mp hhead
      obtain ⟨inner, rfl, -⟩ := isHost_bracket_iff.mp h
      obtain ⟨front, back, hsplit, hback⟩ := exists_last hcolon
      -- the text ends with a bracket, and so does what follows its last colon
      have hlast : (front ++ ':' :: back).getLast? = some ']' := by
        rw [← hsplit, ← List.cons_append, List.getLast?_concat]
      have hclosed : ']' ∈ back := by
        rcases List.eq_nil_or_concat back with rfl | ⟨more, c, rfl⟩
        · exact absurd hlast (by simp)
        · rw [List.concat_eq_append, ← List.cons_append, ← List.append_assoc, List.getLast?_concat] at hlast
          rw [Option.some.inj hlast]
          simp
      rw [splitPort, hsplit, splitLast_append hback]
      simp only [List.contains_iff_mem.mpr hclosed, if_true]
    · exact absurd (h.chars hhead _ hcolon) (by decide)
  · rw [splitPort, splitLast_of_not_mem hcolon]

/-- Digits behind a host and a colon are its port. -/
theorem splitPort_port {t ds : Text} (hdigits : ∀ c ∈ ds, Text.isDigit c = true) :
    splitPort (t ++ ':' :: ds) = (t, some ds) := by
  have hcolon : ':' ∉ ds := fun hmem => absurd (hdigits _ hmem) (by decide)
  have hbracket : ds.contains ']' = false := by
    rw [← Bool.not_eq_true, List.contains_iff_mem]
    exact fun hmem => absurd (hdigits _ hmem) (by decide)
  rw [splitPort, splitLast_append hcolon]
  simp only [hbracket, Bool.false_eq_true, if_false]

/-- The digits of a number of 16 bits are a port. -/
theorem exists_portText (scheme : Text) {ds : Text} (hdigits : ∀ c ∈ ds, Text.isDigit c = true)
    (hvalue : Text.digitsValue 10 ds ≤ 65535) : ∃ port, portText scheme (some ds) = .ok port := by
  cases ds with
  | nil => exact ⟨[], rfl⟩
  | cons d ds =>
    have hall : (d :: ds).all Text.isDigit = true := List.all_eq_true.mpr hdigits
    rw [portText, hall, decide_eq_false (Nat.not_lt.mpr hvalue), if_neg (by simp)]
    · split
      · exact ⟨_, rfl⟩
      · exact ⟨_, rfl⟩
    · simp

/-- Nothing in a place breaks a host. -/
theorem IsPlace.not_breaks {t : Text} (h : IsPlace t) {c : Char} (hc : c ∈ t) : breaksHost c = false := by
  cases h with
  | host h => exact h.not_breaks hc
  | port h hdigits _ =>
    rcases List.mem_append.mp hc with hc | hc
    · exact h.not_breaks hc
    · rcases List.mem_cons.mp hc with rfl | hc
      · decide
      · exact breaksHost_eq_false (by decide) (hdigits c hc)

/-- A sign that would break a host is not in a place. -/
theorem IsPlace.not_mem {t : Text} (h : IsPlace t) {c : Char} (hc : breaksHost c = true) : c ∉ t := by
  intro hmem
  rw [h.not_breaks hmem] at hc
  exact absurd hc (by simp)

/-- Nothing in a place ends an authority. -/
theorem IsPlace.not_endsAuthority {t : Text} (h : IsPlace t) {c : Char} (hc : c ∈ t) :
    endsAuthority true c = false := by
  rw [← Bool.not_eq_true]
  intro hends
  have hbreaks : breaksHost c = true := by
    simp only [endsAuthority, Bool.true_and, Bool.or_eq_true, beq_iff_eq] at hends
    rcases hends with ((rfl | rfl) | rfl) | rfl <;> decide
  exact h.not_mem hbreaks hc

/-- A place is not empty. -/
theorem IsPlace.ne_nil {t : Text} (h : IsPlace t) : t ≠ [] := by
  cases h with
  | host h => exact h.ne_nil
  | port => simp

/-- The host and the port of a place. -/
theorem IsPlace.exists_split {t : Text} (h : IsPlace t) (scheme : Text) :
    ∃ name port, splitPort t = (name, port) ∧ IsHost name ∧ ∃ written, portText scheme port = .ok written := by
  cases h with
  | host h => exact ⟨t, none, h.splitPort_eq, h, [], rfl⟩
  | @port name ds h hdigits hvalue =>
    exact ⟨name, some ds, splitPort_port hdigits, h, exists_portText scheme hdigits hvalue⟩

/-- **A place is an authority** of the web. -/
theorem IsPlace.exists_authority {scheme t : Text} (h : IsPlace t) (hspecial : isSpecial scheme = true) :
    ∃ a, authority? scheme t = .ok a := by
  obtain ⟨name, port, hsplit, hhost, written, hport⟩ := h.exists_split scheme
  obtain ⟨host, hreads⟩ := hhost.reads
  have hnonempty : name.isEmpty = false := by simpa using hhost.ne_nil
  refine ⟨host ++ written, ?_⟩
  rw [authority?, splitLast_of_not_mem (h.not_mem (by decide))]
  simp only [hsplit, hspecial, hnonempty, hreads, hport, Bool.and_false, Bool.false_eq_true, if_false]
  rfl

/-! ## (4) Addresses -/

/-- Plain segments are a path as they are. -/
theorem absolutePath_plain {ss : List Text} (hplain : ∀ s ∈ ss, IsPlain s) (hne : ss ≠ []) :
    absolutePath true (segments ss) = segments ss := by
  obtain ⟨s, rest, rfl⟩ := List.exists_cons_of_ne_nil hne
  have hpieces : Text.pieces '/' (s ++ segments rest) = s :: rest := by
    have hs : '/' ∉ s := (hplain s List.mem_cons_self).slash_not_mem
    rw [pieces_segments fun t ht => hplain t (List.mem_cons_of_mem _ ht), Text.pieces_of_not_mem hs]
    rfl
  rw [absolutePath, if_pos rfl, slashed_segments hplain, segments_cons, List.cons_append]
  simp only [hpieces, pushSegments_plain hplain, List.append_nil, pathText, List.reverse_reverse]
  rfl

/-- The scheme of an address of the web. -/
theorem scheme?_web {scheme : Text} (h : scheme = "http".toList ∨ scheme = "https".toList) (rest : Text) :
    scheme? (scheme ++ "://".toList ++ rest) = some (scheme, "//".toList ++ rest) := by
  rcases h with rfl | rfl <;> rfl

variable {scheme place : Text} {ss : List Text}

/-- Nothing is dropped from an address of the web when it is cleaned. -/
theorem cleaned_web (hscheme : scheme = "http".toList ∨ scheme = "https".toList)
    (hplace : IsPlace place) (hplain : ∀ s ∈ ss, IsPlain s) (hne : ss ≠ []) :
    cleaned (scheme ++ "://".toList ++ place ++ segments ss) =
      scheme ++ "://".toList ++ (place ++ segments ss) := by
  have hfirst : (scheme ++ "://".toList ++ place).dropWhile (fun c => decide (c.toNat ≤ 0x20)) =
      scheme ++ "://".toList ++ place := by
    rcases hscheme with rfl | rfl <;> rfl
  have hstart : (scheme ++ "://".toList).filter (fun c => c != '\t' && c != '\n' && c != '\x0d') =
      scheme ++ "://".toList := by
    rcases hscheme with rfl | rfl <;> rfl
  have hplace : place.filter (fun c => c != '\t' && c != '\n' && c != '\x0d') = place := by
    rw [List.filter_eq_self]
    intro c hc
    have hkept (d : Char) (hd : breaksHost d = true) : c ≠ d := by
      rintro rfl
      exact hplace.not_mem hd hc
    simp [hkept '\t' (by decide), hkept '\n' (by decide), hkept '\x0d' (by decide)]
  rw [cleaned_append_segments hplain hne, hfirst, List.filter_append, hstart, hplace, List.append_assoc]

/-- What follows the scheme of an address of the web is a place and its path. -/
theorem ofParts_place {a : Text} (hscheme : scheme = "http".toList ∨ scheme = "https".toList)
    (hplace : IsPlace place) (hauthority : authority? scheme place = .ok a)
    (hplain : ∀ s ∈ ss, IsPlain s) (hne : ss ≠ []) :
    ofParts scheme ("//".toList ++ (place ++ segments ss)) none none =
      .ok ⟨scheme, some a, segments ss, none, none⟩ := by
  have hfile : scheme ≠ fileScheme := by
    rcases hscheme with rfl | rfl <;> decide
  -- the place starts behind the two slashes and ends where the path starts
  have hslashes : ("//".toList ++ (place ++ segments ss)).dropWhile isSlash = place ++ segments ss := by
    obtain ⟨c, more, rfl⟩ := List.exists_cons_of_ne_nil hplace.ne_nil
    have hc : isSlash c = false := by
      have hends : endsAuthority true c = false := hplace.not_endsAuthority List.mem_cons_self
      simp only [endsAuthority, Bool.or_eq_false_iff, Bool.true_and] at hends
      simp [isSlash, hends]
    change ('/' :: '/' :: c :: (more ++ segments ss)).dropWhile isSlash = _
    rw [List.dropWhile_cons_of_pos (by decide), List.dropWhile_cons_of_pos (by decide),
      List.dropWhile_cons_of_neg (by simp [hc]), List.cons_append]
  have hinside : ∀ c ∈ place, (!endsAuthority true c) = true := by
    intro c hc
    rw [hplace.not_endsAuthority hc]
    rfl
  obtain ⟨s, rest, rfl⟩ := List.exists_cons_of_ne_nil hne
  have htake : (place ++ segments (s :: rest)).takeWhile (fun c => !endsAuthority true c) = place := by
    rw [List.takeWhile_append_of_pos hinside, segments_cons, List.cons_append,
      List.takeWhile_cons_of_neg (by decide), List.append_nil]
  have hdrop : (place ++ segments (s :: rest)).dropWhile (fun c => !endsAuthority true c) =
      segments (s :: rest) := by
    rw [List.dropWhile_append_of_pos hinside, segments_cons, List.cons_append,
      List.dropWhile_cons_of_neg (by decide)]
  unfold ofParts
  dsimp only
  rw [if_neg hfile, isSpecial_of_web hscheme, Bool.true_or, if_pos rfl, hslashes, htake, hdrop, hauthority,
    absolutePath_plain hplain hne]
  rfl

/-- **An address of the web is read as it is written**, if it consists of a scheme, a place and plain segments:
the segments are its path, and it has neither a query nor a fragment. -/
theorem ofText_of_isPlace (hscheme : scheme = "http".toList ∨ scheme = "https".toList)
    (hplace : IsPlace place) (hplain : ∀ s ∈ ss, IsPlain s) (hne : ss ≠ []) :
    ∃ a, ofText (scheme ++ "://".toList ++ place ++ segments ss) =
      .ok ⟨scheme, some a, segments ss, none, none⟩ := by
  obtain ⟨a, ha⟩ := hplace.exists_authority (isSpecial_of_web hscheme)
  refine ⟨a, ?_⟩
  -- neither a query nor a fragment starts behind the scheme
  have hnone (sign : Char) (hpath : pathSet sign = true) (hbreaks : breaksHost sign = true)
      (hslash : sign ≠ '/') : sign ∉ "//".toList ++ (place ++ segments ss) := by
    simp only [List.mem_append, not_or]
    exact ⟨by simpa using hslash, hplace.not_mem hbreaks, not_mem_segments hplain hpath⟩
  have hfragment := splitFirst_of_not_mem (hnone '#' (by decide) (by decide) (by decide))
  have hquery := splitFirst_of_not_mem (hnone '?' (by decide) (by decide) (by decide))
  rw [ofText, cleaned_web hscheme hplace hplain hne, scheme?_web hscheme]
  simp only [hfragment, hquery]
  exact ofParts_place hscheme hplace ha hplain hne

end ChangeGate.Url
