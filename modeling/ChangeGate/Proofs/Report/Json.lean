import ChangeGate.Proofs.Json.Quote
import ChangeGate.Proofs.Json.Reading
import ChangeGate.Report.Json

/-! # The report as JSON is read back

What is written for a report spells one object, with a member for each part of the report
(**`spells_json`**). So any reader of JSON finds the report in it again, whatever characters the names of
the files hold, and two reports are never written in the same way (**`json_lossless`**). -/

namespace ChangeGate.Report

open Json (Spells)

/-! ## (1) Lists of strings -/

/-- A text that is written as a string spells that string. -/
theorem spells_quote (t rest : Text) : Spells (.value (.string t)) (Json.quote t ++ rest) rest := by
  have hread : Json.readString (Json.quoteBody t ++ '"' :: rest) = .ok (t, rest) :=
    Json.readString_quoteBody t rest
  have hquote : Json.quote t ++ rest = '"' :: (Json.quoteBody t ++ '"' :: rest) := by
    rw [Json.quote, List.cons_append, List.cons_append, List.append_assoc, List.singleton_append]
  exact .string (hquote ▸ rfl) hread

theorem elementLines_singleton (t : Text) :
    elementLines [t] = "\n    ".toList ++ Json.quote t := rfl

theorem elementLines_cons_cons (t u : Text) (ts : List Text) :
    elementLines (t :: u :: ts) =
      "\n    ".toList ++ Json.quote t ++ [','] ++ elementLines (u :: ts) := rfl

theorem listText_cons (t : Text) (ts : List Text) :
    listText (t :: ts) = ['['] ++ elementLines (t :: ts) ++ "\n  ]".toList := rfl

/-- What is written before an element of a list that is not the first one. -/
def nextLine : Text := ",\n    ".toList

/-- The elements after the first one have a comma before them. -/
theorem elementLines_cons (t : Text) (ts : List Text) :
    elementLines (t :: ts) =
      "\n    ".toList ++ Json.quote t ++ ts.flatMap fun u => nextLine ++ Json.quote u := by
  induction ts generalizing t with
  | nil => rw [elementLines_singleton, List.flatMap_nil, List.append_nil]
  | cons u ts ih =>
    have hline : nextLine = [','] ++ "\n    ".toList := rfl
    rw [elementLines_cons_cons, ih, List.flatMap_cons, hline]
    simp only [List.append_assoc]

/-- The elements after the first one, and the end of the list: induction on the elements. -/
theorem spells_nextLines (ts : List Text) (rest : Text) :
    Spells (.elements false (ts.map .string))
      ((ts.flatMap fun u => nextLine ++ Json.quote u) ++ ("\n  ]".toList ++ rest)) rest := by
  induction ts with
  | nil => exact .listEnd rfl
  | cons u ts ih =>
    rw [List.flatMap_cons, List.append_assoc, List.append_assoc]
    exact .element rfl (spells_quote u _) ih

/-- **A list of strings** is spelled by what is written for it, be it empty or not. -/
theorem spells_listText (ts : List Text) (rest : Text) :
    Spells (.value (.list (ts.map .string))) (' ' :: (listText ts ++ rest)) rest := by
  cases ts with
  | nil => exact .list rfl (.listEnd rfl)
  | cons t ts =>
    have htext : listText (t :: ts) ++ rest = '[' :: ("\n    ".toList ++ (Json.quote t ++
        ((ts.flatMap fun u => nextLine ++ Json.quote u) ++ ("\n  ]".toList ++ rest)))) := by
      rw [listText_cons, elementLines_cons]
      simp only [List.append_assoc, List.cons_append, List.nil_append]
    rw [htext]
    exact .list rfl (.element rfl (spells_quote t _) (spells_nextLines ts rest))

/-! ## (2) The object -/

/-- A truth value is spelled by its word. -/
theorem spells_ofBool (b : Bool) (rest : Text) :
    Spells (.value (.bool b)) (' ' :: (Text.ofBool b ++ rest)) rest := by
  cases b with
  | true => exact .true rfl rfl
  | false => exact .false rfl rfl

/-- The object that a report is written as. -/
def object (r : Report) : Json.Value :=
  .object [("changed".toList, .bool r.changed), ("files".toList, .list (r.files.map .string)),
    ("included".toList, .list (r.included.map .string))]

/-- What is written for a report, part by part. -/
theorem json_eq (r : Report) :
    r.json = "\x7b\n  \"changed\": ".toList ++ (Text.ofBool r.changed ++
      (",\n  \"files\": ".toList ++ (listText r.files ++
        (",\n  \"included\": ".toList ++ (listText r.included ++ "\n\x7d\n".toList))))) := by
  unfold json
  rw [List.append_assoc, List.append_assoc, List.append_assoc, List.append_assoc,
    List.append_assoc]

/-- **What is written for a report** spells its object. -/
theorem spells_json (r : Report) : Spells (.value r.object) r.json ['\n'] := by
  rw [json_eq]
  -- each key is followed by its value, and what is left starts at the comma behind it
  refine .object rfl (.member rfl (Json.readString_quoteBody "changed".toList _) rfl
    (spells_ofBool r.changed _) ?_)
  refine .member rfl (Json.readString_quoteBody "files".toList _) rfl (spells_listText r.files _) ?_
  refine .member rfl (Json.readString_quoteBody "included".toList _) rfl
    (spells_listText r.included _) ?_
  exact .objectEnd rfl

/-- Strings are not nested. -/
theorem nestingOfElements_strings (ts : List Text) :
    Json.nestingOfElements (ts.map .string) = 0 := by
  induction ts with
  | nil => rfl
  | cons t ts ih =>
    rw [List.map_cons, Json.nestingOfElements, ih]
    rfl

/-- The lists of a report are nested in its object, and nothing is nested in them. -/
theorem nesting_object (r : Report) : r.object.nesting = 2 := by
  simp only [object, Json.Value.nesting, Json.nestingOfMembers, nestingOfElements_strings]
  rfl

/-- What is written for a report is read as its object. -/
theorem readDocument_json (r : Report) : Json.readDocument r.json = .ok r.object :=
  Json.readDocument_of_spells (spells_json r) (by rw [nesting_object]; decide) rfl

/-- A report is known by its object. -/
theorem eq_of_object {r s : Report} (h : r.object = s.object) : r = s := by
  have hstring : Function.Injective Json.Value.string := fun _ _ h => Json.Value.string.inj h
  simp only [object, Json.Value.object.injEq, List.cons.injEq, Prod.mk.injEq, true_and, and_true,
    Json.Value.bool.injEq, Json.Value.list.injEq] at h
  obtain ⟨hchanged, hfiles, hincluded⟩ := h
  cases r
  cases s
  obtain rfl := hchanged
  obtain rfl := hstring.list_map hfiles
  obtain rfl := hstring.list_map hincluded
  rfl

/-- **The report as JSON is lossless.** It is read as an object with the members `changed`, `files` and
`included` and no others, which hold the verdict and the two lists of names in their order. So two
reports that are written in the same way are the same. -/
theorem json_lossless (r : Report) :
    Json.readDocument r.json = .ok (.object [("changed".toList, .bool r.changed),
      ("files".toList, .list (r.files.map .string)),
      ("included".toList, .list (r.included.map .string))]) ∧
    ∀ s : Report, s.json = r.json → s = r := by
  refine ⟨readDocument_json r, fun s hsame => ?_⟩
  have hobject : r.object = s.object := by
    have hread := readDocument_json s
    rw [hsame, readDocument_json r] at hread
    exact Except.ok.inj hread
  exact (eq_of_object hobject).symm

end ChangeGate.Report
