import ChangeGate.Files.Tree
import ChangeGate.Proofs.Basic

/-! # Adding to a file

A path that can be **opened** leads to a file or to a place where nothing stands. The walk that found
the place finds it again after bytes were added there (**`walk_insert`**), because all that it passed on
the way were directories and links, which adding to a file does not touch. So reading gives back the
old content and the new bytes behind it (**`read_addTo`**), the path still opens the same file
(`opened_addTo`), and what is added twice is added at once (`addTo_addTo`). -/

namespace ChangeGate.Files

/-! ## (1) Nodes -/

/-- Whether bytes can be added at a place: a file stands there, or nothing does. -/
def Appendable : Option Node → Prop
  | none => True
  | some (.file _ _) => True
  | some _ => False

namespace Tree

variable {t : Tree} {p q : Path} {n : Node}

@[simp] theorem node?_nil (t : Tree) : t.node? [] = some .directory := rfl

/-- The top of a tree is no place for bytes. -/
theorem ne_nil_of_appendable (h : Appendable (t.node? p)) : p ≠ [] := by
  rintro rfl
  exact h

/-- A node that is put at a place stands there. -/
theorem node?_insert_self (hp : p ≠ []) : (t.insert p n).node? p = some n := by
  simp [node?, insert, hp]

/-- A node that is put at a place changes no other place. -/
theorem node?_insert_of_ne (h : q ≠ p) : (t.insert p n).node? q = t.node? q := by
  have hqp : (q == p) = false := by simpa using h
  unfold node? insert
  by_cases hq : q = []
  · rw [if_pos hq, if_pos hq]
  · rw [if_neg hq, if_neg hq, List.lookup_cons, hqp]
    exact Text.lookup_filter_of_ne h t.nodes

/-! ## (2) Walks -/

variable {follow follow' : Path → Path → Except Cause Place}

/-- A walk tells the node that stands where it ends, if following a link does. -/
theorem walkWith_node (hfollow : ∀ here names place, follow here names = .ok place →
      place.node = t.node? place.path) {here names : Path} {place : Place}
    (h : t.walkWith follow here names = .ok place) : place.node = t.node? place.path := by
  induction names generalizing here with
  | nil =>
    rw [walkWith] at h
    obtain rfl := Except.ok.inj h
    rfl
  | cons name rest ih =>
    simp only [walkWith] at h
    split at h
    · exact ih h
    split at h
    · exact ih h
    split at h
    · exact absurd h (by simp)
    split at h
    · rename_i hnode
      split at h
      · obtain rfl := Except.ok.inj h
        exact hnode.symm
      · exact absurd h (by simp)
    · exact hfollow _ _ _ h
    · rename_i hnode
      split at h
      · obtain rfl := Except.ok.inj h
        exact hnode.symm
      · exact absurd h (by simp)
    · exact ih h

/-- A walk tells the node that stands where it ends. -/
theorem walk_node {links : Nat} {here names : Path} {place : Place}
    (h : t.walk links here names = .ok place) : place.node = t.node? place.path := by
  induction links generalizing here names place with
  | zero => exact walkWith_node (by simp) h
  | succ links ih => exact walkWith_node (fun _ _ _ hplace => ih hplace) h

variable {content : Text.Bytes} {executable : Bool} {node : Option Node}

/-- **A walk finds its end again** after a file is put there, if following a link does: the places on
the way hold directories and links, so none of them is that end. -/
theorem walkWith_insert (hp : Appendable (t.node? p))
    (hfollow : ∀ here names node, follow here names = .ok ⟨p, node⟩ →
      follow' here names = .ok ⟨p, some (.file content executable)⟩)
    {here names : Path} (h : t.walkWith follow here names = .ok ⟨p, node⟩) :
    (t.insert p (.file content executable)).walkWith follow' here names =
      .ok ⟨p, some (.file content executable)⟩ := by
  have hself := node?_insert_self (t := t) (n := .file content executable) (ne_nil_of_appendable hp)
  induction names generalizing here with
  | nil =>
    rw [walkWith] at h ⊢
    obtain ⟨rfl, -⟩ := Place.mk.inj (Except.ok.inj h)
    rw [hself]
  | cons name rest ih =>
    simp only [walkWith] at h ⊢
    -- neither a dot nor two dots ask what stands at a place
    split at h
    · rw [if_pos (by assumption)]
      exact ih h
    rw [if_neg (by assumption)]
    split at h
    · rw [if_pos (by assumption)]
      exact ih h
    rw [if_neg (by assumption)]
    split at h
    · exact absurd h (by simp)
    rw [if_neg (by assumption)]
    split at h
    · split at h
      · obtain ⟨rfl, -⟩ := Place.mk.inj (Except.ok.inj h)
        rw [hself]
        exact if_pos (by assumption)
      · exact absurd h (by simp)
    · -- nothing is appended to a link, so this is another place
      rename_i target hlink
      have hne : here ++ [name] ≠ p := by
        rintro rfl
        rw [hlink] at hp
        exact hp
      rw [node?_insert_of_ne hne, hlink]
      exact hfollow _ _ _ h
    · split at h
      · obtain ⟨rfl, -⟩ := Place.mk.inj (Except.ok.inj h)
        rw [hself]
        exact if_pos (by assumption)
      · exact absurd h (by simp)
    · -- what is walked through is no file, so this is another place, too
      rename_i other hnotLink hnotFile hother
      have hne : here ++ [name] ≠ p := by
        rintro rfl
        rw [hother] at hp
        cases other with
        | file content executable => exact hnotFile content executable rfl
        | link target => exact hp
        | directory => exact hp
        | store content => exact hp
      rw [node?_insert_of_ne hne, hother]
      cases other with
      | file content executable => exact absurd rfl (hnotFile content executable)
      | link target => exact absurd rfl (hnotLink target)
      | directory => exact ih h
      | store content => exact ih h

/-- **A walk finds its end again** after a file is put there. -/
theorem walk_insert {links : Nat} (hp : Appendable (t.node? p)) {here names : Path}
    (h : t.walk links here names = .ok ⟨p, node⟩) :
    (t.insert p (.file content executable)).walk links here names =
      .ok ⟨p, some (.file content executable)⟩ := by
  induction links generalizing here names node with
  | zero => exact walkWith_insert hp (by simp) h
  | succ links ih => exact walkWith_insert hp (fun _ _ _ hplace => ih hplace) h

/-! ## (3) Adding -/

variable {cwd : Path} {path : Text} {bytes : Text.Bytes}

/-- **A path can be opened** when it leads to a file or to a place where nothing stands. -/
def Opens (t : Tree) (cwd : Path) (path : Text) : Prop := ∃ p, t.opened cwd path = .ok p

/-- The content of the file at a path, empty if there is none. -/
def contentOf (t : Tree) (cwd : Path) (path : Text) : Text.Bytes :=
  match t.read cwd path with
  | .ok bytes => bytes
  | .error _ => []

/-- A place that a path leads to holds the node that stands there. -/
theorem find_node {place : Place} (h : t.find cwd path = .ok place) :
    place.node = t.node? place.path := by
  unfold find at h
  split at h
  · exact absurd h (by simp)
  split at h
  · exact absurd h (by simp)
  split at h
  · exact absurd h (by simp)
  exact walk_node h

/-- A path leads to the same place after a file is put there. -/
theorem find_insert {node : Option Node} (hp : Appendable (t.node? p))
    (h : t.find cwd path = .ok ⟨p, node⟩) :
    (t.insert p (.file content executable)).find cwd path =
      .ok ⟨p, some (.file content executable)⟩ := by
  unfold find at h ⊢
  split at h
  · exact absurd h (by simp)
  rw [if_neg (by assumption)]
  split at h
  · exact absurd h (by simp)
  rw [if_neg (by assumption)]
  split at h
  · exact absurd h (by simp)
  rw [if_neg (by assumption)]
  exact walk_insert hp h

/-- The place of an opened file is where its path leads, and bytes can be added there. -/
theorem find_of_opened (h : t.opened cwd path = .ok p) :
    t.find cwd path = .ok ⟨p, t.node? p⟩ ∧ Appendable (t.node? p) := by
  unfold opened at h
  split at h
  · split at h
    · split at h <;> exact absurd h (by simp)
    · exact absurd h (by simp)
  · rename_i place hfind
    obtain ⟨q, node⟩ := place
    obtain rfl : node = t.node? q := find_node hfind
    dsimp only at h
    split at h
    · rename_i hnode
      obtain rfl := Except.ok.inj h
      exact ⟨hfind, by rw [hnode]; trivial⟩
    · rename_i hnode
      obtain rfl := Except.ok.inj h
      exact ⟨hfind, by rw [hnode]; trivial⟩
    · exact absurd h (by simp)

/-- Adding to an opened file puts a file in its place, with the bytes behind its content. -/
theorem addTo_of_opened (h : t.opened cwd path = .ok p) (bytes : Text.Bytes) :
    ∃ executable, t.addTo p bytes = t.insert p (.file (t.contentOf cwd path ++ bytes) executable) := by
  obtain ⟨hfind, hp⟩ := find_of_opened h
  cases hnode : t.node? p with
  | none => exact ⟨false, by simp [addTo, contentOf, read, hfind, hnode]⟩
  | some node =>
    rw [hnode] at hp
    cases node with
    | file content executable =>
      exact ⟨executable, by simp [addTo, contentOf, read, hfind, hnode]⟩
    | link target => exact absurd hp id
    | directory => exact absurd hp id
    | store content => exact absurd hp id

/-- **Reading after adding** gives the old content and the new bytes behind it. -/
theorem read_addTo (h : t.opened cwd path = .ok p) (bytes : Text.Bytes) :
    (t.addTo p bytes).read cwd path = .ok (t.contentOf cwd path ++ bytes) := by
  obtain ⟨hfind, hp⟩ := find_of_opened h
  obtain ⟨executable, hadd⟩ := addTo_of_opened h bytes
  rw [hadd, read, find_insert hp hfind]

/-- The content of a file that was added to is the old one and the new bytes behind it. -/
theorem contentOf_addTo (h : t.opened cwd path = .ok p) (bytes : Text.Bytes) :
    (t.addTo p bytes).contentOf cwd path = t.contentOf cwd path ++ bytes := by
  rw [contentOf, read_addTo h]

/-- The path still opens a file that was added to. -/
theorem opened_addTo (h : t.opened cwd path = .ok p) (bytes : Text.Bytes) :
    (t.addTo p bytes).opened cwd path = .ok p := by
  obtain ⟨hfind, hp⟩ := find_of_opened h
  obtain ⟨executable, hadd⟩ := addTo_of_opened h bytes
  rw [hadd, opened, find_insert hp hfind]

/-- Adding changes nothing but the one place. -/
theorem node?_addTo_of_ne (h : q ≠ p) (bytes : Text.Bytes) : (t.addTo p bytes).node? q = t.node? q := by
  unfold addTo
  split <;> exact node?_insert_of_ne h

/-- Of two nodes that are put at a place, the second one stays. -/
theorem insert_insert (n' : Node) : (t.insert p n).insert p n' = t.insert p n' := by
  simp [insert, List.filter_filter]

/-- **What is added twice is added at once.** -/
theorem addTo_addTo (h : Appendable (t.node? p)) (bytes more : Text.Bytes) :
    (t.addTo p bytes).addTo p more = t.addTo p (bytes ++ more) := by
  have hp := ne_nil_of_appendable h
  cases hnode : t.node? p with
  | none => simp [addTo, hnode, node?_insert_self hp, insert_insert]
  | some node =>
    rw [hnode] at h
    cases node with
    | file content executable => simp [addTo, hnode, node?_insert_self hp, insert_insert]
    | link target => exact absurd h id
    | directory => exact absurd h id
    | store content => exact absurd h id

end Tree

end ChangeGate.Files
