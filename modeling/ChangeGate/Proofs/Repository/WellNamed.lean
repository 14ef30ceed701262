import ChangeGate.Files.Edit
import ChangeGate.Proofs.Basic
import ChangeGate.Proofs.Text.Lines
import ChangeGate.Repository.Revision

/-! # Well-named repositories

No part of a path is empty or holds a slash, so the text of a path tells the path
(**`relative_inj`**). A repository is **well named** when the paths of its commits and of its index are
such paths. A step of a revision leads from what is well named to what is (**`take_wellNamed`**), and so
the snapshot that a revision names is well named (**`resolveSnapshot_wellNamed`**). -/

namespace ChangeGate

/-! ## (1) Paths and their texts -/

namespace Files

/-- **A path**: none of its parts is empty or holds a slash. -/
def IsPath (p : Path) : Prop := ∀ part ∈ p, part ≠ [] ∧ '/' ∉ part

instance (p : Path) : Decidable (IsPath p) :=
  inferInstanceAs (Decidable (∀ part ∈ p, part ≠ [] ∧ '/' ∉ part))

/-- What is made of the parts of a path is a path. -/
theorem IsPath.mono {p q : Path} (h : IsPath p) (hsubset : q ⊆ p) : IsPath q :=
  fun part hpart => h part (hsubset hpart)

/-- A path that goes on along another one is a path. -/
theorem IsPath.append {p q : Path} (hp : IsPath p) (hq : IsPath q) : IsPath (p ++ q) := by
  intro part hpart
  rcases List.mem_append.mp hpart with hmem | hmem
  · exact hp part hmem
  · exact hq part hmem

/-- The parts that a text is cut into at its slashes make a path. -/
theorem isPath_plainNames (t : Text) : IsPath (Tree.plainNames t) := by
  intro part hpart
  obtain ⟨hpiece, hempty⟩ := List.mem_filter.mp hpart
  exact ⟨by simpa using hempty, Text.not_mem_of_mem_pieces hpiece⟩

/-- The text of a path is cut at the slashes that were put between its parts. -/
theorem pieces_relative {p : Path} (hne : p ≠ []) (h : ∀ part ∈ p, '/' ∉ part) :
    Text.pieces '/' (relative p) = p := by
  induction p with
  | nil => exact absurd rfl hne
  | cons part p ih =>
    have hpart : '/' ∉ part := h part (by simp)
    cases p with
    | nil => exact Text.pieces_of_not_mem hpart
    | cons next p =>
      have hrest : Text.pieces '/' (relative (next :: p)) = next :: p :=
        ih (by simp) fun other hother => h other (List.mem_cons_of_mem _ hother)
      have htext : relative (part :: next :: p) = part ++ '/' :: relative (next :: p) := by
        simp [relative, Text.join]
      rw [htext, Text.pieces_append hpart, hrest]

/-- **A path is read back from its text.** -/
theorem plainNames_relative {p : Path} (h : IsPath p) : Tree.plainNames (relative p) = p := by
  by_cases hne : p = []
  · rw [hne]
    rfl
  · rw [Tree.plainNames, pieces_relative hne fun part hpart => (h part hpart).2]
    refine List.filter_eq_self.mpr fun part hpart => ?_
    simpa using (h part hpart).1

/-- **Two paths with one text are the same.** -/
theorem relative_inj {p q : Path} (hp : IsPath p) (hq : IsPath q)
    (h : relative p = relative q) : p = q := by
  rw [← plainNames_relative hp, h, plainNames_relative hq]

end Files

namespace Repository

open Files (IsPath)

/-! ## (2) Well-named repositories -/

/-- A snapshot is well named when its paths are paths. -/
def Snapshot.WellNamed (s : Snapshot) : Prop := ∀ p ∈ s.paths, IsPath p

instance (s : Snapshot) : Decidable s.WellNamed :=
  inferInstanceAs (Decidable (∀ p ∈ s.paths, IsPath p))

/-- The entries below a directory of a well-named snapshot are well named. -/
theorem Snapshot.WellNamed.below {s : Snapshot} (h : s.WellNamed) (directory : Path) :
    (s.below directory).WellNamed := by
  intro p hp
  obtain ⟨entry, hentry, rfl⟩ := List.mem_map.mp hp
  obtain ⟨⟨q, e⟩, hq, hkept⟩ := List.mem_filterMap.mp hentry
  have hpath : IsPath q := h q (List.mem_map_of_mem hq)
  obtain ⟨-, hkept⟩ := Option.ite_none_right_eq_some.mp hkept
  obtain rfl := Option.some.inj hkept
  exact hpath.mono (List.drop_subset _ _)

/-- A store is well named when its commits and its index are. -/
def Store.WellNamed (s : Store) : Prop :=
  (∀ c ∈ s.commits, c.snapshot.WellNamed) ∧ s.index.WellNamed

instance (s : Store) : Decidable s.WellNamed :=
  inferInstanceAs (Decidable ((∀ c ∈ s.commits, c.snapshot.WellNamed) ∧ s.index.WellNamed))

end Repository

namespace Files

/-- A node is well named unless it is a store that is not. -/
def Node.WellNamed : Node → Prop
  | .store s => s.WellNamed
  | _ => True

instance : (n : Node) → Decidable n.WellNamed
  | .store s => inferInstanceAs (Decidable s.WellNamed)
  | .file _ _ => isTrue trivial
  | .link _ => isTrue trivial
  | .directory => isTrue trivial

/-- A tree is well named when its stores are. -/
def Tree.WellNamed (t : Tree) : Prop := ∀ e ∈ t.nodes, e.2.WellNamed

instance (t : Tree) : Decidable t.WellNamed :=
  inferInstanceAs (Decidable (∀ e ∈ t.nodes, e.2.WellNamed))

/-- A store that stands in a well-named tree is well named. -/
theorem Tree.WellNamed.store {t : Tree} (h : t.WellNamed) {place : Path} {s : Repository.Store}
    (hnode : t.node? place = some (.store s)) : s.WellNamed := by
  rw [Tree.node?] at hnode
  split at hnode
  · exact absurd hnode (by simp)
  · obtain ⟨front, back, hnodes, -⟩ := List.lookup_eq_some_iff.mp hnode
    have hmem : (place, Node.store s) ∈ t.nodes := by
      rw [hnodes]
      simp
    exact h _ hmem

end Files

namespace Repository

open Files (IsPath)

/-! ## (3) The snapshot that a revision names -/

/-- An object that a revision can name is well named unless it is a snapshot that is not. -/
def Object.WellNamed : Object → Prop
  | .tree content => content.WellNamed
  | _ => True

variable {s : Store} {revision : Text}

/-- The commit of a number is well named. -/
theorem Store.WellNamed.commit? (h : s.WellNamed) {n : Nat} {c : Commit}
    (hcommit : s.commit? n = some c) : c.snapshot.WellNamed :=
  h.1 c (List.mem_of_getElem? hcommit)

/-- The commit of `HEAD` is well named. -/
theorem Store.WellNamed.headCommit? (h : s.WellNamed) {c : Commit}
    (hhead : s.headCommit? = some c) : c.snapshot.WellNamed := by
  obtain ⟨n, -, hcommit⟩ := Option.bind_eq_some_iff.mp hhead
  exact h.commit? hcommit

/-- The snapshot of a well-named object is well named. -/
theorem Store.WellNamed.snapshot? (h : s.WellNamed) {o : Object} (ho : o.WellNamed) {b : Snapshot}
    (hsnapshot : s.snapshot? o = some b) : b.WellNamed := by
  cases o with
  | commit n =>
    obtain ⟨c, hcommit, rfl⟩ := Option.map_eq_some_iff.mp hsnapshot
    exact h.commit? hcommit
  | tag n =>
    obtain ⟨c, hcommit, rfl⟩ := Option.map_eq_some_iff.mp hsnapshot
    exact h.commit? hcommit
  | tree content =>
    obtain rfl := Option.some.inj hsnapshot
    exact ho
  | blob content => exact absurd hsnapshot (by simp [Store.snapshot?])

/-- What stands at a path inside a well-named snapshot is well named: induction on the path. -/
theorem entryAt_wellNamed {content : Snapshot} (h : content.WellNamed) {p : Path} {o : Object}
    (hentry : entryAt content p = .ok o) : o.WellNamed := by
  induction p generalizing content with
  | nil => exact absurd hentry (by simp [entryAt])
  | cons name rest ih =>
    rw [entryAt] at hentry
    split at hentry
    · exact absurd hentry (by simp)
    split at hentry
    · exact absurd hentry (by simp)
    · -- a directory, which the rest of the path may lead into
      split at hentry
      · obtain rfl := Except.ok.inj hentry
        exact h.below [name]
      · exact ih (h.below [name]) hentry
    · split at hentry
      · obtain rfl := Except.ok.inj hentry
        trivial
      · exact absurd hentry (by simp)

/-- What has been reached on the way through a revision is well named unless it is an object that is not. -/
def Progress.WellNamed : Progress → Prop
  | .name _ => True
  | .object o => o.WellNamed

variable {sofar next : Progress} {o : Object}

/-- The object that a name stands for is a commit or a tag. -/
theorem named_wellNamed {name : Text} (h : s.named revision name = .ok o) : o.WellNamed := by
  unfold Store.named at h
  dsimp only at h
  split at h
  · exact absurd h (by simp)
  split at h
  · rename_i target _
    obtain rfl := Except.ok.inj h
    cases target <;> trivial
  · split at h <;> exact absurd h (by simp)

/-- The object that has been reached is well named. -/
theorem reached_wellNamed (hsofar : sofar.WellNamed) (h : s.reached revision sofar = .ok o) :
    o.WellNamed := by
  cases sofar with
  | name t => exact named_wellNamed h
  | object reached =>
    obtain rfl := Except.ok.inj h
    exact hsofar

/-- The object of a kind behind a well-named object is well named. -/
theorem peel_wellNamed (hs : s.WellNamed) {kind : Text} {found : Object} (ho : o.WellNamed)
    (h : s.peel revision kind o = .ok found) : found.WellNamed := by
  unfold Store.peel at h
  -- any object is asked for, or a commit, or a tree, or something else
  split at h
  · obtain rfl := Except.ok.inj h
    cases o <;> trivial
  split at h
  · cases hnumber : o.commitNumber? with
    | none => exact absurd h (by simp [hnumber])
    | some n =>
      rw [hnumber] at h
      obtain rfl := Except.ok.inj h
      trivial
  split at h
  · cases hsnapshot : s.snapshot? o with
    | none => exact absurd h (by simp [hsnapshot])
    | some content =>
      rw [hsnapshot] at h
      obtain rfl := Except.ok.inj h
      exact hs.snapshot? ho hsnapshot
  · -- what is left is a tag or a blob, behind which no snapshot is looked for
    split at h
    · split at h
      · obtain rfl := Except.ok.inj h
        trivial
      · exact absurd h (by simp)
    · split at h
      · obtain rfl := Except.ok.inj h
        trivial
      · exact absurd h (by simp)
    · exact absurd h (by simp)

/-- **A step of a revision** leads from what is well named to what is. -/
theorem take_wellNamed (hs : s.WellNamed) (hsofar : sofar.WellNamed) {step : Step}
    (h : s.take revision sofar step = .ok next) : next.WellNamed := by
  cases step with
  | letter c =>
    cases sofar with
    | name t =>
      obtain rfl := Except.ok.inj h
      trivial
    | object reached => exact absurd h (by simp [Store.take])
  | parent which =>
    obtain ⟨o, -, h⟩ := bind_eq_ok.mp h
    split at h
    · obtain rfl := Except.ok.inj h
      trivial
    · obtain ⟨p, -, rfl⟩ := map_eq_ok.mp h
      trivial
    · exact absurd h (by simp)
  | ancestor generations =>
    cases generations with
    | none => exact absurd h (by simp [Store.take])
    | some k =>
      obtain ⟨o, -, h⟩ := bind_eq_ok.mp h
      split at h
      · obtain ⟨p, -, rfl⟩ := map_eq_ok.mp h
        trivial
      · exact absurd h (by simp)
  | peel kind =>
    obtain ⟨o, hreached, h⟩ := bind_eq_ok.mp h
    split at h
    · obtain ⟨found, hpeel, rfl⟩ := map_eq_ok.mp h
      exact peel_wellNamed hs (reached_wellNamed hsofar hreached) hpeel
    · exact absurd h (by simp)
  | earlier which => exact absurd h (by simp [Store.take])
  | path p =>
    -- the path is looked up in the snapshot that was reached
    rw [Store.take] at h
    split at h
    · exact absurd h (by simp)
    obtain ⟨o, hreached, h⟩ := bind_eq_ok.mp h
    split at h
    · exact absurd h (by simp)
    · rename_i content hsnapshot
      have hcontent : content.WellNamed :=
        hs.snapshot? (reached_wellNamed hsofar hreached) hsnapshot
      split at h
      · obtain rfl := Except.ok.inj h
        exact hcontent
      · obtain ⟨found, hentry, rfl⟩ := map_eq_ok.mp h
        exact entryAt_wellNamed hcontent hentry

/-- The steps of a revision, one after another, lead to what is well named. -/
theorem foldlM_take_wellNamed (hs : s.WellNamed) {steps : List Step} (hsofar : sofar.WellNamed)
    (h : steps.foldlM (s.take revision) sofar = .ok next) : next.WellNamed := by
  induction steps generalizing sofar with
  | nil =>
    obtain rfl : sofar = next := Except.ok.inj h
    exact hsofar
  | cons step steps ih =>
    rw [List.foldlM_cons, bind_eq_ok] at h
    obtain ⟨first, hfirst, hrest⟩ := h
    exact ih (take_wellNamed hs hsofar hfirst) hrest

/-- **The snapshot that a revision names** is well named if the store is. -/
theorem resolveSnapshot_wellNamed (hs : s.WellNamed) {b : Snapshot}
    (h : s.resolveSnapshot revision = .ok b) : b.WellNamed := by
  obtain ⟨o, hresolve, h⟩ := bind_eq_ok.mp h
  obtain ⟨last, hsteps, hreached⟩ := bind_eq_ok.mp hresolve
  have hstart : Progress.WellNamed (.name []) := trivial
  have ho : o.WellNamed := reached_wellNamed (foldlM_take_wellNamed hs hstart hsteps) hreached
  split at h
  · rename_i content hsnapshot
    obtain rfl := Except.ok.inj h
    exact hs.snapshot? ho hsnapshot
  · exact absurd h (by simp)

end Repository

end ChangeGate
