import ChangeGate.Proofs.Files.Append
import ChangeGate.Repository.Discovery

/-! # The repository that is found

Whatever the search passes on its way, a file that names the store or a link to it, it ends at a place
of the tree where a store stands (**`discover_node`**). So two directories from which the same place is
found are in the same repository (**`discover_unique`**). -/

namespace ChangeGate.Repository

open Files (Tree)

variable {t : Tree} {start : Text} {l l' : Located}

/-- What is found in a directory is the store at its place. -/
theorem findingAt_node {directory : Path} (h : findingAt t start directory = .found l) :
    t.node? l.place = some (.store l.store) := by
  unfold findingAt at h
  split at h
  · rename_i hwalk
    obtain rfl := Finding.found.inj h
    exact (Tree.walk_node hwalk).symm
  · -- a file stands there, and names the place of the store
    split at h
    · exact absurd h (by simp)
    · split at h
      · rename_i hfind
        obtain rfl := Finding.found.inj h
        exact (Tree.find_node hfind).symm
      · exact absurd h (by simp)
      · exact absurd h (by simp)
      · exact absurd h (by simp)
  · split at h
    · rename_i hnode
      obtain rfl := Finding.found.inj h
      exact hnode
    · exact absurd h (by simp)

/-- A search that ends well found a store in its first directory, or goes on above. -/
theorem searchUp_cases {depth : Nat} {directory : Path}
    (h : searchUp t start depth directory = .ok l) :
    findingAt t start directory = .found l ∨
      ∃ above, depth = above + 1 ∧ searchUp t start above directory.dropLast = .ok l := by
  unfold searchUp at h
  cases hfinding : findingAt t start directory with
  | found found =>
    rw [hfinding] at h
    obtain rfl := Except.ok.inj h
    exact .inl rfl
  | refused e =>
    rw [hfinding] at h
    exact absurd h (by simp)
  | nothing =>
    rw [hfinding] at h
    cases depth with
    | zero => exact absurd h (by simp)
    | succ above => exact .inr ⟨above, rfl, h⟩

/-- A search ends at the place of a store: induction on the directories that are left above. -/
theorem searchUp_node {depth : Nat} {directory : Path}
    (h : searchUp t start depth directory = .ok l) : t.node? l.place = some (.store l.store) := by
  induction depth generalizing directory with
  | zero =>
    rcases searchUp_cases h with hfound | ⟨above, hdepth, -⟩
    · exact findingAt_node hfound
    · omega
  | succ depth ih =>
    rcases searchUp_cases h with hfound | ⟨above, hdepth, habove⟩
    · exact findingAt_node hfound
    · obtain rfl : depth = above := by omega
      exact ih habove

variable {cwd cwd' : Path} {path path' : Text}

/-- **The repository of a directory** is a store of the tree. -/
theorem discover_node (h : discover t cwd path = .ok l) :
    t.node? l.place = some (.store l.store) := by
  unfold discover at h
  split at h
  · exact absurd h (by simp)
  · exact absurd h (by simp)
  · exact searchUp_node h

/-- **The place of a repository tells all of it**, from wherever it was found. -/
theorem discover_unique (h : discover t cwd path = .ok l) (h' : discover t cwd' path' = .ok l')
    (hplace : l'.place = l.place) : l' = l := by
  obtain ⟨place, store⟩ := l
  obtain ⟨place', store'⟩ := l'
  obtain rfl : place' = place := hplace
  have hnode : t.node? place' = some (.store store) := discover_node h
  have hnode' : t.node? place' = some (.store store') := discover_node h'
  have hstore : store' = store :=
    Files.Node.store.inj (Option.some.inj (hnode'.symm.trans hnode))
  rw [hstore]

end ChangeGate.Repository
