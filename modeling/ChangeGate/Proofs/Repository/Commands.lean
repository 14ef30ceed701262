import ChangeGate.Proofs.Repository.Naming
import ChangeGate.Repository.Workspace

/-! # Repositories that commands make

A user edits files and gives commands to the repository. A tree is **placed** when its places are paths
and its stores are well named. Each edit and each command leaves a placed tree placed
(**`placed_after`**), because a walk leads from a path to a path (**`walk_isPath`**). So whatever the user
does, every repository is well named (**`wellNamed_run`**), and what changed in one is listed faithfully as
long as no path of it holds a backslash (**`faithful_run_iff`**). -/

namespace ChangeGate

namespace Files

/-! ## (1) Walks -/

variable {p : Path} {t : Tree} {n : Node}

/-- The names of a path that is given as a text make a path. -/
theorem isPath_names (t : Text) : IsPath (names t) := by
  refine IsPath.append (isPath_plainNames t) ?_
  split
  · decide
  · exact fun part hpart => absurd hpart List.not_mem_nil

namespace Tree

variable {follow : Path → Path → Except Cause Place} {here names : Path} {place : Place}

/-- A walk leads from a path along names to a path, if following a link does. -/
theorem walkWith_isPath (hfollow : ∀ here names place, IsPath here → IsPath names →
      follow here names = .ok place → IsPath place.path) (hhere : IsPath here)
    (hnames : IsPath names) (h : t.walkWith follow here names = .ok place) : IsPath place.path := by
  induction names generalizing here with
  | nil =>
    rw [walkWith] at h
    obtain rfl := Except.ok.inj h
    exact hhere
  | cons name rest ih =>
    -- the walk stays where it is, turns back, or goes on along the name
    have hrest : IsPath rest := hnames.mono (List.subset_cons_self _ _)
    have hname : IsPath [name] := hnames.mono (by simp)
    have hnext : IsPath (here ++ [name]) := hhere.append hname
    simp only [walkWith] at h
    split at h
    · exact ih hhere hrest h
    split at h
    · exact ih (hhere.mono (List.dropLast_subset _)) hrest h
    split at h
    · exact absurd h (by simp)
    split at h
    · split at h
      · obtain rfl := Except.ok.inj h
        exact hnext
      · exact absurd h (by simp)
    · -- a link is followed from its own directory or from the top
      rename_i target _
      refine hfollow _ _ _ ?_ ((isPath_names target).append hrest) h
      split
      · exact fun part hpart => absurd hpart List.not_mem_nil
      · exact hhere
    · split at h
      · obtain rfl := Except.ok.inj h
        exact hnext
      · exact absurd h (by simp)
    · exact ih hnext hrest h

/-- **A walk leads from a path along names to a path.** -/
theorem walk_isPath {links : Nat} (hhere : IsPath here) (hnames : IsPath names)
    (h : t.walk links here names = .ok place) : IsPath place.path := by
  induction links generalizing here names place with
  | zero => exact walkWith_isPath (by simp) hhere hnames h
  | succ links ih =>
    exact walkWith_isPath (fun _ _ _ hhere hnames hplace => ih hhere hnames hplace) hhere hnames h

/-! ## (2) Edits -/

/-- A tree is placed when its places are paths and its stores are well named. -/
def Placed (t : Tree) : Prop := ∀ e ∈ t.nodes, IsPath e.1 ∧ e.2.WellNamed

instance (t : Tree) : Decidable t.Placed :=
  inferInstanceAs (Decidable (∀ e ∈ t.nodes, IsPath e.1 ∧ e.2.WellNamed))

/-- The stores of a placed tree are well named. -/
theorem Placed.wellNamed (h : t.Placed) : t.WellNamed := fun e he => (h e he).2

/-- A node that is put at a path leaves a tree placed. -/
theorem Placed.insert (h : t.Placed) (hp : IsPath p) (hn : n.WellNamed) : (t.insert p n).Placed := by
  intro e he
  rcases List.mem_cons.mp he with rfl | he
  · exact ⟨hp, hn⟩
  · exact h e (List.mem_of_mem_filter he)

/-- So does removing a path with all below it. -/
theorem Placed.remove (h : t.Placed) (p : Path) : (t.remove p).Placed :=
  fun e he => h e (List.mem_of_mem_filter he)

/-- Entering a directory, which is made if nothing stands there, leads to a path in a placed tree. -/
theorem Placed.enterDirectory {state : Tree × Option Path} (h : state.1.Placed)
    (hhere : ∀ here ∈ state.2, IsPath here) {name : Text} (hname : IsPath [name]) :
    (enterDirectory state name).1.Placed ∧ ∀ here ∈ (enterDirectory state name).2, IsPath here := by
  obtain ⟨t, here?⟩ := state
  cases here? with
  | none => exact ⟨h, hhere⟩
  | some here =>
    unfold Tree.enterDirectory
    dsimp only
    split
    · -- nothing stands there, so a directory is made
      rename_i path hwalk
      have hpath : IsPath path := walk_isPath (hhere here rfl) hname hwalk
      refine ⟨h.insert hpath trivial, ?_⟩
      intro reached hreached
      obtain rfl := Option.some.inj hreached
      exact hpath
    · -- what stands there is entered if it is a directory
      rename_i path node hwalk
      have hpath : IsPath path := walk_isPath (hhere here rfl) hname hwalk
      refine ⟨h, ?_⟩
      intro reached hreached
      split at hreached
      · obtain rfl := Option.some.inj hreached
        exact hpath
      · exact absurd hreached (by simp)
    · exact ⟨h, by simp⟩

/-- Directories are entered at paths, one after another: induction on the names. -/
theorem Placed.enterDirectories {state : Tree × Option Path} (h : state.1.Placed)
    (hhere : ∀ here ∈ state.2, IsPath here) (hnames : IsPath names) :
    (names.foldl Tree.enterDirectory state).1.Placed := by
  induction names generalizing state with
  | nil => exact h
  | cons name rest ih =>
    have hname : IsPath [name] := hnames.mono (by simp)
    obtain ⟨hplaced, hreached⟩ := h.enterDirectory hhere hname
    exact ih hplaced hreached (hnames.mono (List.subset_cons_self _ _))

/-- Making directories leaves a tree placed. -/
theorem Placed.makeDirectories (h : t.Placed) (hhere : IsPath here) (hnames : IsPath names) :
    (t.makeDirectories here names).1.Placed := by
  have hstart : ∀ reached ∈ some here, IsPath reached := by simpa using hhere
  have hplaced : (t, some here).1.Placed := h
  exact hplaced.enterDirectories hstart hnames

variable {cwd : Path} {path : Text}

/-- The parents of a path given as a text make a path. -/
theorem isPath_parents (path : Text) : IsPath (plainNames path).dropLast :=
  (isPath_plainNames path).mono (List.dropLast_subset _)

/-- The directories above a path are made. -/
theorem Placed.makeParents (h : t.Placed) (hcwd : IsPath cwd) (path : Text) :
    (t.makeDirectories cwd (plainNames path).dropLast).1.Placed :=
  h.makeDirectories hcwd (isPath_parents path)

/-- The seat of a path is a path. -/
theorem isPath_seat (hcwd : IsPath cwd) (h : t.seat? cwd path = some p) : IsPath p := by
  unfold seat? at h
  split at h
  · exact absurd h (by simp)
  · rename_i last hlast
    split at h
    · rename_i here node hwalk
      obtain ⟨-, hp⟩ := Option.ite_none_right_eq_some.mp h
      obtain rfl := Option.some.inj hp
      have hhere : IsPath here := walk_isPath hcwd (isPath_parents path) hwalk
      have hname : IsPath [last] :=
        (isPath_plainNames path).mono (by simpa using List.mem_of_getLast? hlast)
      exact hhere.append hname
    · exact absurd h (by simp)

/-- Writing a file leaves a tree placed. -/
theorem Placed.write (h : t.Placed) (hcwd : IsPath cwd) (path : Text) (content : Text.Bytes) :
    (t.write cwd path content).Placed := by
  have hmade := h.makeParents hcwd path
  unfold Tree.write
  dsimp only
  split
  · rename_i hwalk
    exact hmade.insert (walk_isPath hcwd (isPath_plainNames path) hwalk) trivial
  · rename_i hwalk
    exact hmade.insert (walk_isPath hcwd (isPath_plainNames path) hwalk) trivial
  · exact hmade

/-- Deleting a path leaves a tree placed. -/
theorem Placed.delete (h : t.Placed) (cwd : Path) (path : Text) : (t.delete cwd path).Placed := by
  unfold Tree.delete
  cases t.seat? cwd path with
  | none => exact h
  | some p => exact h.remove p

/-- Renaming leaves a tree placed: what is moved goes on along its new place. -/
theorem Placed.rename (h : t.Placed) (hcwd : IsPath cwd) (path goal : Text) :
    (t.rename cwd path goal).Placed := by
  have hmade := h.makeParents hcwd goal
  unfold Tree.rename
  dsimp only
  split
  · rename_i source target hsource htarget
    split
    · exact hmade
    · intro e he
      rcases List.mem_append.mp he with hmoved | hkept
      · -- what was below the source is below the target, at the same rest of its path
        obtain ⟨⟨place, node⟩, hplace, hmoved⟩ := List.mem_filterMap.mp hmoved
        obtain ⟨-, hmoved⟩ := Option.ite_none_right_eq_some.mp hmoved
        obtain rfl := Option.some.inj hmoved
        obtain ⟨hpath, hnode⟩ := hmade _ hplace
        exact ⟨(isPath_seat hcwd htarget).append (hpath.mono (List.drop_subset _ _)), hnode⟩
      · exact ((hmade.remove source).remove target) e hkept
  · exact hmade

/-- Making a link leaves a tree placed. -/
theorem Placed.link (h : t.Placed) (hcwd : IsPath cwd) (path goal : Text) :
    (t.link cwd path goal).Placed := by
  have hmade := h.makeParents hcwd path
  unfold Tree.link
  dsimp only
  split
  · rename_i hseat
    split
    · exact hmade
    · exact hmade.insert (isPath_seat hcwd hseat) trivial
  · exact hmade

/-- Whether a file may be executed makes no difference. -/
theorem Placed.setExecutable (h : t.Placed) (hcwd : IsPath cwd) (path : Text) (executable : Bool) :
    (t.setExecutable cwd path executable).Placed := by
  unfold Tree.setExecutable
  split
  · rename_i hwalk
    exact h.insert (walk_isPath hcwd (isPath_plainNames path) hwalk) trivial
  · exact h

end Tree

end Files

namespace Repository

open Files (IsPath Tree)

/-! ## (3) Commands -/

namespace Snapshot.WellNamed

variable {s : Snapshot} {p : Path}

/-- Leaving out entries leaves a snapshot well named. -/
theorem filter (h : s.WellNamed) (keep : Path × Entry → Bool) : WellNamed (s.filter keep) := by
  intro q hq
  obtain ⟨f, hf, rfl⟩ := List.mem_map.mp hq
  exact h f.1 (List.mem_map_of_mem (List.mem_of_mem_filter hf))

/-- So does an entry that is put at a path. -/
theorem insert (h : s.WellNamed) (hp : IsPath p) (e : Entry) : (s.insert p e).WellNamed := by
  intro q hq
  obtain ⟨f, hf, rfl⟩ := List.mem_map.mp hq
  rcases List.mem_cons.mp hf with rfl | hf
  · exact hp
  · -- it takes the place of what stands in its way, and the others stay
    exact h.filter _ f.1 (List.mem_map_of_mem hf)

end Snapshot.WellNamed

namespace Store.WellNamed

variable {s : Store}

/-- A well-named index in the place of the index leaves a store well named. -/
theorem withIndex (h : s.WellNamed) {index : Snapshot} (hindex : index.WellNamed) :
    Store.WellNamed { s with index := index } :=
  ⟨h.1, hindex⟩

/-- Committing records the paths of the index. -/
theorem commit (h : s.WellNamed) : s.commit.WellNamed := by
  refine ⟨?_, h.2⟩
  intro c hc
  rcases List.mem_append.mp hc with hc | hc
  · exact h.1 c hc
  · obtain rfl := List.mem_singleton.mp hc
    exact h.2

/-- A branch adds no path. -/
theorem branch (h : s.WellNamed) (name : Text) : (s.branch name).WellNamed := by
  unfold Store.branch
  split
  · exact h
  · exact h

/-- A tag adds no path. -/
theorem tag (h : s.WellNamed) (name : Text) (described : Bool) : (s.tag name described).WellNamed := by
  unfold Store.tag
  split
  · exact h
  · exact h

end Store.WellNamed

namespace Workspace

/-- What a user does to a workspace. -/
inductive Command where
  /-- A repository is made. -/
  | init
  /-- A file is written. -/
  | write (path : Text) (content : Text.Bytes)
  /-- What stands at a path is deleted. -/
  | delete (path : Text)
  /-- What stands at a path is renamed. -/
  | rename (path goal : Text)
  /-- A directory is made. -/
  | makeDirectory (path : Text)
  /-- A link is made. -/
  | link (path goal : Text)
  /-- A file may be executed from now on, or not. -/
  | setExecutable (path : Text) (executable : Bool)
  /-- A file is recorded in the index. -/
  | stage (path : Text)
  /-- A file is taken out of the index. -/
  | unstage (path : Text)
  /-- All files are recorded in the index. -/
  | stageAll
  /-- The index is committed. -/
  | commit
  /-- A branch is made. -/
  | branch (name : Text)
  /-- A tag is made. -/
  | tag (name : Text) (described : Bool)
  /-- `HEAD` is moved to a branch. -/
  | setHead (name : Text)
  /-- A branch is checked out. -/
  | checkout (name : Text)

/-- A workspace after a command. -/
def after (w : Workspace) : Command → Workspace
  | .init => w.init
  | .write path content => { w with tree := w.tree.write w.workdir path content }
  | .delete path => { w with tree := w.tree.delete w.workdir path }
  | .rename path goal => { w with tree := w.tree.rename w.workdir path goal }
  | .makeDirectory path => { w with tree := w.tree.makeDirectory w.workdir path }
  | .link path goal => { w with tree := w.tree.link w.workdir path goal }
  | .setExecutable path executable =>
    { w with tree := w.tree.setExecutable w.workdir path executable }
  | .stage path => w.stage path
  | .unstage path => w.unstage path
  | .stageAll => w.stageAll
  | .commit => w.update Store.commit
  | .branch name => w.update (·.branch name)
  | .tag name described => w.update (·.tag name described)
  | .setHead name => w.update (·.setHead name)
  | .checkout name => w.checkout name

/-- A workspace after commands, one after another. -/
def run (w : Workspace) (commands : List Command) : Workspace := commands.foldl after w

/-- A workspace is placed when its tree is and its working directory is at a path. -/
structure Placed (w : Workspace) : Prop where
  /-- The working directory is at a path. -/
  workdir : IsPath w.workdir
  /-- The tree is placed. -/
  tree : w.tree.Placed

variable {w : Workspace} {s : Store}

/-- The store of a placed workspace is well named. -/
theorem Placed.store (h : w.Placed) (hstore : w.store? = some s) : s.WellNamed := by
  unfold store? at hstore
  split at hstore
  · rename_i found hnode
    obtain rfl := Option.some.inj hstore
    exact h.tree.wellNamed.store hnode
  · exact absurd hstore (by simp)

/-- A well-named store in the place of the store leaves a workspace placed. -/
theorem Placed.withStore (h : w.Placed) (hs : s.WellNamed) : (w.withStore s).Placed := by
  have hplace : IsPath (w.workdir ++ [storeName]) := h.workdir.append (by decide)
  exact ⟨h.workdir, h.tree.insert hplace hs⟩

/-- A change that keeps stores well named leaves a workspace placed. -/
theorem Placed.update (h : w.Placed) {f : Store → Store}
    (hf : ∀ s, s.WellNamed → (f s).WellNamed) : (w.update f).Placed := by
  unfold Workspace.update
  cases hstore : w.store? with
  | none => exact h
  | some s => exact h.withStore (hf s (h.store hstore))

/-- A new repository has no paths. -/
theorem Placed.init (h : w.Placed) : w.init.Placed := by
  unfold Workspace.init
  split
  · exact h
  · exact h.withStore (by decide)

/-- The files of a placed workspace are at paths. -/
theorem Placed.files (h : w.Placed) : w.files.WellNamed := by
  intro p hp
  obtain ⟨entry, hentry, rfl⟩ := List.mem_map.mp hp
  obtain ⟨⟨place, node⟩, hplace, hkept⟩ := List.mem_filterMap.mp hentry
  obtain ⟨-, hkept⟩ := Option.ite_none_right_eq_some.mp hkept
  obtain ⟨e, -, rfl⟩ := Option.map_eq_some_iff.mp hkept
  exact (h.tree _ hplace).1.mono (List.drop_subset _ _)

/-- Recording a file leaves a workspace placed. -/
theorem Placed.stage (h : w.Placed) (path : Text) : (w.stage path).Placed := by
  unfold Workspace.stage
  dsimp only
  split
  · exact h.update fun s hs => hs.withIndex (hs.2.insert (Files.isPath_plainNames path) _)
  · exact h

/-- Taking a file out of the index leaves a workspace placed. -/
theorem Placed.unstage (h : w.Placed) (path : Text) : (w.unstage path).Placed :=
  h.update fun _ hs => hs.withIndex (hs.2.filter _)

/-- Recording all files leaves a workspace placed. -/
theorem Placed.stageAll (h : w.Placed) : w.stageAll.Placed :=
  h.update fun _ hs => hs.withIndex (h.files.filter _)

/-- A node that an entry is checked out as is no store. -/
theorem nodeOf_wellNamed (e : Entry) : (nodeOf e).WellNamed := by
  unfold nodeOf
  split <;> trivial

/-- Putting a file on disk, with the directories above it, leaves a workspace placed. -/
theorem Placed.putFile (h : w.Placed) {p : Path} (hp : IsPath p) (e : Entry) :
    (w.putFile p e).Placed := by
  have hplace : IsPath (w.workdir ++ p) := h.workdir.append hp
  refine ⟨h.workdir, Tree.Placed.insert (Tree.Placed.remove ?_ _) hplace (nodeOf_wellNamed e)⟩
  -- what stands in the way of a directory above the file gives way to it
  refine List.foldlRecOn _ _ h.tree fun t ht parent hparent => ?_
  obtain ⟨n, -, rfl⟩ := List.mem_map.mp hparent
  have habove : IsPath (w.workdir ++ p.take n) := h.workdir.append (hp.mono (List.take_subset _ _))
  split
  · split
    · exact ht
    · exact (ht.remove _).insert habove trivial
  · exact ht.insert habove trivial

/-- Checking out a branch leaves a workspace placed. -/
theorem Placed.checkout (h : w.Placed) (name : Text) : (w.checkout name).Placed := by
  unfold Workspace.checkout
  split
  · exact h
  · rename_i s hstore
    have hs : s.WellNamed := h.store hstore
    have hmoved : (s.setHead name).WellNamed := hs
    dsimp only
    split
    · exact h.withStore hmoved
    · rename_i c hhead
      have hcommit : c.snapshot.WellNamed := hmoved.headCommit? hhead
      refine Placed.withStore ?_ (hmoved.withIndex hcommit)
      -- the files of the commit are put on disk after those that it does not have are removed
      refine List.foldrRecOn _ _ ⟨h.workdir, ?_⟩ fun v hv e he =>
        hv.putFile (hcommit e.1 (List.mem_map_of_mem he)) e.2
      refine List.foldlRecOn _ _ h.tree fun t ht p _ => ?_
      split
      · exact ht.remove _
      · exact ht

/-- **A command leaves a placed workspace placed.** -/
theorem placed_after (h : w.Placed) (command : Command) : (w.after command).Placed := by
  cases command with
  | init => exact h.init
  | write path content => exact ⟨h.workdir, h.tree.write h.workdir path content⟩
  | delete path => exact ⟨h.workdir, h.tree.delete w.workdir path⟩
  | rename path goal => exact ⟨h.workdir, h.tree.rename h.workdir path goal⟩
  | makeDirectory path =>
    exact ⟨h.workdir, h.tree.makeDirectories h.workdir (Files.isPath_plainNames path)⟩
  | link path goal => exact ⟨h.workdir, h.tree.link h.workdir path goal⟩
  | setExecutable path executable =>
    exact ⟨h.workdir, h.tree.setExecutable h.workdir path executable⟩
  | stage path => exact h.stage path
  | unstage path => exact h.unstage path
  | stageAll => exact h.stageAll
  | commit => exact h.update fun _ hs => hs.commit
  | branch name => exact h.update fun _ hs => hs.branch name
  | tag name described => exact h.update fun _ hs => hs.tag name described
  | setHead name => exact h.update fun _ hs => hs
  | checkout name => exact h.checkout name

/-- **Whatever a user does**, the repositories of a placed workspace stay well named: induction on the
commands. -/
theorem wellNamed_run (h : w.Placed) (commands : List Command) :
    (w.run commands).tree.WellNamed := by
  induction commands generalizing w with
  | nil => exact h.tree.wellNamed
  | cons command rest ih => exact ih (placed_after h command)

/-- **What changed after any commands** is listed faithfully exactly if no path of it holds a backslash. -/
theorem faithful_run_iff (h : w.Placed) (commands : List Command) {cwd : Path} {path revision : Text}
    {files : List Text}
    (hfiles : changedFiles (w.run commands).tree cwd path revision = .ok files) :
    ∃ l b c paths, discover (w.run commands).tree cwd path = .ok l ∧
      l.store.resolveSnapshot revision = .ok b ∧ l.store.headCommit? = some c ∧
      paths = changedPaths (w.run commands).tree l.workdir b c.snapshot l.store.index ∧
      (Faithful files paths ↔ ∀ p ∈ paths, '\\' ∉ Files.relative p) := by
  obtain ⟨l, b, c, hfound, hbase, hhead⟩ := exists_of_changedFiles hfiles
  obtain ⟨-, hinj⟩ := relative_injOn_changedPaths (wellNamed_run h commands) hfound hbase hhead
  obtain ⟨hnodup, hmem⟩ := names_of_changedFiles hfound hbase hhead hfiles
  exact ⟨l, b, c, _, hfound, hbase, hhead, rfl,
    (faithful_iff hnodup finite_changedPaths hinj hmem).2⟩

end Workspace

end Repository

end ChangeGate
