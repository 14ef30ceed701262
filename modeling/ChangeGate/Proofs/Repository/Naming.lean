import ChangeGate.Proofs.Repository.Changes
import ChangeGate.Proofs.Repository.WellNamed
import Mathlib.Data.Set.Card

/-! # The names of changed files

A list of changed files is **faithful** to the paths that have changed when each of its names is the
text of one of them and there are as many names as paths. But names are listed with slashes in the place
of backslashes, and a part of a path may hold a backslash. So a list is faithful exactly if no path that
has changed holds one (**`faithful_iff`**), and otherwise it names files that are not there, or one name
stands for several paths. -/

namespace ChangeGate.Repository

open Files (IsPath Tree)

/-! ## (1) Slashes -/

/-- No name that is listed holds a backslash. -/
theorem backslash_not_mem_withSlashes (t : Text) : '\\' ∉ withSlashes t := by
  intro hmem
  obtain ⟨c, -, hc⟩ := List.mem_map.mp hmem
  split at hc
  · exact absurd hc (by decide)
  · rename_i hne
    exact hne hc

/-- A text is listed as it is exactly if it holds no backslash. -/
theorem withSlashes_eq_self_iff {t : Text} : withSlashes t = t ↔ '\\' ∉ t := by
  constructor
  · intro h
    rw [← h]
    exact backslash_not_mem_withSlashes t
  · intro h
    refine (List.map_congr_left fun c hc => if_neg ?_).trans (List.map_id' t)
    rintro rfl
    exact h hc

/-! ## (2) Faithful lists -/

/-- The paths that have changed since a base snapshot. -/
def changedPaths (tree : Tree) (workdir : Path) (base head index : Snapshot) : Set Path :=
  {p | Changed tree workdir base head index p}

/-- **A list of files is faithful to paths**: each name is the text of one of them, and there are as many
names as paths. -/
structure Faithful (files : List Text) (paths : Set Path) : Prop where
  /-- The names are those of the paths, as they are. -/
  own : ∀ name ∈ files, ∃ p ∈ paths, name = Files.relative p
  /-- No path is left out, and no two paths share a name. -/
  length_eq : files.length = paths.ncard

variable {files : List Text} {paths : Set Path} {base head index : Snapshot} {tree : Tree}
  {workdir : Path}

/-- The members of a list without repetitions are as many as the list is long. -/
theorem ncard_members {α : Type} [DecidableEq α] {xs : List α} (h : xs.Nodup) :
    {x | x ∈ xs}.ncard = xs.length := by
  rw [← List.coe_toFinset, Set.ncard_coe_finset, List.toFinset_card_of_nodup h]

/-- **A list that names paths with slashes only** is as long as there are paths exactly if no two of them
are named alike, and it is faithful exactly if none of them holds a backslash. -/
theorem faithful_iff (hnodup : files.Nodup) (hfinite : paths.Finite)
    (hinj : Set.InjOn Files.relative paths)
    (hmem : ∀ name, name ∈ files ↔ ∃ p ∈ paths, name = listedName p) :
    (files.length = paths.ncard ↔ Set.InjOn listedName paths) ∧
      (Faithful files paths ↔ ∀ p ∈ paths, '\\' ∉ Files.relative p) := by
  have hnames : {name | name ∈ files} = listedName '' paths := by
    ext name
    refine (hmem name).trans ⟨?_, ?_⟩
    · rintro ⟨p, hp, rfl⟩
      exact ⟨p, hp, rfl⟩
    · rintro ⟨p, hp, rfl⟩
      exact ⟨p, hp, rfl⟩
  have hlength : files.length = paths.ncard ↔ Set.InjOn listedName paths := by
    rw [← ncard_members hnodup, hnames]
    exact Set.ncard_image_iff hfinite
  refine ⟨hlength, ?_, ?_⟩
  · intro hfaithful p hp
    -- as many names as paths, all of them texts of paths: so the text of each path is listed
    have hsubset : {name | name ∈ files} ⊆ Files.relative '' paths := by
      intro name hname
      obtain ⟨q, hq, rfl⟩ := hfaithful.own name hname
      exact ⟨q, hq, rfl⟩
    have hcount : (Files.relative '' paths).ncard ≤ {name | name ∈ files}.ncard := by
      rw [hinj.ncard_image, ncard_members hnodup, hfaithful.length_eq]
    have hall : {name | name ∈ files} = Files.relative '' paths :=
      Set.eq_of_subset_of_ncard_le hsubset hcount (hfinite.image _)
    have hlisted : Files.relative p ∈ {name | name ∈ files} := by
      rw [hall]
      exact ⟨p, hp, rfl⟩
    obtain ⟨q, -, hname⟩ := (hmem _).mp hlisted
    rw [hname]
    exact backslash_not_mem_withSlashes _
  · intro hslashes
    have hown : ∀ p ∈ paths, listedName p = Files.relative p := fun p hp =>
      withSlashes_eq_self_iff.mpr (hslashes p hp)
    refine ⟨?_, hlength.mpr fun p hp q hq hname => hinj hp hq ?_⟩
    · intro name hname
      obtain ⟨p, hp, rfl⟩ := (hmem name).mp hname
      exact ⟨p, hp, hown p hp⟩
    · rw [← hown p hp, ← hown q hq, hname]

/-- A path that has changed is one of the base, of `HEAD` or of the index. -/
theorem mem_paths_of_changed {p : Path} (h : p ∈ changedPaths tree workdir base head index) :
    p ∈ base.paths ∨ p ∈ head.paths ∨ p ∈ index.paths := by
  by_contra hnone
  rw [mem_paths, mem_paths, mem_paths] at hnone
  push Not at hnone
  exact not_changed_of_unknown hnone.1 hnone.2.1 hnone.2.2 h

/-- What has changed between well-named snapshots are paths. -/
theorem isPath_of_changed (hbase : base.WellNamed) (hhead : head.WellNamed) (hindex : index.WellNamed)
    {p : Path} (h : p ∈ changedPaths tree workdir base head index) : IsPath p := by
  rcases mem_paths_of_changed h with hmem | hmem | hmem
  · exact hbase p hmem
  · exact hhead p hmem
  · exact hindex p hmem

/-- Finitely many paths have changed. -/
theorem finite_changedPaths : (changedPaths tree workdir base head index).Finite := by
  refine (List.finite_toSet (base.paths ++ (head.paths ++ index.paths))).subset fun p hp => ?_
  simpa using mem_paths_of_changed hp

/-! ## (3) The list of changed files -/

variable {cwd : Path} {path revision : Text} {l : Located} {b : Snapshot} {c : Commit}

/-- A list of changed files comes from a repository with a base and a commit at `HEAD`. -/
theorem exists_of_changedFiles (h : changedFiles tree cwd path revision = .ok files) :
    ∃ l b c, discover tree cwd path = .ok l ∧ l.store.resolveSnapshot revision = .ok b ∧
      l.store.headCommit? = some c := by
  unfold changedFiles at h
  split at h
  · exact absurd h (by simp)
  · rename_i l hfound
    split at h
    · exact absurd h (by simp)
    · rename_i b hbase
      split at h
      · exact absurd h (by simp)
      · rename_i c hhead
        exact ⟨l, b, c, hfound, hbase, hhead⟩

/-- The names that are listed are those of the paths that have changed, each once. -/
theorem names_of_changedFiles (hfound : discover tree cwd path = .ok l)
    (hbase : l.store.resolveSnapshot revision = .ok b) (hhead : l.store.headCommit? = some c)
    (h : changedFiles tree cwd path revision = .ok files) :
    files.Nodup ∧ ∀ name, name ∈ files ↔
      ∃ p ∈ changedPaths tree l.workdir b c.snapshot l.store.index, name = listedName p := by
  rw [changedFiles_eq hfound hbase hhead] at h
  obtain rfl := Except.ok.inj h
  refine ⟨Text.nodup_ascending _, fun name => ?_⟩
  rw [Text.mem_ascending]
  exact mem_comparisons tells_diff tells_diff tells_diffDisk

/-- Where every store of the tree is well named, what has changed are paths, and no two of them share a
text. -/
theorem relative_injOn_changedPaths (hnames : tree.WellNamed) (hfound : discover tree cwd path = .ok l)
    (hbase : l.store.resolveSnapshot revision = .ok b) (hhead : l.store.headCommit? = some c) :
    (∀ p ∈ changedPaths tree l.workdir b c.snapshot l.store.index, IsPath p) ∧
      Set.InjOn Files.relative (changedPaths tree l.workdir b c.snapshot l.store.index) := by
  have hstore : l.store.WellNamed := hnames.store (discover_node hfound)
  have hpath : ∀ p ∈ changedPaths tree l.workdir b c.snapshot l.store.index, IsPath p := fun p =>
    isPath_of_changed (resolveSnapshot_wellNamed hstore hbase) (hstore.headCommit? hhead) hstore.2
  exact ⟨hpath, fun p hp q hq htext => Files.relative_inj (hpath p hp) (hpath q hq) htext⟩

/-- **How changed files are named.** Where every store of the tree is well named, a list of changed files
names the paths that have changed, each of which is one of the base, of `HEAD` or of the index and has a
text of its own. It gives their texts with slashes in the place of backslashes, so the text of a path is
listed as it is exactly if it holds none. There are as many names as paths exactly if no two paths are
named alike, and the list is faithful to the paths exactly if none of them holds a backslash. -/
theorem changedFiles_faithful_iff (hnames : tree.WellNamed)
    (hfiles : changedFiles tree cwd path revision = .ok files) :
    ∃ (l : Located) (b : Snapshot) (c : Commit) (paths : Set Path),
      discover tree cwd path = .ok l ∧ l.store.resolveSnapshot revision = .ok b ∧
      l.store.headCommit? = some c ∧
      paths = changedPaths tree l.workdir b c.snapshot l.store.index ∧
      (∀ p ∈ paths, IsPath p ∧ (p ∈ b.paths ∨ p ∈ c.snapshot.paths ∨ p ∈ l.store.index.paths)) ∧
      Set.InjOn Files.relative paths ∧
      (∀ name, name ∈ files ↔ ∃ p ∈ paths, name = withSlashes (Files.relative p)) ∧
      (∀ p ∈ paths, Files.relative p ∈ files ↔ '\\' ∉ Files.relative p) ∧
      (files.length = paths.ncard ↔ Set.InjOn listedName paths) ∧
      (Faithful files paths ↔ ∀ p ∈ paths, '\\' ∉ Files.relative p) := by
  obtain ⟨l, b, c, hfound, hbase, hhead⟩ := exists_of_changedFiles hfiles
  obtain ⟨hpath, hinj⟩ := relative_injOn_changedPaths hnames hfound hbase hhead
  obtain ⟨hnodup, hmem⟩ := names_of_changedFiles hfound hbase hhead hfiles
  obtain ⟨hlength, hfaithful⟩ := faithful_iff hnodup finite_changedPaths hinj hmem
  refine ⟨l, b, c, _, hfound, hbase, hhead, rfl, fun p hp => ⟨hpath p hp, mem_paths_of_changed hp⟩,
    hinj, hmem, ?_, hlength, hfaithful⟩
  intro p hp
  constructor
  · intro hlisted
    obtain ⟨q, -, hname⟩ := (hmem _).mp hlisted
    rw [hname]
    exact backslash_not_mem_withSlashes _
  · intro hslashes
    exact (hmem _).mpr ⟨p, hp, (withSlashes_eq_self_iff.mpr hslashes).symm⟩

/-- What a tag `v1` keeps: files with backslashes in their names, and one without. -/
def backslashFiles : Snapshot :=
  [(["a\\b".toList], ⟨.regular, [1]⟩), (["c\\d".toList], ⟨.regular, [1]⟩),
    (["c".toList, "d".toList], ⟨.regular, [1]⟩), (["e".toList, "f".toList], ⟨.regular, [1]⟩)]

/-- The commit behind it, which changes all of them. -/
def backslashCommit : Commit :=
  ⟨[(["a\\b".toList], ⟨.regular, [2]⟩), (["c\\d".toList], ⟨.regular, [2]⟩),
    (["c".toList, "d".toList], ⟨.regular, [2]⟩), (["e".toList, "f".toList], ⟨.regular, [2]⟩)], [0]⟩

/-- A repository with both. -/
def backslashStore : Store where
  commits := [⟨backslashFiles, []⟩, backslashCommit]
  references := [("refs/heads/main".toList, .commit 1), ("refs/tags/v1".toList, .commit 0)]
  head := "refs/heads/main".toList
  index := backslashCommit.snapshot

/-- The files of that repository as they were committed, up to `e/f`, which was edited since. -/
def backslashTree : Tree :=
  ⟨[(["w".toList], .directory), (["w".toList, storeName], .store backslashStore),
    (["w".toList, "a\\b".toList], .file [2] false), (["w".toList, "c\\d".toList], .file [2] false),
    (["w".toList, "c".toList], .directory), (["w".toList, "c".toList, "d".toList], .file [2] false),
    (["w".toList, "e".toList], .directory),
    (["w".toList, "e".toList, "f".toList], .file [3] false)]⟩

/-- Since the last commit only a file without a backslash has changed, so the list is faithful. -/
theorem changedFiles_faithful_unstaged :
    backslashTree.WellNamed ∧
      changedFiles backslashTree [] "/w".toList "HEAD".toList = .ok ["e/f".toList] ∧
      Faithful ["e/f".toList] (changedPaths backslashTree ["w".toList] backslashCommit.snapshot
        backslashCommit.snapshot backslashStore.index) := by
  have hnames : backslashTree.WellNamed := by decide +kernel
  have hfiles : changedFiles backslashTree [] "/w".toList "HEAD".toList = .ok ["e/f".toList] := by
    decide +kernel
  obtain ⟨l, b, c, paths, hfound, hbase, hhead, rfl, -, -, hmem, -, -, hfaithful⟩ :=
    changedFiles_faithful_iff hnames hfiles
  have hplace : discover backslashTree [] "/w".toList =
      .ok ⟨["w".toList, storeName], backslashStore⟩ := by decide +kernel
  obtain rfl := Except.ok.inj (hplace.symm.trans hfound)
  have hcommit : backslashStore.resolveSnapshot "HEAD".toList = .ok backslashCommit.snapshot := by
    decide +kernel
  obtain rfl := Except.ok.inj (hcommit.symm.trans hbase)
  have hlast : backslashStore.headCommit? = some backslashCommit := by decide
  obtain rfl := Option.some.inj (hlast.symm.trans hhead)
  refine ⟨hnames, hfiles, hfaithful.mpr fun p hp => ?_⟩
  have hslashes : ∀ p ∈ backslashCommit.snapshot.paths,
      Changed backslashTree ["w".toList] backslashCommit.snapshot backslashCommit.snapshot
        backslashStore.index p → '\\' ∉ Files.relative p := by decide
  have hpath : p ∈ backslashCommit.snapshot.paths := by
    simpa [backslashStore] using mem_paths_of_changed hp
  exact hslashes p hpath hp

/-- Since the tag all of them have changed. The list names a file `a/b` that there never was, and two
files that have changed are both listed as `c/d`: three names stand for four files. -/
theorem changedFiles_not_faithful :
    discover backslashTree [] "/w".toList = .ok ⟨["w".toList, storeName], backslashStore⟩ ∧
      backslashStore.resolveSnapshot "v1".toList = .ok backslashFiles ∧
      backslashStore.headCommit? = some backslashCommit ∧
      ∃ files paths, changedFiles backslashTree [] "/w".toList "v1".toList = .ok files ∧
        paths = changedPaths backslashTree ["w".toList] backslashFiles backslashCommit.snapshot
          backslashStore.index ∧
        ("a/b".toList ∈ files ∧ ∀ p ∈ paths, "a/b".toList ≠ Files.relative p) ∧
        (files.length = 3 ∧ paths.ncard = 4) ∧ ¬ Faithful files paths := by
  have hpaths : changedPaths backslashTree ["w".toList] backslashFiles backslashCommit.snapshot
      backslashStore.index = {p | p ∈ backslashFiles.paths} := by
    have hsame : backslashCommit.snapshot.paths = backslashFiles.paths := by decide
    have hall : ∀ p ∈ backslashFiles.paths, Changed backslashTree ["w".toList] backslashFiles
        backslashCommit.snapshot backslashStore.index p := by decide
    ext p
    refine ⟨fun hp => ?_, hall p⟩
    simpa [backslashStore, hsame] using mem_paths_of_changed hp
  have hown : ∀ p ∈ backslashFiles.paths, "a/b".toList ≠ Files.relative p := by decide
  refine ⟨by decide +kernel, by decide +kernel, by decide,
    ["a/b".toList, "c/d".toList, "e/f".toList], {p | p ∈ backslashFiles.paths}, by decide +kernel,
    hpaths.symm, ⟨by simp, hown⟩, ⟨rfl, ncard_members (by decide)⟩, fun hfaithful => ?_⟩
  obtain ⟨p, hp, hname⟩ := hfaithful.own "a/b".toList (by simp)
  exact hown p hp hname

end ChangeGate.Repository
