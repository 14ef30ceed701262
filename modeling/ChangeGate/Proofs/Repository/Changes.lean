import ChangeGate.Proofs.Repository.Discovery
import ChangeGate.Proofs.Text.Order
import ChangeGate.Repository.Changes
import Mathlib.Data.List.Basic

/-! # Which files are listed as changed

A path has **changed** since a base snapshot when the base differs there from the commit of `HEAD` or
from the index, or when the index has an entry there that the working directory does not **hold**. A
comparison tells of a path exactly if its two sides differ there (**`tells_diff`**,
**`tells_diffDisk`**), so the files that are listed are those that have changed
(**`changedFiles_lists`**). -/

namespace ChangeGate.Repository

open Files (Tree)

/-! ## (1) The working directory -/

/-- **A place of the working directory holds an entry**: a file with its content that may be executed
or not as the entry says, or a link to its target. -/
inductive Holds (t : Tree) (place : Path) : Entry → Prop where
  /-- A file stands there. -/
  | file {content : Text.Bytes} {executable : Bool} :
      t.node? place = some (.file content executable) →
      Holds t place ⟨if executable then .executable else .regular, content⟩
  /-- A link stands there. -/
  | link {target : Text} :
      t.node? place = some (.link target) → Holds t place ⟨.link, Text.encode target⟩

/-- What is recorded of a place is the entry that it holds. -/
theorem onDisk_eq_some {t : Tree} {place : Path} {e : Entry} :
    onDisk t place = some e ↔ Holds t place e := by
  constructor
  · intro h
    obtain ⟨node, hnode, hentry⟩ := Option.bind_eq_some_iff.mp h
    cases node with
    | file content executable =>
      obtain rfl := Option.some.inj hentry
      exact .file hnode
    | link target =>
      obtain rfl := Option.some.inj hentry
      exact .link hnode
    | directory => exact absurd hentry (by simp [entryOf])
    | store content => exact absurd hentry (by simp [entryOf])
  · intro h
    cases h with
    | file hnode => rw [onDisk, hnode, Option.bind_some, entryOf]
    | link hnode => rw [onDisk, hnode, Option.bind_some, entryOf]

/-! ## (2) Comparisons -/

variable {s t : Snapshot} {p q : Path}

/-- The paths of a snapshot are those with an entry. -/
theorem mem_paths : p ∈ s.paths ↔ s.entry? p ≠ none := by
  rw [Snapshot.paths, Snapshot.entry?, List.mem_map, Ne, List.lookup_eq_none_iff]
  constructor
  · rintro ⟨e, he, rfl⟩ hnone
    simpa using hnone e he
  · intro h
    obtain ⟨e, hfound⟩ := Classical.not_forall.mp h
    obtain ⟨he, hpath⟩ := Classical.not_imp.mp hfound
    have hsame : p = e.1 := by simpa using hpath
    exact ⟨e, he, hsame.symm⟩

/-- Two entries for a path are told of, as about that path, exactly if they are not the same. -/
theorem exists_mem_between {e f : Option Entry} :
    (∃ d ∈ Delta.between p e f, d.path? = some q) ↔ q = p ∧ e ≠ f := by
  cases e with
  | none => cases f <;> simp [Delta.between, Delta.path?, eq_comm]
  | some e =>
    cases f with
    | none => simp [Delta.between, Delta.path?, eq_comm]
    | some f =>
      rw [Delta.between]
      by_cases hef : e = f
      · simp [hef]
      · rw [if_neg hef]
        -- a change of kind takes two deltas, and both are about the path
        split <;> simp [Delta.path?, hef, eq_comm]

/-- **Deltas tell of paths** when each of these, and no other path, is what some delta is about. -/
def Tells (ds : List Delta) (differs : Path → Prop) : Prop :=
  ∀ p, (∃ d ∈ ds, d.path? = some p) ↔ differs p

/-- **A comparison of two snapshots tells of the paths at which they differ.** -/
theorem tells_diff : Tells (s.diff t) fun p => s.entry? p ≠ t.entry? p := by
  intro p
  constructor
  · rintro ⟨d, hd, hpath⟩
    obtain ⟨q, -, hd⟩ := List.mem_flatMap.mp hd
    obtain ⟨rfl, hne⟩ := exists_mem_between.mp ⟨d, hd, hpath⟩
    exact hne
  · intro hne
    obtain ⟨d, hd, hpath⟩ := exists_mem_between.mpr ⟨rfl, hne⟩
    refine ⟨d, List.mem_flatMap.mpr ⟨p, ?_, hd⟩, hpath⟩
    rw [List.mem_append, List.mem_filter, mem_paths, mem_paths]
    cases hs : s.entry? p with
    | some e => exact .inl (by simp)
    | none =>
      have ht : t.entry? p ≠ none := fun ht => hne (hs.trans ht.symm)
      exact .inr ⟨ht, rfl⟩

/-- **A comparison of the index with the working directory** tells of the paths of the index whose
entries are not held there. -/
theorem tells_diffDisk {index : Snapshot} {tree : Tree} {workdir : Path} :
    Tells (index.diffDisk tree workdir) fun p =>
      ∃ e, index.entry? p = some e ∧ ¬ Holds tree (workdir ++ p) e := by
  intro p
  constructor
  · rintro ⟨d, hd, hpath⟩
    obtain ⟨q, hq, hd⟩ := List.mem_flatMap.mp hd
    obtain ⟨rfl, hne⟩ := exists_mem_between.mp ⟨d, hd, hpath⟩
    obtain ⟨e, he⟩ := Option.ne_none_iff_exists'.mp (mem_paths.mp hq)
    refine ⟨e, he, fun hholds => hne ?_⟩
    rw [he, onDisk_eq_some.mpr hholds]
  · rintro ⟨e, he, hholds⟩
    have hne : index.entry? p ≠ onDisk tree (workdir ++ p) := by
      rw [he]
      exact fun hsame => hholds (onDisk_eq_some.mp hsame.symm)
    obtain ⟨d, hd, hpath⟩ := exists_mem_between.mpr ⟨rfl, hne⟩
    refine ⟨d, List.mem_flatMap.mpr ⟨p, mem_paths.mpr ?_, hd⟩, hpath⟩
    rw [he]
    simp

/-- The names that are listed for deltas are those of the paths that they tell of. -/
theorem Tells.mem_listedNames {ds : List Delta} {differs : Path → Prop} (h : Tells ds differs)
    {name : Text} : name ∈ listedNames ds ↔ ∃ p, differs p ∧ name = listedName p := by
  rw [listedNames, List.mem_filterMap]
  constructor
  · rintro ⟨d, hd, hname⟩
    obtain ⟨p, hp, rfl⟩ := Option.map_eq_some_iff.mp hname
    exact ⟨p, (h p).mp ⟨d, hd, hp⟩, rfl⟩
  · rintro ⟨p, hp, rfl⟩
    obtain ⟨d, hd, hpath⟩ := (h p).mpr hp
    exact ⟨d, hd, by rw [hpath, Option.map_some]⟩

/-! ## (3) Changed paths -/

/-- **A path has changed** since a base snapshot. -/
inductive Changed (tree : Tree) (workdir : Path) (base head index : Snapshot) (p : Path) : Prop where
  /-- The commit of `HEAD` has something else there. -/
  | committed : base.entry? p ≠ head.entry? p → Changed tree workdir base head index p
  /-- The index has something else there. -/
  | staged : base.entry? p ≠ index.entry? p → Changed tree workdir base head index p
  /-- The index has an entry there that the working directory does not hold. -/
  | unstaged {e : Entry} : index.entry? p = some e → ¬ Holds tree (workdir ++ p) e →
      Changed tree workdir base head index p

variable {tree : Tree} {workdir : Path} {base head index : Snapshot}

/-- Whether a path has changed is read off the snapshots and the working directory. -/
theorem changed_iff : Changed tree workdir base head index p ↔
    base.entry? p ≠ head.entry? p ∨ base.entry? p ≠ index.entry? p ∨
      index.entry? p ≠ none ∧ index.entry? p ≠ onDisk tree (workdir ++ p) := by
  constructor
  · intro h
    cases h with
    | committed hne => exact .inl hne
    | staged hne => exact .inr (.inl hne)
    | unstaged he hholds =>
      rw [he]
      exact .inr (.inr ⟨by simp, fun hsame => hholds (onDisk_eq_some.mp hsame.symm)⟩)
  · rintro (hne | hne | ⟨hentry, hne⟩)
    · exact .committed hne
    · exact .staged hne
    · obtain ⟨e, he⟩ := Option.ne_none_iff_exists'.mp hentry
      refine .unstaged he fun hholds => hne ?_
      rw [he, onDisk_eq_some.mpr hholds]

instance : Decidable (Changed tree workdir base head index p) :=
  decidable_of_iff' _ changed_iff

/-- The names of three comparisons, however these are told, are those of the changed paths. -/
theorem mem_comparisons {committed staged unstaged : List Delta}
    (hcommitted : Tells committed fun p => base.entry? p ≠ head.entry? p)
    (hstaged : Tells staged fun p => base.entry? p ≠ index.entry? p)
    (hunstaged : Tells unstaged fun p =>
      ∃ e, index.entry? p = some e ∧ ¬ Holds tree (workdir ++ p) e) {name : Text} :
    name ∈ listedNames committed ++ listedNames staged ++ listedNames unstaged ↔
      ∃ p, Changed tree workdir base head index p ∧ name = listedName p := by
  rw [List.mem_append, List.mem_append, hcommitted.mem_listedNames, hstaged.mem_listedNames,
    hunstaged.mem_listedNames]
  constructor
  · rintro ((⟨p, hne, rfl⟩ | ⟨p, hne, rfl⟩) | ⟨p, ⟨e, he, hholds⟩, rfl⟩)
    · exact ⟨p, .committed hne, rfl⟩
    · exact ⟨p, .staged hne, rfl⟩
    · exact ⟨p, .unstaged he hholds, rfl⟩
  · rintro ⟨p, hchanged, rfl⟩
    cases hchanged with
    | committed hne => exact .inl (.inl ⟨p, hne, rfl⟩)
    | staged hne => exact .inl (.inr ⟨p, hne, rfl⟩)
    | unstaged he hholds => exact .inr ⟨p, ⟨_, he, hholds⟩, rfl⟩

/-- **No net change is missed**: a path of the base or of the index has changed if the working
directory has not what the base has there, in whichever steps that came about. -/
theorem changed_of_net (hknown : base.entry? p ≠ none ∨ index.entry? p ≠ none)
    (hnet : onDisk tree (workdir ++ p) ≠ base.entry? p) :
    Changed tree workdir base head index p := by
  by_cases hstaged : base.entry? p = index.entry? p
  · -- the index has what the base has, so the working directory has not what the index has
    rw [hstaged, or_self] at hknown
    obtain ⟨e, he⟩ := Option.ne_none_iff_exists'.mp hknown
    refine .unstaged he fun hholds => hnet ?_
    rw [onDisk_eq_some.mpr hholds, hstaged, he]
  · exact .staged hstaged

/-- A path that is in none of the snapshots has not changed, whatever stands there. -/
theorem not_changed_of_unknown (hbase : base.entry? p = none) (hhead : head.entry? p = none)
    (hindex : index.entry? p = none) : ¬ Changed tree workdir base head index p := by
  intro hchanged
  cases hchanged with
  | committed hne => exact hne (hbase.trans hhead.symm)
  | staged hne => exact hne (hbase.trans hindex.symm)
  | unstaged he _ =>
    rw [hindex] at he
    exact absurd he (by simp)

/-! ## (4) The list -/

variable {cwd : Path} {path revision : Text} {l : Located} {b : Snapshot} {c : Commit}

/-- In a repository with a commit at `HEAD`, the files changed since a snapshot are those of the three
comparisons. -/
theorem changedFiles_eq (hfound : discover tree cwd path = .ok l)
    (hbase : l.store.resolveSnapshot revision = .ok b) (hhead : l.store.headCommit? = some c) :
    changedFiles tree cwd path revision = .ok (Text.ascending
      (listedNames (b.diff c.snapshot) ++ listedNames (b.diff l.store.index) ++
        listedNames (l.store.index.diffDisk tree l.workdir))) := by
  rw [changedFiles, hfound]
  simp only [hbase, hhead]

/-- **The files that are listed are those that have changed.** They are given by the names of their
paths with slashes only, in strictly ascending order. The directory that the repository was found from
makes no difference. No net change of a path of the base or of the index is missed, and a path that is
in none of the snapshots adds nothing to the list. -/
theorem changedFiles_lists (hfound : discover tree cwd path = .ok l)
    (hbase : l.store.resolveSnapshot revision = .ok b) (hhead : l.store.headCommit? = some c) :
    ∃ files, changedFiles tree cwd path revision = .ok files ∧
      files.Pairwise (fun s t => Text.before s t = true) ∧ files.Nodup ∧
      (∀ name, name ∈ files ↔
        ∃ p, Changed tree l.workdir b c.snapshot l.store.index p ∧ name = listedName p) ∧
      (∀ cwd' path' l', discover tree cwd' path' = .ok l' → l'.place = l.place →
        changedFiles tree cwd' path' revision = .ok files) ∧
      (∀ p, b.entry? p ≠ none ∨ l.store.index.entry? p ≠ none →
        onDisk tree (l.workdir ++ p) ≠ b.entry? p → listedName p ∈ files) ∧
      ∀ p, b.entry? p = none → c.snapshot.entry? p = none → l.store.index.entry? p = none →
        listedName p ∈ files →
        ∃ q, q ≠ p ∧ Changed tree l.workdir b c.snapshot l.store.index q ∧
          listedName q = listedName p := by
  have hmem : ∀ name, name ∈ Text.ascending
      (listedNames (b.diff c.snapshot) ++ listedNames (b.diff l.store.index) ++
        listedNames (l.store.index.diffDisk tree l.workdir)) ↔
      ∃ p, Changed tree l.workdir b c.snapshot l.store.index p ∧ name = listedName p := by
    intro name
    rw [Text.mem_ascending, mem_comparisons tells_diff tells_diff tells_diffDisk]
  refine ⟨_, changedFiles_eq hfound hbase hhead, Text.pairwise_ascending _, Text.nodup_ascending _,
    hmem, ?_, ?_, ?_⟩
  · intro cwd' path' l' hfound' hplace
    obtain rfl := discover_unique hfound hfound' hplace
    exact changedFiles_eq hfound' hbase hhead
  · intro p hknown hnet
    exact (hmem _).mpr ⟨p, changed_of_net hknown hnet, rfl⟩
  · intro p hnobase hnohead hnoindex hlisted
    obtain ⟨q, hchanged, hname⟩ := (hmem _).mp hlisted
    refine ⟨q, ?_, hchanged, hname.symm⟩
    rintro rfl
    exact not_changed_of_unknown hnobase hnohead hnoindex hchanged

/-- What a tag `v1` keeps. -/
def taggedFiles : Snapshot :=
  [(["a".toList], ⟨.regular, [1]⟩), (["b".toList], ⟨.regular, [2]⟩),
    (["d".toList, "c\\e".toList], ⟨.executable, [3]⟩), (["gone".toList], ⟨.link, [4]⟩)]

/-- The commit behind it, which changes `a`. -/
def laterCommit : Commit :=
  ⟨[(["a".toList], ⟨.regular, [5]⟩), (["b".toList], ⟨.regular, [2]⟩),
    (["d".toList, "c\\e".toList], ⟨.executable, [3]⟩), (["gone".toList], ⟨.link, [4]⟩)], [0]⟩

/-- A repository with both, whose index has `a` as it was, empties `b` and drops `gone`. -/
def reworkedStore : Store where
  commits := [⟨taggedFiles, []⟩, laterCommit]
  references := [("refs/heads/main".toList, .commit 1), ("refs/tags/v1".toList, .commit 0)]
  head := "refs/heads/main".toList
  index := [(["a".toList], ⟨.regular, [1]⟩), (["b".toList], ⟨.regular, []⟩),
    (["d".toList, "c\\e".toList], ⟨.executable, [3]⟩)]

/-- The files of that repository in the directory `w`. A file inside of `d` may not be executed any
more, and `new` is not recorded. The directory `v` elsewhere names the same store. -/
def reworkedTree : Tree :=
  ⟨[(["w".toList], .directory), (["w".toList, storeName], .store reworkedStore),
    (["w".toList, "a".toList], .file [1] false), (["w".toList, "b".toList], .file [] false),
    (["w".toList, "d".toList], .directory),
    (["w".toList, "d".toList, "c\\e".toList], .file [3] false),
    (["w".toList, "new".toList], .file [6] false), (["v".toList], .directory),
    (["v".toList, storeName], .file (Text.encode "gitdir: ../w/.git\n".toList) false)]⟩

/-- Changes of every sort since the tag are listed, from inside the working directory and from
elsewhere alike. -/
theorem changedFiles_lists_reworked :
    discover reworkedTree [] "/w/d".toList = .ok ⟨["w".toList, storeName], reworkedStore⟩ ∧
    reworkedStore.resolveSnapshot "v1".toList = .ok taggedFiles ∧
    reworkedStore.headCommit? = some laterCommit ∧
    ∃ files, changedFiles reworkedTree [] "/w/d".toList "v1".toList = .ok files ∧
      changedFiles reworkedTree ["v".toList] ".".toList "v1".toList = .ok files ∧
      "a".toList ∈ files ∧ "b".toList ∈ files ∧ "d/c/e".toList ∈ files ∧ "gone".toList ∈ files := by
  have hfound : discover reworkedTree [] "/w/d".toList =
      .ok ⟨["w".toList, storeName], reworkedStore⟩ := by decide +kernel
  have helsewhere : discover reworkedTree ["v".toList] ".".toList =
      .ok ⟨["w".toList, storeName], reworkedStore⟩ := by decide +kernel
  have hbase : reworkedStore.resolveSnapshot "v1".toList = .ok taggedFiles := by decide +kernel
  have hhead : reworkedStore.headCommit? = some laterCommit := by decide
  obtain ⟨files, hfiles, -, -, hmem, hroot, hnet, -⟩ := changedFiles_lists hfound hbase hhead
  refine ⟨hfound, hbase, hhead, files, hfiles, hroot _ _ _ helsewhere rfl, ?_, ?_, ?_, ?_⟩
  · -- it was committed, and the working directory has it as it was
    exact (hmem _).mpr ⟨["a".toList], .committed (by decide), by decide⟩
  · exact (hmem _).mpr ⟨["b".toList], .staged (by decide), by decide⟩
  · -- only the disk tells that it may not be executed any more
    exact hnet ["d".toList, "c\\e".toList] (by decide) (by decide)
  · exact (hmem _).mpr ⟨["gone".toList], .staged (by decide), by decide⟩

end ChangeGate.Repository
