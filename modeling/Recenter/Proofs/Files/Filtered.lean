import Recenter.Proofs.Files.Selected

/-! Selections as filters. Whether a file is taken can be told from its path: from its own name, and
from those of the directories between it and the root. So a walk takes from all files those whose
paths are taken, in the order that they come in (`sourceFiles_eq_filter`), although it never enters
a directory that is left out. What a selection gains or loses by more endings or more excluded names
is then a matter of filters on one list. -/

namespace Recenter.Files

open Entry

variable {t : FileTree} {s s' : Selection} {root p : Path} {entries : List (String × Entry)}
  {name : String} {names : List String} {selected : List Path}

/-- The names of the directories on the way from a root down to a file, without the root's own. -/
def Path.dirsBelow (root p : Path) : List String := (p.names.drop root.names.length).dropLast

theorem Path.dirsBelow_descend (root : Path) (names : List String) :
    root.dirsBelow (root.descend names) = names.dropLast := by
  simp [Path.dirsBelow, Path.descend]

theorem Path.name_descend (root : Path) (h : names.getLast? = some name) :
    (root.descend names).name = name := by
  simp [Path.name, Path.descend, h]

namespace Selection

/-- Whether a file below the root is taken, by its path. -/
def takes (s : Selection) (root p : Path) : Bool :=
  s.takesFile p.name && (root.dirsBelow p).all s.entersDir

def everything : Selection := ⟨[""], []⟩

theorem takesFile_everything (name : String) : everything.takesFile name = true := by
  simp [takesFile, everything]

end Selection

open Selection

/-- What is a source for some selection is a file to begin with, and its path is taken. -/
theorem isSource_iff :
    IsSource s (.dir entries) names ↔
      IsSource everything (.dir entries) names ∧ s.takes root (root.descend names) = true := by
  have htakes : ∀ {s : Selection} {name}, names.getLast? = some name →
      (s.takes root (root.descend names) = true ↔
        (∃ ending ∈ s.endings, ending.toList <:+ name.toList) ∧
          ∀ name ∈ names.dropLast, name ∉ s.excluded) := by
    intro s name hlast
    simp only [takes, Bool.and_eq_true, takesFile_iff, List.all_eq_true, entersDir_iff,
      Path.dirsBelow_descend, Path.name_descend root hlast]
  constructor
  · intro h
    obtain ⟨name, hlast, hended⟩ := h.wanted
    refine ⟨⟨h.isFile, ⟨name, hlast, takesFile_iff.1 (takesFile_everything name)⟩, ?_⟩,
      (htakes hlast).2 ⟨hended, h.entered⟩⟩
    exact fun _ _ => List.not_mem_nil
  · intro hx
    obtain ⟨h, ht⟩ := hx
    obtain ⟨name, hlast, -⟩ := h.wanted
    obtain ⟨hended, hentered⟩ := (htakes hlast).1 ht
    exact ⟨h.isFile, ⟨name, hlast, hended⟩, hentered⟩

/-- A walk takes from all files those whose paths are taken. -/
theorem sourcesBelow_eq_filter (s : Selection) (root : Path) (h : (dir entries).WellFormed) :
    sourcesBelow s root entries = (sourcesBelow everything root entries).filter (s.takes root) := by
  refine eq_of_pairwise_lt (pairwise_lt_sourcesBelow h) ((pairwise_lt_sourcesBelow h).filter _)
    fun p => ?_
  rw [List.mem_filter, mem_sourcesBelow_iff_isSource h, mem_sourcesBelow_iff_isSource h]
  constructor
  · rintro ⟨names, rfl, hs⟩
    obtain ⟨hall, ht⟩ := isSource_iff.1 hs
    exact ⟨⟨names, rfl, hall⟩, ht⟩
  · rintro ⟨⟨names, rfl, hall⟩, ht⟩
    exact ⟨names, rfl, isSource_iff.2 ⟨hall, ht⟩⟩

theorem sourceFiles_eq_filter (hw : t.top.WellFormed) (s : Selection) (root : Path) :
    sourceFiles t s root = List.filter (s.takes root) <$> sourceFiles t everything root := by
  cases he : t.entries root with
  | error e =>
    rw [sourceFiles, sourceFiles, he]
    rfl
  | ok entries =>
    obtain ⟨names, hplace⟩ := FileTree.entries_eq_ok_iff.1 he
    have hwell := hw.below (FileTree.find?_of_place hplace)
    rw [sourceFiles_eq he, sourceFiles_eq he, sourcesBelow_eq_filter s root hwell]
    rfl

/-- Where the paths that one selection takes are those that another one takes and that pass a
check, its walk is that of the other with this check as a filter. -/
theorem sourceFiles_filter (hw : t.top.WellFormed) {check : Path → Bool}
    (h : ∀ p, s'.takes root p = (s.takes root p && check p)) :
    sourceFiles t s' root = List.filter check <$> sourceFiles t s root := by
  rw [sourceFiles_eq_filter hw s', sourceFiles_eq_filter hw s]
  cases sourceFiles t everything root with
  | error e => rfl
  | ok all =>
    refine congrArg Except.ok ?_
    rw [List.filter_filter]
    refine List.filter_congr fun p _ => ?_
    rw [h, Bool.and_comm]

/-- More excluded names leave out the files that pass a directory of such a name. -/
theorem sourceFiles_exclude (hw : t.top.WellFormed) (endings excluded more : List String)
    (root : Path) :
    sourceFiles t ⟨endings, excluded ++ more⟩ root =
      List.filter (fun p => decide (∀ name ∈ root.dirsBelow p, name ∉ more)) <$>
        sourceFiles t ⟨endings, excluded⟩ root := by
  refine sourceFiles_filter hw fun p => ?_
  rw [Bool.eq_iff_iff]
  simp only [takes, takesFile, Bool.and_eq_true, List.all_eq_true, entersDir_iff,
    decide_eq_true_eq, List.mem_append, not_or, and_assoc, ← forall₂_and]

/-- Fewer endings keep the files with one of them. -/
theorem sourceFiles_endings (hw : t.top.WellFormed) {endings more : List String}
    (hsub : endings ⊆ more) (excluded : List String) (root : Path) :
    sourceFiles t ⟨endings, excluded⟩ root =
      List.filter (fun p => takesFile ⟨endings, excluded⟩ p.name) <$>
        sourceFiles t ⟨more, excluded⟩ root := by
  refine sourceFiles_filter hw fun p => ?_
  rw [Bool.eq_iff_iff]
  simp only [takes, Bool.and_eq_true, takesFile_iff, List.all_eq_true, entersDir_iff]
  constructor
  · rintro ⟨⟨ending, hm, he⟩, hd⟩
    exact ⟨⟨⟨ending, hsub hm, he⟩, hd⟩, ending, hm, he⟩
  · rintro ⟨⟨-, hd⟩, he⟩
    exact ⟨he, hd⟩

/-! ## Two walks in one -/

/-- A list that has the paths of two others and no more, each once, in an order that both keep: the
one in which paths ascend. -/
structure IsMerge (left right merged : List Path) : Prop where
  left_sublist : left.Sublist merged
  right_sublist : right.Sublist merged
  mem_or_mem : ∀ p ∈ merged, p ∈ left ∨ p ∈ right
  nodup : merged.Nodup
  ascending : merged.Pairwise fun p q => p.names < q.names

theorem exists_entries_of_sourceFiles (hw : t.top.WellFormed)
    (h : sourceFiles t s root = .ok selected) :
    ∃ entries, (dir entries).WellFormed ∧ selected = sourcesBelow s root entries := by
  cases he : t.entries root with
  | error e =>
    rw [sourceFiles, he] at h
    cases h
  | ok entries =>
    obtain ⟨names, hplace⟩ := FileTree.entries_eq_ok_iff.1 he
    rw [sourceFiles_eq he] at h
    exact ⟨entries, hw.below (FileTree.find?_of_place hplace), (Except.ok.inj h).symm⟩

theorem takesFile_of_mem (hw : t.top.WellFormed) (h : sourceFiles t s root = .ok selected)
    (hp : p ∈ selected) : s.takesFile p.name = true := by
  obtain ⟨entries, hwell, rfl⟩ := exists_entries_of_sourceFiles hw h
  rw [sourcesBelow_eq_filter s root hwell] at hp
  exact (Bool.and_eq_true_iff.1 (List.mem_filter.1 hp).2).1

/-- Two lists of endings, one behind the other, take what either of them takes. -/
theorem isMerge_sourceFiles (hw : t.top.WellFormed) {endings endings' excluded : List String}
    {merged : List Path} (h : sourceFiles t ⟨endings ++ endings', excluded⟩ root = .ok merged) :
    ∃ left right, sourceFiles t ⟨endings, excluded⟩ root = .ok left ∧
      sourceFiles t ⟨endings', excluded⟩ root = .ok right ∧ IsMerge left right merged := by
  have hleft := sourceFiles_endings hw (List.subset_append_left endings endings') excluded root
  have hright := sourceFiles_endings hw (List.subset_append_right endings endings') excluded root
  rw [h] at hleft hright
  have hor : ∀ p ∈ merged, takesFile ⟨endings, excluded⟩ p.name = true ∨
      takesFile ⟨endings', excluded⟩ p.name = true := by
    intro p hp
    have htakes := takesFile_of_mem hw h hp
    simpa only [takesFile, List.any_append, Bool.or_eq_true] using htakes
  obtain ⟨entries, hwell, rfl⟩ := exists_entries_of_sourceFiles hw h
  refine ⟨_, _, hleft, hright, ?_⟩
  exact {
    left_sublist := List.filter_sublist
    right_sublist := List.filter_sublist
    mem_or_mem p hp := (hor p hp).imp (fun h => List.mem_filter.2 ⟨hp, h⟩)
      fun h => List.mem_filter.2 ⟨hp, h⟩
    nodup := nodup_sourcesBelow hwell
    ascending := pairwise_lt_sourcesBelow hwell }

end Recenter.Files
