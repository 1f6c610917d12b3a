import Mathlib
import Recenter.Proofs.Files.Sources

/-! Which files a walk selects, and in what order. A file is a source if its name has a wanted
ending and every directory on the way down to it is entered; whatever stands behind a link is none.
Each directory lists its entries in ascending order, and since everything below one name begins with
that name, the paths as a whole ascend too (`pairwise_lt_sourcesBelow`). An ascending list is fixed
by its members, so the order in which the directories were listed does not matter
(`sourceFiles_sorted`). -/

namespace Recenter.Files

open Entry

variable {s : Selection} {path p : Path} {e : Entry} {entries : List (String × Entry)}
  {name : String} {names rest : List String}

/-- From a directory the names lead to a file that is wanted, through directories that are entered.
The directory's own name is not among them. -/
structure IsSource (s : Selection) (d : Entry) (names : List String) : Prop where
  isFile : ∃ octets, d.find? names = some (.file octets)
  wanted : ∃ name, names.getLast? = some name ∧
    ∃ ending ∈ s.endings, ending.toList <:+ name.toList
  entered : ∀ name ∈ names.dropLast, name ∉ s.excluded

theorem Selection.takesFile_iff :
    s.takesFile name = true ↔ ∃ ending ∈ s.endings, ending.toList <:+ name.toList := by
  simp [takesFile]

theorem Selection.entersDir_iff : s.entersDir name = true ↔ name ∉ s.excluded := by
  simp [entersDir]

/-! ## Name by name -/

theorem IsSource.ne_nil (h : IsSource s (dir entries) names) : names ≠ [] := by
  rintro rfl
  obtain ⟨octets, hf⟩ := h.isFile
  cases hf

theorem isSource_singleton_iff :
    IsSource s (dir entries) [name] ↔
      (∃ octets, entries.lookup name = some (.file octets)) ∧ s.takesFile name = true := by
  have hfind : (dir entries).find? [name] = entries.lookup name := by
    rw [find?]
    cases entries.lookup name <;> rfl
  rw [Selection.takesFile_iff]
  constructor
  · intro h
    obtain ⟨other, hlast, hended⟩ := h.wanted
    cases hlast
    exact ⟨hfind ▸ h.isFile, hended⟩
  · intro hx
    obtain ⟨hfile, hended⟩ := hx
    exact ⟨hfind ▸ hfile, ⟨name, rfl, hended⟩, by simp⟩

theorem isSource_cons_iff (hne : rest ≠ []) :
    IsSource s (dir entries) (name :: rest) ↔
      ∃ sub, entries.lookup name = some (.dir sub) ∧ s.entersDir name = true ∧
        IsSource s (.dir sub) rest := by
  rw [Selection.entersDir_iff]
  constructor
  · intro h
    obtain ⟨octets, hfind⟩ := h.isFile
    rw [find?] at hfind
    have hlast := h.wanted
    have henter := h.entered
    rw [List.getLast?_cons_of_ne_nil hne] at hlast
    rw [List.dropLast_cons_of_ne_nil hne, List.forall_mem_cons] at henter
    cases hl : entries.lookup name with
    | none => simp [hl] at hfind
    | some e =>
      rw [hl] at hfind
      cases e with
      | dir sub => exact ⟨sub, rfl, henter.1, ⟨⟨octets, hfind⟩, hlast, henter.2⟩⟩
      | file octets => cases rest <;> simp [find?] at hfind hne
      | link target => cases rest <;> simp [find?] at hfind
  · intro hx
    obtain ⟨sub, hl, henter, h⟩ := hx
    refine ⟨?_, ?_, ?_⟩
    · rw [find?, hl]
      exact h.isFile
    · rw [List.getLast?_cons_of_ne_nil hne]
      exact h.wanted
    · rw [List.dropLast_cons_of_ne_nil hne, List.forall_mem_cons]
      exact ⟨henter, h.entered⟩

/-- What an entry of a directory adds: itself, or the sources below it. -/
theorem mem_filesOf_child_iff :
    p ∈ filesOf s (path.child name) e ↔
      ((∃ octets, e = .file octets) ∧ s.takesFile name = true ∧ p = path.child name) ∨
        ∃ sub, e = .dir sub ∧ s.entersDir name = true ∧
          p ∈ sourcesBelow s (path.child name) sub := by
  cases e with
  | link target => simp [filesOf]
  | file octets =>
    rw [filesOf, Path.name_child]
    split
    · next ht => simp [ht]
    · next ht => simp [ht]
  | dir sub =>
    rw [filesOf, Path.name_child]
    split
    · next ht => simp [ht, sourcesBelow]
    · next ht => simp [ht]

/-! ## All of them -/

/-- If the directories in a directory list their sources, the directory does. -/
theorem mem_sourcesBelow_iff_of (h : (dir entries).WellFormed)
    (hsub : ∀ name sub, (name, dir sub) ∈ entries → ∀ path p, p ∈ sourcesBelow s path sub ↔
      ∃ names, p = path.descend names ∧ IsSource s (dir sub) names) :
    p ∈ sourcesBelow s path entries ↔
      ∃ names, p = path.descend names ∧ IsSource s (dir entries) names := by
  rw [mem_sourcesBelow_iff]
  simp only [Prod.exists, mem_filesOf_child_iff]
  constructor
  · intro hx
    obtain ⟨name, e, hm, ⟨⟨octets, rfl⟩, ht, rfl⟩ | ⟨sub, rfl, hd, hp⟩⟩ := hx
    · refine ⟨[name], ?_, isSource_singleton_iff.2 ⟨⟨octets, (h.entry hm).1⟩, ht⟩⟩
      rw [← Path.descend_child, Path.descend_nil]
    · obtain ⟨names, rfl, hs⟩ := (hsub name sub hm _ p).1 hp
      refine ⟨name :: names, Path.descend_child path name names, ?_⟩
      exact (isSource_cons_iff hs.ne_nil).2 ⟨sub, (h.entry hm).1, hd, hs⟩
  · intro hx
    obtain ⟨names, rfl, hs⟩ := hx
    match names, hs.ne_nil with
    | [name], _ =>
      obtain ⟨⟨octets, hl⟩, ht⟩ := isSource_singleton_iff.1 hs
      refine ⟨name, .file octets, mem_of_lookup hl, .inl ⟨⟨octets, rfl⟩, ht, ?_⟩⟩
      rw [← Path.descend_child, Path.descend_nil]
    | name :: next :: rest, _ =>
      obtain ⟨sub, hl, hd, hs'⟩ := (isSource_cons_iff (List.cons_ne_nil next rest)).1 hs
      have hm := mem_of_lookup hl
      refine ⟨name, .dir sub, hm, .inr ⟨sub, rfl, hd, (hsub name sub hm _ _).2 ⟨_, ?_, hs'⟩⟩⟩
      exact (Path.descend_child path name (next :: rest)).symm

/-- The sources below a directory are the files that its names lead to as sources. -/
theorem mem_sourcesBelow_iff_isSource (h : (dir entries).WellFormed) :
    p ∈ sourcesBelow s path entries ↔
      ∃ names, p = path.descend names ∧ IsSource s (dir entries) names := by
  generalize hd : dir entries = d at h
  induction d using induction_on_entries generalizing entries path p with
  | file octets => cases hd
  | link target => cases hd
  | dir entries ih =>
    cases hd
    refine mem_sourcesBelow_iff_of h fun name sub hm path p => ?_
    exact ih _ hm rfl (h.entry hm).2.1

/-! ## Their order -/

theorem mem_filesAt (h : (dir entries).WellFormed) (hp : p ∈ filesAt s path entries name) :
    ∃ rest, p.names = path.names ++ name :: rest := by
  unfold filesAt at hp
  cases hl : entries.lookup name with
  | none => simp [hl] at hp
  | some e =>
    rw [hl] at hp
    obtain ⟨rest, -, rfl, -⟩ := mem_filesOf (h.entry (mem_of_lookup hl)).2.1 hp
    refine ⟨rest, ?_⟩
    rw [Path.descend_child]
    rfl

theorem pairwise_lt_mergeSort {names : List String} (h : names.Nodup) :
    (names.mergeSort fun a b => decide (a ≤ b)).Pairwise (· < ·) := by
  have hle : (names.mergeSort fun a b => decide (a ≤ b)).Pairwise
      fun a b => decide (a ≤ b) = true :=
    List.pairwise_mergeSort (by simpa using fun _ _ _ => String.le_trans)
      (by simpa using String.le_total) _
  have hne := (List.mergeSort_perm names fun a b => decide (a ≤ b)).nodup_iff.2 h
  refine (hle.and hne).imp fun {a b} hab => ?_
  exact lt_of_le_of_ne (of_decide_eq_true hab.1) hab.2

/-- The names that a directory is walked by ascend, as no name comes twice. -/
theorem pairwise_lt_names (h : (dir entries).WellFormed) :
    ((entries.map Prod.fst).mergeSort fun a b => decide (a ≤ b)).Pairwise (· < ·) :=
  pairwise_lt_mergeSort (h [] entries rfl).1

/-- The paths ascend name by name. Those that one entry adds do by induction, and those of
different entries go on with different names. -/
theorem pairwise_lt_sourcesBelow (h : (dir entries).WellFormed) :
    (sourcesBelow s path entries).Pairwise fun p q => p.names < q.names := by
  generalize hd : dir entries = d at h
  induction d using induction_on_entries generalizing entries path with
  | file octets => cases hd
  | link target => cases hd
  | dir entries ih =>
    cases hd
    rw [sourcesBelow_eq_flatMap s path h, List.pairwise_flatMap]
    constructor
    · intro name _
      unfold filesAt
      cases hl : entries.lookup name with
      | none => exact .nil
      | some e =>
        have hm := mem_of_lookup hl
        cases e with
        | link target =>
          rw [Option.map_some, filesOf]
          exact .nil
        | file octets =>
          rw [Option.map_some, filesOf]
          split
          · exact List.pairwise_singleton _ _
          · exact .nil
        | dir sub =>
          rw [Option.map_some, filesOf]
          split
          · exact ih _ hm rfl (h.entry hm).2.1
          · exact .nil
    · refine (pairwise_lt_names h).imp fun {name name'} hlt p hp q hq => ?_
      obtain ⟨rest, hpn⟩ := mem_filesAt h hp
      obtain ⟨rest', hqn⟩ := mem_filesAt h hq
      rw [hpn, hqn]
      exact List.append_left_lt (List.cons_lt_cons_iff.2 (.inl hlt))

/-- An ascending list of paths is fixed by its members. -/
theorem eq_of_pairwise_lt {l l' : List Path} (h : l.Pairwise fun p q => p.names < q.names)
    (h' : l'.Pairwise fun p q => p.names < q.names) (hmem : ∀ p, p ∈ l ↔ p ∈ l') : l = l' := by
  have hnodup : ∀ {l : List Path}, l.Pairwise (fun p q => p.names < q.names) → l.Nodup := by
    intro l h
    refine List.Pairwise.imp (fun {p q} hlt he => ?_) h
    subst he
    exact List.lt_irrefl _ hlt
  refine List.Perm.eq_of_pairwise (fun p q _ _ hpq hqp => ?_) h h'
    ((List.perm_ext_iff_of_nodup (hnodup h) (hnodup h')).2 hmem)
  exact absurd hqp (List.lt_asymm hpq)

/-- Below a root that is a directory, a walk selects the sources and nothing else, each once, in the
ascending order of their names from the root on; no other list does. A root that cannot be listed is
refused. -/
theorem sourceFiles_sorted {t : FileTree} (hw : t.top.WellFormed) (s : Selection) (root : Path) :
    (∀ e, t.entries root = .error e → sourceFiles t s root = .error e) ∧
    ∀ entries, t.entries root = .ok entries → ∃ selected, sourceFiles t s root = .ok selected ∧
      (∀ p, p ∈ selected ↔ ∃ names, p = root.descend names ∧ IsSource s (.dir entries) names) ∧
      selected.Nodup ∧ selected.Pairwise (fun p q => p.names < q.names) ∧
      ∀ other : List Path, other.Pairwise (fun p q => p.names < q.names) →
        (∀ p, p ∈ other ↔ ∃ names, p = root.descend names ∧ IsSource s (.dir entries) names) →
          other = selected := by
  constructor
  · intro e he
    rw [sourceFiles, he]
    rfl
  · intro entries he
    obtain ⟨names, hplace⟩ := FileTree.entries_eq_ok_iff.1 he
    have hwell := hw.below (FileTree.find?_of_place hplace)
    have hmem : ∀ p, p ∈ sourcesBelow s root entries ↔
        ∃ names, p = root.descend names ∧ IsSource s (.dir entries) names :=
      fun p => mem_sourcesBelow_iff_isSource hwell
    refine ⟨_, sourceFiles_eq he, hmem, nodup_sourcesBelow hwell, pairwise_lt_sourcesBelow hwell,
      fun other hother hsame => ?_⟩
    exact eq_of_pairwise_lt hother (pairwise_lt_sourcesBelow hwell)
      fun p => (hsame p).trans (hmem p).symm

/-- A root whose own name is excluded, with a file of an excluded name, an excluded directory and a
link in it. The files in `a` come before `a.t`, as `a` is the lesser name, although the text of
their paths is the greater one. -/
def crossing : FileTree :=
  ⟨.dir [("o", .dir [
      ("a.t", .file []),
      ("o", .dir [("z.t", .file [])]),
      ("a", .dir [("o.t", .file []), ("b", .file []), ("bx", .file [])]),
      ("l.t", .link "a.t")])], []⟩

theorem sourceFiles_sorted_crossing :
    let s : Selection := ⟨[".t", "x"], ["o", "o.t"]⟩
    let root : Path := ⟨0, ["o"]⟩
    let selected : List Path := [⟨0, ["o", "a", "bx"]⟩, ⟨0, ["o", "a", "o.t"]⟩, ⟨0, ["o", "a.t"]⟩]
    crossing.top.WellFormed ∧ sourceFiles crossing s root = .ok selected ∧
      ∃ entries, crossing.entries root = .ok entries ∧ ∀ p, p ∈ selected ↔
        ∃ names, p = root.descend names ∧ IsSource s (.dir entries) names := by
  intro s root selected
  have hwell : crossing.top.WellFormed := by decide
  have hrun : sourceFiles crossing s root = .ok selected := by cbv
  refine ⟨hwell, hrun, ?_⟩
  obtain ⟨hrefused, hlisted⟩ := sourceFiles_sorted hwell s root
  cases he : crossing.entries root with
  | error e =>
    rw [hrefused e he] at hrun
    cases hrun
  | ok entries =>
    obtain ⟨found, hfound, hmem, -⟩ := hlisted entries he
    obtain rfl : selected = found := Except.ok.inj (hrun.symm.trans hfound)
    exact ⟨entries, rfl, hmem⟩

end Recenter.Files
