import Mathlib.Data.List.Nodup
import Recenter.Files.Walk
import Recenter.Proofs.Files.Access

/-! The source files of a directory. In a tree whose directories have every name once, and proper
names only, each of them stands below the directory at the names that its path adds
(`mem_sourcesBelow`), none comes twice (`nodup_sourcesBelow`), and no two of them are the same file
(`pairwise_apart_sourcesBelow`). -/

namespace Recenter.Files

variable {s : Selection} {path p : Path} {e : Entry} {entries : List (String × Entry)}
  {name : String} {names : List String}

def Path.descend (p : Path) (names : List String) : Path := { p with names := p.names ++ names }

theorem Path.descend_nil (p : Path) : p.descend [] = p := by
  simp [Path.descend]

theorem Path.descend_child (p : Path) (name : String) (names : List String) :
    (p.child name).descend names = p.descend (name :: names) := by
  simp [Path.descend, Path.child]

theorem Path.descend_injective (p : Path) : Function.Injective p.descend := by
  intro names names' h
  exact List.append_cancel_left (congrArg Path.names h)

theorem Path.name_child (p : Path) (name : String) : (p.child name).name = name := by
  simp [Path.name, Path.child]

namespace Entry

/-- What holds of a directory if it holds of its entries, and of files and links, holds of all. -/
theorem induction_on_entries {P : Entry → Prop} (file : ∀ octets, P (.file octets))
    (link : ∀ target, P (.link target))
    (dir : ∀ entries, (∀ entry ∈ entries, P entry.2) → P (.dir entries)) (e : Entry) : P e := by
  match e with
  | .file octets => exact file octets
  | .link target => exact link target
  | .dir entries =>
    exact dir entries fun entry hm => induction_on_entries file link dir entry.2
termination_by sizeOf e
decreasing_by
  obtain ⟨name, e⟩ := entry
  have hlt := List.sizeOf_lt_of_mem hm
  simp only [Prod.mk.sizeOf_spec, Entry.dir.sizeOf_spec] at hlt ⊢
  omega

/-- In every directory each name comes once, and each is proper, as a file system sees to. -/
def WellFormed (e : Entry) : Prop :=
  ∀ names entries, e.find? names = some (.dir entries) →
    (entries.map Prod.fst).Nodup ∧ ∀ name ∈ entries.map Prod.fst, IsProper name

theorem WellFormed.below {d : Entry} (h : d.WellFormed) (hd : d.find? names = some e) :
    e.WellFormed := by
  intro more entries he
  apply h (names ++ more) entries
  rw [find?_append, hd, Option.bind_some, he]

theorem WellFormed.of_outline_eq {e' : Entry} (h : e.WellFormed) (ho : e'.outline = e.outline) :
    e'.WellFormed := by
  intro names entries hf
  have hsame := congrArg (Entry.find? names) ho
  rw [find?_outline, find?_outline, hf] at hsame
  obtain ⟨found, hfound, hout⟩ := Option.map_eq_some_iff.1 hsame.symm
  cases found with
  | file octets => cases hout
  | link target => cases hout
  | dir entries' =>
    have hnames := congrArg (List.map Prod.fst) (Entry.dir.inj hout)
    rw [map_fst_outlineAll, map_fst_outlineAll] at hnames
    rw [← hnames]
    exact h names entries' hfound

theorem lookup_of_mem (hn : (entries.map Prod.fst).Nodup) (hm : (name, e) ∈ entries) :
    entries.lookup name = some e := by
  induction entries with
  | nil => cases hm
  | cons entry rest ih =>
    obtain ⟨first, old⟩ := entry
    rw [List.map_cons, List.nodup_cons] at hn
    rcases List.mem_cons.1 hm with heq | hrest
    · cases heq
      exact List.lookup_cons_self
    · have hne : name ≠ first := by
        intro h
        subst h
        exact hn.1 (List.mem_map.2 ⟨(name, e), hrest, rfl⟩)
      rw [lookup_cons_of_ne hne]
      exact ih hn.2 hrest

theorem mem_of_lookup (h : entries.lookup name = some e) : (name, e) ∈ entries := by
  obtain ⟨front, back, rfl, -⟩ := List.lookup_eq_some_iff.1 h
  simp

theorem WellFormed.entry (h : (dir entries).WellFormed) (hm : (name, e) ∈ entries) :
    entries.lookup name = some e ∧ e.WellFormed ∧ IsProper name := by
  obtain ⟨hn, hp⟩ := h [] entries rfl
  have hl := lookup_of_mem hn hm
  refine ⟨hl, ?_, hp name (List.mem_map.2 ⟨_, hm, rfl⟩)⟩
  have hd : (dir entries).find? [name] = some e := by
    rw [find?, hl]
    rfl
  exact h.below hd

theorem wellFormed_dir_iff : (dir entries).WellFormed ↔ ((entries.map Prod.fst).Nodup ∧
    ∀ name ∈ entries.map Prod.fst, IsProper name) ∧ ∀ entry ∈ entries, entry.2.WellFormed := by
  constructor
  · intro h
    exact ⟨h [] entries rfl, fun entry hm => (h.entry hm).2.1⟩
  · intro hx names entries' hf
    obtain ⟨hnames, hbelow⟩ := hx
    cases names with
    | nil =>
      cases hf
      exact hnames
    | cons name rest =>
      rw [find?] at hf
      cases hl : entries.lookup name with
      | none => simp [hl] at hf
      | some e =>
        rw [hl] at hf
        exact hbelow _ (mem_of_lookup hl) rest entries' hf

mutual

def isWellFormed : Entry → Bool
  | .file _ => true
  | .link _ => true
  | .dir entries =>
    decide ((entries.map Prod.fst).Nodup ∧ ∀ name ∈ entries.map Prod.fst, IsProper name) &&
      allWellFormed entries

def allWellFormed : List (String × Entry) → Bool
  | [] => true
  | (_, e) :: rest => isWellFormed e && allWellFormed rest

end

theorem isWellFormed_iff (e : Entry) : e.isWellFormed = true ↔ e.WellFormed := by
  induction e using induction_on_entries with
  | file octets =>
    rw [isWellFormed]
    exact ⟨fun _ names _ hf => by cases names <;> simp [find?] at hf, fun _ => rfl⟩
  | link target =>
    rw [isWellFormed]
    exact ⟨fun _ names _ hf => by cases names <;> simp [find?] at hf, fun _ => rfl⟩
  | dir entries ih =>
    have hall : allWellFormed entries = true ↔ ∀ entry ∈ entries, entry.2.WellFormed := by
      induction entries with
      | nil => simp [allWellFormed]
      | cons entry rest ih' =>
        obtain ⟨name, e⟩ := entry
        rw [allWellFormed, Bool.and_eq_true, ih (name, e) (by simp),
          ih' fun entry hm => ih entry (by simp [hm]), List.forall_mem_cons]
    rw [isWellFormed, wellFormed_dir_iff, Bool.and_eq_true, decide_eq_true_iff, hall]

instance (e : Entry) : Decidable e.WellFormed := decidable_of_iff _ (isWellFormed_iff e)

/-- Every name on the way to an entry is proper. -/
theorem WellFormed.isProper {d : Entry} (h : d.WellFormed) (hd : d.find? names = some e) :
    ∀ name ∈ names, IsProper name := by
  induction names generalizing d with
  | nil => simp
  | cons first rest ih =>
    cases d with
    | file octets => simp [find?] at hd
    | link target => simp [find?] at hd
    | dir entries =>
      rw [find?] at hd
      cases hl : entries.lookup first with
      | none => simp [hl] at hd
      | some below =>
        rw [hl] at hd
        obtain ⟨-, hwell, hproper⟩ := h.entry (mem_of_lookup hl)
        intro name hm
        rcases List.mem_cons.1 hm with rfl | hrest
        · exact hproper
        · exact ih hwell hd name hrest

end Entry

open Entry

/-! ## The files of an entry -/

theorem filesOfAll_eq_map (s : Selection) (path : Path) (entries : List (String × Entry)) :
    filesOfAll s path entries =
      entries.map fun entry => (entry.1, filesOf s (path.child entry.1) entry.2) := by
  induction entries with
  | nil => rfl
  | cons entry rest ih =>
    obtain ⟨name, e⟩ := entry
    rw [filesOfAll, ih, List.map_cons]

/-- The source files below a directory whose own name does not matter. -/
def sourcesBelow (s : Selection) (path : Path) (entries : List (String × Entry)) : List Path :=
  (sortByName (filesOfAll s path entries)).flatMap Prod.snd

theorem sourceFiles_eq {t : FileTree} {root : Path} (h : t.entries root = .ok entries) :
    sourceFiles t s root = .ok (sourcesBelow s root entries) := by
  rw [sourceFiles, h]
  rfl

theorem mem_sourcesBelow_iff :
    p ∈ sourcesBelow s path entries ↔
      ∃ entry ∈ entries, p ∈ filesOf s (path.child entry.1) entry.2 := by
  simp [sourcesBelow, sortByName, filesOfAll_eq_map, List.mem_flatMap]

/-- If an entry's files stand where their paths say, a directory's do. -/
theorem mem_sourcesBelow_of (h : (dir entries).WellFormed) (hp : p ∈ sourcesBelow s path entries)
    (hmem : ∀ entry ∈ entries, ∀ path p, p ∈ filesOf s path entry.2 →
      ∃ names octets, p = path.descend names ∧ entry.2.find? names = some (.file octets)) :
    ∃ names octets, p = path.descend names ∧ (dir entries).find? names = some (.file octets) := by
  obtain ⟨⟨name, e⟩, hentry, hp⟩ := mem_sourcesBelow_iff.1 hp
  obtain ⟨names, octets, rfl, hf⟩ := hmem _ hentry _ p hp
  refine ⟨name :: names, octets, Path.descend_child path name names, ?_⟩
  rw [Entry.find?, (h.entry hentry).1]
  exact hf

/-- A source file stands at the names that its path adds. -/
theorem mem_filesOf (he : e.WellFormed) (hp : p ∈ filesOf s path e) :
    ∃ names octets, p = path.descend names ∧ e.find? names = some (.file octets) := by
  induction e using induction_on_entries generalizing path p with
  | file octets =>
    rw [filesOf] at hp
    split at hp
    · refine ⟨[], octets, ?_, rfl⟩
      rw [Path.descend_nil]
      exact List.mem_singleton.1 hp
    · cases hp
  | link target => simp [filesOf] at hp
  | dir entries ih =>
    rw [filesOf] at hp
    split at hp
    · exact mem_sourcesBelow_of he hp fun entry hm path p hp => ih entry hm (he.entry hm).2.1 hp
    · cases hp

theorem mem_sourcesBelow (h : (dir entries).WellFormed) (hp : p ∈ sourcesBelow s path entries) :
    ∃ names octets, p = path.descend names ∧ (dir entries).find? names = some (.file octets) :=
  mem_sourcesBelow_of h hp fun _ hm _ _ hp => mem_filesOf (h.entry hm).2.1 hp

/-- The files of different entries are different, since the entries' names are. -/
theorem nodup_sourcesBelow_of (h : (dir entries).WellFormed)
    (hn : ∀ entry ∈ entries, ∀ path, (filesOf s path entry.2).Nodup) :
    (sourcesBelow s path entries).Nodup := by
  have hperm : (sortByName (filesOfAll s path entries)).Perm (filesOfAll s path entries) :=
    List.mergeSort_perm _ _
  have hnames : (filesOfAll s path entries).map Prod.fst = entries.map Prod.fst := by
    rw [filesOfAll_eq_map, List.map_map]
    rfl
  have hdistinct : (sortByName (filesOfAll s path entries)).Pairwise fun x y => x.1 ≠ y.1 := by
    rw [← List.pairwise_map (R := (· ≠ ·))]
    exact (hperm.map Prod.fst).nodup_iff.2 (hnames ▸ (h [] entries rfl).1)
  have hmem : ∀ x ∈ sortByName (filesOfAll s path entries),
      ∃ entry ∈ entries, x = (entry.1, filesOf s (path.child entry.1) entry.2) := by
    intro x hx
    rw [hperm.mem_iff, filesOfAll_eq_map] at hx
    obtain ⟨entry, hm, rfl⟩ := List.mem_map.1 hx
    exact ⟨entry, hm, rfl⟩
  rw [sourcesBelow, List.nodup_flatMap]
  refine ⟨fun x hx => ?_, hdistinct.imp_of_mem fun {x y} hx hy hne p hpx hpy => ?_⟩
  · obtain ⟨entry, hm, rfl⟩ := hmem x hx
    exact hn entry hm _
  · obtain ⟨entry, hm, rfl⟩ := hmem x hx
    obtain ⟨entry', hm', rfl⟩ := hmem y hy
    obtain ⟨names, -, rfl, -⟩ := mem_filesOf (h.entry hm).2.1 hpx
    obtain ⟨names', -, he, -⟩ := mem_filesOf (h.entry hm').2.1 hpy
    -- The one path would go on with two different names.
    rw [Path.descend_child, Path.descend_child] at he
    exact hne (List.cons.inj (path.descend_injective he)).1

theorem nodup_filesOf (path : Path) (he : e.WellFormed) : (filesOf s path e).Nodup := by
  induction e using induction_on_entries generalizing path with
  | file octets =>
    rw [filesOf]
    split
    · exact List.nodup_singleton path
    · exact List.nodup_nil
  | link target =>
    rw [filesOf]
    exact List.nodup_nil
  | dir entries ih =>
    rw [filesOf]
    split
    · exact nodup_sourcesBelow_of he fun entry hm path => ih entry hm path (he.entry hm).2.1
    · exact List.nodup_nil

theorem nodup_sourcesBelow (h : (dir entries).WellFormed) : (sourcesBelow s path entries).Nodup :=
  nodup_sourcesBelow_of h fun _ hm path => nodup_filesOf path (h.entry hm).2.1

/-- A name of a directory leads to the directory that stands at it. -/
theorem FileTree.entries_child {t : FileTree} {sub sub' : List (String × Entry)}
    (he : t.entries path = .ok entries) (h : (dir entries).WellFormed)
    (hl : entries.lookup name = some (.dir sub)) (he' : t.entries (path.child name) = .ok sub') :
    sub' = sub := by
  obtain ⟨base, hbase⟩ := FileTree.entries_eq_ok_iff.1 he
  obtain ⟨base', hbase'⟩ := FileTree.entries_eq_ok_iff.1 he'
  have hfind : (dir entries).find? [name] = some (.dir sub) := by
    rw [Entry.find?, hl]
    rfl
  have hsame := FileTree.place_descend hbase hfind (h.isProper hfind) (by simp) hbase'
  cases hsame
  rfl

/-- Different paths of source files lead to different files. -/
theorem pairwise_apart_sourcesBelow {t : FileTree} (he : t.entries path = .ok entries)
    (h : (dir entries).WellFormed) : (sourcesBelow s path entries).Pairwise (t.Apart · ·) := by
  obtain ⟨base, hbase⟩ := FileTree.entries_eq_ok_iff.1 he
  have hnames : ∀ p ∈ sourcesBelow s path entries, ∀ names, t.Leads p names →
      ∃ added, p = path.descend added ∧ names = base ++ added := by
    intro p hp names hx
    obtain ⟨octets, hplace⟩ := hx
    obtain ⟨added, found, rfl, hf⟩ := mem_sourcesBelow h hp
    have hsame := FileTree.place_descend hbase hf (h.isProper hf) (by simp) hplace
    cases hsame
    exact ⟨added, rfl, rfl⟩
  refine (nodup_sourcesBelow h).imp_of_mem fun {p q} hp hq hne names hlp hlq => hne ?_
  obtain ⟨added, rfl, hadded⟩ := hnames p hp names hlp
  obtain ⟨added', rfl, hadded'⟩ := hnames q hq names hlq
  rw [List.append_cancel_left (hadded.symm.trans hadded')]

/-! ## Name by name -/

/-- The source files that a name in a directory adds. -/
def filesAt (s : Selection) (path : Path) (entries : List (String × Entry)) (name : String) :
    List Path :=
  ((entries.lookup name).map (filesOf s (path.child name))).getD []

theorem sourcesBelow_eq_flatMap (s : Selection) (path : Path) (h : (dir entries).WellFormed) :
    sourcesBelow s path entries =
      ((entries.map Prod.fst).mergeSort fun a b => decide (a ≤ b)).flatMap
        (filesAt s path entries) := by
  have hfiles : sortByName (filesOfAll s path entries) = (sortByName entries).map fun entry =>
      (entry.1, filesOf s (path.child entry.1) entry.2) := by
    rw [filesOfAll_eq_map]
    refine (List.map_mergeSort ?_).symm
    exact fun _ _ _ _ => rfl
  have hnames : ((entries.map Prod.fst).mergeSort fun a b => decide (a ≤ b)) =
      (sortByName entries).map Prod.fst := by
    refine (List.map_mergeSort ?_).symm
    exact fun _ _ _ _ => rfl
  rw [sourcesBelow, hfiles, hnames, List.flatMap_map, List.flatMap_map]
  refine List.flatMap_congr fun entry hm => ?_
  rw [filesAt, (h.entry (List.mem_mergeSort.1 hm)).1]
  rfl

theorem filesOf_outline (s : Selection) (path : Path) (e : Entry) :
    filesOf s path e.outline = filesOf s path e := by
  induction e using induction_on_entries generalizing path with
  | file octets => rw [Entry.outline, filesOf, filesOf]
  | link target => rw [Entry.outline]
  | dir entries ih =>
    have hall : filesOfAll s path (outlineAll entries) = filesOfAll s path entries := by
      induction entries with
      | nil => rfl
      | cons entry rest ih' =>
        obtain ⟨name, e⟩ := entry
        rw [outlineAll, filesOfAll, filesOfAll, ih (name, e) (by simp),
          ih' fun entry hm => ih entry (by simp [hm])]
    rw [Entry.outline, filesOf, filesOf, hall]

/-- What a name adds depends on the outline of the directory alone. -/
theorem filesAt_of_outline_eq {entries' : List (String × Entry)}
    (h : outlineAll entries' = outlineAll entries) (name : String) :
    filesAt s path entries' name = filesAt s path entries name := by
  have hout : ∀ entries, filesAt s path entries name =
      ((outlineAll entries).lookup name |>.map (filesOf s (path.child name))).getD [] := by
    intro entries
    rw [filesAt, lookup_outlineAll, Option.map_map]
    exact congrArg (fun f => (Option.map f (entries.lookup name)).getD [])
      (funext fun e => (filesOf_outline s _ e).symm)
  rw [hout, hout, h]

end Recenter.Files
