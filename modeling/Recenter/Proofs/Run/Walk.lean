import Recenter.Proofs.Files.Sources
import Recenter.Proofs.Run.Steps
import Recenter.Run.Center

/-! A walk that looks at directories while files in them change. Visits that keep the outline do not
disturb it: it takes exactly the source files that were there at its start, one after the other in
their order (`completes_forSourceFiles`). -/

namespace Recenter.Run

open Recenter.Files Entry

/-! ## Depth -/

theorem depth_le_of_mem {name : String} {e : Entry} {entries : List (String × Entry)}
    (h : (name, e) ∈ entries) : depth e ≤ depthOfAll entries := by
  induction entries with
  | nil => cases h
  | cons entry rest ih =>
    obtain ⟨first, old⟩ := entry
    rw [depthOfAll]
    rcases List.mem_cons.1 h with heq | hrest
    · cases heq
      exact Nat.le_max_left _ _
    · exact Nat.le_trans (ih hrest) (Nat.le_max_right _ _)

theorem depth_le_of_find? {names : List String} {top e : Entry} (h : top.find? names = some e) :
    depth e ≤ depth top := by
  induction names generalizing top with
  | nil =>
    cases h
    exact Nat.le_refl _
  | cons name rest ih =>
    cases top with
    | file octets => simp [find?] at h
    | link target => simp [find?] at h
    | dir entries =>
      rw [find?] at h
      cases hl : entries.lookup name with
      | none => simp [hl] at h
      | some below =>
        rw [hl] at h
        have hbelow := depth_le_of_mem (mem_of_lookup hl)
        rw [depth]
        exact Nat.le_trans (ih h) (Nat.le_succ_of_le hbelow)

theorem depth_outline (e : Entry) : depth e.outline = depth e := by
  induction e using induction_on_entries with
  | file octets => simp [Entry.outline, depth]
  | link target => rw [Entry.outline]
  | dir entries ih =>
    rw [Entry.outline, depth, depth]
    congr 1
    induction entries with
    | nil => rfl
    | cons entry rest ih' =>
      obtain ⟨name, e⟩ := entry
      rw [outlineAll, depthOfAll, depthOfAll, ih (name, e) (by simp),
        ih' fun entry hm => ih entry (by simp [hm])]

theorem depthOfAll_eq {entries entries' : List (String × Entry)}
    (h : (Entry.dir entries').outline = (Entry.dir entries).outline) :
    depthOfAll entries' = depthOfAll entries := by
  have hdepth := depth_outline (.dir entries')
  rw [h, depth_outline, depth, depth] at hdepth
  exact (Nat.succ.inj hdepth).symm

namespace Action

variable {σ : Type} {s : Selection} {visit : σ → Path → Action σ} {acc result : σ} {dir : Path}
  {name : String} {w w' : World} {entries : List (String × Entry)} {fuel : Nat}

/-! ## What a walk reads -/

theorem completes_listing_iff {names : List String} :
    Completes (listing dir) w names w' ↔ w' = w ∧ ∃ entries, w.files.entries dir = .ok entries ∧
      names = (entries.map Prod.fst).mergeSort fun a b => decide (a ≤ b) := by
  unfold listing
  rw [completes_get_bind_iff]
  cases w.files.entries dir with
  | ok entries => simp [completes_pure_iff, and_comm]
  | error e => simp [not_completes_fail]

/-- A name is looked at unless its path is too long. -/
theorem look_cases (he : w.files.entries dir = .ok entries) (name : String) :
    (look dir name).run.run w = (.error (.access .nameTooLong (dir.child name)), w) ∨
      Completes (look dir name) w (entries.lookup name) w := by
  unfold look
  by_cases hs : maxPathSize < (dir.child name).toString.utf8ByteSize
  · exact .inl (by simp only [if_pos hs]; rfl)
  · simp only [if_neg hs]
    rw [completes_get_bind_iff, he]
    exact .inr (completes_pure_iff.2 ⟨rfl, rfl⟩)

/-- What a walk does with one name in a directory. -/
def takeName (s : Selection) (visit : σ → Path → Action σ) (fuel : Nat) (dir : Path) (acc : σ)
    (name : String) : Action σ := do
  match ← look dir name with
  | some (.dir _) =>
    if s.entersDir name then walk s visit fuel acc (dir.child name) else return acc
  | some (.file _) => if s.takesFile name then visit acc (dir.child name) else return acc
  | _ => return acc

theorem walk_succ (s : Selection) (visit : σ → Path → Action σ) (fuel : Nat) (acc : σ)
    (dir : Path) : walk s visit (fuel + 1) acc dir =
      listing dir >>= fun names => names.foldlM (takeName s visit fuel dir) acc := rfl

/-- A walk with fuel completes only where the path leads to a directory. -/
theorem exists_entries_of_walk (hfuel : fuel ≠ 0)
    (h : Completes (walk s visit fuel acc dir) w result w') :
    ∃ entries, w.files.entries dir = .ok entries := by
  obtain ⟨fuel, rfl⟩ := Nat.exists_eq_succ_of_ne_zero hfuel
  rw [walk_succ] at h
  obtain ⟨names, w₁, hlist, -⟩ := completes_bind_iff.1 h
  obtain ⟨-, entries, he, -⟩ := completes_listing_iff.1 hlist
  exact ⟨entries, he⟩

/-! ## One name after the other -/

/-- A visit writes files at most. -/
def KeepsOutline (visit : σ → Path → Action σ) : Prop :=
  ∀ {acc path w a w'}, Completes (visit acc path) w a w' → w.files.SameOutline w'.files

theorem KeepsOutline.foldlM (hv : KeepsOutline visit) {paths : List Path}
    (h : Completes (paths.foldlM visit acc) w result w') : w.files.SameOutline w'.files := by
  induction paths generalizing acc w with
  | nil =>
    obtain ⟨-, rfl⟩ := completes_pure_iff.1 h
    exact .refl _
  | cons path rest ih =>
    rw [List.foldlM_cons] at h
    obtain ⟨a, w₁, hvisit, hrest⟩ := completes_bind_iff.1 h
    exact (hv hvisit).trans (ih hrest)

/-- A walk with this fuel takes the source files of every directory that is not too deep. -/
def TakesSources (s : Selection) (visit : σ → Path → Action σ) (fuel : Nat) : Prop :=
  ∀ {acc dir w result w' entries}, w.files.entries dir = .ok entries →
    (Entry.dir entries).WellFormed → depth (.dir entries) ≤ fuel →
      Completes (walk s visit fuel acc dir) w result w' →
        Completes ((sourcesBelow s dir entries).foldlM visit acc) w result w'

theorem TakesSources.child (ih : TakesSources s visit fuel) (he : w.files.entries dir = .ok entries)
    (hw : (Entry.dir entries).WellFormed) (hd : depthOfAll entries ≤ fuel)
    {sub : List (String × Entry)} (hl : entries.lookup name = some (.dir sub))
    (h : Completes (walk s visit fuel acc (dir.child name)) w result w') :
    Completes ((sourcesBelow s (dir.child name) sub).foldlM visit acc) w result w' := by
  have hdepth := Nat.le_trans (depth_le_of_mem (mem_of_lookup hl)) hd
  have hfuel : fuel ≠ 0 := by
    rw [depth] at hdepth
    omega
  -- The walk has listed the directory, so the path leads to it and is not too long.
  obtain ⟨sub', he'⟩ := exists_entries_of_walk hfuel h
  obtain rfl := FileTree.entries_child he hw hl he'
  exact ih he' (hw.entry (mem_of_lookup hl)).2.1 hdepth h

/-- At a name a walk is stopped by its path, or else passes over, visits a file, or goes on below,
and each of these adds its own to the source files. -/
theorem takeName_cases (he : w.files.entries dir = .ok entries) (name : String) :
    (∃ e, (takeName s visit fuel dir acc name).run.run w =
      (fail (.access e (dir.child name)) : Action σ).run.run w) ∨
    (filesAt s dir entries name = [] ∧
      (takeName s visit fuel dir acc name).run.run w = (pure acc : Action σ).run.run w) ∨
    (filesAt s dir entries name = [dir.child name] ∧
      (takeName s visit fuel dir acc name).run.run w =
        (visit acc (dir.child name)).run.run w) ∨
    ∃ sub, entries.lookup name = some (.dir sub) ∧
      filesAt s dir entries name = sourcesBelow s (dir.child name) sub ∧
      (takeName s visit fuel dir acc name).run.run w =
        (walk s visit fuel acc (dir.child name)).run.run w := by
  unfold takeName filesAt
  rw [run_bind]
  rcases look_cases he name with hlook | hlook
  · rw [hlook]
    exact .inl ⟨_, rfl⟩
  rw [hlook]
  right
  cases hl : entries.lookup name with
  | none => exact .inl ⟨rfl, rfl⟩
  | some e =>
    rw [Option.map_some, Option.getD_some]
    cases e with
    | link target =>
      rw [filesOf]
      exact .inl ⟨rfl, rfl⟩
    | file octets =>
      rw [filesOf, Path.name_child]
      by_cases ht : s.takesFile name = true
      · simp only [if_pos ht]
        exact .inr (.inl ⟨trivial, trivial⟩)
      · simp only [if_neg ht]
        exact .inl ⟨trivial, trivial⟩
    | dir sub =>
      rw [filesOf, Path.name_child]
      by_cases ht : s.entersDir name = true
      · simp only [if_pos ht]
        exact .inr (.inr ⟨sub, rfl, rfl, trivial⟩)
      · simp only [if_neg ht]
        exact .inl ⟨trivial, trivial⟩

theorem completes_takeName (ih : TakesSources s visit fuel) (he : w.files.entries dir = .ok entries)
    (hw : (Entry.dir entries).WellFormed) (hd : depthOfAll entries ≤ fuel)
    (h : Completes (takeName s visit fuel dir acc name) w result w') :
    Completes ((filesAt s dir entries name).foldlM visit acc) w result w' := by
  unfold Completes at h
  rcases takeName_cases he name with
    ⟨e, hrun⟩ | ⟨hfiles, hrun⟩ | ⟨hfiles, hrun⟩ | ⟨sub, hl, hfiles, hrun⟩
  · rw [hrun] at h
    exact absurd h not_completes_fail
  · rw [hfiles]
    rwa [hrun] at h
  · rw [hrun] at h
    rw [hfiles]
    exact completes_bind_iff.2 ⟨result, w', h, completes_pure_iff.2 ⟨rfl, rfl⟩⟩
  · rw [hrun] at h
    rw [hfiles]
    exact ih.child he hw hd hl h

/-- The names are taken in a directory that changes: what each of them adds is decided at its turn,
and is what it added at the start. -/
theorem completes_takeNames (hv : KeepsOutline visit) (ih : TakesSources s visit fuel)
    (hw : (Entry.dir entries).WellFormed) (hd : depthOfAll entries ≤ fuel) {names : List String}
    (he : ∃ entries', w.files.entries dir = .ok entries' ∧
      outlineAll entries' = outlineAll entries)
    (h : Completes (names.foldlM (takeName s visit fuel dir) acc) w result w') :
    Completes ((names.flatMap (filesAt s dir entries)).foldlM visit acc) w result w' := by
  induction names generalizing acc w with
  | nil => exact h
  | cons name rest ih' =>
    rw [List.foldlM_cons] at h
    obtain ⟨a, w₁, hname, hrest⟩ := completes_bind_iff.1 h
    obtain ⟨entries', he', ho⟩ := he
    have hsame : (Entry.dir entries').outline = (Entry.dir entries).outline := by
      rw [Entry.outline, Entry.outline, ho]
    have hd' := Nat.le_trans (Nat.le_of_eq (depthOfAll_eq hsame)) hd
    have hfirst := completes_takeName ih he' (hw.of_outline_eq hsame) hd' hname
    rw [filesAt_of_outline_eq ho] at hfirst
    obtain ⟨entries'', he'', ho'⟩ := (hv.foldlM hfirst).exists_entries he'
    rw [List.flatMap_cons, List.foldlM_append]
    exact completes_bind_iff.2 ⟨a, w₁, hfirst, ih' ⟨entries'', he'', ho'.trans ho⟩ hrest⟩

theorem takesSources (hv : KeepsOutline visit) (fuel : Nat) : TakesSources s visit fuel := by
  -- By the depth of the directory: its fuel is enough for those in it.
  induction fuel with
  | zero =>
    intro acc dir w result w' entries he hw hd h
    rw [depth] at hd
    exact absurd hd (Nat.not_succ_le_zero _)
  | succ fuel ih =>
    intro acc dir w result w' entries he hw hd h
    rw [depth, Nat.succ_le_succ_iff] at hd
    rw [walk_succ] at h
    obtain ⟨names, w₁, hlist, h⟩ := completes_bind_iff.1 h
    obtain ⟨rfl, entries', he', rfl⟩ := completes_listing_iff.1 hlist
    obtain rfl : entries' = entries := Except.ok.inj (he'.symm.trans he)
    rw [sourcesBelow_eq_flatMap s dir hw]
    exact completes_takeNames hv ih hw hd ⟨entries', he, rfl⟩ h

/-- A walk that completes has visited the source files that were there at its start, in their
order. -/
theorem completes_forSourceFiles (hv : KeepsOutline visit) (hw : w.files.top.WellFormed)
    {root : Path} (h : Completes (forSourceFiles s visit acc root) w result w') :
    ∃ selected, sourceFiles w.files s root = .ok selected ∧
      selected.Pairwise (w.files.Apart · ·) ∧
        Completes (selected.foldlM visit acc) w result w' := by
  unfold forSourceFiles at h
  rw [completes_get_bind_iff] at h
  obtain ⟨entries, he⟩ := exists_entries_of_walk (Nat.succ_ne_zero _) h
  obtain ⟨names, hplace⟩ := FileTree.entries_eq_ok_iff.1 he
  have hfind := FileTree.find?_of_place hplace
  have hwell := hw.below hfind
  refine ⟨sourcesBelow s root entries, sourceFiles_eq he, pairwise_apart_sourcesBelow he hwell, ?_⟩
  exact takesSources hv _ he hwell (Nat.le_succ_of_le (depth_le_of_find? hfind)) h

end Action

end Recenter.Run
