import Recenter.Proofs.CommandLine.Ends
import Recenter.Proofs.Files.Filtered
import Recenter.Proofs.Run.Walk

/-! Endings and excluded names on the command line. A walk asks of them only which names they
admit, so their order does not matter to it (`walk_congr`, `centerTree_congr`), and what is given
besides the configuration narrows or widens the walk as a filter does. -/

namespace Recenter

open Recenter.Files Recenter.Run Recenter.Config

namespace Files.Selection

variable {s s' : Selection} {endings excluded endings' excluded' : List String}

/-- Two selections admit the same names. -/
structure Alike (s s' : Selection) : Prop where
  takesFile_eq : ∀ name, s'.takesFile name = s.takesFile name
  entersDir_eq : ∀ name, s'.entersDir name = s.entersDir name

theorem alike_of_mem_iff (he : ∀ ending, ending ∈ endings' ↔ ending ∈ endings)
    (hx : ∀ name, name ∈ excluded' ↔ name ∈ excluded) :
    Alike ⟨endings, excluded⟩ ⟨endings', excluded'⟩ where
  takesFile_eq name := by
    rw [Bool.eq_iff_iff]
    simp only [takesFile_iff, he]
  entersDir_eq name := by
    rw [Bool.eq_iff_iff]
    simp only [entersDir_iff, hx]

theorem Alike.sourceFiles_eq {t : FileTree} (h : Alike s s') (hw : t.top.WellFormed)
    (root : Path) : sourceFiles t s' root = sourceFiles t s root := by
  rw [sourceFiles_eq_filter hw, sourceFiles_eq_filter hw s]
  have htakes : s'.takes root = s.takes root := by
    funext p
    simp only [takes, h.takesFile_eq, funext h.entersDir_eq]
  rw [htakes]

end Files.Selection

namespace Run.Action

variable {σ : Type} {s s' : Selection} {c : Context} {reporter : Reporter}

theorem walk_congr (h : s.Alike s') (visit : σ → Path → Action σ) (fuel : Nat) :
    walk s' visit fuel = walk s visit fuel := by
  induction fuel with
  | zero => rfl
  | succ fuel ih =>
    funext acc dir
    have hstep : takeName s' visit fuel dir = takeName s visit fuel dir := by
      funext acc name
      simp only [takeName, ih, h.takesFile_eq, h.entersDir_eq]
    rw [walk_succ, walk_succ, hstep]

/-- Runs with settings that differ in their endings and excluded names do the same where these
admit the same names. -/
theorem centerTree_congr {settings settings' : Settings}
    (h : (selection settings).Alike (selection settings'))
    (hs : settings' = { settings with
      extensions := settings'.extensions, excludeDirs := settings'.excludeDirs }) :
    centerTree c settings' reporter = centerTree c settings reporter := by
  have hvisit : centerNext c settings' reporter = centerNext c settings reporter := by
    rw [hs]
    rfl
  simp only [centerTree, forSourceFiles, hvisit, walk_congr h]

end Run.Action

namespace CommandLine

variable {a a' : Arguments} {vars : Variables} {files : FileTree} {s : Settings}

/-- The same arguments, with their endings and excluded names in another order. -/
structure Arguments.Reordered (a a' : Arguments) : Prop where
  endings_perm : a'.endings.Perm a.endings
  excluded_perm : a'.excluded.Perm a.excluded
  rest_eq : a' = { a with endings := a'.endings, excluded := a'.excluded }

theorem exists_perm_of_map_some {values : List (Option String)} {texts : List String}
    (h : values.Perm (texts.map some)) :
    ∃ texts' : List String, values = texts'.map some ∧ texts'.Perm texts := by
  exact (congrFun₂ (List.eq_map_comp_perm some) values texts).mpr h

theorem alike_override {endings endings' excluded excluded' : List String}
    (he : endings'.Perm endings) (hx : excluded'.Perm excluded) (s : Settings) :
    (selection (s.override endings excluded)).Alike
      (selection (s.override endings' excluded')) := by
  refine Selection.alike_of_mem_iff (fun ending => ?_) fun name => ?_
  · simp only [Settings.override, he.isEmpty_eq]
    split
    · rfl
    · exact he.mem_iff
  · simp only [Settings.override, List.mem_append, hx.mem_iff]

theorem settings_reordered (h : a.Reordered a') (hs : settings a vars files = .ok s) :
    ∃ s', settings a' vars files = .ok s' ∧ (selection s).Alike (selection s') ∧
      s' = { s with extensions := s'.extensions, excludeDirs := s'.excludeDirs } := by
  obtain ⟨loaded, endings, excluded, hl, he, hx, rfl⟩ := settings_eq_ok_iff.1 hs
  obtain ⟨endings', he', hpe⟩ := exists_perm_of_map_some (he ▸ h.endings_perm)
  obtain ⟨excluded', hx', hpx⟩ := exists_perm_of_map_some (hx ▸ h.excluded_perm)
  have hl' : Config.load files (configPath a' vars) = .ok loaded := by
    rw [h.rest_eq]
    exact hl
  exact ⟨_, settings_eq_ok_iff.2 ⟨loaded, endings', excluded', hl', he', hx', rfl⟩,
    alike_override hpe hpx loaded, rfl⟩

/-- Names that are excluded besides come to settings with these names on top. -/
theorem settings_excluding (hs : settings a vars files = .ok s) (more : List String) :
    settings { a with excluded := a.excluded ++ more.map some } vars files =
      .ok { s with excludeDirs := s.excludeDirs ++ more } := by
  obtain ⟨loaded, endings, excluded, hl, he, hx, rfl⟩ := settings_eq_ok_iff.1 hs
  refine settings_eq_ok_iff.2 ⟨loaded, endings, excluded ++ more, hl, he, ?_, ?_⟩
  · rw [hx, List.map_append]
  · simp [Settings.override]

/-- Excluded names and endings are filters on a walk. More excluded names take out the files that
pass a directory of such a name below the root, and nothing else; two lists of endings in one take
what either takes, each file once and in the same order. So what is excluded on the command line
only takes files out, and in whatever order endings and excluded names are given, the same files are
centered in the same order. -/
theorem overrides_are_filters {t : FileTree} (hw : t.top.WellFormed) (root : Path) :
    (∀ endings excluded more, sourceFiles t ⟨endings, excluded ++ more⟩ root =
      List.filter (fun p => decide (∀ name ∈ root.dirsBelow p, name ∉ more)) <$>
        sourceFiles t ⟨endings, excluded⟩ root) ∧
    (∀ endings endings' excluded,
      (∀ e, sourceFiles t ⟨endings ++ endings', excluded⟩ root = .error e →
        sourceFiles t ⟨endings, excluded⟩ root = .error e ∧
          sourceFiles t ⟨endings', excluded⟩ root = .error e) ∧
      ∀ merged, sourceFiles t ⟨endings ++ endings', excluded⟩ root = .ok merged →
        ∃ left right, sourceFiles t ⟨endings, excluded⟩ root = .ok left ∧
          sourceFiles t ⟨endings', excluded⟩ root = .ok right ∧ IsMerge left right merged) ∧
    (∀ a vars files s, settings a vars files = .ok s → ∀ more : List String, ∃ s',
      settings { a with excluded := a.excluded ++ more.map some } vars files = .ok s' ∧
        sourceFiles t (selection s') root =
          List.filter (fun p => decide (∀ name ∈ root.dirsBelow p, name ∉ more)) <$>
            sourceFiles t (selection s) root) ∧
    ∀ a a' vars files s, a.Reordered a' → settings a vars files = .ok s → ∃ s',
      settings a' vars files = .ok s' ∧
        sourceFiles t (selection s') root = sourceFiles t (selection s) root ∧
          ∀ c reporter, Action.centerTree c s' reporter = Action.centerTree c s reporter := by
  refine ⟨fun endings excluded more => sourceFiles_exclude hw endings excluded more root,
    fun endings endings' excluded => ⟨fun e he => ?_, fun merged => isMerge_sourceFiles hw⟩,
    fun a vars files s hs more => ?_, fun a a' vars files s h hs => ?_⟩
  · have hleft := sourceFiles_endings hw (List.subset_append_left endings endings') excluded root
    have hright := sourceFiles_endings hw (List.subset_append_right endings endings') excluded root
    rw [he] at hleft hright
    exact ⟨hleft, hright⟩
  · exact ⟨_, settings_excluding hs more, sourceFiles_exclude hw _ _ more root⟩
  · obtain ⟨s', hs', halike, hrest⟩ := settings_reordered h hs
    exact ⟨s', hs', halike.sourceFiles_eq hw root, fun c reporter =>
      Action.centerTree_congr halike hrest⟩

/-- A walk that loses the files in `a` by one more name, one with two endings that some files have
both of, and two endings that are given in either order. -/
theorem overrides_are_filters_crossing :
    sourceFiles crossing ⟨[".t", "x"], ["o"] ++ ["a"]⟩ ⟨0, ["o"]⟩ = .ok [⟨0, ["o", "a.t"]⟩] ∧
      (∃ left right, sourceFiles crossing ⟨[".t"], ["o"]⟩ ⟨0, ["o"]⟩ = .ok left ∧
        sourceFiles crossing ⟨["t", "x"], ["o"]⟩ ⟨0, ["o"]⟩ = .ok right ∧ IsMerge left right
          [⟨0, ["o", "a", "bx"]⟩, ⟨0, ["o", "a", "o.t"]⟩, ⟨0, ["o", "a.t"]⟩]) ∧
      ∃ s', settings { endings := [some "x", some ".t"], excluded := [some "o"] } [] crossing =
          .ok s' ∧ sourceFiles crossing (selection s') ⟨0, ["o"]⟩ =
            .ok [⟨0, ["o", "a", "bx"]⟩, ⟨0, ["o", "a", "o.t"]⟩, ⟨0, ["o", "a.t"]⟩] := by
  have hw : crossing.top.WellFormed := by decide
  obtain ⟨hexclude, hmerge, -, hreorder⟩ := overrides_are_filters hw ⟨0, ["o"]⟩
  refine ⟨?_, (hmerge [".t"] ["t", "x"] ["o"]).2 _ (by cbv), ?_⟩
  · have hwalk : sourceFiles crossing ⟨[".t", "x"], ["o"]⟩ ⟨0, ["o"]⟩ =
        .ok [⟨0, ["o", "a", "bx"]⟩, ⟨0, ["o", "a", "o.t"]⟩, ⟨0, ["o", "a.t"]⟩] := by cbv
    rw [hexclude, hwalk]
    decide
  · have hreordered : Arguments.Reordered
        { endings := [some ".t", some "x"], excluded := [some "o"] }
        { endings := [some "x", some ".t"], excluded := [some "o"] } :=
      ⟨List.Perm.swap _ _ _, .refl _, rfl⟩
    obtain ⟨s', hs', hsame, -⟩ := hreorder _ _ [] crossing _ hreordered rfl
    refine ⟨s', hs', hsame.trans ?_⟩
    cbv

end CommandLine

end Recenter
