import Recenter.Proofs.Run.Alone
import Recenter.Proofs.Run.Walk

/-! Steps of a run that fail, and what they leave behind. A run on one file fails only before it has
written anything, because the file cannot be read (`fails_centerFile`). A walk that fails has taken
the source files up to one of them, and then fails with it or with a directory that cannot be listed
(`fails_forSourceFiles`). -/

namespace Recenter.Run.Action

open Recenter.Files Recenter.Text Recenter.Banner Recenter.Config Entry

variable {α β : Type} {x : Action α} {g : α → Action β} {w w' w₁ : World} {a : α} {b : β}
  {f f' : Failure}

def Fails (x : Action α) (w : World) (f : Failure) (w' : World) : Prop :=
  x.run.run w = (.error f, w')

theorem Fails.of_run (h : (x.run.run w).1 = .error f) : Fails x w f (x.run.run w).2 :=
  Prod.ext h rfl

theorem Completes.not_fails (h : Completes x w a w₁) : ¬ Fails x w f w' := by
  intro hf
  rw [Fails, h] at hf
  cases hf

theorem Fails.unique (h : Fails x w f w') (h' : Fails x w f' w₁) : f' = f ∧ w₁ = w' := by
  rw [Fails, h] at h'
  cases h'
  exact ⟨rfl, rfl⟩

theorem fails_fail_iff : Fails (fail f : Action α) w f' w' ↔ f' = f ∧ w' = w := by
  constructor
  · intro h
    cases h
    exact ⟨rfl, rfl⟩
  · intro hx
    obtain ⟨rfl, rfl⟩ := hx
    rfl

theorem not_fails_pure : ¬ Fails (pure a) w f w' := nofun

theorem fails_bind_iff :
    Fails (x >>= g) w f w' ↔
      Fails x w f w' ∨ ∃ a w₁, Completes x w a w₁ ∧ Fails (g a) w₁ f w' := by
  unfold Fails Completes
  rw [run_bind]
  rcases x.run.run w with ⟨e | a, w₁⟩
  · constructor
    · intro h
      cases h
      exact .inl rfl
    · intro hx
      rcases hx with h | ⟨_, _, ⟨⟩, -⟩
      cases h
      rfl
  · constructor
    · intro h
      exact .inr ⟨a, w₁, rfl, h⟩
    · intro hx
      rcases hx with h | ⟨_, _, ⟨⟩, h⟩
      · cases h
      · exact h

theorem Fails.bind (h : Fails x w f w') : Fails (x >>= g) w f w' := fails_bind_iff.2 (.inl h)

theorem fails_get_bind_iff {g : World → Action α} :
    Fails (get >>= g) w f w' ↔ Fails (g w) w f w' := by
  rw [fails_bind_iff]
  constructor
  · intro hx
    rcases hx with h | ⟨_, _, ⟨⟩, h⟩
    · cases h
    · exact h
  · intro h
    exact .inr ⟨w, w, rfl, h⟩

/-! ## One file -/

variable {path : Path} {name : String} {encoding : Codec.Encoding} {files : FileTree}

/-- Why the lines of a file cannot be read: the path leads to no file, or its octets are no text. -/
inductive Unreadable (encoding : Codec.Encoding) (files : FileTree) (path : Path) : Failure → Prop
  | access {e : AccessError} (h : files.read path = .error e) :
    Unreadable encoding files path (.access e path)
  | decoding {octets : List UInt8} {e : Codec.DecodeError} (h : files.read path = .ok octets)
    (hd : encoding.decode octets = .error e) : Unreadable encoding files path (.decoding e)

theorem readable_or_unreadable (encoding : Codec.Encoding) (files : FileTree) (path : Path) :
    (∃ octets text, files.read path = .ok octets ∧ encoding.decode octets = .ok text) ∨
      ∃ f, Unreadable encoding files path f := by
  cases h : files.read path with
  | error e => exact .inr ⟨_, .access h⟩
  | ok octets =>
    cases hd : encoding.decode octets with
    | error e => exact .inr ⟨_, .decoding h hd⟩
    | ok text => exact .inl ⟨octets, text, rfl, hd⟩

theorem Unreadable.fails_readLines (h : Unreadable encoding w.files path f)
    (he : Codec.Encoding.ofFileName name = .ok encoding) : Fails (readLines path name) w f w := by
  unfold readLines
  cases h with
  | access h =>
    refine Fails.bind ?_
    unfold openWith
    rw [he]
    refine Fails.bind ?_
    unfold readOctets
    rw [fails_get_bind_iff, h]
    exact fails_fail_iff.2 ⟨rfl, rfl⟩
  | decoding h hd =>
    have hopen := completes_openWith_iff.2 ⟨he, completes_readOctets_iff.2 ⟨rfl, h⟩⟩
    refine fails_bind_iff.2 (.inr ⟨_, w, hopen, ?_⟩)
    simp only [hd]
    exact fails_fail_iff.2 ⟨rfl, rfl⟩

variable {settings : Settings} {reporter : Reporter}

/-- A run on a file fails only where the file cannot be read at its start, and changes nothing. -/
theorem fails_centerFile {token : Section.Token}
    (he : Codec.Encoding.ofFileName settings.encoding = .ok encoding)
    (ht : Section.Token.ofList? settings.lineComment.toList = some token)
    (h : Fails (centerFile path settings reporter) w f w') :
    w' = w ∧ Unreadable encoding w.files path f := by
  rcases readable_or_unreadable encoding w.files path with ⟨octets, text, hr, hd⟩ | ⟨f', hf⟩
  · obtain ⟨octets', hcenters⟩ := exists_centers he ht hd
    obtain ⟨w₁, hrun, -⟩ := hcenters.exists_centerFile hr reporter
    exact absurd h hrun.not_fails
  · have hregion : Fails (regionPass path settings.borders settings.encoding) w f' w :=
      (hf.fails_readLines he).bind
    have hrun : Fails (centerFile path settings reporter) w f' w := hregion.bind
    obtain ⟨rfl, rfl⟩ := h.unique hrun
    exact ⟨rfl, hf⟩

/-! ## A walk -/

variable {σ : Type} {s : Selection} {visit : σ → Path → Action σ} {acc acc' : σ} {dir : Path}
  {entries sub : List (String × Entry)} {fuel : Nat} {paths more : List Path}

/-- The visits of the first of the paths have completed. Then the visit of the next one has failed,
or some path could not be used to go on. -/
def BreaksOff (visit : σ → Path → Action σ) (paths : List Path) (acc : σ) (w : World) (f : Failure)
    (w' : World) : Prop :=
  ∃ before after acc' w₁, paths = before ++ after ∧
    Completes (before.foldlM visit acc) w acc' w₁ ∧
    ((∃ path rest, after = path :: rest ∧ Fails (visit acc' path) w₁ f w') ∨
      (w' = w₁ ∧ ∃ e q, f = .access e q))

theorem BreaksOff.append (h : BreaksOff visit paths acc w f w') (more : List Path) :
    BreaksOff visit (paths ++ more) acc w f w' := by
  obtain ⟨before, after, acc', w₁, rfl, hrun, hend⟩ := h
  refine ⟨before, after ++ more, acc', w₁, List.append_assoc .., hrun, hend.imp_left ?_⟩
  intro hx
  obtain ⟨path, rest, rfl, hfail⟩ := hx
  exact ⟨path, rest ++ more, rfl, hfail⟩

theorem BreaksOff.prepend (h : BreaksOff visit more acc' w₁ f w')
    (hrun : Completes (paths.foldlM visit acc) w acc' w₁) :
    BreaksOff visit (paths ++ more) acc w f w' := by
  obtain ⟨before, after, acc'', w₂, rfl, hrun', hend⟩ := h
  refine ⟨paths ++ before, after, acc'', w₂, (List.append_assoc ..).symm, ?_, hend⟩
  rw [List.foldlM_append]
  exact completes_bind_iff.2 ⟨acc', w₁, hrun, hrun'⟩

theorem breaksOff_of_fails {path : Path} (h : Fails (visit acc path) w f w') :
    BreaksOff visit [path] acc w f w' :=
  ⟨[], [path], acc, w, rfl, completes_pure_iff.2 ⟨rfl, rfl⟩, .inl ⟨path, [], rfl, h⟩⟩

theorem breaksOff_of_access (e : AccessError) (path : Path) :
    BreaksOff visit paths acc w (.access e path) w :=
  ⟨[], paths, acc, w, rfl, completes_pure_iff.2 ⟨rfl, rfl⟩, .inr ⟨rfl, e, path, rfl⟩⟩

theorem fails_listing {e : AccessError} (h : w.files.entries dir = .error e) :
    Fails (listing dir) w (.access e dir) w := by
  unfold listing
  rw [fails_get_bind_iff, h]
  exact fails_fail_iff.2 ⟨rfl, rfl⟩

/-- A walk with this fuel that fails breaks off among the source files of its directory. -/
def BreaksOffSources (s : Selection) (visit : σ → Path → Action σ) (fuel : Nat) : Prop :=
  ∀ {acc dir w f w' entries}, w.files.entries dir = .ok entries →
    (Entry.dir entries).WellFormed → depth (.dir entries) ≤ fuel →
      Fails (walk s visit fuel acc dir) w f w' →
        BreaksOff visit (sourcesBelow s dir entries) acc w f w'

theorem BreaksOffSources.child (ih : BreaksOffSources s visit fuel)
    (he : w.files.entries dir = .ok entries) (hw : (Entry.dir entries).WellFormed)
    (hd : depthOfAll entries ≤ fuel) (hl : entries.lookup name = some (.dir sub))
    (h : Fails (walk s visit fuel acc (dir.child name)) w f w') :
    BreaksOff visit (sourcesBelow s (dir.child name) sub) acc w f w' := by
  have hdepth := Nat.le_trans (depth_le_of_mem (mem_of_lookup hl)) hd
  cases he' : w.files.entries (dir.child name) with
  | ok sub' =>
    obtain rfl := FileTree.entries_child he hw hl he'
    exact ih he' (hw.entry (mem_of_lookup hl)).2.1 hdepth h
  | error e =>
    obtain ⟨fuel, rfl⟩ : ∃ n, fuel = n + 1 := by
      rw [depth] at hdepth
      exact Nat.exists_eq_succ_of_ne_zero (by omega)
    rw [walk_succ] at h
    obtain ⟨rfl, rfl⟩ := h.unique (fails_listing he').bind
    exact breaksOff_of_access e _

theorem fails_takeName (ih : BreaksOffSources s visit fuel)
    (he : w.files.entries dir = .ok entries) (hw : (Entry.dir entries).WellFormed)
    (hd : depthOfAll entries ≤ fuel) (h : Fails (takeName s visit fuel dir acc name) w f w') :
    BreaksOff visit (filesAt s dir entries name) acc w f w' := by
  unfold Fails at h
  rcases takeName_cases he name with
    ⟨e, hrun⟩ | ⟨-, hrun⟩ | ⟨hfiles, hrun⟩ | ⟨sub, hl, hfiles, hrun⟩
  · rw [hrun] at h
    obtain ⟨rfl, rfl⟩ := fails_fail_iff.1 h
    exact breaksOff_of_access e _
  · rw [hrun] at h
    exact absurd h not_fails_pure
  · rw [hrun] at h
    rw [hfiles]
    exact breaksOff_of_fails h
  · rw [hrun] at h
    rw [hfiles]
    exact ih.child he hw hd hl h

theorem fails_takeNames (hv : KeepsOutline visit) (ih : BreaksOffSources s visit fuel)
    (hw : (Entry.dir entries).WellFormed) (hd : depthOfAll entries ≤ fuel) {names : List String}
    (he : ∃ entries', w.files.entries dir = .ok entries' ∧
      outlineAll entries' = outlineAll entries)
    (h : Fails (names.foldlM (takeName s visit fuel dir) acc) w f w') :
    BreaksOff visit (names.flatMap (filesAt s dir entries)) acc w f w' := by
  -- By the names: those in front of the one that fails have been taken as in a walk that completes.
  induction names generalizing acc w with
  | nil => exact absurd h not_fails_pure
  | cons name rest ih' =>
    rw [List.foldlM_cons, fails_bind_iff] at h
    obtain ⟨entries', he', ho⟩ := he
    have hsame : (Entry.dir entries').outline = (Entry.dir entries).outline := by
      rw [Entry.outline, Entry.outline, ho]
    have hw' := hw.of_outline_eq hsame
    have hd' := Nat.le_trans (Nat.le_of_eq (depthOfAll_eq hsame)) hd
    rw [List.flatMap_cons, ← filesAt_of_outline_eq ho]
    rcases h with hfirst | ⟨acc', w₁, hfirst, hrest⟩
    · exact (fails_takeName ih he' hw' hd' hfirst).append _
    · have hdone := completes_takeName (takesSources hv fuel) he' hw' hd' hfirst
      obtain ⟨entries'', he'', ho'⟩ := (hv.foldlM hdone).exists_entries he'
      exact (ih' ⟨entries'', he'', ho'.trans ho⟩ hrest).prepend hdone

theorem breaksOffSources (hv : KeepsOutline visit) (fuel : Nat) :
    BreaksOffSources s visit fuel := by
  induction fuel with
  | zero =>
    intro acc dir w f w' entries he hw hd h
    exact absurd h not_fails_pure
  | succ fuel ih =>
    intro acc dir w f w' entries he hw hd h
    rw [depth, Nat.succ_le_succ_iff] at hd
    rw [walk_succ, fails_bind_iff] at h
    have hlist := completes_listing_iff.2 ⟨rfl, entries, he, rfl⟩
    rcases h with h | ⟨names, w₁, hlist', h⟩
    · exact absurd h hlist.not_fails
    · obtain ⟨rfl, entries', he', rfl⟩ := completes_listing_iff.1 hlist'
      obtain rfl : entries' = entries := Except.ok.inj (he'.symm.trans he)
      rw [sourcesBelow_eq_flatMap s dir hw]
      exact fails_takeNames hv ih hw hd ⟨entries', he, rfl⟩ h

/-- A walk that fails could not list its root, or breaks off among the source files that were there
at its start. -/
theorem fails_forSourceFiles (hv : KeepsOutline visit) (hw : w.files.top.WellFormed) {root : Path}
    (h : Fails (forSourceFiles s visit acc root) w f w') :
    (∃ e, w.files.entries root = .error e ∧ f = .access e root ∧ w' = w) ∨
      ∃ selected, sourceFiles w.files s root = .ok selected ∧
        selected.Pairwise (w.files.Apart · ·) ∧ BreaksOff visit selected acc w f w' := by
  unfold forSourceFiles at h
  rw [fails_get_bind_iff] at h
  cases he : w.files.entries root with
  | error e =>
    rw [walk_succ] at h
    obtain ⟨rfl, rfl⟩ := h.unique (fails_listing he).bind
    exact .inl ⟨e, rfl, rfl, rfl⟩
  | ok entries =>
    obtain ⟨names, hplace⟩ := FileTree.entries_eq_ok_iff.1 he
    have hfind := FileTree.find?_of_place hplace
    have hwell := hw.below hfind
    refine .inr ⟨sourcesBelow s root entries, sourceFiles_eq he,
      pairwise_apart_sourcesBelow he hwell, ?_⟩
    exact breaksOffSources hv _ he hwell (Nat.le_succ_of_le (depth_le_of_find? hfind)) h

end Recenter.Run.Action
