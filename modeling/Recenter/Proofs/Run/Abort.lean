import Recenter.Proofs.Config.Loaded
import Recenter.Proofs.Run.Failing
import Recenter.Proofs.Run.Pointwise

/-! A run on a tree that fails. With settings that have been loaded nothing can go wrong with a file
but reading it, and it is read before it is written. So a run that fails has done all of its work on
the files in front of one, and none on that file and those behind it
(`centerTree_breaks_off`). -/

namespace Recenter.Run.Action

open Recenter.Files Recenter.Banner Recenter.Config

variable {w w' w₁ : World} {path : Path} {settings : Settings} {reporter : Reporter} {c : Context}
  {report : Report} {visits : List Update} {f : Failure} {encoding : Codec.Encoding}
  {token : Section.Token}

theorem not_fails_log {level : Level} {component action : String}
    {fields : List (String × Json)} : ¬ Fails (log c level component action fields) w f w' := by
  unfold log
  split
  · nofun
  · nofun

/-- A visit fails where the file cannot be centered, and it has logged the scan before that. -/
theorem fails_centerFile_of_centerNext
    (h : Fails (centerNext c settings reporter report path) w f w') :
    Fails (centerFile path settings reporter) (logged c [scanEvent path] w) f w' := by
  unfold centerNext at h
  rcases fails_bind_iff.1 h with h | ⟨_, w₁, hscan, h⟩
  · exact absurd h not_fails_log
  rcases fails_bind_iff.1 h with h | ⟨passes, w₂, -, h⟩
  · rw [completes_log hscan] at h
    exact h
  · -- The file has been centered, and what is left to do cannot fail.
    simp only at h
    split at h
    · exact absurd h not_fails_pure
    rcases fails_bind_iff.1 h with h | ⟨_, _, -, h⟩
    · exact absurd h not_fails_log
    · exact absurd h not_fails_pure

/-- A visit that fails could not read its file, and has changed none. -/
theorem fails_centerNext (he : Codec.Encoding.ofFileName settings.encoding = .ok encoding)
    (ht : Section.Token.ofList? settings.lineComment.toList = some token)
    (h : Fails (centerNext c settings reporter report path) w f w') :
    w'.files = w.files ∧ w'.announced = w.announced ∧ Unreadable encoding w.files path f := by
  obtain ⟨rfl, hunreadable⟩ := fails_centerFile he ht (fails_centerFile_of_centerNext h)
  exact ⟨rfl, rfl, hunreadable⟩

/-- What the visits have done holds of every world with the same files and announcements. -/
theorem Pointwise.of_eq (h : Pointwise settings reporter w visits w₁) (hf : w'.files = w₁.files)
    (ha : w'.announced = w₁.announced) : Pointwise settings reporter w visits w' := by
  have hmore := h.append (Pointwise.nil hf ha) nofun
  rwa [List.append_nil] at hmore

/-- A run on a tree that fails has made the first visits of the selection, and fails with the next
file, or because a path could not be used. -/
theorem AddsUp.exists_of_fails {R : World → List Update → World → Prop}
    (hR : AddsUp c settings reporter R) (hw : w.files.top.WellFormed)
    (h : Fails (centerTree c settings reporter) w f w') :
    ∃ visits w₁, R w visits w₁ ∧
      (∀ selected, sourceFiles w.files (selection settings) c.root = .ok selected →
        visits.map Update.path <+: selected ∧ selected.Pairwise (w.files.Apart · ·)) ∧
      ((∃ path after report, sourceFiles w.files (selection settings) c.root =
          .ok (visits.map Update.path ++ path :: after) ∧
        Fails (centerNext c settings reporter report path) w₁ f w') ∨
      (w' = w₁ ∧ ∃ e q, f = .access e q)) := by
  rcases fails_forSourceFiles keepsOutline_centerNext hw h with ⟨e, hroot, rfl, rfl⟩ |
    ⟨selected, hselected, hp, before, after, report, w₁, rfl, hrun, hend⟩
  · refine ⟨[], _, hR.nil _, fun selected hs => ?_, .inr ⟨rfl, e, c.root, rfl⟩⟩
    rw [sourceFiles, hroot] at hs
    cases hs
  obtain ⟨visits, rfl, hvisits, -⟩ := hR.completes_foldlM (List.pairwise_append.1 hp).1 hrun
  refine ⟨visits, w₁, hvisits, fun selected hs => ?_, ?_⟩
  · obtain rfl := Except.ok.inj (hselected.symm.trans hs)
    exact ⟨List.prefix_append _ _, hp⟩
  · rcases hend with ⟨path, rest, rfl, hfail⟩ | hend
    · exact .inl ⟨path, rest, report, hselected, hfail⟩
    · exact .inr hend

/-- A run on a tree that fails has centered the first files of the selection, and nothing else has
changed. It fails with the next one, whose octets are no text, or because a path could not be
used. -/
theorem exists_pointwise_of_fails (he : Codec.Encoding.ofFileName settings.encoding = .ok encoding)
    (ht : Section.Token.ofList? settings.lineComment.toList = some token)
    (hw : w.files.top.WellFormed) (h : Fails (centerTree c settings reporter) w f w') :
    ∃ visits, Pointwise settings reporter w visits w' ∧
      (∀ selected, sourceFiles w.files (selection settings) c.root = .ok selected →
        visits.map Update.path <+: selected ∧ selected.Pairwise (w.files.Apart · ·)) ∧
      ((∃ p after octets e, sourceFiles w.files (selection settings) c.root =
          .ok (visits.map Update.path ++ p :: after) ∧
        w.files.read p = .ok octets ∧ encoding.decode octets = .error e ∧ f = .decoding e) ∨
      ∃ e q, f = .access e q) := by
  obtain ⟨visits, w₁, hpointwise, hfirst, hend⟩ := addsUp_pointwise.exists_of_fails hw h
  rcases hend with ⟨p, after, report, hselected, hfail⟩ | ⟨rfl, haccess⟩
  · obtain ⟨hf, ha, hunreadable⟩ := fails_centerNext he ht hfail
    refine ⟨visits, hpointwise.of_eq hf ha, hfirst, ?_⟩
    cases hunreadable with
    | access _ => exact .inr ⟨_, p, rfl⟩
    | decoding hr hd =>
      -- The visits have left the file as it was at the start of the run.
      have hp := (hfirst _ hselected).2
      have hapart : ∀ visit ∈ visits, w.files.Apart visit.path p := fun visit hm =>
        (List.pairwise_append.1 hp).2.2 _ (List.mem_map_of_mem hm) p (by simp)
      exact .inl ⟨p, after, _, _, hselected, (hpointwise.read_eq_ok_iff hapart).1 hr, hd, rfl⟩
  · exact ⟨visits, hpointwise, hfirst, .inr haccess⟩

variable {files : FileTree} {configPath : Option Path} {loaded : Settings}
  {endings excluded : List String} {text : Path → String}

/-- A run on a tree with loaded settings fails only because the octets of a selected file are no
text in the encoding, or a path could not be used. The files in front of that one then hold what a
run on their first octets gives anywhere else, and each has been announced once for each pass that
changed it. That file, those behind it and all others hold their first octets. -/
theorem centerTree_breaks_off (hload : Config.load files configPath = .ok loaded)
    (hw : w.files.top.WellFormed)
    (h : Fails (centerTree c (loaded.override endings excluded) (some text)) w f w') :
    ∃ visits, Pointwise (loaded.override endings excluded) (some text) w visits w' ∧
      w'.announced = w.announced ++
        visits.flatMap (fun visit => List.replicate visit.passes.length visit.path) ∧
      (∀ selected, sourceFiles w.files (selection (loaded.override endings excluded)) c.root =
        .ok selected → visits.map Update.path <+: selected) ∧
      ((∃ p after encoding octets e, f = .decoding e ∧
        sourceFiles w.files (selection (loaded.override endings excluded)) c.root =
          .ok (visits.map Update.path ++ p :: after) ∧
        Codec.Encoding.ofFileName loaded.encoding = .ok encoding ∧
        w.files.read p = .ok octets ∧ encoding.decode octets = .error e ∧
        (∀ visit ∈ visits, visit.path ≠ p) ∧
        ∀ q ∈ p :: after, ∀ octets, w'.files.read q = .ok octets ↔ w.files.read q = .ok octets) ∨
      ∃ e q, f = .access e q) := by
  obtain ⟨⟨token, ht⟩, ⟨encoding, he⟩⟩ := (usable_of_load hload).override endings excluded
  obtain ⟨visits, hpointwise, hselected, hend⟩ := exists_pointwise_of_fails he ht hw h
  refine ⟨visits, hpointwise, ?_, fun selected hs => (hselected selected hs).1, ?_⟩
  · rw [hpointwise.announced, announcements_some]
  rcases hend with ⟨p, after, octets, e, hs, hr, hd, rfl⟩ | hend
  · have hapart : ∀ visit ∈ visits, ∀ q ∈ p :: after, w.files.Apart visit.path q :=
      fun visit hm q hq =>
        (List.pairwise_append.1 (hselected _ hs).2).2.2 _ (List.mem_map_of_mem hm) q hq
    refine .inl ⟨p, after, encoding, octets, e, rfl, hs, he, hr, hd, ?_, ?_⟩
    · intro visit hm heq
      obtain ⟨names, hp⟩ := FileTree.read_eq_ok_iff.1 hr
      have hl : w.files.Leads p names := ⟨octets, hp⟩
      exact hapart visit hm p (by simp) names (heq ▸ hl) hl
    · exact fun q hq octets =>
        hpointwise.read_eq_ok_iff fun visit hm => hapart visit hm q hq
  · exact .inr hend

/-! ## A tree with octets that are no text -/

/-- Two banners off center, and between them a file that is not UTF-8. -/
def brokenTree : World :=
  let banner := Codec.Utf8.encode "// - d --- //".toList
  { files := ⟨.dir [("c.ts", .file banner), ("b.ts", .file [0xFF]), ("a.ts", .file banner)], []⟩ }

theorem centerTree_breaks_off_brokenTree :
    let c : Context :=
      { runId := "", root := ⟨0, []⟩, outputFormat := "text", verbose := false, quiet := false,
        logJson := false, now := ⟨⟨2001, 1, 1⟩, 0, 0, 0, 0, none⟩ }
    let settings := Settings.override {} [] []
    let f : Failure := .decoding (.malformed "utf-8" 0xFF 0 1 .startByte)
    Config.load brokenTree.files none = .ok {} ∧ brokenTree.files.top.WellFormed ∧
      ∃ w' visits p after, Fails (centerTree c settings (some updatedLine)) brokenTree f w' ∧
        Pointwise settings (some updatedLine) brokenTree visits w' ∧
        sourceFiles brokenTree.files (selection settings) c.root =
          .ok (visits.map Update.path ++ p :: after) ∧
        w'.announced = [⟨0, ["a.ts"]⟩] ∧
        ∀ q ∈ p :: after, ∀ octets,
          w'.files.read q = .ok octets ↔ brokenTree.files.read q = .ok octets := by
  intro c settings f
  have hwell : brokenTree.files.top.WellFormed := by decide
  have hrun : ((centerTree c settings (some updatedLine)).run.run brokenTree).1 = .error f := by
    cbv
  have hannounced : ((centerTree c settings (some updatedLine)).run.run brokenTree).2.announced =
      [⟨0, ["a.ts"]⟩] := by cbv
  have hfails : Fails (centerTree c settings (some updatedLine)) brokenTree f
      ((centerTree c settings (some updatedLine)).run.run brokenTree).2 := Prod.ext hrun rfl
  have hload : Config.load brokenTree.files none = .ok {} := rfl
  obtain ⟨visits, hpointwise, -, -, hend⟩ := centerTree_breaks_off hload hwell hfails
  rcases hend with ⟨p, after, _, _, _, -, hselected, -, -, -, -, hread⟩ | ⟨e, q, he⟩
  · exact ⟨hload, hwell, _, visits, p, after, hfails, hpointwise, hselected, hannounced, hread⟩
  · simp [f] at he

end Recenter.Run.Action
