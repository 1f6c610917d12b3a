import Recenter.Proofs.Run.Alone
import Recenter.Proofs.Run.Report

/-! A run on a tree, file by file. Each visit leaves its file as a run on these octets leaves it
anywhere else, and touches nothing beside it (`completes_centerFile_pointwise`). Visits to different
files do not see each other (`Pointwise.append`), so although the walk looks at the tree between its
visits, a run is a map over the files that were selected at its start (`centerTree_pointwise`). -/

namespace Recenter.Run.Action

open Recenter.Files Recenter.Banner Recenter.Config

variable {w w' w₁ : World} {path : Path} {settings : Settings} {reporter : Reporter} {c : Context}
  {passes : List Pass} {visits more : List Update} {report : Report}
  {octets octets' : List UInt8}

/-- Wherever these octets are in a file, a run on the file completes with these passes and leaves
those octets. -/
def CentersAnywhere (settings : Settings) (octets : List UInt8) (passes : List Pass)
    (octets' : List UInt8) : Prop :=
  ∀ (w : World) (path : Path) (reporter : Reporter), w.files.read path = .ok octets →
    ∃ w', Completes (centerFile path settings reporter) w passes w' ∧
      w'.files.read path = .ok octets'

/-- Each of the visits has done to its file what a run does to those octets anywhere, and has
announced its passes; nothing else has changed. -/
structure Pointwise (settings : Settings) (reporter : Reporter) (w : World) (visits : List Update)
    (w' : World) : Prop where
  centered : ∀ visit ∈ visits, ∃ octets octets', w.files.read visit.path = .ok octets ∧
    CentersAnywhere settings octets visit.passes octets' ∧
    w'.files.read visit.path = .ok octets'
  outline : w.files.SameOutline w'.files
  unvisited : ∀ names octets, (∀ visit ∈ visits, ¬ w.files.Leads visit.path names) →
    w.files.top.find? names = some (.file octets) → w'.files.top.find? names = some (.file octets)
  announced : w'.announced = w.announced ++ announcements reporter visits

namespace Pointwise

theorem nil (hf : w'.files = w.files) (ha : w'.announced = w.announced) :
    Pointwise settings reporter w [] w' where
  centered := nofun
  outline := hf ▸ .refl _
  unvisited names octets _ h := hf ▸ h
  announced := by rw [ha, announcements, List.flatMap_nil, List.append_nil]

theorem of_logged {before : List Event}
    (h : Pointwise settings reporter (logged c before w) visits w₁) (after : List Event) :
    Pointwise settings reporter w visits (logged c after w₁) :=
  ⟨h.centered, h.outline, h.unvisited, h.announced⟩

/-- A path that leads to no visited file reads what it has read before. -/
theorem read_eq_ok_iff (h : Pointwise settings reporter w visits w')
    (hapart : ∀ visit ∈ visits, w.files.Apart visit.path path) :
    w'.files.read path = .ok octets ↔ w.files.read path = .ok octets := by
  have hkeep : ∀ octets, w.files.read path = .ok octets → w'.files.read path = .ok octets := by
    intro octets hr
    obtain ⟨names, hp⟩ := FileTree.read_eq_ok_iff.1 hr
    have hl : w.files.Leads path names := ⟨octets, hp⟩
    have hstay := h.unvisited names octets (fun visit hm hv => hapart visit hm names hv hl)
      (FileTree.find?_of_place hp)
    exact (h.outline.leads hl).read_eq_ok_iff.2 hstay
  constructor
  · intro hr'
    -- The path has led to a file before, and read there what it still reads.
    obtain ⟨names, hp'⟩ := FileTree.read_eq_ok_iff.1 hr'
    obtain ⟨octets₀, hp⟩ := h.outline.leads_iff.1 ⟨octets, hp'⟩
    have hr := FileTree.read_eq_ok_iff.2 ⟨names, hp⟩
    rwa [← Except.ok.inj ((hkeep octets₀ hr).symm.trans hr')]
  · exact hkeep octets

/-- Visits to other files come on top. -/
theorem append (h : Pointwise settings reporter w visits w₁)
    (h' : Pointwise settings reporter w₁ more w')
    (hapart : ∀ u ∈ visits, ∀ v ∈ more, w.files.Apart u.path v.path) :
    Pointwise settings reporter w (visits ++ more) w' where
  centered visit hm := by
    rcases List.mem_append.1 hm with hm | hm
    · obtain ⟨octets, octets', hr, hcenters, hr₁⟩ := h.centered visit hm
      refine ⟨octets, octets', hr, hcenters, (h'.read_eq_ok_iff fun v hv => ?_).2 hr₁⟩
      exact h.outline.apart_iff.2 (hapart visit hm v hv).symm
    · obtain ⟨octets, octets', hr, hcenters, hr'⟩ := h'.centered visit hm
      exact ⟨octets, octets', (h.read_eq_ok_iff fun u hu => hapart u hu visit hm).1 hr, hcenters,
        hr'⟩
  outline := h.outline.trans h'.outline
  unvisited names octets hnone hf := by
    have hfirst := h.unvisited names octets (fun u hu => hnone u (by simp [hu])) hf
    refine h'.unvisited names octets (fun v hv hl => ?_) hfirst
    exact hnone v (by simp [hv]) (h.outline.leads_iff.1 hl)
  announced := by
    rw [h'.announced, h.announced, announcements, announcements, announcements,
      List.flatMap_append, List.append_assoc]

end Pointwise

/-! ## One visit -/

theorem completes_centerFile_pointwise
    (h : Completes (centerFile path settings reporter) w passes w') :
    Pointwise settings reporter w [⟨path, passes⟩] w' := by
  obtain ⟨names, octets, octets', hp, hcenters, hf⟩ := completes_centerFile_centers h
  obtain ⟨token, lines, houtcome⟩ := completes_centerFile h
  have hl : w.files.Leads path names := ⟨octets, hp⟩
  have hold := FileTree.find?_of_place hp
  refine ⟨?_, ?_, ?_, ?_⟩
  · intro visit hm
    rw [List.mem_singleton.1 hm, hf]
    exact ⟨octets, octets', FileTree.read_eq_ok_iff.2 ⟨names, hp⟩,
      fun w path reporter hr => hcenters.exists_centerFile hr reporter, hl.read_rewrite octets'⟩
  · rw [hf]
    exact FileTree.sameOutline_rewrite hold octets'
  · intro other found hnone hother
    have hne : other ≠ names := fun he => hnone ⟨path, passes⟩ (by simp) (he ▸ hl)
    rw [hf, FileTree.find?_rewrite hold, if_neg hne]
    exact hother
  · rw [houtcome.announced, announcements, List.flatMap_singleton]

/-- Each visit does its part, and the others do not see it. -/
theorem addsUp_pointwise : AddsUp c settings reporter (Pointwise settings reporter) where
  nil _ := .nil rfl rfl
  append := .append
  visit h := by
    obtain ⟨passes, w₁, hfile, rfl, rfl⟩ := exists_centerFile_of_centerNext h
    exact ⟨passes, (completes_centerFile_pointwise hfile).of_logged _, rfl⟩

/-! ## All visits -/

/-- A run on a tree that completes has visited the files that were selected at its start, in their
order and none of them twice. Each of them ends with the octets that a run on its first octets gives
anywhere else, the report names the visits that have changed their files, and every other file, all
directories and all links are as they were. -/
theorem centerTree_pointwise (hw : w.files.top.WellFormed)
    (h : Completes (centerTree c settings reporter) w report w') :
    ∃ selected visits, sourceFiles w.files (selection settings) c.root = .ok selected ∧
      Completes (selected.foldlM (centerNext c settings reporter) { root := c.root }) w report w' ∧
      selected.Pairwise (w.files.Apart · ·) ∧ visits.map Update.path = selected ∧
      Pointwise settings reporter w visits w' ∧
      report = ⟨c.root, selected.length, changes visits⟩ := by
  obtain ⟨selected, hselected, hp, hrun⟩ := completes_forSourceFiles keepsOutline_centerNext hw h
  obtain ⟨visits, hvisits, hpointwise, rfl⟩ := addsUp_pointwise.completes_foldlM hp hrun
  refine ⟨selected, visits, hselected, hrun, hp, hvisits, hpointwise, ?_⟩
  rw [List.nil_append, Nat.zero_add]

/-! ## A tree with a link -/

/-- Below `r` a banner, another file in a directory, and a link that leads back to the first; beside
`r` a file that no walk from `r` comes to. -/
def linkedTree : World :=
  let file (text : String) : Entry := .file (Codec.Utf8.encode text.toList)
  { files := ⟨.dir [
      ("o.ts", file "// - d --- //"),
      ("r", .dir [
        ("b.ts", file "// - d --- //"),
        ("a", .dir [("c.ts", file "no banner"), ("l.ts", .link "../b.ts")])])], []⟩ }

theorem centerTree_pointwise_linkedTree :
    let c : Context :=
      { runId := "", root := ⟨0, ["r"]⟩, outputFormat := "text", verbose := false, quiet := false,
        logJson := false, now := ⟨⟨2001, 1, 1⟩, 0, 0, 0, 0, none⟩ }
    let settings : Settings := { regionStart := "<", regionEnd := ">" }
    linkedTree.files.top.WellFormed ∧
      ∃ report w' visits, Completes (centerTree c settings none) linkedTree report w' ∧
        sourceFiles linkedTree.files (selection settings) c.root =
          .ok (visits.map Update.path) ∧
        Pointwise settings none linkedTree visits w' ∧ visits.length = 2 ∧
        changes visits = [⟨⟨0, ["r", "b.ts"]⟩, [.sections]⟩] := by
  intro c settings
  have hwell : linkedTree.files.top.WellFormed := by decide
  have hrun : ((centerTree c settings none).run.run linkedTree).1 =
      .ok ⟨⟨0, ["r"]⟩, 2, [⟨⟨0, ["r", "b.ts"]⟩, [.sections]⟩]⟩ := by cbv
  have hcompletes : Completes (centerTree c settings none) linkedTree _ _ := Prod.ext hrun rfl
  obtain ⟨selected, visits, hselected, -, -, rfl, hpointwise, hreport⟩ :=
    centerTree_pointwise hwell hcompletes
  obtain ⟨-, hlength, hchanges⟩ := Report.mk.inj hreport
  exact ⟨hwell, _, _, visits, hcompletes, hselected, hpointwise, by simpa using hlength.symm,
    hchanges.symm⟩

end Recenter.Run.Action
