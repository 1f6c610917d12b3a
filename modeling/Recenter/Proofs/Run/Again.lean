import Recenter.Proofs.Run.Alone

/-! A second run on the same file. It changes nothing exactly if the first one has left every region
title in the middle and has met no section line that it would change twice
(`centerFile_again_iff`). Where a title is a section banner without spaces around its text, the
section pass widens it after the region pass has placed it, and the second run writes the file again
(`centerFile_again_writes`). -/

namespace Recenter.Run.Action

open Recenter.Files Recenter.Text Recenter.Banner Recenter.Config

variable {w w' : World} {path : Path} {settings : Settings} {reporter : Reporter}
  {passes : List Pass} {lines : List Line}

/-- A run on a file whose lines no pass changes leaves the world as it is. -/
theorem completes_centerFile_nil {token : Section.Token}
    (ht : Section.Token.ofList? settings.lineComment.toList = some token)
    (hr : Completes (readLines path settings.encoding) w lines w)
    (hnil : passesOn settings.borders token lines = []) :
    Completes (centerFile path settings reporter) w [] w := by
  have hround := (passesOn_eq_nil_iff (not_mem_of_readLines hr)).1 hnil
  obtain ⟨hregion, hsection⟩ := (round_eq_self_iff (not_mem_of_readLines hr)).1 hround
  rw [← region_eq_iff] at hregion
  rw [← section_eq_iff] at hsection
  have hfirst : Completes (reviseFile path settings.encoding (Region.centerLines settings.borders))
      w false w := completes_reviseFile_iff.2 ⟨lines, hr, by rw [hregion], by simp⟩
  have hsecond : Completes (reviseFile path settings.encoding (Section.centerLines token))
      w false w := completes_reviseFile_iff.2 ⟨lines, hr, by rw [hsection], by simp⟩
  unfold centerFile regionPass sectionPass
  simp only [ht]
  refine completes_bind_iff.2 ⟨false, w, hfirst, completes_bind_iff.2 ⟨false, w, hsecond, ?_⟩⟩
  exact completes_pure_iff.2 ⟨rfl, rfl⟩

/-- After a run, another one completes without a pass exactly if the lines of the first round are
those of a second one. -/
theorem Outcome.again_iff {token : Section.Token}
    (h : Outcome path settings reporter w passes w' token lines) :
    Completes (centerFile path settings reporter) w' [] w' ↔
      round settings.borders token (round settings.borders token lines) =
        round settings.borders token lines := by
  rw [← passesOn_eq_nil_iff (not_mem_of_readLines h.after)]
  constructor
  · intro hagain
    obtain ⟨token', lines', h'⟩ := completes_centerFile hagain
    obtain rfl := Option.some.inj (h.token_eq.symm.trans h'.token_eq)
    rw [completes_readLines_unique h.after h'.before]
    exact h'.passes_eq.symm
  · exact completes_centerFile_nil h.token_eq h.after

/-- After a run on a file, a second one writes nothing exactly if the first has left every region
title in the middle, and the section pass has met no gap between two single dashes that ends in
another blank than a space. -/
theorem centerFile_again_iff (h : Completes (centerFile path settings reporter) w passes w') :
    ∃ token lines, Section.Token.ofList? settings.lineComment.toList = some token ∧
      Completes (readLines path settings.encoding) w lines w ∧
      (Completes (centerFile path settings reporter) w' [] w' ↔
        Region.AllCentered settings.borders (round settings.borders token lines) ∧
          Section.Steady token (Region.centerLines settings.borders lines).lines) := by
  obtain ⟨token, lines, houtcome⟩ := completes_centerFile h
  refine ⟨token, lines, houtcome.token_eq, houtcome.before, ?_⟩
  rw [houtcome.again_iff, round_round_eq_iff (not_mem_of_readLines houtcome.before)]

/-! ## One file in a directory -/

/-- A directory with one file in it, seen from inside. -/
def oneFile (text : List Char) : World :=
  { files := ⟨.dir [("a.ts", .file (Codec.Utf8.encode text))], []⟩ }

theorem place_oneFile (text : List Char) (creating : Bool) :
    (oneFile text).files.place ⟨0, ["a.ts"]⟩ creating =
      .ok (.found ["a.ts"] (.file (Codec.Utf8.encode text))) := by
  have hplace : (oneFile text).files.place ⟨0, ["a.ts"]⟩ false =
      .ok (.found ["a.ts"] (.file (Codec.Utf8.encode text))) :=
    FileTree.place_name rfl (by decide) (by decide) (by decide) rfl nofun
  cases creating with
  | false => exact hplace
  | true => exact FileTree.place_creating_of_file hplace

theorem readLines_oneFile (text : List Char) :
    Completes (readLines ⟨0, ["a.ts"]⟩ "utf-8") (oneFile text) (splitLines text)
      (oneFile text) := by
  have hname : Codec.Encoding.ofFileName "utf-8" = .ok .utf8 := by decide +kernel
  exact completes_readLines_iff.2 ⟨rfl, .utf8, _, text, hname,
    FileTree.read_eq_ok_iff.2 ⟨_, place_oneFile text false⟩, Codec.Utf8.decode_encode _, rfl⟩

theorem writable_oneFile (text : List Char) : Writable (oneFile text) ⟨0, ["a.ts"]⟩ "utf-8" where
  place := ⟨_, _, place_oneFile text true⟩
  encoding := ⟨.utf8, by decide +kernel, fun _ => ⟨_, rfl⟩⟩

theorem token_standard :
    Section.Token.ofList? ({} : Settings).lineComment.toList = some .slashes := rfl

/-- A banner off center: the first run moves its title, and a second one finds nothing to do. -/
theorem centerFile_again_iff_oneFile :
    ∃ w', Completes (centerFile ⟨0, ["a.ts"]⟩ {} none) (oneFile "// ---- Foo -- //".toList)
        [.sections] w' ∧
      Completes (centerFile ⟨0, ["a.ts"]⟩ {} none) w' [] w' := by
  have hr := readLines_oneFile "// ---- Foo -- //".toList
  have hpasses : passesOn ({} : Settings).borders .slashes
      (splitLines "// ---- Foo -- //".toList) = [.sections] := by decide +kernel
  have hround : round ({} : Settings).borders .slashes
      (round ({} : Settings).borders .slashes (splitLines "// ---- Foo -- //".toList)) =
        round ({} : Settings).borders .slashes (splitLines "// ---- Foo -- //".toList) := by
    decide +kernel
  obtain ⟨w', h⟩ := (writable_oneFile "// ---- Foo -- //".toList).exists_centerFile
    token_standard hr none
  rw [hpasses] at h
  refine ⟨w', h, ?_⟩
  obtain ⟨token, lines, ht, hr', hagain⟩ := centerFile_again_iff h
  obtain rfl := completes_readLines_unique hr hr'
  obtain rfl : Section.Token.slashes = token := Option.some.inj ht
  exact hagain.2 ((round_round_eq_iff (not_mem_of_readLines hr)).1 hround)

/-- A section banner without spaces as the title between two borders. -/
def crowded : List Line :=
  [Region.Borders.standard.top, "// ----Foo---- //".toList, Region.Borders.standard.bottom]

/-- The section pass gives the title its two spaces after the region pass has placed it, and so a
second run places it anew. -/
theorem centerFile_again_writes :
    ∃ w' w'', Completes (centerFile ⟨0, ["a.ts"]⟩ {} none) (oneFile (joinLines crowded))
        [.regions, .sections] w' ∧
      Completes (centerFile ⟨0, ["a.ts"]⟩ {} none) w' [.regions] w'' ∧
      w''.files.read ⟨0, ["a.ts"]⟩ ≠ w'.files.read ⟨0, ["a.ts"]⟩ := by
  have hlines : splitLines (joinLines crowded) = crowded :=
    splitLines_joinLines (by decide +kernel) (by decide)
  have hpasses : passesOn ({} : Settings).borders .slashes crowded = [.regions, .sections] := by
    decide +kernel
  have hagain : passesOn ({} : Settings).borders .slashes
      (round ({} : Settings).borders .slashes crowded) = [.regions] := by decide +kernel
  have hr := readLines_oneFile (joinLines crowded)
  rw [hlines] at hr
  have hw := writable_oneFile (joinLines crowded)
  obtain ⟨w', h⟩ := hw.exists_centerFile token_standard hr none
  obtain ⟨token, lines, houtcome⟩ := completes_centerFile h
  obtain rfl := completes_readLines_unique hr houtcome.before
  obtain rfl : Section.Token.slashes = token := Option.some.inj houtcome.token_eq
  obtain ⟨names, hleads⟩ := exists_leads hr
  have hw' := hw.of_sameOutline (houtcome.touches names hleads).outline
  obtain ⟨w'', h'⟩ := hw'.exists_centerFile token_standard houtcome.after none
  rw [hpasses] at h
  rw [hagain] at h'
  refine ⟨w', w'', h, h', fun hsame => ?_⟩
  obtain ⟨token', lines', houtcome'⟩ := completes_centerFile h'
  obtain rfl := completes_readLines_unique houtcome.after houtcome'.before
  obtain rfl : Section.Token.slashes = token' := Option.some.inj houtcome'.token_eq
  have hnil := (passesOn_eq_nil_iff (not_mem_of_readLines houtcome.after)).2
    (lines_eq_of_read_eq houtcome.after houtcome'.after hsame)
  rw [hagain] at hnil
  cases hnil

end Recenter.Run.Action
