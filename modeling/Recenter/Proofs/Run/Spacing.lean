import Recenter.Proofs.Codec.Canonical
import Recenter.Proofs.Run.Again

/-! Both passes on a file in UTF-8. They complete, and they change spacing alone: the file has as
many line feeds as before, and each of its lines has the same letters, as many dashes and the same
end; a line that neither pass changes keeps its octets (`passes_respace`). -/

namespace Recenter.Run.Action

open Recenter.Files Recenter.Text Recenter.Banner

variable {w : World} {path : Path} {name : String} {token : List Char} {octets : List UInt8}
  {text : List Char}

/-- Both passes complete on a file that the encoding reads, and leave the lines of a round in it. -/
theorem exists_both_passes {encoding : Codec.Encoding} (borders : Region.Borders)
    (token : Section.Token) (he : Codec.Encoding.ofFileName name = .ok encoding)
    (hr : w.files.read path = .ok octets) (hd : encoding.decode octets = .ok text) :
    ∃ regions sections w₁ w' octets',
      Completes (regionPass path borders name) w regions w₁ ∧
      Completes (sectionPass path token.text name) w₁ sections w' ∧
      w'.files.read path = .ok octets' ∧
      encoding.decode octets' = .ok (joinLines (round borders token (splitLines text))) := by
  have hregion := faithful_region borders
  obtain ⟨between, hfirst, hmid⟩ := exists_revises hregion (respaces_region borders) hd
  obtain ⟨octets', hsecond, hdecode⟩ :=
    exists_revises (faithful_section token) (respaces_section token) hmid
  rw [hregion.splitLines_joinLines] at hsecond hdecode
  obtain ⟨w₁, hcompletes, hr₁⟩ := hfirst.exists_reviseFile he hr
  obtain ⟨w', hcompletes', hr'⟩ := hsecond.exists_reviseFile he hr₁
  have ht : Section.Token.ofList? token.text = some token := dif_neg token.text_ne_nil
  have hpass : sectionPass path token.text name =
      reviseFile path name (Section.centerLines token) := by rw [sectionPass, ht]
  rw [← hpass] at hcompletes'
  exact ⟨_, _, w₁, w', octets', hcompletes, hcompletes', hr', hdecode⟩

/-- After the region pass and the section pass a file in UTF-8 has as many line feeds as before.
Each line ends in a carriage return if it did, has the same characters that are neither blanks nor
dashes, in their order, and as many dashes, and its octets are the same exactly if neither pass has
changed it. -/
theorem passes_respace (borders : Region.Borders) (htoken : token ≠ [])
    (hname : Codec.Encoding.ofFileName name = .ok .utf8)
    (hr : w.files.read path = .ok octets) (hd : Codec.Utf8.decode octets = .ok text) :
    ∃ regions sections w₁ w', ∃ octets' : List UInt8, ∃ text' : List Char,
      Completes (regionPass path borders name) w regions w₁ ∧
      Completes (sectionPass path token name) w₁ sections w' ∧
      w'.files.read path = .ok octets' ∧ Codec.Utf8.decode octets' = .ok text' ∧
      text'.count '\n' = text.count '\n' ∧
      ∀ (j : Nat) (line : Line), (splitLines text)[j]? = some line →
        ∃ line', (splitLines text')[j]? = some line' ∧
          (line'.getLast? = some '\r' ↔ line.getLast? = some '\r') ∧
          letters line' = letters line ∧ line'.count '-' = line.count '-' ∧
          ((octets'.splitOn 0x0A)[j]? = (octets.splitOn 0x0A)[j]? ↔
            (Region.centerLines borders (splitLines text)).lines[j]? = some line ∧
              (round borders ⟨token, htoken⟩ (splitLines text))[j]? = some line) := by
  obtain ⟨regions, sections, w₁, w', octets', hregion, hsection, hr', hd'⟩ :=
    exists_both_passes borders ⟨token, htoken⟩ hname hr hd
  have hlf := not_mem_of_mem_splitLines text
  have hround : round borders ⟨token, htoken⟩ (splitLines text) ≠ [] := by
    rw [← List.length_pos_iff, length_round, List.length_pos_iff]
    exact splitLines_ne_nil text
  have hlines := splitLines_joinLines (not_mem_round hlf) hround
  refine ⟨regions, sections, w₁, w', octets', _, hregion, hsection, hr', hd', ?_, ?_⟩
  · have hcount := length_splitLines (joinLines (round borders ⟨token, htoken⟩ (splitLines text)))
    rw [hlines, length_round, length_splitLines] at hcount
    exact (Nat.succ.inj hcount).symm
  · intro j line hline
    obtain ⟨line', hline', hrespaced, heol⟩ :=
      exists_respaced_round borders ⟨token, htoken⟩ hlf hline
    refine ⟨line', by rw [hlines, hline'], ?_, hrespaced.letters_eq, hrespaced.count_eq, ?_⟩
    · rw [← splitEol_snd_eq_iff, heol, splitEol_snd_eq_iff]
    · rw [Codec.Utf8.getElem?_splitOn_eq_iff hd hd', hlines, getElem?_round_eq_iff hlf, hline]
      exact and_congr_right fun hregion => by rw [hregion]

/-- A banner off center, and a line below it that is left alone. -/
theorem passes_respace_oneFile :
    let text := "// -- a ---- //\r\nb".toList
    let octets := Codec.Utf8.encode text
    ∃ regions sections w₁ w', ∃ octets' : List UInt8, ∃ text' : List Char,
      Completes (regionPass ⟨0, ["a.ts"]⟩ .standard "utf-8") (oneFile text) regions w₁ ∧
      Completes (sectionPass ⟨0, ["a.ts"]⟩ ['/', '/'] "utf-8") w₁ sections w' ∧
      w'.files.read ⟨0, ["a.ts"]⟩ = .ok octets' ∧ Codec.Utf8.decode octets' = .ok text' ∧
      text'.count '\n' = 1 ∧ (octets'.splitOn 0x0A)[0]? ≠ (octets.splitOn 0x0A)[0]? ∧
      (octets'.splitOn 0x0A)[1]? = some [0x62] := by
  intro text octets
  have hname : Codec.Encoding.ofFileName "utf-8" = .ok .utf8 := by decide +kernel
  have hread : (oneFile text).files.read ⟨0, ["a.ts"]⟩ = .ok octets :=
    FileTree.read_eq_ok_iff.2 ⟨_, place_oneFile text false⟩
  obtain ⟨regions, sections, w₁, w', octets', text', hregion, hsection, hr, hd, hcount, hlines⟩ :=
    passes_respace .standard (by decide : ['/', '/'] ≠ []) hname hread
      (Codec.Utf8.decode_encode text)
  obtain ⟨-, -, -, -, -, hfirst⟩ := hlines 0 "// -- a ---- //\r".toList (by decide +kernel)
  obtain ⟨-, -, -, -, -, hsecond⟩ := hlines 1 ['b'] (by decide +kernel)
  refine ⟨regions, sections, w₁, w', octets', text', hregion, hsection, hr, hd, hcount, ?_, ?_⟩
  · rw [ne_eq, hfirst]
    decide +kernel
  · rw [hsecond.2 (by decide +kernel)]
    decide +kernel

end Recenter.Run.Action
