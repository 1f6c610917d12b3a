import Recenter.Proofs.Codec.Canonical
import Recenter.Proofs.Files.Creation
import Recenter.Proofs.Run.Again
import Recenter.Proofs.Text.Line

/-! Lines and octets. Reading splits a text at its line feeds and nowhere else, and writing puts
them back, so in UTF-8 nothing is lost in either direction: lines that have been written are read
again, and what a file holds is written again from its lines (`lines_lossless`). -/

namespace Recenter.Run.Action

open Recenter.Files Recenter.Text

variable {w : World} {path : Path} {name : String} {lines : List Line} {text : List Char}

def CanOpen (files : FileTree) (path : Path) : Prop :=
  ∃ opened, files.write path [] = .ok opened

/-- In UTF-8 all lines can be written, and the file then holds their text. -/
theorem exists_writeLines (hname : Codec.Encoding.ofFileName name = .ok .utf8)
    (h : CanOpen w.files path) (lines : List Line) :
    ∃ w', Completes (writeLines path lines name) w () w' ∧
      w'.files.read path = .ok (Codec.Utf8.encode (joinLines lines)) := by
  obtain ⟨opened, hopen⟩ := h
  obtain ⟨files, hwrite, hread⟩ :=
    FileTree.exists_write_of_write hopen (Codec.Utf8.encode (joinLines lines))
  refine ⟨{ w with files := files }, ?_, hread⟩
  exact completes_writeLines_iff.2 ⟨.utf8, opened, _, files, hname, hopen, rfl, hwrite, rfl⟩

/-- A file in UTF-8 is read as the lines of its text. -/
theorem completes_readLines_utf8 (hname : Codec.Encoding.ofFileName name = .ok .utf8)
    (h : w.files.read path = .ok (Codec.Utf8.encode text)) :
    Completes (readLines path name) w (splitLines text) w :=
  completes_readLines_iff.2 ⟨rfl, .utf8, _, text, hname, h, Codec.Utf8.decode_encode text, rfl⟩

/-- Writing back the lines of a file in UTF-8 leaves the world as it is. -/
theorem completes_writeLines_utf8 (hname : Codec.Encoding.ofFileName name = .ok .utf8)
    (h : w.files.read path = .ok (Codec.Utf8.encode text)) :
    Completes (writeLines path (splitLines text) name) w () w := by
  obtain ⟨names, hp⟩ := FileTree.read_eq_ok_iff.1 h
  have hl : w.files.Leads path names := ⟨_, hp⟩
  have hfind := FileTree.find?_of_place hp
  have hl' : (w.files.rewrite names []).Leads path names :=
    (FileTree.sameOutline_rewrite hfind []).leads hl
  refine completes_writeLines_iff.2
    ⟨.utf8, _, _, w.files, hname, hl.write_eq_ok [], rfl, ?_, rfl⟩
  rw [joinLines_splitLines, hl'.write_eq_ok, FileTree.rewrite_rewrite hfind,
    FileTree.rewrite_self hfind]

/-- In UTF-8 nothing is lost between lines and octets. Lines without line feeds can be written
wherever a file can be opened, and are read again as they were; and a file of valid octets can be
read, and its lines restore these octets, where they came from and wherever else a file can be
opened. -/
theorem lines_lossless (hname : Codec.Encoding.ofFileName name = .ok .utf8) :
    (∀ (w : World) (path : Path) (lines : List Line), lines ≠ [] →
      (∀ line ∈ lines, '\n' ∉ line) → CanOpen w.files path →
        ∃ w', Completes (writeLines path lines name) w () w' ∧
          Completes (readLines path name) w' lines w') ∧
    ∀ (w : World) (path : Path) (octets : List UInt8),
      (∃ text, Codec.Utf8.decode octets = .ok text) → w.files.read path = .ok octets →
        ∃ lines, Completes (readLines path name) w lines w ∧
          Completes (writeLines path lines name) w () w ∧
          ∀ (v : World) (other : Path), CanOpen v.files other →
            ∃ v', Completes (writeLines other lines name) v () v' ∧
              v'.files.read other = .ok octets := by
  constructor
  · intro w path lines hne hlf hopen
    obtain ⟨w', hwrite, hread⟩ := exists_writeLines hname hopen lines
    have hlines := completes_readLines_utf8 hname hread
    rw [splitLines_joinLines hlf hne] at hlines
    exact ⟨w', hwrite, hlines⟩
  · rintro w path octets ⟨text, hvalid⟩ hread
    rw [← Codec.Utf8.encode_of_decode hvalid] at hread ⊢
    refine ⟨splitLines text, completes_readLines_utf8 hname hread,
      completes_writeLines_utf8 hname hread, fun v other hopen => ?_⟩
    obtain ⟨v', hwrite, hread'⟩ := exists_writeLines hname hopen (splitLines text)
    rw [joinLines_splitLines] at hread'
    exact ⟨v', hwrite, hread'⟩

/-- A mark at the front, both other line ends and a last line without text, under a new name; and a
file of a mark and two kinds of line ends. -/
theorem lines_lossless_marked :
    (∃ w', Completes (writeLines ⟨0, ["b.ts"]⟩
          ["\uFEFFa\r".toList, "b\u0085\u2028c\rd".toList, []] "utf-8") (oneFile []) () w' ∧
        Completes (readLines ⟨0, ["b.ts"]⟩ "utf-8") w'
          ["\uFEFFa\r".toList, "b\u0085\u2028c\rd".toList, []] w') ∧
      ∃ lines, Completes (readLines ⟨0, ["a.ts"]⟩ "utf-8")
          (oneFile "\uFEFFa\r\nb\n".toList) lines (oneFile "\uFEFFa\r\nb\n".toList) ∧
        Completes (writeLines ⟨0, ["a.ts"]⟩ lines "utf-8")
          (oneFile "\uFEFFa\r\nb\n".toList) () (oneFile "\uFEFFa\r\nb\n".toList) := by
  have hname : Codec.Encoding.ofFileName "utf-8" = .ok .utf8 := by decide +kernel
  have h := lines_lossless hname
  constructor
  · have hfree : (oneFile []).files.place ⟨0, ["b.ts"]⟩ true = .ok (.vacant ["b.ts"]) :=
      FileTree.place_free rfl (by decide) (by decide) (by decide) rfl
    have hopen : CanOpen (oneFile []).files ⟨0, ["b.ts"]⟩ := by
      rw [CanOpen, FileTree.write, hfree]
      exact ⟨_, rfl⟩
    exact h.1 _ _ _ (List.cons_ne_nil _ _) (by decide) hopen
  · have hread : (oneFile "\uFEFFa\r\nb\n".toList).files.read ⟨0, ["a.ts"]⟩ =
        .ok (Codec.Utf8.encode "\uFEFFa\r\nb\n".toList) :=
      FileTree.read_eq_ok_iff.2 ⟨["a.ts"], place_oneFile _ false⟩
    obtain ⟨lines, hlines, hwrite, -⟩ := h.2 _ _ _ ⟨_, Codec.Utf8.decode_encode _⟩ hread
    exact ⟨lines, hlines, hwrite⟩

end Recenter.Run.Action
