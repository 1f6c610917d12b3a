import Recenter.Proofs.Codec.Form
import Recenter.Proofs.Run.Alone

/-! The octets of a file ahead of the first line that a pass changes. The lines there are the same
before and after, but a file is written as a whole: an encoding with a mark writes its own mark and
the text in the order of that mark, whatever it has read. So the octets ahead of the change are kept
exactly if the file begins with the mark that the encoding writes (`pass_keeps_start_iff`), which
every file does where the encoding has none. -/

namespace Recenter.Run.Action

open Recenter.Files Recenter.Text Recenter.Banner

variable {w w' : World} {path : Path} {name : String} {lines : List Line} {changed : Bool}
  {pass : List Line → Revision} {encoding : Codec.Encoding} {octets octets' : List UInt8}
  {borders : Region.Borders} {token : List Char} {form : Codec.Form} {k : Nat}
  {text text' : List Char}

/-! ## Octets parted at a line -/

/-- Of the octets of a file, `start` is what stands ahead of line `k`: the mark and the lines
there. -/
structure PartedAt (form : Codec.Form) (lines : List Line) (k : Nat)
    (octets start : List UInt8) : Prop where
  ahead : form.Encodes (ahead lines k) start
  behind : ∃ rest, form.body.encode (joinLines (lines.drop k)) = .ok rest ∧ octets = start ++ rest

theorem exists_partedAt (h : form.Encodes (joinLines lines) octets) (hk : k < lines.length) :
    ∃ start, PartedAt form lines k octets start := by
  rw [joinLines_eq_ahead_append hk] at h
  obtain ⟨start, rest, hstart, hrest, rfl⟩ := h.append
  exact ⟨start, hstart, rest, hrest, rfl⟩

/-- Line `k` is the first in which a text differs from another, and `start` and `start'` are what
stands ahead of it in the octets that the two are read from. -/
structure FirstChange (encoding : Codec.Encoding) (octets octets' : List UInt8) (k : Nat)
    (start start' : List UInt8) (text text' : List Char) : Prop where
  decode : encoding.decode octets = .ok text
  decode' : encoding.decode octets' = .ok text'
  lt_length : k < (splitLines text).length
  take_eq : (splitLines text').take k = (splitLines text).take k
  getElem?_ne : (splitLines text')[k]? ≠ (splitLines text)[k]?
  parted : PartedAt (encoding.reads octets) (splitLines text) k octets start
  parted' : PartedAt (encoding.reads octets') (splitLines text') k octets' start'

/-- Octets that are written over others are the same ahead of the first change exactly if the others
begin with the mark that the encoding writes. -/
theorem FirstChange.start_eq_iff {start start' : List UInt8}
    (h : FirstChange encoding octets octets' k start start' text text')
    (he : encoding.encode text' = .ok octets') :
    start' = start ↔ encoding.writes.mark <+: octets := by
  have hahead : ahead (splitLines text') k = ahead (splitLines text) k := by
    rw [ahead, h.take_eq, ahead]
  have hstart' := h.parted'.ahead
  rw [Codec.Encoding.reads_of_encode he, hahead] at hstart'
  exact Codec.Encoding.encodes_eq_iff h.parted.ahead hstart'

/-! ## A pass -/

/-- Octets that a pass rewrites have a first change. -/
theorem Revises.exists_firstChange (hp : Faithful pass)
    (h : Revises encoding pass octets true octets') :
    ∃ k start start' text text', FirstChange encoding octets octets' k start start' text text' ∧
      encoding.encode text' = .ok octets' := by
  obtain ⟨text, hd, hchanged, he⟩ := h
  rw [if_pos rfl] at he
  have hlines : splitLines (joinLines (pass (splitLines text)).lines) =
      (pass (splitLines text)).lines := hp.splitLines_joinLines text
  have hlength := hp.length_eq (splitLines text)
  obtain ⟨k, hk, htake, hget⟩ := exists_first_change hlength ((hp.changed_iff _).1 hchanged.symm)
  have hread := Codec.Encoding.encodes_reads_of_decode hd
  rw [← joinLines_splitLines text] at hread
  obtain ⟨start, hparted⟩ := exists_partedAt hread hk
  have hwritten := Codec.Encoding.encodes_writes he
  rw [← Codec.Encoding.reads_of_encode he] at hwritten
  obtain ⟨start', hparted'⟩ := exists_partedAt hwritten (hlength.symm ▸ hk)
  rw [← hlines] at htake hget hparted'
  exact ⟨k, start, start', text, _,
    ⟨hd, Codec.Encoding.decode_encode he, hk, htake, hget, hparted, hparted'⟩, he⟩

theorem exists_faithful
    (h : Completes (regionPass path borders name) w changed w' ∨
      Completes (sectionPass path token name) w changed w') :
    ∃ pass, Faithful pass ∧ Completes (reviseFile path name pass) w changed w' := by
  rcases h with h | h
  · exact ⟨_, faithful_region borders, h⟩
  · unfold sectionPass at h
    split at h
    · exact absurd h not_completes_fail
    · next token _ => exact ⟨_, faithful_section token, h⟩

/-- A pass that rewrites a file keeps its octets ahead of the first line that it changes exactly if
the file begins with the mark that its encoding writes. -/
theorem pass_keeps_start_iff (he : Codec.Encoding.ofFileName name = .ok encoding)
    (hr : w.files.read path = .ok octets)
    (h : Completes (regionPass path borders name) w true w' ∨
      Completes (sectionPass path token name) w true w') :
    ∃ octets' k start start' text text', w'.files.read path = .ok octets' ∧
      FirstChange encoding octets octets' k start start' text text' ∧
      (start' = start ↔ encoding.writes.mark <+: octets) := by
  obtain ⟨pass, hp, hx⟩ := exists_faithful h
  obtain ⟨names, octets₀, octets', hplace, hrevises, rfl⟩ :=
    (completes_reviseFile_iff_revises he).1 hx
  obtain rfl : octets₀ = octets :=
    Except.ok.inj ((FileTree.read_eq_ok_iff.2 ⟨names, hplace⟩).symm.trans hr)
  have hl : w.files.Leads path names := ⟨octets₀, hplace⟩
  obtain ⟨k, start, start', text, text', hfirst, he'⟩ := hrevises.exists_firstChange hp
  exact ⟨octets', k, start, start', text, text', hl.read_rewrite octets', hfirst,
    hfirst.start_eq_iff he'⟩

/-! ## A file in each order -/

/-- A line without a banner, and one with a banner off center. -/
def offCenter : List Char := "x\n// - d --- //".toList

/-- The same lines, with the banner in the center. -/
def onCenter : List Char := "x\n// -- d -- //".toList

/-- The two lines in a file, behind the mark of an order. -/
def ordered (order : Codec.ByteOrder) : List UInt8 :=
  Codec.Utf16.mark order ++ Codec.Utf16.encode order offCenter

/-- A directory with these octets in a file, seen from inside. -/
def holding (octets : List UInt8) : World :=
  { files := ⟨.dir [("a.ts", .file octets)], []⟩ }

theorem read_holding (octets : List UInt8) :
    (holding octets).files.read ⟨0, ["a.ts"]⟩ = .ok octets :=
  FileTree.read_eq_ok_iff.2
    ⟨_, FileTree.place_name rfl (by decide) (by decide) (by decide) rfl nofun⟩

theorem ofFileName_utf16 : Codec.Encoding.ofFileName "utf-16" = .ok (.utf16 none) := by
  decide +kernel

/-- The section pass rewrites the file in either order, and leaves it behind the mark of the
little-endian one. -/
theorem exists_section_ordered (order : Codec.ByteOrder) :
    ∃ w', Completes (sectionPass ⟨0, ["a.ts"]⟩ ['/', '/'] "utf-16") (holding (ordered order))
        true w' ∧
      w'.files.read ⟨0, ["a.ts"]⟩ =
        .ok (Codec.Utf16.mark .little ++ Codec.Utf16.encode .little onCenter) := by
  have hread : (Codec.Encoding.utf16 none).decode (ordered order) = .ok offCenter := by
    cases order <;> decide +kernel
  have hpass : Section.centerLines .slashes (splitLines offCenter) =
      ⟨["x".toList, "// -- d -- //".toList], true⟩ := by decide +kernel
  have hrevises : Revises (.utf16 none) (Section.centerLines .slashes) (ordered order) true
      (Codec.Utf16.mark .little ++ Codec.Utf16.encode .little onCenter) := by
    refine ⟨offCenter, hread, ?_⟩
    rw [hpass]
    exact ⟨rfl, rfl⟩
  exact hrevises.exists_reviseFile ofFileName_utf16 (read_holding _)

/-- A file in little-endian order keeps what stands ahead of its banner. -/
theorem pass_keeps_start_little :
    ∃ w' octets' k start text text',
      Completes (sectionPass ⟨0, ["a.ts"]⟩ ['/', '/'] "utf-16") (holding (ordered .little))
        true w' ∧
      w'.files.read ⟨0, ["a.ts"]⟩ = .ok octets' ∧
      FirstChange (.utf16 none) (ordered .little) octets' k start start text text' := by
  obtain ⟨w', hx, -⟩ := exists_section_ordered .little
  have hpass : Completes (regionPass ⟨0, ["a.ts"]⟩ .standard "utf-16") (holding (ordered .little))
      true w' ∨ Completes (sectionPass ⟨0, ["a.ts"]⟩ ['/', '/'] "utf-16")
        (holding (ordered .little)) true w' := .inr hx
  obtain ⟨octets', k, start, start', text, text', hr', hfirst, hkeeps⟩ :=
    pass_keeps_start_iff ofFileName_utf16 (read_holding _) hpass
  obtain rfl : start' = start := hkeeps.2 (List.prefix_append _ _)
  exact ⟨w', octets', k, start', text, text', hx, hr', hfirst⟩

/-- A file in big-endian order does not: its mark and its line without a banner are turned round. -/
theorem pass_turns_start_big :
    ∃ w' octets' text text',
      Completes (sectionPass ⟨0, ["a.ts"]⟩ ['/', '/'] "utf-16") (holding (ordered .big))
        true w' ∧
      w'.files.read ⟨0, ["a.ts"]⟩ = .ok octets' ∧
      FirstChange (.utf16 none) (ordered .big) octets' 1 [0xFE, 0xFF, 0x00, 0x78, 0x00, 0x0A]
        [0xFF, 0xFE, 0x78, 0x00, 0x0A, 0x00] text text' := by
  obtain ⟨w', hx, hr'⟩ := exists_section_ordered .big
  refine ⟨w', _, offCenter, onCenter, hx, hr', ?_⟩
  have hlines : splitLines offCenter = ["x".toList, "// - d --- //".toList] := by decide +kernel
  have hlines' : splitLines onCenter = ["x".toList, "// -- d -- //".toList] := by decide +kernel
  have hreads : (Codec.Encoding.utf16 none).reads (ordered .big) =
      ⟨Codec.Utf16.mark .big, .utf16 (some .big), .utf16 .big⟩ := by
    rw [Codec.Encoding.reads_of_not_isPrefix _ (by decide), Codec.Encoding.readsUnmarked]
    exact if_neg (List.cons_ne_nil _ _)
  have hreads' : (Codec.Encoding.utf16 none).reads (Codec.Utf16.mark .little ++
      Codec.Utf16.encode .little onCenter) = (Codec.Encoding.utf16 none).writes :=
    Codec.Encoding.reads_of_isPrefix _ (List.prefix_append _ _)
  exact {
    decode := by decide +kernel
    decode' := by decide +kernel
    lt_length := by rw [hlines]; decide
    take_eq := by rw [hlines, hlines']; decide
    getElem?_ne := by rw [hlines, hlines']; decide
    parted := by
      rw [hreads, hlines]
      exact ⟨⟨Codec.Utf16.encode .big _, rfl, by decide +kernel⟩,
        Codec.Utf16.encode .big _, rfl, by decide +kernel⟩
    parted' := by
      rw [hreads', hlines']
      exact ⟨⟨Codec.Utf16.encode .little _, rfl, by decide +kernel⟩,
        Codec.Utf16.encode .little _, rfl, by decide +kernel⟩ }

end Recenter.Run.Action
