import Recenter.Proofs.Codec.Reach
import Recenter.Proofs.Passes.Spacing
import Recenter.Proofs.Run.OneFile

/-! What a run makes of a file follows from the octets of the file alone. A run that completes has
centered the octets (`completes_centerFile_centers`), and octets that can be centered are centered
in every tree and under every path that leads to them (`Centers.exists_centerFile`). Octets that the
encoding reads can always be centered, because the passes bring no character that it lacks
(`exists_centers`). -/

namespace Recenter.Run.Action

open Recenter.Files Recenter.Text Recenter.Banner Recenter.Config

variable {w w' w'' : World} {path : Path} {lines : List Line} {name : String} {changed : Bool}
  {pass : List Line → Revision} {encoding : Codec.Encoding} {octets octets' : List UInt8}
  {text : List Char}

/-! ## One pass -/

/-- What a pass makes of octets: it reads lines from them, and writes its own if one has changed. -/
def Revises (encoding : Codec.Encoding) (pass : List Line → Revision) (octets : List UInt8)
    (changed : Bool) (octets' : List UInt8) : Prop :=
  ∃ text, encoding.decode octets = .ok text ∧ changed = (pass (splitLines text)).changed ∧
    if changed = true then
      encoding.encode (joinLines (pass (splitLines text)).lines) = .ok octets'
    else octets' = octets

/-- A pass on a file makes of its octets what it makes of them anywhere. -/
theorem completes_reviseFile_iff_revises (he : Codec.Encoding.ofFileName name = .ok encoding) :
    Completes (reviseFile path name pass) w changed w' ↔
      ∃ names octets octets', w.files.place path false = .ok (.found names (.file octets)) ∧
        Revises encoding pass octets changed octets' ∧
        w' = { w with files := w.files.rewrite names octets' } := by
  rw [completes_reviseFile_iff]
  constructor
  · intro hx
    obtain ⟨lines, hr, rfl, h⟩ := hx
    obtain ⟨-, encoding', octets, text, he', ho, hd, rfl⟩ := completes_readLines_iff.1 hr
    obtain rfl : encoding' = encoding := Except.ok.inj (he'.symm.trans he)
    obtain ⟨names, hp⟩ := FileTree.read_eq_ok_iff.1 ho
    split at h
    · next hc =>
      obtain ⟨octets', ho', rfl⟩ := (completes_writeLines_iff_rewrite he ⟨octets, hp⟩).1 h
      exact ⟨names, octets, octets', hp, ⟨text, hd, rfl, by rwa [if_pos hc]⟩, rfl⟩
    · next hc =>
      refine ⟨names, octets, octets, hp, ⟨text, hd, rfl, by rw [if_neg hc]⟩, ?_⟩
      rw [FileTree.rewrite_self (FileTree.find?_of_place hp), h]
  · intro hx
    obtain ⟨names, octets, octets', hp, ⟨text, hd, rfl, h⟩, rfl⟩ := hx
    have ho := FileTree.read_eq_ok_iff.2 ⟨names, hp⟩
    have hr := completes_readLines_iff.2 ⟨rfl, encoding, octets, text, he, ho, hd, rfl⟩
    refine ⟨splitLines text, hr, rfl, ?_⟩
    split at h
    · next hc =>
      rw [if_pos hc]
      exact (completes_writeLines_iff_rewrite he ⟨octets, hp⟩).2 ⟨octets', h, rfl⟩
    · next hc =>
      rw [if_neg hc, h, FileTree.rewrite_self (FileTree.find?_of_place hp)]

theorem Revises.exists_reviseFile (h : Revises encoding pass octets changed octets')
    (he : Codec.Encoding.ofFileName name = .ok encoding) (hr : w.files.read path = .ok octets) :
    ∃ w', Completes (reviseFile path name pass) w changed w' ∧
      w'.files.read path = .ok octets' := by
  obtain ⟨names, hp⟩ := FileTree.read_eq_ok_iff.1 hr
  have hl : w.files.Leads path names := ⟨octets, hp⟩
  exact ⟨_, (completes_reviseFile_iff_revises he).2 ⟨names, octets, octets', hp, h, rfl⟩,
    hl.read_rewrite octets'⟩

/-- What a pass that only respaces lines makes of a text that was read can be written. -/
theorem exists_encode_of_respaces (hs : Respaces pass) (hd : encoding.decode octets = .ok text) :
    ∃ octets', encoding.encode (joinLines (pass (splitLines text)).lines) = .ok octets' := by
  refine Codec.Encoding.exists_encode_of_decode hd fun c hc => ?_
  rcases mem_of_mem_joinLines hc with ⟨line', hl', hc⟩ | rfl
  · obtain ⟨line, hl, hr⟩ := hs (not_mem_of_mem_splitLines text) line' hl'
    rcases hr.mem c hc with hc | rfl
    · exact .inl (mem_of_mem_splitLines hl hc)
    · exact .inr (by decide)
  · exact .inr (by decide)

/-- Octets that are read are revised, and the lines of the pass are read from what they become. -/
theorem exists_revises (hp : Faithful pass) (hs : Respaces pass)
    (hd : encoding.decode octets = .ok text) :
    ∃ octets', Revises encoding pass octets (pass (splitLines text)).changed octets' ∧
      encoding.decode octets' = .ok (joinLines (pass (splitLines text)).lines) := by
  by_cases hc : (pass (splitLines text)).changed = true
  · obtain ⟨octets', he⟩ := exists_encode_of_respaces hs hd
    exact ⟨octets', ⟨text, hd, rfl, by rwa [if_pos hc]⟩, Codec.Encoding.decode_encode he⟩
  · refine ⟨octets, ⟨text, hd, rfl, by rw [if_neg hc]⟩, ?_⟩
    rw [hd, hp.lines_eq hc, joinLines_splitLines]

/-- The lines of a pass are read again from the text that they are joined to. -/
theorem Faithful.splitLines_joinLines (hp : Faithful pass) (text : List Char) :
    splitLines (joinLines (pass (splitLines text)).lines) = (pass (splitLines text)).lines :=
  Text.splitLines_joinLines (hp.lineFeed _ (not_mem_of_mem_splitLines text))
    (hp.ne_nil (splitLines_ne_nil text))

/-! ## Both passes -/

variable {settings : Settings} {reporter : Reporter} {passes : List Pass}

/-- What a run on a file makes of its octets: the region pass revises them, and then the section
pass revises what has become of them. -/
def Centers (settings : Settings) (octets : List UInt8) (passes : List Pass)
    (octets' : List UInt8) : Prop :=
  ∃ encoding token regions sections between,
    Codec.Encoding.ofFileName settings.encoding = .ok encoding ∧
    Section.Token.ofList? settings.lineComment.toList = some token ∧
    Revises encoding (Region.centerLines settings.borders) octets regions between ∧
    Revises encoding (Section.centerLines token) between sections octets' ∧
    passes = passesOf regions sections

/-- A run that completes has centered the octets of its file, and no other file has changed. -/
theorem completes_centerFile_centers
    (h : Completes (centerFile path settings reporter) w passes w') :
    ∃ names octets octets', w.files.place path false = .ok (.found names (.file octets)) ∧
      Centers settings octets passes octets' ∧ w'.files = w.files.rewrite names octets' := by
  obtain ⟨token, regions, sections, w₁, w₂, w₃, ht, hregion, ha₂, hsection, ha₄, rfl⟩ :=
    exists_passes_of_centerFile h
  obtain ⟨lines, hr, -⟩ := completes_reviseFile_iff.1 hregion
  obtain ⟨-, encoding, -, -, he, -⟩ := completes_readLines_iff.1 hr
  obtain ⟨names, octets, between, hp, hfirst, rfl⟩ :=
    (completes_reviseFile_iff_revises he).1 hregion
  obtain ⟨names', octets₁, octets', hp', hsecond, rfl⟩ :=
    (completes_reviseFile_iff_revises he).1 hsection
  rw [ha₂.files_eq] at hp'
  have hold := FileTree.find?_of_place hp
  have hl : w.files.Leads path names := ⟨octets, hp⟩
  -- The section pass finds the same file, with the octets that the region pass has left in it.
  obtain rfl : names' = names :=
    ((FileTree.sameOutline_rewrite hold between).leads_iff.1 ⟨_, hp'⟩).unique hl
  have hread := hl.read_rewrite between
  rw [FileTree.read_eq_ok_iff.2 ⟨_, hp'⟩] at hread
  cases hread
  refine ⟨names', octets, octets', hp, ⟨encoding, token, regions, sections, _, he, ht, hfirst,
    hsecond, rfl⟩, ?_⟩
  rw [ha₄.files_eq, ha₂.files_eq, FileTree.rewrite_rewrite hold]

/-! ## A run that completes -/

theorem exists_bind {α β : Type} {x : Action α} {f : α → Action β} {a : α} {b : β}
    {P : World → Prop} (hx : Completes x w a w') (h : ∃ w'', Completes (f a) w' b w'' ∧ P w'') :
    ∃ w'', Completes (x >>= f) w b w'' ∧ P w'' := by
  obtain ⟨w'', h, hp⟩ := h
  exact ⟨w'', completes_bind_iff.2 ⟨a, w', hx, h⟩, hp⟩

theorem exists_announced {α : Type} {k : Action α} {a : α} {P : World → Prop}
    (h : ∀ w₁ : World, w₁.files = w.files → ∃ w', Completes k w₁ a w' ∧ P w') :
    ∃ w', Completes (do
      if changed then announce reporter path
      k) w a w' ∧ P w' := by
  cases changed with
  | false => exact h w rfl
  | true =>
    cases reporter with
    | none =>
      exact exists_bind (completes_pure_iff.2 ⟨rfl, rfl⟩) (h w rfl)
    | some text =>
      have ha : Completes (announce (some text) path) w () _ := completes_modify_iff.2 rfl
      exact exists_bind ha (h _ rfl)

theorem Centers.exists_centerFile (h : Centers settings octets passes octets')
    (hr : w.files.read path = .ok octets) (reporter : Reporter) :
    ∃ w', Completes (centerFile path settings reporter) w passes w' ∧
      w'.files.read path = .ok octets' := by
  obtain ⟨encoding, token, regions, sections, between, he, ht, hfirst, hsecond, rfl⟩ := h
  obtain ⟨w₁, hregion, hr₁⟩ := hfirst.exists_reviseFile he hr
  unfold centerFile regionPass sectionPass
  simp only [ht]
  refine exists_bind hregion (exists_announced fun w₂ hf₂ => ?_)
  rw [← hf₂] at hr₁
  obtain ⟨w₃, hsection, hr₃⟩ := hsecond.exists_reviseFile he hr₁
  refine exists_bind hsection (exists_announced fun w₄ hf₄ => ?_)
  exact ⟨w₄, completes_pure_iff.2 ⟨rfl, rfl⟩, hf₄ ▸ hr₃⟩

/-- Octets that the encoding reads can be centered. -/
theorem exists_centers {token : Section.Token}
    (he : Codec.Encoding.ofFileName settings.encoding = .ok encoding)
    (ht : Section.Token.ofList? settings.lineComment.toList = some token)
    (hd : encoding.decode octets = .ok text) :
    ∃ octets', Centers settings octets (passesOn settings.borders token (splitLines text))
      octets' := by
  have hregion := faithful_region settings.borders
  obtain ⟨between, hfirst, hmid⟩ := exists_revises hregion (respaces_region settings.borders) hd
  obtain ⟨octets', hsecond, -⟩ :=
    exists_revises (faithful_section token) (respaces_section token) hmid
  rw [hregion.splitLines_joinLines] at hsecond
  exact ⟨octets', encoding, token, _, _, between, he, ht, hfirst, hsecond, rfl⟩

/-- The path leads to a file for reading and writing, in an encoding that has all characters. -/
structure Writable (w : World) (path : Path) (name : String) : Prop where
  place : ∃ names octets, w.files.place path true = .ok (.found names (.file octets))
  encoding : ∃ encoding, Codec.Encoding.ofFileName name = .ok encoding ∧
    ∀ text, ∃ octets, encoding.encode text = .ok octets

theorem Writable.of_sameOutline (h : Writable w path name) (ho : w.files.SameOutline w'.files) :
    Writable w' path name := by
  obtain ⟨names, octets, hp⟩ := h.place
  obtain ⟨octets', hp'⟩ := ho.exists_file hp
  exact ⟨⟨names, octets', hp'⟩, h.encoding⟩

theorem Writable.exists_centerFile (h : Writable w path settings.encoding) {token : Section.Token}
    (ht : Section.Token.ofList? settings.lineComment.toList = some token)
    (hr : Completes (readLines path settings.encoding) w lines w) (reporter : Reporter) :
    ∃ w', Completes (centerFile path settings reporter) w
      (passesOn settings.borders token lines) w' := by
  obtain ⟨encoding, he, -⟩ := h.encoding
  obtain ⟨-, encoding', octets, text, he', ho, hd, rfl⟩ := completes_readLines_iff.1 hr
  obtain rfl : encoding' = encoding := Except.ok.inj (he'.symm.trans he)
  obtain ⟨octets', hcenters⟩ := exists_centers he ht hd
  obtain ⟨w', hrun, -⟩ := hcenters.exists_centerFile ho reporter
  exact ⟨w', hrun⟩

end Recenter.Run.Action
