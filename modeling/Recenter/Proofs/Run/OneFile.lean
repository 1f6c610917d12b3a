import Recenter.Proofs.Passes.Round
import Recenter.Proofs.Run.Steps
import Recenter.Run.Center

/-! A run on one file. The two passes read the file and write it where it changes, so that a run
that completes leaves the lines of one round in the file, names the passes that changed them, and
leaves every other file as it is (`completes_centerFile`). -/

namespace Recenter.Run.Action

open Recenter.Files Recenter.Text Recenter.Banner Recenter.Config

variable {w w' w'' : World} {path : Path} {name : String} {lines : List Line} {names : List String}
  {changed : Bool} {pass : List Line → Revision}

/-! ## Reading and writing lines -/

theorem completes_readLines_unique {lines' : List Line}
    (h : Completes (readLines path name) w lines w)
    (h' : Completes (readLines path name) w lines' w) : lines = lines' := by
  unfold Completes at h h'
  rw [h] at h'
  cases h'
  rfl

theorem completes_readLines_of_files_eq (hf : w'.files = w.files)
    (h : Completes (readLines path name) w lines w) :
    Completes (readLines path name) w' lines w' := by
  rw [completes_readLines_iff] at h ⊢
  rw [hf]
  exact ⟨rfl, h.2⟩

theorem exists_leads (h : Completes (readLines path name) w lines w) :
    ∃ names, w.files.Leads path names := by
  obtain ⟨-, encoding, octets, text, -, hr, -, -⟩ := completes_readLines_iff.1 h
  obtain ⟨names, hp⟩ := FileTree.read_eq_ok_iff.1 hr
  exact ⟨names, octets, hp⟩

theorem not_mem_of_readLines (h : Completes (readLines path name) w lines w) :
    ∀ line ∈ lines, '\n' ∉ line := by
  obtain ⟨-, encoding, octets, text, -, -, -, rfl⟩ := completes_readLines_iff.1 h
  exact not_mem_of_mem_splitLines text

theorem ne_nil_of_readLines (h : Completes (readLines path name) w lines w) : lines ≠ [] := by
  obtain ⟨-, encoding, octets, text, -, -, -, rfl⟩ := completes_readLines_iff.1 h
  exact splitLines_ne_nil text

theorem lines_eq_of_read_eq {lines' : List Line} (h : Completes (readLines path name) w lines w)
    (h' : Completes (readLines path name) w' lines' w')
    (hr : w'.files.read path = w.files.read path) : lines' = lines := by
  obtain ⟨-, encoding, octets, text, he, ho, hd, rfl⟩ := completes_readLines_iff.1 h
  obtain ⟨-, encoding', octets', text', he', ho', hd', rfl⟩ := completes_readLines_iff.1 h'
  rw [hr, ho] at ho'
  rw [he] at he'
  cases ho'
  cases he'
  rw [hd] at hd'
  cases hd'
  rfl

/-- A file is given the octets of the lines. -/
theorem completes_writeLines_iff_rewrite {encoding : Codec.Encoding}
    (he : Codec.Encoding.ofFileName name = .ok encoding) (hl : w.files.Leads path names)
    {u : Unit} :
    Completes (writeLines path lines name) w u w' ↔
      ∃ octets, encoding.encode (joinLines lines) = .ok octets ∧
        w' = { w with files := w.files.rewrite names octets } := by
  obtain ⟨old, hold⟩ := hl.exists_find?
  have hl' : (w.files.rewrite names []).Leads path names :=
    (FileTree.sameOutline_rewrite hold []).leads hl
  rw [completes_writeLines_iff]
  constructor
  · intro hx
    obtain ⟨encoding', emptied, octets, files, he', hempty, ho, hfull, rfl⟩ := hx
    obtain rfl : encoding' = encoding := Except.ok.inj (he'.symm.trans he)
    obtain rfl := hl.write_eq hempty
    exact ⟨octets, ho, by rw [hl'.write_eq hfull, FileTree.rewrite_rewrite hold]⟩
  · intro hx
    obtain ⟨octets, ho, rfl⟩ := hx
    refine ⟨encoding, _, octets, _, he, hl.write_eq_ok [], ho, hl'.write_eq_ok octets, ?_⟩
    rw [FileTree.rewrite_rewrite hold]

/-- Lines that have been written are read again, and only that file is touched. -/
theorem completes_writeLines (hl : w.files.Leads path names) {u : Unit}
    (h : Completes (writeLines path lines name) w u w') (hne : lines ≠ [])
    (hlf : ∀ line ∈ lines, '\n' ∉ line) :
    Completes (readLines path name) w' lines w' ∧ w.files.Touches w'.files names ∧
      w'.announced = w.announced := by
  obtain ⟨encoding, _, _, _, he, -⟩ := completes_writeLines_iff.1 h
  obtain ⟨octets, hoctets, rfl⟩ := (completes_writeLines_iff_rewrite he hl).1 h
  obtain ⟨old, hold⟩ := hl.exists_find?
  refine ⟨?_, FileTree.touches_rewrite hold octets, rfl⟩
  exact completes_readLines_iff.2 ⟨rfl, encoding, octets, joinLines lines, he,
    hl.read_rewrite octets, Codec.Encoding.decode_encode hoctets,
    (splitLines_joinLines hlf hne).symm⟩

/-! ## One pass -/

/-- A pass keeps the number of lines, brings no line feed into one, and reports a change exactly if
a line differs. -/
structure Faithful (pass : List Line → Revision) : Prop where
  changed_iff : ∀ lines, (pass lines).changed = true ↔ (pass lines).lines ≠ lines
  length_eq : ∀ lines, (pass lines).lines.length = lines.length
  lineFeed : ∀ lines : List Line, (∀ line ∈ lines, '\n' ∉ line) →
    ∀ line ∈ (pass lines).lines, '\n' ∉ line

theorem Faithful.lines_eq (hp : Faithful pass) (hc : ¬ (pass lines).changed = true) :
    (pass lines).lines = lines := by
  by_contra hne
  exact hc ((hp.changed_iff lines).2 hne)

theorem Faithful.ne_nil (hp : Faithful pass) (hne : lines ≠ []) : (pass lines).lines ≠ [] := by
  rw [← List.length_pos_iff, hp.length_eq, List.length_pos_iff]
  exact hne

theorem faithful_region (borders : Region.Borders) : Faithful (Region.centerLines borders) where
  changed_iff := Region.changed_centerLines_iff borders
  length_eq := Region.length_centerLines borders
  lineFeed _ := Region.not_mem_lines_centerLines

theorem faithful_section (token : Section.Token) : Faithful (Section.centerLines token) where
  changed_iff := Section.changed_centerLines_iff token
  length_eq _ := Section.length_centerLines
  lineFeed _ := Section.not_mem_lines_centerLines

theorem completes_reviseFile_iff :
    Completes (reviseFile path name pass) w changed w' ↔
      ∃ lines, Completes (readLines path name) w lines w ∧ changed = (pass lines).changed ∧
        if changed = true then Completes (writeLines path (pass lines).lines name) w () w'
        else w' = w := by
  unfold reviseFile
  simp only [completes_bind_iff]
  constructor
  · intro hx
    obtain ⟨lines, w₁, hr, h⟩ := hx
    obtain ⟨rfl, -⟩ := completes_readLines_iff.1 hr
    refine ⟨lines, hr, ?_⟩
    split at h
    · next hc =>
      obtain ⟨_, _, hw, h⟩ := completes_bind_iff.1 h
      obtain ⟨rfl, rfl⟩ := completes_pure_iff.1 h
      exact ⟨rfl, by rwa [if_pos hc]⟩
    · next hc =>
      obtain ⟨rfl, rfl⟩ := completes_pure_iff.1 h
      exact ⟨rfl, by rw [if_neg hc]⟩
  · intro hx
    obtain ⟨lines, hr, rfl, h⟩ := hx
    refine ⟨lines, w, hr, ?_⟩
    split at h
    · next hc =>
      rw [if_pos hc]
      exact completes_bind_iff.2 ⟨(), w', h, completes_pure_iff.2 ⟨rfl, rfl⟩⟩
    · next hc =>
      rw [if_neg hc, h]
      exact completes_pure_iff.2 ⟨rfl, rfl⟩

/-- The lines that a pass makes of a file are in the file afterwards. -/
theorem completes_reviseFile (hp : Faithful pass)
    (h : Completes (reviseFile path name pass) w changed w') :
    ∃ lines, Completes (readLines path name) w lines w ∧ changed = (pass lines).changed ∧
      Completes (readLines path name) w' (pass lines).lines w' ∧
      (∀ names, w.files.Leads path names → w.files.Touches w'.files names) ∧
      w'.announced = w.announced ∧ (changed = false → w' = w) := by
  obtain ⟨lines, hr, rfl, h⟩ := completes_reviseFile_iff.1 h
  refine ⟨lines, hr, rfl, ?_⟩
  split at h
  · next hc =>
    have hne := hp.ne_nil (ne_nil_of_readLines hr)
    have hlf := hp.lineFeed lines (not_mem_of_readLines hr)
    obtain ⟨names, hl⟩ := exists_leads hr
    obtain ⟨hread, -, hannounced⟩ := completes_writeLines hl h hne hlf
    refine ⟨hread, fun names hl => (completes_writeLines hl h hne hlf).2.1, hannounced, ?_⟩
    intro hf
    rw [hc] at hf
    cases hf
  · next hc =>
    rw [h, hp.lines_eq hc]
    exact ⟨hr, fun names _ => .refl _ _, rfl, fun _ => rfl⟩

/-! ## Both passes -/

/-- Which passes change the lines, if the second takes up what the first has made of them. -/
def passesOn (borders : Region.Borders) (token : Section.Token) (lines : List Line) : List Pass :=
  (if (Region.centerLines borders lines).changed then [.regions] else []) ++
    if (Section.centerLines token (Region.centerLines borders lines).lines).changed then [.sections]
    else []

theorem sublist_passesOn (borders : Region.Borders) (token : Section.Token) (lines : List Line) :
    (passesOn borders token lines).Sublist [.regions, .sections] := by
  unfold passesOn
  split <;> split <;> decide

/-- No pass is named exactly if the round leaves the lines as they are. -/
theorem passesOn_eq_nil_iff {borders : Region.Borders} {token : Section.Token}
    (hlf : ∀ line ∈ lines, '\n' ∉ line) :
    passesOn borders token lines = [] ↔ round borders token lines = lines := by
  have hregion := Region.changed_centerLines_iff borders lines
  have hsection := Section.changed_centerLines_iff token (Region.centerLines borders lines).lines
  have hnil : passesOn borders token lines = [] ↔
      ¬ (Region.centerLines borders lines).changed = true ∧
        ¬ (Section.centerLines token (Region.centerLines borders lines).lines).changed = true := by
    unfold passesOn
    rw [List.append_eq_nil_iff]
    refine and_congr ?_ ?_ <;> split <;> simp_all
  rw [hnil, hregion, hsection, Decidable.not_not, Decidable.not_not, round_eq_self_iff hlf]
  constructor
  · intro h
    obtain ⟨hr, hs⟩ := h
    rw [hr] at hs
    exact ⟨hr, hs⟩
  · intro h
    obtain ⟨hr, hs⟩ := h
    exact ⟨hr, by rw [hr, hs]⟩

/-- The paths that one announcement adds. -/
def announcement (reporter : Reporter) (path : Path) : List Path :=
  match reporter with
  | none => []
  | some _ => [path]

theorem completes_announce {reporter : Reporter} {u : Unit}
    (h : Completes (announce reporter path) w u w') :
    w'.files = w.files ∧ w'.announced = w.announced ++ announcement reporter path := by
  cases reporter with
  | none =>
    obtain ⟨-, rfl⟩ := completes_pure_iff.1 h
    exact ⟨rfl, (List.append_nil _).symm⟩
  | some text =>
    rw [announce, completes_modify_iff] at h
    rw [h]
    exact ⟨rfl, rfl⟩

/-- A pass that has changed the file is announced, and nothing else happens. -/
structure Announced (reporter : Reporter) (path : Path) (changed : Bool) (w w' : World) : Prop where
  files_eq : w'.files = w.files
  announced_eq : w'.announced =
    w.announced ++ if changed then announcement reporter path else []
  unchanged : changed = false → w' = w

theorem completes_announced {reporter : Reporter} {α : Type} {k : Action α} {a : α}
    (h : Completes (do
      if changed then announce reporter path
      k) w a w') :
    ∃ w₁, Announced reporter path changed w w₁ ∧ Completes k w₁ a w' := by
  cases changed with
  | false => exact ⟨w, ⟨rfl, (List.append_nil _).symm, fun _ => rfl⟩, h⟩
  | true =>
    obtain ⟨_, w₁, ha, hk⟩ := completes_bind_iff.1 h
    obtain ⟨hf, hannounced⟩ := completes_announce ha
    exact ⟨w₁, ⟨hf, hannounced, nofun⟩, hk⟩

variable {settings : Settings} {reporter : Reporter} {passes : List Pass}

/-- The passes that a run names: those that have changed the file. -/
def passesOf (regions sections : Bool) : List Pass :=
  (if regions then [.regions] else []) ++ if sections then [.sections] else []

/-- The two passes of a run, each followed by its announcement. -/
theorem exists_passes_of_centerFile
    (h : Completes (centerFile path settings reporter) w passes w') :
    ∃ token regions sections w₁ w₂ w₃,
      Section.Token.ofList? settings.lineComment.toList = some token ∧
      Completes (reviseFile path settings.encoding (Region.centerLines settings.borders))
        w regions w₁ ∧
      Announced reporter path regions w₁ w₂ ∧
      Completes (reviseFile path settings.encoding (Section.centerLines token)) w₂ sections w₃ ∧
      Announced reporter path sections w₃ w' ∧ passes = passesOf regions sections := by
  unfold centerFile regionPass sectionPass at h
  obtain ⟨regions, w₁, hregion, h⟩ := completes_bind_iff.1 h
  obtain ⟨w₂, hannounced, h⟩ := completes_announced h
  obtain ⟨sections, w₃, hsection, h⟩ := completes_bind_iff.1 h
  obtain ⟨w₄, hannounced', h⟩ := completes_announced h
  obtain ⟨rfl, rfl⟩ := completes_pure_iff.1 h
  split at hsection
  · exact absurd hsection not_completes_fail
  next token htoken =>
  exact ⟨token, regions, sections, w₁, w₂, w₃, htoken, hregion, hannounced, hsection,
    hannounced', rfl⟩

/-- What a run on one file has done: it has read these lines and left those of one round. -/
structure Outcome (path : Path) (settings : Settings) (reporter : Reporter) (w : World)
    (passes : List Pass) (w' : World) (token : Section.Token) (lines : List Line) : Prop where
  token_eq : Section.Token.ofList? settings.lineComment.toList = some token
  before : Completes (readLines path settings.encoding) w lines w
  after : Completes (readLines path settings.encoding) w' (round settings.borders token lines) w'
  passes_eq : passes = passesOn settings.borders token lines
  touches : ∀ names, w.files.Leads path names → w.files.Touches w'.files names
  announced : w'.announced = w.announced ++ passes.flatMap fun _ => announcement reporter path
  unchanged : passes = [] → w' = w

theorem completes_centerFile (h : Completes (centerFile path settings reporter) w passes w') :
    ∃ token lines, Outcome path settings reporter w passes w' token lines := by
  obtain ⟨token, regions, sections, w₁, w₂, w₃, htoken, hregion, ha₂, hsection, ha₄, rfl⟩ :=
    exists_passes_of_centerFile h
  obtain ⟨lines, hbefore, rfl, hmid, htouch, ha₁, hw₁⟩ :=
    completes_reviseFile (faithful_region settings.borders) hregion
  obtain ⟨lines', hbefore', rfl, hafter, htouch', ha₃, hw₃⟩ :=
    completes_reviseFile (faithful_section token) hsection
  obtain rfl :=
    completes_readLines_unique (completes_readLines_of_files_eq ha₂.files_eq hmid) hbefore'
  refine ⟨token, lines, htoken, hbefore, completes_readLines_of_files_eq ha₄.files_eq hafter, rfl,
    ?_, ?_, ?_⟩
  · intro names hl
    have htouches := htouch names hl
    rw [← ha₂.files_eq] at htouches
    rw [ha₄.files_eq]
    exact htouches.trans (htouch' names (htouches.outline.leads hl))
  · rw [ha₄.announced_eq, ha₃, ha₂.announced_eq, ha₁, passesOf, List.flatMap_append,
      List.append_assoc]
    congr 1
    split <;> split <;> simp
  · intro hnil
    rw [passesOf, List.append_eq_nil_iff] at hnil
    have hregions : (Region.centerLines settings.borders lines).changed = false := by
      simpa using hnil.1
    have hsections : (Section.centerLines token
        (Region.centerLines settings.borders lines).lines).changed = false := by
      simpa using hnil.2
    rw [ha₄.unchanged hsections, hw₃ hsections, ha₂.unchanged hregions, hw₁ hregions]

end Recenter.Run.Action
