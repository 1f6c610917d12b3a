import Recenter.Config.Load

/-! Settings that have been loaded can be used (`usable_of_load`): no text in them is empty, so that
there is a comment token, and their encoding is one that files can be opened with. Arguments on top
change neither. -/

namespace Recenter.Config

open Recenter.Files

variable {d : Document} {place : List String} {found value : Datum} {name : String} {path : Path}
  {settings loaded : Settings}

namespace Schema

theorem checkText_eq_nil_iff :
    checkText d place found = [] ↔ ∃ s, d.resolve found = .text s ∧ s ≠ "" := by
  unfold checkText
  split
  · next s h =>
    by_cases hs : s.isEmpty = true
    · simp_all
    · simp_all
  · next hne =>
    constructor
    · nofun
    · intro hx
      obtain ⟨s, h, -⟩ := hx
      exact absurd h (hne s)

/-- What a document has under a known key is as its rule says, if nothing is wrong with the
document. -/
theorem exists_checkValue_of_check {rule : Rule} (h : check d = []) (hrule : (name, rule) ∈ rules)
    (hv : d.get? name = some value) :
    ∃ found, d.resolve found = value ∧ checkValue d [name] rule found = [] := by
  unfold check at h
  split at h
  · next entries he =>
    rw [List.append_eq_nil_iff, List.flatMap_eq_nil_iff] at h
    have hname := h.2 _ hrule
    have hentries : d.entries = entries := by rw [Document.entries, he]
    rw [Document.get?, hentries, Option.map_eq_some_iff] at hv
    obtain ⟨found, hf, rfl⟩ := hv
    simp only [hf] at hname
    exact ⟨found, rfl, hname⟩
  · cases h

theorem exists_text_of_check (h : check d = []) (hrule : (name, .text) ∈ rules)
    (hv : d.get? name = some value) : ∃ s, value = .text s ∧ s ≠ "" := by
  obtain ⟨found, rfl, hc⟩ := exists_checkValue_of_check h hrule hv
  obtain ⟨s, hs, hne⟩ := checkText_eq_nil_iff.1 hc
  exact ⟨s, hs, hne⟩

end Schema

theorem violations_eq_nil_iff : violations d = [] ↔ Schema.check d = [] := by
  rw [violations, ← List.length_eq_zero_iff, List.length_mergeSort, List.length_eq_zero_iff]

/-- Settings from a document have passed its check, and their encoding has a name. -/
theorem exists_document_of_ofDocument (h : ofDocument path d = .ok settings) :
    ∃ d source, Schema.check d = [] ∧ settings = Settings.ofDocument d source ∧
      ∃ encoding, Codec.Encoding.ofName settings.encoding = .ok encoding := by
  unfold ofDocument at h
  simp only at h
  split at h
  · cases h
  split at h
  · cases h
  next hempty =>
  split at h
  · next encoding he =>
    cases h
    refine ⟨orEmpty d, _, ?_, rfl, encoding, he⟩
    rw [← violations_eq_nil_iff]
    simpa using hempty
  · cases h
  · cases h

/-- A text that the document leaves out is the standard one, and no text that it gives is empty. -/
theorem text_ne_empty (h : Schema.check d = []) (hrule : (name, .text) ∈ Schema.rules)
    {standard : String} (hs : standard ≠ "") :
    ((d.get? name).map Settings.text).getD standard ≠ "" := by
  cases hv : d.get? name with
  | none => exact hs
  | some value =>
    obtain ⟨s, rfl, hne⟩ := Schema.exists_text_of_check h hrule hv
    exact hne

theorem exists_token_of_ne_empty (h : settings.lineComment ≠ "") :
    ∃ token, Banner.Section.Token.ofList? settings.lineComment.toList = some token := by
  have hne : settings.lineComment.toList ≠ [] := fun he => h (String.toList_eq_nil_iff.1 he)
  exact ⟨⟨_, hne⟩, dif_neg hne⟩

theorem exists_ofFileName {encoding : Codec.Encoding}
    (h : Codec.Encoding.ofName name = .ok encoding) :
    ∃ encoding, Codec.Encoding.ofFileName name = .ok encoding := by
  unfold Codec.Encoding.ofFileName
  split
  · exact ⟨.utf8, rfl⟩
  · exact ⟨encoding, h⟩

/-- Settings with which files can be read and section banners can be told. -/
structure Usable (settings : Settings) : Prop where
  token : ∃ token, Banner.Section.Token.ofList? settings.lineComment.toList = some token
  encoding : ∃ encoding, Codec.Encoding.ofFileName settings.encoding = .ok encoding

theorem Usable.override (h : Usable settings) (endings excluded : List String) :
    Usable (settings.override endings excluded) := ⟨h.token, h.encoding⟩

theorem usable_standard : Usable {} where
  token := ⟨.slashes, rfl⟩
  encoding := ⟨.utf8, rfl⟩

theorem usable_of_ofDocument (h : ofDocument path d = .ok settings) : Usable settings := by
  obtain ⟨d, source, hcheck, rfl, encoding, he⟩ := exists_document_of_ofDocument h
  refine ⟨exists_token_of_ne_empty ?_, exists_ofFileName he⟩
  exact text_ne_empty hcheck (by simp [Schema.rules]) (by decide)

theorem usable_of_load {files : FileTree} {path : Option Path}
    (h : load files path = .ok loaded) : Usable loaded := by
  unfold load at h
  split at h
  · cases h
    exact usable_standard
  split at h
  · next path _ octets _ =>
    unfold ofOctets at h
    split at h
    · cases h
    · next text _ =>
      cases hp : parse path (Text.unifyEol text) with
      | error e =>
        rw [hp] at h
        cases h
      | ok d =>
        rw [hp] at h
        exact usable_of_ofDocument h
  · cases h
  · cases h

end Recenter.Config
