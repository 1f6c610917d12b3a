import Recenter.Config.Load
import Recenter.Proofs.Datum.Shown
import Recenter.Proofs.Json.Digits

/-! What is wrong with a document in JSON can be told: its integers can all be written, and a
message shows nothing but data of the document (`allTold_violations`). -/

namespace Recenter

open Json

namespace Datum

variable {value : Json}

theorem shownIntegersOf_eq_flatMap (items : List Datum) :
    shownIntegersOf items = items.flatMap shownIntegers := by
  induction items with
  | nil => rfl
  | cons datum rest ih => rw [shownIntegersOf, ih, List.flatMap_cons]

theorem shownIntegersIn_eq_flatMap (entries : List (Datum × Datum)) :
    shownIntegersIn entries =
      entries.flatMap fun entry => shownIntegers entry.1 ++ shownIntegers entry.2 := by
  induction entries with
  | nil => rfl
  | cons entry rest ih => rw [shownIntegersIn, ih, List.flatMap_cons]

/-- What is read from JSON and can be written there can be shown. -/
theorem isUnshowable_ofJson (h : IsWritable value) : (ofJson value).isUnshowable = false := by
  simp only [isUnshowable, List.any_eq_false, Bool.not_eq_true]
  induction h with
  | null | bool b | float x | text s => simp [ofJson, shownIntegers]
  | int h => simpa [ofJson, shownIntegers] using h
  | array h ih =>
    simp only [ofJson, shownIntegers, shownIntegersOf_eq_flatMap, ofItems_eq_map, List.flatMap_map,
      List.mem_flatMap]
    rintro n ⟨value, hm, hn⟩
    exact ih value hm n hn
  | object h ih =>
    simp only [ofJson, shownIntegers, shownIntegersIn_eq_flatMap, ofMembers_eq_map,
      List.flatMap_map, List.mem_flatMap, List.nil_append]
    rintro n ⟨m, hm, hn⟩
    exact ih m hm n hn

mutual

/-- What is read from JSON holds nothing by its number. -/
theorem substitute_ofJson (f : Nat → Datum) (value : Json) :
    (ofJson value).substitute f = ofJson value := by
  cases value with
  | array items => rw [ofJson, substitute, substitute_ofItems]
  | object members => rw [ofJson, substitute, substitute_ofMembers]
  | _ => rfl

theorem substitute_ofItems (f : Nat → Datum) (items : List Json) :
    substituteItems f (ofItems items) = ofItems items := by
  cases items with
  | nil => rfl
  | cons value rest => rw [ofItems, substituteItems, substitute_ofJson, substitute_ofItems]

theorem substitute_ofMembers (f : Nat → Datum) (members : List (String × Json)) :
    substituteEntries f (ofMembers members) = ofMembers members := by
  cases members with
  | nil => rfl
  | cons m rest =>
    obtain ⟨name, value⟩ := m
    rw [ofMembers, substituteEntries, substitute_ofJson, substitute_ofMembers]

end

end Datum

namespace Config

open Files

variable {d : Document} {place : List String} {found : Datum} {v : Violation} {path : Path}

/-! ## Reading a JSON document -/

theorem datumGet?_ofMembers (name : String) (members : List (String × Json)) :
    Datum.get? name (Datum.ofMembers members) = (get? name members).map Datum.ofJson := by
  induction members with
  | nil => rfl
  | cons m rest ih =>
    obtain ⟨other, value⟩ := m
    rw [Datum.ofMembers, Datum.get?, get?, List.lookup_cons]
    by_cases h : other = name
    · simp [h]
    · have h' : (name == other) = false := by simpa using fun e => h e.symm
      rw [if_neg h, h', ih, get?]

theorem resolve_ofJson (value : Json) : d.resolve (Datum.ofJson value) = Datum.ofJson value := by
  cases value <;> rfl

/-! ## Violations of a JSON document -/

/-- The datum is that of a JSON value that can be written. -/
def IsPlain (x : Datum) : Prop := ∃ value, IsWritable value ∧ x = Datum.ofJson value

theorem IsPlain.isUnshowable_eq (h : IsPlain found) : found.isUnshowable = false := by
  obtain ⟨value, hv, rfl⟩ := h
  exact Datum.isUnshowable_ofJson hv

theorem IsPlain.resolve_eq (h : IsPlain found) : d.resolve found = found := by
  obtain ⟨value, -, rfl⟩ := h
  exact resolve_ofJson value

theorem IsPlain.writeOut_eq (h : IsPlain found) : d.writeOut found = found := by
  obtain ⟨value, -, rfl⟩ := h
  exact Datum.substitute_ofJson _ value

theorem IsPlain.item {items : List Datum} (h : IsPlain (.list items)) :
    ∀ item ∈ items, IsPlain item := by
  obtain ⟨value, hv, he⟩ := h
  cases hv with
  | array hv =>
    rw [Datum.ofJson, Datum.ofItems_eq_map] at he
    cases he
    intro item hm
    obtain ⟨value, hvalue, rfl⟩ := List.mem_map.1 hm
    exact ⟨value, hv value hvalue, rfl⟩
  | _ => cases he

theorem IsPlain.entry {entries : List (Datum × Datum)} (h : IsPlain (.table entries)) :
    ∀ entry ∈ entries, IsPlain entry.1 ∧ IsPlain entry.2 := by
  obtain ⟨value, hv, he⟩ := h
  cases hv with
  | object hv =>
    rw [Datum.ofJson, Datum.ofMembers_eq_map] at he
    cases he
    intro entry hm
    obtain ⟨m, hmember, rfl⟩ := List.mem_map.1 hm
    exact ⟨⟨.text m.1, .text _, rfl⟩, m.2, hv m hmember, rfl⟩
  | _ => cases he

theorem mem_of_get? {name : String} {entries : List (Datum × Datum)}
    (h : Datum.get? name entries = some found) : (.text name, found) ∈ entries := by
  fun_induction Datum.get? name entries <;> simp_all

def AllTold (violations : List Violation) : Prop := ∀ v ∈ violations, v.isUntold = false

theorem allTold_append {first second : List Violation} (h : AllTold first) (h' : AllTold second) :
    AllTold (first ++ second) := fun v hm => (List.mem_append.1 hm).elim (h v) (h' v)

theorem allTold_wrongKind (h : IsPlain found) (kind : Kind) :
    AllTold [⟨place, .wrongKind (d.writeOut found) kind⟩] := by
  intro v hm
  rw [List.mem_singleton.1 hm]
  simp [Violation.isUntold, Problem.shown, h.writeOut_eq, h.isUnshowable_eq]

theorem allTold_empty (h : IsPlain found) : AllTold [⟨place, .empty found⟩] := by
  intro v hm
  rw [List.mem_singleton.1 hm]
  simp [Violation.isUntold, Problem.shown, h.isUnshowable_eq]

theorem isPlain_text (s : String) : IsPlain (.text s) := ⟨.text s, .text s, rfl⟩

theorem allTold_checkText (h : IsPlain found) : AllTold (Schema.checkText d place found) := by
  unfold Schema.checkText
  split
  · split
    · exact allTold_empty (isPlain_text _)
    · nofun
  · exact allTold_wrongKind h .string

theorem allTold_checkItems {items : List Datum} (h : ∀ item ∈ items, IsPlain item) (index : Nat) :
    AllTold (Schema.checkItems d place index items) := by
  induction items generalizing index with
  | nil => nofun
  | cons item rest ih =>
    rw [List.forall_mem_cons] at h
    exact allTold_append (allTold_checkText h.1) (ih h.2 _)

theorem allTold_checkValue {rule : Schema.Rule} (h : IsPlain found) :
    AllTold (Schema.checkValue d place rule found) := by
  unfold Schema.checkValue
  split
  · exact allTold_checkText h
  · rw [h.resolve_eq]
    split
    · refine allTold_append ?_ (allTold_checkItems h.item 0)
      split
      · exact allTold_empty ⟨.array [], .array nofun, rfl⟩
      · nofun
    · exact allTold_wrongKind h .array

theorem allTold_check (h : IsPlain d.root) : AllTold (Schema.check d) := by
  unfold Schema.check
  rw [h.resolve_eq]
  split
  · next entries he =>
    rw [he] at h
    refine allTold_append ?_ fun v hm => ?_
    · split
      · nofun
      · intro v hm
        rw [List.mem_singleton.1 hm]
        simp only [Violation.isUntold, Problem.shown, List.any_eq_false, Bool.not_eq_true]
        intro key hkey
        obtain ⟨entry, hentry, rfl⟩ := List.mem_map.1 (List.mem_filter.1 hkey).1
        exact (h.entry entry hentry).1.isUnshowable_eq
    · obtain ⟨⟨name, rule⟩, -, hm⟩ := List.mem_flatMap.1 hm
      simp only at hm
      split at hm
      · next value hvalue => exact allTold_checkValue (h.entry _ (mem_of_get? hvalue)).2 v hm
      · cases hm
  · exact allTold_wrongKind h .object

theorem isPlain_orEmpty {value : Json} (h : IsWritable value) :
    IsPlain (orEmpty (.ofJson value)).root := by
  unfold orEmpty
  split
  · exact ⟨.object [], .object nofun, rfl⟩
  · exact ⟨value, h, rfl⟩

/-- All that is wrong with a document in JSON can be told. -/
theorem allTold_violations {value : Json} (h : IsWritable value) :
    AllTold (violations (orEmpty (.ofJson value))) := by
  intro v hm
  exact allTold_check (isPlain_orEmpty h) v (List.mem_mergeSort.1 hm)

end Config

end Recenter
