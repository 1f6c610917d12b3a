import Recenter.Datum.Shown
import Recenter.Proofs.Json.Arranged
import Recenter.Proofs.Json.Spelling
import Recenter.Proofs.Text.Line

/-! Data of JSON values as they are shown. Between quotes there is no line feed
(`lineFeed_notMem_quoted`), so that all that is shown stays on one line (`lineFeed_notMem_shown`).
A value that is written out by itself leaves its line only as a text that does
(`lineFeed_mem_plain_iff`). -/

namespace Recenter

open Json Text

/-! ## Quoted text -/

namespace Text

variable {quote c : Char} {n : Nat}

theorem lineFeed_notMem_escapeCode : '\n' ∉ escapeCode n := by
  have hcode : ∀ {letter : Char} {width : Nat}, letter ≠ '\n' →
      '\n' ∉ '\\' :: letter :: hex width n := by
    intro letter width hl
    have hhex : '\n' ∉ hex width n := lineFeed_notMem_of_isPrinted fun _ => isPrinted_of_mem_hex
    simp [hl.symm, hhex]
  unfold escapeCode
  split
  · exact hcode (by decide)
  split
  · exact hcode (by decide)
  · exact hcode (by decide)

/-- The line feed is escaped, as any other character that is not printable. -/
theorem lineFeed_notMem_quotedChar (hq : quote ≠ '\n') : '\n' ∉ quotedChar quote c := by
  unfold quotedChar
  split
  · next h =>
    simp only [Bool.or_eq_true, beq_iff_eq] at h
    obtain rfl | rfl := h
    · simpa using hq.symm
    · decide
  split
  · decide
  next hc =>
  split
  · decide
  split
  · decide
  split
  · exact fun hm => hc (beq_iff_eq.2 (List.mem_singleton.1 hm).symm)
  · exact lineFeed_notMem_escapeCode

theorem quoteFor_ne_lineFeed (s : List Char) : quoteFor s ≠ '\n' := by
  unfold quoteFor
  split <;> decide

theorem lineFeed_notMem_quoted (s : List Char) : '\n' ∉ quoted s := by
  have hq := quoteFor_ne_lineFeed s
  simp only [quoted, List.cons_append, List.mem_cons, List.mem_append, List.mem_flatMap,
    List.not_mem_nil, or_false, not_or, not_exists, not_and]
  exact ⟨hq.symm, fun _ _ => lineFeed_notMem_quotedChar hq, hq.symm⟩

end Text

/-! ## Data of JSON values -/

namespace Datum

variable {value : Json}

theorem ofItems_eq_map (items : List Json) : ofItems items = items.map ofJson := by
  induction items with
  | nil => rfl
  | cons value rest ih => rw [ofItems, ih, List.map_cons]

theorem ofMembers_eq_map (members : List (String × Json)) :
    ofMembers members = members.map fun m => (.text m.1, ofJson m.2) := by
  induction members with
  | nil => rfl
  | cons m rest ih => rw [ofMembers, ih, List.map_cons]

theorem shownItems_eq_map (items : List Datum) : shownItems items = items.map shown := by
  induction items with
  | nil => rfl
  | cons datum rest ih => rw [shownItems, ih, List.map_cons]

theorem shownEntries_eq_map (entries : List (Datum × Datum)) :
    shownEntries entries = entries.map fun e => shown e.1 ++ [':', ' '] ++ shown e.2 := by
  induction entries with
  | nil => rfl
  | cons entry rest ih => rw [shownEntries, ih, List.map_cons]

theorem lineFeed_notMem_enclosed {opening closing : Char} {parts : List (List Char)}
    (ho : opening ≠ '\n') (hc : closing ≠ '\n') (h : ∀ part ∈ parts, '\n' ∉ part) :
    '\n' ∉ enclosed opening closing parts := by
  simp only [enclosed, List.cons_append, List.mem_cons, List.mem_append, List.not_mem_nil,
    or_false, not_or]
  refine ⟨ho.symm, fun hm => ?_, hc.symm⟩
  obtain ⟨part, hp, hm⟩ | hm := mem_of_mem_intercalate hm
  · exact h part hp hm
  · exact absurd hm (by decide)

theorem lineFeed_notMem_shownFloat (x : Number.Binary64) : '\n' ∉ shownFloat x := by
  cases x with
  | finite negative mantissa exponent =>
    exact lineFeed_notMem_of_isPrinted fun _ => isPrinted_of_mem_finiteText
  | infinite negative => cases negative <;> decide
  | nan => decide

/-- A value is shown on one line. -/
theorem lineFeed_notMem_shown (value : Json) : '\n' ∉ shown (ofJson value) := by
  induction value using induction_on_parts with
  | null => decide
  | bool b => cases b <;> decide
  | int n => exact lineFeed_notMem_of_isPrinted fun _ => isPrinted_of_mem_writtenInt
  | float x => exact lineFeed_notMem_shownFloat x
  | text s => exact lineFeed_notMem_quoted s.toList
  | array items ih =>
    rw [ofJson, shown, shownItems_eq_map, ofItems_eq_map]
    refine lineFeed_notMem_enclosed (by decide) (by decide) ?_
    simpa only [List.forall_mem_map] using ih
  | object members ih =>
    rw [ofJson, shown, shownEntries_eq_map, ofMembers_eq_map]
    refine lineFeed_notMem_enclosed (by decide) (by decide) ?_
    simp only [List.forall_mem_map, List.mem_append, not_or]
    exact fun m hm => ⟨⟨lineFeed_notMem_quoted m.1.toList, by decide⟩, ih m hm⟩

/-- Only a text is written out as it is. -/
theorem lineFeed_mem_plain_iff :
    '\n' ∈ plain (ofJson value) ↔ ∃ s, value = .text s ∧ '\n' ∈ s.toList := by
  have hshown := lineFeed_notMem_shown value
  cases value with
  | text s => simp [ofJson, plain]
  | _ => simpa [ofJson, plain] using hshown

end Datum

end Recenter
