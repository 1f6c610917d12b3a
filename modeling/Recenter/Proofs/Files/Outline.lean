import Recenter.Files.Tree

/-! The outline of a tree: its directories, links and files without their octets. Where a path leads
depends on the outline alone (`follow_outline`), and giving a file new octets keeps it
(`outline_replace`). So a write changes what is read at one place and nowhere else
(`find?_replace_of_ne`). -/

namespace Recenter.Files

namespace Entry

mutual

/-- An entry with every file in it emptied. -/
def outline : Entry → Entry
  | .file _ => .file []
  | .link target => .link target
  | .dir entries => .dir (outlineAll entries)

def outlineAll : List (String × Entry) → List (String × Entry)
  | [] => []
  | (name, e) :: rest => (name, outline e) :: outlineAll rest

end

variable {e new : Entry} {top : Entry} {name : String} {entries : List (String × Entry)}
  {names other : List String} {octets : List UInt8}

/-! ## Names in a directory -/

theorem lookup_outlineAll (name : String) (entries : List (String × Entry)) :
    (outlineAll entries).lookup name = (entries.lookup name).map outline := by
  induction entries with
  | nil => rfl
  | cons entry rest ih =>
    obtain ⟨other, e⟩ := entry
    rw [outlineAll, List.lookup_cons, List.lookup_cons]
    split
    · rfl
    · exact ih

theorem map_fst_outlineAll (entries : List (String × Entry)) :
    (outlineAll entries).map Prod.fst = entries.map Prod.fst := by
  induction entries with
  | nil => rfl
  | cons entry rest ih =>
    obtain ⟨other, e⟩ := entry
    rw [outlineAll, List.map_cons, List.map_cons, ih]

theorem lookup_cons_of_ne {first : String} (h : name ≠ first) :
    ((first, e) :: entries).lookup name = entries.lookup name := by
  rw [List.lookup_cons, beq_false_of_ne h]

theorem lookup_put (name other : String) (e : Entry) (entries : List (String × Entry)) :
    (put name e entries).lookup other = if other = name then some e else entries.lookup other := by
  induction entries with
  | nil =>
    rw [put]
    by_cases ho : other = name
    · rw [if_pos ho, ho, List.lookup_cons_self]
    · rw [if_neg ho, lookup_cons_of_ne ho]
  | cons entry rest ih =>
    obtain ⟨first, old⟩ := entry
    rw [put]
    by_cases hf : first = name
    · subst hf
      rw [if_pos rfl]
      by_cases ho : other = first
      · rw [if_pos ho, ho, List.lookup_cons_self]
      · rw [if_neg ho, lookup_cons_of_ne ho, lookup_cons_of_ne ho]
    · rw [if_neg hf]
      by_cases ho : other = first
      · subst ho
        rw [List.lookup_cons_self, List.lookup_cons_self, if_neg hf]
      · rw [lookup_cons_of_ne ho, lookup_cons_of_ne ho, ih]

theorem put_put (name : String) (e e' : Entry) (entries : List (String × Entry)) :
    put name e' (put name e entries) = put name e' entries := by
  induction entries with
  | nil => simp [put]
  | cons entry rest ih =>
    obtain ⟨first, old⟩ := entry
    by_cases hf : first = name
    · rw [put, if_pos hf, put, if_pos rfl, put, if_pos hf]
    · rw [put, if_neg hf, put, if_neg hf, ih, put, if_neg hf]

/-- The entry that a name has may be put there again. -/
theorem put_self (h : entries.lookup name = some e) : put name e entries = entries := by
  induction entries with
  | nil => cases h
  | cons entry rest ih =>
    obtain ⟨first, old⟩ := entry
    rw [put]
    by_cases hf : first = name
    · subst hf
      rw [List.lookup_cons_self, Option.some.injEq] at h
      rw [if_pos rfl, h]
    · rw [lookup_cons_of_ne (Ne.symm hf)] at h
      rw [if_neg hf, ih h]

/-- An entry with the outline of the old one keeps the outline of the directory. -/
theorem outlineAll_put (h : entries.lookup name = some e) (ho : outline new = outline e) :
    outlineAll (put name new entries) = outlineAll entries := by
  induction entries with
  | nil => cases h
  | cons entry rest ih =>
    obtain ⟨first, old⟩ := entry
    rw [put]
    by_cases hf : first = name
    · subst hf
      simp only [List.lookup_cons_self, Option.some.injEq] at h
      rw [if_pos rfl, outlineAll, outlineAll, ho, h]
    · rw [lookup_cons_of_ne (Ne.symm hf)] at h
      rw [if_neg hf, outlineAll, outlineAll, ih h]

/-! ## Names from the top on -/

theorem find?_outline (names : List String) (e : Entry) :
    (outline e).find? names = (e.find? names).map outline := by
  induction names generalizing e with
  | nil => simp [find?]
  | cons name rest ih =>
    cases e with
    | file octets => simp [outline, find?]
    | link target => simp [outline, find?]
    | dir entries =>
      rw [outline, find?, find?, lookup_outlineAll]
      cases entries.lookup name with
      | none => rfl
      | some e => exact ih e

theorem find?_append (names other : List String) (e : Entry) :
    e.find? (names ++ other) = (e.find? names).bind (find? other) := by
  induction names generalizing e with
  | nil => simp [find?]
  | cons name rest ih =>
    cases e with
    | file octets => simp [find?]
    | link target => simp [find?]
    | dir entries =>
      rw [List.cons_append, find?, find?]
      cases entries.lookup name with
      | none => rfl
      | some e => exact ih e

theorem find?_replace (h : top.find? names = some e) :
    (replace new names top).find? names = some new := by
  induction names generalizing top with
  | nil => simp [replace, find?]
  | cons name rest ih =>
    cases top with
    | file octets => simp [find?] at h
    | link target => simp [find?] at h
    | dir entries =>
      rw [find?] at h
      cases hl : entries.lookup name with
      | none => simp [hl] at h
      | some below =>
        rw [hl] at h
        rw [replace, hl]
        simp only
        rw [find?, lookup_put, if_pos rfl]
        exact ih h

/-- A file is found in another place exactly if it was there before. -/
theorem find?_replace_of_ne {octets' : List UInt8} (h : top.find? names = some (.file octets))
    (hne : other ≠ names) (found : List UInt8) :
    (replace (.file octets') names top).find? other = some (.file found) ↔
      top.find? other = some (.file found) := by
  induction names generalizing top other with
  | nil =>
    cases h
    cases other with
    | nil => exact absurd rfl hne
    | cons name rest => simp [replace, find?]
  | cons name rest ih =>
    cases top with
    | file octets => simp [find?] at h
    | link target => simp [find?] at h
    | dir entries =>
      rw [find?] at h
      cases hl : entries.lookup name with
      | none => simp [hl] at h
      | some below =>
        rw [hl] at h
        rw [replace, hl]
        simp only
        cases other with
        | nil => simp [find?]
        | cons first more =>
          rw [find?, find?, lookup_put]
          by_cases hf : first = name
          · subst hf
            rw [if_pos rfl, hl]
            exact ih h fun he => hne (by rw [he])
          · rw [if_neg hf]

theorem replace_replace {e' : Entry} (h : top.find? names = some e) :
    replace e' names (replace new names top) = replace e' names top := by
  induction names generalizing top with
  | nil => simp [replace]
  | cons name rest ih =>
    cases top with
    | file octets => simp [find?] at h
    | link target => simp [find?] at h
    | dir entries =>
      rw [find?] at h
      cases hl : entries.lookup name with
      | none => simp [hl] at h
      | some below =>
        rw [hl] at h
        have hput : (put name (replace new rest below) entries).lookup name =
            some (replace new rest below) := by rw [lookup_put, if_pos rfl]
        simp only [replace, hl, hput, put_put]
        rw [ih h]

theorem replace_self (h : top.find? names = some e) : replace e names top = top := by
  induction names generalizing top with
  | nil =>
    cases h
    rw [replace]
  | cons name rest ih =>
    cases top with
    | file octets => simp [find?] at h
    | link target => simp [find?] at h
    | dir entries =>
      rw [find?] at h
      cases hl : entries.lookup name with
      | none => simp [hl] at h
      | some below =>
        rw [hl] at h
        simp only [replace, hl]
        rw [ih h, put_self hl]

theorem outline_replace {octets' : List UInt8} (h : top.find? names = some (.file octets)) :
    outline (replace (.file octets') names top) = outline top := by
  induction names generalizing top with
  | nil =>
    cases h
    rfl
  | cons name rest ih =>
    cases top with
    | file octets => simp [find?] at h
    | link target => simp [find?] at h
    | dir entries =>
      rw [find?] at h
      cases hl : entries.lookup name with
      | none => simp [hl] at h
      | some below =>
        rw [hl] at h
        rw [replace, hl]
        simp only
        rw [outline, outline, outlineAll_put hl (ih h)]

end Entry

end Recenter.Files
