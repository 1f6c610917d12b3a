import Mathlib.Data.String.Basic
import Recenter.Proofs.Config.Told

/-! What is found wrong with a JSON value as a configuration. A value is a configuration if it is an
object with known names, under which there are texts or lists of texts, and none of these texts is
empty. Every place at which something else is found is told once, and the places ascend as lists of
texts (`violations_ofJson`). -/

namespace Recenter.Config

open Json

variable {d : Document} {place : List String} {value : Json} {v : Violation} {name : String}
  {items : List Json} {members : List (String × Json)} {problem : Problem} {rule : Schema.Rule}

/-! ## Configurations -/

def listNames : List String := ["extensions", "exclude_dirs"]

def textNames : List String := ["region_start", "region_end", "line_comment", "encoding"]

def IsFilledText (value : Json) : Prop := ∃ s, value = .text s ∧ s ≠ ""

/-- A list, maybe an empty one, of texts that are not. -/
def IsTextList (value : Json) : Prop :=
  ∃ items, value = .array items ∧ ∀ item ∈ items, IsFilledText item

/-- The members of a configuration. None of them has to be there. -/
structure IsConfiguration (members : List (String × Json)) : Prop where
  names : ∀ m ∈ members, m.1 ∈ listNames ++ textNames
  lists : ∀ name ∈ listNames, ∀ value, get? name members = some value → IsTextList value
  extension : get? "extensions" members ≠ some (.array [])
  texts : ∀ name ∈ textNames, ∀ value, get? name members = some value → IsFilledText value

/-! ## What is wrong with a value -/

/-- What is wrong with a value in the place of a text. -/
inductive IsTextProblem : Json → Problem → Prop
  | wrongKind {value : Json} : (∀ s, value ≠ .text s) →
      IsTextProblem value (.wrongKind (.ofJson value) .string)
  | empty : IsTextProblem (.text "") (.empty (.text ""))

/-- The names that no configuration has. -/
def unknownNames (members : List (String × Json)) : List String :=
  (members.map Prod.fst).filter fun name => decide (name ∉ listNames ++ textNames)

/-- What is wrong with a value in the place of a configuration. All unknown names are one violation,
whose place is the whole, and items have the numbers from zero on for places. -/
inductive IsViolation : Json → Violation → Prop
  | noObject {value : Json} : (∀ members, value ≠ .object members) →
      IsViolation value ⟨[], .wrongKind (.ofJson value) .object⟩
  | unknown {members : List (String × Json)} : unknownNames members ≠ [] →
      IsViolation (.object members) ⟨[], .unknownKeys ((unknownNames members).map .text)⟩
  | noList {members : List (String × Json)} {name : String} {value : Json} : name ∈ listNames →
      get? name members = some value → (∀ items, value ≠ .array items) →
      IsViolation (.object members) ⟨[name], .wrongKind (.ofJson value) .array⟩
  | noExtension {members : List (String × Json)} : get? "extensions" members = some (.array []) →
      IsViolation (.object members) ⟨["extensions"], .empty (.list [])⟩
  | item {members : List (String × Json)} {name : String} {items : List Json} {index : Nat}
      {item : Json} {problem : Problem} : name ∈ listNames →
      get? name members = some (.array items) → items[index]? = some item →
      IsTextProblem item problem →
      IsViolation (.object members) ⟨[name, toString index], problem⟩
  | text {members : List (String × Json)} {name : String} {value : Json} {problem : Problem} :
      name ∈ textNames → get? name members = some value → IsTextProblem value problem →
      IsViolation (.object members) ⟨[name], problem⟩

theorem isFilledText_or_problem (value : Json) :
    IsFilledText value ∨ ∃ problem, IsTextProblem value problem := by
  cases value with
  | text s =>
    by_cases hs : s = ""
    · subst hs
      exact .inr ⟨_, .empty⟩
    · exact .inl ⟨s, rfl, hs⟩
  | _ => exact .inr ⟨_, .wrongKind nofun⟩

theorem IsTextProblem.not_isFilledText (h : IsTextProblem value problem) :
    ¬ IsFilledText value := by
  rintro ⟨s, rfl, hs⟩
  cases h with
  | wrongKind hne => exact hne s rfl
  | empty => exact hs rfl

theorem IsTextProblem.unique {problem' : Problem} (h : IsTextProblem value problem)
    (h' : IsTextProblem value problem') : problem = problem' := by
  cases h with
  | wrongKind hne =>
    cases h' with
    | wrongKind _ => rfl
    | empty => exact absurd rfl (hne "")
  | empty =>
    cases h' with
    | wrongKind hne => exact absurd rfl (hne "")
    | empty => rfl

theorem IsConfiguration.not_isViolation (h : IsConfiguration members) (v : Violation) :
    ¬ IsViolation (.object members) v := by
  intro hv
  cases hv with
  | noObject hne => exact hne members rfl
  | unknown hne =>
    refine hne (List.filter_eq_nil_iff.2 fun name hname => ?_)
    obtain ⟨m, hmember, rfl⟩ := List.mem_map.1 hname
    simpa [or_iff_not_imp_left] using h.names m hmember
  | noList hname hget hne =>
    obtain ⟨items, hitems, -⟩ := h.lists _ hname _ hget
    exact hne items hitems
  | noExtension hget => exact h.extension hget
  | item hname hget hitem hproblem =>
    obtain ⟨items, hitems, hall⟩ := h.lists _ hname _ hget
    cases hitems
    exact hproblem.not_isFilledText (hall _ (List.mem_of_getElem? hitem))
  | text hname hget hproblem => exact hproblem.not_isFilledText (h.texts _ hname _ hget)

/-- Members with which nothing is wrong are those of a configuration: each rule that is broken makes
a violation. -/
theorem isConfiguration_of_forall (h : ∀ v, ¬ IsViolation (.object members) v) :
    IsConfiguration members where
  names m hm := by
    by_contra hname
    refine h _ (.unknown fun hnil => ?_)
    exact List.filter_eq_nil_iff.1 hnil m.1 (List.mem_map_of_mem hm) (by simpa using hname)
  lists name hname value hget := by
    obtain ⟨items, rfl⟩ := not_forall_not.1 fun hne => h _ (.noList hname hget hne)
    refine ⟨items, rfl, fun item hm => (isFilledText_or_problem item).resolve_right ?_⟩
    rintro ⟨problem, hproblem⟩
    obtain ⟨index, hindex⟩ := List.getElem?_of_mem hm
    exact h _ (.item hname hget hindex hproblem)
  extension hget := h _ (.noExtension hget)
  texts name hname value hget := by
    refine (isFilledText_or_problem value).resolve_right ?_
    rintro ⟨problem, hproblem⟩
    exact h _ (.text hname hget hproblem)

theorem forall_not_isViolation_iff :
    (∀ v, ¬ IsViolation value v) ↔
      ∃ members, value = .object members ∧ IsConfiguration members := by
  constructor
  · intro h
    obtain ⟨members, rfl⟩ := not_forall_not.1 fun hne => h _ (.noObject hne)
    exact ⟨members, rfl, isConfiguration_of_forall h⟩
  · rintro ⟨members, rfl, h⟩
    exact h.not_isViolation

/-! ## What the check finds -/

namespace Schema

/-- A text is checked with one violation at most. -/
theorem checkText_cases (d : Document) (place : List String) (value : Json) :
    (IsFilledText value ∧ checkText d place (.ofJson value) = []) ∨
      ∃ problem, IsTextProblem value problem ∧
        checkText d place (.ofJson value) = [⟨place, problem⟩] := by
  unfold checkText
  rw [resolve_ofJson]
  cases value with
  | text s =>
    by_cases hs : s = ""
    · subst hs
      exact .inr ⟨_, .empty, rfl⟩
    · exact .inl ⟨⟨s, rfl, hs⟩, by simp [Datum.ofJson, hs]⟩
  | _ =>
    rw [Document.writeOut, Datum.substitute_ofJson]
    exact .inr ⟨_, .wrongKind nofun, rfl⟩

theorem mem_checkText_iff :
    v ∈ checkText d place (.ofJson value) ↔
      ∃ problem, IsTextProblem value problem ∧ v = ⟨place, problem⟩ := by
  rcases checkText_cases d place value with ⟨hfilled, he⟩ | ⟨problem, hproblem, he⟩
  · rw [he]
    constructor
    · nofun
    · rintro ⟨problem, hproblem, -⟩
      exact absurd hfilled hproblem.not_isFilledText
  · rw [he, List.mem_singleton]
    constructor
    · exact fun hv => ⟨problem, hproblem, hv⟩
    · rintro ⟨problem', hproblem', rfl⟩
      rw [hproblem.unique hproblem']

theorem mem_checkItems_iff {start : Nat} :
    v ∈ checkItems d place start (items.map .ofJson) ↔
      ∃ index item problem, items[index]? = some item ∧ IsTextProblem item problem ∧
        v = ⟨place ++ [toString (start + index)], problem⟩ := by
  induction items generalizing start with
  | nil => simp [checkItems]
  | cons item rest ih =>
    rw [List.map_cons, checkItems, List.mem_append, mem_checkText_iff, ih]
    constructor
    · rintro (⟨problem, hproblem, rfl⟩ | ⟨index, item', problem, hitem, hproblem, rfl⟩)
      · exact ⟨0, item, problem, rfl, hproblem, rfl⟩
      · exact ⟨index + 1, item', problem, hitem, hproblem, by rw [Nat.add_right_comm]; rfl⟩
    · rintro ⟨index, item', problem, hitem, hproblem, rfl⟩
      cases index with
      | zero =>
        cases hitem
        exact .inl ⟨problem, hproblem, rfl⟩
      | succ index =>
        exact .inr ⟨index, item', problem, hitem, hproblem, by rw [Nat.add_right_comm]; rfl⟩

theorem checkValue_array (d : Document) (place : List String) (nonempty : Bool)
    (items : List Json) :
    checkValue d place (.texts nonempty) (.ofJson (.array items)) =
      (if nonempty && items.isEmpty then [⟨place, .empty (.list [])⟩] else []) ++
        checkItems d place 0 (items.map .ofJson) := by
  unfold checkValue
  rw [resolve_ofJson, Datum.ofJson, Datum.ofItems_eq_map]
  simp only [List.isEmpty_map]

theorem checkValue_noArray (d : Document) (place : List String) (nonempty : Bool)
    (h : ∀ items, value ≠ .array items) :
    checkValue d place (.texts nonempty) (.ofJson value) =
      [⟨place, .wrongKind (.ofJson value) .array⟩] := by
  unfold checkValue
  rw [resolve_ofJson, Document.writeOut, Datum.substitute_ofJson]
  cases value with
  | array items => exact absurd rfl (h items)
  | _ => rfl

theorem mem_checkValue_texts_iff {nonempty : Bool} :
    v ∈ checkValue d place (.texts nonempty) (.ofJson value) ↔
      ((∀ items, value ≠ .array items) ∧ v = ⟨place, .wrongKind (.ofJson value) .array⟩) ∨
      (nonempty = true ∧ value = .array [] ∧ v = ⟨place, .empty (.list [])⟩) ∨
      ∃ items, value = .array items ∧ ∃ (index : Nat) (item : Json) (problem : Problem),
        items[index]? = some item ∧ IsTextProblem item problem ∧
          v = ⟨place ++ [toString index], problem⟩ := by
  by_cases hne : ∀ items, value ≠ .array items
  · rw [checkValue_noArray d place nonempty hne, List.mem_singleton]
    simp [hne]
  · obtain ⟨items, rfl⟩ := not_forall_not.1 hne
    rw [checkValue_array, List.mem_append, mem_checkItems_iff]
    simp [and_assoc]

theorem mem_rules_iff :
    (name, rule) ∈ rules ↔ name ∈ textNames ∧ rule = .text ∨
      name ∈ listNames ∧ rule = .texts (name == "extensions") := by
  simp only [rules, textNames, listNames, List.mem_cons, List.not_mem_nil, or_false, Prod.mk.injEq]
  constructor
  · rintro (⟨rfl, rfl⟩ | ⟨rfl, rfl⟩ | ⟨rfl, rfl⟩ | ⟨rfl, rfl⟩ | ⟨rfl, rfl⟩ | ⟨rfl, rfl⟩) <;> simp
  · rintro (⟨rfl | rfl | rfl | rfl, rfl⟩ | ⟨rfl | rfl, rfl⟩) <;> simp

theorem isKnown_text (name : String) :
    isKnown (.text name) = decide (name ∈ listNames ++ textNames) := by
  rw [Bool.eq_iff_iff, decide_eq_true_iff]
  simp [isKnown, rules, listNames, textNames, @eq_comm _ name]

theorem filter_ofMembers (members : List (String × Json)) :
    ((Datum.ofMembers members).map Prod.fst).filter (fun key => !isKnown key) =
      (unknownNames members).map .text := by
  have hkeys : (Datum.ofMembers members).map Prod.fst = (members.map Prod.fst).map .text := by
    rw [Datum.ofMembers_eq_map, List.map_map, List.map_map]
    rfl
  rw [hkeys, List.filter_map, unknownNames]
  congr 2
  funext name
  rw [Function.comp_apply, isKnown_text, decide_not]

def checkMember (members : List (String × Json)) (r : String × Rule) : List Violation :=
  ((get? r.1 members).map fun value =>
    checkValue (.ofJson (.object members)) [r.1] r.2 (.ofJson value)).getD []

theorem mem_checkMember_iff {r : String × Rule} :
    v ∈ checkMember members r ↔ ∃ value, get? r.1 members = some value ∧
      v ∈ checkValue (.ofJson (.object members)) [r.1] r.2 (.ofJson value) := by
  unfold checkMember
  cases get? r.1 members <;> simp

theorem check_object (members : List (String × Json)) :
    check (.ofJson (.object members)) =
      (if unknownNames members = [] then []
        else [⟨[], .unknownKeys ((unknownNames members).map .text)⟩]) ++
      rules.flatMap (checkMember members) := by
  unfold check
  rw [Document.ofJson, resolve_ofJson, Datum.ofJson]
  simp only [filter_ofMembers, datumGet?_ofMembers, List.isEmpty_iff, List.map_eq_nil_iff]
  congr 2
  funext r
  unfold checkMember
  cases get? r.1 members <;> rfl

theorem mem_check_object_iff :
    v ∈ check (.ofJson (.object members)) ↔
      (unknownNames members ≠ [] ∧
        v = ⟨[], .unknownKeys ((unknownNames members).map .text)⟩) ∨
      ∃ r ∈ rules, v ∈ checkMember members r := by
  rw [check_object, List.mem_append, List.mem_flatMap]
  by_cases h : unknownNames members = [] <;> simp [h]

theorem check_noObject (h : ∀ members, value ≠ .object members) :
    check (.ofJson value) = [⟨[], .wrongKind (.ofJson value) .object⟩] := by
  unfold check
  rw [Document.writeOut, Document.ofJson, resolve_ofJson, Datum.substitute_ofJson]
  cases value with
  | object members => exact absurd rfl (h members)
  | _ => rfl

theorem mem_check_of_get? (hrule : (name, rule) ∈ rules) (hget : get? name members = some value)
    (hv : v ∈ checkValue (.ofJson (.object members)) [name] rule (.ofJson value)) :
    v ∈ check (.ofJson (.object members)) :=
  mem_check_object_iff.2 (.inr ⟨_, hrule, mem_checkMember_iff.2 ⟨_, hget, hv⟩⟩)

/-- Whatever is found under the name of a rule is wrong. -/
theorem isViolation_of_mem_checkMember {r : String × Rule} (hrule : r ∈ rules)
    (h : v ∈ checkMember members r) : IsViolation (.object members) v := by
  obtain ⟨name, rule⟩ := r
  obtain ⟨value, hget, hv⟩ := mem_checkMember_iff.1 h
  obtain ⟨hname, rfl⟩ | ⟨hname, rfl⟩ := mem_rules_iff.1 hrule
  · obtain ⟨problem, hproblem, rfl⟩ := mem_checkText_iff.1 hv
    exact .text hname hget hproblem
  · obtain ⟨hne, rfl⟩ | ⟨hext, rfl, rfl⟩ |
        ⟨items, rfl, index, item, problem, hitem, hproblem, rfl⟩ := mem_checkValue_texts_iff.1 hv
    · exact .noList hname hget hne
    · obtain rfl := eq_of_beq hext
      exact .noExtension hget
    · exact .item hname hget hitem hproblem

/-- Whatever is wrong is found: under its name there is a rule that is broken. -/
theorem mem_check_of_isViolation (h : IsViolation value v) : v ∈ check (.ofJson value) := by
  cases h with
  | noObject hne =>
    rw [check_noObject hne]
    exact List.mem_singleton_self _
  | unknown hne => exact mem_check_object_iff.2 (.inl ⟨hne, rfl⟩)
  | noList hname hget hne =>
    exact mem_check_of_get? (mem_rules_iff.2 (.inr ⟨hname, rfl⟩)) hget
      (mem_checkValue_texts_iff.2 (.inl ⟨hne, rfl⟩))
  | noExtension hget =>
    exact mem_check_of_get? (mem_rules_iff.2 (.inr ⟨by decide, rfl⟩)) hget
      (mem_checkValue_texts_iff.2 (.inr (.inl ⟨rfl, rfl, rfl⟩)))
  | item hname hget hitem hproblem =>
    exact mem_check_of_get? (mem_rules_iff.2 (.inr ⟨hname, rfl⟩)) hget
      (mem_checkValue_texts_iff.2 (.inr (.inr ⟨_, rfl, _, _, _, hitem, hproblem, rfl⟩)))
  | text hname hget hproblem =>
    exact mem_check_of_get? (mem_rules_iff.2 (.inl ⟨hname, rfl⟩)) hget
      (mem_checkText_iff.2 ⟨_, hproblem, rfl⟩)

/-- The check finds what is wrong, and nothing else. -/
theorem mem_check_iff : v ∈ check (.ofJson value) ↔ IsViolation value v := by
  refine ⟨fun h => ?_, mem_check_of_isViolation⟩
  by_cases hne : ∀ members, value ≠ .object members
  · rw [check_noObject hne, List.mem_singleton] at h
    rw [h]
    exact .noObject hne
  · obtain ⟨members, rfl⟩ := not_forall_not.1 hne
    obtain ⟨hunknown, rfl⟩ | ⟨r, hrule, hr⟩ := mem_check_object_iff.1 h
    · exact .unknown hunknown
    · exact isViolation_of_mem_checkMember hrule hr

/-! ## One violation for each place -/

theorem toString_injective : Function.Injective (toString : Nat → String) := by
  intro n m h
  have hdigits := congrArg (fun s => Nat.ofDigitChars 10 s.toList 0) h
  simpa [Nat.toString_eq_ofList_toDigits] using hdigits

theorem pairwise_checkText (d : Document) (place : List String) (value : Json) :
    (checkText d place (.ofJson value)).Pairwise fun v w => v.place ≠ w.place := by
  obtain ⟨-, he⟩ | ⟨problem, -, he⟩ := checkText_cases d place value
  · rw [he]
    exact .nil
  · rw [he]
    exact List.pairwise_singleton _ _

/-- Items with different numbers have different places. -/
theorem pairwise_checkItems (d : Document) (place : List String) (start : Nat)
    (items : List Json) :
    (checkItems d place start (items.map .ofJson)).Pairwise fun v w => v.place ≠ w.place := by
  induction items generalizing start with
  | nil => exact .nil
  | cons item rest ih =>
    rw [List.map_cons, checkItems, List.pairwise_append]
    refine ⟨pairwise_checkText d _ item, ih (start + 1), fun v hv w hw => ?_⟩
    obtain ⟨problem, -, rfl⟩ := mem_checkText_iff.1 hv
    obtain ⟨index, -, problem', -, -, rfl⟩ := mem_checkItems_iff.1 hw
    intro he
    have hnumber : toString start = toString (start + 1 + index) := by simpa using he
    have := toString_injective hnumber
    omega

theorem pairwise_checkValue (d : Document) (place : List String) (rule : Rule) (value : Json) :
    (checkValue d place rule (.ofJson value)).Pairwise fun v w => v.place ≠ w.place := by
  cases rule with
  | text => exact pairwise_checkText d place value
  | texts nonempty =>
    by_cases hne : ∀ items, value ≠ .array items
    · rw [checkValue_noArray d place nonempty hne]
      exact List.pairwise_singleton _ _
    · obtain ⟨items, rfl⟩ := not_forall_not.1 hne
      rw [checkValue_array]
      cases items with
      | nil => cases nonempty <;> simp [checkItems]
      | cons item rest => simpa using pairwise_checkItems d place 0 (item :: rest)

/-- What is found under a name has a place that begins with the name. -/
theorem isPrefix_place (h : v ∈ checkValue d place rule (.ofJson value)) : place <+: v.place := by
  cases rule with
  | text =>
    obtain ⟨problem, -, rfl⟩ := mem_checkText_iff.1 h
    exact List.prefix_rfl
  | texts nonempty =>
    obtain ⟨-, rfl⟩ | ⟨-, -, rfl⟩ | ⟨items, -, index, item, problem, -, -, rfl⟩ :=
      mem_checkValue_texts_iff.1 h
    · exact List.prefix_rfl
    · exact List.prefix_rfl
    · exact List.prefix_append _ _

theorem pairwise_rules : rules.Pairwise fun r s => r.1 ≠ s.1 := by
  decide

theorem pairwise_checkMember (members : List (String × Json)) (r : String × Rule) :
    (checkMember members r).Pairwise fun v w => v.place ≠ w.place := by
  unfold checkMember
  cases get? r.1 members with
  | none => exact .nil
  | some value => exact pairwise_checkValue _ _ r.2 value

theorem head?_place (h : v ∈ checkMember members (name, rule)) : v.place.head? = some name := by
  obtain ⟨value, -, hv⟩ := mem_checkMember_iff.1 h
  obtain ⟨rest, he⟩ := isPrefix_place hv
  rw [← he, List.singleton_append, List.head?_cons]

/-- No place has two violations. -/
theorem pairwise_check (value : Json) :
    (check (.ofJson value)).Pairwise fun v w => v.place ≠ w.place := by
  by_cases hne : ∀ members, value ≠ .object members
  · rw [check_noObject hne]
    exact List.pairwise_singleton _ _
  · obtain ⟨members, rfl⟩ := not_forall_not.1 hne
    rw [check_object, List.pairwise_append]
    refine ⟨?_, List.pairwise_flatMap.2 ⟨fun r _ => pairwise_checkMember members r, ?_⟩, ?_⟩
    · split
      · exact .nil
      · exact List.pairwise_singleton _ _
    · refine pairwise_rules.imp fun {r s} hrs v hv w hw he => hrs ?_
      exact Option.some.inj (by rw [← head?_place hv, ← head?_place hw, he])
    · intro v hv w hw he
      obtain ⟨r, -, hr⟩ := List.mem_flatMap.1 hw
      have hroot : v.place = [] := by
        split at hv
        · cases hv
        · rw [List.mem_singleton.1 hv]
      have hhead := head?_place hr
      rw [← he, hroot] at hhead
      cases hhead

end Schema

/-! ## The order of places -/

/-- Places are in the order of lists of texts. -/
theorem placeBefore_iff {a b : List String} : placeBefore a b = true ↔ ¬ b < a := by
  induction a generalizing b with
  | nil => simp [placeBefore]
  | cons x xs ih =>
    cases b with
    | nil => simp [placeBefore]
    | cons y ys =>
      rw [placeBefore, List.cons_lt_cons_iff]
      by_cases he : x = y
      · subst he
        simp [ih]
      · rw [if_neg he, decide_eq_true_iff]
        grind

/-- Item 10 of a list comes before item 2. -/
example : placeBefore ["extensions", "2"] ["extensions", "10"] = false := by decide

/-- Violations whose places differ ascend by their places once they are sorted. -/
theorem pairwise_lt_mergeSort_place {found : List Violation}
    (h : found.Pairwise fun v w => v.place ≠ w.place) :
    (found.mergeSort fun v w => placeBefore v.place w.place).Pairwise
      fun v w => v.place < w.place := by
  have hle : (found.mergeSort fun v w => placeBefore v.place w.place).Pairwise
      fun v w => placeBefore v.place w.place = true :=
    List.pairwise_mergeSort
      (by simpa only [placeBefore_iff, not_lt] using fun _ _ _ => le_trans)
      (by simpa [placeBefore_iff] using fun v w : Violation => le_total v.place w.place) _
  have hne := (List.mergeSort_perm found fun v w => placeBefore v.place w.place).symm.pairwise h
    fun hab => Ne.symm hab
  refine (hle.and hne).imp fun {v w} hvw => ?_
  exact lt_of_le_of_ne (not_lt.1 (placeBefore_iff.1 hvw.1)) hvw.2

theorem mem_violations_iff : v ∈ violations (.ofJson value) ↔ IsViolation value v := by
  rw [violations, List.mem_mergeSort, Schema.mem_check_iff]

/-- Nothing is found wrong with a JSON value exactly if it is a configuration. What is found is all
that is wrong, with one violation for a place and the places in ascending order, and each violation
of a value that can be written has a message. -/
theorem violations_ofJson (value : Json) :
    (violations (.ofJson value) = [] ↔
      ∃ members, value = .object members ∧ IsConfiguration members) ∧
    (∀ v, v ∈ violations (.ofJson value) ↔ IsViolation value v) ∧
    (violations (.ofJson value)).Pairwise (fun v w => v.place < w.place) ∧
    (IsWritable value → AllTold (violations (.ofJson value))) := by
  refine ⟨?_, fun v => mem_violations_iff,
    pairwise_lt_mergeSort_place (Schema.pairwise_check value), fun h v hv => ?_⟩
  · rw [← forall_not_isViolation_iff, List.eq_nil_iff_forall_not_mem]
    simp only [mem_violations_iff]
  · exact allTold_check ⟨value, h, rfl⟩ v (List.mem_mergeSort.1 hv)

end Recenter.Config
