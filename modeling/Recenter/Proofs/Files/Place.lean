import Recenter.Proofs.Files.Outline

/-! Where a path leads, name by name. The first name asks for one move, which depends on the entry
here alone, and the rest is followed from where the move ends (`follow_cons`). So a path leads to
the same place in every tree of the same outline (`follow_outline`), and names of entries lead from
a directory down to them (`follow_names`). -/

namespace Recenter.Files

open Entry

variable {top e : Entry} {creating : Bool} {links : Nat} {here todo names rest : List String}
  {name : String} {place : Place}

/-- What a name asks for. -/
inductive Move
  | stay
  | up
  | enter
  | along (target : String)
  | vacant
  | refuse (e : AccessError)

/-- What a name asks for at an entry, in front of the names `rest`. -/
def move (creating : Bool) (here : Option Entry) (name : String) (rest : List String) : Move :=
  match here with
  | some (.dir entries) =>
    if staysPut name then .stay
    else if name = ".." then .up
    else if creating && !rest.isEmpty && rest.all String.isEmpty then .refuse .isDirectory
    else if maxNameSize < name.utf8ByteSize then .refuse .nameTooLong
    else
      match entries.lookup name with
      | none => if rest.isEmpty then .vacant else .refuse .missing
      | some (.link target) => .along target
      | some _ => .enter
  | some _ => .refuse .notDirectory
  | none => .refuse .missing

def targetNames (target : String) : List String :=
  (Text.splitAt '/' target.toList).map String.ofList

/-- Where a link's target is followed from. -/
def targetStart (target : String) (here : List String) : List String :=
  if (targetNames target).head? == some "" then [] else here

/-- The links that are left after a move, the directory it ends in, and the names still to follow;
nothing where the path ends. -/
def Move.next? (links : Nat) (here : List String) (name : String) (rest : List String) :
    Move → Option (Nat × List String × List String)
  | .stay => some (links, here, rest)
  | .up => some (links, here.dropLast, rest)
  | .enter => some (links, here ++ [name], rest)
  | .along target =>
    match links with
    | 0 => none
    | links + 1 => some (links, targetStart target here, targetNames target ++ rest)
  | .vacant => none
  | .refuse _ => none

/-- What comes of a path that ends with this move. -/
def Move.result (here : List String) (name : String) : Move → Except AccessError Place
  | .vacant => .ok (.vacant (here ++ [name]))
  | .refuse e => .error e
  | _ => .error .tooManyLinks

theorem follow_nil (top : Entry) (creating : Bool) (links : Nat) (here : List String) :
    follow top creating links here [] =
      match top.find? here with
      | some e => .ok (.found here e)
      | none => .error .missing := by
  unfold follow
  rfl

theorem follow_cons (top : Entry) (creating : Bool) (links : Nat) (here : List String)
    (name : String) (rest : List String) :
    follow top creating links here (name :: rest) =
      match (move creating (top.find? here) name rest).next? links here name rest with
      | some (links, here, todo) => follow top creating links here todo
      | none => (move creating (top.find? here) name rest).result here name := by
  rw [follow]
  unfold move
  cases top.find? here with
  | none => rfl
  | some e =>
    cases e with
    | file octets => rfl
    | link target => rfl
    | dir entries =>
      simp only
      split
      · rfl
      split
      · rfl
      split
      · rfl
      split
      · rfl
      cases entries.lookup name with
      | none =>
        simp only
        split <;> rfl
      | some e =>
        cases e with
        | file octets => rfl
        | link target => cases links <;> rfl
        | dir entries => rfl

/-- Each move leaves fewer names, or costs a link. -/
theorem next?_lt {m : Move} {links' : Nat} {here' todo' : List String}
    (h : m.next? links here name rest = some (links', here', todo')) :
    links' < links ∨ links' = links ∧ todo' = rest := by
  cases m with
  | stay | up | enter =>
    cases h
    exact .inr ⟨rfl, rfl⟩
  | along target =>
    cases links with
    | zero => cases h
    | succ links =>
      cases h
      exact .inl (Nat.lt_succ_self _)
  | vacant | refuse e => cases h

/-- What holds at the end of the names, and before every move if it holds after it. -/
theorem follow_induction {P : Nat → List String → List String → Prop} (top : Entry)
    (creating : Bool) (nil : ∀ links here, P links here [])
    (cons : ∀ links here name rest, (∀ links' here' todo',
      (move creating (top.find? here) name rest).next? links here name rest =
        some (links', here', todo') → P links' here' todo') → P links here (name :: rest))
    (links : Nat) (here todo : List String) : P links here todo := by
  match todo with
  | [] => exact nil links here
  | name :: rest =>
    exact cons links here name rest fun links' here' todo' _ =>
      follow_induction top creating nil cons links' here' todo'
termination_by (links, todo.length)
decreasing_by
  rename_i hnext
  rcases next?_lt hnext with hlt | ⟨rfl, rfl⟩
  · exact Prod.Lex.left _ _ hlt
  · exact Prod.Lex.right _ (Nat.lt_succ_self _)

/-! ## The outline decides -/

def Place.outline : Place → Place
  | .found names e => .found names e.outline
  | .vacant names => .vacant names

theorem move_outline (creating : Bool) (here : Option Entry) (name : String) (rest : List String) :
    move creating (here.map Entry.outline) name rest = move creating here name rest := by
  cases here with
  | none => rfl
  | some e =>
    cases e with
    | file octets => rfl
    | link target => rfl
    | dir entries =>
      rw [Option.map_some, Entry.outline, move, move, lookup_outlineAll]
      cases entries.lookup name with
      | none => rfl
      | some e => cases e <;> rfl

/-- Where names lead depends on the outline alone. -/
theorem follow_outline (top : Entry) (creating : Bool) (links : Nat) (here todo : List String) :
    follow top.outline creating links here todo =
      (follow top creating links here todo).map Place.outline := by
  induction links, here, todo using follow_induction top creating with
  | nil links here =>
    rw [follow_nil, follow_nil, find?_outline]
    cases top.find? here <;> rfl
  | cons links here name rest ih =>
    rw [follow_cons, follow_cons, find?_outline, move_outline]
    cases hn : (move creating (top.find? here) name rest).next? links here name rest with
    | none => cases move creating (top.find? here) name rest <;> rfl
    | some next => exact ih _ _ _ hn

/-- A path that ends with a move ends at no entry. -/
theorem Move.result_ne_found (m : Move) : m.result here name ≠ .ok (.found names e) := by
  cases m <;> simp [Move.result]

theorem find?_of_follow (h : follow top creating links here todo = .ok (.found names e)) :
    top.find? names = some e := by
  induction links, here, todo using follow_induction top creating with
  | nil links here =>
    rw [follow_nil] at h
    split at h
    · next hf =>
      cases h
      exact hf
    · cases h
  | cons links here name rest ih =>
    rw [follow_cons] at h
    split at h
    · next hn => exact ih _ _ _ hn h
    · exact absurd h (Move.result_ne_found _)

/-! ## Creating -/

theorem getLast?_of_all_isEmpty {names : List String} (hne : names ≠ [])
    (h : names.all String.isEmpty = true) : names.getLast? = some "" := by
  rw [List.getLast?_eq_some_getLast hne]
  have hempty := List.all_eq_true.1 h _ (List.getLast_mem hne)
  rw [String.isEmpty_iff.1 hempty]

/-- Whoever may create a file is refused more, in front of a last slash. -/
theorem move_creating (here : Option Entry) (name : String) (rest : List String) :
    move true here name rest = move false here name rest ∨
      (rest.getLast? = some "" ∧ ∃ e, move true here name rest = .refuse e) := by
  unfold move
  split
  · split
    · exact .inl rfl
    split
    · exact .inl rfl
    split
    · next hempty =>
      simp only [Bool.true_and, Bool.and_eq_true, Bool.not_eq_true', List.isEmpty_eq_false_iff]
        at hempty
      exact .inr ⟨getLast?_of_all_isEmpty hempty.1 hempty.2, _, rfl⟩
    · exact .inl rfl
  · exact .inl rfl
  · exact .inl rfl

/-- Where a file may be created, the same is found without creating. -/
theorem follow_creating (h : follow top true links here todo = .ok place) :
    follow top false links here todo = .ok place := by
  induction links, here, todo using follow_induction top true with
  | nil links here => rwa [follow_nil] at h ⊢
  | cons links here name rest ih =>
    rw [follow_cons] at h ⊢
    rcases move_creating (top.find? here) name rest with hm | ⟨-, e, hm⟩
    · rw [← hm]
      split at h
      · next hn => exact ih _ _ _ hn h
      · exact h
    · rw [hm] at h
      cases h

/-- A move leaves the last of the names behind it in its place. -/
theorem getLast?_of_next? {m : Move} {links' : Nat} {here' todo' : List String}
    (h : m.next? links here name rest = some (links', here', todo')) (hne : rest ≠ []) :
    todo'.getLast? = rest.getLast? := by
  cases m with
  | stay | up | enter =>
    cases h
    rfl
  | along target =>
    cases links with
    | zero => cases h
    | succ links =>
      cases h
      rw [List.getLast?_append, List.getLast?_eq_some_getLast hne, Option.some_or]
  | vacant | refuse e => cases h

/-- Names that end with nothing, behind a last slash, lead to directories only. -/
theorem exists_dir_of_follow (h : follow top creating links here todo = .ok (.found names e))
    (hlast : todo.getLast? = some "") : ∃ entries, e = .dir entries := by
  induction links, here, todo using follow_induction top creating with
  | nil links here => cases hlast
  | cons links here name rest ih =>
    rw [follow_cons] at h
    split at h
    · next links' here' todo' hn =>
      cases rest with
      | nil =>
        -- The last name: the directory here is what is found.
        obtain rfl : name = "" := by simpa using hlast
        cases hf : top.find? here with
        | none =>
          rw [hf] at hn
          cases hn
        | some found =>
          rw [hf] at hn
          cases found with
          | file octets => cases hn
          | link target => cases hn
          | dir entries =>
            cases hn
            rw [follow_nil, hf] at h
            cases h
            exact ⟨entries, rfl⟩
      | cons next more =>
        rw [List.getLast?_cons_cons] at hlast
        exact ih _ _ _ hn h ((getLast?_of_next? hn (by simp)).trans hlast)
    · exact absurd h (Move.result_ne_found _)

/-- Where a file is found it may be written. -/
theorem follow_creating_of_file {octets : List UInt8}
    (h : follow top false links here todo = .ok (.found names (.file octets))) :
    follow top true links here todo = .ok (.found names (.file octets)) := by
  induction links, here, todo using follow_induction top false with
  | nil links here => rwa [follow_nil] at h ⊢
  | cons links here name rest ih =>
    rcases move_creating (top.find? here) name rest with hm | ⟨hlast, -⟩
    · rw [follow_cons] at h ⊢
      rw [hm]
      split at h
      · next hn => exact ih _ _ _ hn h
      · exact absurd h (Move.result_ne_found _)
    · have hlast' : (name :: rest).getLast? = some "" := by
        rw [List.getLast?_cons, hlast]
        rfl
      obtain ⟨entries, hdir⟩ := exists_dir_of_follow h hlast'
      cases hdir

/-! ## Down from a directory -/

/-- A name that stands for an entry: neither empty nor dots. -/
structure IsProper (name : String) : Prop where
  ne_empty : name ≠ ""
  ne_dot : name ≠ "."
  ne_dots : name ≠ ".."

instance (name : String) : Decidable (IsProper name) :=
  decidable_of_iff (name ≠ "" ∧ name ≠ "." ∧ name ≠ "..")
    ⟨fun ⟨he, hd, hs⟩ => ⟨he, hd, hs⟩, fun h => ⟨h.ne_empty, h.ne_dot, h.ne_dots⟩⟩

theorem IsProper.staysPut_eq (h : IsProper name) : staysPut name = false := by
  simp [staysPut, h.ne_empty, h.ne_dot]

/-- A name that leads on does so whatever comes behind it. -/
theorem move_rest (here : Option Entry) (name : String) (rest rest' : List String) :
    move false here name rest' = move false here name rest ∨
      move false here name rest = .vacant ∨ ∃ e, move false here name rest = .refuse e := by
  unfold move
  split
  · split
    · exact .inl rfl
    split
    · exact .inl rfl
    simp only [Bool.false_and, Bool.false_eq_true, if_false]
    split
    · exact .inl rfl
    split
    · refine .inr ?_
      by_cases hr : rest.isEmpty = true
      · exact .inl (if_pos hr)
      · exact .inr ⟨_, if_neg hr⟩
    · exact .inl rfl
    · exact .inl rfl
  · exact .inl rfl
  · exact .inl rfl

/-- What is left behind a move comes in front of more names. -/
theorem next?_append (m : Move) (links : Nat) (here : List String) (name : String)
    (rest more : List String) : m.next? links here name (rest ++ more) =
      (m.next? links here name rest).map
        fun (links, here, todo) => (links, here, todo ++ more) := by
  cases m with
  | along target =>
    cases links with
    | zero => rfl
    | succ links => simp [Move.next?]
  | stay | up | enter | vacant | refuse e => rfl

/-- More names are followed from the entry that the first ones lead to. -/
theorem follow_append (rest : List String)
    (h : follow top false links here todo = .ok (.found names e)) :
    ∃ links', follow top false links here (todo ++ rest) = follow top false links' names rest := by
  induction links, here, todo using follow_induction top false with
  | nil links here =>
    rw [follow_nil] at h
    split at h
    · cases h
      exact ⟨links, rfl⟩
    · cases h
  | cons links here name more ih =>
    rw [follow_cons] at h
    rw [List.cons_append, follow_cons]
    split at h
    · next hn =>
      -- A move that leaves names to follow is the same in front of more of them.
      rcases move_rest (top.find? here) name more (more ++ rest) with hm | hm | ⟨e, hm⟩
      · rw [hm, next?_append, hn]
        exact ih _ _ _ hn h
      · rw [hm] at hn
        cases hn
      · rw [hm] at hn
        cases hn
    · exact absurd h (Move.result_ne_found _)

theorem move_proper {entries : List (String × Entry)} (hn : IsProper name)
    (hl : entries.lookup name = some e) (he : ∀ target, e ≠ .link target) (rest : List String) :
    move false (some (.dir entries)) name rest = .enter ∨
      move false (some (.dir entries)) name rest = .refuse .nameTooLong := by
  simp only [move, hn.staysPut_eq, hn.ne_dots, Bool.false_and, Bool.false_eq_true, if_false, hl]
  split
  · exact .inr rfl
  · cases e with
    | file octets => exact .inl rfl
    | link target => exact absurd rfl (he target)
    | dir entries => exact .inl rfl

/-- The names of entries lead from a directory down to them, unless one of them is too long. -/
theorem follow_names {d : Entry} (links : Nat) (hf : top.find? here = some d)
    (hd : d.find? names = some e) (hp : ∀ name ∈ names, IsProper name)
    (he : ∀ target, e ≠ .link target) :
    follow top false links here names = .ok (.found (here ++ names) e) ∨
      follow top false links here names = .error .nameTooLong := by
  induction names generalizing here d with
  | nil =>
    cases hd
    rw [follow_nil, hf, List.append_nil]
    exact .inl rfl
  | cons name rest ih =>
    cases d with
    | file octets => simp [Entry.find?] at hd
    | link target => simp [Entry.find?] at hd
    | dir entries =>
      rw [Entry.find?] at hd
      cases hl : entries.lookup name with
      | none => simp [hl] at hd
      | some below =>
        rw [hl] at hd
        have hbelow : ∀ target, below ≠ .link target := by
          intro target h
          subst h
          cases rest with
          | nil => exact he target (Option.some.inj hd).symm
          | cons _ _ => simp [Entry.find?] at hd
        have hfind : top.find? (here ++ [name]) = some below := by
          rw [find?_append, hf, Option.bind_some, Entry.find?, hl]
          rfl
        rw [follow_cons, hf]
        rcases move_proper (hp name (by simp)) hl hbelow rest with hm | hm
        · have hto := ih hfind hd fun name hn => hp name (by simp [hn])
          simpa only [hm, Move.next?, List.append_assoc, List.singleton_append] using hto
        · rw [hm]
          exact .inr rfl

end Recenter.Files
