import Recenter.Proofs.Files.Access

/-! Files that are created. Writing to a free name puts a file there and leaves the kind of every
other entry as it is (`kind_replace_free`), so the path that led to the free name leads to the file
(`FileTree.place_of_vacant`). Whatever path can be opened for writing, what is written through it is
read through it (`FileTree.read_of_write`). -/

namespace Recenter.Files

open Entry

variable {top : Entry} {creating : Bool} {links : Nat} {here todo names other rest : List String}
  {base : List String} {name first : String} {octets : List UInt8}
  {entries : List (String × Entry)}

namespace Entry

/-- An entry without what is in it. -/
def kind : Entry → Entry
  | .file _ => .file []
  | .link target => .link target
  | .dir _ => .dir []

theorem exists_dir_of_kind {here : Option Entry} (h : here.map kind = some (.dir [])) :
    ∃ entries, here = some (.dir entries) := by
  obtain ⟨e, rfl, hk⟩ := Option.map_eq_some_iff.1 h
  cases e with
  | file octets => cases hk
  | link target => cases hk
  | dir entries => exact ⟨entries, rfl⟩

theorem find?_child (h : top.find? base = some (.dir entries)) (name : String) :
    top.find? (base ++ [name]) = entries.lookup name := by
  rw [find?_append, h, Option.bind_some, find?]
  cases entries.lookup name <;> rfl

/-- The name is free in a directory. -/
structure IsFree (top : Entry) (base : List String) (name : String) : Prop where
  exists_dir : ∃ entries, top.find? base = some (.dir entries)
  find?_eq : top.find? (base ++ [name]) = none

theorem IsFree.lookup_eq (h : IsFree top [] name) :
    ∃ entries, top = .dir entries ∧ entries.lookup name = none := by
  obtain ⟨⟨entries, hdir⟩, hfree⟩ := h
  cases hdir
  exact ⟨entries, rfl, (find?_child rfl name).symm.trans hfree⟩

/-- A name that is free further down is so below one of the entries. -/
theorem IsFree.below (h : IsFree top (first :: base) name) :
    ∃ entries below, top = .dir entries ∧ entries.lookup first = some below ∧
      IsFree below base name := by
  obtain ⟨⟨found, hdir⟩, hfree⟩ := h
  cases top with
  | file octets => simp [find?] at hdir
  | link target => simp [find?] at hdir
  | dir entries =>
    rw [List.cons_append] at hfree
    rw [find?] at hdir hfree
    cases hl : entries.lookup first with
    | none => simp [hl] at hdir
    | some below =>
      rw [hl] at hdir hfree
      exact ⟨entries, below, rfl, hl, ⟨found, hdir⟩, hfree⟩

/-- A file that is put at a free name is found there. -/
theorem find?_replace_free (h : IsFree top base name) :
    (replace (.file octets) (base ++ [name]) top).find? (base ++ [name]) =
      some (.file octets) := by
  induction base generalizing top with
  | nil =>
    obtain ⟨entries, rfl, hl⟩ := h.lookup_eq
    simp [replace, hl, find?, lookup_put]
  | cons first base ih =>
    obtain ⟨entries, below, rfl, hl, hfree⟩ := h.below
    simp only [List.cons_append, replace, hl, find?, lookup_put, if_true]
    exact ih hfree

theorem kind_replace_free (h : IsFree top base name) (hne : other ≠ base ++ [name]) :
    ((replace (.file octets) (base ++ [name]) top).find? other).map kind =
      (top.find? other).map kind := by
  induction base generalizing top other with
  | nil =>
    obtain ⟨entries, rfl, hl⟩ := h.lookup_eq
    simp only [List.nil_append, replace, hl, List.isEmpty_nil, if_true]
    cases other with
    | nil => rfl
    | cons next rest =>
      rw [find?, find?, lookup_put]
      by_cases hn : next = name
      · -- Below the new file there is nothing, as there was.
        subst hn
        cases rest with
        | nil => exact absurd rfl hne
        | cons _ _ => simp [hl, find?]
      · rw [if_neg hn]
  | cons first base ih =>
    obtain ⟨entries, below, rfl, hl, hfree⟩ := h.below
    simp only [List.cons_append, replace, hl]
    cases other with
    | nil => rfl
    | cons next rest =>
      rw [find?, find?, lookup_put]
      by_cases hn : next = first
      · subst hn
        rw [if_pos rfl, hl]
        exact ih hfree fun he => hne (by rw [he, List.cons_append])
      · rw [if_neg hn]

end Entry

/-! ## Where the path leads then -/

/-- A move depends on the kind of the entry here and of the one at the name. -/
theorem move_eq_of_kind {top' : Entry} (name : String) (rest : List String)
    (hhere : (top'.find? here).map kind = (top.find? here).map kind)
    (hname : (top'.find? (here ++ [name])).map kind = (top.find? (here ++ [name])).map kind) :
    move creating (top'.find? here) name rest = move creating (top.find? here) name rest := by
  cases hf : top.find? here with
  | none =>
    rw [hf, Option.map_none, Option.map_eq_none_iff] at hhere
    rw [hhere]
  | some e =>
    rw [hf] at hhere
    obtain ⟨e', hf', hkind⟩ := Option.map_eq_some_iff.1 hhere
    rw [hf']
    cases e with
    | file octets => cases e' <;> simp [kind] at hkind; rfl
    | link target => cases e' <;> simp [kind] at hkind; rfl
    | dir entries =>
      cases e' with
      | file octets => cases hkind
      | link target => cases hkind
      | dir entries' =>
        rw [find?_child hf, find?_child hf'] at hname
        cases hl : entries.lookup name with
        | none =>
          rw [hl, Option.map_none, Option.map_eq_none_iff] at hname
          simp only [move, hl, hname]
        | some e =>
          rw [hl] at hname
          obtain ⟨e', hl', hkind⟩ := Option.map_eq_some_iff.1 hname
          simp only [move, hl, hl']
          cases e <;> cases e' <;> simp [kind] at hkind <;> simp [hkind]

/-- A move that ends nowhere ends at a proper name that is free. -/
theorem isFree_of_move (h : move creating (top.find? here) name rest = .vacant) :
    rest = [] ∧ IsProper name ∧ name.utf8ByteSize ≤ maxNameSize ∧ IsFree top here name := by
  unfold move at h
  split at h
  · next entries hf =>
    split at h
    · cases h
    next hstay =>
    split at h
    · cases h
    next hdots =>
    split at h
    · cases h
    split at h
    · cases h
    next hsize =>
    simp only [staysPut, Bool.or_eq_true, String.isEmpty_iff, beq_iff_eq, not_or] at hstay
    split at h
    · next hl =>
      split at h
      · next hrest =>
        exact ⟨List.isEmpty_iff.1 hrest, ⟨hstay.1, hstay.2, hdots⟩, Nat.le_of_not_lt hsize,
          ⟨entries, hf⟩, (find?_child hf name).trans hl⟩
      · cases h
    · cases h
    · cases h
  · cases h
  · cases h

theorem isFree_of_follow (h : follow top creating links here todo = .ok (.vacant names)) :
    ∃ base name, names = base ++ [name] ∧ IsProper name ∧ IsFree top base name := by
  induction links, here, todo using follow_induction top creating with
  | nil links here =>
    rw [follow_nil] at h
    split at h <;> cases h
  | cons links here name rest ih =>
    rw [follow_cons] at h
    split at h
    · next hn => exact ih _ _ _ hn h
    · cases hm : move creating (top.find? here) name rest with
      | vacant =>
        rw [hm] at h
        cases h
        obtain ⟨-, hp, -, hfree⟩ := isFree_of_move hm
        exact ⟨here, name, rfl, hp, hfree⟩
      | stay | up | enter | along target | refuse e =>
        rw [hm] at h
        cases h

/-- A name that is free leads no further. -/
theorem move_of_isFree (h : IsFree top base name) (hp : IsProper name) (rest : List String) :
    move creating (top.find? base) name rest = .vacant ∨
      ∃ e, move creating (top.find? base) name rest = .refuse e := by
  obtain ⟨⟨entries, hdir⟩, hfree⟩ := h
  rw [find?_child hdir] at hfree
  simp only [move, hdir, hp.staysPut_eq, hp.ne_dots, hfree, Bool.false_eq_true, if_false]
  split
  · exact .inr ⟨_, rfl⟩
  split
  · exact .inr ⟨_, rfl⟩
  split
  · exact .inl rfl
  · exact .inr ⟨_, rfl⟩

theorem move_of_file (hd : top.find? here = some (.dir entries))
    (hf : top.find? (here ++ [name]) = some (.file octets)) (hp : IsProper name)
    (hs : name.utf8ByteSize ≤ maxNameSize) :
    move creating (top.find? here) name [] = .enter := by
  rw [find?_child hd] at hf
  simp [move, hd, hp.staysPut_eq, hp.ne_dots, hf, Nat.not_lt.2 hs]

/-- The names that have led to a free name lead to the file that is put there. -/
theorem follow_replace_free (h : follow top creating links here todo = .ok (.vacant names))
    (octets : List UInt8) :
    follow (replace (.file octets) names top) creating links here todo =
      .ok (.found names (.file octets)) := by
  obtain ⟨base, name, rfl, hp, hfree⟩ := isFree_of_follow h
  induction links, here, todo using follow_induction top creating with
  | nil links here =>
    rw [follow_nil] at h
    split at h <;> cases h
  | cons links here next rest ih =>
    rw [follow_cons] at h ⊢
    have hallowed : ∀ e, move creating (top.find? here) next rest ≠ .refuse e := by
      intro e hm
      rw [hm] at h
      cases h
    have hhere : here ≠ base ++ [name] := by
      rintro rfl
      exact hallowed .missing (by rw [hfree.find?_eq]; rfl)
    by_cases hlast : here ++ [next] = base ++ [name]
    · obtain ⟨rfl, hnext⟩ := List.append_inj' hlast rfl
      obtain rfl : next = name := List.singleton_inj.1 hnext
      have hmove : move creating (top.find? here) next rest = .vacant ∨ _ :=
        move_of_isFree hfree hp rest
      obtain hm | ⟨e, hm⟩ := hmove
      · -- The last name: it now leads into the file.
        obtain ⟨rfl, -, hsize, -⟩ := isFree_of_move hm
        have hfile : (replace (.file octets) _ top).find? _ = _ := find?_replace_free hfree
        obtain ⟨entries, hdir⟩ := hfree.exists_dir
        have hkind : ((replace (.file octets) _ top).find? here).map kind = _ :=
          kind_replace_free hfree hhere
        rw [hdir] at hkind
        obtain ⟨entries', hdir'⟩ := exists_dir_of_kind hkind
        rw [move_of_file hdir' hfile hp hsize]
        exact (follow_nil _ _ _ _).trans (by rw [hfile])
      · exact absurd hm (hallowed e)
    · -- Any other name asks for the same in both trees.
      rw [move_eq_of_kind next rest (kind_replace_free hfree hhere)
        (kind_replace_free hfree hlast)]
      split at h
      · next hn => exact ih _ _ _ hn h
      · cases hm : move creating (top.find? here) next rest with
        | vacant =>
          rw [hm] at h
          exact absurd (Place.vacant.inj (Except.ok.inj h)) hlast
        | stay | up | enter | along target | refuse e =>
          rw [hm] at h
          cases h

/-! ## Links are followed -/

theorem find?_dropLast (h : top.find? here = some (.dir entries)) :
    ∃ entries, top.find? here.dropLast = some (.dir entries) := by
  rcases here.eq_nil_or_concat with rfl | ⟨base, name, rfl⟩
  · exact ⟨entries, h⟩
  · rw [List.concat_eq_append, find?_append] at h
    rw [List.concat_eq_append, List.dropLast_concat]
    obtain ⟨e, he, hname⟩ := Option.bind_eq_some_iff.1 h
    cases e with
    | file octets => simp [find?] at hname
    | link target => simp [find?] at hname
    | dir entries => exact ⟨entries, he⟩

/-- No move leads from anything but a directory. -/
theorem exists_dir_of_next? {next : Nat × List String × List String}
    (h : (move creating (top.find? here) name rest).next? links here name rest = some next) :
    ∃ entries, top.find? here = some (.dir entries) := by
  cases hf : top.find? here with
  | none =>
    rw [hf] at h
    cases h
  | some e =>
    cases e with
    | file octets =>
      rw [hf] at h
      cases h
    | link target =>
      rw [hf] at h
      cases h
    | dir entries => exact ⟨entries, rfl⟩

/-- A name is entered only where it is not that of a link. -/
theorem lookup_of_enter (h : move creating (some (.dir entries)) name rest = .enter)
    (target : String) : entries.lookup name ≠ some (.link target) := by
  intro hl
  simp only [move, hl] at h
  repeat' split at h
  all_goals cases h

theorem not_link_of_next? {links' : Nat} {here' : List String}
    (h : (move creating (top.find? here) name rest).next? links here name rest =
      some (links', here', [])) (target : String) : top.find? here' ≠ some (.link target) := by
  obtain ⟨entries, hf⟩ := exists_dir_of_next? h
  cases hm : move creating (top.find? here) name rest with
  | stay =>
    rw [hm] at h
    cases h
    simp [hf]
  | up =>
    rw [hm] at h
    cases h
    obtain ⟨entries, hup⟩ := find?_dropLast hf
    simp [hup]
  | enter =>
    rw [hm] at h
    cases h
    rw [hf] at hm
    rw [find?_child hf]
    exact lookup_of_enter hm target
  | along target =>
    rw [hm] at h
    cases links with
    | zero => cases h
    | succ links =>
      -- The names of the target are left to follow.
      have hnil := congrArg (fun next => next.map fun next => next.2.2) h
      simp [Move.next?, targetNames, Text.splitAt_ne_nil] at hnil
  | vacant | refuse e =>
    rw [hm] at h
    cases h

theorem follow_ne_link (hne : todo ≠ []) (target : String) :
    follow top creating links here todo ≠ .ok (.found names (.link target)) := by
  induction links, here, todo using follow_induction top creating with
  | nil links here => exact absurd rfl hne
  | cons links here name rest ih =>
    rw [follow_cons]
    split
    · next links' here' todo' hn =>
      cases todo' with
      | nil =>
        rw [follow_nil]
        intro h
        split at h
        · next hf =>
          cases h
          exact not_link_of_next? hn target hf
        · cases h
      | cons next more => exact ih _ _ _ hn (List.cons_ne_nil next more)
    · exact Move.result_ne_found _

namespace FileTree

variable {t t' : FileTree} {p : Path}

/-- A name that is not in a directory can be given to a file there. -/
theorem place_free (hd : t.top.find? t.current = some (.dir entries)) (hn : IsProper name)
    (hz : '\x00' ∉ name.toList) (hs : name.utf8ByteSize ≤ maxNameSize)
    (hl : entries.lookup name = none) :
    t.place ⟨0, [name]⟩ true = .ok (.vacant (t.current ++ [name])) := by
  have hnul : Path.hasNul ⟨0, [name]⟩ = false := by simp [Path.hasNul, hz]
  have htext : Path.toString ⟨0, [name]⟩ = name := by simp [Path.toString]
  have hsize : maxNameSize ≤ maxPathSize := by decide
  have hmove : move true (t.top.find? t.current) name [] = .vacant := by
    simp [move, hd, hn.staysPut_eq, hn.ne_dots, Nat.not_lt.2 hs, hl]
  refine place_eq_ok_iff.2 ⟨hnul, htext ▸ Nat.le_trans hs hsize, ?_⟩
  rw [if_pos rfl, follow_cons, hmove]
  rfl

theorem place_of_vacant (h : t.place p true = .ok (.vacant names)) (octets : List UInt8) :
    (t.rewrite names octets).place p true = .ok (.found names (.file octets)) := by
  obtain ⟨hn, hs, hf⟩ := place_eq_ok_iff.1 h
  exact place_eq_ok_iff.2 ⟨hn, hs, follow_replace_free hf octets⟩

/-- A path that leads to a link has no names: it is the place that it begins at. -/
theorem place_of_link {target : String} (h : t.place p true = .ok (.found names (.link target)))
    (octets : List UInt8) :
    (t.rewrite names octets).place p true = .ok (.found names (.file octets)) := by
  obtain ⟨hn, hs, hf⟩ := place_eq_ok_iff.1 h
  have hfind := find?_of_follow hf
  refine place_eq_ok_iff.2 ⟨hn, hs, ?_⟩
  cases hnames : p.names with
  | nil =>
    rw [hnames, follow_nil] at hf
    split at hf
    · cases hf
      rw [follow_nil]
      simp only [rewrite, find?_replace hfind]
    · cases hf
  | cons name rest =>
    rw [hnames] at hf
    exact absurd hf (follow_ne_link (List.cons_ne_nil name rest) target)

/-- What has been written through a path is what is read through it. -/
theorem read_of_write (h : t.write p octets = .ok t') : t'.read p = .ok octets := by
  unfold write at h
  cases hp : t.place p true with
  | error e => simp [hp, bind, Except.bind] at h
  | ok place =>
    rw [hp] at h
    cases place with
    | vacant names =>
      cases h
      exact read_eq_ok_iff.2 ⟨names, place_creating (place_of_vacant hp octets)⟩
    | found names e =>
      cases e with
      | dir entries => cases h
      | file old =>
        cases h
        have hl : t.Leads p names := ⟨old, place_creating hp⟩
        exact hl.read_rewrite octets
      | link target =>
        cases h
        exact read_eq_ok_iff.2 ⟨names, place_creating (place_of_link hp octets)⟩

/-- A file that has been opened for writing can be written, and reads what has been written. -/
theorem exists_write_of_write (h : t.write p octets = .ok t') (octets' : List UInt8) :
    ∃ t'', t'.write p octets' = .ok t'' ∧ t''.read p = .ok octets' := by
  obtain ⟨names, hp⟩ := read_eq_ok_iff.1 (read_of_write h)
  have hl : t'.Leads p names := ⟨octets, hp⟩
  exact ⟨_, hl.write_eq_ok octets', hl.read_rewrite octets'⟩

end FileTree

end Recenter.Files
