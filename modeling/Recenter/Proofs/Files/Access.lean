import Recenter.Proofs.Files.Place

/-! Reading and writing files. A path that may be written leads where it leads for reading, and a
write gives one file new octets: the outline stays, so every path leads where it led, and every
other file reads as before. -/

namespace Recenter.Files

open Entry

variable {t t' : FileTree} {p q : Path} {names other : List String} {octets octets' : List UInt8}
  {e d : Entry} {place : Place}

theorem Path.ofString_name {name : String} (hn : IsProper name)
    (hs : ∀ c ∈ name.toList, c ≠ '/') : Path.ofString name = ⟨0, [name]⟩ := by
  have hsplit : ∀ s : List Char, (∀ c ∈ s, c ≠ '/') → Text.splitAt '/' s = [s] := by
    intro s
    induction s with
    | nil => intro _; rfl
    | cons c rest ih =>
      intro hs
      rw [List.forall_mem_cons] at hs
      have hrest := ih hs.2
      rw [Text.splitAt] at hrest ⊢
      rw [List.foldr_cons, hrest]
      simp [hs.1]
  have hlead : name.toList.takeWhile (· == '/') = [] := by
    cases hl : name.toList with
    | nil => rfl
    | cons c rest =>
      rw [hl, List.forall_mem_cons] at hs
      simp [hs.1]
  have he : name.toList ≠ [] := fun h => hn.ne_empty (String.toList_eq_nil_iff.1 h)
  have hd : name.toList ≠ ['.'] := fun h => hn.ne_dot (String.toList_inj.1 h)
  simp [ofString, hlead, hsplit _ hs, he, hd]

namespace FileTree

/-- The same directories, links and files, whatever the files hold. -/
def SameOutline (t t' : FileTree) : Prop := t.top.outline = t'.top.outline ∧ t.current = t'.current

/-- The path leads to the file with these names from the top on. -/
def Leads (t : FileTree) (p : Path) (names : List String) : Prop :=
  ∃ octets, t.place p false = .ok (.found names (.file octets))

def Apart (t : FileTree) (p q : Path) : Prop := ∀ names, t.Leads p names → ¬ t.Leads q names

/-- The tree with new octets in the file at these names. -/
def rewrite (t : FileTree) (names : List String) (octets : List UInt8) : FileTree :=
  { t with top := Entry.replace (.file octets) names t.top }

/-! ## Places -/

theorem place_eq_ok_iff {creating : Bool} :
    t.place p creating = .ok place ↔ p.hasNul = false ∧ p.toString.utf8ByteSize ≤ maxPathSize ∧
      follow t.top creating maxLinks (if p.slashes = 0 then t.current else []) p.names =
        .ok place := by
  unfold FileTree.place
  by_cases hn : p.hasNul = true
  · simp [hn]
  by_cases hs : maxPathSize < p.toString.utf8ByteSize
  · simp [hn, hs, Nat.not_le.2 hs]
  · simp [hn, hs, Nat.le_of_not_lt hs]

theorem place_name {name : String} {entries : List (String × Entry)}
    (hd : t.top.find? t.current = some (.dir entries)) (hn : IsProper name)
    (hz : '\x00' ∉ name.toList) (hs : name.utf8ByteSize ≤ maxNameSize)
    (hl : entries.lookup name = some e) (he : ∀ target, e ≠ .link target) :
    t.place ⟨0, [name]⟩ false = .ok (.found (t.current ++ [name]) e) := by
  have hnul : Path.hasNul ⟨0, [name]⟩ = false := by simp [Path.hasNul, hz]
  have htext : Path.toString ⟨0, [name]⟩ = name := by simp [Path.toString]
  have hsize : maxNameSize ≤ maxPathSize := by decide
  have hmove : move false (t.top.find? t.current) name [] = .enter := by
    rcases move_proper hn hl he [] with hmove | hmove
    · rw [hd, hmove]
    · simp only [move, hn.staysPut_eq, hn.ne_dots, Nat.not_lt.2 hs] at hmove
      cases e <;> simp [hl] at hmove
  have hfind : t.top.find? (t.current ++ [name]) = some e := by
    rw [Entry.find?_append, hd]
    simp [Entry.find?, hl]
  rw [place_eq_ok_iff]
  refine ⟨hnul, htext ▸ Nat.le_trans hs hsize, ?_⟩
  rw [if_pos rfl, follow_cons, hmove]
  exact (follow_nil _ _ _ _).trans (by rw [hfind])

theorem find?_of_place {creating : Bool} (h : t.place p creating = .ok (.found names e)) :
    t.top.find? names = some e :=
  find?_of_follow (place_eq_ok_iff.1 h).2.2

theorem place_creating (h : t.place p true = .ok place) : t.place p false = .ok place := by
  obtain ⟨hn, hs, hf⟩ := place_eq_ok_iff.1 h
  exact place_eq_ok_iff.2 ⟨hn, hs, follow_creating hf⟩

/-- A path that leads to a file leads there for writing. -/
theorem place_creating_of_file (h : t.place p false = .ok (.found names (.file octets))) :
    t.place p true = .ok (.found names (.file octets)) := by
  obtain ⟨hn, hs, hf⟩ := place_eq_ok_iff.1 h
  exact place_eq_ok_iff.2 ⟨hn, hs, follow_creating_of_file hf⟩

/-- A path leads to the same place in a tree of the same outline. -/
theorem SameOutline.exists_place (h : t.SameOutline t') {creating : Bool}
    (hp : t.place p creating = .ok place) :
    ∃ place', t'.place p creating = .ok place' ∧ place.outline = place'.outline := by
  obtain ⟨hn, hs, hf⟩ := place_eq_ok_iff.1 hp
  have hfollow :=
    follow_outline t.top creating maxLinks (if p.slashes = 0 then t.current else []) p.names
  rw [hf, h.1, follow_outline, h.2] at hfollow
  cases hf' : follow t'.top creating maxLinks (if p.slashes = 0 then t'.current else [])
      p.names with
  | error e =>
    rw [hf'] at hfollow
    cases hfollow
  | ok place' =>
    rw [hf'] at hfollow
    exact ⟨place', place_eq_ok_iff.2 ⟨hn, hs, hf'⟩, (Except.ok.inj hfollow).symm⟩

theorem SameOutline.refl (t : FileTree) : t.SameOutline t := ⟨rfl, rfl⟩

theorem SameOutline.symm (h : t.SameOutline t') : t'.SameOutline t := ⟨h.1.symm, h.2.symm⟩

theorem SameOutline.trans {t'' : FileTree} (h : t.SameOutline t') (h' : t'.SameOutline t'') :
    t.SameOutline t'' :=
  ⟨h.1.trans h'.1, h.2.trans h'.2⟩

theorem SameOutline.exists_file (h : t.SameOutline t') {creating : Bool}
    (hp : t.place p creating = .ok (.found names (.file octets))) :
    ∃ octets', t'.place p creating = .ok (.found names (.file octets')) := by
  obtain ⟨place', hp', ho⟩ := h.exists_place hp
  cases place' with
  | vacant names' => cases ho
  | found names' e =>
    cases e with
    | file octets' =>
      cases ho
      exact ⟨octets', hp'⟩
    | link target => cases ho
    | dir entries => cases ho

theorem SameOutline.leads (h : t.SameOutline t') (hp : t.Leads p names) : t'.Leads p names := by
  obtain ⟨octets, hp⟩ := hp
  exact h.exists_file hp

theorem SameOutline.leads_iff (h : t.SameOutline t') : t'.Leads p names ↔ t.Leads p names :=
  ⟨h.symm.leads, h.leads⟩

/-- A file stands in the same place in a tree of the same outline. -/
theorem SameOutline.exists_find? (h : t.SameOutline t')
    (hf : t.top.find? names = some (.file octets)) :
    ∃ octets', t'.top.find? names = some (.file octets') := by
  have hsame := congrArg (Entry.find? names) h.1
  rw [Entry.find?_outline, Entry.find?_outline, hf] at hsame
  obtain ⟨found, hfound, hout⟩ := Option.map_eq_some_iff.1 hsame.symm
  cases found with
  | file octets' => exact ⟨octets', hfound⟩
  | link target => cases hout
  | dir entries => cases hout

theorem Apart.symm (h : t.Apart p q) : t.Apart q p := fun names hq hp => h names hp hq

theorem SameOutline.apart_iff (h : t.SameOutline t') : t'.Apart p q ↔ t.Apart p q := by
  simp only [Apart, h.leads_iff]

/-- Below a directory that a path leads to, the names of an entry lead to the entry. -/
theorem place_descend (h : t.place p false = .ok (.found names d)) (hd : d.find? other = some e)
    (hp : ∀ name ∈ other, IsProper name) (he : ∀ target, e ≠ .link target)
    (hplace : t.place { p with names := p.names ++ other } false = .ok place) :
    place = .found (names ++ other) e := by
  obtain ⟨-, -, hf⟩ := place_eq_ok_iff.1 h
  obtain ⟨-, -, hf'⟩ := place_eq_ok_iff.1 hplace
  obtain ⟨links, happend⟩ := follow_append other hf
  rw [happend] at hf'
  rcases follow_names links (find?_of_follow hf) hd hp he with hto | hto
  · rw [hto] at hf'
    exact (Except.ok.inj hf').symm
  · rw [hto] at hf'
    cases hf'

/-! ## Reading and writing -/

theorem entry_eq_ok_iff :
    t.entry p = .ok e ↔ ∃ names, t.place p false = .ok (.found names e) := by
  unfold entry
  cases t.place p false with
  | error e => simp [bind, Except.bind]
  | ok place => cases place <;> simp [bind, Except.bind]

theorem entries_eq_ok_iff {entries : List (String × Entry)} :
    t.entries p = .ok entries ↔ ∃ names, t.place p false = .ok (.found names (.dir entries)) := by
  rw [← entry_eq_ok_iff]
  unfold FileTree.entries
  cases t.entry p with
  | error e => simp [bind, Except.bind]
  | ok e => cases e <;> simp [bind, Except.bind]

/-- A path leads to a directory, or it does not; only too long a name leaves that open. -/
theorem isDir_cases (t : FileTree) (p : Path) :
    (t.isDir p = .ok true ∧ ∃ entries, t.entries p = .ok entries) ∨
    (t.isDir p = .ok false ∧ (¬ ∃ entries, t.entries p = .ok entries) ∧
      t.entry p ≠ .error .nameTooLong) ∨
    (t.isDir p = .error .nameTooLong ∧ (¬ ∃ entries, t.entries p = .ok entries) ∧
      t.entry p = .error .nameTooLong) := by
  unfold isDir entry? FileTree.entries
  cases t.entry p with
  | error e => cases e <;> simp [bind, Except.bind]
  | ok e => cases e <;> simp [bind, Except.bind]

/-- Too long a name in a directory cannot be looked up. -/
theorem entry_of_overlong {name : String} {entries : List (String × Entry)}
    (hd : t.top.find? t.current = some (.dir entries)) (hn : IsProper name)
    (hz : '\x00' ∉ name.toList) (hl : maxNameSize < name.utf8ByteSize) :
    t.entry ⟨0, [name]⟩ = .error .nameTooLong := by
  have hnul : Path.hasNul ⟨0, [name]⟩ = false := by simp [Path.hasNul, hz]
  have hmove : move false (t.top.find? t.current) name [] = .refuse .nameTooLong := by
    simp [move, hd, hn.staysPut_eq, hn.ne_dots, hl]
  have hfollow : follow t.top false maxLinks t.current [name] = .error .nameTooLong := by
    rw [follow_cons, hmove]
    rfl
  have hplace : t.place ⟨0, [name]⟩ false = .error .nameTooLong := by
    unfold FileTree.place
    simp [hnul, hfollow]
  rw [entry, hplace]
  rfl

theorem SameOutline.exists_entries (h : t.SameOutline t') {entries : List (String × Entry)}
    (he : t.entries p = .ok entries) :
    ∃ entries', t'.entries p = .ok entries' ∧ outlineAll entries' = outlineAll entries := by
  obtain ⟨names, hp⟩ := entries_eq_ok_iff.1 he
  obtain ⟨place, hp', ho⟩ := h.exists_place hp
  cases place with
  | vacant names' => cases ho
  | found names' e =>
    cases e with
    | file octets => cases ho
    | link target => cases ho
    | dir entries' =>
      obtain ⟨-, hout⟩ := Place.found.inj ho
      exact ⟨entries', entries_eq_ok_iff.2 ⟨_, hp'⟩, (Entry.dir.inj hout).symm⟩

theorem read_eq_ok_iff :
    t.read p = .ok octets ↔ ∃ names, t.place p false = .ok (.found names (.file octets)) := by
  rw [← entry_eq_ok_iff]
  unfold read
  cases t.entry p with
  | error e => simp [bind, Except.bind]
  | ok e => cases e <;> simp [bind, Except.bind]

/-- A path leads to a file that can be read, or it does not; only too long a name leaves that
open. -/
theorem file?_cases (t : FileTree) (p : Path) :
    (∃ octets, t.file? p = .ok (some octets) ∧ t.read p = .ok octets) ∨
    (t.file? p = .ok none ∧ (¬ ∃ octets, t.read p = .ok octets) ∧
      t.entry p ≠ .error .nameTooLong) ∨
    (t.file? p = .error .nameTooLong ∧ (¬ ∃ octets, t.read p = .ok octets) ∧
      t.entry p = .error .nameTooLong) := by
  unfold file? entry? FileTree.read
  cases t.entry p with
  | error e => cases e <;> simp [bind, Except.bind]
  | ok e => cases e <;> simp [bind, Except.bind]

theorem Leads.read_eq_ok_iff (h : t.Leads p names) :
    t.read p = .ok octets ↔ t.top.find? names = some (.file octets) := by
  obtain ⟨octets', h⟩ := h
  rw [FileTree.read_eq_ok_iff, h, find?_of_place h]
  simp

theorem Leads.exists_find? (h : t.Leads p names) :
    ∃ octets, t.top.find? names = some (.file octets) := by
  obtain ⟨octets, h⟩ := h
  exact ⟨octets, find?_of_place h⟩

theorem Leads.unique (h : t.Leads p names) (h' : t.Leads p other) : names = other := by
  obtain ⟨octets, h⟩ := h
  obtain ⟨octets', h'⟩ := h'
  rw [h] at h'
  cases h'
  rfl

theorem write_of_place (h : t.place p true = .ok (.found names (.file octets)))
    (octets' : List UInt8) : t.write p octets' = .ok (t.rewrite names octets') := by
  rw [write, h]
  rfl

/-- A write gives the file that the path leads to new octets. -/
theorem Leads.write_eq (h : t.Leads p names) (hw : t.write p octets = .ok t') :
    t' = t.rewrite names octets := by
  obtain ⟨octets', h⟩ := h
  unfold write at hw
  cases hp : t.place p true with
  | error e => simp [hp, bind, Except.bind] at hw
  | ok place =>
    have hsame := place_creating hp
    rw [h] at hsame
    cases hsame
    rw [hp] at hw
    cases hw
    rfl

theorem Leads.write_eq_ok (h : t.Leads p names) (octets : List UInt8) :
    t.write p octets = .ok (t.rewrite names octets) := by
  obtain ⟨old, h⟩ := h
  exact write_of_place (place_creating_of_file h) octets

theorem rewrite_self (h : t.top.find? names = some (.file octets)) :
    t.rewrite names octets = t := by
  rw [rewrite, replace_self h]

theorem sameOutline_rewrite (h : t.top.find? names = some (.file octets)) (octets' : List UInt8) :
    t.SameOutline (t.rewrite names octets') :=
  ⟨(outline_replace h).symm, rfl⟩

theorem rewrite_rewrite (h : t.top.find? names = some (.file octets)) (first second : List UInt8) :
    (t.rewrite names first).rewrite names second = t.rewrite names second := by
  unfold rewrite
  simp only
  rw [replace_replace h]

/-- A path that leads to the file reads its new octets. -/
theorem Leads.read_rewrite (h : t.Leads p names) (octets : List UInt8) :
    (t.rewrite names octets).read p = .ok octets := by
  obtain ⟨old, hold⟩ := h.exists_find?
  rw [((sameOutline_rewrite hold octets).leads h).read_eq_ok_iff, rewrite, find?_replace hold]

/-- What a file holds after one file has been given new octets. -/
theorem find?_rewrite (h : t.top.find? names = some (.file octets)) (octets' : List UInt8)
    (other : List String) (found : List UInt8) :
    (t.rewrite names octets').top.find? other = some (.file found) ↔
      if other = names then found = octets' else t.top.find? other = some (.file found) := by
  split
  · next ho =>
    rw [ho, rewrite, find?_replace h]
    simp [eq_comm]
  · next ho => exact find?_replace_of_ne h ho found

/-! ## One file at most -/

/-- The trees differ in the file at these names at most. -/
structure Touches (t t' : FileTree) (names : List String) : Prop where
  outline : t.SameOutline t'
  find?_iff : ∀ other, other ≠ names → ∀ octets,
    t'.top.find? other = some (.file octets) ↔ t.top.find? other = some (.file octets)

theorem Touches.refl (t : FileTree) (names : List String) : t.Touches t names :=
  ⟨.refl t, fun _ _ _ => Iff.rfl⟩

theorem Touches.trans {t'' : FileTree} (h : t.Touches t' names) (h' : t'.Touches t'' names) :
    t.Touches t'' names :=
  ⟨h.outline.trans h'.outline, fun other ho octets =>
    (h'.find?_iff other ho octets).trans (h.find?_iff other ho octets)⟩

theorem touches_rewrite (h : t.top.find? names = some (.file octets)) (octets' : List UInt8) :
    t.Touches (t.rewrite names octets') names :=
  ⟨sameOutline_rewrite h octets', fun other ho found => by rw [find?_rewrite h, if_neg ho]⟩

end FileTree

end Recenter.Files
