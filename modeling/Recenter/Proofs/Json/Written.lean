import Recenter.Proofs.Json.Arranged
import Recenter.Proofs.Json.Spelling

/-! Values are read as they were written, in either layout, but for the order of the members of
objects: these are written in the order of their names (`readWithin_write`). The machine that reads
is followed from the beginning of a value's text to the state that has the value delivered. -/

namespace Recenter.Json

open Recenter.Text Recenter.Number

variable {most pos level : Nat} {c : Char} {s gap text rest : List Char} {layout : Layout}
  {state next : State} {token : Token} {value : Json} {items done : List Json}
  {members known : List (String × Json)} {frames : List Frame} {name : String}

/-! ## The text of a value -/

theorem writtenItems_eq_map (items : List Json) :
    writtenItems layout level items = items.map (written layout level) := by
  induction items with
  | nil => rfl
  | cons value rest ih => rw [writtenItems, ih, List.map_cons]

theorem writtenMembers_eq_map (members : List (String × Json)) :
    writtenMembers layout level members =
      members.map fun m => (m.1, written layout level m.2) := by
  induction members with
  | nil => rfl
  | cons m rest ih => rw [writtenMembers, ih, List.map_cons]

theorem written_array (items : List Json) :
    written layout level (.array items) =
      layout.enclose level '[' ']' (items.map (written layout (level + 1))) := by
  rw [written, writtenItems_eq_map]

def writtenMember (name : String) (text : List Char) : List Char :=
  writtenText name.toList ++ [':', ' '] ++ text

theorem written_object (members : List (String × Json)) :
    written layout level (.object members) =
      layout.enclose level '\x7b' '\x7d'
        ((sortByName members).map fun m => writtenMember m.1 (written layout (level + 1) m.2)) := by
  rw [written, writtenMembers_eq_map, sortByName_map, List.map_map]
  rfl

/-! ## What the machine makes of a text -/

/-- The state that the tokens of a text lead to. -/
def advance (most pos : Nat) (text : List Char) (state : State) : Except Fault State :=
  (tokens most pos text).foldlM State.step state

theorem advance_space (h : isSpace c = true) :
    advance most pos (c :: rest) state = advance most (pos + 1) rest state := by
  rw [advance, tokens, if_pos h, advance]

theorem advance_spaces (h : ∀ c ∈ gap, isSpace c = true) :
    advance most pos (gap ++ rest) state = advance most (pos + gap.length) rest state := by
  induction gap generalizing pos with
  | nil => rfl
  | cons c gap ih =>
    rw [List.forall_mem_cons] at h
    rw [List.cons_append, advance_space h.1, ih h.2, List.length_cons, Nat.add_assoc,
      Nat.add_comm 1]

theorem advance_token (hs : isSpace c = false)
    (ht : readToken most pos (c :: (s ++ rest)) = (token, s.length + 1))
    (hstep : state.step ⟨token, pos⟩ = .ok next) :
    advance most pos (c :: (s ++ rest)) state = advance most (pos + 1 + s.length) rest next := by
  rw [advance, tokens, hs, if_neg Bool.false_ne_true, ht]
  simp only [Nat.add_sub_cancel, List.drop_left]
  rw [List.foldlM_cons, hstep]
  rfl

theorem advance_char (hs : isSpace c = false) (ht : readToken most pos (c :: rest) = (token, 1))
    (hstep : state.step ⟨token, pos⟩ = .ok next) :
    advance most pos (c :: rest) state = advance most (pos + 1) rest next :=
  advance_token (s := []) hs ht hstep

/-- Where the first item of an array may begin, a value is read as in any other place. -/
theorem advance_atFirstItem (hs : isSpace c = false)
    (hne : (readToken most pos (c :: rest)).1 ≠ .arrayEnd) :
    advance most pos (c :: rest) (.atFirstItem frames) =
      advance most pos (c :: rest) (.atValue (.array [] :: frames)) := by
  rw [advance, advance, tokens, hs, if_neg Bool.false_ne_true]
  generalize readToken most pos (c :: rest) = read at hne
  obtain ⟨token, length⟩ := read
  have hstep : State.step (.atFirstItem frames) ⟨token, pos⟩ =
      State.step (.atValue (.array [] :: frames)) ⟨token, pos⟩ := by
    cases token with
    | arrayEnd => exact absurd rfl hne
    | _ => rfl
  simp only [List.foldlM_cons, hstep]

/-! ## Values -/

/-- Wherever a value is wanted the text is read as this one, in front of all that can end it. -/
structure Reads (most : Nat) (text : List Char) (value : Json) : Prop where
  opens : ∃ c more, text = c :: more ∧ isSpace c = false ∧
    ∀ pos rest, Ends rest → (readToken most pos (text ++ rest)).1 ≠ .arrayEnd
  atValue : ∀ frames pos rest, Ends rest → ∃ pos',
    advance most pos (text ++ rest) (.atValue frames) =
      advance most pos' rest (State.deliver value frames)

theorem Reads.atFirstItem (h : Reads most text value) (hr : Ends rest) (frames : List Frame)
    (pos : Nat) : advance most pos (text ++ rest) (.atFirstItem frames) =
      advance most pos (text ++ rest) (.atValue (.array [] :: frames)) := by
  obtain ⟨c, more, rfl, hs, hne⟩ := h.opens
  exact advance_atFirstItem hs (hne pos rest hr)

/-- The texts behind the first one of an array or object, each with what stands in front of it. -/
def further (gap : List Char) (texts : List (List Char)) : List Char :=
  texts.flatMap fun text => ',' :: (gap ++ text)

theorem ends_further (hr : Ends rest) (gap : List Char) (texts : List (List Char)) :
    Ends (further gap texts ++ rest) := by
  cases texts with
  | nil => exact hr
  | cons text texts => exact ends_cons rfl (by decide)

theorem intercalate_eq_further (gap text : List Char) (texts : List (List Char)) :
    (',' :: gap).intercalate (text :: texts) = text ++ further gap texts := by
  induction texts generalizing text with
  | nil => simp [further]
  | cons next texts ih => simp [ih, further]

/-- A character of the gaps between items. -/
def Layout.IsGap (layout : Layout) (c : Char) : Prop := c = ' ' ∨ layout = .pretty ∧ c = '\n'

theorem Layout.IsGap.isSpace_eq (h : layout.IsGap c) : isSpace c = true := by
  obtain rfl | ⟨-, rfl⟩ := h <;> rfl

/-- Between the brackets, the commas and what they enclose there are gaps alone. -/
theorem Layout.exists_enclose (layout : Layout) (level : Nat) (opening closing : Char)
    (text : List Char) (texts : List (List Char)) :
    ∃ before gap behind, (∀ c ∈ before, layout.IsGap c) ∧ (∀ c ∈ gap, layout.IsGap c) ∧
      (∀ c ∈ behind, layout.IsGap c) ∧
      layout.enclose level opening closing (text :: texts) =
        opening :: (before ++ (text ++ (further gap texts ++ (behind ++ [closing])))) := by
  cases layout with
  | compact =>
    refine ⟨[], [' '], [], nofun, by simp [Layout.IsGap], nofun, ?_⟩
    simp [Layout.enclose, Layout.gaps, intercalate_eq_further]
  | pretty =>
    have hspaces : ∀ n, ∀ c ∈ '\n' :: List.replicate n ' ', Layout.IsGap .pretty c := by
      intro n c hc
      obtain rfl | hc := List.mem_cons.1 hc
      · exact .inr ⟨rfl, rfl⟩
      · exact .inl (List.eq_of_mem_replicate hc)
    refine ⟨_, _, _, hspaces (2 * level + 2), hspaces (2 * level + 2), hspaces (2 * level), ?_⟩
    simp [Layout.enclose, Layout.gaps, intercalate_eq_further]

theorem advance_gap (h : ∀ c ∈ gap, layout.IsGap c) :
    advance most pos (gap ++ rest) state = advance most (pos + gap.length) rest state :=
  advance_spaces fun c hc => (h c hc).isSpace_eq

theorem ends_gap (h : ∀ c ∈ gap, layout.IsGap c) (hr : Ends rest) : Ends (gap ++ rest) :=
  ends_spaces (fun c hc => (h c hc).isSpace_eq) hr

theorem exists_advance_items {write : Json → List Char} {read : Json → Json}
    (hgap : ∀ c ∈ gap, layout.IsGap c) (hr : Ends rest)
    (h : ∀ v ∈ items, Reads most (write v) (read v)) (done : List Json) (pos : Nat) :
    ∃ pos', advance most pos (further gap (items.map write) ++ rest) (.atItemEnd frames done) =
      advance most pos' rest (.atItemEnd frames ((items.map read).reverse ++ done)) := by
  induction items generalizing done pos with
  | nil => exact ⟨pos, rfl⟩
  | cons value items ih =>
    rw [List.forall_mem_cons] at h
    have hcomma : State.step (.atItemEnd frames done) ⟨.comma, pos⟩ =
        .ok (.atValue (.array done :: frames)) := rfl
    have hends := ends_further hr gap (items.map write)
    obtain ⟨pos₁, hvalue⟩ := h.1.atValue (.array done :: frames) (pos + 1 + gap.length) _ hends
    obtain ⟨pos₂, hitems⟩ := ih h.2 (read value :: done) pos₁
    have htext : further gap ((value :: items).map write) ++ rest =
        ',' :: (gap ++ (write value ++ (further gap (items.map write) ++ rest))) := by
      simp [further]
    refine ⟨pos₂, ?_⟩
    rw [htext, advance_char rfl rfl hcomma, advance_gap hgap, hvalue]
    simpa [State.deliver] using hitems

theorem Reads.array {write : Json → List Char} {read : Json → Json}
    (h : ∀ v ∈ items, Reads most (write v) (read v)) :
    Reads most (layout.enclose level '[' ']' (items.map write)) (.array (items.map read)) := by
  have hstart : ∀ frames pos, State.step (.atValue frames) ⟨.arrayStart, pos⟩ =
      .ok (.atFirstItem frames) := fun _ _ => rfl
  cases items with
  | nil =>
    refine ⟨⟨'[', [']'], rfl, rfl, fun _ _ _ => nofun⟩, fun frames pos rest _ => ⟨pos + 1 + 1, ?_⟩⟩
    have hend : State.step (.atFirstItem frames) ⟨.arrayEnd, pos + 1⟩ =
        .ok (State.deliver (.array []) frames) := rfl
    exact (advance_char rfl rfl (hstart _ _)).trans (advance_char rfl rfl hend)
  | cons first items =>
    rw [List.forall_mem_cons] at h
    obtain ⟨before, gap, behind, hbefore, hgap, hbehind, he⟩ :=
      layout.exists_enclose level '[' ']' (write first) (items.map write)
    rw [List.map_cons, he]
    refine ⟨⟨'[', _, rfl, rfl, fun _ _ _ => nofun⟩, fun frames pos rest hr => ?_⟩
    have hbehind' : Ends (behind ++ ']' :: rest) := ends_gap hbehind (ends_cons rfl (by decide))
    have hends := ends_further hbehind' gap (items.map write)
    obtain ⟨pos₁, hfirst⟩ := h.1.atValue (.array [] :: frames) (pos + 1 + before.length) _ hends
    obtain ⟨pos₂, hitems⟩ := exists_advance_items hgap hbehind' h.2 [read first] pos₁
    have hend : State.step (.atItemEnd frames ((items.map read).reverse ++ [read first]))
        ⟨.arrayEnd, pos₂ + behind.length⟩ =
          .ok (State.deliver (.array ((first :: items).map read)) frames) := by
      simp [State.step]
    refine ⟨pos₂ + behind.length + 1, ?_⟩
    simp only [List.cons_append, List.append_assoc, List.nil_append]
    rw [advance_char rfl rfl (hstart _ _), advance_gap hbefore, h.1.atFirstItem hends, hfirst]
    simp only [State.deliver]
    rw [hitems, advance_gap hbehind, advance_char rfl rfl hend]
    rfl

theorem put_of_notMem (h : name ∉ known.map Prod.fst) (value : Json) :
    put name value known = known ++ [(name, value)] := by
  induction known with
  | nil => rfl
  | cons m rest ih =>
    rw [List.map_cons, List.mem_cons, not_or] at h
    rw [put, if_neg (Ne.symm h.1), ih h.2, List.cons_append]

/-- A member of an object, if its name is new. -/
theorem exists_advance_member (h : Reads most text value) (hn : name ∉ known.map Prod.fst)
    (hr : Ends rest) (frames : List Frame) (first : Bool) (pos : Nat) :
    ∃ pos', advance most pos (writtenMember name text ++ rest) (.atName frames known first) =
      advance most pos' rest (.atMemberEnd frames (known ++ [(name, value)])) := by
  have htext : writtenMember name text ++ rest =
      '"' :: (name.toList.flatMap writtenChar ++ ['"'] ++ ':' :: ' ' :: (text ++ rest)) := by
    simp [writtenMember, writtenText]
  have hname : readToken most pos _ = _ :=
    readToken_writtenText name pos (':' :: ' ' :: (text ++ rest))
  have hstep : ∀ first, State.step (.atName frames known first) ⟨.text name, pos⟩ =
      .ok (.atColon frames known name) := by
    intro first
    cases first <;> rfl
  have hcolon : ∀ pos, State.step (.atColon frames known name) ⟨.colon, pos⟩ =
      .ok (.atValue (.object known name :: frames)) := fun _ => rfl
  rw [htext, advance_token rfl hname (hstep first), advance_char rfl rfl (hcolon _),
    advance_space rfl]
  obtain ⟨pos', hvalue⟩ := h.atValue (.object known name :: frames) _ rest hr
  rw [State.deliver, put_of_notMem hn] at hvalue
  exact ⟨pos', hvalue⟩

theorem exists_advance_members {write : Json → List Char} {read : Json → Json}
    (hgap : ∀ c ∈ gap, layout.IsGap c) (hr : Ends rest)
    (h : ∀ m ∈ members, Reads most (write m.2) (read m.2))
    (hn : (known.map Prod.fst ++ members.map Prod.fst).Nodup) (frames : List Frame) (pos : Nat) :
    ∃ pos', advance most pos
        (further gap (members.map fun m => writtenMember m.1 (write m.2)) ++ rest)
        (.atMemberEnd frames known) =
      advance most pos' rest
        (.atMemberEnd frames (known ++ members.map fun m => (m.1, read m.2))) := by
  induction members generalizing known pos with
  | nil => exact ⟨pos, by rw [List.map_nil, List.map_nil, List.append_nil]; rfl⟩
  | cons m members ih =>
    rw [List.forall_mem_cons] at h
    have hcomma : State.step (.atMemberEnd frames known) ⟨.comma, pos⟩ =
        .ok (.atName frames known false) := rfl
    have hname : m.1 ∉ known.map Prod.fst := fun hm =>
      (List.nodup_append.1 hn).2.2 _ hm _ List.mem_cons_self rfl
    have hrest : ((known ++ [(m.1, read m.2)]).map Prod.fst ++ members.map Prod.fst).Nodup := by
      simpa using hn
    have hends := ends_further hr gap (members.map fun m => writtenMember m.1 (write m.2))
    obtain ⟨pos₁, hmember⟩ :=
      exists_advance_member h.1 hname hends frames false (pos + 1 + gap.length)
    obtain ⟨pos₂, hmembers⟩ := ih h.2 hrest pos₁
    have htext : further gap ((m :: members).map fun m => writtenMember m.1 (write m.2)) ++ rest =
        ',' :: (gap ++ (writtenMember m.1 (write m.2) ++
          (further gap (members.map fun m => writtenMember m.1 (write m.2)) ++ rest))) := by
      simp [further]
    refine ⟨pos₂, ?_⟩
    rw [htext, advance_char rfl rfl hcomma, advance_gap hgap, hmember]
    simpa using hmembers

theorem Reads.object {write : Json → List Char} {read : Json → Json}
    (h : ∀ m ∈ members, Reads most (write m.2) (read m.2)) (hn : (members.map Prod.fst).Nodup) :
    Reads most
      (layout.enclose level '\x7b' '\x7d' (members.map fun m => writtenMember m.1 (write m.2)))
      (.object (members.map fun m => (m.1, read m.2))) := by
  have hstart : ∀ frames pos, State.step (.atValue frames) ⟨.objectStart, pos⟩ =
      .ok (.atName frames [] true) := fun _ _ => rfl
  cases members with
  | nil =>
    refine ⟨⟨_, _, rfl, rfl, fun _ _ _ => nofun⟩, fun frames pos rest _ => ⟨pos + 1 + 1, ?_⟩⟩
    have hend : State.step (.atName frames [] true) ⟨.objectEnd, pos + 1⟩ =
        .ok (State.deliver (.object []) frames) := rfl
    exact (advance_char rfl rfl (hstart _ _)).trans (advance_char rfl rfl hend)
  | cons first members =>
    rw [List.forall_mem_cons] at h
    obtain ⟨before, gap, behind, hbefore, hgap, hbehind, he⟩ :=
      layout.exists_enclose level '\x7b' '\x7d' (writtenMember first.1 (write first.2))
        (members.map fun m => writtenMember m.1 (write m.2))
    rw [List.map_cons, he]
    refine ⟨⟨_, _, rfl, rfl, fun _ _ _ => nofun⟩, fun frames pos rest hr => ?_⟩
    have hbehind' : Ends (behind ++ '\x7d' :: rest) :=
      ends_gap hbehind (ends_cons rfl (by decide))
    have hends := ends_further hbehind' gap (members.map fun m => writtenMember m.1 (write m.2))
    have hnew : first.1 ∉ ([] : List (String × Json)).map Prod.fst := nofun
    obtain ⟨pos₁, hfirst⟩ :=
      exists_advance_member h.1 hnew hends frames true (pos + 1 + before.length)
    have hnodup : ([(first.1, read first.2)].map Prod.fst ++ members.map Prod.fst).Nodup := hn
    obtain ⟨pos₂, hmembers⟩ := exists_advance_members hgap hbehind' h.2 hnodup frames pos₁
    have hend : State.step
        (.atMemberEnd frames ([(first.1, read first.2)] ++ members.map fun m => (m.1, read m.2)))
        ⟨.objectEnd, pos₂ + behind.length⟩ = .ok (State.deliver
          (.object ((first :: members).map fun m => (m.1, read m.2))) frames) := rfl
    refine ⟨pos₂ + behind.length + 1, ?_⟩
    simp only [List.cons_append, List.append_assoc, List.nil_append] at hfirst ⊢
    rw [advance_char rfl rfl (hstart _ _), advance_gap hbefore, hfirst, hmembers,
      advance_gap hbehind, advance_char rfl rfl hend]

def Layout.IsWritten (layout : Layout) (c : Char) : Prop :=
  IsPrinted c ∨ layout = .pretty ∧ c = '\n'

theorem Layout.IsGap.isWritten (h : layout.IsGap c) : layout.IsWritten c := by
  obtain rfl | h := h
  · exact .inl (by decide)
  · exact .inr h

theorem isWritten_of_mem_enclose {opening closing : Char} {texts : List (List Char)}
    (ho : IsPrinted opening) (hc : IsPrinted closing)
    (h : ∀ text ∈ texts, ∀ c ∈ text, layout.IsWritten c) :
    ∀ c ∈ layout.enclose level opening closing texts, layout.IsWritten c := by
  cases texts with
  | nil => simp [Layout.enclose, Layout.IsWritten, ho, hc]
  | cons text texts =>
    obtain ⟨before, gap, behind, hbefore, hgap, hbehind, he⟩ :=
      layout.exists_enclose level opening closing text texts
    rw [List.forall_mem_cons] at h
    have hfurther : ∀ c ∈ further gap texts, layout.IsWritten c := by
      intro c hm
      obtain ⟨text, ht, hm⟩ := List.mem_flatMap.1 hm
      rw [List.mem_cons, List.mem_append] at hm
      obtain rfl | hm | hm := hm
      · exact .inl (by decide)
      · exact (hgap c hm).isWritten
      · exact h.2 text ht c hm
    intro c hm
    rw [he] at hm
    simp only [List.mem_cons, List.mem_append, List.not_mem_nil, or_false] at hm
    obtain rfl | hm | hm | hm | hm | rfl := hm
    · exact .inl ho
    · exact (hbefore c hm).isWritten
    · exact h.1 c hm
    · exact hfurther c hm
    · exact (hbehind c hm).isWritten
    · exact .inl hc

/-- All that is written is printed ASCII, but for the line feeds of the layout that has some. -/
theorem isWritten_of_mem_written (value : Json) (layout : Layout) (level : Nat) :
    ∀ c ∈ written layout level value, layout.IsWritten c := by
  induction value using induction_on_parts generalizing level with
  | null =>
    rw [written]
    exact fun c hc => .inl (isPrinted_of_all (by decide) c hc)
  | bool b =>
    cases b with
    | true =>
      rw [written]
      exact fun c hc => .inl (isPrinted_of_all (by decide) c hc)
    | false =>
      rw [written]
      exact fun c hc => .inl (isPrinted_of_all (by decide) c hc)
  | int n =>
    rw [written]
    exact fun c hc => .inl (isPrinted_of_mem_writtenInt hc)
  | float x =>
    rw [written]
    exact fun c hc => .inl (isPrinted_of_mem_writtenFloat hc)
  | text s =>
    rw [written]
    exact fun c hc => .inl (isPrinted_of_mem_writtenText hc)
  | array items ih =>
    rw [written_array]
    refine isWritten_of_mem_enclose (by decide) (by decide) ?_
    simp only [List.forall_mem_map]
    exact fun value hm => ih value hm _
  | object members ih =>
    rw [written_object]
    refine isWritten_of_mem_enclose (by decide) (by decide) ?_
    simp only [List.forall_mem_map, writtenMember, List.mem_append]
    rintro m hm c ((hc | hc) | hc)
    · exact .inl (isPrinted_of_mem_writtenText hc)
    · exact .inl (isPrinted_of_all (by decide) c hc)
    · exact ih m ((sortByName_perm _).mem_iff.1 hm) _ c hc

/-- A compact text is printed ASCII throughout. -/
theorem isPrinted_of_mem_write_compact (h : c ∈ (write .compact value).toList) : IsPrinted c := by
  rw [write, String.toList_ofList] at h
  obtain h | ⟨hpretty, -⟩ := isWritten_of_mem_written value .compact 0 c h
  · exact h
  · cases hpretty

end Recenter.Json
