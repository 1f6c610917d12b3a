import Mathlib.Algebra.Group.Nat.Defs
import Mathlib.Data.List.Induction
import Mathlib.Data.List.TakeWhile
import Recenter.Json.Reader

/-! Integers in JSON. Reading refuses an integer of too many digits where a value is wanted, and so
it never gives one that cannot be written again (`isWritable_of_read`). Nothing but a run of that
many digits in the text makes it refuse an integer (`hasDigits_of_read`). -/

namespace Recenter.Json

open Recenter.Number

variable {pos length n : Nat} {s digits : List Char} {token : Token} {placed : Placed}
  {state state' : State} {value : Json} {fault : Fault} {frames : List Frame}

/-! ## Digits -/

theorem digit_le {c : Char} (h : c.isDigit = true) : c.toNat - '0'.toNat ≤ 9 := by
  simp only [Char.isDigit, Bool.and_eq_true, decide_eq_true_eq, UInt32.le_iff_toNat_le] at h
  have hzero : '0'.toNat = 48 := rfl
  have hnine : '9'.val.toNat = 57 := rfl
  have hc : c.toNat = c.val.toNat := rfl
  omega

/-- What so many digits stand for is less than that power of ten. -/
theorem digitsValue_lt (h : ∀ c ∈ digits, c.isDigit = true) :
    digitsValue digits < 10 ^ digits.length := by
  induction digits using List.reverseRecOn with
  | nil => simp [digitsValue]
  | append_singleton front c ih =>
    have hfront := ih fun d hd => h d (by simp [hd])
    have hlast := digit_le (h c (by simp))
    rw [digitsValue] at hfront ⊢
    rw [List.foldl_append, List.foldl_cons, List.foldl_nil, List.length_append, List.length_cons,
      List.length_nil, Nat.zero_add, Nat.pow_succ]
    omega

theorem isDigit_of_mem_wholeDigits (s : List Char) : ∀ c ∈ wholeDigits s, c.isDigit = true := by
  intro c hc
  unfold wholeDigits at hc
  split at hc
  · rw [List.mem_singleton.1 hc]
    rfl
  · exact List.mem_takeWhile_imp hc

theorem wholeDigits_isPrefix (s : List Char) : wholeDigits s <+: s := by
  unfold wholeDigits
  split
  · exact ⟨_, rfl⟩
  · exact List.takeWhile_prefix _

/-! ## Values that can be written -/

/-- No integer in the value has too many digits to be written. -/
inductive IsWritable : Json → Prop
  | null : IsWritable .null
  | bool (b : Bool) : IsWritable (.bool b)
  | int {n : Int} (h : isOversized n = false) : IsWritable (.int n)
  | float (x : Binary64) : IsWritable (.float x)
  | text (s : String) : IsWritable (.text s)
  | array {items : List Json} (h : ∀ value ∈ items, IsWritable value) : IsWritable (.array items)
  | object {members : List (String × Json)} (h : ∀ m ∈ members, IsWritable m.2) :
    IsWritable (.object members)

theorem pow_le_digitsBound (h : n ≤ maxDigits) : 10 ^ n ≤ digitsBound := by
  unfold digitsBound
  generalize maxDigits = most at h ⊢
  exact Nat.pow_le_pow_right (by decide) h

theorem isWritable_int (hd : ∀ c ∈ digits, c.isDigit = true) (hl : digits.length ≤ maxDigits)
    (negative : Bool) :
    IsWritable (.int (if negative then -(digitsValue digits : Int) else digitsValue digits)) := by
  refine .int ?_
  have hsize : (if negative then -(digitsValue digits : Int) else digitsValue digits).natAbs =
      digitsValue digits := by
    cases negative <;> simp
  rw [isOversized, hsize, decide_eq_false_iff_not, Nat.not_le]
  exact Nat.lt_of_lt_of_le (digitsValue_lt hd) (pow_le_digitsBound hl)

theorem forall_mem_put {members : List (String × Json)} {name : String}
    (h : ∀ m ∈ members, IsWritable m.2) (hv : IsWritable value) :
    ∀ m ∈ put name value members, IsWritable m.2 := by
  induction members with
  | nil => simpa [put] using hv
  | cons m rest ih =>
    obtain ⟨other, old⟩ := m
    rw [List.forall_mem_cons] at h
    rw [put]
    split
    · exact List.forall_mem_cons.2 ⟨hv, h.2⟩
    · exact List.forall_mem_cons.2 ⟨h.1, ih h.2⟩

/-! ## Tokens -/

/-- Somewhere in the text stand so many digits in a row, too many for an integer. -/
def HasDigits (text : List Char) (n : Nat) : Prop :=
  maxDigits < n ∧ ∃ digits, digits <:+: text ∧ digits.length = n ∧ ∀ c ∈ digits, c.isDigit = true

/-- What holds of every token of a text: its value can be written, and if it is refused for the
number of its digits, these stand in the text. -/
def Token.IsSound (text : List Char) : Token → Prop
  | .plain value => IsWritable value
  | .badNumber fault | .badText fault => ∀ n, fault = .oversized n → HasDigits text n
  | _ => True

theorem HasDigits.of_isInfix (h : HasDigits s n) {text : List Char} (hs : s <:+: text) :
    HasDigits text n := by
  obtain ⟨hn, digits, hdigits, hlength, hall⟩ := h
  exact ⟨hn, digits, hdigits.trans hs, hlength, hall⟩

theorem Token.IsSound.of_isInfix (h : token.IsSound s) {text : List Char} (hs : s <:+: text) :
    token.IsSound text := by
  cases token with
  | plain value => exact h
  | badNumber fault | badText fault => exact fun n hf => (h n hf).of_isInfix hs
  | _ => trivial

theorem readText_ne_oversized (start : Nat) (done : List Char) :
    readText start pos done s ≠ .error (.oversized n) := by
  fun_induction readText start pos done s <;> simp_all

theorem isSound_of_readNumber (h : readNumber? maxDigits s = some (token, length)) :
    token.IsSound s := by
  unfold readNumber? at h
  extract_lets negative unsigned whole tail decimals taken at h
  have hunsigned : unsigned <:+ s := by
    unfold unsigned
    split
    · exact List.drop_suffix _ _
    · exact List.suffix_refl _
  have hwhole : whole <:+: s := (wholeDigits_isPrefix unsigned).isInfix.trans hunsigned.isInfix
  have hdigits : ∀ c ∈ whole, c.isDigit = true := isDigit_of_mem_wholeDigits unsigned
  split at h
  · cases h
  split at h
  extract_lets size value at h
  split at h
  · split at h
    · next hlong =>
      obtain ⟨rfl, -⟩ := Prod.mk.inj (Option.some.inj h)
      rintro n ⟨⟩
      exact ⟨hlong, whole, hwhole, rfl, hdigits⟩
    · next hshort =>
      obtain ⟨rfl, -⟩ := Prod.mk.inj (Option.some.inj h)
      exact isWritable_int hdigits (Nat.not_lt.1 hshort) negative
  · obtain ⟨rfl, -⟩ := Prod.mk.inj (Option.some.inj h)
    exact .float _

theorem isWritable_of_mem_words {word : List Char} (h : (word, value) ∈ words) :
    IsWritable value := by
  simp only [words, List.mem_cons, Prod.mk.injEq, List.not_mem_nil, or_false] at h
  rcases h with ⟨-, rfl⟩ | ⟨-, rfl⟩ | ⟨-, rfl⟩ | ⟨-, rfl⟩ | ⟨-, rfl⟩ | ⟨-, rfl⟩
  · exact .null
  · exact .bool true
  · exact .bool false
  · exact .float _
  · exact .float _
  · exact .float _

theorem isSound_readToken (pos : Nat) (s : List Char) :
    (readToken maxDigits pos s).1.IsSound s := by
  unfold readToken
  split
  · trivial
  · trivial
  · trivial
  · trivial
  · trivial
  · trivial
  · split
    · trivial
    · next fault htext =>
      rintro n rfl
      exact absurd htext (readText_ne_oversized pos [])
  · split
    · next word value hfind => exact isWritable_of_mem_words (List.mem_of_find?_eq_some hfind)
    · cases hnumber : readNumber? maxDigits s with
      | none => trivial
      | some found => exact isSound_of_readNumber hnumber

/-- Each token is read where a rest of the text begins. -/
theorem isSound_of_mem_tokens (h : placed ∈ tokens maxDigits pos s) : placed.token.IsSound s := by
  fun_induction tokens maxDigits pos s with
  | case1 => cases h
  | case2 pos c rest hspace ih => exact (ih h).of_isInfix (List.suffix_cons c rest).isInfix
  | case3 pos c rest hspace token length hread ih =>
    rcases List.mem_cons.1 h with rfl | h
    · have htoken := isSound_readToken pos (c :: rest)
      rwa [hread] at htoken
    · have hrest : rest.drop (length - 1) <:+ c :: rest :=
        (List.drop_suffix _ _).trans (List.suffix_cons c rest)
      exact (ih h).of_isInfix hrest.isInfix

/-! ## The grammar -/

def Frame.IsWritable : Frame → Prop
  | .array items => ∀ value ∈ items, Json.IsWritable value
  | .object members _ => ∀ m ∈ members, Json.IsWritable m.2

def State.IsWritable : State → Prop
  | atValue frames | atFirstItem frames => ∀ frame ∈ frames, frame.IsWritable
  | atName frames members _ | atColon frames members _ | atMemberEnd frames members =>
    (∀ frame ∈ frames, frame.IsWritable) ∧ ∀ m ∈ members, Json.IsWritable m.2
  | atItemEnd frames items =>
    (∀ frame ∈ frames, frame.IsWritable) ∧ ∀ value ∈ items, Json.IsWritable value
  | complete value => Json.IsWritable value

theorem State.isWritable_deliver (hv : Json.IsWritable value)
    (hf : ∀ frame ∈ frames, frame.IsWritable) : (deliver value frames).IsWritable := by
  cases frames with
  | nil => exact hv
  | cons frame frames =>
    rw [List.forall_mem_cons] at hf
    cases frame with
    | array items => exact ⟨hf.2, List.forall_mem_cons.2 ⟨hv, hf.1⟩⟩
    | object members name => exact ⟨hf.2, forall_mem_put hf.1 hv⟩

theorem State.isWritable_of_beginValue {offset : Nat} (hf : ∀ frame ∈ frames, frame.IsWritable)
    (ht : token.IsSound s) (h : beginValue frames offset token = .ok state) :
    state.IsWritable := by
  unfold beginValue at h
  split at h
  · cases h
    exact hf
  · cases h
    exact ⟨hf, nofun⟩
  · cases h
    exact isWritable_deliver (.text _) hf
  · cases h
    exact isWritable_deliver ht hf
  · cases h
  · cases h
  · cases h

theorem State.isWritable_of_step (hstate : state.IsWritable) (ht : placed.token.IsSound s)
    (h : step state placed = .ok state') : state'.IsWritable := by
  unfold step at h
  split at h
  · cases h
    exact isWritable_deliver (.array nofun) hstate
  · refine isWritable_of_beginValue ?_ ht h
    exact List.forall_mem_cons.2 ⟨nofun, hstate⟩
  · exact isWritable_of_beginValue hstate ht h
  · cases h
    exact isWritable_deliver (.object hstate.2) hstate.1
  · cases h
    exact hstate
  · cases h
  · cases h
    exact List.forall_mem_cons.2 ⟨hstate.2, hstate.1⟩
  · cases h
    exact isWritable_deliver (.array fun value hm => hstate.2 value (List.mem_reverse.1 hm))
      hstate.1
  · cases h
    exact List.forall_mem_cons.2 ⟨hstate.2, hstate.1⟩
  · cases h
    exact isWritable_deliver (.object hstate.2) hstate.1
  · cases h
    exact hstate
  · cases h

theorem State.hasDigits_of_beginValue {offset : Nat} (ht : token.IsSound s)
    (h : beginValue frames offset token = .error (.oversized n)) : HasDigits s n := by
  unfold beginValue at h
  split at h
  · cases h
  · cases h
  · cases h
  · cases h
  · exact ht n (Except.error.inj h)
  · exact ht n (Except.error.inj h)
  · cases h

/-- A step is refused for the number of digits only by a token that is. -/
theorem State.hasDigits_of_step (ht : placed.token.IsSound s)
    (h : step state placed = .error (.oversized n)) : HasDigits s n := by
  unfold step at h
  split at h
  · cases h
  · exact hasDigits_of_beginValue ht h
  · exact hasDigits_of_beginValue ht h
  · cases h
  · cases h
  · next fault htoken =>
    rw [htoken] at ht
    exact ht n (Except.error.inj h)
  · cases h
  · cases h
  · cases h
  · cases h
  · cases h
  · cases h

/-- What the steps of tokens keep, and why one of them is refused for the number of digits. -/
theorem isWritable_of_foldlM {placeds : List Placed} (ht : ∀ p ∈ placeds, p.token.IsSound s)
    (hstate : state.IsWritable) :
    (∀ state', placeds.foldlM State.step state = .ok state' → state'.IsWritable) ∧
      ∀ n, placeds.foldlM State.step state = .error (.oversized n) → HasDigits s n := by
  induction placeds generalizing state with
  | nil =>
    refine ⟨fun state' h => ?_, fun n h => ?_⟩
    · cases h
      exact hstate
    · cases h
  | cons p rest ih =>
    rw [List.forall_mem_cons] at ht
    rw [List.foldlM_cons]
    cases hstep : state.step p with
    | error fault =>
      refine ⟨nofun, fun n h => State.hasDigits_of_step ht.1 (hstep.trans ?_)⟩
      exact congrArg Except.error (Except.error.inj h)
    | ok next => exact ih ht.2 (State.isWritable_of_step hstate ht.1 hstep)

/-! ## The text -/

theorem isSound_of_ofTokens (text : List Char) :
    (∀ value, ofTokens text.length (tokens maxDigits 0 text) = .ok value → IsWritable value) ∧
      ∀ n, ofTokens text.length (tokens maxDigits 0 text) = .error (.oversized n) →
        HasDigits text n := by
  have hstart : (State.atValue []).IsWritable := by simp [State.IsWritable]
  obtain ⟨hvalue, hfault⟩ :=
    isWritable_of_foldlM (fun p (hp : p ∈ tokens maxDigits 0 text) => isSound_of_mem_tokens hp)
      hstart
  unfold ofTokens
  cases hrun : (tokens maxDigits 0 text).foldlM State.step (.atValue []) with
  | error fault => exact ⟨nofun, fun n h => hfault n (hrun.trans (congrArg _ (Except.error.inj h)))⟩
  | ok state =>
    have hstate := hvalue state hrun
    cases state with
    | complete value =>
      refine ⟨fun value' h => ?_, nofun⟩
      cases h
      exact hstate
    | _ => exact ⟨nofun, nofun⟩

/-- Every integer that is read can be written. -/
theorem isWritable_of_read {text : List Char} (h : read text = .ok value) : IsWritable value := by
  unfold read readWithin at h
  simp only at h
  split at h
  · cases h
  · cases hvalue : ofTokens text.length (tokens maxDigits 0 text) with
    | error fault =>
      rw [hvalue] at h
      cases h
    | ok value' =>
      rw [hvalue] at h
      cases h
      exact (isSound_of_ofTokens text).1 value hvalue

/-- An integer is refused only if the text has a run of that many digits. -/
theorem hasDigits_of_read {text : List Char} (h : read text = .error (.oversized n)) :
    HasDigits text n := by
  unfold read readWithin at h
  simp only at h
  split at h
  · cases h
  · cases hvalue : ofTokens text.length (tokens maxDigits 0 text) with
    | ok value =>
      rw [hvalue] at h
      cases h
    | error fault =>
      rw [hvalue] at h
      cases fault with
      | flaw kind offset => cases h
      | oversized digits =>
        cases h
        exact (isSound_of_ofTokens text).2 n hvalue

end Recenter.Json
