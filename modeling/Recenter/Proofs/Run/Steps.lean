import Recenter.Proofs.Codec.RoundTrip
import Recenter.Proofs.Files.Access
import Recenter.Run.World

/-! Steps of a run that complete. What follows a step begins in the world that the step has left
(`completes_bind_iff`), and each step that reads or writes a file says what it has found and what it
has changed. -/

namespace Recenter.Run

open Recenter.Files Recenter.Text

namespace Action

variable {α β : Type} {x : Action α} {f : α → Action β} {w w' : World} {a : α} {b : β}

/-- The step returns a value and leaves this world behind. -/
def Completes (x : Action α) (w : World) (a : α) (w' : World) : Prop :=
  x.run.run w = (.ok a, w')

theorem Completes.of_run (h : (x.run.run w).1 = .ok a) : Completes x w a (x.run.run w).2 :=
  Prod.ext h rfl

theorem completes_pure_iff {a' : α} : Completes (pure a) w a' w' ↔ a' = a ∧ w' = w := by
  constructor
  · intro h
    cases h
    exact ⟨rfl, rfl⟩
  · intro hx
    obtain ⟨rfl, rfl⟩ := hx
    rfl

/-- What follows a step begins in the world that the step has left, unless the step has failed. -/
theorem run_bind (x : Action α) (f : α → Action β) (w : World) :
    (x >>= f).run.run w = match x.run.run w with
      | (.ok a, w₁) => (f a).run.run w₁
      | (.error e, w₁) => (.error e, w₁) := by
  simp only [ExceptT.run_bind, StateT.run_bind]
  rcases x.run.run w with ⟨_ | _, _⟩ <;> rfl

theorem completes_bind_iff :
    Completes (x >>= f) w b w' ↔ ∃ a w₁, Completes x w a w₁ ∧ Completes (f a) w₁ b w' := by
  unfold Completes
  rw [run_bind]
  rcases x.run.run w with ⟨e | a, w₁⟩
  · constructor
    · intro h
      cases h
    · intro hx
      obtain ⟨_, _, ⟨⟩, -⟩ := hx
  · constructor
    · intro h
      exact ⟨a, w₁, rfl, h⟩
    · intro hx
      obtain ⟨_, _, ⟨⟩, h⟩ := hx
      exact h

/-- A step that looks at the world as it is now. -/
theorem completes_get_bind_iff {g : World → Action α} :
    Completes (get >>= g) w a w' ↔ Completes (g w) w a w' := by
  rw [completes_bind_iff]
  constructor
  · intro hx
    obtain ⟨_, _, ⟨⟩, h⟩ := hx
    exact h
  · intro h
    exact ⟨w, w, rfl, h⟩

theorem completes_modify_iff {g : World → World} {u : Unit} :
    Completes (modify g) w u w' ↔ w' = g w := by
  constructor
  · intro h
    cases h
    rfl
  · intro hx
    subst hx
    rfl

theorem not_completes_fail {e : Failure} : ¬ Completes (fail e : Action α) w a w' := by
  intro h
  cases h

/-! ## One file -/

variable {path : Path} {octets : List UInt8} {name : String} {lines : List Line}
  {encoding : Codec.Encoding}

theorem completes_readOctets_iff :
    Completes (readOctets path) w octets w' ↔ w' = w ∧ w.files.read path = .ok octets := by
  unfold readOctets
  rw [completes_get_bind_iff]
  cases w.files.read path with
  | ok found => simp [completes_pure_iff, eq_comm, and_comm]
  | error e => simp [not_completes_fail]

theorem completes_writeOctets_iff {u : Unit} :
    Completes (writeOctets path octets) w u w' ↔
      ∃ files, w.files.write path octets = .ok files ∧ w' = { w with files := files } := by
  unfold writeOctets
  rw [completes_get_bind_iff]
  cases w.files.write path octets with
  | ok files => simp [completes_modify_iff]
  | error e => simp [not_completes_fail]

theorem completes_openWith_iff :
    Completes (openWith name x) w (a, encoding) w' ↔
      Codec.Encoding.ofFileName name = .ok encoding ∧ Completes x w a w' := by
  unfold openWith
  cases Codec.Encoding.ofFileName name with
  | error e =>
    cases e with
    | nul =>
      constructor
      · intro h
        exact absurd h not_completes_fail
      · intro hx
        obtain ⟨⟨⟩, -⟩ := hx
    | unknown name =>
      simp only [completes_bind_iff]
      constructor
      · intro hx
        obtain ⟨_, _, -, h⟩ := hx
        exact absurd h not_completes_fail
      · intro hx
        obtain ⟨⟨⟩, -⟩ := hx
  | ok found =>
    simp only [completes_bind_iff, completes_pure_iff, Prod.mk.injEq, Except.ok.injEq]
    constructor
    · intro hx
      obtain ⟨_, _, h, ⟨rfl, rfl⟩, rfl⟩ := hx
      exact ⟨rfl, h⟩
    · intro hx
      obtain ⟨rfl, h⟩ := hx
      exact ⟨a, w', h, ⟨rfl, rfl⟩, rfl⟩

/-- The lines of a file are those of the text that its octets stand for. -/
theorem completes_readLines_iff :
    Completes (readLines path name) w lines w' ↔
      w' = w ∧ ∃ encoding octets text, Codec.Encoding.ofFileName name = .ok encoding ∧
        w.files.read path = .ok octets ∧ encoding.decode octets = .ok text ∧
          lines = splitLines text := by
  unfold readLines
  simp only [completes_bind_iff, Prod.exists, completes_openWith_iff, completes_readOctets_iff]
  constructor
  · intro hx
    obtain ⟨octets, encoding, _, ⟨he, rfl, hr⟩, h⟩ := hx
    split at h
    · next text hd =>
      obtain ⟨rfl, rfl⟩ := completes_pure_iff.1 h
      exact ⟨rfl, encoding, octets, text, he, hr, hd, rfl⟩
    · exact absurd h not_completes_fail
  · intro hx
    obtain ⟨rfl, encoding, octets, text, he, hr, hd, rfl⟩ := hx
    refine ⟨octets, encoding, _, ⟨he, rfl, hr⟩, ?_⟩
    rw [hd]
    exact completes_pure_iff.2 ⟨rfl, rfl⟩

theorem completes_writeLines_iff {u : Unit} :
    Completes (writeLines path lines name) w u w' ↔
      ∃ encoding emptied octets files, Codec.Encoding.ofFileName name = .ok encoding ∧
        w.files.write path [] = .ok emptied ∧ encoding.encode (joinLines lines) = .ok octets ∧
          emptied.write path octets = .ok files ∧ w' = { w with files := files } := by
  unfold writeLines
  simp only [completes_bind_iff, Prod.exists, completes_openWith_iff, completes_writeOctets_iff]
  constructor
  · intro hx
    obtain ⟨_, encoding, _, ⟨he, emptied, hw, rfl⟩, h⟩ := hx
    split at h
    · next octets ho =>
      obtain ⟨files, hw', rfl⟩ := completes_writeOctets_iff.1 h
      exact ⟨encoding, emptied, octets, files, he, hw, ho, hw', rfl⟩
    · exact absurd h not_completes_fail
  · intro hx
    obtain ⟨encoding, emptied, octets, files, he, hw, ho, hw', rfl⟩ := hx
    refine ⟨(), encoding, _, ⟨he, emptied, hw, rfl⟩, ?_⟩
    rw [ho]
    exact completes_writeOctets_iff.2 ⟨files, hw', rfl⟩

end Action

end Recenter.Run
