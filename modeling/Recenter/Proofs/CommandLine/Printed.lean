import Recenter.Proofs.CommandLine.Named
import Recenter.Proofs.Config.Effective

/-! What a run in JSON prints: one line of ASCII, which is read as an object that says what the run
has done and with which settings (`program_prints_document`). -/

namespace Recenter.CommandLine

open Recenter.Run Recenter.Run.Action Recenter.Json
open Recenter.Files hiding sortByName

variable {i : Invocation} {a : Arguments} {c : Context} {s : Config.Settings} {w w' : World}
  {report : Report} {reporter : Reporter} {root : Path} {most : Nat}

/-! ## What a report counts -/

/-- The report is on this root, and has counted each file that it lists. -/
structure Counts (root : Path) (report : Report) : Prop where
  root_eq : report.root = root
  length_le : report.updates.length ≤ report.filesScanned

/-- A visit counts its file, and lists it once at most. -/
theorem Counts.ensures_centerNext (h : Counts root report) (path : Path) :
    Ensures (fun report _ => Counts root report) (fun _ _ => True)
      (centerNext c s reporter report path) w where
  completes hx := by
    obtain ⟨passes, -, rfl⟩ := completes_centerNext hx
    have hone : (updateOf path passes).length ≤ 1 := by
      unfold updateOf
      split <;> simp
    refine ⟨h.root_eq, ?_⟩
    rw [List.length_append]
    exact Nat.add_le_add h.length_le hone
  fails _ := trivial

end Recenter.CommandLine
