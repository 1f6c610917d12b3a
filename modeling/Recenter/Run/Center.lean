import Recenter.Files.Walk
import Recenter.Run.World

/-! Centering the banners of one file, and of all source files below a directory. The directory is
listed while files in it are changed: each directory when the walk comes to it, and each entry is
looked at when its turn comes. -/

namespace Recenter.Run

open Recenter.Files Recenter.Banner Recenter.Config

inductive Pass
  | regions
  | sections
deriving DecidableEq, Repr

def Pass.name : Pass → String
  | regions => "region"
  | sections => "section"

structure Update where
  path : Path
  passes : List Pass
deriving DecidableEq, Repr

structure Report where
  root : Path
  filesScanned : Nat := 0
  updates : List Update := []
deriving DecidableEq, Repr

/-- What a report says, as the members of an object: each updated file stands with the names of its
passes. -/
def summary (runId : String) (root : Path) (filesScanned : Int)
    (updated : List (Path × List String)) : List (String × Json) := [
  ("schema_name", .text "bannerctl.center.v1"),
  ("schema_version", .int 1),
  ("tool", .text "bannerctl"),
  ("status", .text "ok"),
  ("run_id", .text runId),
  ("root", .text root.toString),
  ("files_scanned", .int filesScanned),
  ("files_updated", .int updated.length),
  ("updated", .array (updated.map fun (path, passes) =>
    .object [("path", .text path.toString), ("passes", .array (passes.map .text))]))]

def Report.members (r : Report) (runId : String) : List (String × Json) :=
  summary runId r.root r.filesScanned (r.updates.map fun u => (u.path, u.passes.map Pass.name))

namespace Action

def regionPass (path : Path) (borders : Region.Borders) (encoding : String) : Action Bool :=
  reviseFile path encoding (Region.centerLines borders)

/-- An empty token is refused before the file is read. -/
def sectionPass (path : Path) (token : List Char) (encoding : String) : Action Bool :=
  match Section.Token.ofList? token with
  | none => fail .emptyToken
  | some token => reviseFile path encoding (Section.centerLines token)

/-- The region pass and then the section pass on one file; each that changes it is announced. -/
def centerFile (path : Path) (settings : Settings) (reporter : Reporter) : Action (List Pass) := do
  let regions ← regionPass path settings.borders settings.encoding
  if regions then announce reporter path
  let sections ← sectionPass path settings.lineComment.toList settings.encoding
  if sections then announce reporter path
  return (if regions then [.regions] else []) ++ (if sections then [.sections] else [])

end Action

mutual

/-- How many directories stand inside of each other. -/
def depth : Entry → Nat
  | .dir entries => depthOfAll entries + 1
  | _ => 0

def depthOfAll : List (String × Entry) → Nat
  | [] => 0
  | (_, e) :: rest => max (depth e) (depthOfAll rest)

end

namespace Action

def listing (dir : Path) : Action (List String) := do
  match (← get).files.entries dir with
  | .ok entries => return (entries.map Prod.fst).mergeSort fun a b => decide (a ≤ b)
  | .error e => fail (.access e dir)

/-- The entry of a name in a directory, as it is now. It is looked at by its path. -/
def look (dir : Path) (name : String) : Action (Option Entry) := do
  let path := dir.child name
  if maxPathSize < path.toString.utf8ByteSize then fail (.access .nameTooLong path)
  else
    match (← get).files.entries dir with
    | .ok entries => return entries.lookup name
    | .error _ => return none

/-- Takes the source files below `dir` one after the other, in the tree as it is at each turn. Every
entry is looked at by its path when the walk comes to it, wanted or not, and one whose path is too
long ends the run. Directories deeper than the fuel are not entered. -/
def walk {σ : Type} (selection : Selection) (visit : σ → Path → Action σ) :
    Nat → σ → Path → Action σ
  | 0, acc, _ => return acc
  | fuel + 1, acc, dir => do
    let step (acc : σ) (name : String) : Action σ := do
      match ← look dir name with
      | some (.dir _) =>
        if selection.entersDir name then walk selection visit fuel acc (dir.child name)
        else return acc
      | some (.file _) =>
        if selection.takesFile name then visit acc (dir.child name) else return acc
      | _ => return acc
    (← listing dir).foldlM step acc

/-- Takes the source files below a directory. Writing files opens no new depth, so that the
present one suffices. -/
def forSourceFiles {σ : Type} (selection : Selection) (visit : σ → Path → Action σ) (acc : σ)
    (root : Path) : Action σ := do
  walk selection visit (depth (← get).files.top + 1) acc root

end Action

def selection (settings : Settings) : Selection :=
  ⟨settings.extensions, settings.excludeDirs⟩

namespace Action

def centerNext (c : Context) (settings : Settings) (reporter : Reporter) (report : Report)
    (path : Path) : Action Report := do
  log c .debug "center" "scan" [("path", .text path.toString)]
  let passes ← centerFile path settings reporter
  let report := { report with filesScanned := report.filesScanned + 1 }
  if passes.isEmpty then return report
  else
    log c .info "center" "file_updated" [
      ("path", .text path.toString),
      ("passes", .text (",".intercalate (passes.map Pass.name)))]
    return { report with updates := report.updates ++ [⟨path, passes⟩] }

def centerTree (c : Context) (settings : Settings) (reporter : Reporter) : Action Report :=
  forSourceFiles (selection settings) (centerNext c settings reporter) { root := c.root } c.root

def updatedLine (path : Path) : String := "Updated: " ++ path.toString ++ "\n"

/-- A whole run. Where the output is one JSON document, no file is announced. -/
def runCenter (c : Context) (settings : Settings) : Action Report := do
  log c .info "center" "start" [
    ("root", .text c.root.toString),
    ("extensions", .text (",".intercalate settings.extensions)),
    ("config", .text ((nonempty settings.source).getD "defaults"))]
  let report ← centerTree c settings (if c.asJson then none else some updatedLine)
  log c .info "center" "finish" [
    ("files_scanned", .int report.filesScanned),
    ("files_updated", .int report.updates.length)]
  return report

end Action

end Recenter.Run
