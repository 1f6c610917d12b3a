import Recenter.CommandLine.Program
import Std.Time.DateTime.Timestamp

/-! The command line. The configuration file and the source files below the root are read before
the run, and what the run has changed is written after it. -/

namespace Recenter.Main

open Recenter.Files Recenter.Run Recenter.CommandLine

def absolute (names : List String) : String := "/" ++ "/".intercalate names

/-- Puts empty directories where names lead through, as far as there are none. -/
def withDirs (top : Entry) (here : List String) : List String → Entry
  | [] => top
  | name :: rest =>
    let here := here ++ [name]
    withDirs (if (top.find? here).isSome then top else Entry.replace (.dir []) here top) here rest

/-- What a name in a directory stands for, without following a link. -/
def kind? (dir : List String) (name : String) : IO (Option IO.FS.FileType) := do
  let path := (← IO.FS.realPath (absolute dir)).join name
  return (← path.symlinkMetadata.toBaseIO).toOption.map (·.type)

def readFile (names : List String) : IO Entry :=
  return .file (← IO.FS.readBinFile (absolute names)).toList

/-- Adds what names lead through from a directory on, and the file in their end. Gives the real
place of a directory in their end. The target of a link is given by its real place. -/
partial def addAlong (top : Entry) (here : List String) :
    List String → IO (Entry × Option (List String))
  | [] => return (top, some here)
  | ".." :: rest => addAlong top here.dropLast rest
  | name :: rest => do
    let names := here ++ [name]
    match ← kind? here name with
    | some .dir => addAlong (withDirs top here [name]) names rest
    | some .file => return (Entry.replace (← readFile names) names top, none)
    | some .symlink =>
      match ← (IO.FS.realPath (absolute names)).toBaseIO with
      | .error _ => return (top, none)
      | .ok target =>
        let real := (Path.ofString target.toString).names
        let dir := real.dropLast
        let top := Entry.replace (.link target.toString) names (withDirs top [] dir)
        addAlong top dir (real.drop dir.length ++ rest)
    | _ => return (top, none)

def addPath (t : FileTree) (p : Path) : IO (FileTree × Option (List String)) := do
  let (top, place) ← addAlong t.top (if p.slashes = 0 then t.current else []) p.names
  return ({ t with top := top }, place)

/-- Adds the selected files below a directory to what is already known of it. -/
partial def addBelow (selection : Selection) (dir : List String) (known : Entry) : IO Entry := do
  let names := (← (← IO.FS.realPath (absolute dir)).readDir).toList.map (·.fileName)
  let mut entries := (match known with | .dir entries => entries | _ => [])
  for name in names do
    match ← kind? dir name with
    | some .dir =>
      if selection.entersDir name then
        let inner := (entries.lookup name).getD (.dir [])
        entries := Entry.put name (← addBelow selection (dir ++ [name]) inner) entries
    | some .file =>
      if selection.takesFile name then
        entries := Entry.put name (← readFile (dir ++ [name])) entries
    | _ => pure ()
  return .dir entries

def snapshot (arguments : List String) (vars : Variables) (current : List String) :
    IO FileTree := do
  let bare : FileTree := ⟨withDirs (.dir []) [] current, current⟩
  match Request.ofArguments arguments with
  | .ok (.run a) =>
    let (files, _) ←
      match configPath a vars with
      | some path => addPath bare path
      | none => pure (bare, none)
    let (files, place) ← addPath files (options a files).root
    match place, settings a vars files with
    | some dir, .ok s =>
      let known := (files.top.find? dir).getD (.dir [])
      return { files with
        top := Entry.replace (← addBelow (selection s) dir known) dir files.top }
    | _, _ => return files
  | _ => return bare

partial def writeChanges (before : Entry) (names : List String) : Entry → IO Unit
  | .file octets => do
    let changed :=
      match before.find? names with
      | some (.file old) => old != octets
      | _ => true
    if changed then IO.FS.writeBinFile (absolute names) ⟨octets.toArray⟩
  | .link _ => pure ()
  | .dir entries => entries.forM fun (name, e) => writeChanges before (names ++ [name]) e

def readVariables : IO Variables :=
  ["BANNERCTL_CONFIG", "RUN_ID"].filterMapM fun name => do
    return (← IO.getEnv name).map fun value => (name, value)

end Recenter.Main

open Recenter Recenter.Main in
/-- Runs the program. A failure that it does not report itself ends it with exit code one. -/
def main (arguments : List String) : IO UInt32 := do
  let current := (Files.Path.ofString (← IO.currentDir).toString).names
  let vars ← readVariables
  let seconds := (← Std.Time.Timestamp.now).toSecondsSinceUnixEpoch.val.toNat
  let files ← snapshot arguments vars current
  let outcome := CommandLine.program ⟨arguments, vars, files, Calendar.Moment.ofSeconds seconds⟩
  writeChanges files.top [] outcome.files.top
  IO.print outcome.stdout
  IO.eprint outcome.stderr
  match outcome.exit with
  | .ok code => return code.toUInt32
  | .error failure =>
    IO.eprintln (CommandLine.programName ++ ": " ++ failure.message)
    return 1
