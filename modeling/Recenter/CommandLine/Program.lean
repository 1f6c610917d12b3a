import Recenter.CommandLine.Arguments
import Recenter.CommandLine.Usage
import Recenter.Run.Center

/-! The whole program, as a function of its arguments, its environment, the file system and the
time. Its root is checked first, then the configuration is loaded, and only then is a file looked
at. -/

namespace Recenter.CommandLine

open Recenter.Files Recenter.Run

structure Invocation where
  arguments : List String
  environment : Variables
  files : FileTree
  now : Calendar.Moment

/-- What is left when the program ends: its exit code or the failure that ended it, what it has
written to either output, and the files. -/
structure Outcome where
  exit : Except Failure Nat
  stdout : String
  stderr : String
  files : FileTree

def currentDir (files : FileTree) : Path := ⟨1, files.current⟩

def options (a : Arguments) (files : FileTree) : Options where
  root := (a.root.map Path.ofString).getD (currentDir files)
  runId := a.runId
  outputFormat := outputFormat a.json a.format
  verbose := a.verbose
  quiet := a.quiet
  logJson := a.logJson

/-- The texts of a list, or the number of the first that is missing. -/
def given (values : List (Option String)) : Except Nat (List String) :=
  match values.findIdx? Option.isNone with
  | some index => .error index
  | none => .ok (values.filterMap id)

/-- The configuration file: the one that is given, or else that of the environment. -/
def configPath (a : Arguments) (vars : Variables) : Option Path :=
  ((nonempty a.config).or vars.configPath).map Path.ofString

def settings (a : Arguments) (vars : Variables) (files : FileTree) :
    Except Failure Config.Settings := do
  let loaded ←
    match Config.load files (configPath a vars) with
    | .ok loaded => .ok loaded
    | .error e => .error (.config e)
  let excluded ←
    match given a.excluded with
    | .ok names => .ok names
    | .error _ => .error .missingName
  match given a.endings with
  | .ok endings => .ok (loaded.override endings excluded)
  | .error index => .error (.missingEnding index)

def document (report : Report) (c : Context) (s : Config.Settings) : Json :=
  .object (report.members c.runId ++ [("config", s.toJson)])

/-- A run, and the document in the end if the output is to be one. -/
def centerAndPrint (c : Context) (s : Config.Settings) : Action Unit := do
  let report ← Action.runCenter c s
  if c.asJson then Action.print (Json.write .compact (document report c s) ++ "\n")

/-- The end of a run that failed before it logged or printed anything. -/
def rejected (asJson : Bool) (files : FileTree) (f : Failure) : Outcome :=
  match f.report? with
  | some (code, kind) => ⟨.ok code, "", renderError asJson f.message code kind ++ "\n", files⟩
  | none => ⟨.error f, "", "", files⟩

def perform (i : Invocation) (a : Arguments) : Outcome :=
  let options := options a i.files
  let asJson := options.outputFormat == "json"
  match options.context i.files i.environment i.now with
  | .error f => rejected asJson i.files f
  | .ok c =>
    match settings a i.environment i.files with
    | .error f => rejected asJson i.files f
    | .ok s =>
      let (result, world) := (centerAndPrint c s).run { files := i.files }
      let events := String.join (world.events.map (Event.line c))
      match result with
      | .ok () => ⟨.ok 0, world.stdout, events, world.files⟩
      | .error f =>
        match f.report? with
        | some (code, kind) =>
          ⟨.ok code, world.stdout, events ++ renderError asJson f.message code kind ++ "\n",
            world.files⟩
        | none => ⟨.error f, world.stdout, events, world.files⟩

def program (i : Invocation) : Outcome :=
  match Request.ofArguments i.arguments with
  | .error e =>
    ⟨.ok 2, "", usageText ++ programName ++ ": error: " ++ e.message ++ "\n", i.files⟩
  | .ok .help => ⟨.ok 0, helpText, "", i.files⟩
  | .ok .version => ⟨.ok 0, versionText, "", i.files⟩
  | .ok (.run a) => perform i a

end Recenter.CommandLine
