import Recenter.Banner.Section
import Recenter.Run.Log

/-! What a run reads and changes: the files, what is printed, which files are announced as
changed, and the events that are logged. What has happened before a failure stays.

A step fails because of what it finds: a path that cannot be used, octets or characters that an
encoding lacks. What it has begun to write or to print it carries out. A disk that is full in the
middle of a file and an output that is closed or refuses a character are not modelled. -/

namespace Recenter.Run

open Recenter.Files Recenter.Text

structure World where
  files : FileTree
  stdout : String := ""
  announced : List Path := []
  events : List Event := []

abbrev Action := ExceptT Failure (StateM World)

namespace Action

def fail {α : Type} (f : Failure) : Action α := throw f

def print (text : String) : Action Unit :=
  modify fun w => { w with stdout := w.stdout ++ text }

def log (c : Context) (level : Level) (component action : String)
    (fields : List (String × Json)) : Action Unit :=
  if c.logs level then
    modify fun w => { w with events := w.events ++ [⟨level, component, action, fields⟩] }
  else pure ()

/-- What is printed when a file is announced, or nothing if no file is. -/
abbrev Reporter := Option (Path → String)

def announce (reporter : Reporter) (path : Path) : Action Unit :=
  match reporter with
  | none => pure ()
  | some text =>
    modify fun w =>
      { w with announced := w.announced ++ [path], stdout := w.stdout ++ text path }

def readOctets (path : Path) : Action (List UInt8) := do
  match (← get).files.read path with
  | .ok octets => return octets
  | .error e => fail (.access e path)

def writeOctets (path : Path) (octets : List UInt8) : Action Unit := do
  match (← get).files.write path octets with
  | .ok files => modify fun w => { w with files := files }
  | .error e => fail (.access e path)

/-- The encoding of a name, once its file is open. A name that holds NUL is refused before that. -/
def openWith {α : Type} (name : String) (openFile : Action α) : Action (α × Codec.Encoding) := do
  match Codec.Encoding.ofFileName name with
  | .error .nul => fail (.encodingName .nul)
  | .ok encoding => return (← openFile, encoding)
  | .error e =>
    let _ ← openFile
    fail (.encodingName e)

def readLines (path : Path) (encoding : String) : Action (List Line) := do
  let (octets, encoding) ← openWith encoding (readOctets path)
  match encoding.decode octets with
  | .ok text => return splitLines text
  | .error e => fail (.decoding e)

def writeLines (path : Path) (lines : List Line) (encoding : String) : Action Unit := do
  -- The file is emptied before it is known whether the encoding has all characters of the lines.
  let (_, encoding) ← openWith encoding (writeOctets path [])
  match encoding.encode (joinLines lines) with
  | .ok octets => writeOctets path octets
  | .error e => fail (.encoding e)

/-- Applies a pass to the lines of a file. A file that the pass leaves as it is is not written. -/
def reviseFile (path : Path) (encoding : String) (pass : List Line → Banner.Revision) :
    Action Bool := do
  let result := pass (← readLines path encoding)
  if result.changed then writeLines path result.lines encoding
  return result.changed

end Action

end Recenter.Run
