import Recenter.Codec.Encoding
import Recenter.Config.Schema
import Recenter.Config.Settings
import Recenter.Files.Tree
import Recenter.Json.Reader
import Recenter.Yaml.Document

/-! Settings from a configuration file. A file whose name ends in `.json` holds JSON, every other
one YAML; it is read as UTF-8, checked against the schema, and its encoding has to have a known
name. -/

namespace Recenter.Config

open Recenter.Files

/-- Why a file gives no settings. Some faults of a single value are none that the form of a
configuration foresees. -/
inductive LoadError
  | access (path : Path) (e : AccessError)
  | notFound (path : Path)
  | undecodable (path : Path) (e : Codec.DecodeError)
  | badJson (path : Path) (kind : Json.Flaw) (line column offset : Nat)
  | oversizedInteger (digits : Nat)
  | badYaml (path : Path) (fault : Yaml.Fault)
  | invalid (path : Path) (violations : List Violation)
  | untoldViolation
  | unknownEncoding (path : Path)
  | nulInEncoding

namespace LoadError

def isConfigError : LoadError → Bool
  | access .. | oversizedInteger _ | badYaml _ (.value _) | untoldViolation | nulInEncoding => false
  | _ => true

/-- What is said of a fault in the form of a YAML file is not modelled; `<yaml>` stands for it. -/
def message : LoadError → String
  | access path e => e.message path
  | notFound path => "config file not found: " ++ path.toString
  | undecodable path e => "failed to parse config " ++ path.toString ++ ": " ++ e.message
  | badJson path kind line column offset =>
    "failed to parse config " ++ path.toString ++ ": " ++
      (Json.ReadError.flaw kind line column offset).message
  | oversizedInteger digits => Number.oversizedMessage digits
  | badYaml _ (.value fault) => fault.message
  | badYaml path _ => "failed to parse config " ++ path.toString ++ ": <yaml>"
  | invalid path violations =>
    "invalid config " ++ path.toString ++ ": " ++
      "; ".intercalate (violations.map Violation.message)
  | untoldViolation => Number.unwritableMessage
  | unknownEncoding path => "invalid config " ++ path.toString ++ ": unknown encoding"
  | nulInEncoding => Codec.NameError.nul.message

end LoadError

def isJsonPath (path : Path) : Bool :=
  path.suffix.map Char.toLower == ".json".toList

def parse (path : Path) (text : List Char) : Except LoadError Document :=
  if isJsonPath path then
    match Json.read text with
    | .ok json => .ok (.ofJson json)
    | .error (.flaw kind line column offset) => .error (.badJson path kind line column offset)
    | .error (.oversized digits) => .error (.oversizedInteger digits)
  else
    match Yaml.read text with
    | .ok document => .ok document
    | .error fault => .error (.badYaml path fault)

/-- A document in which nothing is written counts as an empty table. -/
def orEmpty (d : Document) : Document :=
  match d.root with
  | .null => { d with root := .table [] }
  | _ => d

def ofDocument (path : Path) (d : Document) : Except LoadError Settings :=
  let d := orEmpty d
  let found := violations d
  if found.any Violation.isUntold then .error .untoldViolation
  else if !found.isEmpty then .error (.invalid path found)
  else
    let settings := Settings.ofDocument d (some path.toString)
    match Codec.Encoding.ofName settings.encoding with
    | .ok _ => .ok settings
    | .error .nul => .error .nulInEncoding
    | .error (.unknown _) => .error (.unknownEncoding path)

def ofOctets (path : Path) (octets : List UInt8) : Except LoadError Settings :=
  match Codec.Utf8.decode octets with
  | .error e => .error (.undecodable path e)
  | .ok text => do ofDocument path (← parse path (Text.unifyEol text))

/-- Settings from a file, or the standard ones if no file is given. -/
def load (files : FileTree) (path : Option Path) : Except LoadError Settings :=
  match path with
  | none => .ok {}
  | some path =>
    match files.file? path with
    | .ok (some octets) => ofOctets path octets
    | .ok none => .error (.notFound path)
    | .error e => .error (.access path e)

end Recenter.Config
