import Recenter.Config.Load

/-! Why a run ends early. Two kinds of failure are reported in the program's own words and with an
exit code; every other one ends the run where it arises. -/

namespace Recenter.Run

open Recenter.Files

inductive Failure
  | invalidRoot (root : Path)
  | config (e : Config.LoadError)
  | access (e : AccessError) (path : Path)
  | decoding (e : Codec.DecodeError)
  | encoding (e : Codec.EncodeError)
  | encodingName (e : Codec.NameError)
  | emptyToken
  | unknownLevel (name : String)
  | reservedField (name : String)
  /-- An ending that was given without a text. -/
  | missingEnding (index : Nat)
  | missingName

namespace Failure

def message : Failure → String
  | invalidRoot root => "root is not a directory: " ++ root.toString
  | config e => e.message
  | access e path => e.message path
  | decoding e => e.message
  | encoding e => e.message
  | encodingName e => e.message
  | emptyToken => "line comment token must not be empty"
  | unknownLevel name => "unknown log level: " ++ name
  | reservedField name =>
    "log_event() got multiple values for argument '" ++ name ++ "'"
  | missingEnding index =>
    "sequence item " ++ toString index ++ ": expected str instance, list found"
  | missingName => "unhashable type: 'list'"

/-- The exit code and the kind of a failure that is reported. -/
def report? : Failure → Option (Nat × String)
  | invalidRoot _ => some (2, "invalid_root")
  | config e => if e.isConfigError then some (3, "config_error") else none
  | _ => none

end Failure

def renderError (asJson : Bool) (message : String) (code : Int) (kind : String) : String :=
  if asJson then
    Json.write .compact <| .object [
      ("schema_name", .text "bannerctl.error.v1"),
      ("schema_version", .int 1),
      ("tool", .text "bannerctl"),
      ("status", .text "error"),
      ("errors", .array [.object [("code", .int code), ("kind", .text kind),
        ("message", .text message)]])]
  else "bannerctl: " ++ message

end Recenter.Run
