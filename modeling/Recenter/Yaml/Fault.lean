import Recenter.Datum.Calendar
import Recenter.Number.Digits
import Recenter.Text.Quoted

/-! What can be wrong with a YAML text. Most faults are of its form; a fault of a value says that a
part has the form of a value that does not exist. -/

namespace Recenter.Yaml

open Recenter.Text

/-- A value that is promised by a tag, an escape or a directive, and that does not exist. -/
inductive ValueFault
  | calendar (fault : Calendar.Fault)
  | integer (text : List Char) (base : Nat)
  | oversized (digits : Nat)
  | float (text : List Char)
  | wideFloat
  | truth (text : List Char)
  | time
  | timeOfMapping
  | empty
  | codePoint
  | wideCodePoint
deriving DecidableEq, Repr

def maxShown : Nat := 200

def ValueFault.message : ValueFault → String
  | calendar fault => fault.message
  | integer text base =>
    "invalid literal for int() with base " ++ toString base ++ ": " ++
      String.ofList ((quoted text).take maxShown)
  | oversized digits => Number.oversizedMessage digits
  | float text => "could not convert string to float: " ++ String.ofList (quoted text)
  | wideFloat => "int too large to convert to float"
  | truth text => String.ofList (quoted text)
  | time => "'NoneType' object has no attribute 'groupdict'"
  | timeOfMapping => "expected string or bytes-like object, got 'list'"
  | empty => "string index out of range"
  | codePoint => "chr() arg not in range(0x110000)"
  | wideCodePoint => "Python int too large to convert to C int"

/-- Why a text is no YAML document of plain data. -/
inductive Fault
  | unprintable
  | misplaced
  | unterminated
  | badEscape
  | badIndicator
  | badDirective
  | badName
  | badTag
  | unexpectedToken
  | severalDocuments
  | undefinedAlias
  | repeatedAnchor
  | unknownTag
  | wrongShape
  | badKey
  | value (fault : ValueFault)
deriving DecidableEq, Repr

end Recenter.Yaml
