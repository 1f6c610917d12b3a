import Recenter.Codec.Octet
import Recenter.Codec.Utf8
import Recenter.Codec.Wide

/-! The encodings, their names, and reading and writing text in them. A name is matched without
regard to case and to how its words are joined.

Which encodings there are is a choice: ASCII and two that extend it by one octet a character, and
the forms of Unicode. Systems have many more. Their names are refused here as unknown ones, so that
no settings can hold them, and nothing is said of texts in them. -/

namespace Recenter.Codec

/-- A way to write text as octets. `utf8Marked` begins with a byte-order mark; a wide encoding
without a byte order takes the order from its mark. -/
inductive Encoding
  | ascii
  | latin1
  | windows1252
  | utf8
  | utf8Marked
  | utf16 (order : Option ByteOrder)
  | utf32 (order : Option ByteOrder)
deriving DecidableEq, Repr

inductive NameError
  | nul
  | unknown (name : String)
deriving DecidableEq, Repr

def NameError.message : NameError → String
  | nul => "embedded null character"
  | unknown name => "unknown encoding: " ++ name

namespace Encoding

/-- A name's letters in lower case, its digits and its dots. Every run of other characters joins
two words by one underscore; at either end it counts for nothing. `pending` says that such a run
has just been passed. -/
def fold (pending : Bool) (started : Bool) : List Char → List Char
  | [] => []
  | c :: rest =>
    if c.isAlphanum || c == '.' then
      if pending && started then '_' :: c.toLower :: fold false true rest
      else c.toLower :: fold false true rest
    else fold true started rest

def ofProperName? : String → Option Encoding
  | "ascii" => some .ascii
  | "latin_1" => some .latin1
  | "cp1252" => some .windows1252
  | "utf_8" => some .utf8
  | "utf_8_sig" => some .utf8Marked
  | "utf_16" => some (.utf16 none)
  | "utf_16_le" => some (.utf16 (some .little))
  | "utf_16_be" => some (.utf16 (some .big))
  | "utf_32" => some (.utf32 none)
  | "utf_32_le" => some (.utf32 (some .little))
  | "utf_32_be" => some (.utf32 (some .big))
  | _ => none

def ofAlias? (name : String) : Option Encoding :=
  if name ∈ ["646", "ansi_x3.4_1968", "ansi_x3_4_1968", "ansi_x3.4_1986", "cp367", "csascii",
      "ibm367", "iso646_us", "iso_646.irv_1991", "iso_ir_6", "us", "us_ascii"] then some .ascii
  else if name ∈ ["8859", "cp819", "csisolatin1", "ibm819", "iso8859", "iso8859_1", "iso_8859_1",
      "iso_8859_1_1987", "iso_ir_100", "l1", "latin", "latin1"] then some .latin1
  else if name ∈ ["1252", "windows_1252"] then some .windows1252
  else if name ∈ ["u8", "utf", "utf8", "utf8_ucs2", "utf8_ucs4", "cp65001"] then some .utf8
  else if name ∈ ["u16", "utf16"] then some (.utf16 none)
  else if name ∈ ["unicodelittleunmarked", "utf_16le"] then some (.utf16 (some .little))
  else if name ∈ ["unicodebigunmarked", "utf_16be"] then some (.utf16 (some .big))
  else if name ∈ ["u32", "utf32"] then some (.utf32 none)
  else if name = "utf_32le" then some (.utf32 (some .little))
  else if name = "utf_32be" then some (.utf32 (some .big))
  else none

/-- The encoding of a name. A dot may join the words of a name too, save of a proper one. A name
of an encoding that is not among these is as unknown as that of none. -/
def ofName (name : String) : Except NameError Encoding :=
  if name.toList.contains '\x00' then .error .nul
  else
    let folded := fold false false name.toList
    let undotted := folded.map fun c => if c = '.' then '_' else c
    let found :=
      (ofAlias? (String.ofList folded)).or <|
      (ofAlias? (String.ofList undotted)).or <|
      ofProperName? (String.ofList folded)
    match found with
    | some encoding => .ok encoding
    | none => .error (.unknown name)

/-- The encoding that a file is opened with. One name stands for the encoding of the place where
files are, which is UTF-8. -/
def ofFileName (name : String) : Except NameError Encoding :=
  if name = "locale" then .ok .utf8 else ofName name

def decode (encoding : Encoding) (octets : List UInt8) : Except DecodeError (List Char) :=
  match encoding with
  | ascii => OctetCodec.ascii.decode octets
  | latin1 => OctetCodec.latin1.decode octets
  | windows1252 => OctetCodec.windows1252.decode octets
  | utf8 => Utf8.decode octets
  | utf8Marked => Utf8.decodeMarked octets
  | utf16 none => Utf16.decodeMarked octets
  | utf16 (some order) => Utf16.decodeFrom order 0 [] octets
  | utf32 none => Utf32.decodeMarked octets
  | utf32 (some order) => Utf32.decodeFrom order 0 [] octets

def encode (encoding : Encoding) (text : List Char) : Except EncodeError (List UInt8) :=
  match encoding with
  | ascii => OctetCodec.ascii.encode text
  | latin1 => OctetCodec.latin1.encode text
  | windows1252 => OctetCodec.windows1252.encode text
  | utf8 => .ok (Utf8.encode text)
  | utf8Marked => .ok (Utf8.encodeMarked text)
  | utf16 none => .ok (Utf16.mark .little ++ Utf16.encode .little text)
  | utf16 (some order) => .ok (Utf16.encode order text)
  | utf32 none => .ok (Utf32.mark .little ++ Utf32.encode .little text)
  | utf32 (some order) => .ok (Utf32.encode order text)

end Encoding

end Recenter.Codec
