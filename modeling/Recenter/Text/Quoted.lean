import Recenter.Text.Hex
import Recenter.Text.Printable

/-! Quoted text, as messages show it: between quotes, on one line, with an escape for what is not
printable. Single quotes stand around a text unless it holds a single quote and no double one. -/

namespace Recenter.Text

def quotedChar (quote c : Char) : List Char :=
  if c == quote || c == '\\' then ['\\', c]
  else if c == '\n' then ['\\', 'n']
  else if c == '\r' then ['\\', 'r']
  else if c == '\t' then ['\\', 't']
  else if isPrintable c then [c]
  else escapeCode c.toNat

def quoteFor (text : List Char) : Char :=
  if text.contains '\'' && !text.contains '"' then '"' else '\''

def quoted (text : List Char) : List Char :=
  let quote := quoteFor text
  quote :: text.flatMap (quotedChar quote) ++ [quote]

/-- One octet between quotes: ASCII as itself, the rest by number. -/
def quotedOctet (quote : Char) (b : UInt8) : List Char :=
  let c := Char.ofNat b.toNat
  if b < 0x7F then quotedChar quote c else escapeCode b.toNat

/-- Octets between quotes, after a letter that tells them from text. -/
def quotedOctets (octets : List UInt8) : List Char :=
  let quote := quoteFor (octets.map fun b => Char.ofNat b.toNat)
  'b' :: quote :: octets.flatMap (quotedOctet quote) ++ [quote]

end Recenter.Text
