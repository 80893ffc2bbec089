import DocFilter.Text.Hex
import DocFilter.Text.Printable

/-!
Quoted text and quoted bytes, as messages show them.

The quote is a single one unless the content holds single and no double quotes. The quote and the
backslash are escaped by a backslash; line feed, carriage return and tab have names; every other
character that is not printable is written by its code in two, four or eight hexadecimal digits.
-/

namespace DocFilter.Text

/-- The quote for a content, told by whether it holds single and double quotes. -/
def quoteMark (single double : Bool) : Char := if single && !double then '"' else '\x27'

def escapeCode (code : Nat) : List Char :=
  if code < 0x100 then '\\' :: 'x' :: hexDigits 2 code
  else if code < 0x10000 then '\\' :: 'u' :: hexDigits 4 code
  else '\\' :: 'U' :: hexDigits 8 code

def quoteChar (quote : Char) (c : Char) : List Char :=
  if c = quote ∨ c = '\\' then ['\\', c]
  else if c = '\n' then ['\\', 'n']
  else if c = '\r' then ['\\', 'r']
  else if c = '\t' then ['\\', 't']
  else if isPrintable c then [c]
  else escapeCode c.toNat

def quoted (s : String) : String :=
  let chars := s.toList
  let quote := quoteMark (chars.contains '\x27') (chars.contains '"')
  String.ofList (quote :: chars.flatMap (quoteChar quote) ++ [quote])

/-- Bytes in quotes, after the letter that marks them; bytes outside printable ASCII are escaped. -/
def quotedBytes (bytes : List UInt8) : String :=
  let quote := quoteMark (bytes.contains 39) (bytes.contains 34)
  let byteText (b : UInt8) : List Char :=
    if b < 127 then quoteChar quote (Char.ofNat b.toNat) else escapeCode b.toNat
  String.ofList ('b' :: quote :: bytes.flatMap byteText ++ [quote])

end DocFilter.Text
