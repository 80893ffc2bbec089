import DocFilter.Text.Hex

/-!
Escapes of written texts.

A text is written in printable ASCII. The quote, the backslash and five control characters have
short escapes; every other character outside printable ASCII is written by its code in four
hexadecimal digits, those above `ffff` by the two halves of a surrogate pair. Reading undoes this.
-/

namespace DocFilter.Json

def codeEscape (code : Nat) : List Char := '\\' :: 'u' :: Text.hexDigits 4 code

def escapeChar (c : Char) : List Char :=
  if c = '"' then ['\\', '"']
  else if c = '\\' then ['\\', '\\']
  else if c = '\n' then ['\\', 'n']
  else if c = '\r' then ['\\', 'r']
  else if c = '\t' then ['\\', 't']
  else if c = '\x08' then ['\\', 'b']
  else if c = '\x0c' then ['\\', 'f']
  else if 32 ≤ c.val ∧ c.val < 127 then [c]
  else if c.toNat < 0x10000 then codeEscape c.toNat
  else
    let offset := c.toNat - 0x10000
    codeEscape (0xd800 + offset / 0x400) ++ codeEscape (0xdc00 + offset % 0x400)

/-- The written form of a text, without its quotes. -/
def escape (cs : List Char) : List Char := cs.flatMap escapeChar

def shortEscape (c : Char) : Char :=
  if c = 'n' then '\n'
  else if c = 'r' then '\r'
  else if c = 't' then '\t'
  else if c = 'b' then '\x08'
  else if c = 'f' then '\x0c'
  else c

def codes : List Char → List Nat
  | '\\' :: 'u' :: a :: b :: c :: d :: rest =>
    match Text.readHex4? [a, b, c, d] with
    | some (code, _) => code :: codes rest
    | none => 'u'.toNat :: codes (a :: b :: c :: d :: rest)
  | '\\' :: c :: rest => (shortEscape c).toNat :: codes rest
  | c :: rest => c.toNat :: codes rest
  | [] => []

def isHighHalf (code : Nat) : Bool := 0xd800 ≤ code && code < 0xdc00

def isLowHalf (code : Nat) : Bool := 0xdc00 ≤ code && code < 0xe000

/-- The characters of codes, the halves of surrogate pairs joined. A half that stands alone becomes
the replacement character. -/
def joinPairs : List Nat → List Char
  | high :: low :: rest =>
    if isHighHalf high && isLowHalf low then
      Char.ofNat (0x10000 + (high - 0xd800) * 0x400 + (low - 0xdc00)) :: joinPairs rest
    else
      (if isHighHalf high || isLowHalf high then '\ufffd' else Char.ofNat high) ::
        joinPairs (low :: rest)
  | [code] => [if isHighHalf code || isLowHalf code then '\ufffd' else Char.ofNat code]
  | [] => []

def unescape (cs : List Char) : List Char := joinPairs (codes cs)

end DocFilter.Json
