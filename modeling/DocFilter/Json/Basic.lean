import DocFilter.Number.Binary64
import DocFilter.Text.Hex

/-!
Written documents: the tree of a JSON text, its two printed forms, and its reader.

The tree keeps texts and numbers as they are written, because the store compares and returns them
so: a text keeps its escapes, a number its digits. The numbers that JSON has no words for, NaN and
the infinities, are kept as special leaves; a document is strict when it has none.
-/

namespace DocFilter

/-- The tree of a JSON text. -/
inductive Json
  | null
  | bool (b : Bool)
  | number (literal : List Char)
  | special (x : Binary64)
  | text (escaped : List Char)
  | array (items : List Json)
  | object (members : List (List Char × Json))

namespace Json

instance : Inhabited Json := ⟨.null⟩

/-- The word of a number that JSON has no literal for. -/
def specialWord : Binary64 → List Char
  | .infinite negative => if negative then "-Infinity".toList else "Infinity".toList
  | _ => "NaN".toList

mutual

/-- The printed form with the given marks after items and after keys. -/
def print (comma colon : List Char) : Json → List Char
  | null => "null".toList
  | bool b => if b then "true".toList else "false".toList
  | number literal => literal
  | special x => specialWord x
  | text escaped => '"' :: escaped ++ ['"']
  | array items => '[' :: printItems comma colon items ++ [']']
  | object members => '\x7b' :: printMembers comma colon members ++ ['\x7d']

def printItems (comma colon : List Char) : List Json → List Char
  | [] => []
  | [item] => print comma colon item
  | item :: rest => print comma colon item ++ comma ++ printItems comma colon rest

def printMembers (comma colon : List Char) : List (List Char × Json) → List Char
  | [] => []
  | [(key, value)] => '"' :: key ++ '"' :: colon ++ print comma colon value
  | (key, value) :: rest =>
    '"' :: key ++ '"' :: colon ++ print comma colon value ++ comma
      ++ printMembers comma colon rest

end

/-- The stored form, with a blank after each comma and colon. -/
def spaced (json : Json) : String := String.ofList (print [',', ' '] [':', ' '] json)

def minified (json : Json) : String := String.ofList (print [','] [':'] json)

/-- The blanks between the parts of a JSON text. -/
def isBlank (c : Char) : Bool := c = ' ' || c = '\t' || c = '\n' || c = '\r'

def skipBlanks (cs : List Char) : List Char := cs.dropWhile isBlank

/-- The escapes of one character, apart from those by code. -/
def isEscape (c : Char) : Bool := ['"', '\\', '/', 'b', 'f', 'n', 'r', 't'].contains c

/-- Reads the inside of a text up to its closing quote, and gives what follows. Control characters
and unknown escapes are refused. -/
def readText? : List Char → Option (List Char × List Char)
  | [] => none
  | '"' :: rest => some ([], rest)
  | '\\' :: 'u' :: a :: b :: c :: d :: rest =>
    if (Text.readHex4? [a, b, c, d]).isSome then
      (readText? rest).map fun (inside, rest) => ('\\' :: 'u' :: a :: b :: c :: d :: inside, rest)
    else none
  | '\\' :: c :: rest =>
    if isEscape c then (readText? rest).map fun (inside, rest) => ('\\' :: c :: inside, rest)
    else none
  | '\\' :: [] => none
  | c :: rest =>
    if c.val < 32 then none else (readText? rest).map fun (inside, rest) => (c :: inside, rest)

def readDigits? (cs : List Char) : Option (List Char × List Char) :=
  let digits := cs.takeWhile Char.isDigit
  if digits = [] then none else some (digits, cs.dropWhile Char.isDigit)

def readSign (signs : List Char) : List Char → List Char × List Char
  | c :: rest => if signs.contains c then ([c], rest) else ([], c :: rest)
  | [] => ([], [])

def readFraction? : List Char → Option (List Char × List Char)
  | '.' :: rest => (readDigits? rest).map fun (digits, rest) => ('.' :: digits, rest)
  | cs => some ([], cs)

def readExponent? : List Char → Option (List Char × List Char)
  | c :: rest =>
    if c = 'e' ∨ c = 'E' then
      let (sign, rest) := readSign ['-', '+'] rest
      (readDigits? rest).map fun (digits, rest) => (c :: sign ++ digits, rest)
    else some ([], c :: rest)
  | [] => some ([], [])

/-- Reads a number literal: digits without a leading zero, a fraction and an exponent. -/
def readNumber? (cs : List Char) : Option (List Char × List Char) := do
  let (sign, cs) := readSign ['-'] cs
  let (whole, cs) ← readDigits? cs
  if whole.head? = some '0' ∧ whole.length ≠ 1 then none
  else
    let (fraction, cs) ← readFraction? cs
    let (exponent, cs) ← readExponent? cs
    some (sign ++ whole ++ fraction ++ exponent, cs)

mutual

/-- Reads a value behind blanks and gives what follows it. Every call spends one unit of fuel. -/
def readValue? : Nat → List Char → Option (Json × List Char)
  | 0, _ => none
  | fuel + 1, cs =>
    match skipBlanks cs with
    | 'n' :: 'u' :: 'l' :: 'l' :: rest => some (null, rest)
    | 't' :: 'r' :: 'u' :: 'e' :: rest => some (bool true, rest)
    | 'f' :: 'a' :: 'l' :: 's' :: 'e' :: rest => some (bool false, rest)
    | 'N' :: 'a' :: 'N' :: rest => some (special .nan, rest)
    | 'I' :: 'n' :: 'f' :: 'i' :: 'n' :: 'i' :: 't' :: 'y' :: rest =>
      some (special (.infinite false), rest)
    | '-' :: 'I' :: 'n' :: 'f' :: 'i' :: 'n' :: 'i' :: 't' :: 'y' :: rest =>
      some (special (.infinite true), rest)
    | '"' :: rest => (readText? rest).map fun (inside, rest) => (text inside, rest)
    | '[' :: rest =>
      (match skipBlanks rest with
      | ']' :: rest => some (array [], rest)
      | _ => (readItems? fuel rest).map fun (items, rest) => (array items, rest))
    | '\x7b' :: rest =>
      (match skipBlanks rest with
      | '\x7d' :: rest => some (object [], rest)
      | _ => (readMembers? fuel rest).map fun (members, rest) => (object members, rest))
    | cs => (readNumber? cs).map fun (literal, rest) => (number literal, rest)

/-- Reads the items of an array, of which there is at least one, and the closing bracket. -/
def readItems? : Nat → List Char → Option (List Json × List Char)
  | 0, _ => none
  | fuel + 1, cs =>
    match readValue? fuel cs with
    | none => none
    | some (item, rest) =>
      match skipBlanks rest with
      | ',' :: rest => (readItems? fuel rest).map fun (items, rest) => (item :: items, rest)
      | ']' :: rest => some ([item], rest)
      | _ => none

/-- Reads the members of an object, of which there is at least one, and the closing brace. -/
def readMembers? : Nat → List Char → Option (List (List Char × Json) × List Char)
  | 0, _ => none
  | fuel + 1, cs =>
    match skipBlanks cs with
    | '"' :: rest =>
      (match readText? rest with
      | none => none
      | some (key, rest) =>
        match skipBlanks rest with
        | ':' :: rest =>
          (match readValue? fuel rest with
          | none => none
          | some (value, rest) =>
            match skipBlanks rest with
            | ',' :: rest =>
              (readMembers? fuel rest).map fun (members, rest) => ((key, value) :: members, rest)
            | '\x7d' :: rest => some ([(key, value)], rest)
            | _ => none)
        | _ => none)
    | _ => none

end

/-- Reads a whole text. Two calls a character are more than any text needs. -/
def ofChars? (cs : List Char) : Option Json :=
  match readValue? (2 * cs.length + 2) cs with
  | some (json, rest) => if skipBlanks rest = [] then some json else none
  | none => none

def ofText? (s : String) : Option Json := ofChars? s.toList

mutual

/-- No special number occurs. -/
def isStrict : Json → Bool
  | special _ => false
  | array items => areStrict items
  | object members => membersAreStrict members
  | _ => true

def areStrict : List Json → Bool
  | [] => true
  | item :: rest => isStrict item && areStrict rest

def membersAreStrict : List (List Char × Json) → Bool
  | [] => true
  | (_, value) :: rest => isStrict value && membersAreStrict rest

end

mutual

/-- The number of arrays and objects that lie around the innermost value, itself included. -/
def depth : Json → Nat
  | array items => depthOfItems items + 1
  | object members => depthOfMembers members + 1
  | _ => 0

def depthOfItems : List Json → Nat
  | [] => 0
  | item :: rest => max (depth item) (depthOfItems rest)

def depthOfMembers : List (List Char × Json) → Nat
  | [] => 0
  | (_, value) :: rest => max (depth value) (depthOfMembers rest)

end

end Json

end DocFilter
