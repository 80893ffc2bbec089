import DocFilter.Json.Basic
import DocFilter.Json.Escape
import DocFilter.Number.Reading
import DocFilter.Value

/-!
Reading stored documents back as values.

Numbers without point and exponent are exact integers, the others the nearest binary64 numbers. Of
several members with one key the last one counts, in the place of the first.
-/

namespace DocFilter.Json

def numberOf (literal : List Char) : Number := (Numeral.take literal).1.toNumber

def numberValue (literal : List Char) : Value :=
  match numberOf literal with
  | .int n => .int n
  | .real x => .real x

def textValue (escaped : List Char) : Value := .text (String.ofList (unescape escaped))

mutual

def toValue : Json → Value
  | null => .null
  | bool b => .bool b
  | number literal => numberValue literal
  | special x => .real x
  | text escaped => textValue escaped
  | array items => .list (itemValues items)
  | object members => .map (Value.insertEntries [] (memberValues members))

def itemValues : List Json → List Value
  | [] => []
  | item :: rest => toValue item :: itemValues rest

def memberValues : List (List Char × Json) → List (Value × Value)
  | [] => []
  | (key, value) :: rest => (textValue key, toValue value) :: memberValues rest

end

end DocFilter.Json
