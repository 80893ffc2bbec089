import DocFilter.Failure
import DocFilter.Json.Basic
import DocFilter.Json.Escape
import DocFilter.Number.StoreReal
import DocFilter.Value

/-!
The values that the store computes with.

Null stands below all numbers, numbers below all texts, texts below all byte strings; numbers are
compared exactly, texts by code points. Three-valued logic is `Option Bool`, with `none` for
unknown.
-/

namespace DocFilter

-- A power is the core library's, also in a file that sees other powers.
attribute [local instance (high)] instPowNat

/-- A value of the store. Integers have 64 bits, reals are not NaN. -/
inductive Scalar
  | null
  | int (n : Int)
  | real (x : Binary64)
  | text (s : String)
  | blob (bytes : List UInt8)
  deriving DecidableEq

namespace Scalar

def fits (n : Int) : Bool := -(2 ^ (63 : Nat)) ≤ n && n < 2 ^ (63 : Nat)

def compareLists {α : Type} (compare : α → α → Ordering) : List α → List α → Ordering
  | [], [] => .eq
  | [], _ :: _ => .lt
  | _ :: _, [] => .gt
  | a :: as, b :: bs => (compare a b).then (compareLists compare as bs)

def compareTexts (s t : String) : Ordering :=
  compareLists (fun a b => compare a.toNat b.toNat) s.toList t.toList

/-- The class of a value in the order of the store. -/
def rank : Scalar → Nat
  | null => 0
  | int _ | real _ => 1
  | text _ => 2
  | blob _ => 3

def number? : Scalar → Option Number
  | int n => some (.int n)
  | real x => some (.real x)
  | _ => none

def compare (a b : Scalar) : Ordering :=
  match a, b with
  | text s, text t => compareTexts s t
  | blob s, blob t => compareLists (fun a b => Ord.compare a.toNat b.toNat) s t
  | a, b =>
    match a.number?, b.number? with
    | some x, some y => (x.compare? y).getD .eq
    | _, _ => Ord.compare a.rank b.rank

/-- A number in a document: an integer of at most 64 bits, or the nearest real. -/
def ofLiteral (literal : List Char) : Scalar :=
  match (Numeral.take literal).1.toNumber with
  | .int n => if fits n then int n else real (Binary64.ofInt n)
  | .real x => real x

/-- The text of a written text. The store ends a text at its first NUL. -/
def ofEscaped (escaped : List Char) : Scalar :=
  text (String.ofList ((Json.unescape escaped).takeWhile (· ≠ '\x00')))

/-- The value of a part of a document: truth values are 0 and 1, arrays and objects their text. -/
def ofJson : Json → Scalar
  | .null => null
  | .bool b => int (if b then 1 else 0)
  | .number literal => ofLiteral literal
  | .special x => real x
  | .text escaped => ofEscaped escaped
  | json => text json.minified

/-- The value after a text column has turned numbers into texts. -/
def asText (v : Scalar) : Scalar :=
  match v with
  | int n => text (toString n)
  | real x => text (StoreReal.text x)
  | v => v

def toValue : Scalar → Value
  | null => .null
  | int n => .int n
  | real x => .real x
  | text s => .text s
  | blob bytes => .bytes bytes

/-- The greatest depth of arrays and objects that the store reads. -/
def maxJsonDepth : Nat := 2000

/-- The tree of a document, if the store accepts it: JSON without special numbers, not too deep. -/
def documentOf (s : String) : Except StoreFault Json :=
  match Json.ofText? s with
  | some json =>
    if json.isStrict && json.depth ≤ maxJsonDepth then .ok json else .error .malformedJson
  | none => .error .malformedJson

def canonicalText (s : String) : Except StoreFault Scalar :=
  (documentOf (String.ofList (s.toList.takeWhile (· ≠ '\x00')))).map fun json =>
    text json.minified

/-- The document that a value is the text of, without blanks; null for null. Numbers are read as
their texts, and bytes as the text that they encode. -/
def canonicalJson (v : Scalar) : Except StoreFault Scalar :=
  match v.asText with
  | text s => canonicalText s
  | blob bytes =>
    match String.fromUTF8? ⟨bytes.toArray⟩ with
    | some s => canonicalText s
    | none => .error .malformedJson
  | _ => .ok null

/-- The value that a statement is given for a value of a request. Only values that `bind` accepts
have one; the others read as null. -/
def ofValue : Value → Scalar
  | .bool b => int (if b then 1 else 0)
  | .int n => int n
  | .real .nan => null
  | .real x => real x
  | .text s => text s
  | .bytes bs => blob bs
  | .timestamp t => text (t.isoText ' ')
  | .date d => text d.text
  | _ => null

/-- Checks that a value can be given to a statement at a position. -/
def checkBinding (position : Nat) (v : Value) : Except Failure Unit :=
  match v with
  | .int n => if fits n then .ok () else .error .integerTooWide
  | .null | .bool _ | .real _ | .text _ | .bytes _ | .timestamp _ | .date _ => .ok ()
  | v => .error (.store (.unbindable position v.fullKindName))

/-- Checks the parameters of a statement in order, positions counted from `position`. -/
def checkBindings (position : Nat) : List Value → Except Failure Unit
  | [] => .ok ()
  | v :: rest => do
    checkBinding position v
    checkBindings (position + 1) rest

end Scalar

end DocFilter
