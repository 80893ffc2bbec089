import DocFilter.Json.Basic
import DocFilter.Number.Reading

/-!
Paths into written documents.

A path is a chain of labels and indices. A label follows a point and ends at the next point or
bracket, or stands in quotes; it is compared with the keys as they are written. An index stands in
brackets and counts from the start, or after `#-` from the end. The path is read while the document
is walked, so a bad part is noticed only when the walk reaches it: past a missing member, and behind
the point or the `[#` of a value of the wrong shape, nothing is read.
-/

namespace DocFilter.Json

-- A power is the core library's, also in a file that sees other powers.
attribute [local instance (high)] instPowNat

/-- The label at the front of a path behind its point, and the path behind it. -/
def takeLabel? : List Char → Option (List Char × List Char)
  | '"' :: rest =>
    match rest.dropWhile (· ≠ '"') with
    | _ :: after => some (rest.takeWhile (· ≠ '"'), after)
    | [] => none
  | cs =>
    let isInside (c : Char) : Bool := c ≠ '.' && c ≠ '['
    let label := cs.takeWhile isInside
    if label = [] then none else some (label, cs.dropWhile isInside)

/-- An index counts from the start or from the end. -/
inductive Index
  | fromStart (n : Nat)
  | fromEnd (n : Nat)
  deriving DecidableEq

/-- Indices are kept to 32 bits. -/
def indexModulus : Nat := 2 ^ (32 : Nat)

def takeIndex? (cs : List Char) : Option (Index × List Char) :=
  let digits := cs.takeWhile Char.isDigit
  match digits, cs.dropWhile Char.isDigit with
  | _ :: _, ']' :: after => some (.fromStart (digitsValue digits % indexModulus), after)
  | _, _ =>
    match cs with
    | '#' :: ']' :: after => some (.fromEnd 0, after)
    | '#' :: '-' :: rest =>
      let digits := rest.takeWhile Char.isDigit
      (match digits, rest.dropWhile Char.isDigit with
      | _ :: _, ']' :: after => some (.fromEnd (digitsValue digits % indexModulus), after)
      | _, _ => none)
    | _ => none

def Index.item? (items : List Json) : Index → Option Json
  | .fromStart n => items[n]?
  | .fromEnd n => if n ≤ items.length then items[items.length - n]? else none

/-- The member under a label; of several the first. -/
def member? (members : List (List Char × Json)) (label : List Char) : Option Json :=
  members.lookup label

/-- An index that counts from the end reaches no further into a text of digits than the array is
long: beyond that the path behind it is not read. -/
def passesEnd (cs : List Char) (length : Nat) : Bool :=
  match cs with
  | '#' :: '-' :: rest =>
    let digits := rest.takeWhile Char.isDigit
    digits ≠ [] && length < digitsValue digits % indexModulus
  | _ => false

/-- Walks a path from a value. The error is the path from the label that could not be read, or from
the bracket of the index that could not. Each step spends one unit of fuel. -/
def walk : Nat → List Char → Json → Except (List Char) (Option Json)
  | _, [], json => .ok (some json)
  | 0, _, _ => .ok none
  | fuel + 1, '.' :: path, json =>
    match json with
    | object members =>
      (match takeLabel? path with
      | none => .error path
      | some (label, after) =>
        match member? members label with
        | some value => walk fuel after value
        | none => .ok none)
    | _ => .ok none
  | fuel + 1, '[' :: path, json =>
    match json, path with
    | array items, path =>
      if passesEnd path items.length then .ok none
      else
        (match takeIndex? path with
        | none => .error ('[' :: path)
        | some (index, after) =>
          match index.item? items with
          | some value => walk fuel after value
          | none => .ok none)
    | _, '#' :: _ => .ok none
    | _, path =>
      (match takeIndex? path with
      | none => .error ('[' :: path)
      | some _ => .ok none)
  | _ + 1, path, _ => .error path

def locate (path : List Char) (json : Json) : Except (List Char) (Option Json) :=
  walk path.length path json

end DocFilter.Json
