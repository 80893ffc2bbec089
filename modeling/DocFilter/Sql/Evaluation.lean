import DocFilter.Json.Path
import DocFilter.Sql.Condition
import DocFilter.Sql.Scalar

/-!
What conditions mean on stored rows.

A condition means something wherever its references have values: in a row, or where the key alone is
known before any row is read. A part of the document is read by parsing the stored text and walking
the path; both can fail, and then the statement fails. A conjunction is read from the front and
stops at the first condition that does not hold; an alternative with null stops when the part is
null. What is not read cannot fail.
-/

namespace DocFilter

/-- The written pattern is found in the plain form of the value. In null nothing is found, and
without a pattern nothing is. -/
def Value.isFoundBy (v : Value) (pattern : Option String) : Bool :=
  match pattern, v with
  | none, _ => false
  | _, .null => false
  | some pattern, v => (Pattern.ofWritten pattern).foundIn v.display

/-- A search in a value of any shape, which must be shown for it; the scalars of a store always
can. -/
def Value.search (v : Value) (pattern : Option String) : Except Failure Bool :=
  if pattern.isNone || v matches .null then .ok false
  else v.shown.map fun _ => v.isFoundBy pattern

/-- A stored row: the text of its key and the text of its document. -/
structure Row where
  key : String
  document : String
  deriving DecidableEq

namespace Reference

/-- The path that the store reads: behind the `$`, up to a NUL. -/
def pathChars (path : String) : List Char := (path.toList.drop 1).takeWhile (· ≠ '\x00')

/-- The value of the document at a path, null when there is none. -/
def extract (document : String) (path : String) : Except StoreFault Scalar :=
  match Scalar.documentOf document with
  | .error fault => .error fault
  | .ok json =>
    match json.locate (pathChars path) with
    | .error rest => .error (.badPath (String.ofList rest))
    | .ok (some part) => .ok (Scalar.ofJson part)
    | .ok none => .ok .null

def adapt (ref : Reference) (operand : Scalar) : Scalar :=
  match ref with
  | key => operand.asText
  | path _ => operand

end Reference

/-- Reads a reference: its value, or what goes wrong. -/
abbrev Reading := Reference → Except StoreFault Scalar

/-- The values that references have in a row. -/
def Row.read (row : Row) : Reading
  | .key => .ok (.text row.key)
  | .path p => Reference.extract row.document p

/-- The values that references have before a row is read, when the key must be equal to a value: the
key is that value as the key column holds it, and of the document nothing is known. -/
def Reading.ofKey (key : Scalar) : Reading
  | .key => .ok key.asText
  | .path _ => .ok .null

def Relation.holds (relation : Relation) (ordering : Ordering) : Bool :=
  match relation with
  | eq => ordering == .eq
  | lt => ordering == .lt
  | le => ordering != .gt
  | gt => ordering == .gt
  | ge => ordering != .lt

namespace Condition

/-- A comparison, unknown when one side is null. -/
def compareScalars (relation : Relation) (a b : Scalar) : Option Bool :=
  match a, b with
  | .null, _ => none
  | _, .null => none
  | a, b => some (relation.holds (a.compare b))

/-- Membership: true when a member is equal, else unknown when a side is null. -/
def amongScalars (a : Scalar) (members : List Scalar) : Option Bool :=
  let results := members.map fun b => compareScalars .eq a b
  if results.contains (some true) then some true
  else if results.contains none then none
  else some false

mutual

/-- The truth value of a condition under a reading. -/
def eval (read : Reading) : Condition → Except StoreFault (Option Bool)
  | always => .ok (some true)
  | never => .ok (some false)
  | isNull ref => (read ref).map fun v => some (v = .null)
  | isNotNull ref => (read ref).map fun v => some (v ≠ .null)
  | compare ref relation operand =>
    (read ref).map fun v => compareScalars relation v (ref.adapt (Scalar.ofValue operand))
  | sameJson ref json => do
    let v ← read ref
    let left ← v.canonicalJson
    let right ← (Scalar.text json).canonicalJson
    pure (compareScalars .eq left right)
  | oneOf ref operands =>
    (read ref).map fun v =>
      amongScalars v (operands.map fun operand => ref.adapt (Scalar.ofValue operand))
  | noneOf ref operands =>
    (read ref).map fun v =>
      (amongScalars v (operands.map fun operand => ref.adapt (Scalar.ofValue operand))).map
        fun b => !b
  | finds ref pattern => (read ref).map fun v => some (v.toValue.isFoundBy (some pattern))
  | not condition => (eval read condition).map fun truth => truth.map fun b => !b
  | nullOr ref condition => do
    let v ← read ref
    if v = .null then pure (some true) else eval read condition
  | all conditions => (evalAll read conditions).map some

/-- All conditions hold under a reading. -/
def evalAll (read : Reading) : List Condition → Except StoreFault Bool
  | [] => .ok true
  | condition :: rest => do
    let truth ← eval read condition
    if truth = some true then evalAll read rest else pure false

end

@[simp] theorem evalAll_nil (read : Reading) : evalAll read [] = .ok true := rfl

end Condition

end DocFilter
