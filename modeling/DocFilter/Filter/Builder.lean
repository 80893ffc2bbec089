import DocFilter.Filter.Clause
import DocFilter.Filter.Guard

/-!
Compiling clauses into conditions.

Conditions map each field to a predicate, a mapping from one condition key to its operand. A clause
on the public identifier whose operand is the text of an object identifier goes to the native key
and compares with the identifier itself; pattern clauses keep field and text. All operands, then all
fields, then all operators are checked before anything is compiled. The first clause on the public
identifier is compiled first, the others follow in order, and a later clause on the same field takes
the place of an earlier one.
-/

namespace DocFilter

/-- How a filter names the identifier of a document: the field under which requests know it and the
key under which the store keeps it. -/
structure Builder where
  publicKey : Value := .text "id"
  nativeKey : Value := .text "_id"

inductive Direction
  | ascending
  | descending
  deriving DecidableEq, Repr

def Direction.sign : Direction → Int
  | ascending => 1
  | descending => -1

/-- The direction that a request names: only `desc` means descending. -/
def Direction.ofValue (v : Value) : Direction := if v.isText "desc" then descending else ascending

/-- A compiled expression: conditions, a sort, and the number of records to skip and to return. -/
structure Expression where
  conditions : Value := .map []
  sort : Value := .null
  limit : Value := .null
  skip : Value := .null

def listOperand (op : Operator) (field operand : Value) : Except Failure (List Value) :=
  match operand with
  | .list items | .tuple items | .set items | .frozenSet items => .ok items
  | .ring items => .ok (items ++ [.ring items])
  | v => .error (.showing (.listRequired op.literal · v.kindName) field.shown)

def patternOperand (op : Operator) (field operand : Value) : Except Failure Pattern :=
  match operand with
  | .text s => .ok (Pattern.containing s)
  | v => .error (.showing (.textRequired op.literal · v.kindName) field.shown)

/-- The operand of a predicate: a list, a pattern, or the value itself. -/
def compileOperand (op : Operator) (field operand : Value) : Except Failure Value :=
  if op.takesList then (listOperand op field operand).map .list
  else if op.takesText then (patternOperand op field operand).map .pattern
  else .ok operand

def predicate (field operator operand : Value) : Except Failure Value := do
  let op ← operator.toOperator
  let operand ← compileOperand op field operand
  pure (.map [(.text op.conditionKey, operand)])

/-- The pattern that finds a value, which must be a text. -/
def likePattern (v : Value) : Except Failure Pattern :=
  match v with
  | .text s => .ok (Pattern.containing s)
  | .bytes _ => .error .patternOfBytes
  | v => .error (.patternFromNonText v.fullKindName)

namespace Builder

/-- The field and the operand that a clause is compiled with: the native key and an object
identifier for a clause on the public identifier that holds the text of one. -/
def target (b : Builder) (field operator operand : Value) : Except Failure (Value × Value) := do
  let op ← operator.toOperator
  if op.takesText then pure (field, operand)
  else
    match operand with
    | .text s =>
      (match field.equal b.publicKey, ObjectId.ofText? s with
      | true, some id => pure (b.nativeKey, .objectId id)
      | _, _ => pure (field, operand))
    | _ => pure (field, operand)

def splitKeyClause (b : Builder) : List Clause → Option Clause × List Clause
  | [] => (none, [])
  | c :: rest =>
    if c.field.equal b.publicKey then (some c, rest)
    else
      let (found, others) := splitKeyClause b rest
      (found, c :: others)

/-- Whether two keys of conditions are the same. A key of conditions is a text or the native key,
and a native key that is no text is the same key whatever it is equal to: even one that is not equal
to itself. -/
def isSameKey : Value → Value → Bool
  | .text s, .text t => s == t
  | .text _, _ | _, .text _ => false
  | _, _ => true

/-- Conditions with a predicate under a key, in the place of the one that was there. -/
def store (conditions : List (Value × Value)) (key predicate : Value) : List (Value × Value) :=
  match conditions with
  | [] => [(key, predicate)]
  | (k, p) :: rest =>
    if isSameKey key k then (k, predicate) :: rest else (k, p) :: store rest key predicate

def addClause (b : Builder) (conditions : List (Value × Value)) (c : Clause) :
    Except Failure (List (Value × Value)) := do
  let (field, operand) ← b.target c.field c.operator c.operand
  let predicate ← predicate field c.operator operand
  match field.unhashableKind? with
  | some kind => .error (.unhashable kind)
  | none => pure (store conditions field predicate)

def checkOperator (c : Clause) : Except Failure Unit :=
  match c.operator.operator? with
  | some _ => .ok ()
  | none => .error (.showing .unsupportedOperator c.operator.shown)

/-- Checks all operands, then all fields, then all operators. -/
def checkClauses (clauses : List Clause) : Except Failure Unit := do
  clauses.forM fun c => checkOperand c.operand
  clauses.forM fun c => checkFieldName c.field
  clauses.forM checkOperator

def compile (b : Builder) (clauses : List Clause) : Except Failure (List (Value × Value)) := do
  checkClauses clauses
  let (keyClause, others) := b.splitKeyClause clauses
  (keyClause.toList ++ others).foldlM b.addClause []

/-- The expression of a value that lists clauses. -/
def build (b : Builder) (filters : Value) : Except Failure Expression := do
  let items ← filters.elements
  let clauses ← items.mapM Clause.ofValue
  let conditions ← b.compile clauses
  pure { conditions := .map conditions }

/-- The expression with a sort by one field, if the field is not missing or empty. Sorting by the
public identifier sorts by the native key. -/
def applySort (b : Builder) (e : Expression) (sortBy sortDirection : Value) :
    Except Failure Expression := do
  if sortBy.isTruthy then
    checkFieldName sortBy
    let key := if sortBy.equal b.publicKey then b.nativeKey else sortBy
    match key.unhashableKind? with
    | some kind => .error (.unhashable kind)
    | none => pure { e with sort := .map [(key, .int (Direction.ofValue sortDirection).sign)] }
  else pure e

end Builder

end DocFilter
