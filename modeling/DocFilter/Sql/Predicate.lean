import DocFilter.Filter.Clause
import DocFilter.Json.Writer
import DocFilter.Sql.Condition

/-!
Conditions of the filter language as conditions of a statement.

A predicate is a mapping whose keys all start with the reserved sign; anything else under a field is
compared for equality. Lists and mappings are compared as documents, scalars by value; truth values
become 0 and 1, identifiers and dates their texts. The negated equality and membership also hold
where the field is missing; the negated search does so because a search in null finds nothing.
-/

namespace DocFilter

def sqlOperand : Value → Value
  | .bool b => .int (if b then 1 else 0)
  | .objectId id => .text id.text
  | .timestamp t => .text (t.isoText 'T')
  | .date d => .text d.text
  | v => v

/-- What a field refers to: the key column, or a path into the document. -/
def referenceOf (columns : Columns) (field : Value) : Reference :=
  if field.equal columns.key then .key else .path ("$." ++ field.display)

/-- Refuses a field that cannot be referred to, because the name of a column or the field cannot be
shown. -/
def checkReference (columns : Columns) (field : Value) : Except Failure Unit :=
  if field.equal columns.key then columns.key.shown.map fun _ => ()
  else columns.document.shown.bind fun _ => field.shown.map fun _ => ()

namespace Condition

/-- Equality of a part with a value that is not null. -/
def equals (ref : Reference) (operand : Value) : Except Failure Condition :=
  match operand with
  | .list _ | .ring _ | .map _ => operand.storedJson.map (sameJson ref)
  | v => .ok (compare ref .eq (sqlOperand v))

def equality (ref : Reference) (operand : Value) : Except Failure Condition :=
  match operand with
  | .null => .ok (isNull ref)
  | v => equals ref v

def inequality (ref : Reference) (operand : Value) : Except Failure Condition :=
  match operand with
  | .null => .ok (isNotNull ref)
  | v => (equals ref v).map fun c => nullOr ref (not c)

/-- Membership in the items of a value. -/
def membership (ref : Reference) (operand : Value) : Except Failure Condition :=
  operand.elements.map fun items =>
    if items.isEmpty then never else oneOf ref (items.map sqlOperand)

def nonMembership (ref : Reference) (operand : Value) : Except Failure Condition :=
  operand.elements.map fun items =>
    if items.isEmpty then always else nullOr ref (noneOf ref (items.map sqlOperand))

def search (ref : Reference) (key : String) (operand : Value) : Except Failure Condition :=
  match operand with
  | .pattern p => .ok (finds ref p.written)
  | .text s => .ok (finds ref s)
  | _ => .error (.unsupportedCondition key)

def ofEntry (ref : Reference) (key operand : Value) : Except Failure Condition :=
  match key with
  | .text "$eq" => equality ref operand
  | .text "$ne" => inequality ref operand
  | .text "$lt" => .ok (compare ref .lt (sqlOperand operand))
  | .text "$lte" => .ok (compare ref .le (sqlOperand operand))
  | .text "$gt" => .ok (compare ref .gt (sqlOperand operand))
  | .text "$gte" => .ok (compare ref .ge (sqlOperand operand))
  | .text "$in" => membership ref operand
  | .text "$nin" => nonMembership ref operand
  | .text "$regex" => search ref "$regex" operand
  | .text "$not" => (search ref "$not" operand).map not
  | key => .error (.unsupportedCondition key.display)

/-- All keys start with the reserved sign. They are shown one after the other, up to the first one
that does not. -/
def areReserved : List (Value × Value) → Except Failure Bool
  | [] => .ok true
  | (key, _) :: rest => do
    let key ← key.shown
    if key.toList.head? = some '$' then areReserved rest else pure false

/-- The mapping is a predicate: it has entries, and all its keys start with the reserved sign. -/
def isPredicate (entries : List (Value × Value)) : Except Failure Bool :=
  if entries.isEmpty then .ok false else areReserved entries

/-- The entry of a predicate refers to the field: it is not refused before, and is no membership in
nothing. -/
def refers (key operand : Value) : Bool :=
  match key with
  | .text "$in" | .text "$nin" => operand.elements?.any fun items => !items.isEmpty
  | .text "$regex" | .text "$not" => (operand matches .pattern _ | .text _)
  | .text key => ["$eq", "$ne", "$lt", "$lte", "$gt", "$gte"].contains key
  | _ => false

def ofEntryOn (columns : Columns) (field key operand : Value) : Except Failure Condition := do
  if refers key operand then checkReference columns field
  ofEntry (referenceOf columns field) key operand

/-- The condition of a field that is to be equal to a value. -/
def equalityOn (columns : Columns) (field operand : Value) : Except Failure Condition := do
  checkReference columns field
  equality (referenceOf columns field) operand

def ofField (columns : Columns) (field predicate : Value) : Except Failure Condition :=
  match predicate with
  | .map entries => do
    if ← isPredicate entries then
      (entries.mapM fun (key, operand) => ofEntryOn columns field key operand).map all
    else equalityOn columns field predicate
  | v => equalityOn columns field v

/-- The conjunction of conditions given as a mapping from fields to predicates. Whatever is false or
empty means no condition. -/
def ofValue (columns : Columns) (conditions : Value) : Except Failure (List Condition) :=
  if conditions.isTruthy then
    match conditions with
    | .map entries => entries.mapM fun (field, predicate) => ofField columns field predicate
    | v => .error (.noMember v.fullKindName "items")
  else .ok []

end Condition

end DocFilter
