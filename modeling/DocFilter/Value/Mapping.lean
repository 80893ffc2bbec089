import DocFilter.Filter.Clause

/-!
Mappings made from values: from a mapping itself, or from a list of pairs.
-/

namespace DocFilter.Value

/-- The pair that an item at some position is: a sequence of two. -/
def pairAt (index : Nat) (item : Value) : Except Failure (Value × Value) :=
  match item.elements? with
  | some [key, value] =>
    match key.unhashableKind? with
    | some kind => .error (.unhashable kind)
    | none => .ok (key, value)
  | some items => .error (.entryNotPair index items.length)
  | none => .error (.entryNotSequence index)

/-- Stores the pairs of a list, which start at a position, into a mapping. -/
def insertPairs (entries : List (Value × Value)) (index : Nat) :
    List Value → Except Failure (List (Value × Value))
  | [] => .ok entries
  | item :: rest => do
    let (key, value) ← pairAt index item
    insertPairs (insertEntry entries key value) (index + 1) rest

/-- The entries of the mapping that a value is or lists. -/
def toEntries (v : Value) : Except Failure (List (Value × Value)) :=
  match v with
  | map entries => .ok entries
  | v => do
    let items ← v.elements
    insertPairs [] 0 items

/-- The two parts of a value that is taken apart. -/
def unpackPair (v : Value) : Except Failure (Value × Value) :=
  match v.elements? with
  | some [a, b] => .ok (a, b)
  | some items =>
    if items.length < 2 then .error (.tooFewParts items.length) else .error .tooManyParts
  | none => .error (.notUnpackable v.fullKindName)

def relatesTo (relation : String) (holds : Ordering → Bool) (v : Value) (n : Int) :
    Except Failure Bool :=
  match v.number? with
  | some x => .ok (((x.compare? (.int n)).map holds).getD false)
  | none => .error (.notComparable relation v.fullKindName (int n).fullKindName)

def relates (relation : String) (holds : Ordering → Bool) (v w : Value) : Except Failure Bool :=
  match v.number?, w.number? with
  | some x, some y => .ok (((x.compare? y).map holds).getD false)
  | _, _ => .error (.notComparable relation v.fullKindName w.fullKindName)

end DocFilter.Value
