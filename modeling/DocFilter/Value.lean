import DocFilter.Calendar
import DocFilter.Number.Binary64
import DocFilter.ObjectId
import DocFilter.Operator
import DocFilter.Text.Pattern

/-!
The values of documents, filter operands and requests.

Requests and documents arrive with values of any shape, so one type holds them all: scalars,
collections, mappings in insertion order, and the request parts that a caller may hand over ready
made. A collection can contain itself only as a `ring`, a list that ends in itself.
-/

namespace DocFilter

/-- A value of any shape. -/
inductive Value
  | null
  | bool (b : Bool)
  | int (n : Int)
  | real (x : Binary64)
  | text (s : String)
  | bytes (bs : List UInt8)
  | objectId (id : ObjectId)
  | timestamp (t : Timestamp)
  | date (d : Date)
  | operator (op : Operator)
  | pattern (p : Pattern)
  | list (items : List Value)
  | ring (items : List Value)
  | tuple (items : List Value)
  | set (items : List Value)
  | frozenSet (items : List Value)
  | map (entries : List (Value × Value))
  | clause (field operator operand : Value)
  | paging (page limit offset sortBy sortDirection : Value)
  | request (filters paging : Value)

namespace Value

instance : Inhabited Value := ⟨.null⟩

/-- The name of the kind of a value, as messages give it. -/
def kindName : Value → String
  | null => "NoneType"
  | bool _ => "bool"
  | int _ => "int"
  | real _ => "float"
  | text _ => "str"
  | bytes _ => "bytes"
  | objectId _ => "ObjectId"
  | timestamp _ => "datetime"
  | date _ => "date"
  | operator _ => "Operator"
  | pattern _ => "Pattern"
  | list _ => "list"
  | ring _ => "list"
  | tuple _ => "tuple"
  | set _ => "set"
  | frozenSet _ => "frozenset"
  | map _ => "dict"
  | clause .. => "FilterClause"
  | paging .. => "PaginationQuery"
  | request .. => "GenericFilterQuery"

/-- The name of the kind with the module it belongs to, for the kinds that name one. -/
def fullKindName : Value → String
  | timestamp _ => "datetime.datetime"
  | date _ => "datetime.date"
  | pattern _ => "re.Pattern"
  | v => v.kindName

/-- The number that a value is; truth values are 0 and 1. -/
def number? : Value → Option Number
  | bool b => some (.int (if b then 1 else 0))
  | int n => some (.int n)
  | real x => some (.real x)
  | _ => none

/-- The whole number that a value is: an integer or a number without a fractional part, but not a
truth value. -/
def wholeNumber? : Value → Option Int
  | int n => some n
  | real x => x.toInt?
  | _ => none

/-- The integer that a value is; truth values are 0 and 1. -/
def integer? : Value → Option Int
  | bool b => some (if b then 1 else 0)
  | int n => some n
  | _ => none

/-- False for null, false, zero, and everything empty. -/
def isTruthy : Value → Bool
  | null => false
  | bool b => b
  | int n => n ≠ 0
  | real x => !x.isZero
  | text s => s ≠ ""
  | bytes bs => !bs.isEmpty
  | list items => !items.isEmpty
  | tuple items => !items.isEmpty
  | set items => !items.isEmpty
  | frozenSet items => !items.isEmpty
  | map entries => !entries.isEmpty
  | _ => true

def orElse (v default : Value) : Value := if v.isTruthy then v else default

/-- What an iteration over a value yields: the items of a collection, the keys of a mapping, the
characters of a text, the numbers of bytes. -/
def elements? : Value → Option (List Value)
  | list items => some items
  | ring items => some (items ++ [ring items])
  | tuple items => some items
  | set items => some items
  | frozenSet items => some items
  | map entries => some (entries.map (·.1))
  | text s => some (s.toList.map fun c => text (String.singleton c))
  | bytes bs => some (bs.map fun b => int b.toNat)
  | _ => none

mutual

/-- Equality of values. Numbers are equal by value, whatever their kinds; mappings and sets whatever
their order; a ring is equal to nothing. -/
def equal : Value → Value → Bool
  | null, b => (b matches null)
  | text s, b => (match b with | text t => s == t | _ => false)
  | bytes s, b => (match b with | bytes t => s == t | _ => false)
  | objectId i, b => (match b with | objectId j => i == j | _ => false)
  | timestamp s, b => (match b with | timestamp t => s.sameInstant t | _ => false)
  | date d, b => (match b with | date e => d == e | _ => false)
  | operator o, b => (match b with | operator p => o == p | _ => false)
  | pattern p, b => (match b with | pattern q => p == q | _ => false)
  | list xs, b => (match b with | list ys => equalItems xs ys | _ => false)
  | ring _, _ => false
  | tuple xs, b => (match b with | tuple ys => equalItems xs ys | _ => false)
  | set xs, b => (match b with
    | set ys => xs.length == ys.length && allAmong xs ys
    | frozenSet ys => xs.length == ys.length && allAmong xs ys
    | _ => false)
  | frozenSet xs, b => (match b with
    | set ys => xs.length == ys.length && allAmong xs ys
    | frozenSet ys => xs.length == ys.length && allAmong xs ys
    | _ => false)
  | map xs, b => (match b with
    | map ys => xs.length == ys.length && allEntriesAmong xs ys
    | _ => false)
  | clause f o v, b => (match b with
    | clause f' o' v' => equal f f' && equal o o' && equal v v'
    | _ => false)
  | paging p l o s d, b => (match b with
    | paging p' l' o' s' d' => equal p p' && equal l l' && equal o o' && equal s s' && equal d d'
    | _ => false)
  | request f p, b => (match b with | request f' p' => equal f f' && equal p p' | _ => false)
  | bool x, b => (match b.number? with
    | some y => (Number.int (if x then 1 else 0)).equal y
    | none => false)
  | int n, b => (match b.number? with | some y => (Number.int n).equal y | none => false)
  | real x, b => (match b.number? with | some y => (Number.real x).equal y | none => false)

/-- Pairwise equality of two lists of equal length. -/
def equalItems : List Value → List Value → Bool
  | [], ys => ys.isEmpty
  | x :: xs, ys => (match ys with | y :: ys => equal x y && equalItems xs ys | [] => false)

/-- Every value of the first list is equal to one of the second. -/
def allAmong : List Value → List Value → Bool
  | [], _ => true
  | x :: xs, ys => ys.any (fun y => equal x y) && allAmong xs ys

/-- Every entry of the first list is equal to one of the second. -/
def allEntriesAmong : List (Value × Value) → List (Value × Value) → Bool
  | [], _ => true
  | (k, v) :: xs, ys =>
    ys.any (fun (k', v') => equal k k' && equal v v') && allEntriesAmong xs ys

end

@[simp] theorem equal_text (s t : String) : (text s).equal (text t) = (s == t) := by
  rw [equal]

def isText (v : Value) (s : String) : Bool := match v with
  | text t => t == s
  | _ => false

def lookup? (entries : List (Value × Value)) (key : Value) : Option Value :=
  (entries.find? fun entry => key.equal entry.1).map (·.2)

def eraseKey (entries : List (Value × Value)) (key : Value) : List (Value × Value) :=
  entries.filter fun entry => !entry.1.equal key

/-- The entries with a value stored under a key: in the place of an entry with an equal key, which
keeps its own spelling, or else at the end. -/
def insertEntry (entries : List (Value × Value)) (key value : Value) : List (Value × Value) :=
  match entries with
  | [] => [(key, value)]
  | (k, v) :: rest =>
    if key.equal k then (k, value) :: rest else (k, v) :: insertEntry rest key value

/-- The entries of the second list stored one after the other into the first. -/
def insertEntries (entries added : List (Value × Value)) : List (Value × Value) :=
  added.foldl (fun entries (k, v) => insertEntry entries k v) entries

def distinct (items : List Value) : List Value :=
  items.foldl (fun found v => if found.any (·.equal v) then found else found ++ [v]) []

mutual

/-- The kind that keeps a value from being a key: the first mapping, list or set in it. -/
def unhashableKind? : Value → Option String
  | list _ => some "list"
  | ring _ => some "list"
  | set _ => some "set"
  | map _ => some "dict"
  | tuple items => firstUnhashableKind? items
  | clause f o v => ((unhashableKind? f).or (unhashableKind? o)).or (unhashableKind? v)
  | paging p l o s d =>
    (((((unhashableKind? p).or (unhashableKind? l)).or (unhashableKind? o)).or
      (unhashableKind? s)).or (unhashableKind? d))
  | request f p => (unhashableKind? f).or (unhashableKind? p)
  | _ => none

/-- The kind that keeps the items of a list from being parts of a key. -/
def firstUnhashableKind? : List Value → Option String
  | [] => none
  | v :: rest => (unhashableKind? v).or (firstUnhashableKind? rest)

end

mutual

/-- The number of collections that lie around the innermost value, itself included. -/
def levels : Value → Nat
  | list items => levelsOfItems items + 1
  | tuple items => levelsOfItems items + 1
  | map entries => levelsOfEntries entries + 1
  | _ => 0

def levelsOfItems : List Value → Nat
  | [] => 0
  | v :: rest => max (levels v) (levelsOfItems rest)

def levelsOfEntries : List (Value × Value) → Nat
  | [] => 0
  | (_, v) :: rest => max (levels v) (levelsOfEntries rest)

end

end Value

end DocFilter
