import DocFilter.Store.Database
import DocFilter.Store.Plan

/-!
Selecting rows: visiting them as planned, sorting, skipping and limiting.

A visit reads the conditions, and for a row that satisfies them the values to sort by; so a failure
shows only if the visit reaches it. Once enough rows are found for the limit, and the order of
visits is the order of results, no further row is visited.
-/

namespace DocFilter

-- A power is the core library's, also in a file that sees other powers.
attribute [local instance (high)] instPowNat

structure Selection where
  conditions : List Condition
  order : List SortKey := []
  limit : Value := .int (-1)
  skip : Value := .int 0

namespace Selection

/-- The parameters, in the order of the question marks. -/
def params (s : Selection) : List Value :=
  Condition.paramsList s.conditions ++ s.order.flatMap (fun key => key.ref.params)
    ++ [s.limit, s.skip]

/-- The most sort keys of a statement, the order of insertion among them. -/
def maxSortKeys : Nat := 2000

/-- Refuses a statement of too many sort keys. -/
def checkOrder (s : Selection) : Except Failure Unit :=
  if maxSortKeys < s.order.length + 1 then .error (.store .tooManySortKeys) else .ok ()

/-- The integer that a real number is, if it lies strictly between the least and the greatest one of
64 bits. -/
def integral? (x : Binary64) : Option Int :=
  x.toInt?.filter fun n => -(2 ^ (63 : Nat)) < n && n < 2 ^ (63 : Nat) - 1

/-- The integer that a text names: a whole number, or a decimal without a fractional part. -/
def integerOfText? (s : String) : Option Int :=
  let cs := Text.trim Text.isAsciiBlank s.toList
  let (numeral, rest) := Numeral.take cs
  if rest ≠ [] ∨ (numeral.whole = [] ∧ numeral.fraction = []) then none
  else
    match numeral.toNumber with
    | .int n => if Scalar.fits n then some n else integral? (StoreReal.ofNumeral numeral)
    | .real _ => integral? (StoreReal.ofNumeral numeral)

/-- The integer that a limit or a number of rows to skip is. -/
def bound (v : Scalar) : Except StoreFault Int :=
  let found := match v with
    | .int n => some n
    | .real x => integral? x
    | .text s => integerOfText? s
    | _ => none
  match found with
  | some n => .ok n
  | none => .error .mismatch

/-- The number of rows after which no further row is visited, given how many are wanted from the
start of the results. Where the visits settle the first sort key only, the next row has to be seen
before the rows in front of it are complete. -/
def enough? (s : Selection) (plan : Plan) (wanted : Nat) : Option Nat :=
  if plan.settled = s.order.length + 1 then some wanted
  else if 0 < plan.settled then some (wanted + 1)
  else none

/-- A row that satisfies the conditions, with what it is sorted by and its place in the table. -/
structure Found where
  keys : List Scalar
  row : Row
  place : Nat

/-- Visits rows until enough are found. -/
def scan (conditions : List Condition) (refs : List Reference) :
    Option Nat → List (Row × Nat) → Except StoreFault (List Found)
  | _, [] => .ok []
  | some 0, _ :: _ => .ok []
  | enough, (row, place) :: rest => do
    if ← Condition.evalAll row.read conditions then
      let keys ← refs.mapM row.read
      let found ← scan conditions refs (enough.map (· - 1)) rest
      pure (⟨keys, row, place⟩ :: found)
    else scan conditions refs enough rest

/-- The rows that a plan finds, unless a condition that is decided early does not hold. -/
def explore (plan : Plan) (refs : List Reference) (enough : Option Nat) (rows : List Row) :
    Except StoreFault (List Found) := do
  if ← Condition.evalAll (Reading.ofKey plan.key) plan.early then
    scan plan.tests refs enough (plan.visited rows)
  else pure []

def compareKeys : List SortKey → List Scalar → List Scalar → Ordering
  | key :: keys, a :: as, b :: bs =>
    (if key.descending then b.compare a else a.compare b).then (compareKeys keys as bs)
  | _, _, _ => .eq

/-- Sorts rows; rows that are equal in all keys are in the order of the table. -/
def sortRows (order : List SortKey) (rows : List Found) : List Found :=
  rows.mergeSort fun a b =>
    (compareKeys order a.keys b.keys).then (compare a.place b.place) != .gt

/-- The rows that the statement yields, once its limits are known. A negative limit is none, and a
negative number of rows to skip is zero. -/
def select (s : Selection) (limit skip : Int) (rows : List Row) :
    Except StoreFault (List Row) := do
  let plan := Plan.toSort (Condition.conjunctsOf s.conditions) s.order
  let enough := if limit < 0 then none else s.enough? plan (skip.toNat + limit.toNat)
  let found ←
    if plan.settled = s.order.length + 1 then explore plan [] enough rows
    else (explore plan (s.order.map (·.ref)) enough rows).map (sortRows s.order)
  let rest := (found.map (·.row)).drop skip.toNat
  pure (if limit < 0 then rest else rest.take limit.toNat)

def run (s : Selection) (table : Table) : Except Failure (List Row) := do
  s.checkOrder
  Scalar.checkBindings 1 s.params
  let result : Except StoreFault (List Row) := do
    let limit ← bound (Scalar.ofValue s.limit)
    let skip ← bound (Scalar.ofValue s.skip)
    s.select limit skip table.rows
  result.mapError .store

end Selection

def countRows (conditions : List Condition) (table : Table) : Except Failure Nat := do
  Scalar.checkBindings 1 (Condition.paramsList conditions)
  let plan := Plan.toCount (Condition.conjunctsOf conditions)
  let found ← (Selection.explore plan [] none table.rows).mapError .store
  pure found.length

end DocFilter
