import DocFilter.Sql.Evaluation
import DocFilter.Sql.Shape
import DocFilter.Store.Estimate

/-!
Routes: the ways in which a statement can find the rows of a table.

Rows are visited one after the other as they were inserted, or through the index of keys, in the
order of keys and only where conditions on the key allow them. Which conditions a statement reads
first, and how many rows it visits, depends on the route, and shows when reading a row can fail.

The store weighs the routes by estimates alone, since it keeps no statistics: a table is taken to
have about a million rows, equality with a key finds one of them, a bound on the keys keeps a
quarter, two bounds one in sixty-four, and each further condition a little less than all. A route
that yields rows in the order asked for saves the work of sorting them; but an order of too many
sort keys is not looked at, and then the rows are found as if to count them, and sorted.
-/

namespace DocFilter

/-- A sort key: what to sort by, and whether downwards. -/
structure SortKey where
  ref : Reference
  descending : Bool
  deriving DecidableEq

namespace Condition

/-- The condition holds of every row or of no row. -/
def isConstant (condition : Condition) : Bool := condition.refs.isEmpty

def isKeyNull : Condition → Bool
  | isNull .key => true
  | _ => false

def isKeyPresent : Condition → Bool
  | isNotNull .key => true
  | _ => false

/-- The number of keys that a condition lists. -/
def listedKeys? : Condition → Option Nat
  | oneOf .key operands => some operands.length
  | _ => none

def boundsBelow : Condition → Bool
  | compare .key .gt _ => true
  | compare .key .ge _ => true
  | _ => false

def boundsAbove : Condition → Bool
  | compare .key .lt _ => true
  | compare .key .le _ => true
  | _ => false

end Condition

structure Route where
  /-- Rows are found through the index of keys, in the order of keys. -/
  byKey : Bool
  /-- The conditions that say where in the index rows are looked for. -/
  guides : List Condition := []
  /-- The guides name all keys that there can be. -/
  isListed : Bool := false
  /-- The estimated work. -/
  work : Estimate
  /-- The estimated number of rows that satisfy all conditions. -/
  yield : Estimate

namespace Route

def tableSize : Estimate := 200

/-- The work of a visit to one row, compared with reading it from the index. -/
def visitWork : Estimate := 16

/-- The work of reading an entry of the index. -/
def entryWork : Estimate := 13

/-- The work of finding a number of rows next to each other in the index. Unless the index holds all
that the statement reads, each of them is visited as well. -/
def searchWork (covering : Bool) (found : Estimate) : Estimate :=
  let search := Estimate.sum (Estimate.logarithm tableSize) (found + entryWork)
  if covering then search else Estimate.sum search (found + visitWork)

/-- The number of conditions at the front that the index can decide. When it can decide all of them,
the presence of the key is checked once more. -/
def decidedFirst (terms : List Condition) : Nat :=
  let decided := terms.takeWhile fun c => !c.readsDocument
  if decided.length = terms.length then terms.length + terms.countP Condition.isKeyPresent
  else decided.length

/-- What is found after the conditions that a route does not use have been read, each of which is
taken to drop a little. -/
def yieldOf (terms : List Condition) (found : Estimate) (used : Nat) : Estimate :=
  found - (terms.countP (fun c => !c.isConstant) - used : Int)

def table (terms : List Condition) : Route where
  byKey := false
  work := tableSize + visitWork
  yield := yieldOf terms tableSize 0

/-- Key after key. A key that has to be present is one that the index is searched for. -/
def wholeIndex (covering : Bool) (terms : List Condition) : Route :=
  let entries := tableSize + entryWork
  let visits := tableSize + visitWork - decidedFirst terms
  let work := if covering then entries else Estimate.sum entries visits
  let yield := yieldOf terms tableSize 0
  if terms.any Condition.isKeyPresent then
    { byKey := true, work := min work (searchWork covering (tableSize - 1)), yield := yield - 1 }
  else { byKey := true, work, yield }

def nullKey (covering : Bool) (terms : List Condition) (guide : Condition) : Route where
  byKey := true
  guides := [guide]
  isListed := true
  work := searchWork covering 10
  yield := yieldOf terms 10 1

def listedKeys (covering : Bool) (terms : List Condition) (guide : Condition) (count : Nat) :
    Route where
  byKey := true
  guides := [guide]
  isListed := true
  work := searchWork covering 0 + Estimate.ofCount count
  yield := yieldOf terms (Estimate.ofCount count) 1

/-- The search between bounds, the first from each side. A key that has to be present is bounded
from below by null, which counts as a bound but drops nothing by itself. -/
def bounded? (covering : Bool) (terms : List Condition) : Option Route :=
  let below := terms.find? Condition.boundsBelow
  let above := terms.find? Condition.boundsAbove
  let guides := below.toList ++ above.toList
  let isBelow := below.isSome || terms.any Condition.isKeyPresent
  let bounds := isBelow.toNat + above.isSome.toNat
  let found := tableSize - 20 * guides.length - (if bounds = 2 then 20 else 0)
  if guides.isEmpty then none
  else some {
    byKey := true, guides, work := searchWork covering found, yield := yieldOf terms found bounds }

/-- All routes. The whole index is a route only if it holds all that is read, or to sort by it. -/
def routes (covering sorted : Bool) (terms : List Condition) : List Route :=
  table terms ::
    (if covering || sorted then [wholeIndex covering terms] else [])
    ++ (terms.filter Condition.isKeyNull).map (nullKey covering terms)
    ++ terms.filterMap (fun c => c.listedKeys?.map (listedKeys covering terms c))
    ++ (bounded? covering terms).toList

/-- Compares estimates one after the other, the first difference deciding. -/
def precedes : List Estimate → List Estimate → Bool
  | a :: as, b :: bs => a < b || (a = b && precedes as bs)
  | _, _ => false

def best (weight : Route → List Estimate) (first : Route) (others : List Route) : Route :=
  others.foldl (fun best r => if precedes (weight r) (weight best) then r else best) first

/-- The number of sort keys that an order has to stay below to be looked at. -/
def sortKeyBound : Nat := 63

/-- The order has so many sort keys that it is not looked at. -/
def ignoresOrder (order : List SortKey) : Bool := sortKeyBound ≤ order.length

/-- The number of sort keys whose order is the order of visits. The last sort key is always the
order of insertion. Rows of equal keys are not expected among listed keys, so there all further sort
keys are settled with the key; otherwise only the order of insertion, if it comes next. -/
def settled (r : Route) (order : List SortKey) : Nat :=
  match r.byKey, order with
  | false, [] => 1
  | true, ⟨.key, descending⟩ :: rest =>
    if r.isListed then order.length + 1
    else if rest = [] ∧ !descending then 2 else 1
  | _, _ => 0

/-- The work of sorting an estimated number of rows by the sort keys that are left. -/
def sortWork (rows : Estimate) (settled keys : Nat) : Estimate :=
  let share := Estimate.ofCount ((keys - settled) * 100 / keys) - Estimate.ofCount 100
  rows + share + visitWork + Estimate.logarithm rows

/-- The estimates by which routes to sorted rows are compared: the work with sorting, which is a
little dearer than it seems, then the rows, then the work without sorting. -/
def sortedWeight (rows : Estimate) (order : List SortKey) (r : Route) : List Estimate :=
  let keys := order.length + 1
  let settled := r.settled order
  if settled = keys then [r.work, r.yield, r.work - 2]
  else [Estimate.sum r.work (sortWork rows settled keys) + 5, r.yield, r.work]

def cheapest (covering sorted : Bool) (terms : List Condition) : Route :=
  best (fun r => [r.work, r.yield]) (table terms) (routes covering sorted terms)

def toCount (terms : List Condition) : Route :=
  cheapest (!terms.any Condition.readsDocument) false terms

/-- The route of a statement that sorts rows, and the number of sort keys that it settles. How many
rows will have to be sorted is estimated by the route of least work. -/
def toSort (terms : List Condition) (order : List SortKey) : Route × Nat :=
  if ignoresOrder order then (cheapest false false terms, 0)
  else
    let first := cheapest false true terms
    let rows := first.yield + 1
    if rows = 0 then (first, 0)
    else
      let chosen := best (sortedWeight rows order) (table terms) (routes false true terms)
      (chosen, chosen.settled order)

end Route

end DocFilter
