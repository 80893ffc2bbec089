import DocFilter.Store.Route

/-!
Plans: in which order a statement reads its conditions and visits rows.

An equality with the key decides more than the route. The row is looked up, and since its key is
known beforehand, every other condition on the key alone is decided before any row is read, as are
the conditions that hold of every row or of none. So these can end a statement, or make it fail, on
an empty table.
-/

namespace DocFilter

namespace Condition

def keyEquality? : Condition → Option Value
  | compare .key .eq operand => some operand
  | oneOf .key [operand] => some operand
  | _ => none

/-- The operand of the last equality with the key among some conditions, and the other
conditions. -/
def lastKeyEquality? : List Condition → Option (Value × List Condition)
  | [] => none
  | condition :: rest =>
    match lastKeyEquality? rest with
    | some (operand, others) => some (operand, condition :: others)
    | none => condition.keyEquality?.map fun operand => (operand, rest)

theorem perm_of_lastKeyEquality? {conditions others : List Condition} {operand : Value}
    (h : lastKeyEquality? conditions = some (operand, others)) :
    ∃ equality, equality.keyEquality? = some operand ∧ conditions.Perm (equality :: others) := by
  induction conditions generalizing others with
  | nil => simp [lastKeyEquality?] at h
  | cons condition rest ih =>
    unfold lastKeyEquality? at h
    split at h
    · rename_i operand' others' hrest
      simp only [Option.some.injEq, Prod.mk.injEq] at h
      obtain ⟨rfl, rfl⟩ := h
      obtain ⟨equality, hequality, hperm⟩ := ih hrest
      exact ⟨equality, hequality, (hperm.cons condition).trans (List.Perm.swap ..)⟩
    · simp only [Option.map_eq_some_iff, Prod.mk.injEq] at h
      obtain ⟨found, hfound, rfl, rfl⟩ := h
      exact ⟨condition, hfound, List.Perm.refl _⟩

end Condition

/-- How a statement reads a table. -/
structure Plan where
  /-- The conditions that are decided before any row is read. -/
  early : List Condition
  /-- The key for which they are decided. -/
  key : Scalar := .null
  /-- The conditions that are read for a visited row, in order. -/
  tests : List Condition
  /-- Rows are visited in the order of keys, not of insertion. -/
  byKey : Bool
  /-- The order of keys runs downwards. -/
  descending : Bool := false
  /-- The number of sort keys whose order is the order of visits. -/
  settled : Nat := 0

namespace Plan

/-- The plan of looking up one key. There is at most one row, so nothing is left to sort, if the
order is looked at. -/
def lookup (operand : Value) (others : List Condition) (order : List SortKey) : Plan where
  early := others.filter fun c => !c.readsDocument
  key := Scalar.ofValue operand
  tests := .compare .key .eq operand :: others.filter Condition.readsDocument
  byKey := true
  settled := if Route.ignoresOrder order then 0 else order.length + 1

/-- The plan of following a route. Through the index, the conditions that say where to look come
first, then those that the index can decide, then the others; row after row, all come in the order
of the statement. -/
def follow (route : Route) (terms : List Condition) (order : List SortKey) (settled : Nat) : Plan where
  early := terms.filter Condition.isConstant
  tests :=
    if route.byKey then
      route.guides ++ terms.filter (fun c => !c.readsDocument)
        ++ terms.filter Condition.readsDocument
    else terms
  byKey := route.byKey
  descending := 0 < settled && order.head?.any (·.descending)
  settled

def toSort (terms : List Condition) (order : List SortKey) : Plan :=
  match Condition.lastKeyEquality? terms with
  | some (operand, others) => lookup operand others order
  | none =>
    let (route, settled) := Route.toSort terms order
    follow route terms order settled

def toCount (terms : List Condition) : Plan :=
  match Condition.lastKeyEquality? terms with
  | some (operand, others) => lookup operand others []
  | none => follow (Route.toCount terms) terms [] 0

def visited (p : Plan) (rows : List Row) : List (Row × Nat) :=
  let rows := rows.zipIdx
  if p.byKey then
    rows.mergeSort fun a b =>
      if p.descending then Scalar.compareTexts b.1.key a.1.key != .gt
      else Scalar.compareTexts a.1.key b.1.key != .gt
  else rows

/-- Every row is visited once, whatever the plan. -/
theorem visited_perm (p : Plan) (rows : List Row) : (p.visited rows).Perm rows.zipIdx := by
  unfold visited
  split
  · exact List.mergeSort_perm ..
  · exact List.Perm.refl _

end Plan

end DocFilter
