import DocFilter.Sql.Predicate
import DocFilter.Store.Insertion
import DocFilter.Store.Selection

/-!
Cursors: queries that are put together step by step and run at the end.

Each step replaces what an earlier step of its kind has set. Zero and null mean no limit and nothing
to skip, and a length given at the end applies only if it is the stricter bound. What a step was
given is looked at only when the query runs.
-/

namespace DocFilter

structure Cursor where
  conditions : List (Value × Value) := []
  sort : List Value := []
  skip : Value := .int 0
  limit : Value := .int 0

namespace Cursor

/-- The columns of every table. -/
def columns : Columns := {}

def find (conditions : Value) : Except Failure Cursor :=
  (conditions.orElse (.map [])).toEntries.map fun entries => { conditions := entries }

/-- Sets the sort: by one field, by the entries of a mapping, or by listed pairs. -/
def sortBy (c : Cursor) (key direction : Value) : Except Failure Cursor :=
  match key with
  | .text s =>
    let direction := match direction with
      | .null => .int 1
      | direction => direction
    .ok { c with sort := [.tuple [.text s, direction]] }
  | .map entries => .ok { c with sort := entries.map fun (field, sign) => .tuple [field, sign] }
  | v => v.elements.map fun items => { c with sort := items }

/-- The sort key of a pair of a field and a direction; only -1 means downwards. -/
def sortKey (pair : Value) : Except Failure SortKey := do
  let (field, direction) ← pair.unpackPair
  checkReference columns field
  pure ⟨referenceOf columns field, direction.equal (.int (-1))⟩

/-- The limit after a length is given at the end. -/
def effectiveLimit (limit length : Value) : Except Failure Value := do
  match length with
  | .null => pure limit
  | length =>
    if ← limit.relatesTo "<=" (· != .gt) 0 then pure length
    else if ← length.relates "<" (· == .lt) limit then pure length
    else pure limit

def limitParam (limit : Value) : Except Failure Value := do
  if !limit.isTruthy then pure (.int (-1))
  else if ← limit.relatesTo ">" (· == .gt) 0 then pure limit
  else pure (.int (-1))

/-- The statement of a query that is to yield at most `length` records. -/
def statement (c : Cursor) (length : Value) : Except Failure Selection := do
  let limit ← effectiveLimit c.limit length
  let conditions ← Condition.ofValue columns (.map c.conditions)
  let order ← c.sort.mapM sortKey
  let limit ← limitParam limit
  pure { conditions, order, limit, skip := c.skip.orElse (.int 0) }

def toList (c : Cursor) (store : Store) (name : TableName) (length : Value) :
    Except Failure (List Value) := do
  let statement ← c.statement length
  let table ← store.openTable name statement.conditions [columns.key.display]
  let rows ← statement.run table
  pure (rows.map Row.record)

end Cursor

def Store.count (store : Store) (name : TableName) (conditions : Value) : Except Failure Nat := do
  let conditions ← Condition.ofValue Cursor.columns conditions
  let named := (Condition.refsOf conditions).map (Reference.column Cursor.columns)
  let table ← store.openTable name conditions named
  countRows conditions table

end DocFilter
