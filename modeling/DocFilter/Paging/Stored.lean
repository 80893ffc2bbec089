import DocFilter.Paging.Collection
import DocFilter.Store.Cursor

/-!
A table of a store as a collection.
-/

namespace DocFilter

/-- A table in use: the store it belongs to, its name, and the query under construction. -/
structure StoredTable where
  store : Store
  name : TableName
  cursor : Cursor := {}

namespace StoredTable

def refine (c : Cursor) : Call → Except Failure Cursor
  | .find conditions => Cursor.find conditions
  | .sort key direction => c.sortBy key direction
  | .skip count => .ok { c with skip := count }
  | .limit count => .ok { c with limit := count }
  | _ => .ok c

def answer (t : StoredTable) : Call → Except Failure Value
  | .countDocuments conditions =>
    (t.store.count t.name conditions).map fun n => .int n
  | .toList length => (t.cursor.toList t.store t.name length).map .list
  | _ => .ok .null

def collection : Collection StoredTable where
  answer call := do
    let t ← get
    let cursor ← Collection.lift (refine t.cursor call)
    set { t with cursor }
    Collection.lift (answer { t with cursor } call)

end StoredTable

end DocFilter
