import DocFilter.Session

/-!
Tables in use by several clients.

What the other clients do is fixed in advance, but not what comes of it: before each answer to a
call of this client they carry out the next part of their plans, on whatever the store has become.
So they can come in between two requests for pages and between any two calls of one request.
-/

namespace DocFilter

/-- A table in use by a client, and what the others do before each of the next answers. -/
structure SharedTable where
  table : StoredTable
  others : List (List (TableName × Step)) := []

namespace SharedTable

/-- The table when the others have carried out the next part of their plans. -/
def disturbed (t : SharedTable) : StoredTable :=
  { t.table with store := (t.table.store.run (t.others.headD [])).2 }

/-- The store that a later call finds, calls counted from 0. -/
def found (t : SharedTable) (call : Nat) : Store :=
  (t.table.store.run (t.others.take (call + 1)).flatten).2

def collection : Collection SharedTable where
  answer call := do
    let t ← get
    let (answer, table) := Action.on (StoredTable.collection.answer call) t.disturbed
    set (⟨table, t.others.tail⟩ : SharedTable)
    Collection.lift answer

end SharedTable

def Service.fetchAll {σ : Type} (s : Service) (c : Collection σ) :
    List Value → σ → List (Except Failure Page) × σ
  | [], state => ([], state)
  | query :: rest, state =>
    let outcome := s.fetch c query state
    let (results, state) := fetchAll s c rest outcome.state
    (outcome.result :: results, state)

end DocFilter
