import DocFilter.Paging.Service
import DocFilter.Paging.Stored

/-!
Sessions: what clients do with the tables of a store, one step after the other.

A step works on one table and answers or fails; a table is used like this by its owner, or through a
service that answers requests for pages. Steps of several clients, or on several tables, form one
session in the order in which the store carries them out.
-/

namespace DocFilter

/-- One thing done with a table. -/
inductive Step
  | create
  | insert (documents : Value)
  | count (conditions : Value)
  | find (conditions : Value) (refinements : List Call) (length : Value)
  | fetch (service : Service) (request : Value)

inductive Answer
  | done
  | keys (keys : List Value)
  | count (n : Nat)
  | records (records : List Value)
  | page (page : Page)

namespace Store

/-- The records that a query finds in a table: it starts with conditions, is refined call by call,
and yields at most `length` records. -/
def find (s : Store) (name : TableName) (conditions : Value) (refinements : List Call)
    (length : Value) : Except Failure (List Value) := do
  let cursor ← Cursor.find conditions
  let cursor ← refinements.foldlM StoredTable.refine cursor
  cursor.toList s name length

def fetchPage (s : Store) (name : TableName) (service : Service) (request : Value) :
    Except Failure Page :=
  (service.fetch StoredTable.collection request { store := s, name }).result

/-- Carries out a step on a table. Only the making of a table and the insertion of documents change
the store. -/
def perform (s : Store) (name : TableName) : Step → Except Failure Answer × Store
  | .create =>
    let (made, s) := s.createTable name
    (made.map fun _ => .done, s)
  | .insert documents =>
    let (keys, s) := s.insert name documents
    (keys.map .keys, s)
  | .count conditions => ((s.count name conditions).map .count, s)
  | .find conditions refinements length =>
    ((s.find name conditions refinements length).map .records, s)
  | .fetch service request => ((s.fetchPage name service request).map .page, s)

def run (s : Store) : List (TableName × Step) → List (Except Failure Answer) × Store
  | [] => ([], s)
  | (name, step) :: rest =>
    let (answer, s) := s.perform name step
    let (answers, s) := run s rest
    (answer :: answers, s)

@[simp] theorem run_nil (s : Store) : s.run [] = ([], s) := rfl

@[simp] theorem run_cons (s : Store) (name : TableName) (step : Step)
    (rest : List (TableName × Step)) :
    s.run ((name, step) :: rest) =
      ((s.perform name step).1 :: ((s.perform name step).2.run rest).1,
        ((s.perform name step).2.run rest).2) := rfl

theorem run_append (s : Store) (before after : List (TableName × Step)) :
    s.run (before ++ after) =
      ((s.run before).1 ++ ((s.run before).2.run after).1, ((s.run before).2.run after).2) := by
  induction before generalizing s with
  | nil => rfl
  | cons head rest ih =>
    obtain ⟨name, step⟩ := head
    simp [ih]

end Store

end DocFilter
