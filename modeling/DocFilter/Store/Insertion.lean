import DocFilter.Json.Reader
import DocFilter.Json.Writer
import DocFilter.Store.Transaction
import DocFilter.Value.Mapping

/-!
Documents as rows: writing them when they are inserted and reading them when they are fetched.

The key of a document is its entry `_id`; a document without one, or with null, gets a key that the
store makes up. The other entries are written as the document. All documents are written before the
database is opened, and their rows are added in one transaction. A key that reads as the text of an
object identifier comes back as the identifier, every other key as the text.
-/

namespace DocFilter

/-- The name of the entry that holds the key. -/
def keyName : Value := .text "_id"

/-- A document to insert: its key and its row. -/
structure Entry where
  key : Value
  row : Row

namespace Entry

/-- The entry of a document, and the number of keys made up after it. -/
def ofValue (issued : Nat) (document : Value) : Except Failure (Entry × Nat) := do
  let entries ← document.toEntries
  let given := (Value.lookup? entries keyName).getD .null
  let (key, issued) : Value × Nat := match given with
    | .null => (.objectId (ObjectId.issued (issued + 1)), issued + 1)
    | key => (key, issued)
  let shown ← key.shown
  let json ← (Value.map (Value.eraseKey entries keyName)).storedJson
  pure (⟨key, ⟨shown, json⟩⟩, issued)

def ofValues (issued : Nat) : List Value → Except Failure (List Entry × Nat)
  | [] => .ok ([], issued)
  | document :: rest => do
    let (entry, issued) ← ofValue issued document
    let (entries, issued) ← ofValues issued rest
    pure (entry :: entries, issued)

end Entry

namespace Row

/-- The key of a row, an object identifier if its text names one. -/
def keyValue (row : Row) : Value :=
  match ObjectId.ofText? row.key with
  | some id => .objectId id
  | none => .text row.key

def documentEntries (row : Row) : List (Value × Value) :=
  match (Json.ofText? row.document).map Json.toValue with
  | some (.map entries) => entries
  | _ => []

/-- The record of a row: its key, then the entries of its document. -/
def record (row : Row) : Value :=
  .map (Value.insertEntries [(keyName, row.keyValue)] row.documentEntries)

end Row

namespace Store

def createTable (s : Store) (name : TableName) : Except Failure Unit × Store :=
  match s.opened with
  | .error fault => (.error (.store fault), s)
  | .ok db =>
    match db.create name with
    | .error fault => (.error (.store fault), s)
    | .ok db => (.ok (), s.keep db)

def entries (s : Store) (documents : Value) : Except Failure (List Entry × Nat) := do
  let items ← documents.elements
  Entry.ofValues s.issued items

/-- Inserts documents into a table and returns their keys. The keys that were made up for documents
that are not inserted are made up again. -/
def insert (s : Store) (name : TableName) (documents : Value) :
    Except Failure (List Value) × Store :=
  match s.entries documents with
  | .error failure => (.error failure, s)
  | .ok (entries, issued) =>
    match s.transact fun c => c.insertRows name (entries.map (·.row)) with
    | (.ok (), stored) => (.ok (entries.map (·.key)), { stored with issued })
    | (.error fault, stored) => (.error (.store fault), stored)

end Store

end DocFilter
