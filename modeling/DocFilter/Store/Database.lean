import DocFilter.Sql.Evaluation
import DocFilter.Sql.Shape
import DocFilter.Store.Listing

/-!
Tables of rows, and the database that holds them.

A table keeps its rows in the order of insertion, with distinct keys. Where there is no table of a
name there can be a listing, which has neither keys nor documents. A database lives in a file; one
in memory starts empty for every statement and is forgotten after it, and one whose directory is
missing cannot be opened.
-/

namespace DocFilter

/-- The keys of rows are pairwise distinct. -/
def Row.Distinct (rows : List Row) : Prop := (rows.map (·.key)).Nodup

/-- A table: the name it was made under, and its rows in the order of insertion. -/
structure Table where
  name : TableName
  rows : List Row := []

/-- Where a database is kept. -/
inductive Location
  | file
  | memory
  | missing
  deriving DecidableEq

structure Database where
  tables : List Table := []
  isFile : Bool := true

namespace Database

def find? (db : Database) (name : TableName) : Option Table :=
  db.tables.find? fun table => table.name.folded = name.folded

def listing? (db : Database) (name : TableName) : Except StoreFault (Option Listing) :=
  Listing.find? name db.tables.length db.isFile

/-- The table of a name, for a statement that reads it and names some columns in order. A listing
has rows, but neither of the columns. -/
def read? (db : Database) (name : TableName) (columns : List String) : Except StoreFault Table :=
  match db.find? name with
  | some table => .ok table
  | none => do
    match ← db.listing? name, columns with
    | some listing, [] =>
      let count ← listing.size
      pure ⟨name, List.replicate count ⟨"", ""⟩⟩
    | some _, column :: _ => .error (.noSuchColumn column)
    | none, _ => .error (.noSuchTable name.text)

theorem read?_of_find? {db : Database} {name : TableName} {table : Table}
    (h : db.find? name = some table) (columns : List String) :
    db.read? name columns = .ok table := by
  simp [read?, h]

def write? (db : Database) (name : TableName) : Except StoreFault Table := do
  name.checkWord
  match db.find? name with
  | some table => .ok table
  | none =>
    match ← db.listing? name with
    | some listing => .error (.notModifiable listing.name)
    | none => .error (.noSuchTable name.text)

/-- Makes a table unless there is one of that name. -/
def create (db : Database) (name : TableName) : Except StoreFault Database := do
  name.checkCreation
  match db.find? name with
  | some _ => .ok db
  | none => .ok { db with tables := db.tables ++ [{ name }] }

def setRows (db : Database) (name : TableName) (rows : List Row) : Database :=
  { db with tables := db.tables.map fun table =>
      if table.name.folded = name.folded then { table with rows } else table }

end Database

def Table.add (table : Table) (row : Row) : Except StoreFault Table :=
  if table.rows.any fun other => other.key = row.key then
    .error (.duplicateKey table.name.text)
  else .ok { table with rows := table.rows ++ [row] }

/-- A store: its database, and the number of keys it has made up so far. -/
structure Store where
  location : Location := .file
  database : Database := {}
  issued : Nat := 0

namespace Store

/-- The database that a statement sees. -/
def opened (s : Store) : Except StoreFault Database :=
  match s.location with
  | .file => .ok s.database
  | .memory => .ok { isFile := false }
  | .missing => .error .cannotOpen

/-- The table of a name, as a statement sees it that has some conditions and names some columns.
What the text of the statement shows fails before the table is looked for. -/
def openTable (s : Store) (name : TableName) (conditions : List Condition)
    (columns : List String) : Except Failure Table :=
  Except.mapError Failure.store do
    let db ← s.opened
    name.checkWord
    Condition.checkDepth conditions
    db.read? name columns

/-- The store after a statement has left a database behind. -/
def keep (s : Store) (db : Database) : Store :=
  match s.location with
  | .file => { s with database := db }
  | _ => s

@[simp] theorem location_keep (s : Store) (db : Database) : (s.keep db).location = s.location := by
  unfold keep
  split <;> rfl

end Store

end DocFilter
