import DocFilter.Store.Cursor

/-!
The texts of statements on tables.

A statement names its table between words that are always the same and columns, question marks and
signs; the name is put there as it was given. Everything else that a statement is about is a
parameter.
-/

namespace DocFilter

/-- A statement on a table: its making, the insertion of a row, a count, or a selection of rows. -/
inductive Statement
  | create
  | insert
  | count (conditions : List Condition)
  | select (selection : Selection)

/-- The text of a sort key. -/
def SortKey.sql (columns : Columns) (key : SortKey) : String :=
  key.ref.sql columns ++ (if key.descending then " DESC" else " ASC")

namespace Statement

/-- The text in front of the table. -/
def front : Statement → String
  | create => "CREATE TABLE IF NOT EXISTS "
  | insert => "INSERT INTO "
  | count _ => "SELECT COUNT(*) FROM "
  | select _ => "SELECT _id, doc FROM "

/-- The text behind the table. Rows that are equal in all sort keys come in the order of
insertion. -/
def back : Statement → String
  | create => " (_id TEXT PRIMARY KEY, doc TEXT NOT NULL)"
  | insert => " (_id, doc) VALUES (?, ?)"
  | count conditions => " WHERE " ++ Condition.whereText Cursor.columns conditions
  | select selection =>
    " WHERE " ++ Condition.whereText Cursor.columns selection.conditions
      ++ " ORDER BY "
      ++ ", ".intercalate (selection.order.map (SortKey.sql Cursor.columns) ++ ["rowid ASC"])
      ++ " LIMIT ? OFFSET ?"

/-- The text of a statement on the table that a text names. -/
def text (statement : Statement) (table : String) : String :=
  statement.front ++ table ++ statement.back

end Statement

end DocFilter
