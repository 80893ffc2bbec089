import DocFilter.Failure
import DocFilter.Value.Display

/-!
Names of tables.

A table name is the only text of a request that becomes part of a statement, so it must be an
identifier: a letter or an underscore, then letters, digits and underscores, all of them ASCII. One
line feed behind it is let through, which the store reads as a blank. Names that differ by case only
are one table, and the store keeps some words and one family of names for itself.
-/

namespace DocFilter

/-- An identifier that names a table. -/
structure TableName where
  text : String
  deriving DecidableEq

namespace TableName

def isInitial (c : Char) : Bool := c.isAlpha || c = '_'

def isInner (c : Char) : Bool := c.isAlphanum || c = '_'

def isIdentifier : List Char → Bool
  | [] => false
  | c :: rest => isInitial c && rest.all isInner

/-- The text without one line feed at its end. -/
def dropLineFeed (cs : List Char) : List Char :=
  if cs.getLast? = some '\n' then cs.dropLast else cs

/-- The table that a value names. -/
def ofValue (v : Value) : Except Failure TableName :=
  match v with
  | .text s =>
    let name := dropLineFeed s.toList
    if isIdentifier name then .ok ⟨String.ofList name⟩ else .error (.badTableName v.inspect)
  | .bytes _ => .error .tableBytes
  | v => .error (.tableNotText v.fullKindName)

def folded (t : TableName) : String := String.ofList (t.text.toList.map Char.toLower)

/-- The words that cannot name a table. -/
def reservedWords : List String := [
  "add", "all", "alter", "and", "as", "autoincrement", "between", "case", "check", "collate",
  "commit", "constraint", "create", "default", "deferrable", "delete", "distinct", "drop", "else",
  "escape", "except", "exists", "foreign", "from", "group", "having", "in", "index", "insert",
  "intersect", "into", "is", "isnull", "join", "limit", "not", "nothing", "notnull", "null", "on",
  "or", "order", "primary", "references", "returning", "select", "set", "table", "then", "to",
  "transaction", "union", "unique", "update", "using", "values", "when", "where"]

def isReserved (t : TableName) : Bool := reservedWords.contains t.folded

/-- The name belongs to the family that the store keeps for itself. -/
def isInternal (t : TableName) : Bool := "sqlite_".isPrefixOf t.folded

/-- Refuses a name with which no statement can be read. -/
def checkWord (t : TableName) : Except StoreFault Unit :=
  if t.isReserved then .error (.unexpectedWord t.text) else .ok ()

/-- Refuses a name under which no table can be made. The word `if` is read as a part of the
statement that makes the table, and what the store then notes down cannot be read back. -/
def checkCreation (t : TableName) : Except StoreFault Unit :=
  if t.isReserved then .error (.unexpectedWord t.text)
  else if t.isInternal then .error (.reservedTable t.text)
  else if t.folded = "if" then .error (.malformedSchema t.text)
  else .ok ()

end TableName

end DocFilter
