import DocFilter.Store.Database

/-!
Transactions: what becomes of a database between the opening of a connection and its end.

The statements of a connection work on a copy, each of them as a whole. A commit makes the copy the
stored database, a rollback throws away what the statements since then have done. So rows that were
added before a later one is refused are in the copy, but never in the stored database.
-/

namespace DocFilter

/-- A connection: the stored database, and the copy that its statements work on. -/
structure Connection where
  stored : Database
  working : Database

namespace Connection

def ofDatabase (db : Database) : Connection := ⟨db, db⟩

def commit (c : Connection) : Connection := { c with stored := c.working }

/-- Undoes what the statements have done since the last commit. -/
def rollback (c : Connection) : Connection := { c with working := c.stored }

def insertRow (c : Connection) (name : TableName) (row : Row) : Except StoreFault Connection := do
  let table ← c.working.write? name
  let table ← table.add row
  pure { c with working := c.working.setRows name table.rows }

/-- Adds rows one after the other until one is refused; those in front of it stay in the copy. -/
def insertEach (c : Connection) (name : TableName) :
    List Row → Except StoreFault Unit × Connection
  | [] => (.ok (), c)
  | row :: rest =>
    match c.insertRow name row with
    | .ok c => insertEach c name rest
    | .error fault => (.error fault, c)

/-- Adds rows to a table, which has to be there even if there are no rows. -/
def insertRows (c : Connection) (name : TableName) (rows : List Row) :
    Except StoreFault Unit × Connection :=
  match c.working.write? name with
  | .ok _ => c.insertEach name rows
  | .error fault => (.error fault, c)

end Connection

/-- Runs statements on a new connection to a store. What they have done is committed if they succeed
and rolled back if one of them fails; what is stored then is what the store keeps. -/
def Store.transact (s : Store) (statements : Connection → Except StoreFault Unit × Connection) :
    Except StoreFault Unit × Store :=
  match s.opened with
  | .error fault => (.error fault, s)
  | .ok db =>
    match statements (Connection.ofDatabase db) with
    | (.ok (), c) => (.ok (), s.keep c.commit.stored)
    | (.error fault, c) => (.error fault, s.keep c.rollback.stored)

end DocFilter
