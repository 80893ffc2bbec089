import DocFilter.Value.Display

/-!
Conditions of a statement: their forms, their text, and their parameters.

A condition refers to the key column or to a part of the stored document by a path. Its text holds
column names and question marks only; every operand, path and pattern is a parameter, listed in the
order of the question marks.
-/

namespace DocFilter

/-- What a condition looks at: the key column, or the document at a path. -/
inductive Reference
  | key
  | path (path : String)
  deriving DecidableEq

inductive Relation
  | eq | lt | le | gt | ge
  deriving DecidableEq, Repr

def Relation.sign : Relation → String
  | eq => "="
  | lt => "<"
  | le => "<="
  | gt => ">"
  | ge => ">="

/-- A condition on a stored row. -/
inductive Condition
  /-- Holds of every row. -/
  | always
  /-- Holds of no row. -/
  | never
  | isNull (ref : Reference)
  | isNotNull (ref : Reference)
  | compare (ref : Reference) (relation : Relation) (operand : Value)
  /-- The part of the document is the given one. -/
  | sameJson (ref : Reference) (json : String)
  | oneOf (ref : Reference) (operands : List Value)
  | noneOf (ref : Reference) (operands : List Value)
  /-- A written pattern is found in the text of the part. -/
  | finds (ref : Reference) (pattern : String)
  | not (condition : Condition)
  /-- The part is null, or the condition holds. -/
  | nullOr (ref : Reference) (condition : Condition)
  /-- All conditions hold; written in parentheses. -/
  | all (conditions : List Condition)

/-- The names of the two columns. -/
structure Columns where
  key : Value := .text "_id"
  document : Value := .text "doc"

namespace Reference

def sql (columns : Columns) : Reference → String
  | key => columns.key.display
  | path _ => "json_extract(" ++ columns.document.display ++ ", ?)"

def params : Reference → List Value
  | key => []
  | path p => [.text p]

end Reference

namespace Condition

/-- As many question marks as there are operands. -/
def marks (operands : List Value) : String := ",".intercalate (operands.map fun _ => "?")

mutual

def sql (columns : Columns) : Condition → String
  | always => "1=1"
  | never => "0=1"
  | isNull ref => ref.sql columns ++ " IS NULL"
  | isNotNull ref => ref.sql columns ++ " IS NOT NULL"
  | compare ref relation _ => ref.sql columns ++ " " ++ relation.sign ++ " ?"
  | sameJson ref _ => "json(" ++ ref.sql columns ++ ") = json(?)"
  | oneOf ref operands => ref.sql columns ++ " IN (" ++ marks operands ++ ")"
  | noneOf ref operands => ref.sql columns ++ " NOT IN (" ++ marks operands ++ ")"
  | finds ref _ => ref.sql columns ++ " REGEXP ?"
  | not condition => "NOT (" ++ sql columns condition ++ ")"
  | nullOr ref condition =>
    "(" ++ ref.sql columns ++ " IS NULL OR " ++ sql columns condition ++ ")"
  | all conditions => "(" ++ " AND ".intercalate (sqlList columns conditions) ++ ")"

def sqlList (columns : Columns) : List Condition → List String
  | [] => []
  | condition :: rest => sql columns condition :: sqlList columns rest

end

mutual

/-- The parameters of a condition, in the order of its question marks. -/
def params : Condition → List Value
  | always => []
  | never => []
  | isNull ref => ref.params
  | isNotNull ref => ref.params
  | compare ref _ operand => ref.params ++ [operand]
  | sameJson ref json => ref.params ++ [.text json]
  | oneOf ref operands => ref.params ++ operands
  | noneOf ref operands => ref.params ++ operands
  | finds ref pattern => ref.params ++ [.text pattern]
  | not condition => params condition
  | nullOr ref condition => ref.params ++ params condition
  | all conditions => paramsList conditions

def paramsList : List Condition → List Value
  | [] => []
  | condition :: rest => params condition ++ paramsList rest

end

def whereText (columns : Columns) (conditions : List Condition) : String :=
  match conditions with
  | [] => "1=1"
  | conditions => " AND ".intercalate (sqlList columns conditions)

end Condition

end DocFilter
