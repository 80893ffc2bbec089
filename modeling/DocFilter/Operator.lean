/-!
The operators of a filter clause.

Each operator has one literal; the two negated set and pattern operators may also be spelled with a
space. Nothing else names an operator.
-/

namespace DocFilter

inductive Operator
  | lt | lte | gt | gte | eq | ne | isIn | notIn | like | notLike
  deriving DecidableEq, Repr

namespace Operator

def all : List Operator := [lt, lte, gt, gte, eq, ne, isIn, notIn, like, notLike]

def literal : Operator → String
  | lt => "<"
  | lte => "<="
  | gt => ">"
  | gte => ">="
  | eq => "="
  | ne => "!="
  | isIn => "in"
  | notIn => "not_in"
  | like => "like"
  | notLike => "not_like"

def memberName : Operator → String
  | lt => "LT"
  | lte => "LTE"
  | gt => "GT"
  | gte => "GTE"
  | eq => "EQ"
  | ne => "NE"
  | isIn => "IN"
  | notIn => "NOT_IN"
  | like => "LIKE"
  | notLike => "NOT_LIKE"

/-- The key of the operator in compiled conditions. -/
def conditionKey : Operator → String
  | lt => "$lt"
  | lte => "$lte"
  | gt => "$gt"
  | gte => "$gte"
  | eq => "$eq"
  | ne => "$ne"
  | isIn => "$in"
  | notIn => "$nin"
  | like => "$regex"
  | notLike => "$not"

/-- The literal that a spelling stands for: the spaced spellings are aliases. -/
def canonicalSpelling (s : String) : String :=
  if s = "not in" then "not_in" else if s = "not like" then "not_like" else s

def ofLiteral? (s : String) : Option Operator :=
  all.find? fun op => op.literal = canonicalSpelling s

@[simp] theorem ofLiteral?_literal (op : Operator) : ofLiteral? op.literal = some op := by
  cases op <;> rfl

def ofMemberName? (name : String) : Option Operator := all.find? fun op => op.memberName = name

@[simp] theorem ofMemberName?_memberName (op : Operator) :
    ofMemberName? op.memberName = some op := by
  cases op <;> rfl

/-- The operand is a collection of alternatives. -/
def takesList (op : Operator) : Bool := op = isIn || op = notIn

/-- The operand is a text to look for. -/
def takesText (op : Operator) : Bool := op = like || op = notLike

end Operator

end DocFilter
