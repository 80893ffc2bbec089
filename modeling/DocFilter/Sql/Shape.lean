import DocFilter.Failure
import DocFilter.Sql.Condition

/-!
The shape of conditions: what they refer to, which conditions they are the conjunction of, and how
deep the expressions nest that their texts are.

A conjunction of several conditions nests to the left, so its depth grows by one with each of them;
the store reads no expression that is deeper than a bound.
-/

namespace DocFilter

/-- The column that a reference names. -/
def Reference.column (columns : Columns) : Reference → String
  | key => columns.key.display
  | path _ => columns.document.display

def Reference.depth : Reference → Nat
  | key => 1
  | path _ => 2

namespace Condition

mutual

def refs : Condition → List Reference
  | always => []
  | never => []
  | isNull ref => [ref]
  | isNotNull ref => [ref]
  | compare ref _ _ => [ref]
  | sameJson ref _ => [ref]
  | oneOf ref _ => [ref]
  | noneOf ref _ => [ref]
  | finds ref _ => [ref]
  | not condition => refs condition
  | nullOr ref condition => ref :: refs condition
  | all conditions => refsOf conditions

def refsOf : List Condition → List Reference
  | [] => []
  | condition :: rest => refs condition ++ refsOf rest

end

/-- The condition reads the document. -/
def readsDocument (condition : Condition) : Bool := condition.refs.any (· ≠ .key)

mutual

/-- The conditions of which a condition is the conjunction. -/
def conjuncts : Condition → List Condition
  | all conditions => conjunctsOf conditions
  | always => [always]
  | never => [never]
  | isNull ref => [isNull ref]
  | isNotNull ref => [isNotNull ref]
  | compare ref relation operand => [compare ref relation operand]
  | sameJson ref json => [sameJson ref json]
  | oneOf ref operands => [oneOf ref operands]
  | noneOf ref operands => [noneOf ref operands]
  | finds ref pattern => [finds ref pattern]
  | not condition => [not condition]
  | nullOr ref condition => [nullOr ref condition]

def conjunctsOf : List Condition → List Condition
  | [] => []
  | condition :: rest => conjuncts condition ++ conjunctsOf rest

end

/-- The depth of expressions of some depths joined one after the other. -/
def joinedDepth : List Nat → Nat
  | [] => 0
  | first :: rest => rest.foldl (fun deep depth => max deep depth + 1) first

mutual

/-- The depth of the expression that the text of a condition is. Membership in a list of one operand
is an equality with the operand under a sign. -/
def depth : Condition → Nat
  | always => 2
  | never => 2
  | isNull ref => ref.depth + 1
  | isNotNull ref => ref.depth + 1
  | compare ref _ _ => ref.depth + 1
  | sameJson ref _ => ref.depth + 2
  | oneOf ref operands => max ref.depth (if operands.length = 1 then 2 else 1) + 1
  | noneOf ref operands => max ref.depth (if operands.length = 1 then 2 else 1) + 2
  | finds ref _ => ref.depth + 1
  | not condition => depth condition + 1
  | nullOr ref condition => max (ref.depth + 1) (depth condition) + 1
  | all conditions => joinedDepth (depths conditions)

def depths : List Condition → List Nat
  | [] => []
  | condition :: rest => depth condition :: depths rest

end

/-- The greatest depth of an expression that the store reads. -/
def maxDepth : Nat := 1000

/-- Refuses a conjunction whose expression is too deep. -/
def checkDepth (conditions : List Condition) : Except StoreFault Unit :=
  if joinedDepth (depths conditions) ≤ maxDepth then .ok () else .error .tooDeep

end Condition

end DocFilter
