import DocFilter.Failure
import DocFilter.Value.Display

/-!
Clauses of a filter request: a field, an operator and an operand.

The three parts are kept exactly as they were supplied; nothing is checked here.
-/

namespace DocFilter

/-- The entry of a mapping under a text key, or null when it has none. Anything but a mapping has no
entries to ask for. -/
def Value.entry (v : Value) (name : String) : Except Failure Value :=
  match v with
  | .map entries => .ok ((Value.lookup? entries (.text name)).getD .null)
  | v => .error (.noMember v.fullKindName "get")

structure Clause where
  field : Value
  operator : Value
  operand : Value

namespace Clause

def ofValue : Value → Except Failure Clause
  | .clause field operator operand => .ok ⟨field, operator, operand⟩
  | v => do
    let field ← v.entry "field"
    let operator ← v.entry "operator"
    let operand ← v.entry "value"
    pure ⟨field, operator, operand⟩

def toValue (c : Clause) : Value := .clause c.field c.operator c.operand

end Clause

def Value.elements (v : Value) : Except Failure (List Value) :=
  match v.elements? with
  | some items => .ok items
  | none => .error (.notIterable v.fullKindName)

def Value.operator? : Value → Option Operator
  | .operator op => some op
  | .text s => Operator.ofLiteral? s
  | _ => none

/-- The operator that a value is or names; anything else is unsupported. -/
def Value.toOperator (v : Value) : Except Failure Operator :=
  match v.operator? with
  | some op => .ok op
  | none => .error (.showing .unsupportedOperator v.shown)

end DocFilter
