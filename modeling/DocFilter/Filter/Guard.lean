import DocFilter.Failure
import DocFilter.Value.Graph

/-!
Checks on what a request may contain.

An operand must not hold a mapping with a reserved key at any depth; a field name must be a text
that is not empty and does not hold the reserved sign; a paging parameter must be a whole number
that is not negative. A refusal shows what it is about, so it turns into another failure where that
cannot be shown.
-/

namespace DocFilter

/-- Refuses an operand that holds a reserved key, or a key that cannot be shown. -/
def checkOperand (v : Value) : Except Failure Unit :=
  match v.refusal? with
  | some failure => .error failure
  | none => .ok ()

def checkFieldName (v : Value) : Except Failure Unit :=
  match v with
  | .text s =>
    if s = "" then .error (.badFieldName v.inspect)
    else if s.toList.contains reservedSign then .error .reservedFieldName
    else .ok ()
  | v => .error (.showing .badFieldName v.inspected)

/-- Refuses a paging parameter that is neither missing nor a whole number from zero up. -/
def checkParameter (name : String) (v : Value) : Except Failure Unit :=
  match v with
  | .null => .ok ()
  | v =>
    match v.wholeNumber? with
    | none => .error (.showing (.notWhole name) v.inspected)
    | some n => if n < 0 then .error (.showing (.negative name) v.inspected) else .ok ()

end DocFilter
