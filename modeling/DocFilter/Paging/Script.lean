import DocFilter.Paging.Collection

/-!
A scripted collection: its answers are fixed in advance, failures among them.
-/

namespace DocFilter

/-- The answers of a scripted collection: the records and the count, and the calls that fail. -/
structure Script where
  records : Value := .list []
  total : Value := .int 0
  failure? : Call → Option Failure := fun _ => none

namespace Script

/-- The answer to a call; steps of a query yield nothing. -/
def answer (s : Script) (call : Call) : Except Failure Value :=
  match s.failure? call, call with
  | some failure, _ => .error failure
  | none, .countDocuments _ => .ok s.total
  | none, .toList _ => .ok s.records
  | none, _ => .ok .null

/-- The scripted collection. It has no state of its own. -/
def collection (s : Script) : Collection Unit where
  answer call := Collection.lift (s.answer call)

end Script

end DocFilter
