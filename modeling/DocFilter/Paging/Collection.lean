import DocFilter.Filter.Builder
import DocFilter.Failure

/-!
Collections as a service sees them, and how an expression is carried out on one.

A collection answers calls one after the other: a count, or a query that is started, refined and
run. An action on a collection may fail, and the collection keeps what it has become until then.
-/

namespace DocFilter

inductive Call
  | countDocuments (conditions : Value)
  | find (conditions : Value)
  | sort (key direction : Value)
  | skip (count : Value)
  | limit (count : Value)
  | toList (length : Value)

/-- An action on a state, which may fail and leaves a state either way. -/
abbrev Action (σ : Type) := ExceptT Failure (StateM σ)

/-- What comes of an action in a state, and the state after it. -/
def Action.on {σ α : Type} (x : Action σ α) (state : σ) : Except Failure α × σ := x.run state

/-- A collection with a state: how it answers a call. -/
structure Collection (σ : Type) where
  answer : Call → Action σ Value

namespace Collection

variable {σ : Type}

def lift {α : Type} (result : Except Failure α) : Action σ α := ExceptT.mk (pure result)

def sortPairs (sort : Value) : Except Failure Value :=
  match sort with
  | .map entries => .ok (.list (entries.map fun (field, sign) => .tuple [field, sign]))
  | v => .error (.noMember v.fullKindName "items")

/-- The calls between the start and the run of a query: a sort if one is set, a number to skip if it
is an integer, a limit if it is a positive integer. -/
def refinements (e : Expression) : Except Failure (List Call) := do
  let sorting ← if e.sort.isTruthy then
      (sortPairs e.sort).map fun pairs => [Call.sort pairs .null]
    else pure []
  let skipping := if e.skip.integer?.isSome then [Call.skip e.skip] else []
  let limiting := if e.limit.integer?.any (0 < ·) then [Call.limit e.limit] else []
  pure (sorting ++ skipping ++ limiting)

/-- The conditions of an expression; what is false or empty selects everything. -/
def conditionsOf (e : Expression) : Value := e.conditions.orElse (.map [])

def fetch (c : Collection σ) (e : Expression) : Action σ Value := do
  discard (c.answer (.find (conditionsOf e)))
  for call in ← lift (refinements e) do
    discard (c.answer call)
  c.answer (.toList .null)

/-- The collection with every call to it written down, before it is answered. -/
def recorded (c : Collection σ) : Collection (σ × List Call) where
  answer call := fun (state, calls) =>
    let (answer, state) := Action.on (c.answer call) state
    (answer, state, calls ++ [call])

def count (c : Collection σ) (e : Expression) : Action σ Value :=
  c.answer (.countDocuments (conditionsOf e))

end Collection

end DocFilter
