import DocFilter.Failure
import DocFilter.Value.Display

/-!
The identifier of a record under its public name.
-/

namespace DocFilter

def checkKey (v : Value) : Except Failure Unit :=
  match v.unhashableKind? with
  | some kind => .error (.unhashable kind)
  | none => .ok ()

/-- The record with its native key replaced by the text of it under the public key, which comes
first; the other entries follow unchanged. What is not a mapping or has no native key stays as it
is. -/
def publishKey (nativeKey publicKey record : Value) : Except Failure Value := do
  match record with
  | .map entries =>
    checkKey nativeKey
    match Value.lookup? entries nativeKey with
    | none => pure record
    | some key =>
      checkKey publicKey
      let shown ← key.shown
      let rest := Value.eraseKey (Value.eraseKey entries nativeKey) publicKey
      pure (.map ((publicKey, .text shown) :: rest))
  | v => pure v

end DocFilter
