import DocFilter.Json.Writer
import DocFilter.Log.Level

/-!
Messages of log records.
-/

namespace DocFilter

structure LogRecord where
  level : LogLevel
  message : String
  deriving DecidableEq

/-- A message with its context written behind it, if there is one. -/
def contextMessage (message : String) (context : Value) : Except Failure String :=
  if context.isTruthy then
    context.loggedJson.map fun json => message ++ " | Context: " ++ json
  else .ok message

end DocFilter
