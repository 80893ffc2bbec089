import DocFilter.Log.Files

/-!
Sessions of logging: loggers are asked for, and messages are logged on them.

A message is logged on a logger that has been asked for, and asking for it once more changes
nothing. So a step names its logger as a client asks for it, by a name and a component, and may log
a message on it.
-/

namespace DocFilter

/-- A message to log: where it comes from, how grave it is, and what is written with it. -/
structure LogCall where
  site : LogSite
  level : LogLevel
  message : String
  context : Value := .null
  withFailure : Bool := false

/-- One thing done with logging: a logger is asked for, and a message may be logged on it. -/
structure LogStep where
  name : String
  component : Option String := none
  call : Option LogCall := none

namespace LogState

/-- Carries out a step. Nothing is written if the context of the message cannot be written. -/
def perform (s : LogState) (step : LogStep) : Except Failure Unit × LogState :=
  let (logger, s) := s.get step.name step.component
  match step.call with
  | none => (.ok (), s)
  | some call =>
    match s.log call.site logger.name call.level call.message call.context call.withFailure with
    | .ok s => (.ok (), s)
    | .error failure => (.error failure, s)

def run (s : LogState) : List LogStep → List (Except Failure Unit) × LogState
  | [] => ([], s)
  | step :: rest =>
    let (result, s) := s.perform step
    let (results, s) := run s rest
    (result :: results, s)

@[simp] theorem run_nil (s : LogState) : s.run [] = ([], s) := rfl

@[simp] theorem run_cons (s : LogState) (step : LogStep) (rest : List LogStep) :
    s.run (step :: rest) =
      ((s.perform step).1 :: ((s.perform step).2.run rest).1,
        ((s.perform step).2.run rest).2) := rfl

theorem run_append (s : LogState) (before after : List LogStep) :
    s.run (before ++ after) =
      ((s.run before).1 ++ ((s.run before).2.run after).1, ((s.run before).2.run after).2) := by
  induction before generalizing s with
  | nil => rfl
  | cons step rest ih => simp [ih]

end LogState

end DocFilter
