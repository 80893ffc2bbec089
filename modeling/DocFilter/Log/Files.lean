import DocFilter.Log.Message
import DocFilter.Text.Letter

/-!
Loggers, their handlers, and the files that records are written to.

Loggers form a tree by the points in their names. A record passes a logger if its level is at least
that of the logger, or of the nearest logger above it that has one; then it goes to the handlers of
the logger and of all loggers above it. A logger that is asked for the first time gets two handlers:
one for a file of its own, which takes every record, and one for the common file of errors.
-/

namespace DocFilter

/-- How a handler lays out a record. -/
inductive LogLayout
  | brief
  | located
  | block
  deriving DecidableEq

structure LogHandler where
  file : String
  layout : LogLayout
  threshold : Nat

structure Logger where
  name : String
  level : Nat
  handlers : List LogHandler

/-- When and where a record was made, as log files show it. -/
structure LogSite where
  time : String
  place : String

/-- The state of logging: how it is set up, the loggers asked for, and the files by name. -/
structure LogState where
  debug : Bool
  writesFiles : Bool
  loggers : List Logger := []
  files : List (String × String) := []

namespace LogState

def rootName : String := "docstore-query"

/-- The full name of a logger: its name behind its component, if it has one. -/
def fullName (name : String) (component : Option String) : String :=
  match component with
  | none | some "" => rootName ++ "." ++ name
  | some component => rootName ++ "." ++ component ++ "." ++ name

def find? (s : LogState) (name : String) : Option Logger :=
  s.loggers.find? fun logger => logger.name = name

/-- Appends text to a file, which is made if it is not there. -/
def append (files : List (String × String)) (name text : String) : List (String × String) :=
  match files with
  | [] => [(name, text)]
  | (other, content) :: rest =>
    if other = name then (other, content ++ text) :: rest
    else (other, content) :: append rest name text

def errorFile : String := "error.log"

def newHandlers (s : LogState) (name : String) : List LogHandler :=
  if s.writesFiles then
    [⟨Text.lower name ++ ".log", if s.debug then .located else .brief, 0⟩,
      ⟨errorFile, .block, LogLevel.error.number⟩]
  else []

/-- The logger of a name and a component, made if it is asked for the first time; its files are made
with it. -/
def get (s : LogState) (name : String) (component : Option String) : Logger × LogState :=
  let full := fullName name component
  match s.find? full with
  | some logger => (logger, s)
  | none =>
    let handlers := s.newHandlers name
    let logger : Logger := ⟨full, if s.debug then LogLevel.debug.number else 0, handlers⟩
    (logger, { s with
      loggers := s.loggers ++ [logger]
      files := handlers.foldl (fun files handler => append files handler.file "") s.files })

/-- The loggers above a name, the nearest first; the name is given reversed. A logger is above a
name if it is called what stands before a point of the name; the point in front of a point that led
to no logger is passed over. -/
def above (s : LogState) : List Char → List Logger
  | [] => []
  | [_] => []
  | c :: d :: rest =>
    if c = '.' then
      match s.find? (String.ofList (d :: rest).reverse) with
      | some logger => logger :: above s (d :: rest)
      | none => above s rest
    else above s (d :: rest)

/-- The loggers that a record of a logger reaches: itself and those above it. -/
def chain (s : LogState) (name : String) : List Logger :=
  (s.find? name).toList ++ s.above name.toList.reverse

/-- The level from which on a logger lets records through. -/
def effectiveLevel (s : LogState) (name : String) : Nat :=
  match (s.chain name).find? fun logger => logger.level ≠ 0 with
  | some logger => logger.level
  | none => LogLevel.warning.number

def noFailureLine : String := "NoneType: None"

/-- The text of a record in a layout, with the failure in progress behind it if that is asked
for. -/
def render (site : LogSite) (logger : String) (layout : LogLayout) (record : LogRecord)
    (withFailure : Bool) : String :=
  let head := site.time ++ " - " ++ logger ++ " - " ++ record.level.name
  let text := match layout with
    | .brief => head ++ " - " ++ record.message
    | .located => head ++ " - " ++ site.place ++ " - " ++ record.message
    | .block => head ++ " - " ++ site.place ++ "\n" ++ record.message ++ "\n"
  let text :=
    if withFailure then
      (if text.toList.getLast? = some '\n' then text else text ++ "\n") ++ noFailureLine
    else text
  text ++ "\n"

def write (s : LogState) (site : LogSite) (logger : String) (record : LogRecord)
    (withFailure : Bool) : LogState :=
  if s.effectiveLevel logger ≤ record.level.number then
    let handlers := ((s.chain logger).flatMap (·.handlers)).filter fun handler =>
      handler.threshold ≤ record.level.number
    let writeTo (files : List (String × String)) (handler : LogHandler) :=
      append files handler.file (render site logger handler.layout record withFailure)
    { s with files := handlers.foldl writeTo s.files }
  else s

def log (s : LogState) (site : LogSite) (logger : String) (level : LogLevel) (message : String)
    (context : Value) (withFailure : Bool) : Except Failure LogState :=
  (contextMessage message context).map fun text =>
    s.write site logger ⟨level, text⟩ withFailure

def sortedFiles (s : LogState) : List (String × String) :=
  s.files.mergeSort fun a b => a.1 ≤ b.1

end LogState

end DocFilter
