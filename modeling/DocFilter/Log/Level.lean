/-!
Levels of log records.

A level is a number, the graver the greater. Some numbers have names; the others are called by their
numbers. No logger lets through what is below the least of the named levels.
-/

namespace DocFilter

structure LogLevel where
  number : Nat
  deriving DecidableEq, Repr

namespace LogLevel

def debug : LogLevel := ⟨10⟩

def info : LogLevel := ⟨20⟩

def warning : LogLevel := ⟨30⟩

def error : LogLevel := ⟨40⟩

def critical : LogLevel := ⟨50⟩

/-- The levels that have names, the least grave first. -/
def all : List LogLevel := [debug, info, warning, error, critical]

def name (level : LogLevel) : String :=
  match level.number with
  | 0 => "NOTSET"
  | 10 => "DEBUG"
  | 20 => "INFO"
  | 30 => "WARNING"
  | 40 => "ERROR"
  | 50 => "CRITICAL"
  | n => "Level " ++ toString n

def ofName? (s : String) : Option LogLevel := all.find? fun level => level.name = s

end LogLevel

end DocFilter
