import DocFilter.Failure
import DocFilter.Json.Basic
import DocFilter.Json.Escape
import DocFilter.Number.Decimal
import DocFilter.Value.Display

/-!
Writing values as documents.

Null, truth values, numbers, texts, lists, tuples and mappings have a written form, integers only as
long as they can be shown. Keys that are numbers, truth values or null are written as texts. Every
other value needs a stand-in text, which the caller chooses: the store gives one to identifiers and
dates, the log to every value that can be shown.
-/

namespace DocFilter.Value

def writeKey : Value → Except Failure (List Char)
  | text s => .ok (Json.escape s.toList)
  | null => .ok "null".toList
  | bool b => .ok (if b then "true".toList else "false".toList)
  | int n => if isShort n then .ok (toString n).toList else .error .integerTooLong
  | real x => .ok x.documentText.toList
  | v => .error (.keyNotWritable v.fullKindName)

def writeReal (x : Binary64) : Json :=
  if x.isFinite then .number x.text.toList else .special x

def writeText (s : String) : Json := .text (Json.escape s.toList)

mutual

/-- The written form of a value, where `standIn` gives the text of values without one. -/
def write (standIn : Value → Except Failure String) : Value → Except Failure Json
  | null => .ok .null
  | bool b => .ok (.bool b)
  | int n => if isShort n then .ok (.number (toString n).toList) else .error .integerTooLong
  | real x => .ok (writeReal x)
  | text s => .ok (writeText s)
  | list items => (writeItems standIn items).map .array
  | ring items => (writeItems standIn items).bind fun _ => .error .circular
  | tuple items => (writeItems standIn items).map .array
  | map entries => (writeEntries standIn entries).map .object
  | v => (standIn v).map writeText

def writeItems (standIn : Value → Except Failure String) :
    List Value → Except Failure (List Json)
  | [] => .ok []
  | v :: rest =>
    (write standIn v).bind fun json => (writeItems standIn rest).map fun jsons => json :: jsons

def writeEntries (standIn : Value → Except Failure String) :
    List (Value × Value) → Except Failure (List (List Char × Json))
  | [] => .ok []
  | (k, v) :: rest =>
    (writeKey k).bind fun key =>
      (write standIn v).bind fun json =>
        (writeEntries standIn rest).map fun members => (key, json) :: members

end

/-- The text that stands for a value in stored documents: identifiers and dates have one. -/
def storedText : Value → Except Failure String
  | objectId id => .ok id.text
  | timestamp t => .ok (t.isoText 'T')
  | date d => .ok d.text
  | v => .error (.notWritable v.kindName)

def storedJson (v : Value) : Except Failure String := (v.write storedText).map Json.spaced

/-- How deeply the collections of a value may lie in one another where it is written to a log. -/
def logRoom : Nat := 960

/-- The text of a value in a log record, where values without a written form are shown. -/
def loggedJson (v : Value) : Except Failure String :=
  if logRoom < v.levels then .error .documentTooDeep else (v.write shown).map Json.spaced

end DocFilter.Value
