/-!
Calendar dates and timestamps, their ISO texts and the texts in which messages show them.
-/

namespace DocFilter

structure Date where
  year : Nat
  month : Nat
  day : Nat
  deriving DecidableEq

/-- A time of a day, to the microsecond, with an offset from universal time in microseconds when
one is known. -/
structure Timestamp where
  date : Date
  hour : Nat
  minute : Nat
  second : Nat
  microsecond : Nat
  offset : Option Int
  deriving DecidableEq

namespace Calendar

/-- A number in at least `width` digits. -/
def padded (width n : Nat) : List Char :=
  let digits := Nat.toDigits 10 n
  List.replicate (width - digits.length) '0' ++ digits

/-- The number written by exactly `width` digits, and what follows them. -/
def takeNumber? (width : Nat) (cs : List Char) : Option (Nat × List Char) :=
  let digits := cs.take width
  if digits.length = width ∧ digits.all Char.isDigit then
    some (digits.foldl (fun n c => n * 10 + (c.toNat - 48)) 0, cs.drop width)
  else none

def expect? (c : Char) : List Char → Option (List Char)
  | d :: rest => if c = d then some rest else none
  | [] => none

/-- A part that follows a mark, or a default where the mark is missing. -/
def takeAfter? (mark : Char) (width : Nat) (cs : List Char) : Option (Nat × List Char) :=
  match cs with
  | c :: rest => if c = mark then takeNumber? width rest else some (0, cs)
  | [] => some (0, cs)

end Calendar

namespace Date

open Calendar

def isoText (d : Date) : List Char :=
  padded 4 d.year ++ '-' :: padded 2 d.month ++ '-' :: padded 2 d.day

/-- The date at the front of a text, and what follows it. -/
def take? (cs : List Char) : Option (Date × List Char) := do
  let (year, cs) ← takeNumber? 4 cs
  let cs ← expect? '-' cs
  let (month, cs) ← takeNumber? 2 cs
  let cs ← expect? '-' cs
  let (day, cs) ← takeNumber? 2 cs
  some (⟨year, month, day⟩, cs)

def ofText? (s : String) : Option Date :=
  match take? s.toList with
  | some (date, []) => some date
  | _ => none

def text (d : Date) : String := String.ofList d.isoText

def shown (d : Date) : String := s!"datetime.date({d.year}, {d.month}, {d.day})"

/-- The number of days since the first of March of the year 0; years start in March, so that the
leap day is the last one of its year. -/
def dayNumber (d : Date) : Int :=
  let year : Int := if d.month ≤ 2 then d.year - 1 else d.year
  let month : Int := if d.month ≤ 2 then d.month + 9 else d.month - 3
  365 * year + year / 4 - year / 100 + year / 400 + (153 * month + 2) / 5 + d.day - 1

end Date

namespace Timestamp

open Calendar

/-- An offset of whole and fractional seconds as `+05:30`, `+00:00:01` or `-01:02:03.000004`. -/
def offsetText (offset : Int) : List Char :=
  let magnitude := offset.natAbs
  let seconds := magnitude / 1000000
  let micros := magnitude % 1000000
  let sign := if offset < 0 then '-' else '+'
  let tail :=
    if micros ≠ 0 then ':' :: padded 2 (seconds % 60) ++ '.' :: padded 6 micros
    else if seconds % 60 ≠ 0 then ':' :: padded 2 (seconds % 60)
    else []
  sign :: padded 2 (seconds / 3600) ++ ':' :: padded 2 (seconds / 60 % 60) ++ tail

def isoText (separator : Char) (t : Timestamp) : String :=
  let clock := padded 2 t.hour ++ ':' :: padded 2 t.minute ++ ':' :: padded 2 t.second
  let fraction := if t.microsecond = 0 then [] else '.' :: padded 6 t.microsecond
  let offset := match t.offset with
    | some offset => offsetText offset
    | none => []
  String.ofList (t.date.isoText ++ separator :: clock ++ fraction ++ offset)

/-- The offset at the end of an ISO text. One of no whole second is universal time. -/
def readOffset? : List Char → Option (Option Int)
  | [] => some none
  | sign :: cs => do
    let negative ← if sign = '-' then some true else if sign = '+' then some false else none
    let (hours, cs) ← takeNumber? 2 cs
    let (minutes, cs) ← takeAfter? ':' 2 cs
    let (seconds, cs) ← takeAfter? ':' 2 cs
    let (micros, cs) ← takeAfter? '.' 6 cs
    if cs ≠ [] then none
    else
      let whole : Int := (hours * 60 + minutes) * 60 + seconds
      let total := if whole = 0 then 0 else whole * 1000000 + micros
      some (some (if negative then -total else total))

def ofText? (s : String) : Option Timestamp := do
  let (date, cs) ← Date.take? s.toList
  let cs := cs.drop 1
  let (hour, cs) ← takeNumber? 2 cs
  let (minute, cs) ← takeAfter? ':' 2 cs
  let (second, cs) ← takeAfter? ':' 2 cs
  let (microsecond, cs) ← takeAfter? '.' 6 cs
  let offset ← readOffset? cs
  some ⟨date, hour, minute, second, microsecond, offset⟩

/-- The text in which messages show an offset: universal time by name, others as a span of days,
seconds and microseconds, of which only the days may be negative. -/
def shownOffset (offset : Int) : String :=
  if offset = 0 then "datetime.timezone.utc"
  else
    let days := offset / 86400000000
    let seconds := offset % 86400000000 / 1000000
    let micros := offset % 1000000
    let part (name : String) (n : Int) : List String :=
      if n = 0 then [] else [name ++ "=" ++ toString n]
    let span := ", ".intercalate
      (part "days" days ++ part "seconds" seconds ++ part "microseconds" micros)
    s!"datetime.timezone(datetime.timedelta({span}))"

/-- The text in which messages show a timestamp inside another value: seconds and microseconds are
left out from the end while they are zero. -/
def shown (t : Timestamp) : String :=
  let tail :=
    if t.microsecond ≠ 0 then [t.second, t.microsecond]
    else if t.second ≠ 0 then [t.second]
    else []
  let numbers := [t.date.year, t.date.month, t.date.day, t.hour, t.minute] ++ tail
  let offset := match t.offset with
    | some offset => ", tzinfo=" ++ shownOffset offset
    | none => ""
  let list := ", ".intercalate (numbers.map fun n => toString n)
  s!"datetime.datetime({list}{offset})"

/-- The microseconds since the first of March of the year 0, on the clock of the timestamp. -/
def localInstant (t : Timestamp) : Int :=
  ((((t.date.dayNumber * 24 + t.hour) * 60 + t.minute) * 60 + t.second) * 1000000
    + t.microsecond)

/-- The same instant. A timestamp without an offset is never the same as one with an offset. -/
def sameInstant (a b : Timestamp) : Bool :=
  match a.offset, b.offset with
  | none, none => a.localInstant == b.localInstant
  | some x, some y => a.localInstant - x == b.localInstant - y
  | _, _ => false

end Timestamp

end DocFilter
