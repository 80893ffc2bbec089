import DocFilter.Number.Binary64
import DocFilter.Text.Digit

/-!
Numbers read from text: decimal magnitudes rounded to the nearest binary64 number, floating texts,
and integers in the digits of any script.
-/

namespace DocFilter

-- A power is the core library's, also in a file that sees other powers.
attribute [local instance (high)] instPowNat

def digitsValue (digits : List Char) : Nat :=
  digits.foldl (fun n c => n * 10 + (c.toNat - 48)) 0

/-- The number of decimal digits of a positive whole number; 0 for zero. -/
def digitCount (n : Nat) : Nat := if n = 0 then 0 else (Nat.toDigits 10 n).length

namespace Binary64

/-- The number nearest to `digits * 10 ^ exponent`. Magnitudes from `10 ^ 310` overflow and those
below `10 ^ -330` vanish, so the powers of ten stay within bounds. -/
def ofDecimal (negative : Bool) (digits : Nat) (exponent : Int) : Binary64 :=
  let magnitude := exponent + digitCount digits
  if digits = 0 ∨ magnitude < -330 then ofRank negative 0
  else if 310 < magnitude then .infinite negative
  else if 0 ≤ exponent then ofRatio negative (digits * 10 ^ exponent.toNat) 1
  else ofRatio negative digits (10 ^ (-exponent).toNat)

end Binary64

/-- The parts of a written decimal: its sign, the digits before and after the point, and the
exponent. `isWhole` holds when there is neither point nor exponent. -/
structure Numeral where
  negative : Bool
  whole : List Char
  fraction : List Char
  exponent : Int
  isWhole : Bool

namespace Numeral

def takeSign : List Char → Bool × List Char
  | '-' :: rest => (true, rest)
  | '+' :: rest => (false, rest)
  | cs => (false, cs)

def takeExponent? : List Char → Option (Int × List Char)
  | c :: rest =>
    if c = 'e' ∨ c = 'E' then
      let (negative, rest) := takeSign rest
      let digits := rest.takeWhile Char.isDigit
      if digits = [] then none
      else
        let n : Int := digitsValue digits
        some (if negative then -n else n, rest.dropWhile Char.isDigit)
    else none
  | [] => none

/-- Splits a text into sign, digits, fraction and exponent, and gives what follows. -/
def take (cs : List Char) : Numeral × List Char :=
  let (negative, rest) := takeSign cs
  let whole := rest.takeWhile Char.isDigit
  let rest := rest.dropWhile Char.isDigit
  let (fraction, rest, point) := match rest with
    | '.' :: rest => (rest.takeWhile Char.isDigit, rest.dropWhile Char.isDigit, true)
    | rest => ([], rest, false)
  match takeExponent? rest with
  | some (exponent, rest) => (⟨negative, whole, fraction, exponent, false⟩, rest)
  | none => (⟨negative, whole, fraction, 0, !point⟩, rest)

def toBinary64 (n : Numeral) : Binary64 :=
  Binary64.ofDecimal n.negative (digitsValue (n.whole ++ n.fraction))
    (n.exponent - n.fraction.length)

/-- The exact integer when there is neither point nor exponent, else the nearest binary64 number. -/
def toNumber (n : Numeral) : Number :=
  if n.isWhole then
    let magnitude : Int := digitsValue n.whole
    .int (if n.negative then -magnitude else magnitude)
  else .real n.toBinary64

end Numeral

/-- Takes away the single underscores that stand between two digits; none if one stands
elsewhere. -/
def dropUnderscores? (afterDigit : Bool) : List Char → Option (List Char)
  | [] => some []
  | '_' :: c :: rest =>
    if afterDigit && c.isDigit then (dropUnderscores? true rest).map (c :: ·) else none
  | '_' :: [] => none
  | c :: rest => (dropUnderscores? c.isDigit rest).map (c :: ·)

/-- The text in ASCII digits; none if it holds another character outside ASCII. -/
def asciiDigits? (cs : List Char) : Option (List Char) :=
  cs.mapM fun c => match Text.digitValue? c with
    | some value => some (Char.ofNat (48 + value))
    | none => if c.val < 128 then some c else none

/-- The binary64 number that a floating text names: a decimal, `inf`, `infinity` or `nan` with an
optional sign, in any case, between blanks. -/
def Binary64.ofText? (s : String) : Option Binary64 := do
  let cs ← asciiDigits? (Text.trim Text.isBlank s.toList)
  let cs ← dropUnderscores? false cs
  let (negative, unsigned) := Numeral.takeSign cs
  let word := unsigned.map Char.toLower
  if word = "inf".toList ∨ word = "infinity".toList then some (.infinite negative)
  else if word = "nan".toList then some .nan
  else
    let (numeral, rest) := Numeral.take cs
    if rest ≠ [] ∨ (numeral.whole = [] ∧ numeral.fraction = []) then none
    else some numeral.toBinary64

/-- The most digits that an integer may be written with. -/
def maxIntegerDigits : Nat := 4300

/-- The integer that a text names: digits of any script with single underscores between them, after
an optional sign and between blanks. -/
def readInteger? (s : String) : Option Int := do
  let cs ← asciiDigits? (Text.trim Text.isBlank s.toList)
  let (negative, unsigned) := Numeral.takeSign cs
  let digits ← dropUnderscores? false unsigned
  if digits = [] ∨ !digits.all Char.isDigit ∨ maxIntegerDigits < digits.length then none
  else
    let magnitude : Int := digitsValue digits
    some (if negative then -magnitude else magnitude)

end DocFilter
