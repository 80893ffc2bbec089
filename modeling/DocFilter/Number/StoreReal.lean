import DocFilter.Number.Decimal
import DocFilter.Number.Extended

/-!
Texts of real numbers in the store.

Where the store turns a text into a number or a number into a text, it scales by powers of ten in
arithmetic of 64 significant bits. The results are mostly, but not always, the nearest ones: reading
gathers at most nineteen digits before it scales, and writing adds half a unit of the fifteenth
digit and then cuts, so that what is lost on the way decides where a value lies close to a half.
-/

namespace DocFilter.StoreReal

-- A power is the core library's, also in a file that sees other powers.
attribute [local instance (high)] instPowNat

def ten : Extended := Extended.ofNat 10

/-! ### Reading -/

/-- The power of ten by repeated squaring. `fuel` bounds the number of squarings. -/
def pow10 (fuel : Nat) (power result : Extended) (exponent : Nat) : Extended :=
  let result := if exponent % 2 = 1 then result.mul power else result
  match fuel with
  | 0 => result
  | fuel + 1 =>
    if exponent / 2 = 0 then result
    else pow10 fuel (power.mul power) result (exponent / 2)

def scale (exponent : Nat) : Extended := pow10 16 ten (Extended.ofNat 1) exponent

/-- From this significand on further digits are dropped. -/
def significandBound : Nat := (2 ^ (63 : Nat) - 1 - 9) / 10

/-- The digits before the point: the significand and the number of digits dropped behind it. -/
def gatherWhole (digits : List Char) : Nat × Nat :=
  digits.foldl (fun (s, dropped) c =>
    if s < significandBound then (s * 10 + (c.toNat - 48), dropped) else (s, dropped + 1)) (0, 0)

/-- The digits behind the point: the significand and the number of digits taken into it. -/
def gatherFraction (significand : Nat) (digits : List Char) : Nat × Nat :=
  digits.foldl (fun (s, taken) c =>
    if s < significandBound then (s * 10 + (c.toNat - 48), taken + 1) else (s, taken))
    (significand, 0)

/-- Moves powers of ten from the exponent into the significand while it stays within 63 bits. -/
def absorb : Nat → Nat → Nat × Nat
  | s, 0 => (s, 0)
  | s, e + 1 => if (2 ^ (63 : Nat) - 1) / 10 ≤ s then (s, e + 1) else absorb (s * 10) e

/-- Moves zeros at the end of the significand into the exponent below it. -/
def release : Nat → Nat → Nat × Nat
  | s, 0 => (s, 0)
  | s, e + 1 => if s % 10 = 0 then release (s / 10) e else (s, e + 1)

/-- The magnitude `10 ^ 308` as a count of units. -/
def tenTo308 : Nat := Binary64.unitsOfRank (Binary64.nearestRank (10 ^ (308 : Nat) * Binary64.one) 1)

def scaleUp (negative : Bool) (s exponent : Nat) : Binary64 :=
  let (s, e) := absorb s exponent
  if e ≤ 307 then ((Extended.ofNat s).mul (scale e)).toBinary64 negative
  else if e < 342 then
    (((Extended.ofNat s).mul (scale (e - 308))).toBinary64 negative).mul
      (Binary64.ofRatio false (10 ^ (308 : Nat)) 1)
  else .infinite negative

def scaleDown (negative : Bool) (s exponent : Nat) : Binary64 :=
  let (s, e) := release s exponent
  if e ≤ 307 then ((Extended.ofNat s).div (scale e)).toBinary64 negative
  else if e < 342 then
    (((Extended.ofNat s).div (scale (e - 308))).toBinary64 negative).divUnits tenTo308
  else Binary64.ofRank negative 0

def exponentBound : Int := 10000

def ofNumeral (n : Numeral) : Binary64 :=
  let (significand, dropped) := gatherWhole n.whole
  let (significand, taken) := gatherFraction significand n.fraction
  let exponent := max (-exponentBound) (min exponentBound n.exponent) + dropped - taken
  if significand = 0 then Binary64.ofRank n.negative 0
  else if 0 ≤ exponent then scaleUp n.negative significand exponent.toNat
  else scaleDown n.negative significand (-exponent).toNat

/-! ### Writing -/

/-- The binary64 number nearest to a power of ten, such as `10 ^ 100` or `10 ^ -8`. -/
def near (exponent : Int) : Extended := Extended.ofBinary64 (Binary64.ofDecimal false 1 exponent)

/-- Multiplies a scale by the power of ten `10 ^ step` while it does not exceed `x`, and keeps count
of the tens. `fuel` bounds the number of multiplications. -/
def climb (x : Extended) (step : Nat) : Nat → Extended × Int → Extended × Int
  | 0, state => state
  | fuel + 1, (scale, exponent) =>
    let next := (near step).mul scale
    if next.le x then climb x step fuel (next, exponent + step) else (scale, exponent)

/-- Multiplies a number by `10 ^ step` while it is below `bound`, and keeps count of the tens. -/
def lift (bound : Extended) (step : Nat) : Nat → Extended × Int → Extended × Int
  | 0, state => state
  | fuel + 1, (x, exponent) =>
    if bound.le x then (x, exponent)
    else lift bound step fuel (x.mul (near step), exponent - step)

/-- The scale of a number: a power of ten that does not exceed it, or 1, with its exponent. -/
def scaleOf (x : Extended) : Extended × Int :=
  climb x 1 10 (climb x 10 10 (climb x 100 4 (Extended.ofNat 1, 0)))

/-- A positive number as one of at least 1 and about 10 at most, times a power of ten. -/
def normalize (x : Extended) : Extended × Int :=
  let scale := scaleOf x
  lift (Extended.ofNat 1) 1 10 (lift (near (-8)) 8 50 (x.div scale.1, scale.2))

def digitCount : Nat := 15

/-- Half a unit of the last digit written, as the product of two binary64 numbers. -/
def halfUnit : Extended :=
  Extended.ofBinary64 ((Binary64.ofDecimal false 5 (-5)).mul (Binary64.ofDecimal false 1 (-10)))

/-- The first digits of a number below ten, each cut off before the rest is multiplied by ten. -/
def leadingDigits : Nat → Extended → List Char
  | 0, _ => []
  | count + 1, x => Nat.digitChar x.floor :: leadingDigits count (x.fraction.mul ten)

/-- The decimal of a positive number. Half a unit may take it to ten, and then it is scaled once
more. -/
def decimal (x : Extended) : Decimal :=
  let normal := normalize x
  let rounded := normal.1.add halfUnit
  if ten.le rounded then
    ⟨Decimal.dropZeros (leadingDigits digitCount (rounded.mul (near (-1)))), normal.2 + 1⟩
  else ⟨Decimal.dropZeros (leadingDigits digitCount rounded), normal.2⟩

def layout : Decimal.Layout := ⟨-4, 15, true⟩

def text : Binary64 → String
  | .nan => ""
  | .infinite negative => if negative then "-Inf" else "Inf"
  | .finite negative rank =>
    if rank.val = 0 then "0.0"
    else
      let digits := (decimal (Extended.ofBinary64 (.finite false rank))).write layout
      String.ofList (if negative then '-' :: digits else digits)

end DocFilter.StoreReal
