/-!
Binary64 numbers as exact values.

A finite magnitude is named by its rank: the number of smaller non-negative magnitudes. Ranks grow
with the magnitudes, so order and neighbourhood are those of the natural numbers, and the value of
a rank is a whole number of units, one unit being the least positive magnitude `2 ^ -1074`.
Everything below is arithmetic on those whole numbers; no operation rounds but `ofRatio`, which goes
to the nearest magnitude and, of two equally near, to the even rank.
-/

namespace DocFilter

-- A power is the core library's, also in a file that sees other powers.
attribute [local instance (high)] instPowNat

/-- The number of finite magnitudes: 2047 exponents with `2 ^ 52` fractions each. -/
def Binary64.rankCount : Nat := 2047 * 2 ^ (52 : Nat)

/-- A binary64 number. The two zeros are the finite numbers of rank 0. -/
inductive Binary64
  | nan
  | infinite (negative : Bool)
  | finite (negative : Bool) (rank : Fin Binary64.rankCount)
  deriving DecidableEq

namespace Binary64

/-- The number of units in 1, the unit being the least positive magnitude. -/
def one : Nat := 2 ^ (1074 : Nat)

/-- The magnitude of a rank, in units: the significand, shifted once for each further exponent. -/
def unitsOfRank (rank : Nat) : Nat :=
  (if rank < 2 ^ (52 : Nat) then rank else 2 ^ (52 : Nat) + rank % 2 ^ (52 : Nat)) *
    2 ^ (rank / 2 ^ (52 : Nat) - 1)

/-- The quotient of two whole numbers rounded to the nearest, a half going to the even neighbour. -/
def roundHalfEven (num den : Nat) : Nat :=
  let quotient := num / den
  let rest := num % den
  if 2 * rest < den then quotient
  else if den < 2 * rest then quotient + 1
  else quotient + quotient % 2

/-- The rank nearest to a number of units given as a quotient. The shift is the number of low bits
that a significand of 53 bits cannot hold; a significand that rounds up to `2 ^ 53` names the least
magnitude of the next exponent, so the sum needs no case for it. -/
def nearestRank (num den : Nat) : Nat :=
  let shift := Nat.log2 (num / den) - 52
  shift * 2 ^ (52 : Nat) + roundHalfEven num (den * 2 ^ shift)

/-- The number of a sign and a rank; ranks above all finite ones are infinite. -/
def ofRank (negative : Bool) (rank : Nat) : Binary64 :=
  if h : rank < rankCount then .finite negative ⟨rank, h⟩ else .infinite negative

/-- The nearest number to `num / den`, with the given sign. -/
def ofRatio (negative : Bool) (num den : Nat) : Binary64 :=
  ofRank negative (nearestRank (num * one) den)

def zero : Binary64 := ofRank false 0

def ofUnits (units : Int) : Binary64 :=
  ofRank (units < 0) (nearestRank units.natAbs 1)

def ofInt (n : Int) : Binary64 := ofRatio (n < 0) n.natAbs 1

def units? : Binary64 → Option Int
  | .finite negative rank =>
    let magnitude : Int := unitsOfRank rank
    some (if negative then -magnitude else magnitude)
  | _ => none

def toInt? (x : Binary64) : Option Int :=
  match x.units? with
  | some units => if units % one = 0 then some (units / one) else none
  | none => none

def isZero : Binary64 → Bool
  | .finite _ rank => rank.val = 0
  | _ => false

/-- The least integer that is not below a finite number. -/
def ceiling? (x : Binary64) : Option Int := x.units?.map fun units => -((-units) / one)

def isFinite : Binary64 → Bool
  | .finite _ _ => true
  | _ => false

/-- The difference with a finite number, rounded once. -/
def subFinite (x : Binary64) (y : Int) : Binary64 :=
  match x.units? with
  | some units => ofUnits (units - y)
  | none => x

/-- The quotient of a number by a positive count of units, rounded once. -/
def divUnits (x : Binary64) (y : Nat) : Binary64 :=
  match x with
  | .finite negative rank => ofRatio negative (unitsOfRank rank) y
  | _ => x

/-- The product of two numbers, rounded once. -/
def mul : Binary64 → Binary64 → Binary64
  | .finite s a, .finite t b =>
    ofRatio (s != t) (unitsOfRank a * unitsOfRank b) (one * one)
  | .nan, _ => .nan
  | _, .nan => .nan
  | .infinite s, .finite t b => if b.val = 0 then .nan else .infinite (s != t)
  | .finite s a, .infinite t => if a.val = 0 then .nan else .infinite (s != t)
  | .infinite s, .infinite t => .infinite (s != t)

end Binary64

/-- A point of the number line with its two ends; finite points are counted in units. -/
inductive Level
  | bottom
  | point (units : Int)
  | top
  deriving DecidableEq

namespace Level

def compare : Level → Level → Ordering
  | .bottom, .bottom => .eq
  | .bottom, _ => .lt
  | .point _, .bottom => .gt
  | .point a, .point b => Ord.compare a b
  | .point _, .top => .lt
  | .top, .top => .eq
  | .top, _ => .gt

end Level

inductive Number
  | int (n : Int)
  | real (x : Binary64)
  deriving DecidableEq

namespace Number

/-- Where a number stands on the number line; NaN stands nowhere. -/
def level? : Number → Option Level
  | .int n => some (.point (n * Binary64.one))
  | .real .nan => none
  | .real (.infinite negative) => some (if negative then .bottom else .top)
  | .real x => x.units?.map .point

/-- The exact comparison of two numbers, whatever their kinds; none when one of them is NaN. -/
def compare? (a b : Number) : Option Ordering :=
  match a.level?, b.level? with
  | some x, some y => some (x.compare y)
  | _, _ => none

def equal (a b : Number) : Bool := a.compare? b == some .eq

def less (a b : Number) : Bool := a.compare? b == some .lt

end Number

end DocFilter
