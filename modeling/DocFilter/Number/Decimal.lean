import DocFilter.Number.Binary64

/-!
Decimal texts of binary64 numbers: the fewest digits that read back, and the layout of digits as
text.

A finite magnitude of `u` units is `u * 5 ^ 1074` over `10 ^ 1074`, so its exact decimal digits are
those of a whole number. The shortest text is the first grid of `1, 2, …` leading digits on which a
neighbour of the exact value reads back as the number itself.
-/

namespace DocFilter

-- A power is the core library's, also in a file that sees other powers.
attribute [local instance (high)] instPowNat

/-- A decimal magnitude in scientific form: the digits, most significant first, and the power of ten
of the first of them. -/
structure Decimal where
  digits : List Char
  exponent : Int
  deriving DecidableEq, Repr

namespace Decimal

def dropZeros (digits : List Char) : List Char := (digits.reverse.dropWhile (· = '0')).reverse

/-- The digits of a whole number without the zeros at its end; zero has the one digit `0`. -/
def significant (n : Nat) : List Char :=
  match dropZeros (Nat.toDigits 10 n) with
  | [] => ['0']
  | digits => digits

def scale : Nat := 1074

/-- The exact magnitude of a rank, times `10 ^ scale`. -/
def exact (rank : Nat) : Nat := Binary64.unitsOfRank rank * 5 ^ scale

/-- The rank that a scaled decimal magnitude reads back as. -/
def readsAs (scaled : Nat) : Nat := Binary64.nearestRank (scaled * Binary64.one) (10 ^ scale)

/-- The multiple of `step` nearest to the exact value among those next to it that read back as the
rank; of two equally near, the even multiple. -/
def candidate? (rank value step : Nat) : Option Nat :=
  let low := value / step
  let rest := value % step
  let lowReads := readsAs (low * step) == rank
  let highReads := readsAs ((low + 1) * step) == rank
  if lowReads && highReads then
    if 2 * rest < step then some low
    else if step < 2 * rest then some (low + 1)
    else some (low + low % 2)
  else if lowReads then some low
  else if highReads then some (low + 1)
  else none

/-- Searches the grids of step `10 ^ dropped`, coarsest first, for what is found at a step; the grid
of step 1 holds the exact value. Returns the multiple found and the number of digits dropped. -/
def search (found? : Nat → Option Nat) (value : Nat) : Nat → Nat × Nat
  | 0 => (value, 0)
  | dropped + 1 =>
    match found? (10 ^ (dropped + 1)) with
    | some found => (found, dropped + 1)
    | none => search found? value dropped

/-- The coarsest multiple of a power of ten that reads back as a rank, and the number of digits
dropped from the exact value. -/
def coarsest (rank value : Nat) : Nat × Nat :=
  search (candidate? rank value) value ((Nat.toDigits 10 value).length - 1)

/-- The decimal of a multiple found and the number of digits dropped. -/
def ofMultiple (multiple : Nat × Nat) : Decimal :=
  ⟨significant multiple.1,
    ((Nat.toDigits 10 multiple.1).length + multiple.2 : Int) - 1 - scale⟩

def shortest (rank : Nat) : Decimal :=
  if rank = 0 then ⟨['0'], 0⟩ else ofMultiple (coarsest rank (exact rank))

/-- The decisions of a number format. Powers of ten from `positionalFrom` below `positionalBelow`
are written positionally; the others with an exponent of a sign and at least two digits.
`pointWithExponent` keeps `.0` in front of the exponent. -/
structure Layout where
  positionalFrom : Int
  positionalBelow : Int
  pointWithExponent : Bool

/-- Digits with a point after the first `count` of them, zeros filling up on either side. -/
def positional (digits : List Char) (exponent : Int) : List Char :=
  if exponent < 0 then
    '0' :: '.' :: (List.replicate ((-exponent).toNat - 1) '0' ++ digits)
  else
    let count := exponent.toNat + 1
    let whole := digits.take count ++ List.replicate (count - digits.length) '0'
    let fraction := digits.drop count
    whole ++ '.' :: (if fraction = [] then ['0'] else fraction)

def exponentText (exponent : Int) : List Char :=
  let digits := Nat.toDigits 10 exponent.natAbs
  (if exponent < 0 then '-' else '+') ::
    (if digits.length < 2 then '0' :: digits else digits)

def write (d : Decimal) (layout : Layout) : List Char :=
  if layout.positionalFrom ≤ d.exponent ∧ d.exponent < layout.positionalBelow then
    positional d.digits d.exponent
  else
    let fraction := d.digits.drop 1
    let mantissa :=
      if fraction = [] then
        if layout.pointWithExponent then d.digits.take 1 ++ ['.', '0'] else d.digits.take 1
      else d.digits.take 1 ++ '.' :: fraction
    mantissa ++ 'e' :: exponentText d.exponent

/-- Floating texts of documents, messages and answers: positional from `1e-4` below `1e16`. -/
def documentLayout : Layout := ⟨-4, 16, false⟩

end Decimal

namespace Binary64

def text : Binary64 → String
  | .nan => "nan"
  | .infinite negative => if negative then "-inf" else "inf"
  | .finite negative rank =>
    let digits := (Decimal.shortest rank).write Decimal.documentLayout
    String.ofList (if negative then '-' :: digits else digits)

def documentText : Binary64 → String
  | .nan => "NaN"
  | .infinite negative => if negative then "-Infinity" else "Infinity"
  | x => x.text

end Binary64

end DocFilter
