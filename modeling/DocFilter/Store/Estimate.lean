/-!
Estimates of amounts of rows and of work.

An estimate is ten times the binary logarithm of an amount, rounded to a whole number, so that the
product of two amounts is the sum of their estimates. All arithmetic on estimates is coarse on
purpose: what matters is that the same statement is always estimated alike.
-/

namespace DocFilter

-- A power is the core library's, also in a file that sees other powers.
attribute [local instance (high)] instPowNat

/-- Ten times the binary logarithm of an amount. -/
abbrev Estimate := Int

namespace Estimate

/-- The fraction of a power of two that the three bits behind the leading one add, by their
value. -/
def fractions : List Int := [0, 2, 3, 5, 6, 7, 8, 9]

/-- The estimate of a count; nothing counts like one. -/
def ofCount (n : Nat) : Estimate :=
  if n < 2 then 0
  else
    let exponent := Nat.log2 n
    10 * exponent + (fractions[n * 8 / 2 ^ exponent - 8]?).getD 0

/-- What the smaller of two amounts adds to the greater one, by the difference of their
estimates. -/
def increments : List Int := [
  10, 10, 9, 9, 8, 8, 7, 7, 7, 6, 6, 6, 5, 5, 5, 4, 4, 4, 4, 3, 3, 3, 3, 3, 3, 2, 2, 2, 2, 2, 2, 2]

/-- The estimate of a sum. An amount far smaller than the other one adds one, and then nothing. -/
def sum (a b : Estimate) : Estimate :=
  let difference := (a - b).natAbs
  max a b + if 49 < difference then 0 else (increments[difference]?).getD 1

/-- The estimate of the logarithm of an estimated amount; 33 is the estimate of ten. -/
def logarithm (a : Estimate) : Estimate := if a ≤ 10 then 0 else ofCount a.toNat - 33

end Estimate

end DocFilter
