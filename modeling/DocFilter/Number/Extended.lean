import DocFilter.Number.Reading

/-!
Numbers of 64 significant bits, without sign.

A number is a whole number times a power of two. Every operation is the exact one, rounded once to
the nearest number whose significand has 64 bits, a half going to the even neighbour; so all that
rounds is `ofRatio`. Comparison, whole part and fractional part are exact.
-/

namespace DocFilter

-- A power is the core library's, also in a file that sees other powers.
attribute [local instance (high)] instPowNat

structure Extended where
  significand : Nat
  exponent : Int

namespace Extended

/-- The number nearest to `num / den * 2 ^ exponent`. The numerator is first shifted up so far that
the quotient has more than 64 bits. -/
def ofRatio (num den : Nat) (exponent : Int) : Extended :=
  let up := 65 + Nat.log2 den
  let shift := Nat.log2 (num * 2 ^ up / den) - 63
  ⟨Binary64.roundHalfEven (num * 2 ^ up) (den * 2 ^ shift), exponent - up + shift⟩

def ofNat (n : Nat) : Extended := ofRatio n 1 0

/-- The magnitude of a finite binary64 number, which has fewer bits and so is kept exactly. -/
def ofBinary64 : Binary64 → Extended
  | .finite _ rank => ofRatio (Binary64.unitsOfRank rank) 1 (-1074)
  | _ => ⟨0, 0⟩

def toBinary64 (negative : Bool) (x : Extended) : Binary64 :=
  Binary64.ofRatio negative (x.significand * 2 ^ x.exponent.toNat) (2 ^ (-x.exponent).toNat)

def mul (x y : Extended) : Extended :=
  ofRatio (x.significand * y.significand) 1 (x.exponent + y.exponent)

def div (x y : Extended) : Extended :=
  ofRatio x.significand y.significand (x.exponent - y.exponent)

def significandAt (x : Extended) (exponent : Int) : Nat :=
  x.significand * 2 ^ (x.exponent - exponent).toNat

def add (x y : Extended) : Extended :=
  let exponent := min x.exponent y.exponent
  ofRatio (x.significandAt exponent + y.significandAt exponent) 1 exponent

def le (x y : Extended) : Bool :=
  let exponent := min x.exponent y.exponent
  x.significandAt exponent ≤ y.significandAt exponent

def floor (x : Extended) : Nat :=
  x.significand * 2 ^ x.exponent.toNat / 2 ^ (-x.exponent).toNat

def fraction (x : Extended) : Extended :=
  ⟨x.significand * 2 ^ x.exponent.toNat % 2 ^ (-x.exponent).toNat, min x.exponent 0⟩

end Extended

end DocFilter
