import DocFilter.Text.Hex

/-!
Object identifiers: the keys that a store makes up, twelve bytes each.

Identifiers are what their driver documents them to be. The text of one is its bytes in lower case
hexadecimal digits, and a text names one when it consists of the twenty-four digits of twelve bytes,
of either case, and nothing else: blanks between or around the digits are no part of a name, so a
text of twenty-four characters does not name a shorter identifier.
-/

namespace DocFilter

-- A power is the core library's, also in a file that sees other powers.
attribute [local instance (high)] instPowNat

structure ObjectId where
  bytes : List UInt8
  length_eq : bytes.length = 12
  deriving DecidableEq

namespace ObjectId

def readBytes? : List Char → Option (List UInt8)
  | [] => some []
  | [_] => none
  | c :: d :: rest => do
    let high ← Text.hexValue? c
    let low ← Text.hexValue? d
    let bytes ← readBytes? rest
    some (UInt8.ofNat (high * 16 + low) :: bytes)

def ofBytes? (bytes : List UInt8) : Option ObjectId :=
  if h : bytes.length = 12 then some ⟨bytes, h⟩ else none

def ofText? (s : String) : Option ObjectId := (readBytes? s.toList).bind ofBytes?

def digits (bytes : List UInt8) : String :=
  String.ofList (bytes.flatMap fun b => Text.hexDigits 2 b.toNat)

def text (id : ObjectId) : String := digits id.bytes

def bytesOfNat : Nat → Nat → List UInt8
  | 0, _ => []
  | width + 1, n => bytesOfNat width (n / 256) ++ [UInt8.ofNat n]

theorem length_bytesOfNat (width n : Nat) : (bytesOfNat width n).length = width := by
  induction width generalizing n with
  | zero => rfl
  | succ width ih => rw [bytesOfNat, List.length_append, ih, List.length_singleton]

/-- The `n`-th key that a store makes up. Made-up keys increase, and their first byte, a time of
issue, is above those of older keys. -/
def issued (n : Nat) : ObjectId :=
  ⟨bytesOfNat 12 (0x6a * 2 ^ (88 : Nat) + n), length_bytesOfNat ..⟩

end ObjectId

end DocFilter
