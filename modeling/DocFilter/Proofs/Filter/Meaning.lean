import DocFilter.Filter.Builder
import DocFilter.Proofs.Number.Order
import DocFilter.Proofs.Sql.Order
import DocFilter.Proofs.Text.Pattern
import DocFilter.Store.TableName

/-!
What clauses mean.

The meaning of a clause is given here without conditions and statements, for fields whose values are
atoms: numbers and texts, where truth values count as the numbers 0 and 1. Every number stands
before every text, numbers are ordered by value and texts by code points. A missing field and null
hold no atom; the negated operators are the complements of the others, so they accept these, too.

An atom is a value of the store as well (`Atom.scalar`), and there it is compared in the same way
(`compare_cases`).
-/

namespace DocFilter

/-- A value that clauses compare. -/
inductive Atom
  | number (n : Int)
  | text (s : String)
  deriving DecidableEq

namespace Atom

def less : Atom → Atom → Bool
  | number m, number n => m < n
  | number _, text _ => true
  | text _, number _ => false
  | text s, text t => s < t

def shown : Atom → String
  | number n => toString n
  | text s => s

/-- The text of the atom contains a text, whatever the case of the letters. -/
def contains (a : Atom) (s : String) : Bool :=
  s.toList.map Text.letter <:+: a.shown.toList.map Text.letter

/-- The store keeps the atom as it is: it has integers of 64 bits, and ends texts at a NUL. -/
def IsStorable : Atom → Prop
  | number n => Scalar.fits n = true
  | text s => '\x00' ∉ s.toList

instance : DecidablePred IsStorable
  | number n => inferInstanceAs (Decidable (Scalar.fits n = true))
  | text s => inferInstanceAs (Decidable ('\x00' ∉ s.toList))

end Atom

def Value.atom? : Value → Option Atom
  | .bool b => some (.number (if b then 1 else 0))
  | .int n => some (.number n)
  | .text s => some (.text s)
  | _ => none

/-- The value is an atom that the store keeps as it is. -/
def Value.IsAtomic (v : Value) : Prop := ∃ a, v.atom? = some a ∧ a.IsStorable

/-! ### Operators -/

namespace Operator

/-- The operator is the complement of another one. -/
def isNegated (op : Operator) : Bool := op = ne || op = notIn || op = notLike

/-- What an operator demands of an atom, apart from negation. -/
def meets (operand : Value) (a : Atom) : Operator → Bool
  | lt => operand.atom?.any fun b => a.less b
  | lte => operand.atom?.any fun b => a.less b || a = b
  | gt => operand.atom?.any fun b => b.less a
  | gte => operand.atom?.any fun b => b.less a || a = b
  | eq | ne => operand.atom? = some a
  | isIn | notIn => (operand.elements?.getD []).any fun v => v.atom? = some a
  | like | notLike => match operand with
    | .text s => a.contains s
    | _ => false

/-- The operator accepts the atom that a field holds, if it holds one. -/
def accepts (op : Operator) (operand : Value) (held : Option Atom) : Bool :=
  op.isNegated ^^ held.any fun a => op.meets operand a

/-- The operand is of the kind that the operator takes: a list of atoms, a text to look for, or an
atom. -/
def Takes (op : Operator) (operand : Value) : Prop :=
  if op.takesList then ∃ items, operand = .list items ∧ ∀ v ∈ items, v.IsAtomic
  else if op.takesText then ∃ s, operand = .text s ∧ '\x00' ∉ s.toList
  else operand.IsAtomic

end Operator

/-! ### Clauses -/

def Value.field? (document : Value) (field : String) : Option Value :=
  match document with
  | .map entries => Value.lookup? entries (.text field)
  | _ => none

namespace Clause

def heldBy (c : Clause) (document : Value) : Option Value :=
  match c.field with
  | .text field => document.field? field
  | _ => none

/-- The document satisfies the clause. -/
def holdsOf (c : Clause) (document : Value) : Bool :=
  match c.operator.operator? with
  | some op => op.accepts c.operand ((c.heldBy document).bind Value.atom?)
  | none => false

/-- The clause is a plain one: it names a field that is an identifier, and neither the public
identifier nor the key, an operator in any spelling, and an operand of the kind that it takes. -/
structure Plain (b : Builder) (c : Clause) (field : String) (op : Operator) : Prop where
  field_eq : c.field = .text field
  isIdentifier : TableName.isIdentifier field.toList = true
  ne_public : (Value.text field).equal b.publicKey = false
  ne_key : field ≠ "_id"
  operator_eq : c.operator.operator? = some op
  takes : op.Takes c.operand

def IsPlain (b : Builder) (c : Clause) : Prop := ∃ field op, c.Plain b field op

/-- What the document holds under the field of the clause is missing, null, or an atom. -/
def Reaches (c : Clause) (document : Value) : Prop :=
  ∀ v, c.heldBy document = some v → v = .null ∨ v.IsAtomic

theorem heldBy_of_plain {b : Builder} {c : Clause} {field : String} {op : Operator}
    (h : c.Plain b field op) (document : Value) : c.heldBy document = document.field? field := by
  rw [heldBy, h.field_eq]

end Clause

/-! ### Atoms in the store -/

namespace Atom

def scalar : Atom → Scalar
  | number n => .int n
  | text s => .text s

def heldScalar (held : Option Atom) : Scalar := (held.map scalar).getD .null

theorem compare_number (m n : Int) : (number m).scalar.compare (number n).scalar = compare m n := by
  simp [scalar, Scalar.compare, Scalar.number?, Number.compare?_int]

/-- Two atoms stand to each other in one of three ways, and the store finds out in which. -/
theorem compare_cases (a b : Atom) :
    (a.less b = true ∧ b.less a = false ∧ a ≠ b ∧ a.scalar.compare b.scalar = .lt) ∨
      (a.less b = false ∧ b.less a = false ∧ a = b ∧ a.scalar.compare b.scalar = .eq) ∨
      (a.less b = false ∧ b.less a = true ∧ a ≠ b ∧ a.scalar.compare b.scalar = .gt) := by
  cases a with
  | number m =>
      cases b with
      | number n =>
          simp only [compare_number, less, number.injEq, decide_eq_true_eq,
            decide_eq_false_iff_not, ne_eq]
          obtain hlt | heq | hgt := Int.lt_trichotomy m n
          · exact .inl ⟨hlt, by omega, by omega, Int.compare_eq_lt.mpr hlt⟩
          · exact .inr (.inl ⟨by omega, by omega, heq, Int.compare_eq_eq.mpr heq⟩)
          · exact .inr (.inr ⟨by omega, hgt, by omega, Int.compare_eq_gt.mpr hgt⟩)
      | text t => exact .inl ⟨rfl, rfl, Atom.noConfusion, rfl⟩
  | text s =>
      cases b with
      | number n => exact .inr (.inr ⟨rfl, rfl, Atom.noConfusion, rfl⟩)
      | text t =>
          have hcompare : (text s).scalar.compare (text t).scalar = Scalar.compareTexts s t := rfl
          simp only [hcompare, less, text.injEq, decide_eq_true_eq, decide_eq_false_iff_not, ne_eq]
          obtain hlt | heq | hgt := lt_trichotomy s t
          · exact .inl ⟨hlt, lt_asymm hlt, hlt.ne, Scalar.compareTexts_lt_iff.mpr hlt⟩
          · exact .inr (.inl ⟨heq ▸ lt_irrefl s, heq ▸ lt_irrefl s, heq,
              Scalar.compareTexts_eq_iff.mpr heq⟩)
          · exact .inr (.inr ⟨lt_asymm hgt, hgt, hgt.ne', Scalar.compareTexts_gt_iff.mpr hgt⟩)

end Atom

end DocFilter
