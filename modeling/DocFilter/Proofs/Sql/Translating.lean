import DocFilter.Proofs.Outcome
import DocFilter.Sql.Predicate
import Mathlib.Data.List.Forall2

/-!
What conditions are translated to, when the translation succeeds.

A field is translated to an equality with the value under it, or to the conjunction of the entries
of a predicate (`ofField_eq_ok`); an entry by the one operator that its key names
(`key_of_ofEntry`). Equality and its complement have one form for null, one for documents and one
for all other operands.
-/

namespace DocFilter

open Outcome

/-- The kinds of operands that a query treats differently. -/
inductive OperandKind
  | null | document | scalar
  deriving DecidableEq

def Value.operandKind : Value → OperandKind
  | .null => .null
  | .list _ | .ring _ | .map _ => .document
  | _ => .scalar

def Value.predicate? : Value → Option (List (Value × Value))
  | .map entries => if Condition.isPredicate entries matches .ok true then some entries else none
  | _ => none

theorem Value.elements_eq_ok {v : Value} {items : List Value} (h : v.elements = .ok items) :
    v.elements? = some items := by
  unfold Value.elements at h
  split at h
  · cases h
    assumption
  · cases h

namespace Condition

variable {columns : Columns} {ref : Reference} {v : Value} {c : Condition}

theorem equality_eq_ok (h : equality ref v = .ok c) :
    (v.operandKind = .null ∧ c = isNull ref) ∨
      (v.operandKind = .document ∧ ∃ json, v.storedJson = .ok json ∧ c = sameJson ref json) ∨
      (v.operandKind = .scalar ∧ c = compare ref .eq (sqlOperand v)) := by
  cases v with
  | null =>
      cases h
      exact .inl ⟨rfl, rfl⟩
  | list _ | ring _ | map _ =>
      obtain ⟨json, hjson, rfl⟩ := map_eq_ok_iff.mp h
      exact .inr (.inl ⟨rfl, json, hjson, rfl⟩)
  | _ =>
      cases h
      exact .inr (.inr ⟨rfl, rfl⟩)

theorem inequality_eq_ok (h : inequality ref v = .ok c) :
    (v.operandKind = .null ∧ c = isNotNull ref) ∨
      (v.operandKind = .document ∧ ∃ json, v.storedJson = .ok json ∧
        c = nullOr ref (not (sameJson ref json))) ∨
      (v.operandKind = .scalar ∧ c = nullOr ref (not (compare ref .eq (sqlOperand v)))) := by
  cases v with
  | null =>
      cases h
      exact .inl ⟨rfl, rfl⟩
  | list _ | ring _ | map _ =>
      obtain ⟨_, hequals, rfl⟩ := map_eq_ok_iff.mp h
      obtain ⟨json, hjson, rfl⟩ := map_eq_ok_iff.mp hequals
      exact .inr (.inl ⟨rfl, json, hjson, rfl⟩)
  | _ =>
      cases h
      exact .inr (.inr ⟨rfl, rfl⟩)

theorem search_eq_ok {key : String} (h : search ref key v = .ok c) :
    ∃ pattern, c = finds ref pattern := by
  cases v with
  | pattern p =>
      cases h
      exact ⟨_, rfl⟩
  | text s =>
      cases h
      exact ⟨_, rfl⟩
  | _ => cases h

/-- Only the condition keys of operators are known to a query. -/
theorem key_of_ofEntry {key : Value} (h : ofEntry ref key v = .ok c) :
    ∃ op : Operator, key = .text op.conditionKey := by
  unfold ofEntry at h
  split at h
  exacts [⟨.eq, rfl⟩, ⟨.ne, rfl⟩, ⟨.lt, rfl⟩, ⟨.lte, rfl⟩, ⟨.gt, rfl⟩, ⟨.gte, rfl⟩, ⟨.isIn, rfl⟩,
    ⟨.notIn, rfl⟩, ⟨.like, rfl⟩, ⟨.notLike, rfl⟩, by cases h]

theorem checkReference_text (field : String) : checkReference {} (.text field) = .ok () := by
  unfold checkReference
  split_ifs <;> rfl

theorem ofEntryOn_eq_ok_iff {field key : Value} :
    ofEntryOn columns field key v = .ok c ↔
      (refers key v = true → checkReference columns field = .ok ()) ∧
        ofEntry (referenceOf columns field) key v = .ok c := by
  unfold ofEntryOn
  cases refers key v with
  | false => exact ⟨fun h => ⟨nofun, h⟩, fun h => h.2⟩
  | true =>
      refine bind_eq_ok_iff.trans ⟨?_, ?_⟩
      · rintro ⟨⟨⟩, hchecked, h⟩
        exact ⟨fun _ => hchecked, h⟩
      · rintro ⟨hchecked, h⟩
        exact ⟨(), hchecked rfl, h⟩

theorem ofEntry_of_ofEntryOn {field key : Value} (h : ofEntryOn columns field key v = .ok c) :
    ofEntry (referenceOf columns field) key v = .ok c :=
  (ofEntryOn_eq_ok_iff.mp h).2

theorem ofEntryOn_text {field : String} {key : Value}
    (h : ofEntry (referenceOf {} (.text field)) key v = .ok c) :
    ofEntryOn {} (.text field) key v = .ok c :=
  ofEntryOn_eq_ok_iff.mpr ⟨fun _ => checkReference_text field, h⟩

theorem equalityOn_eq_ok_iff {field : Value} :
    equalityOn columns field v = .ok c ↔
      checkReference columns field = .ok () ∧ equality (referenceOf columns field) v = .ok c := by
  refine bind_eq_ok_iff.trans ⟨?_, fun ⟨hchecked, h⟩ => ⟨(), hchecked, h⟩⟩
  rintro ⟨⟨⟩, hchecked, h⟩
  exact ⟨hchecked, h⟩

/-- A field is translated to an equality, or to the conjunction of the entries of a predicate. -/
theorem ofField_eq_ok {field : Value} (h : ofField columns field v = .ok c) :
    (v.predicate? = none ∧ equality (referenceOf columns field) v = .ok c) ∨
      ∃ entries terms, v.predicate? = some entries ∧ c = all terms ∧
        List.Forall₂ (fun entry term =>
          ofEntry (referenceOf columns field) entry.1 entry.2 = .ok term) entries terms := by
  cases v with
  | map entries =>
      obtain ⟨reserved, hreserved, h⟩ := bind_eq_ok_iff.mp h
      cases reserved with
      | true =>
          obtain ⟨terms, hterms, rfl⟩ := map_eq_ok_iff.mp h
          refine .inr ⟨entries, terms, by simp [Value.predicate?, hreserved], rfl, ?_⟩
          exact (mapM_eq_ok_iff.mp hterms).imp fun _ _ => ofEntry_of_ofEntryOn
      | false => exact .inl ⟨by simp [Value.predicate?, hreserved], (equalityOn_eq_ok_iff.mp h).2⟩
  | _ => exact .inl ⟨rfl, (equalityOn_eq_ok_iff.mp h).2⟩

theorem ofValue_map (columns : Columns) (conditions : List (Value × Value)) :
    ofValue columns (.map conditions) =
      conditions.mapM fun (field, predicate) => ofField columns field predicate := by
  cases conditions with
  | nil => rfl
  | cons _ _ => rfl

end Condition

end DocFilter
