import DocFilter.Proofs.Sql.Translating
import DocFilter.Sql.Evaluation

/-!
Negated operators as complements.

An operator and its negation look at the same part of a row and compare it with the same operand.
They are never both true of it. That one of them is true depends on the operand: a comparison with
null, or with a real that is not a number, is unknown, and stays unknown when it is negated.
Equality with null is asked for in another way and does not suffer from this; a membership in a list
that holds a null does (`Operator.Decides`, `opposed_of_negation?`).
-/

namespace DocFilter

open Outcome

/-- The negation of an operator, where there is one. -/
def Operator.negation? : Operator → Option Operator
  | eq => some ne
  | isIn => some notIn
  | like => some notLike
  | _ => none

/-- Comparisons with the value are unknown: it is null, or not a number. -/
def Value.isUnknown : Value → Bool
  | null => true
  | real .nan => true
  | _ => false

/-- The operand settles of every value whether the operator or its negation accepts it. -/
def Operator.Decides (op : Operator) (operand : Value) : Prop :=
  match op with
  | eq => operand ≠ .real .nan
  | isIn => ∀ items, operand.elements? = some items → ∀ v ∈ items, v.isUnknown = false
  | _ => True

/-- Two truth values of which at most one is true, and one is if something is decided. -/
structure Opposed (decided : Prop) (truth other : Option Bool) : Prop where
  exclusive : truth = some true → other ≠ some true
  exhaustive : decided → truth ≠ some true → other = some true

theorem opposed_map_not {decided : Prop} {truth : Option Bool} (h : decided → truth ≠ none) :
    Opposed decided truth (truth.map fun b => !b) := by
  obtain _ | _ | _ := truth
  · exact ⟨by simp, fun hdecided => absurd rfl (h hdecided)⟩
  · exact ⟨by simp, by simp⟩
  · exact ⟨by simp, by simp⟩

/-! ### Comparisons with null -/

namespace Condition

theorem compareScalars_null (relation : Relation) (a : Scalar) :
    compareScalars relation .null a = none := by
  cases a <;> rfl

theorem compareScalars_of_ne_null {relation : Relation} {a b : Scalar} (ha : a ≠ .null)
    (hb : b ≠ .null) : compareScalars relation a b = some (relation.holds (a.compare b)) := by
  cases a with
  | null => exact absurd rfl ha
  | _ =>
      cases b with
      | null => exact absurd rfl hb
      | _ => rfl

theorem compareScalars_ne_none {relation : Relation} {a b : Scalar} (ha : a ≠ .null)
    (hb : b ≠ .null) : compareScalars relation a b ≠ none := by
  rw [compareScalars_of_ne_null ha hb]
  exact Option.some_ne_none _

theorem amongScalars_null (members : List Scalar) : amongScalars .null members ≠ some true := by
  unfold amongScalars
  simp only [compareScalars_null]
  split_ifs with htrue <;> simp_all

theorem amongScalars_ne_none {a : Scalar} {members : List Scalar} (ha : a ≠ .null)
    (hmembers : ∀ b ∈ members, b ≠ .null) : amongScalars a members ≠ none := by
  unfold amongScalars
  dsimp only
  split_ifs with htrue hnone
  · exact Option.some_ne_none _
  · rw [List.contains_iff_mem, List.mem_map] at hnone
    obtain ⟨b, hb, hunknown⟩ := hnone
    exact absurd hunknown (compareScalars_ne_none ha (hmembers b hb))
  · exact Option.some_ne_none _

end Condition

namespace Scalar

theorem adapt_ne_null {v : Scalar} (h : v ≠ .null) (ref : Reference) : ref.adapt v ≠ .null := by
  cases ref with
  | path _ => exact h
  | key => cases v <;> first | exact absurd rfl h | exact Scalar.noConfusion

theorem ofValue_sqlOperand_ne_null {v : Value} {position : Nat}
    (hbound : checkBinding position (sqlOperand v) = .ok ()) (hv : v.isUnknown = false) :
    ofValue (sqlOperand v) ≠ .null := by
  cases v with
  | null => cases hv
  | real x =>
      cases x with
      | nan => cases hv
      | _ => exact Scalar.noConfusion
  | bool _ | int _ | text _ | bytes _ | objectId _ | timestamp _ | date _ =>
      exact Scalar.noConfusion
  | _ => cases hbound

theorem canonicalText_ne_null {s : String} {v : Scalar} (h : canonicalText s = .ok v) :
    v ≠ .null := by
  obtain ⟨json, _, rfl⟩ := map_eq_ok_iff.mp h
  exact Scalar.noConfusion

theorem canonicalJson_ne_null {v left : Scalar} (hv : v ≠ .null)
    (h : v.canonicalJson = .ok left) : left ≠ .null := by
  cases v with
  | null => exact absurd rfl hv
  | int _ | real _ | text _ => exact canonicalText_ne_null h
  | blob bytes =>
      unfold canonicalJson at h
      simp only [asText] at h
      split at h
      · exact canonicalText_ne_null h
      · cases h

theorem checkBinding_of_mem {position : Nat} {params : List Value} {v : Value}
    (h : checkBindings position params = .ok ()) (hv : v ∈ params) :
    ∃ place, checkBinding place v = .ok () := by
  induction params generalizing position with
  | nil => cases hv
  | cons first rest ih =>
      obtain ⟨_, hfirst, hrest⟩ := bind_eq_ok_iff.mp h
      obtain rfl | hv := List.mem_cons.mp hv
      · exact ⟨position, hfirst⟩
      · exact ih hrest hv

end Scalar

/-! ### Pairs of conditions -/

namespace Condition

variable {read : Reading} {ref : Reference} {operand : Value} {c d : Condition}
  {truth other : Option Bool} {decided : Prop}

theorem opposed_not (ht : c.eval read = .ok truth) (ho : (not c).eval read = .ok other)
    (h : decided → truth ≠ none) : Opposed decided truth other := by
  rw [eval, ht] at ho
  cases ho
  exact opposed_map_not h

/-- The negation asks for null before it negates: so it may be unknown of null what the positive
condition says, as long as it does not hold. -/
theorem opposed_nullOr (ht : c.eval read = .ok truth)
    (ho : (nullOr ref d).eval read = .ok other)
    (hnegation : d.eval read = (c.eval read).map fun truth => truth.map fun b => !b)
    (hnull : read ref = .ok .null → truth ≠ some true)
    (hknown : decided → ∀ v, read ref = .ok v → v ≠ .null → truth ≠ none) :
    Opposed decided truth other := by
  rw [eval] at ho
  obtain ⟨v, hv, ho⟩ := bind_eq_ok_iff.mp ho
  split_ifs at ho with hv'
  · -- Null was read: the negation holds without a look at the operand.
    cases ho
    rw [hv'] at hv
    exact ⟨fun htrue => absurd htrue (hnull hv), fun _ _ => rfl⟩
  · rw [hnegation, ht] at ho
    cases ho
    exact opposed_map_not fun hdecided => hknown hdecided v hv hv'

theorem opposed_compare (hbound : ∃ place, Scalar.checkBinding place (sqlOperand operand) = .ok ())
    (ht : (compare ref .eq (sqlOperand operand)).eval read = .ok truth)
    (ho : (nullOr ref (not (compare ref .eq (sqlOperand operand)))).eval read = .ok other) :
    Opposed (operand.isUnknown = false) truth other := by
  refine opposed_nullOr ht ho rfl ?_ ?_
  · intro hnull
    rw [eval, hnull] at ht
    cases ht
    simp [compareScalars_null]
  · intro hknown v hv hne
    rw [eval, hv] at ht
    cases ht
    obtain ⟨place, hbound⟩ := hbound
    exact compareScalars_ne_none hne
      (Scalar.adapt_ne_null (Scalar.ofValue_sqlOperand_ne_null hbound hknown) ref)

/-- A comparison with a document is known of everything but null. -/
theorem opposed_sameJson {json : String} (ht : (sameJson ref json).eval read = .ok truth)
    (ho : (nullOr ref (not (sameJson ref json))).eval read = .ok other) :
    Opposed decided truth other := by
  have heval := ht
  rw [eval] at heval
  obtain ⟨v, hv, heval⟩ := bind_eq_ok_iff.mp heval
  obtain ⟨left, hleft, heval⟩ := bind_eq_ok_iff.mp heval
  obtain ⟨right, hright, heval⟩ := bind_eq_ok_iff.mp heval
  cases heval
  refine opposed_nullOr ht ho rfl ?_ ?_
  · intro hnull
    cases hv.symm.trans hnull
    cases hleft
    simp [compareScalars_null]
  · intro _ w hw hne
    cases hv.symm.trans hw
    exact compareScalars_ne_none (Scalar.canonicalJson_ne_null hne hleft)
      (Scalar.canonicalText_ne_null hright)

theorem opposed_oneOf {items : List Value}
    (hbound : ∀ v ∈ items, ∃ place, Scalar.checkBinding place (sqlOperand v) = .ok ())
    (ht : (oneOf ref (items.map sqlOperand)).eval read = .ok truth)
    (ho : (nullOr ref (noneOf ref (items.map sqlOperand))).eval read = .ok other) :
    Opposed (∀ v ∈ items, v.isUnknown = false) truth other := by
  refine opposed_nullOr ht ho ?_ ?_ ?_
  · rw [eval, eval]
    cases read ref <;> rfl
  · intro hnull
    rw [eval, hnull] at ht
    cases ht
    exact amongScalars_null _
  · intro hknown v hv hne
    rw [eval, hv] at ht
    cases ht
    refine amongScalars_ne_none hne fun b hb => ?_
    rw [List.map_map, List.mem_map] at hb
    obtain ⟨w, hw, rfl⟩ := hb
    obtain ⟨place, hplace⟩ := hbound w hw
    exact Scalar.adapt_ne_null (Scalar.ofValue_sqlOperand_ne_null hplace (hknown w hw)) ref

theorem opposed_isNull (ht : (isNull ref).eval read = .ok truth)
    (ho : (isNotNull ref).eval read = .ok other) : Opposed decided truth other := by
  obtain ⟨v, hv, rfl⟩ := map_eq_ok_iff.mp ht
  obtain ⟨w, hw, rfl⟩ := map_eq_ok_iff.mp ho
  cases hv.symm.trans hw
  constructor
  · simp
  · simp

theorem opposed_equality (hc : equality ref operand = .ok c) (hd : inequality ref operand = .ok d)
    (hbound : ∀ v ∈ c.params, ∃ place, Scalar.checkBinding place v = .ok ())
    (ht : c.eval read = .ok truth) (ho : d.eval read = .ok other) :
    Opposed (operand ≠ .real .nan) truth other := by
  obtain ⟨hkc, rfl⟩ | ⟨hkc, json, hjson, rfl⟩ | ⟨hkc, rfl⟩ := equality_eq_ok hc
  all_goals
    obtain ⟨hkd, rfl⟩ | ⟨hkd, json', hjson', rfl⟩ | ⟨hkd, rfl⟩ := inequality_eq_ok hd
    -- Both look at the same operand, so the forms of different kinds do not meet.
    all_goals cases hkc.symm.trans hkd
  · exact opposed_isNull ht ho
  · cases hjson.symm.trans hjson'
    exact opposed_sameJson ht ho
  · have hopposed := opposed_compare (hbound _ (by simp [params])) ht ho
    refine ⟨hopposed.exclusive, fun hnan => hopposed.exhaustive ?_⟩
    unfold Value.isUnknown
    split
    · cases hkc
    · exact absurd rfl hnan
    · rfl

theorem opposed_membership (hc : membership ref operand = .ok c)
    (hd : nonMembership ref operand = .ok d)
    (hbound : ∀ v ∈ c.params, ∃ place, Scalar.checkBinding place v = .ok ())
    (ht : c.eval read = .ok truth) (ho : d.eval read = .ok other) :
    Opposed (∀ items, operand.elements? = some items → ∀ v ∈ items, v.isUnknown = false)
      truth other := by
  obtain ⟨items, hitems, rfl⟩ := map_eq_ok_iff.mp hc
  obtain ⟨others, hothers, rfl⟩ := map_eq_ok_iff.mp hd
  cases hitems.symm.trans hothers
  split_ifs at ht ho hbound with hempty
  · cases ht
    cases ho
    exact ⟨by simp, by simp⟩
  · have hitem : ∀ v ∈ items, ∃ place, Scalar.checkBinding place (sqlOperand v) = .ok () :=
      fun v hv => hbound _ (List.mem_append_right _ (List.mem_map_of_mem hv))
    have hopposed := opposed_oneOf hitem ht ho
    exact ⟨hopposed.exclusive,
      fun hknown => hopposed.exhaustive (hknown items (Value.elements_eq_ok hitems))⟩

theorem opposed_search {key key' : String} (hc : search ref key operand = .ok c)
    (hd : (search ref key' operand).map not = .ok d) (ht : c.eval read = .ok truth)
    (ho : d.eval read = .ok other) : Opposed decided truth other := by
  obtain ⟨found, hfound, rfl⟩ := map_eq_ok_iff.mp hd
  obtain rfl : found = c := by
    cases operand <;> cases hc <;> cases hfound <;> rfl
  obtain ⟨pattern, rfl⟩ := search_eq_ok hc
  refine opposed_not ht ho fun _ => ?_
  obtain ⟨v, -, rfl⟩ := map_eq_ok_iff.mp ht
  exact Option.some_ne_none _

/-- On a row of which both can be evaluated, an operator and its negation are never both true, and
if the operand decides, one of them is. -/
theorem opposed_of_negation? {op negation : Operator} (hop : op.negation? = some negation)
    (hc : ofEntry ref (.text op.conditionKey) operand = .ok c)
    (hd : ofEntry ref (.text negation.conditionKey) operand = .ok d)
    (hbound : ∀ v ∈ c.params, ∃ place, Scalar.checkBinding place v = .ok ())
    (ht : c.eval read = .ok truth) (ho : d.eval read = .ok other) :
    Opposed (op.Decides operand) truth other := by
  cases op with
  | lt | lte | gt | gte | ne | notIn | notLike => cases hop
  | eq =>
      cases hop
      exact opposed_equality hc hd hbound ht ho
  | isIn =>
      cases hop
      exact opposed_membership hc hd hbound ht ho
  | like =>
      cases hop
      exact opposed_search hc hd ht ho

end Condition

end DocFilter
