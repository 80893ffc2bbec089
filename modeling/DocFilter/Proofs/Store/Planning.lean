import DocFilter.Proofs.Sql.Order
import DocFilter.Proofs.Sql.Truth

/-!
Plans do not change what is selected.

A plan decides some conditions before any row is read, leaves out others because the place where it
looks implies them, and reads the rest in an order of its own. The main statements say that this is
all it does: a row passes a plan exactly if it satisfies the conditions of the statement
(`passes_toSort_iff`, `passes_toCount_iff`). For a lookup this rests on the key being known: a row
whose key is equal to the operand gives every condition on the key alone the value that it had
before the row was read.
-/

namespace DocFilter

open Outcome

/-- The row passes the plan: what is decided early holds, and so do the tests of the row. -/
def Plan.Passes (p : Plan) (row : Row) : Prop :=
  (∀ c ∈ p.early, c.IsTrue (Reading.ofKey p.key)) ∧ ∀ c ∈ p.tests, c.IsTrue row.read

namespace Condition

theorem compareScalars_eq_text_iff {key : String} {v : Scalar} :
    compareScalars .eq (.text key) v = some true ↔ v = .text key := by
  cases v with
  | null => simp [compareScalars]
  | int n =>
      have hbelow : Ord.compare 2 1 ≠ Ordering.eq := by decide
      simp [compareScalars, Scalar.compare, Scalar.number?, Relation.holds, Scalar.rank, hbelow]
  | real x =>
      have hbelow : Ord.compare 2 1 ≠ Ordering.eq := by decide
      simp [compareScalars, Scalar.compare, Scalar.number?, Relation.holds, Scalar.rank, hbelow]
  | text t =>
      simp only [compareScalars, Scalar.compare, Relation.holds, Option.some.injEq, beq_iff_eq,
        Scalar.compareTexts_eq_iff, Scalar.text.injEq]
      exact eq_comm
  | blob bytes =>
      have habove : Ord.compare 2 3 ≠ Ordering.eq := by decide
      simp [compareScalars, Scalar.compare, Scalar.number?, Relation.holds, Scalar.rank, habove]

theorem isTrue_compare_key_iff {row : Row} {operand : Value} :
    (compare .key .eq operand).IsTrue row.read ↔
      (Scalar.ofValue operand).asText = .text row.key := by
  simp [IsTrue, eval, Row.read, Except.map, Reference.adapt, compareScalars_eq_text_iff]

/-- An equality with the key holds of the rows whose key is the operand as the key column holds
it. -/
theorem isTrue_keyEquality_iff {c : Condition} {operand : Value} {row : Row}
    (h : c.keyEquality? = some operand) :
    c.IsTrue row.read ↔ (Scalar.ofValue operand).asText = .text row.key := by
  unfold keyEquality? at h
  split at h
  · cases h
    exact isTrue_compare_key_iff
  · cases h
    rw [← compareScalars_eq_text_iff]
    simp only [IsTrue, eval, Row.read, Except.map, Reference.adapt, amongScalars, List.map_cons,
      List.map_nil, Except.ok.injEq]
    rcases compareScalars .eq (.text row.key) (Scalar.ofValue operand).asText with _ | _ | _ <;>
      simp
  · cases h

/-- A row that passes an equality with the key is read as the key alone was read before it. -/
theorem isTrue_ofKey_iff {c : Condition} {operand : Value} {row : Row}
    (hc : c.readsDocument = false) (h : (Scalar.ofValue operand).asText = .text row.key) :
    c.IsTrue (Reading.ofKey (Scalar.ofValue operand)) ↔ c.IsTrue row.read := by
  have hkey : Reading.ofKey (Scalar.ofValue operand) .key = row.read .key := by
    simp [Reading.ofKey, Row.read, h]
  rw [IsTrue, IsTrue, eval_congr_key hc hkey]

theorem isTrue_constant_iff {c : Condition} {read read' : Reading} (hc : c.isConstant) :
    c.IsTrue read ↔ c.IsTrue read' := by
  have hrefs : c.refs = [] := by simpa [isConstant] using hc
  have heval : c.eval read = c.eval read' := eval_congr c (by simp [hrefs])
  rw [IsTrue, IsTrue, heval]

end Condition

/-! ### Following a route -/

namespace Route

theorem best_mem (weight : Route → List Estimate) (first : Route) (others : List Route) :
    best weight first others = first ∨ best weight first others ∈ others := by
  unfold best
  induction others generalizing first with
  | nil => exact .inl rfl
  | cons r rest ih =>
      rw [List.foldl_cons]
      obtain h | h := ih (if precedes (weight r) (weight first) then r else first)
      · rw [h]
        split
        · exact .inr (List.mem_cons_self ..)
        · exact .inl rfl
      · exact .inr (List.mem_cons_of_mem _ h)

theorem guides_subset {covering sorted : Bool} {terms : List Condition} {r : Route}
    (h : r ∈ routes covering sorted terms) : r.guides ⊆ terms := by
  unfold routes at h
  simp only [List.mem_append, List.mem_cons] at h
  obtain (((rfl | h) | h) | h) | h := h
  · simp [table]
  · split at h
    · rw [List.mem_singleton] at h
      rw [h]
      unfold wholeIndex
      dsimp only
      split <;> simp
    · simp at h
  · obtain ⟨guide, hguide, rfl⟩ := List.mem_map.mp h
    simpa [nullKey] using (List.mem_filter.mp hguide).1
  · obtain ⟨guide, hguide, h⟩ := List.mem_filterMap.mp h
    obtain ⟨count, _, rfl⟩ := Option.map_eq_some_iff.mp h
    simpa [listedKeys] using hguide
  · rw [Option.mem_toList] at h
    unfold bounded? at h
    dsimp only at h
    split at h
    · cases h
    · cases h
      intro guide hguide
      rw [List.mem_append, Option.mem_toList, Option.mem_toList] at hguide
      exact hguide.elim List.mem_of_find?_eq_some List.mem_of_find?_eq_some

theorem cheapest_guides {covering sorted : Bool} {terms : List Condition} :
    (cheapest covering sorted terms).guides ⊆ terms := by
  unfold cheapest
  obtain h | h := best_mem (fun r => [r.work, r.yield]) (table terms)
    (routes covering sorted terms)
  · rw [h]
    simp [table]
  · exact guides_subset h

theorem toSort_guides {terms : List Condition} {order : List SortKey} :
    (toSort terms order).1.guides ⊆ terms := by
  unfold toSort
  split
  · exact cheapest_guides
  · dsimp only
    split
    · exact cheapest_guides
    · obtain h | h := best_mem (sortedWeight ((cheapest false true terms).yield + 1) order)
        (table terms) (routes false true terms)
      · rw [h]
        simp [table]
      · exact guides_subset h

end Route

namespace Plan

variable {terms : List Condition} {order : List SortKey} {row : Row}

/-- A route orders the tests of a row, and leaves out none. -/
theorem mem_tests_follow_iff {route : Route} {settled : Nat} (h : route.guides ⊆ terms)
    {c : Condition} : c ∈ (follow route terms order settled).tests ↔ c ∈ terms := by
  unfold follow
  dsimp only
  split
  · simp only [List.mem_append, List.mem_filter, Bool.not_eq_true']
    constructor
    · rintro ((hc | hc) | hc)
      · exact h hc
      · exact hc.1
      · exact hc.1
    · intro hc
      cases hread : c.readsDocument with
      | false => exact .inl (.inr ⟨hc, rfl⟩)
      | true => exact .inr ⟨hc, rfl⟩
  · rfl

theorem passes_follow_iff {route : Route} {settled : Nat} (h : route.guides ⊆ terms) :
    (follow route terms order settled).Passes row ↔ row.satisfies terms = true := by
  rw [Row.satisfies_iff, Passes]
  constructor
  · intro ⟨_, hrow⟩ c hc
    exact hrow c ((mem_tests_follow_iff h).mpr hc)
  · intro hall
    refine ⟨fun c hc => ?_, fun c hc => hall c ((mem_tests_follow_iff h).mp hc)⟩
    obtain ⟨hmem, hconstant⟩ := List.mem_filter.mp hc
    exact (Condition.isTrue_constant_iff hconstant).mpr (hall c hmem)

theorem passes_lookup_iff {operand : Value} {others : List Condition}
    (h : Condition.lastKeyEquality? terms = some (operand, others)) :
    (lookup operand others order).Passes row ↔ row.satisfies terms = true := by
  obtain ⟨equality, hequality, hperm⟩ := Condition.perm_of_lastKeyEquality? h
  have hterms : (∀ c ∈ terms, c.IsTrue row.read) ↔
      equality.IsTrue row.read ∧ ∀ c ∈ others, c.IsTrue row.read := by
    rw [← List.forall_mem_cons]
    exact ⟨fun hall c hc => hall c (hperm.mem_iff.mpr hc),
      fun hall c hc => hall c (hperm.mem_iff.mp hc)⟩
  rw [Row.satisfies_iff, hterms, Condition.isTrue_keyEquality_iff hequality]
  simp only [Passes, lookup, List.forall_mem_cons, List.mem_filter, and_imp, Bool.not_eq_true',
    Condition.isTrue_compare_key_iff]
  constructor
  · rintro ⟨hearly, hkey, htests⟩
    refine ⟨hkey, fun c hc => ?_⟩
    cases hread : c.readsDocument with
    | false => exact (Condition.isTrue_ofKey_iff hread hkey).mp (hearly c hc hread)
    | true => exact htests c hc hread
  · rintro ⟨hkey, hothers⟩
    exact ⟨fun c hc hread => (Condition.isTrue_ofKey_iff hread hkey).mpr (hothers c hc), hkey,
      fun c hc _ => hothers c hc⟩

/-- Without an equality with the key, the tests of a row are all conditions, and those are decided
early that do not depend on the row. -/
theorem toSort_of_no_keyEquality (h : Condition.lastKeyEquality? terms = none) :
    (toSort terms order).early = terms.filter Condition.isConstant ∧
      ∀ c, c ∈ (toSort terms order).tests ↔ c ∈ terms := by
  unfold toSort
  rw [h]
  exact ⟨rfl, fun c => mem_tests_follow_iff Route.toSort_guides⟩

theorem toCount_of_no_keyEquality (h : Condition.lastKeyEquality? terms = none) :
    (toCount terms).early = terms.filter Condition.isConstant ∧
      ∀ c, c ∈ (toCount terms).tests ↔ c ∈ terms := by
  unfold toCount
  rw [h]
  exact ⟨rfl, fun c => mem_tests_follow_iff Route.cheapest_guides⟩

theorem passes_toSort_iff :
    (toSort terms order).Passes row ↔ row.satisfies terms = true := by
  unfold toSort
  split
  · rename_i operand others h
    exact passes_lookup_iff h
  · exact passes_follow_iff Route.toSort_guides

theorem passes_toCount_iff :
    (toCount terms).Passes row ↔ row.satisfies terms = true := by
  unfold toCount
  split
  · rename_i operand others h
    exact passes_lookup_iff h
  · exact passes_follow_iff Route.cheapest_guides

end Plan

end DocFilter
