import DocFilter.Proofs.Outcome
import DocFilter.Store.Plan

/-!
When conditions hold of a row.

A conjunction stops at the first condition that does not hold, so what it yields, and whether it
fails, depends on the order of its conditions. That it *holds* does not: it does exactly if each of
its conditions is true (`evalAll_eq_true_iff`). So `Row.satisfies` can stand for the selection that
a statement makes, in whatever order its plan reads the conditions, and conjunctions can be taken
apart (`forall_isTrue_iff_conjunctsOf`). A condition sees a reading only through its references
(`eval_congr`).
-/

namespace DocFilter

open Outcome

namespace Condition

def IsTrue (read : Reading) (c : Condition) : Prop := c.eval read = .ok (some true)

theorem evalAll_eq_true_iff {read : Reading} {conditions : List Condition} :
    evalAll read conditions = .ok true ↔ ∀ c ∈ conditions, c.IsTrue read := by
  induction conditions with
  | nil => simp
  | cons c rest ih =>
      rw [evalAll, bind_eq_ok_iff, List.forall_mem_cons]
      constructor
      · rintro ⟨truth, htruth, h⟩
        split at h
        · rename_i hsome
          exact ⟨htruth.trans (by rw [hsome]), ih.mp h⟩
        · cases h
      · rintro ⟨hc, hrest⟩
        exact ⟨some true, hc, by rw [if_pos rfl]; exact ih.mpr hrest⟩

/-- The condition is read and does not hold: it is false or unknown. -/
def IsRefuted (read : Reading) (c : Condition) : Prop :=
  ∃ truth, c.eval read = .ok truth ∧ truth ≠ some true

/-- A conjunction that was read either holds or was stopped by a condition that does not. -/
theorem cases_of_evalAll {read : Reading} {conditions : List Condition} {holds : Bool}
    (h : evalAll read conditions = .ok holds) :
    (∀ c ∈ conditions, c.IsTrue read) ∨ ∃ c ∈ conditions, c.IsRefuted read := by
  induction conditions with
  | nil => simp
  | cons c rest ih =>
      rw [evalAll, bind_eq_ok_iff] at h
      obtain ⟨truth, htruth, h⟩ := h
      split at h
      · rename_i hsome
        obtain hrest | ⟨d, hd, hrefuted⟩ := ih h
        · exact .inl (List.forall_mem_cons.mpr ⟨htruth.trans (by rw [hsome]), hrest⟩)
        · exact .inr ⟨d, List.mem_cons_of_mem _ hd, hrefuted⟩
      · rename_i hother
        exact .inr ⟨c, List.mem_cons_self, truth, htruth, hother⟩

theorem isTrue_all_iff {read : Reading} {conditions : List Condition} :
    (all conditions).IsTrue read ↔ ∀ c ∈ conditions, c.IsTrue read := by
  rw [IsTrue, eval, map_eq_ok_iff, ← evalAll_eq_true_iff]
  simp

mutual

theorem isTrue_iff_conjuncts {read : Reading} :
    (c : Condition) → (c.IsTrue read ↔ ∀ d ∈ c.conjuncts, d.IsTrue read)
  | all conditions => by
      rw [isTrue_all_iff, conjuncts]
      exact forall_isTrue_iff_conjunctsOf conditions
  | always | never | isNull _ | isNotNull _ | compare .. | sameJson .. | oneOf .. | noneOf ..
  | finds .. | not _ | nullOr .. => by simp [conjuncts]

theorem forall_isTrue_iff_conjunctsOf {read : Reading} :
    (conditions : List Condition) →
      ((∀ c ∈ conditions, c.IsTrue read) ↔ ∀ d ∈ conjunctsOf conditions, d.IsTrue read)
  | [] => by simp [conjunctsOf]
  | c :: rest => by
      rw [List.forall_mem_cons, conjunctsOf, List.forall_mem_append, isTrue_iff_conjuncts c,
        forall_isTrue_iff_conjunctsOf rest]

end

mutual

/-- A condition has the same value under readings that agree on its references. -/
theorem eval_congr {read read' : Reading} :
    (c : Condition) → (∀ ref ∈ c.refs, read ref = read' ref) → c.eval read = c.eval read'
  | always, _ | never, _ => rfl
  | isNull ref, h | isNotNull ref, h | compare ref _ _, h | sameJson ref _, h | oneOf ref _, h
  | noneOf ref _, h | finds ref _, h => by simp only [eval, h ref (by simp [refs])]
  | not c, h => by rw [eval, eval, eval_congr c (by simpa [refs] using h)]
  | nullOr ref c, h => by
      rw [eval, eval, h ref (by simp [refs]),
        eval_congr c fun other hother => h other (by simp [refs, hother])]
  | all conditions, h => by
      rw [eval, eval, evalAll_congr conditions (by simpa [refs] using h)]

theorem evalAll_congr {read read' : Reading} :
    (conditions : List Condition) → (∀ ref ∈ refsOf conditions, read ref = read' ref) →
      evalAll read conditions = evalAll read' conditions
  | [], _ => rfl
  | c :: rest, h => by
      rw [evalAll, evalAll, eval_congr c fun ref href => h ref (by simp [refsOf, href]),
        evalAll_congr rest fun ref href => h ref (by simp [refsOf, href])]

end

mutual

/-- What is not read cannot fail: a condition that was evaluated has the same value under every
reading that has the values which were read. -/
theorem eval_mono {read read' : Reading} :
    (c : Condition) → (∀ ref ∈ c.refs, ∀ v, read ref = .ok v → read' ref = .ok v) →
      ∀ {truth}, c.eval read = .ok truth → c.eval read' = .ok truth
  | always, _, truth, h | never, _, truth, h => h
  | isNull ref, hread, truth, h | isNotNull ref, hread, truth, h
  | compare ref _ _, hread, truth, h | oneOf ref _, hread, truth, h
  | noneOf ref _, hread, truth, h | finds ref _, hread, truth, h => by
      obtain ⟨v, hv, rfl⟩ := map_eq_ok_iff.mp h
      exact map_eq_ok_iff.mpr ⟨v, hread ref (by simp [refs]) v hv, rfl⟩
  | sameJson ref _, hread, truth, h => by
      rw [eval] at h ⊢
      obtain ⟨v, hv, h⟩ := bind_eq_ok_iff.mp h
      exact bind_eq_ok_iff.mpr ⟨v, hread ref (by simp [refs]) v hv, h⟩
  | not c, hread, truth, h => by
      rw [eval] at h ⊢
      obtain ⟨inner, hinner, rfl⟩ := map_eq_ok_iff.mp h
      exact map_eq_ok_iff.mpr ⟨inner, eval_mono c (by simpa [refs] using hread) hinner, rfl⟩
  | nullOr ref c, hread, truth, h => by
      rw [eval] at h ⊢
      obtain ⟨v, hv, h⟩ := bind_eq_ok_iff.mp h
      refine bind_eq_ok_iff.mpr ⟨v, hread ref (by simp [refs]) v hv, ?_⟩
      split_ifs at h ⊢ with hnull
      · exact h
      · exact eval_mono c (fun other hother => hread other (by simp [refs, hother])) h
  | all conditions, hread, truth, h => by
      rw [eval] at h ⊢
      obtain ⟨holds, hholds, rfl⟩ := map_eq_ok_iff.mp h
      exact map_eq_ok_iff.mpr
        ⟨holds, evalAll_mono conditions (by simpa [refs] using hread) hholds, rfl⟩

theorem evalAll_mono {read read' : Reading} :
    (conditions : List Condition) →
      (∀ ref ∈ refsOf conditions, ∀ v, read ref = .ok v → read' ref = .ok v) →
      ∀ {holds}, evalAll read conditions = .ok holds → evalAll read' conditions = .ok holds
  | [], _, holds, h => h
  | c :: rest, hread, holds, h => by
      rw [evalAll] at h ⊢
      obtain ⟨truth, htruth, h⟩ := bind_eq_ok_iff.mp h
      refine bind_eq_ok_iff.mpr
        ⟨truth, eval_mono c (fun ref href => hread ref (by simp [refsOf, href])) htruth, ?_⟩
      split_ifs at h ⊢ with htrue
      · exact evalAll_mono rest (fun ref href => hread ref (by simp [refsOf, href])) h
      · exact h

end

/-- A condition that does not read the document depends on the key only. -/
theorem eval_congr_key {read read' : Reading} {c : Condition} (hc : c.readsDocument = false)
    (h : read .key = read' .key) : c.eval read = c.eval read' := by
  apply eval_congr
  intro ref href
  have hkey : ref = .key := by
    simpa [readsDocument, List.any_eq_false] using List.any_eq_false.mp hc ref href
  rw [hkey, h]

end Condition

/-- The row satisfies all conditions. One that cannot be evaluated is not satisfied. -/
def Row.satisfies (row : Row) (conditions : List Condition) : Bool :=
  match Condition.evalAll row.read conditions with
  | .ok holds => holds
  | .error _ => false

theorem Row.satisfies_iff {row : Row} {conditions : List Condition} :
    row.satisfies conditions = true ↔ ∀ c ∈ conditions, c.IsTrue row.read := by
  rw [← Condition.evalAll_eq_true_iff, satisfies]
  cases Condition.evalAll row.read conditions with
  | error fault => simp
  | ok holds => simp

theorem Row.satisfies_conjunctsOf (row : Row) (conditions : List Condition) :
    row.satisfies (Condition.conjunctsOf conditions) = row.satisfies conditions := by
  rw [Bool.eq_iff_iff, satisfies_iff, satisfies_iff,
    Condition.forall_isTrue_iff_conjunctsOf conditions]

end DocFilter
