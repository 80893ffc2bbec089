import DocFilter.Filter.Builder
import DocFilter.Proofs.Text.Pattern
import DocFilter.Sql.Evaluation
import DocFilter.Sql.Predicate

/-!
What a search for a text finds, and that it is the same on both ways.

The operand of a search is compiled to a pattern that ignores case. A client that has patterns of
its own searches with the pattern as it is; a statement is given its written form as a parameter,
and reads it back from there. The written form stands for the pattern (`ofWritten_written`), so both
find the texts that contain the operand letter by letter (`search_contains`).
-/

namespace DocFilter

theorem Value.isFoundBy_written (s t : String) :
    (Value.text t).isFoundBy (some (Pattern.containing s).written) =
      (Pattern.containing s).foundIn t := by
  rw [isFoundBy, Pattern.ofWritten_written]
  · rfl
  · exact Value.noConfusion

/-- The operand of a search becomes a pattern, which is found in a text exactly if the text has a
part that is the operand letter by letter, whatever characters these are. A statement that searches
has the written form of this pattern as its last parameter; it is true of a text exactly if the
pattern is found in the text, and the negated one exactly if it is not. -/
theorem Condition.search_contains (s t : String) (field : Value) (ref : Reference) :
    let p := Pattern.containing s
    likePattern (.text s) = .ok p ∧
    (p.foundIn t = true ↔ ∃ before part after,
      t.toList = before ++ part ++ after ∧ List.Forall₂ Text.SameLetter s.toList part) ∧
    (Value.text t).isFoundBy (some p.written) = p.foundIn t ∧
    (∃ c, compileOperand .like field (.text s) = .ok (.pattern p) ∧
      ofEntry ref (.text Operator.like.conditionKey) (.pattern p) = .ok c ∧
      c.params = ref.params ++ [.text p.written] ∧
      ∀ read : Reading, read ref = .ok (.text t) → c.eval read = .ok (some (p.foundIn t))) ∧
    ∃ c, compileOperand .notLike field (.text s) = .ok (.pattern p) ∧
      ofEntry ref (.text Operator.notLike.conditionKey) (.pattern p) = .ok c ∧
      c.params = ref.params ++ [.text p.written] ∧
      ∀ read : Reading, read ref = .ok (.text t) → c.eval read = .ok (some (!p.foundIn t)) := by
  intro p
  have hfound : (Value.text t).isFoundBy (some p.written) = p.foundIn t :=
    Value.isFoundBy_written s t
  have heval (read : Reading) (hread : read ref = .ok (.text t)) :
      (finds ref p.written).eval read = .ok (some (p.foundIn t)) := by
    rw [eval, hread, ← hfound]
    rfl
  refine ⟨rfl, Pattern.foundIn_containing_iff_exists, hfound, ?_, ?_⟩
  · exact ⟨finds ref p.written, rfl, rfl, rfl, heval⟩
  · refine ⟨not (finds ref p.written), rfl, rfl, rfl, fun read hread => ?_⟩
    rw [eval, heval read hread]
    rfl

end DocFilter
