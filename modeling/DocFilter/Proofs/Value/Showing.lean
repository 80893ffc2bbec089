import DocFilter.Value.Display
import Mathlib.Tactic.SplitIfs

/-!
Values that cannot be shown.

Only two things keep the form of a value from being made: an integer with too many digits, and
collections that lie too deeply in one another (`Failure.OfText`). A value can be shown whichever
form is asked for, or neither (`inspected_eq_error_iff`), and the scalars that documents and
requests are made of, long integers apart, always can.
-/

namespace DocFilter

-- A power is the core library's, also in a file that sees other powers.
attribute [local instance (high)] instPowNat

/-- The failure keeps a text from being made. -/
def Failure.OfText (failure : Failure) : Prop := failure = .integerTooLong ∨ failure = .textTooDeep

theorem Failure.OfText.kind_eq {failure : Failure} (h : failure.OfText) :
    failure.kind = .value ∨ failure.kind = .recursion := by
  obtain rfl | rfl := h
  · exact .inl rfl
  · exact .inr rfl

namespace Value

variable {failure : Failure} {room : Nat}

theorem ofText_of_or {first second : Option Failure}
    (hfirst : ∀ failure, first = some failure → failure.OfText)
    (hsecond : ∀ failure, second = some failure → failure.OfText) :
    ∀ failure, first.or second = some failure → failure.OfText := by
  cases first with
  | none => exact hsecond
  | some first => exact hfirst

theorem ofText_of_room {bound : Nat} {inner : Option Failure}
    (hinner : ∀ failure, inner = some failure → failure.OfText) :
    ∀ failure, (if room < bound then some .textTooDeep else inner) = some failure →
      failure.OfText := by
  intro failure h
  split_ifs at h
  · cases h
    exact .inr rfl
  · exact hinner failure h

mutual

theorem ofText_of_textFault? (room : Nat) :
    (v : Value) → ∀ failure, v.textFault? room = some failure → failure.OfText
  | int n => by
      intro failure h
      rw [textFault?] at h
      split_ifs at h
      cases h
      exact .inl rfl
  | list items | ring items | tuple items => ofText_of_room (ofText_of_itemsFault? (room - 1) items)
  | set items | frozenSet items => ofText_of_room (ofText_of_itemsFault? (room - 2) items)
  | map entries => ofText_of_room (ofText_of_entriesFault? (room - 1) entries)
  | clause field relation operand =>
      ofText_of_room (ofText_of_or (ofText_of_or (ofText_of_textFault? (room - 2) field)
        (ofText_of_textFault? (room - 2) relation)) (ofText_of_textFault? (room - 2) operand))
  | paging page limit offset sortBy sortDirection =>
      ofText_of_room (ofText_of_or (ofText_of_or (ofText_of_or (ofText_of_or
        (ofText_of_textFault? (room - 3) page) (ofText_of_textFault? (room - 3) limit))
        (ofText_of_textFault? (room - 3) offset)) (ofText_of_textFault? (room - 3) sortBy))
        (ofText_of_textFault? (room - 3) sortDirection))
  | request filters pages =>
      ofText_of_room (ofText_of_or (ofText_of_textFault? (room - 3) filters)
        (ofText_of_textFault? (room - 3) pages))
  | null | bool _ | real _ | text _ | bytes _ | objectId _ | timestamp _ | date _ | operator _
  | pattern _ => nofun

theorem ofText_of_itemsFault? (room : Nat) :
    (items : List Value) → ∀ failure, itemsFault? room items = some failure → failure.OfText
  | [] => nofun
  | v :: rest => ofText_of_or (ofText_of_textFault? room v) (ofText_of_itemsFault? room rest)

theorem ofText_of_entriesFault? (room : Nat) :
    (entries : List (Value × Value)) → ∀ failure, entriesFault? room entries = some failure →
      failure.OfText
  | [] => nofun
  | (k, v) :: rest =>
      ofText_of_or (ofText_of_or (ofText_of_textFault? room k) (ofText_of_textFault? room v))
        (ofText_of_entriesFault? room rest)

end

/-- Integers of the size of a machine word are short. -/
theorem isShort_of_natAbs_lt {n : Int} (h : n.natAbs < 2 ^ (64 : Nat)) : isShort n = true :=
  decide_eq_true (Nat.lt_trans h (by decide +kernel))

theorem shown_of_isShort {n : Int} (h : isShort n = true) : (int n).shown = .ok (toString n) := by
  rw [shown_int, if_pos h]

theorem ofText_of_shown {v : Value} (h : v.shown = .error failure) : failure.OfText := by
  unfold shown at h
  split at h
  · cases h
    exact ofText_of_textFault? _ v _ ‹_›
  · cases h

/-- A value that cannot be shown cannot be inspected either, for the same reason. -/
theorem inspected_eq_error_iff {v : Value} :
    v.inspected = .error failure ↔ v.shown = .error failure := by
  unfold inspected shown
  cases v.textFault? textRoom <;> simp

theorem exists_inspected_iff {v : Value} :
    (∃ text, v.inspected = .ok text) ↔ ∃ text, v.shown = .ok text := by
  unfold inspected shown
  cases v.textFault? textRoom <;> simp

/-- A failure that shows a value is of the given cause, or it keeps the text of the value from being
made. -/
theorem showing_cases (cause : String → Failure) (v : Value) :
    (∃ text, Failure.showing cause v.shown = cause text) ∨
      (Failure.showing cause v.shown).OfText := by
  cases hshown : v.shown with
  | ok text => exact .inl ⟨text, rfl⟩
  | error failure => exact .inr (ofText_of_shown hshown)

theorem showing_inspected_cases (cause : String → Failure) (v : Value) :
    (∃ text, Failure.showing cause v.inspected = cause text) ∨
      (Failure.showing cause v.inspected).OfText := by
  cases hinspected : v.inspected with
  | ok text => exact .inl ⟨text, rfl⟩
  | error failure => exact .inr (ofText_of_shown (inspected_eq_error_iff.mp hinspected))

end Value

end DocFilter
