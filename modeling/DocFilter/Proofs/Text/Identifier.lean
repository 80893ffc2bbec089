import DocFilter.Proofs.Json.Escaping
import DocFilter.Store.TableName

/-!
The characters of identifiers.

Identifiers are made of letters, digits and underscores. All of these are written in documents as
they are, and none has a meaning in paths or is the reserved sign.
-/

namespace DocFilter

open Json

def IsNameChar (c : Char) : Prop := c.isAlphanum = true ∨ c = '_'

theorem IsNameChar.ne {c d : Char} (h : IsNameChar c) (hd : d.isAlphanum = false ∧ d ≠ '_') :
    c ≠ d := by
  rintro rfl
  obtain h | h := h
  · rw [hd.1] at h
    cases h
  · exact hd.2 h

theorem IsNameChar.isPlain {c : Char} (h : IsNameChar c) : IsPlain c := by
  have hrange : 48 ≤ c.val ∧ c.val ≤ 122 := by
    obtain h | rfl := h
    · change (decide (65 ≤ c.val ∧ c.val ≤ 90) || (decide (97 ≤ c.val) && decide (c.val ≤ 122)) ||
        (decide (48 ≤ c.val) && decide (c.val ≤ 57))) = true at h
      simp only [Bool.or_eq_true, Bool.and_eq_true, decide_eq_true_eq] at h
      obtain (⟨hlow, hhigh⟩ | ⟨hlow, hhigh⟩) | ⟨hlow, hhigh⟩ := h
      · exact ⟨UInt32.le_trans (by decide) hlow, UInt32.le_trans hhigh (by decide)⟩
      · exact ⟨UInt32.le_trans (by decide) hlow, UInt32.le_trans hhigh (by decide)⟩
      · exact ⟨hlow, UInt32.le_trans hhigh (by decide)⟩
    · decide
  exact ⟨UInt32.le_trans (by decide) hrange.1, UInt32.lt_of_le_of_lt hrange.2 (by decide),
    h.ne (by decide), h.ne (by decide)⟩

theorem forall_isNameChar {cs : List Char} (h : TableName.isIdentifier cs = true) :
    ∀ c ∈ cs, IsNameChar c := by
  cases cs with
  | nil => cases h
  | cons c cs =>
      simp only [TableName.isIdentifier, TableName.isInitial, TableName.isInner,
        Bool.and_eq_true, Bool.or_eq_true, decide_eq_true_eq, List.all_eq_true] at h
      refine List.forall_mem_cons.mpr ⟨h.1.imp_left fun halpha => ?_, h.2⟩
      simp [Char.isAlphanum, halpha]

theorem isPlain_of_isIdentifier {cs : List Char} (h : TableName.isIdentifier cs = true) :
    ∀ c ∈ cs, IsPlain c := fun c hc => (forall_isNameChar h c hc).isPlain

theorem ne_pathSign_of_isIdentifier {cs : List Char} (h : TableName.isIdentifier cs = true) :
    ∀ c ∈ cs, c ≠ '.' ∧ c ≠ '[' ∧ c ≠ '"' := fun c hc =>
  have hname := forall_isNameChar h c hc
  ⟨hname.ne (by decide), hname.ne (by decide), hname.ne (by decide)⟩

theorem ne_nil_of_isIdentifier {cs : List Char} (h : TableName.isIdentifier cs = true) :
    cs ≠ [] := by
  rintro rfl
  cases h

end DocFilter
