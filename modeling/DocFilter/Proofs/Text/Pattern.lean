import DocFilter.Text.Pattern
import Mathlib.Data.List.Forall2
import Mathlib.Data.List.Infix

/-!
Searches for literal text.

A literal that is written as the source of a pattern is read back from it (`literal?_escape`), since
every character that could mean something else is escaped, and none that would mean something else
then. A pattern that is written with its case mark is the same pattern when it is read
(`ofWritten_written`). So a search for a text finds exactly the texts that contain it, letter by
letter (`foundIn_containing_iff`, `foundIn_containing_iff_exists`).
-/

namespace DocFilter

/-- The characters differ by case only. -/
def Text.SameLetter (a b : Char) : Prop := letter a = letter b

namespace Pattern

/-- A character that is written after a backslash is no letter and no digit, so it means itself
there. -/
theorem isAlphanum_of_special {c : Char} (h : specials.contains c = true) : c.isAlphanum = false := by
  have hspecials : specials.all (!·.isAlphanum) = true := by decide
  simpa using List.all_eq_true.mp hspecials c (List.contains_iff_mem.mp h)

/-- A character that is written without a backslash means itself without one. -/
theorem not_metacharacter {c : Char} (h : ¬specials.contains c = true) :
    metacharacters.contains c = false := by
  have hmeta : metacharacters.all specials.contains = true := by decide
  refine Bool.eq_false_iff.mpr fun hc => h ?_
  exact List.all_eq_true.mp hmeta c (List.contains_iff_mem.mp hc)

theorem literal?_escape (cs : List Char) : literal? (escape cs) = some cs := by
  induction cs with
  | nil => rfl
  | cons c cs ih =>
      rw [escape]
      split_ifs with hspecial
      · rw [literal?, isAlphanum_of_special hspecial, if_neg Bool.false_ne_true, ih]
        rfl
      · have hne : c ≠ '\\' := by
          rintro rfl
          exact hspecial (by decide)
        rw [literal?, not_metacharacter hspecial, if_neg Bool.false_ne_true, ih]
        · rfl
        · exact fun _ _ hc => absurd hc hne

/-- A parenthesis is special, so an escaped literal does not start with one. -/
theorem dropCaseMarks_escape (cs : List Char) : dropCaseMarks (escape cs) = escape cs := by
  cases cs with
  | nil => rfl
  | cons c cs =>
      rw [escape]
      split_ifs with hspecial
      · rfl
      · have hne : c ≠ '(' := by
          rintro rfl
          exact hspecial (by decide)
        rw [dropCaseMarks]
        exact fun _ hc => hne (List.cons.inj hc).1

theorem ofWritten_written (s : String) : ofWritten (containing s).written = containing s := by
  have hdrop : dropCaseMarks (caseMark ++ escape s.toList) = escape s.toList :=
    dropCaseMarks_escape s.toList
  have hne : escape s.toList ≠ caseMark ++ escape s.toList := by
    intro h
    have hlength := congrArg List.length h
    simp [caseMark] at hlength
    omega
  simp [written, containing, ofWritten, hdrop, hne]

/-! ### Searching -/

theorem startsWith_iff {part cs : List Char} :
    startsWith (· == ·) part cs = true ↔ part <+: cs := by
  induction part generalizing cs with
  | nil => simp [startsWith]
  | cons p ps ih =>
      cases cs with
      | nil => simp [startsWith]
      | cons c cs => simp [startsWith, ih, List.cons_prefix_cons]

theorem occursIn_iff {part cs : List Char} :
    occursIn (· == ·) part cs = true ↔ part <:+: cs := by
  induction cs with
  | nil => simp [occursIn]
  | cons c cs ih => rw [occursIn, Bool.or_eq_true, startsWith_iff, ih, List.infix_cons_iff]

/-- A search for a text finds the texts that contain it, whatever the case of the letters. -/
theorem foundIn_containing_iff {s t : String} :
    (containing s).foundIn t = true ↔
      s.toList.map Text.letter <:+: t.toList.map Text.letter := by
  rw [← occursIn_iff]
  simp [foundIn, containing, literal?_escape]

theorem map_infix_map_iff {α β : Type} {f : α → β} {l m : List α} :
    l.map f <:+: m.map f ↔
      ∃ before part after, m = before ++ part ++ after ∧ List.Forall₂ (fun a b => f a = f b) l part := by
  have hpairwise (part : List α) :
      l.map f = part.map f ↔ List.Forall₂ (fun a b => f a = f b) l part := by
    rw [← List.forall₂_eq_eq_eq, List.forall₂_map_left_iff, List.forall₂_map_right_iff]
  constructor
  · rintro ⟨front, back, h⟩
    obtain ⟨head, after, rfl, hhead, rfl⟩ := List.map_eq_append_iff.mp h.symm
    obtain ⟨before, part, rfl, rfl, hpart⟩ := List.map_eq_append_iff.mp hhead
    exact ⟨before, part, after, rfl, (hpairwise part).mp hpart.symm⟩
  · rintro ⟨before, part, after, rfl, h⟩
    refine ⟨before.map f, after.map f, ?_⟩
    rw [(hpairwise part).mpr h, List.map_append, List.map_append]

/-- A search for a text finds the texts that have a part which is the same text letter by letter. -/
theorem foundIn_containing_iff_exists {s t : String} :
    (containing s).foundIn t = true ↔ ∃ before part after,
      t.toList = before ++ part ++ after ∧ List.Forall₂ Text.SameLetter s.toList part := by
  rw [foundIn_containing_iff, map_infix_map_iff]
  rfl

end Pattern

end DocFilter
