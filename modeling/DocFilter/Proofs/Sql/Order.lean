import DocFilter.Proofs.Number.Order
import DocFilter.Sql.Scalar
import Mathlib.Data.String.Basic

/-!
The order of the store.

The order of texts is the lexicographic order by code points, which is the order of strings. So it
is linear, and two texts are equal in it only if they are the same text: keys can be told apart by
comparing them.

The order of all values goes by class first (`compare_of_rank_ne`), then by number, then by code
(`compare_eq_compareStanding`). As a lexicographic order of linear ones it is total and transitive.
The real that is no number would be equal to every number and break this, so it is kept out.
-/

namespace DocFilter

namespace Scalar

abbrev compareChars (s t : List Char) : Ordering :=
  compareLists (fun a b => Ord.compare a.toNat b.toNat) s t

theorem compareChars_eq_iff {s t : List Char} : compareChars s t = .eq ↔ s = t := by
  induction s generalizing t with
  | nil => cases t <;> simp [compareChars, compareLists]
  | cons a s ih =>
      cases t with
      | nil => simp [compareChars, compareLists]
      | cons b t =>
          simp only [compareChars, compareLists, Ordering.then_eq_eq, Nat.compare_eq_eq,
            Char.toNat_inj, List.cons.injEq]
          rw [← ih]

theorem compareChars_lt_iff {s t : List Char} : compareChars s t = .lt ↔ s < t := by
  induction s generalizing t with
  | nil => cases t <;> simp [compareChars, compareLists]
  | cons a s ih =>
      cases t with
      | nil => simp [compareChars, compareLists]
      | cons b t =>
          have hlt : a.toNat < b.toNat ↔ a < b := by
            rw [Char.lt_def, UInt32.lt_iff_toNat_lt]
            rfl
          simp only [compareChars, compareLists, Ordering.then_eq_lt, Nat.compare_eq_lt,
            Nat.compare_eq_eq, Char.toNat_inj, List.cons_lt_cons_iff, hlt]
          rw [← ih]

theorem swap_compareChars (s t : List Char) : (compareChars s t).swap = compareChars t s := by
  induction s generalizing t with
  | nil => cases t <;> rfl
  | cons a s ih =>
      cases t with
      | nil => rfl
      | cons b t =>
          simp only [compareChars, compareLists, Ordering.swap_then, Nat.compare_swap]
          exact congrArg _ (ih t)

theorem compareTexts_eq_compareChars (s t : String) :
    compareTexts s t = compareChars s.toList t.toList := rfl

theorem compareTexts_eq_iff {s t : String} : compareTexts s t = .eq ↔ s = t := by
  rw [compareTexts_eq_compareChars, compareChars_eq_iff, String.toList_inj]

theorem compareTexts_lt_iff {s t : String} : compareTexts s t = .lt ↔ s < t := by
  rw [compareTexts_eq_compareChars, compareChars_lt_iff, String.lt_iff_toList_lt]

theorem compareTexts_gt_iff {s t : String} : compareTexts s t = .gt ↔ t < s := by
  rw [← compareTexts_lt_iff, compareTexts_eq_compareChars, compareTexts_eq_compareChars,
    ← swap_compareChars t.toList s.toList, Ordering.swap_eq_gt]

/-- A text does not stand behind another one exactly if it is at most that one. -/
theorem compareTexts_ne_gt_iff {s t : String} : compareTexts s t ≠ .gt ↔ s ≤ t := by
  rw [ne_eq, compareTexts_gt_iff, not_lt]

/-- To compare lists by numbers of their items is to compare the lists of these numbers. -/
theorem compareLists_eq_compareLex {α : Type} (f : α → Nat) (s t : List α) :
    compareLists (fun a b => Ord.compare (f a) (f b)) s t =
      List.compareLex Ord.compare (s.map f) (t.map f) := by
  induction s generalizing t with
  | nil => cases t <;> rfl
  | cons a s ih =>
      cases t with
      | nil => rfl
      | cons b t =>
          rw [compareLists, ih, List.map_cons, List.map_cons, List.compareLex_cons_cons]

end Scalar

/-! ### The number line -/

namespace Level

theorem swap_compare (a b : Level) : (a.compare b).swap = b.compare a := by
  cases a with
  | point m =>
      cases b with
      | point n => exact (@Std.OrientedCmp.eq_swap Int Ord.compare _ n m).symm
      | bottom | top => rfl
  | bottom | top => cases b <;> rfl

instance : Ord Level := ⟨Level.compare⟩

instance : Std.TransOrd Level where
  eq_swap {a b} := (swap_compare b a).symm
  isLE_trans {a b c} hab hbc := by
    cases a with
    | bottom => cases c <;> rfl
    | top =>
        cases b with
        | top => exact hbc
        | bottom | point _ => cases hab
    | point m =>
        cases b with
        | bottom => cases hab
        | top =>
            cases c with
            | top => rfl
            | bottom | point _ => cases hbc
        | point n =>
            cases c with
            | bottom => cases hbc
            | top => rfl
            | point k => exact @Std.TransCmp.isLE_trans Int Ord.compare _ m n k hab hbc

end Level

theorem Number.exists_level {x : Number} (h : x ≠ .real .nan) : ∃ level, x.level? = some level := by
  cases x with
  | int n => exact ⟨_, rfl⟩
  | real x =>
      cases x with
      | nan => exact absurd rfl h
      | infinite negative => exact ⟨_, rfl⟩
      | finite negative rank => exact ⟨_, rfl⟩

/-! ### The order of values -/

namespace Scalar

variable {a b c : Scalar}

/-- The value has its place in the order: it is not the real that is no number. -/
def Stands (v : Scalar) : Prop := v ≠ .real .nan

def level (v : Scalar) : Level := (v.number?.bind Number.level?).getD .bottom

def codes : Scalar → List Nat
  | text s => s.toList.map Char.toNat
  | blob bytes => bytes.map UInt8.toNat
  | _ => []

/-- The order by class, in a class by number, and else by code. -/
def compareStanding : Scalar → Scalar → Ordering :=
  compareLex (compareOn rank) (compareLex (compareOn level) (compareOn codes))

instance : Std.TransCmp compareStanding :=
  inferInstanceAs (Std.TransCmp (compareLex _ _))

theorem compareStanding_eq (a b : Scalar) :
    compareStanding a b = (Ord.compare a.rank b.rank).then
      ((a.level.compare b.level).then (List.compareLex Ord.compare a.codes b.codes)) := rfl

theorem compare_of_rank_ne (h : a.rank ≠ b.rank) :
    a.compare b = Ord.compare a.rank b.rank := by
  cases a <;> cases b <;> first | rfl | exact absurd rfl h

theorem compare_numbers {x y : Number} (ha : a.number? = some x) (hb : b.number? = some y)
    (hx : x ≠ .real .nan) (hy : y ≠ .real .nan) : a.compare b = compareStanding a b := by
  obtain ⟨k, hk⟩ := Number.exists_level hx
  obtain ⟨l, hl⟩ := Number.exists_level hy
  have hcompare : a.compare b = (x.compare? y).getD .eq := by
    cases a <;> cases ha <;> cases b <;> cases hb <;> rfl
  have hstanding : compareStanding a b = a.level.compare b.level := by
    have hthen (o : Ordering) : o.then .eq = o := by cases o <;> rfl
    cases a <;> cases ha <;> cases b <;> cases hb <;> exact hthen _
  have hlevel : a.level = k ∧ b.level = l := by
    simp only [level, ha, hb, Option.bind_some, hk, hl, Option.getD_some, and_self]
  rw [hcompare, hstanding, hlevel.1, hlevel.2, Number.compare?, hk, hl]
  rfl

theorem compare_eq_compareStanding (ha : a.Stands) (hb : b.Stands) :
    a.compare b = compareStanding a b := by
  by_cases hrank : a.rank = b.rank
  · have hnumber {v : Scalar} {x : Number} (hv : v.Stands) (hx : v.number? = some x) :
        x ≠ .real .nan := by
      rintro rfl
      cases v <;> cases hx
      exact hv rfl
    cases a with
    | null =>
        cases b with
        | null => rfl
        | int _ | real _ | text _ | blob _ => cases hrank
    | text s =>
        cases b with
        | text t => exact compareLists_eq_compareLex Char.toNat s.toList t.toList
        | null | int _ | real _ | blob _ => cases hrank
    | blob s =>
        cases b with
        | blob t => exact compareLists_eq_compareLex UInt8.toNat s t
        | null | int _ | real _ | text _ => cases hrank
    | int _ | real _ =>
        cases b with
        | int _ | real _ => exact compare_numbers rfl rfl (hnumber ha rfl) (hnumber hb rfl)
        | null | text _ | blob _ => cases hrank
  · rw [compare_of_rank_ne hrank, compareStanding_eq]
    rw [← Nat.compare_eq_eq] at hrank
    cases h : Ord.compare a.rank b.rank with
    | eq => exact absurd h hrank
    | lt | gt => rfl

/-- What stands below a value stands below every value that is not below that one. -/
theorem compare_lt_of_lt_of_isLE (ha : a.Stands) (hb : b.Stands) (hc : c.Stands)
    (hab : a.compare b = .lt) (hbc : (b.compare c).isLE = true) : a.compare c = .lt := by
  rw [compare_eq_compareStanding ha hb] at hab
  rw [compare_eq_compareStanding hb hc] at hbc
  rw [compare_eq_compareStanding ha hc]
  exact Std.TransCmp.lt_of_lt_of_isLE hab hbc

end Scalar

end DocFilter
