import DocFilter.Proofs.Outcome
import DocFilter.Proofs.Sql.Order
import DocFilter.Store.Selection
import Mathlib.Data.List.Nodup

/-!
Rows in order.

Sort keys put rows in order by the values that their references have. The store accepts no document
with a number that is no number, so every value that is read has its place in the order of values
(`stands_value`) and the order of rows is total and transitive. To sort by it and, among equal rows,
by their places is to sort stably by it (`map_sortPlaced`).
-/

namespace DocFilter

open Outcome

/-! ### Parts of documents -/

namespace Json

theorem isStrict_of_mem_items {items : List Json} (h : areStrict items = true) :
    ∀ item ∈ items, item.isStrict = true := by
  induction items with
  | nil => simp
  | cons item rest ih =>
      obtain ⟨hitem, hrest⟩ := Bool.and_eq_true_iff.mp h
      exact List.forall_mem_cons.mpr ⟨hitem, ih hrest⟩

theorem isStrict_of_mem_members {members : List (List Char × Json)}
    (h : membersAreStrict members = true) : ∀ m ∈ members, m.2.isStrict = true := by
  induction members with
  | nil => simp
  | cons m rest ih =>
      obtain ⟨hvalue, hrest⟩ := Bool.and_eq_true_iff.mp h
      exact List.forall_mem_cons.mpr ⟨hvalue, ih hrest⟩

theorem mem_of_member? {members : List (List Char × Json)} {label : List Char} {value : Json}
    (h : member? members label = some value) : ∃ m ∈ members, m.2 = value := by
  obtain ⟨before, after, rfl, -⟩ := List.lookup_eq_some_iff.mp h
  exact ⟨(label, value), by simp, rfl⟩

theorem mem_of_item? {items : List Json} {index : Index} {value : Json}
    (h : index.item? items = some value) : value ∈ items := by
  cases index with
  | fromStart n => exact List.mem_of_getElem? h
  | fromEnd n =>
      simp only [Index.item?] at h
      split_ifs at h
      exact List.mem_of_getElem? h

theorem isStrict_of_walk {fuel : Nat} {path : List Char} {json part : Json}
    (hstrict : json.isStrict = true) (h : walk fuel path json = .ok (some part)) :
    part.isStrict = true := by
  fun_induction walk fuel path json
  case case1 =>
    cases h
    exact hstrict
  case case4 hmember ih =>
    obtain ⟨m, hm, rfl⟩ := mem_of_member? hmember
    exact ih (isStrict_of_mem_members hstrict m hm) h
  case case9 hitem ih => exact ih (isStrict_of_mem_items hstrict _ (mem_of_item? hitem)) h
  all_goals cases h

end Json

/-! ### Values of references -/

theorem Binary64.ofRank_ne_nan (negative : Bool) (rank : Nat) : ofRank negative rank ≠ nan := by
  unfold ofRank
  split
  · exact Binary64.noConfusion
  · exact Binary64.noConfusion

theorem Numeral.toBinary64_ne_nan (n : Numeral) : n.toBinary64 ≠ .nan := by
  unfold toBinary64 Binary64.ofDecimal Binary64.ofRatio
  dsimp only
  split_ifs <;> first | apply Binary64.ofRank_ne_nan | exact Binary64.noConfusion

namespace Scalar

theorem stands_ofLiteral (literal : List Char) : (ofLiteral literal).Stands := by
  unfold ofLiteral Numeral.toNumber
  intro h
  split at h
  · split_ifs at h
    exact Binary64.ofRank_ne_nan _ _ (real.inj h)
  · rename_i x hx
    split_ifs at hx
    exact Numeral.toBinary64_ne_nan _ ((Number.real.inj hx).trans (real.inj h))

theorem stands_ofJson {json : Json} (h : json.isStrict = true) : (ofJson json).Stands := by
  cases json with
  | number literal => exact stands_ofLiteral literal
  | special x => cases h
  | null | bool _ | text _ | array _ | object _ => exact Scalar.noConfusion

theorem isStrict_of_documentOf {document : String} {json : Json}
    (h : documentOf document = .ok json) : json.isStrict = true := by
  unfold documentOf at h
  split at h
  · split_ifs at h with hstorable
    cases h
    exact (Bool.and_eq_true_iff.mp hstorable).1
  · cases h

end Scalar

theorem Reference.stands_extract {document path : String} {v : Scalar}
    (h : extract document path = .ok v) : v.Stands := by
  unfold extract at h
  split at h
  · cases h
  · rename_i json hjson
    split at h
    · cases h
    · rename_i part hpart
      cases h
      exact Scalar.stands_ofJson (Json.isStrict_of_walk (Scalar.isStrict_of_documentOf hjson) hpart)
    · cases h
      exact Scalar.noConfusion

namespace Row

variable {row : Row} {ref : Reference} {v : Scalar}

theorem stands_read (h : row.read ref = .ok v) : v.Stands := by
  cases ref with
  | key =>
      cases h
      exact Scalar.noConfusion
  | path path => exact Reference.stands_extract h

/-- The value that a reference has in a row; null where it cannot be read. -/
def value (row : Row) (ref : Reference) : Scalar := (row.read ref).toOption.getD .null

theorem value_of_read (h : row.read ref = .ok v) : row.value ref = v := by
  rw [value, h]
  rfl

theorem stands_value (row : Row) (ref : Reference) : (row.value ref).Stands := by
  unfold value
  cases h : row.read ref with
  | error fault => exact Scalar.noConfusion
  | ok v => exact stands_read h

/-- The order of rows by sort keys: by the first one, downwards if it says so, and among rows that
are equal in it by the others. -/
def compareBy : List SortKey → Row → Row → Ordering
  | [], _, _ => .eq
  | key :: keys, a, b =>
    (if key.descending then (b.value key.ref).compare (a.value key.ref)
      else (a.value key.ref).compare (b.value key.ref)).then (compareBy keys a b)

theorem transCmp_value (ref : Reference) :
    Std.TransCmp fun a b : Row => (a.value ref).compare (b.value ref) where
  eq_swap {a b} := by
    rw [Scalar.compare_eq_compareStanding (stands_value a ref) (stands_value b ref),
      Scalar.compare_eq_compareStanding (stands_value b ref) (stands_value a ref)]
    exact Std.OrientedCmp.eq_swap
  isLE_trans {a b c} hab hbc := by
    rw [Scalar.compare_eq_compareStanding (stands_value _ ref) (stands_value _ ref)] at *
    exact Std.TransCmp.isLE_trans hab hbc

instance (order : List SortKey) : Std.TransCmp (compareBy order) := by
  induction order with
  | nil => exact { eq_swap := rfl, isLE_trans := fun _ _ => rfl }
  | cons key keys ih =>
      have hvalue := transCmp_value key.ref
      have hfirst : Std.TransCmp fun a b : Row =>
          if key.descending then (b.value key.ref).compare (a.value key.ref)
          else (a.value key.ref).compare (b.value key.ref) := by
        cases key.descending with
        | true => exact @Std.TransCmp.opposite _ _ hvalue
        | false => exact hvalue
      exact inferInstanceAs (Std.TransCmp (compareLex _ (compareBy keys)))

/-- Rows are compared by the values that were read to sort them. -/
theorem compareKeys_eq_compareBy {order : List SortKey} {a b : Row} {as bs : List Scalar}
    (ha : (order.map (·.ref)).mapM a.read = .ok as) (hb : (order.map (·.ref)).mapM b.read = .ok bs) :
    Selection.compareKeys order as bs = compareBy order a b := by
  induction order generalizing as bs with
  | nil => rfl
  | cons key keys ih =>
      obtain ⟨x, xs, hx, hxs, rfl⟩ := List.forall₂_cons_left_iff.mp (mapM_eq_ok_iff.mp ha)
      obtain ⟨y, ys, hy, hys, rfl⟩ := List.forall₂_cons_left_iff.mp (mapM_eq_ok_iff.mp hb)
      rw [Selection.compareKeys, compareBy, ih (mapM_eq_ok_iff.mpr hxs) (mapM_eq_ok_iff.mpr hys),
        value_of_read hx, value_of_read hy]

end Row

/-! ### Stable sorting -/

namespace Selection

variable {α : Type} {cmp : α → α → Ordering} {l m : List (α × Nat)}

/-- An order of what stands at places, by the place where it leaves two equal. -/
def comparePlaced (cmp : α → α → Ordering) : α × Nat → α × Nat → Ordering :=
  compareLex (fun a b => cmp a.1 b.1) (compareOn (·.2))

instance [Std.TransCmp cmp] : Std.TransCmp (comparePlaced cmp) :=
  have : Std.TransCmp fun a b : α × Nat => cmp a.1 b.1 :=
    { eq_swap := Std.OrientedCmp.eq_swap, isLE_trans := Std.TransCmp.isLE_trans }
  inferInstanceAs (Std.TransCmp (compareLex _ _))

/-- What stands at places comes no later than something else exactly if the order says so by itself
or leaves them equal and the place is no later. -/
theorem comparePlaced_isLE_iff {a b : α × Nat} : (comparePlaced cmp a b).isLE = true ↔
    cmp a.1 b.1 = .lt ∨ cmp a.1 b.1 = .eq ∧ a.2 ≤ b.2 := by
  show ((cmp a.1 b.1).then (compare a.2 b.2)).isLE = true ↔ _
  cases cmp a.1 b.1 with
  | lt | gt => simp
  | eq => simp [Nat.isLE_compare]

/-- Sorts what stands at places, with regard to them. -/
def sortPlaced (cmp : α → α → Ordering) (l : List (α × Nat)) : List (α × Nat) :=
  l.mergeSort fun a b => (comparePlaced cmp a b).isLE

theorem sortPlaced_perm (cmp : α → α → Ordering) (l : List (α × Nat)) :
    (sortPlaced cmp l).Perm l := List.mergeSort_perm ..

variable [Std.TransCmp cmp]

theorem pairwise_sortPlaced (l : List (α × Nat)) :
    (sortPlaced cmp l).Pairwise fun a b => (comparePlaced cmp a b).isLE = true := by
  refine List.pairwise_mergeSort (fun a b c => Std.TransCmp.isLE_trans) (fun a b => ?_) l
  have hswap : comparePlaced cmp b a = (comparePlaced cmp a b).swap := Std.OrientedCmp.eq_swap
  rw [hswap]
  cases comparePlaced cmp a b <;> rfl

/-- What stands at growing places is sorted stably if it is sorted with regard to places. -/
theorem map_sortPlaced (hplaces : l.Pairwise fun a b => a.2 < b.2) :
    (sortPlaced cmp l).map (·.1) = (l.map (·.1)).mergeSort fun a b => (cmp a b).isLE := by
  -- The positions in the list are in the order of the places.
  have hposition : ∀ a ∈ l.zipIdx, ∀ b ∈ l.zipIdx, (a.1.2 ≤ b.1.2 ↔ a.2 ≤ b.2) := by
    rintro ⟨a, i⟩ ha ⟨b, j⟩ hb
    obtain ⟨hi, rfl⟩ := List.getElem?_eq_some_iff.mp (List.mk_mem_zipIdx_iff_getElem?.mp ha)
    obtain ⟨hj, rfl⟩ := List.getElem?_eq_some_iff.mp (List.mk_mem_zipIdx_iff_getElem?.mp hb)
    have hgrows := List.pairwise_iff_getElem.mp hplaces
    obtain hij | rfl | hij := lt_trichotomy i j
    · exact iff_of_true (hgrows i j hi hj hij).le hij.le
    · exact iff_of_true le_rfl le_rfl
    · exact iff_of_false (hgrows j i hj hi hij).not_ge hij.not_ge
  have hle : ∀ a ∈ l.zipIdx, ∀ b ∈ l.zipIdx, (comparePlaced cmp a.1 b.1).isLE =
      List.zipIdxLE (fun a b => (cmp a b).isLE) (a.1.1, a.2) (b.1.1, b.2) := by
    intro a ha b hb
    have hswap : cmp b.1.1 a.1.1 = (cmp a.1.1 b.1.1).swap := Std.OrientedCmp.eq_swap
    rw [Bool.eq_iff_iff, comparePlaced_isLE_iff, hposition a ha b hb, List.zipIdxLE, hswap]
    cases cmp a.1.1 b.1.1 <;> simp
  let sorted := l.zipIdx.mergeSort fun a b => (comparePlaced cmp a.1 b.1).isLE
  have hsorted : sorted.map (·.1) = sortPlaced cmp l := by
    rw [List.map_mergeSort (s := fun a b => (comparePlaced cmp a b).isLE) fun a _ b _ => rfl,
      List.zipIdx_map_fst]
    rfl
  calc (sortPlaced cmp l).map (·.1)
      = (sorted.map fun p => (p.1.1, p.2)).map (·.1) := by
        rw [← hsorted, List.map_map, List.map_map]
        rfl
    _ = ((l.map (·.1)).zipIdx.mergeSort
          (List.zipIdxLE fun a b => (cmp a b).isLE)).map (·.1) := by
        rw [List.map_mergeSort hle, List.zipIdx_map]
        rfl
    _ = (l.map (·.1)).mergeSort fun a b => (cmp a b).isLE := List.mergeSort_zipIdx

/-- Sorted with regard to places, a list does not depend on the order in which it was given. -/
theorem sortPlaced_of_perm (hplaces : l.Pairwise fun a b => a.2 < b.2) (hperm : m.Perm l) :
    sortPlaced cmp m = sortPlaced cmp l := by
  have hinjective : ∀ a ∈ l, ∀ b ∈ l, a.2 = b.2 → a = b := by
    have hnodup : (l.map (·.2)).Nodup := List.pairwise_map.mpr (hplaces.imp fun h => h.ne)
    exact fun a ha b hb => List.inj_on_of_nodup_map hnodup ha hb
  have hsame : (sortPlaced cmp m).Perm (sortPlaced cmp l) :=
    ((sortPlaced_perm cmp m).trans hperm).trans (sortPlaced_perm cmp l).symm
  refine List.Perm.eq_of_pairwise (fun a b ha hb hab hba => ?_) (pairwise_sortPlaced m)
    (pairwise_sortPlaced l) hsame
  have ha : a ∈ l := hperm.mem_iff.mp ((sortPlaced_perm cmp m).mem_iff.mp ha)
  refine hinjective a ha b ((sortPlaced_perm cmp l).mem_iff.mp hb) ?_
  have hswap : cmp b.1 a.1 = (cmp a.1 b.1).swap := Std.OrientedCmp.eq_swap
  rw [comparePlaced_isLE_iff] at hab hba
  obtain hlt | ⟨heq, hle⟩ := hab
  · simp [hswap, hlt] at hba
  · exact hle.antisymm (by simpa [hswap, heq] using hba)

end Selection

end DocFilter
