import DocFilter.Proofs.Number.Quotient
import DocFilter.Proofs.Paging.Windows

/-!
Pages are the parts of all results, one behind the other.

All results of some filters and a sort are those of one query without a limit. A page holds the part
of them that its window covers: the statement behind it selects a part of the rows, and what a
service makes of a record depends on this record alone. The total of a page counts the results
behind the offset, so the number of pages is the quotient of total and page size rounded up, and
this many pages put together are all results behind the offset (`pages_partition_results`).
-/

namespace DocFilter

open Outcome DocFilter.Action

/-! ### Arithmetic of windows -/

section Slices

variable {α : Type}

/-- The results of the first pages, put together. -/
theorem flatMap_slices (all : List α) (limit count : Nat) :
    (List.range count).flatMap (fun i => (all.drop (i * limit)).take limit) =
      all.take (count * limit) := by
  induction count with
  | zero => simp
  | succ count ih =>
      rw [List.range_succ, List.flatMap_append, ih, List.flatMap_singleton, Nat.succ_mul,
        List.take_add]

theorem length_le_pages (total limit : Nat) (hlimit : 0 < limit) :
    total ≤ (total + limit - 1) / limit * limit := by
  have hdiv := Nat.div_add_mod (total + limit - 1) limit
  have hmod := Nat.mod_lt (total + limit - 1) hlimit
  rw [Nat.mul_comm] at hdiv
  omega

/-- A page behind the last one starts behind the end. -/
theorem length_le_of_lt_page {total limit page : Nat} (hlimit : 0 < limit)
    (h : (total + limit - 1) / limit < page) : total ≤ (page - 1) * limit :=
  (length_le_pages total limit hlimit).trans (Nat.mul_le_mul_right _ (by omega))

end Slices

namespace Service

theorem remaining_of_int {total : Value} {n : Int} (offset : Nat)
    (h : total.number? = some (.int n)) :
    remaining total offset = .ok (.int (max 0 (n - offset))) := by
  have hremaining : remaining total offset =
      .ok (if (Number.int 0).less (.int (n - offset)) then .int (n - offset) else .int 0) := by
    simp only [remaining, h, pure_bind]
    rfl
  rw [hremaining, Number.less_int]
  by_cases hpositive : (0 : Int) < n - offset
  · rw [if_pos (decide_eq_true hpositive), max_eq_right hpositive.le]
  · rw [if_neg (by simpa using hpositive), max_eq_left (not_lt.mp hpositive)]

theorem remaining_natCast (count offset : Nat) :
    remaining (.int (count : Nat)) offset = .ok (.int (count - offset : Nat)) := by
  rw [remaining_of_int offset rfl]
  congr 2
  omega

theorem pageCount_int (n : Int) (limit : Nat) :
    pageCount (.int n) limit = quotientCeiling (Binary64.ofRatio (n < 0) n.natAbs limit) := rfl

theorem quotientCeiling_eq_ok {quotient : Binary64} {n : Int} (h : quotient.ceiling? = some n) :
    quotientCeiling quotient = .ok n := by
  cases quotient with
  | nan => cases h
  | infinite negative => cases h
  | finite negative rank => simp only [quotientCeiling, ceiling, h]

theorem pageCount_of_ceiling? {total limit : Nat} {pages : Int}
    (h : (Binary64.ofRatio false total limit).ceiling? = some pages) :
    pageCount (.int (total : Nat)) limit = .ok pages := by
  have hratio : Binary64.ofRatio ((total : Int) < 0) (total : Int).natAbs limit =
      Binary64.ofRatio false total limit := by
    rw [decide_eq_false (by omega), Int.natAbs_natCast]
  rw [pageCount_int, hratio]
  exact quotientCeiling_eq_ok h

theorem exists_pageCount {total limit bits : Nat} (hlimit : 0 < limit) (hbits : bits ≤ 1023)
    (htotal : total < 2 ^ bits) : ∃ pages, pageCount (.int (total : Nat)) limit = .ok pages := by
  obtain ⟨pages, hpages⟩ := Binary64.exists_ceiling?_ofRatio hlimit hbits htotal
  exact ⟨pages, pageCount_of_ceiling? hpages⟩

theorem pageCount_natCast {total limit : Nat} (hlimit : 0 < limit) (hbound : limit ≤ 2 ^ 63)
    (htotal : total ≤ 2 ^ 53) :
    pageCount (.int (total : Nat)) limit = .ok ((total + limit - 1) / limit : Nat) := by
  have hfits : limit * 2 ^ 52 ≤ Binary64.one := by
    calc limit * 2 ^ 52 ≤ 2 ^ 115 := by omega
      _ ≤ Binary64.one := Binary64.two_pow_le_one (by decide)
  exact pageCount_of_ceiling? (Binary64.ceiling?_ofRatio hlimit hfits htotal)

end Service

/-! ### Pages -/

variable {store : Store} {name : TableName} {service : Service}
  {filters sortBy sortDirection : Value} {all : List Value}

/-- The items of a part of a list are the part of the items. -/
theorem mapM_part {f : Value → Except Failure Value} {items results : List Value}
    (h : items.mapM f = .ok results) (limit skip : Int) :
    (Selection.part limit skip items).mapM f = .ok (Selection.part limit skip results) := by
  rw [mapM_eq_ok_iff] at h ⊢
  unfold Selection.part
  split
  · exact List.forall₂_drop _ h
  · exact List.forall₂_take _ (List.forall₂_drop _ h)

/-- A page that was fetched from a reachable store is the part of all results that its window
covers. -/
theorem fetchPage_eq_slice {query : Value} {w : Window} {page : Page} (hreach : store.Reachable)
    (hall : service.everything store name filters sortBy sortDirection = .ok all)
    (hmatches : all.length ≤ 2 ^ 53) (hlimit : 0 < w.limit)
    (hasks : service.AsksFor query filters sortBy sortDirection w)
    (hfetch : store.fetchPage name service query = .ok page) :
    page.data = (all.drop w.skip).take w.limit ∧ page.total = .int (all.length - w.offset : Nat) ∧
      page.limit = w.limit ∧
      page.page = min w.page ((all.length - w.offset + w.limit - 1) / w.limit) := by
  obtain ⟨message, hfetch⟩ := Service.fetch_eq_ok hfetch
  obtain ⟨statement, rows, count, pages, sorts, hstatement, _, hthere, hbound, hselect, hdata,
    hcount, htotal, hpages, hpage, hlimited, _⟩ :=
    StoredTable.serves.fetchPage_window hasks hlimit (fun _ => hreach.location) hfetch
  obtain ⟨statement', allRows, hstatement', hselectAll, hdataAll⟩ :=
    Service.everything_eq_ok hreach.location hall
  obtain rfl : statement = statement' := Except.ok.inj (hstatement.symm.trans hstatement')
  have hrows := Selection.select_part (hreach.distinct name) hselectAll hselect
  have hmatched : all.length = count := by
    rw [hcount hthere, ← (mapM_eq_ok_iff.mp hdataAll).length_eq, List.length_map]
    exact (Selection.select_perm hselectAll).length_eq
  rw [Service.remaining_natCast, ← hmatched, Except.ok.injEq] at htotal
  have hexact : all.length - w.offset ≤ 2 ^ 53 := (Nat.sub_le ..).trans hmatches
  rw [← htotal, Service.pageCount_natCast hlimit hbound.le hexact, Except.ok.injEq] at hpages
  refine ⟨?_, htotal.symm, hlimited, by rw [hpage, ← hpages]; exact (Nat.cast_min ..).symm⟩
  have hpart := mapM_part hdataAll w.limit w.skip
  rw [← Selection.map_part, ← hrows, hdata, Except.ok.injEq] at hpart
  rw [hpart, Selection.part, if_neg (by omega), Int.toNat_natCast, Int.toNat_natCast]

namespace Store

/-- Whatever filters and sort a request has, and in whatever way it is spelled: its pages of one
size behind one offset are the parts of all results, in order. Every page knows the number of
results behind the offset, and the pages up to the last one are, put together, the results behind
the offset; the pages behind it are empty. -/
theorem pages_partition_results (store : Store) (hreach : store.Reachable) (name : TableName)
    (service : Service) (filters sortBy sortDirection : Value) (all : List Value)
    (hall : service.everything store name filters sortBy sortDirection = .ok all)
    (hmatches : all.length ≤ 2 ^ 53) (limit offset : Nat) (hlimit : 1 ≤ limit) (count : Nat)
    (query : Nat → Value) (pages : Nat → Page)
    (hasks : ∀ p, 1 ≤ p → p ≤ count →
      service.AsksFor (query p) filters sortBy sortDirection ⟨limit, p, offset⟩)
    (hfetch : ∀ p, 1 ≤ p → p ≤ count → store.fetchPage name service (query p) = .ok (pages p)) :
    let total := all.length - offset
    let last := (total + limit - 1) / limit
    (∀ p, 1 ≤ p → p ≤ count →
      (pages p).data = (all.drop (offset + (p - 1) * limit)).take limit ∧
      (pages p).data.length = min limit (total - (p - 1) * limit) ∧
      (last < p → (pages p).data = []) ∧
      (pages p).total = .int total ∧ (pages p).limit = limit ∧ (pages p).page = min p last) ∧
    (last ≤ count → (List.range last).flatMap (fun i => (pages (i + 1)).data) = all.drop offset) := by
  intro total last
  have hpage : ∀ p, 1 ≤ p → p ≤ count →
      (pages p).data = (all.drop (offset + (p - 1) * limit)).take limit ∧
        (pages p).total = .int total ∧ (pages p).limit = limit ∧ (pages p).page = min p last :=
    fun p hp hcount =>
      fetchPage_eq_slice (w := ⟨limit, p, offset⟩) hreach hall hmatches hlimit (hasks p hp hcount)
        (hfetch p hp hcount)
  have hlength : ∀ p, ((all.drop (offset + (p - 1) * limit)).take limit).length =
      min limit (total - (p - 1) * limit) := by
    intro p
    rw [List.length_take, List.length_drop, Nat.sub_add_eq]
  refine ⟨fun p hp hcount => ?_, fun hlast => ?_⟩
  · obtain ⟨hdata, hrest⟩ := hpage p hp hcount
    refine ⟨hdata, by rw [hdata, hlength], fun hbehind => ?_, hrest⟩
    rw [hdata, ← List.length_eq_zero_iff, hlength,
      Nat.sub_eq_zero_of_le (length_le_of_lt_page hlimit hbehind), Nat.min_zero]
  · have hslices : (List.range last).flatMap (fun i => (pages (i + 1)).data) =
        (List.range last).flatMap fun i => ((all.drop offset).drop (i * limit)).take limit := by
      refine List.flatMap_congr fun i hi => ?_
      have hi := List.mem_range.mp hi
      rw [(hpage (i + 1) (by omega) (by omega)).1, Nat.add_sub_cancel, List.drop_drop]
    rw [hslices, flatMap_slices, List.take_of_length_le]
    rw [List.length_drop]
    exact length_le_pages total limit hlimit

/-- Two pages of two for three documents. -/
theorem pages_partition_results_docs :
    let docs : TableName := ⟨"docs"⟩
    let document (key : String) (n : Int) : Value :=
      .map [(keyName, .text key), (.text "n", .int n)]
    let documents := Value.list [document "a" 2, document "b" 7, document "c" 2]
    let store := (({} : Store).run [(docs, .create), (docs, .insert documents)]).2
    let filters := Value.list [.clause (.text "n") (.text "<") (.int 9)]
    let query (p : Nat) : Value := .request filters (.paging (.int p) (.int 2) .null .null .null)
    let all := (({} : Service).everything store docs filters .null .null).toOption.getD []
    let pages (p : Nat) := (store.fetchPage docs {} (query p)).toOption.getD ⟨[], .int 0, 0, 0⟩
    all.length = 3 ∧ (pages 1).data.length = 2 ∧ (pages 2).data.length = 1 ∧
      (List.range 2).flatMap (fun i => (pages (i + 1)).data) = all := by
  intro docs document documents store filters query all pages
  have hcases : ∀ p, 1 ≤ p → p ≤ 2 → p = 1 ∨ p = 2 := fun p hp hcount => by omega
  have hlength : all.length = 3 := by decide +kernel
  have hpages := pages_partition_results store ⟨0, _, rfl⟩ docs {} filters .null .null all
    (eq_ok_of_isOk _ (by decide +kernel)) (by rw [hlength]; decide) 2 0 (by decide) 2 query pages
    (fun p hp hcount => by
      obtain rfl | rfl := hcases p hp hcount
      · exact ⟨_, _, _, rfl, rfl⟩
      · exact ⟨_, _, _, rfl, rfl⟩)
    (fun p hp hcount => by
      obtain rfl | rfl := hcases p hp hcount
      · exact eq_ok_of_isOk _ (by decide +kernel)
      · exact eq_ok_of_isOk _ (by decide +kernel))
  rw [hlength] at hpages
  obtain ⟨hparts, hwhole⟩ := hpages
  exact ⟨hlength, (hparts 1 (by decide) (by decide)).2.1, (hparts 2 (by decide) (by decide)).2.1,
    hwhole (by decide)⟩

end Store

end DocFilter
