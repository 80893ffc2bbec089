import DocFilter.Proofs.Paging.Windows
import Mathlib.Data.List.Nodup

/-!
Unsorted pages of a table that grows while they are fetched.

Other clients only ever add rows behind those that are there, and whether a row satisfies some
filters depends on this row alone. So the satisfying rows of a table at one moment are a beginning
of those at a later one (`rows_found_grows`), and a row keeps its place among them for good. The
pages of one size take slots that do not overlap, each from the satisfying rows of its own moment:
put together they are a part of the satisfying rows in the order of the table, and they hold
whatever stood in one of the slots when the first page was fetched.
-/

namespace DocFilter

open Outcome DocFilter.Action

/-! ### Slots of growing lists -/

section Slots

variable {α : Type} {lists : Nat → List α} {whole : List α} {limit offset count : Nat}

/-- The slots of lists that are beginnings of one list form a part of its beginning, in order. -/
theorem slots_sublist (hgrows : ∀ p, p < count → lists p <+: whole) :
    ((List.range count).flatMap fun p => ((lists p).drop (offset + p * limit)).take limit).Sublist
      (whole.take (offset + count * limit)) := by
  induction count with
  | zero => simp
  | succ count ih =>
      have hsplit : whole.take (offset + (count + 1) * limit) =
          whole.take (offset + count * limit) ++
            (whole.drop (offset + count * limit)).take limit := by
        rw [← List.take_add, Nat.succ_mul, Nat.add_assoc]
      rw [List.range_succ, List.flatMap_append, List.flatMap_singleton, hsplit]
      refine (ih fun p hp => hgrows p (Nat.lt_succ_of_lt hp)).append ?_
      obtain ⟨rest, rfl⟩ := hgrows count (Nat.lt_succ_self _)
      rw [List.drop_append, List.take_append]
      exact List.sublist_append_left ..

/-- What stands at a place that a slot covers is in the slot of any longer list. -/
theorem mem_slots {i : Nat} {a : α} (hlimit : 0 < limit)
    (hgrows : ∀ p, p < count → lists 0 <+: lists p) (hlow : offset ≤ i)
    (hhigh : i < offset + count * limit) (ha : (lists 0)[i]? = some a) :
    a ∈ (List.range count).flatMap fun p => ((lists p).drop (offset + p * limit)).take limit := by
  set p := (i - offset) / limit with hp
  have hdiv := Nat.div_add_mod (i - offset) limit
  have hmod := Nat.mod_lt (i - offset) hlimit
  have hcomm : limit * ((i - offset) / limit) = p * limit := by rw [hp, Nat.mul_comm]
  have hcount : p < count := by
    rw [hp, Nat.div_lt_iff_lt_mul hlimit]
    omega
  obtain ⟨rest, hrest⟩ := hgrows p hcount
  have hthere : (lists p)[i]? = some a := by
    rw [← hrest, List.getElem?_append_left (List.getElem?_eq_some_iff.mp ha).1, ha]
  refine List.mem_flatMap.mpr ⟨p, List.mem_range.mpr hcount, ?_⟩
  refine List.mem_of_getElem? (i := i - (offset + p * limit)) ?_
  rw [List.getElem?_take_of_lt (by omega), List.getElem?_drop,
    Nat.add_sub_cancel' (by omega), hthere]

end Slots

/-! ### The growth of a table in use by others -/

namespace SharedTable

variable {t : SharedTable} {name : TableName} {j k : Nat}

theorem reachable_found (h : t.table.store.Reachable) (call : Nat) : (t.found call).Reachable :=
  h.run _

/-- The rows that a call finds are a beginning of those that a later call finds. -/
theorem rows_found_grows (h : t.table.store.Reachable) (hjk : j ≤ k) :
    (t.found j).rows name <+: (t.found k).rows name := by
  have hsplit : t.others.take (k + 1) = t.others.take (j + 1) ++
      (t.others.take (k + 1)).drop (j + 1) := by
    conv_lhs => rw [← List.take_append_drop (j + 1) (t.others.take (k + 1))]
    rw [List.take_take, Nat.min_eq_left (by omega)]
  have hrows := ((Store.rows_run (h.run (t.others.take (j + 1)).flatten).location
    ((t.others.take (k + 1)).drop (j + 1)).flatten).2 name).1
  rw [found, found, hsplit, List.flatten_append, Store.run_append, hrows]
  exact List.prefix_append ..

end SharedTable

/-! ### The rows that filters select -/

namespace Service

def conditions (s : Service) (filters : Value) : Except Failure (List Condition) := do
  let built ← s.builder.build filters
  Condition.ofValue Cursor.columns (Collection.conditionsOf built)

/-- The row satisfies some filters. Filters that cannot be compiled are not satisfied. -/
def selects (s : Service) (filters : Value) (row : Row) : Bool :=
  match s.conditions filters with
  | .ok conditions => row.satisfies conditions
  | .error _ => false

theorem selects_of_statement {s : Service} {filters sortBy sortDirection : Value}
    {statement : Selection} (h : s.statement filters sortBy sortDirection = .ok statement) :
    s.selects filters = fun row => row.satisfies statement.conditions := by
  obtain ⟨built, hbuilt, h⟩ := bind_eq_ok_iff.mp h
  obtain ⟨sorted, hsorted, h⟩ := bind_eq_ok_iff.mp h
  obtain ⟨calls, _, hselection⟩ := bind_eq_ok_iff.mp h
  obtain ⟨entries, rfl⟩ := Builder.build_eq_ok hbuilt
  have hentries : sorted.conditions = .map entries := by
    rw [(Builder.applySort_eq_ok hsorted).1]
  rw [Collection.conditionsOf_map hentries] at hselection
  have hconditions : s.conditions filters = .ok statement.conditions := by
    refine bind_eq_ok_iff.mpr ⟨_, hbuilt, ?_⟩
    rw [Collection.conditionsOf_map rfl]
    exact Cursor.conditions_selection hselection
  funext row
  rw [selects, hconditions]

end Service

/-! ### Requests one after the other -/

variable {σ : Type} {c : Collection σ} {view : σ → StoredTable} {finds : σ → Nat → Store}
  {service : Service} {filters : Value} {limit offset : Nat} {query direction : Nat → Value}
  {pages : Nat → Page}

/-- Every one of some unsorted pages that were fetched one after the other holds its slot of the
satisfying rows, in the store that the last of its five calls finds. -/
theorem Collection.Serves.fetchAll_slots (hc : c.Serves view finds) (hlimit : 0 < limit)
    {first count : Nat} {state : σ} (hreach : ∀ k, (finds state k).Reachable)
    (hasks : ∀ p, first ≤ p → p < first + count →
      service.AsksFor (query p) filters .null (direction p) ⟨limit, p + 1, offset⟩)
    (hfetch : (service.fetchAll c ((List.range' first count).map query) state).1 =
      (List.range' first count).map fun p => .ok (pages p)) :
    ∀ p, first ≤ p → p < first + count →
      ((((((finds state (5 * (p - first) + 4)).rows (view state).name).filter
        (service.selects filters)).drop (offset + p * limit)).take limit).map Row.record).mapM
          service.present = .ok (pages p).data := by
  induction count generalizing first state with
  | zero =>
      intro p hlow hhigh
      omega
  | succ count ih =>
      rw [List.range'_succ, List.map_cons, List.map_cons] at hfetch
      simp only [Service.fetchAll, List.cons.injEq] at hfetch
      obtain ⟨hhead, htail⟩ := hfetch
      obtain ⟨message, hhead⟩ := Service.fetch_eq_ok hhead
      obtain ⟨statement, rows, _, _, sorts, hstatement, hsorts, _, _, hselect, hdata, _, _, _, _, _,
        hname, hlater⟩ := hc.fetchPage_window (hasks first (le_refl _) (by omega)) hlimit
          (fun k => (hreach k).location) hhead
      rw [hsorts rfl] at hselect hlater
      intro p hlow hhigh
      obtain rfl | hlt := Nat.eq_or_lt_of_le hlow
      · have hrows := Selection.select_unsorted ((hreach _).distinct _)
          (Service.order_statement hstatement) hselect
        rw [Service.selects_of_statement hstatement, Nat.sub_self, ← hdata, hrows,
          Selection.part, if_neg (by omega), Int.toNat_natCast, Int.toNat_natCast]
        rfl
      · have htail := ih (fun k => by rw [hlater]; exact hreach _)
          (fun p hp hcount => hasks p (by omega) (by omega)) htail p hlt (by omega)
        rw [hlater, hname] at htail
        rwa [show 5 * (p - (first + 1)) + 4 + 0 + 5 = 5 * (p - first) + 4 by omega] at htail

namespace SharedTable

/-- A client fetches pages of one size behind one offset, one after the other and without a sort,
and others use the store meanwhile. Every page holds a slot of the satisfying rows there are when
its records are looked up, by the last of its five calls. All rows returned stand in the order of
the table and none is returned twice, and a satisfying row that was there when the records of the
first page were looked up, at a place that the pages cover, is returned exactly once. -/
theorem unsorted_pages_stable (t : SharedTable) (hreach : t.table.store.Reachable)
    (service : Service) (filters : Value) (limit offset : Nat) (hlimit : 1 ≤ limit) (count : Nat)
    (query direction : Nat → Value) (pages : Nat → Page)
    (hasks : ∀ p < count,
      service.AsksFor (query p) filters .null (direction p) ⟨limit, p + 1, offset⟩)
    (hfetch : (service.fetchAll collection ((List.range count).map query) t).1 =
      (List.range count).map fun p => .ok (pages p)) :
    let matching (call : Nat) :=
      ((t.found call).rows t.table.name).filter (service.selects filters)
    let slot (p : Nat) := ((matching (5 * p + 4)).drop (offset + p * limit)).take limit
    let returned := (List.range count).flatMap slot
    (∀ p < count, ((slot p).map Row.record).mapM service.present = .ok (pages p).data) ∧
    returned.Sublist ((t.found (5 * count)).rows t.table.name) ∧ Row.Distinct returned ∧
    ∀ i row, offset ≤ i → i < offset + count * limit → (matching 4)[i]? = some row →
      returned.count row = 1 := by
  intro matching slot returned
  have hgrow : ∀ {j k}, j ≤ k → matching j <+: matching k :=
    fun hjk => (rows_found_grows hreach hjk).filter _
  have hsublist : returned.Sublist ((t.found (5 * count)).rows t.table.name) := by
    have hslots : returned.Sublist ((matching (5 * count)).take (offset + count * limit)) :=
      slots_sublist fun p hp => hgrow (by omega)
    exact (hslots.trans (List.take_sublist ..)).trans List.filter_sublist
  have hdistinct : Row.Distinct returned :=
    ((reachable_found hreach _).distinct _).sublist (hsublist.map _)
  refine ⟨fun p hp => ?_, hsublist, hdistinct, fun i row hlow hhigh hrow => ?_⟩
  · rw [List.range_eq_range'] at hfetch
    exact SharedTable.serves.fetchAll_slots hlimit (reachable_found hreach)
      (fun p _ hp => hasks p (by omega)) hfetch p (Nat.zero_le _) (by omega)
  · have hmem : row ∈ returned :=
      @mem_slots _ (fun p => matching (5 * p + 4)) limit offset count i row hlimit
        (fun p _ => hgrow (by omega)) hlow hhigh hrow
    exact List.count_eq_one_of_mem (List.Nodup.of_map _ hdistinct) hmem

/-- A document that is inserted between the count and the records of the first page comes last. -/
theorem unsorted_pages_stable_insert :
    let docs : TableName := ⟨"docs"⟩
    let document (key : String) (n : Int) : Value :=
      .map [(keyName, .text key), (.text "n", .int n)]
    let insert (documents : List Value) := (docs, Step.insert (.list documents))
    let store := (({} : Store).run
      [(docs, .create), insert [document "a" 2, document "b" 7, document "c" 2]]).2
    let t : SharedTable := ⟨{ store, name := docs }, [[], [insert [document "d" 3]]]⟩
    let filters := Value.list [.clause (.text "n") (.text "<") (.int 5)]
    let query (p : Nat) : Value :=
      .request filters (.paging (.int (p + 1 : Nat)) (.int 2) .null .null .null)
    let results := (({} : Service).fetchAll collection ((List.range 2).map query) t).1
    let pages (p : Nat) :=
      (results.getD p (.error .circular)).toOption.getD ⟨[], .int 0, 0, 0⟩
    (pages 0).data.length = 2 ∧ (pages 1).data.length = 1 := by
  intro docs document insert store t filters query results pages
  have hresults : results = [results.getD 0 (.error .circular),
      results.getD 1 (.error .circular)] := rfl
  have hfetch : results = (List.range 2).map fun p => .ok (pages p) := by
    have hfirst : results.getD 0 (.error .circular) = .ok (pages 0) :=
      eq_ok_of_isOk _ (by decide +kernel)
    have hsecond : results.getD 1 (.error .circular) = .ok (pages 1) :=
      eq_ok_of_isOk _ (by decide +kernel)
    rw [hresults, hfirst, hsecond]
    rfl
  have hcases : ∀ p < 2, p = 0 ∨ p = 1 := fun p hp => by omega
  obtain ⟨hslots, _⟩ := unsorted_pages_stable t ⟨0, _, rfl⟩ {} filters 2 0 (by decide) 2 query
    (fun _ => .null) pages
    (fun p hp => by
      obtain rfl | rfl := hcases p hp
      · exact ⟨_, _, _, rfl, rfl⟩
      · exact ⟨_, _, _, rfl, rfl⟩) hfetch
  have hlengths := fun p hp => (mapM_eq_ok_iff.mp (hslots p hp)).length_eq
  refine ⟨(hlengths 0 (by decide)).symm.trans ?_, (hlengths 1 (by decide)).symm.trans ?_⟩
  · decide +kernel
  · decide +kernel

end SharedTable

end DocFilter
