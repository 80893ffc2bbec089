import DocFilter.Proofs.Store.Ordering
import DocFilter.Proofs.Store.Planning

/-!
What statements select.

A statement visits rows in the order of its plan, may stop when it has found enough of them, and
sorts what it has found unless the order of visits settles the order of results. None of this shows
in the results: they are a part of the satisfying rows, stably sorted (`select_sorted`). So with a
limit they are a part of the results without one (`select_part`), without sort keys they are in the
order of the table (`select_unsorted`), and a count is the number of satisfying rows
(`countRows_eq_ok`). The keys of a table have to be distinct for this, since only then the order of
keys leaves nothing open.
-/

namespace DocFilter

open Outcome

namespace Selection

/-- The beginning of a list, if it is bounded. -/
def upTo {α : Type} (bound : Option Nat) (l : List α) : List α :=
  match bound with
  | some n => l.take n
  | none => l

/-- The part of some results that a limit and a number of results to skip leave. A negative limit is
none, and a negative number to skip is zero. -/
def part {α : Type} (limit skip : Int) (l : List α) : List α :=
  if limit < 0 then l.drop skip.toNat else (l.drop skip.toNat).take limit.toNat

theorem map_part {α β : Type} (f : α → β) (limit skip : Int) (l : List α) :
    (part limit skip l).map f = part limit skip (l.map f) := by
  unfold part
  split <;> simp

/-- To know a part of some results it is enough to know as many of them as it reaches. -/
theorem part_take {α : Type} {limit skip : Int} {n : Nat} (hlimit : ¬limit < 0)
    (hn : skip.toNat + limit.toNat ≤ n) (l : List α) :
    part limit skip (l.take n) = part limit skip l := by
  simp only [part, if_neg hlimit, List.drop_take, List.take_take]
  congr 1
  omega

def Found.source (f : Found) : Row × Nat := (f.row, f.place)

/-! ### Visiting rows -/

/-- A visit finds the rows that satisfy the tests, in the order of visits and up to the number that
is enough, each with the values to sort by. -/
theorem scan_eq_ok {tests : List Condition} {refs : List Reference} {enough : Option Nat}
    {rows : List (Row × Nat)} {found : List Found}
    (h : scan tests refs enough rows = .ok found) :
    found.map Found.source = upTo enough (rows.filter fun p => p.1.satisfies tests) ∧
      ∀ f ∈ found, refs.mapM f.row.read = .ok f.keys := by
  induction rows generalizing enough found with
  | nil =>
      cases enough <;> simp only [scan, Except.ok.injEq] at h <;> simp [← h, upTo]
  | cons head rest ih =>
      obtain ⟨row, place⟩ := head
      by_cases hzero : enough = some 0
      · subst hzero
        simp only [scan, Except.ok.injEq] at h
        simp [← h, upTo]
      · rw [scan] at h
        · obtain ⟨holds, hholds, h⟩ := bind_eq_ok_iff.mp h
          have hsatisfies : row.satisfies tests = holds := by simp [Row.satisfies, hholds]
          rw [List.filter_cons]
          simp only [hsatisfies]
          cases holds with
          | false => exact ih h
          | true =>
              obtain ⟨keys, hkeys, h⟩ := bind_eq_ok_iff.mp h
              obtain ⟨found', hfound', h⟩ := bind_eq_ok_iff.mp h
              rw [pure_eq_ok_iff] at h
              subst h
              obtain ⟨hrows, hread⟩ := ih hfound'
              refine ⟨?_, by simpa using ⟨hkeys, hread⟩⟩
              rw [List.map_cons, hrows]
              cases enough with
              | none => simp [upTo, Found.source]
              | some n =>
                  have hn : n ≠ 0 := fun hn => hzero (by rw [hn])
                  -- One row less is enough of the rest.
                  obtain ⟨m, rfl⟩ := Nat.exists_eq_succ_of_ne_zero hn
                  simp [upTo, Found.source]
        · intro hsome
          exact hzero hsome

/-- The satisfying rows in the order in which a plan visits them. -/
def matched (plan : Plan) (terms : List Condition) (rows : List Row) : List (Row × Nat) :=
  (plan.visited rows).filter fun p => p.1.satisfies terms

theorem explore_eq_ok {plan : Plan} {terms : List Condition} {refs : List Reference}
    {enough : Option Nat} {rows : List Row} {found : List Found}
    (hplan : ∀ row, plan.Passes row ↔ row.satisfies terms = true)
    (h : explore plan refs enough rows = .ok found) :
    found.map Found.source = upTo enough (matched plan terms rows) ∧
      ∀ f ∈ found, refs.mapM f.row.read = .ok f.keys := by
  unfold explore at h
  obtain ⟨early, hearly, h⟩ := bind_eq_ok_iff.mp h
  have hpasses : ∀ row : Row, row.satisfies terms = true ↔
      (early = true ∧ row.satisfies plan.tests = true) := by
    intro row
    rw [← hplan row, Plan.Passes, ← Condition.evalAll_eq_true_iff, hearly, Row.satisfies_iff]
    simp
  cases early with
  | false =>
      simp only [Bool.false_eq_true, if_false, pure_eq_ok_iff] at h
      have hnone : matched plan terms rows = [] := by
        rw [matched, List.filter_eq_nil_iff]
        intro p _
        simp [hpasses p.1]
      rw [hnone, ← h]
      cases enough <;> simp [upTo]
  | true =>
      have htests : ∀ row : Row, row.satisfies plan.tests = row.satisfies terms := by
        intro row
        rw [Bool.eq_iff_iff, hpasses row]
        simp
      simpa only [htests, matched] using scan_eq_ok h

/-! ### The order of visits -/

theorem matched_perm (plan : Plan) (terms : List Condition) (rows : List Row) :
    (matched plan terms rows).Perm (rows.zipIdx.filter fun p => p.1.satisfies terms) :=
  (plan.visited_perm rows).filter _

theorem map_zipIdx_filter (terms : List Condition) (rows : List Row) :
    (rows.zipIdx.filter fun p => p.1.satisfies terms).map (·.1) =
      rows.filter (·.satisfies terms) := by
  conv_rhs => rw [← List.zipIdx_map_fst 0 rows]
  rw [List.filter_map]
  rfl

theorem length_matched (plan : Plan) (terms : List Condition) (rows : List Row) :
    (matched plan terms rows).length = (rows.filter (·.satisfies terms)).length := by
  rw [(matched_perm plan terms rows).length_eq, ← map_zipIdx_filter, List.length_map]

/-- If a key is demanded by name, at most one row satisfies the conditions. -/
theorem length_filter_le_one {terms others : List Condition} {operand : Value} {rows : List Row}
    (hkey : Condition.lastKeyEquality? terms = some (operand, others))
    (hdistinct : Row.Distinct rows) : (rows.filter (·.satisfies terms)).length ≤ 1 := by
  obtain ⟨equality, hequality, hperm⟩ := Condition.perm_of_lastKeyEquality? hkey
  have hsame : ∀ row ∈ rows.filter (·.satisfies terms),
      Scalar.text row.key = (Scalar.ofValue operand).asText := by
    intro row hrow
    have htrue := Row.satisfies_iff.mp (List.mem_filter.mp hrow).2 equality
      (hperm.mem_iff.mpr (List.mem_cons_self ..))
    exact ((Condition.isTrue_keyEquality_iff hequality).mp htrue).symm
  have hnodup : ((rows.filter (·.satisfies terms)).map (·.key)).Nodup :=
    hdistinct.sublist (List.filter_sublist.map _)
  generalize rows.filter (·.satisfies terms) = found at hsame hnodup ⊢
  match found with
  | [] => simp
  | [_] => simp
  | a :: b :: rest =>
      have hab : a.key = b.key := by
        have := (hsame a (by simp)).trans (hsame b (by simp)).symm
        simpa using this
      simp [hab] at hnodup

/-- A plan that settles sort keys visits rows in the order of insertion, where that is asked for; or
looks up a single key; or visits rows in the order of keys, where the first sort key is the key. -/
theorem settled_cases {terms : List Condition} {order : List SortKey}
    (h : 0 < (Plan.toSort terms order).settled) :
    (order = [] ∧ (Plan.toSort terms order).byKey = false ∧
      (Plan.toSort terms order).settled = 1) ∨
    ((∃ operand others, Condition.lastKeyEquality? terms = some (operand, others)) ∧
      (Plan.toSort terms order).settled = order.length + 1) ∨
    ∃ descending rest, order = ⟨.key, descending⟩ :: rest ∧
      (Plan.toSort terms order).byKey = true ∧
      (Plan.toSort terms order).descending = descending := by
  unfold Plan.toSort at h ⊢
  split at h
  · rename_i operand others hkey
    rw [hkey]
    dsimp only [Plan.lookup] at h ⊢
    split at h
    · cases h
    · exact .inr (.inl ⟨⟨operand, others, rfl⟩, by simp [*]⟩)
  · rename_i hkey
    rw [hkey]
    generalize hroute : Route.toSort terms order = routed at h
    obtain ⟨route, settled⟩ := routed
    simp only [Plan.follow] at h ⊢
    -- Only a sorted walk along a route settles any keys.
    have hsettled : settled = route.settled order := by
      unfold Route.toSort at hroute
      split at hroute
      · cases hroute
        cases h
      · dsimp only at hroute
        split at hroute
        · cases hroute
          cases h
        · cases hroute
          rfl
    have hpositive := h
    rw [hsettled] at h
    unfold Route.settled at h hsettled
    split at h
    · rename_i hbyKey
      exact .inl ⟨rfl, hbyKey, by simpa [hbyKey] using hsettled⟩
    · rename_i descending rest hbyKey
      exact .inr (.inr ⟨descending, rest, rfl, hbyKey, by simp [hpositive]⟩)
    · cases h

/-! ### The order of results -/

/-- What is sorted by keys of which none comes twice comes with smaller keys first. -/
theorem pairwise_lt_mergeSort {α β : Type} [LinearOrder β] (key : α → β) {before : α → α → Bool}
    {l : List α} (hbefore : ∀ a b, before a b = true ↔ key a ≤ key b)
    (hne : (l.mergeSort before).Pairwise fun a b => key a ≠ key b) :
    (l.mergeSort before).Pairwise fun a b => key a < key b := by
  have hsorted := @List.pairwise_mergeSort _ before
    (fun a b c hab hbc => by
      rw [hbefore] at hab hbc ⊢
      exact hab.trans hbc)
    (fun a b => by
      rw [Bool.or_eq_true, hbefore, hbefore]
      exact le_total _ _) l
  exact (hsorted.and hne).imp fun {a b} hab => lt_of_le_of_ne ((hbefore a b).mp hab.1) hab.2

/-- Rows that are visited in the order of keys come in that order, in one direction or the other. -/
theorem visited_pairwise {plan : Plan} {rows : List Row} (hkey : plan.byKey = true)
    (hdistinct : Row.Distinct rows) :
    (plan.visited rows).Pairwise fun a b =>
      if plan.descending then b.1.key < a.1.key else a.1.key < b.1.key := by
  have hnodup : ((plan.visited rows).map (·.1.key)).Nodup := by
    have hperm := (plan.visited_perm rows).map (·.1.key)
    have hkeys : rows.zipIdx.map (·.1.key) = rows.map (·.key) := by
      conv_rhs => rw [← List.zipIdx_map_fst 0 rows, List.map_map]
      rfl
    rw [hperm.nodup_iff, hkeys]
    exact hdistinct
  have hne : (plan.visited rows).Pairwise fun a b => a.1.key ≠ b.1.key :=
    List.pairwise_map.mp hnodup
  have hle (s t : String) : (Scalar.compareTexts s t != .gt) = true ↔ s ≤ t := by
    rw [bne_iff_ne, Scalar.compareTexts_ne_gt_iff]
  unfold Plan.visited at hne ⊢
  rw [if_pos hkey] at hne ⊢
  cases hdescending : plan.descending with
  | true =>
      simp only [hdescending, if_true] at hne ⊢
      -- Downwards is upwards in the opposite order.
      exact pairwise_lt_mergeSort (fun p : Row × Nat => OrderDual.toDual p.1.key)
        (fun a b => hle b.1.key a.1.key) hne
  | false =>
      simp only [hdescending, Bool.false_eq_true, if_false] at hne ⊢
      exact pairwise_lt_mergeSort (fun p : Row × Nat => p.1.key)
        (fun a b => hle a.1.key b.1.key) hne

theorem map_source_sortRows {order : List SortKey} {found : List Found}
    (hkeys : ∀ f ∈ found, (order.map (·.ref)).mapM f.row.read = .ok f.keys) :
    (sortRows order found).map Found.source =
      sortPlaced (Row.compareBy order) (found.map Found.source) := by
  refine List.map_mergeSort fun a ha b hb => ?_
  have hle (o : Ordering) : (o != .gt) = o.isLE := by cases o <;> rfl
  rw [hle, Row.compareKeys_eq_compareBy (hkeys a ha) (hkeys b hb)]
  rfl

/-! ### Results -/

variable {s : Selection} {rows result all : List Row} {limit skip : Int}

def plan (s : Selection) : Plan := Plan.toSort (Condition.conjunctsOf s.conditions) s.order

/-- The number of rows that is enough for a limit and a number of rows to skip. -/
def wanted? (s : Selection) (limit skip : Int) : Option Nat :=
  if limit < 0 then none else s.enough? s.plan (skip.toNat + limit.toNat)

def sortRefs (s : Selection) : List Reference :=
  if s.plan.settled = s.order.length + 1 then [] else s.order.map (·.ref)

/-- The rows that a visit has found, in the order of results. -/
def inOrder (s : Selection) (found : List Found) : List Found :=
  if s.plan.settled = s.order.length + 1 then found else sortRows s.order found

/-- The satisfying rows of a table, in the order of visits. -/
def visits (s : Selection) (rows : List Row) : List (Row × Nat) :=
  matched s.plan (Condition.conjunctsOf s.conditions) rows

/-- What a visit finds is put in order, and a part of it is what the statement yields. -/
theorem select_eq (s : Selection) (limit skip : Int) (rows : List Row) :
    s.select limit skip rows =
      (explore s.plan s.sortRefs (s.wanted? limit skip) rows).map fun found =>
        part limit skip ((s.inOrder found).map (·.row)) := by
  unfold select sortRefs inOrder
  dsimp only
  split
  · rename_i hplan
    have hsettled : s.plan.settled = s.order.length + 1 := hplan
    simp only [if_pos hsettled]
    exact bind_pure_comp ..
  · rename_i hplan
    have hsettled : ¬s.plan.settled = s.order.length + 1 := hplan
    simp only [if_neg hsettled]
    change (explore s.plan (s.order.map (·.ref)) (s.wanted? limit skip) rows).map _ >>= _ = _
    cases explore s.plan (s.order.map (·.ref)) (s.wanted? limit skip) rows <;> rfl

theorem select_eq_ok (h : s.select limit skip rows = .ok result) :
    ∃ found, found.map Found.source = upTo (s.wanted? limit skip) (s.visits rows) ∧
      (∀ f ∈ found, s.sortRefs.mapM f.row.read = .ok f.keys) ∧
      result = part limit skip ((s.inOrder found).map (·.row)) := by
  rw [select_eq] at h
  obtain ⟨found, hfound, rfl⟩ := map_eq_ok_iff.mp h
  obtain ⟨hsource, hkeys⟩ := explore_eq_ok (fun _ => Plan.passes_toSort_iff) hfound
  exact ⟨found, hsource, hkeys, rfl⟩

theorem select_of_explore {found : List Found}
    (h : explore s.plan s.sortRefs (s.wanted? limit skip) rows = .ok found) :
    s.select limit skip rows = .ok (part limit skip ((s.inOrder found).map (·.row))) := by
  rw [select_eq, h]
  rfl

theorem map_row_eq (found : List Found) :
    found.map (·.row) = (found.map Found.source).map (·.1) := by
  simp [Found.source, Function.comp_def]

theorem part_all {α : Type} (l : List α) : part (-1) 0 l = l := by
  simp [part]

/-- The satisfying rows of a table, sorted; where the sort keys leave rows equal, in the order of
the table. -/
def sorted (s : Selection) (rows : List Row) : List Row :=
  (rows.filter (·.satisfies s.conditions)).mergeSort fun a b => (Row.compareBy s.order a b).isLE

theorem pairwise_zipIdx_filter (terms : List Condition) (rows : List Row) :
    (rows.zipIdx.filter fun p => p.1.satisfies terms).Pairwise fun a b => a.2 < b.2 := by
  apply List.Pairwise.filter
  rw [List.pairwise_iff_getElem]
  intro i j hi hj hij
  simpa using hij

/-- In whatever order they are visited, the satisfying rows can be sorted. -/
theorem map_sortPlaced_visits (s : Selection) (rows : List Row) :
    (sortPlaced (Row.compareBy s.order) (s.visits rows)).map (·.1) = s.sorted rows := by
  have hplaces := pairwise_zipIdx_filter (Condition.conjunctsOf s.conditions) rows
  rw [visits, sortPlaced_of_perm hplaces (matched_perm ..), map_sortPlaced hplaces,
    map_zipIdx_filter, sorted]
  simp only [Row.satisfies_conjunctsOf]

theorem visits_pairwise (hdistinct : Row.Distinct rows) (hsettled : s.plan.settled ≠ 0) :
    (s.visits rows).Pairwise fun a b => (comparePlaced (Row.compareBy s.order) a b).isLE = true := by
  obtain ⟨horder, hbyKey, -⟩ | ⟨⟨operand, others, hkey⟩, -⟩ |
      ⟨descending, rest, horder, hbyKey, hdescending⟩ := settled_cases (Nat.pos_of_ne_zero hsettled)
  · -- Without sort keys the order of results is the order of places.
    have hvisits : s.visits rows =
        rows.zipIdx.filter fun p => p.1.satisfies (Condition.conjunctsOf s.conditions) := by
      unfold visits matched Plan.visited
      rw [show s.plan.byKey = false from hbyKey]
      rfl
    rw [hvisits, horder]
    exact (pairwise_zipIdx_filter ..).imp fun hab =>
      comparePlaced_isLE_iff.mpr (.inr ⟨rfl, hab.le⟩)
  · -- The key is looked up, so there is at most one row to put in order.
    have hlength := length_filter_le_one hkey hdistinct
    rw [← length_matched s.plan] at hlength
    match hvisits : s.visits rows with
    | [] => exact List.Pairwise.nil
    | [_] => exact List.pairwise_singleton ..
    | _ :: _ :: _ =>
        rw [visits] at hvisits
        simp [hvisits] at hlength
  · -- Rows that are visited in the order of keys are in order by the first sort key.
    have hpairwise := @visited_pairwise s.plan rows hbyKey hdistinct
    rw [show s.plan.descending = descending from hdescending] at hpairwise
    refine (hpairwise.filter _).imp fun {a b} hab => comparePlaced_isLE_iff.mpr (.inl ?_)
    rw [horder, Row.compareBy]
    cases descending with
    | true =>
        have hlt : (b.1.value .key).compare (a.1.value .key) = .lt :=
          Scalar.compareTexts_lt_iff.mpr (by simpa using hab)
        simp [hlt]
    | false =>
        have hlt : (a.1.value .key).compare (b.1.value .key) = .lt :=
          Scalar.compareTexts_lt_iff.mpr (by simpa using hab)
        simp [hlt]

theorem map_source_inOrder (hdistinct : Row.Distinct rows) {found : List Found} {n : Option Nat}
    (hsource : found.map Found.source = upTo n (s.visits rows))
    (hkeys : ∀ f ∈ found, s.sortRefs.mapM f.row.read = .ok f.keys) :
    (s.inOrder found).map Found.source =
      sortPlaced (Row.compareBy s.order) (upTo n (s.visits rows)) := by
  unfold inOrder
  by_cases hall : s.plan.settled = s.order.length + 1
  · have hpairwise := visits_pairwise hdistinct (by rw [hall]; exact Nat.succ_ne_zero _)
    rw [if_pos hall, hsource, sortPlaced, List.mergeSort_of_pairwise]
    cases n with
    | none => exact hpairwise
    | some n => exact hpairwise.sublist (List.take_sublist ..)
  · rw [sortRefs, if_neg hall] at hkeys
    rw [if_neg hall, map_source_sortRows hkeys, hsource]

/-- What a statement yields with a limit and a number of rows to skip is a part of the satisfying
rows, stably sorted. -/
theorem select_sorted (hdistinct : Row.Distinct rows) (h : s.select limit skip rows = .ok result) :
    result = part limit skip (s.sorted rows) := by
  obtain ⟨found, hsource, hkeys, rfl⟩ := select_eq_ok h
  rw [map_row_eq, map_source_inOrder hdistinct hsource hkeys, ← map_sortPlaced_visits, ← map_part,
    ← map_part]
  congr 1
  by_cases hzero : s.plan.settled = 0
  · -- Nothing is settled, so every row is visited, with a limit or without one.
    have hwanted : s.wanted? limit skip = none := by
      simp [wanted?, enough?, hzero]
    rw [hwanted, upTo]
  · -- The visits are in order already, so the first of them are the first results.
    have hpairwise := visits_pairwise hdistinct hzero
    have hsame : sortPlaced (Row.compareBy s.order) (s.visits rows) = s.visits rows :=
      List.mergeSort_of_pairwise hpairwise
    rw [hsame]
    by_cases hlimit : limit < 0
    · rw [wanted?, if_pos hlimit, upTo, hsame]
    · have hwanted : ∃ n, s.wanted? limit skip = some n ∧ skip.toNat + limit.toNat ≤ n := by
        unfold wanted? enough?
        rw [if_neg hlimit]
        split
        · exact ⟨_, rfl, le_refl _⟩
        · exact ⟨_, if_pos (Nat.pos_of_ne_zero hzero), Nat.le_succ _⟩
      obtain ⟨n, hn, hle⟩ := hwanted
      have htaken : sortPlaced (Row.compareBy s.order) ((s.visits rows).take n) =
          (s.visits rows).take n :=
        List.mergeSort_of_pairwise (hpairwise.sublist (List.take_sublist ..))
      rw [hn, upTo, htaken]
      exact part_take hlimit hle _

/-- What a statement yields with a limit and a number of rows to skip is a part of what it yields
without them. -/
theorem select_part (hdistinct : Row.Distinct rows) (hall : s.select (-1) 0 rows = .ok all)
    (h : s.select limit skip rows = .ok result) : result = part limit skip all := by
  rw [select_sorted hdistinct h, select_sorted hdistinct hall, part_all]

/-- Without sort keys the results are the satisfying rows in the order of the table. -/
theorem select_unsorted (hdistinct : Row.Distinct rows) (horder : s.order = [])
    (h : s.select limit skip rows = .ok result) :
    result = part limit skip (rows.filter (·.satisfies s.conditions)) := by
  rw [select_sorted hdistinct h, sorted, horder]
  exact congrArg _ (List.mergeSort_of_pairwise (List.pairwise_of_forall fun _ _ => rfl))

/-- Visits that do not stop early read the tests of every row. -/
theorem scan_reads {tests : List Condition} {refs : List Reference} {visits : List (Row × Nat)}
    {found : List Found} (h : scan tests refs none visits = .ok found) :
    ∀ p ∈ visits, ∃ holds, Condition.evalAll p.1.read tests = .ok holds := by
  induction visits generalizing found with
  | nil => simp
  | cons p rest ih =>
      unfold scan at h
      obtain ⟨holds, hholds, h⟩ := bind_eq_ok_iff.mp h
      refine List.forall_mem_cons.mpr ⟨⟨holds, hholds⟩, ?_⟩
      cases holds with
      | false => exact ih h
      | true =>
          obtain ⟨keys, _, h⟩ := bind_eq_ok_iff.mp h
          obtain ⟨others, hothers, _⟩ := bind_eq_ok_iff.mp h
          exact ih hothers

/-- A plan that visits all rows, and is not about one key, decides every row: the row satisfies the
conditions, or one of them was read and does not hold. -/
theorem explore_decides {plan : Plan} {terms : List Condition} {refs : List Reference}
    {found : List Found} (hearly : plan.early = terms.filter Condition.isConstant)
    (htests : ∀ c, c ∈ plan.tests ↔ c ∈ terms) (h : explore plan refs none rows = .ok found)
    {row : Row} (hrow : row ∈ rows) :
    row.satisfies terms = true ∨ ∃ c ∈ terms, c.IsRefuted row.read := by
  unfold explore at h
  obtain ⟨holds, hholds, h⟩ := bind_eq_ok_iff.mp h
  cases holds with
  | true =>
      obtain ⟨place, hvisited⟩ : ∃ place, (row, place) ∈ plan.visited rows := by
        obtain ⟨place, hplace⟩ := List.mem_iff_getElem?.mp hrow
        exact ⟨place, (Plan.visited_perm ..).mem_iff.mpr
          (List.mk_mem_zipIdx_iff_getElem?.mpr hplace)⟩
      obtain ⟨holds, hholds⟩ := scan_reads h _ hvisited
      obtain hall | ⟨c, hc, hrefuted⟩ := Condition.cases_of_evalAll hholds
      · left
        rw [Row.satisfies_iff]
        exact fun c hc => hall c ((htests c).mpr hc)
      · exact .inr ⟨c, (htests c).mp hc, hrefuted⟩
  | false =>
      -- What is decided early does not depend on the row.
      obtain hall | ⟨c, hc, truth, htruth, hother⟩ := Condition.cases_of_evalAll hholds
      · rw [Condition.evalAll_eq_true_iff.mpr hall] at hholds
        cases hholds
      · rw [hearly] at hc
        obtain ⟨hmem, hconstant⟩ := List.mem_filter.mp hc
        refine .inr ⟨c, hmem, truth, ?_, hother⟩
        rw [← htruth]
        apply Condition.eval_congr
        intro ref href
        rw [List.isEmpty_iff.mp hconstant] at href
        cases href

/-- A statement that yields all its results, and is not about one key, has decided every row. -/
theorem select_decides (hkey : Condition.lastKeyEquality? (Condition.conjunctsOf s.conditions) = none)
    (h : s.select (-1) 0 rows = .ok all) {row : Row} (hrow : row ∈ rows) :
    row.satisfies s.conditions = true ∨
      ∃ c ∈ Condition.conjunctsOf s.conditions, c.IsRefuted row.read := by
  have hexplore : ∃ refs found, explore s.plan refs none rows = .ok found := by
    unfold select at h
    dsimp only at h
    split at h
    · obtain ⟨found, hfound, _⟩ := bind_eq_ok_iff.mp h
      exact ⟨_, found, hfound⟩
    · obtain ⟨found, hfound, _⟩ := bind_eq_ok_iff.mp h
      obtain ⟨unsorted, hunsorted, _⟩ := map_eq_ok_iff.mp hfound
      exact ⟨_, unsorted, hunsorted⟩
  obtain ⟨refs, found, hfound⟩ := hexplore
  obtain ⟨hearly, htests⟩ : s.plan.early = _ ∧ ∀ c, c ∈ s.plan.tests ↔ _ :=
    Plan.toSort_of_no_keyEquality hkey
  rw [← Row.satisfies_conjunctsOf]
  exact explore_decides hearly htests hfound hrow

theorem inOrder_perm (s : Selection) (found : List Found) : (s.inOrder found).Perm found := by
  unfold inOrder
  split
  · exact List.Perm.refl _
  · exact List.mergeSort_perm ..

theorem mem_of_mem_select (h : s.select limit skip rows = .ok result) {row : Row}
    (hrow : row ∈ result) : row ∈ rows.filter (·.satisfies s.conditions) := by
  obtain ⟨found, hsource, _, rfl⟩ := select_eq_ok h
  have hfound : row ∈ (found.map Found.source).map (·.1) := by
    rw [← map_row_eq, ← ((s.inOrder_perm found).map _).mem_iff]
    unfold part at hrow
    split at hrow
    · exact List.mem_of_mem_drop hrow
    · exact List.mem_of_mem_drop (List.mem_of_mem_take hrow)
  have hvisited : row ∈ (s.visits rows).map (·.1) := by
    rw [hsource] at hfound
    unfold upTo at hfound
    split at hfound
    · exact List.map_subset _ (List.take_subset ..) hfound
    · exact hfound
  rw [visits, ((matched_perm ..).map _).mem_iff, map_zipIdx_filter] at hvisited
  simpa only [Row.satisfies_conjunctsOf] using hvisited

theorem select_perm (h : s.select (-1) 0 rows = .ok all) :
    all.Perm (rows.filter (·.satisfies s.conditions)) := by
  obtain ⟨found, hsource, _, rfl⟩ := select_eq_ok h
  simp only [wanted?, show (-1 : Int) < 0 by decide, if_true, upTo] at hsource
  rw [part_all]
  refine ((s.inOrder_perm found).map _).trans ?_
  rw [map_row_eq, hsource]
  refine ((matched_perm ..).map _).trans ?_
  rw [map_zipIdx_filter]
  simp only [Row.satisfies_conjunctsOf]
  exact List.Perm.refl _

end Selection

theorem countRows_eq_ok {conditions : List Condition} {table : Table} {n : Nat}
    (h : countRows conditions table = .ok n) :
    n = (table.rows.filter (·.satisfies conditions)).length := by
  obtain ⟨_, _, h⟩ := bind_eq_ok_iff.mp h
  obtain ⟨found, hfound, h⟩ := bind_eq_ok_iff.mp h
  rw [pure_eq_ok_iff] at h
  obtain ⟨hsource, _⟩ := Selection.explore_eq_ok (fun _ => Plan.passes_toCount_iff)
    (mapError_eq_ok_iff.mp hfound)
  have hlength := congrArg List.length hsource
  rw [List.length_map, Selection.upTo, Selection.length_matched] at hlength
  rw [← h, hlength]
  simp only [Row.satisfies_conjunctsOf]

/-- A count that is not about one key has decided every row. -/
theorem countRows_decides {conditions : List Condition} {table : Table} {n : Nat}
    (hkey : Condition.lastKeyEquality? (Condition.conjunctsOf conditions) = none)
    (h : countRows conditions table = .ok n) {row : Row} (hrow : row ∈ table.rows) :
    row.satisfies conditions = true ∨
      ∃ c ∈ Condition.conjunctsOf conditions, c.IsRefuted row.read := by
  obtain ⟨_, _, h⟩ := bind_eq_ok_iff.mp h
  obtain ⟨found, hfound, _⟩ := bind_eq_ok_iff.mp h
  obtain ⟨hearly, htests⟩ := Plan.toCount_of_no_keyEquality hkey
  rw [← Row.satisfies_conjunctsOf]
  exact Selection.explore_decides hearly htests (mapError_eq_ok_iff.mp hfound) hrow

end DocFilter
