import DocFilter.Proofs.Paging.Identifying
import DocFilter.Proofs.Paging.Protocol

/-!
Failures of statements, and how callers see them.

Once conditions are translated, a read can fail in the store only, or while its parameters are
bound: an integer with more than 64 bits is refused with a failure of its own kind and not as a
failure of the store (`Failure.OfStatement`). A service adds no failure to this: of what it does
around its two reads nothing can fail for a request that was prepared, provided that it can show the
records (`reads_fail_in_store`), as it can if its names are texts (`Service.Named.presents`). Such
integers can be operands, and limits and offsets as well (`fetch_refuses_wide_integer`).
-/

namespace DocFilter

open Outcome DocFilter.Action

/-- The failure is one of the store, or an integer among the parameters of the statement has more
than 64 bits. -/
def Failure.OfStatement (failure : Failure) (params : List Value) : Prop :=
  failure.kind = .backend ∨
    (failure = .integerTooWide ∧ ∃ n, .int n ∈ params ∧ Scalar.fits n = false)

theorem Failure.OfStatement.mono {failure : Failure} {params others : List Value}
    (h : failure.OfStatement params) (hsubset : params ⊆ others) : failure.OfStatement others :=
  h.imp_right fun ⟨hwide, n, hn, hfits⟩ => ⟨hwide, n, hsubset hn, hfits⟩

theorem Outcome.kind_of_mapError_store {α : Type} {x : Except StoreFault α} {failure : Failure}
    (h : x.mapError Failure.store = .error failure) : failure.kind = .backend := by
  cases x with
  | error fault =>
      cases h
      rfl
  | ok a => cases h

/-! ### Statements -/

theorem Scalar.checkBindings_eq_error {position : Nat} {params : List Value} {failure : Failure}
    (h : checkBindings position params = .error failure) : failure.OfStatement params := by
  induction params generalizing position with
  | nil => cases h
  | cons v rest ih =>
      rcases bind_eq_error_iff.mp h with hv | ⟨_, _, hrest⟩
      · unfold checkBinding at hv
        split at hv
        · rename_i n
          split_ifs at hv with hfits
          cases hv
          exact .inr ⟨rfl, n, List.mem_cons_self, by simpa using hfits⟩
        all_goals
          cases hv
        exact .inl rfl
      · exact (ih hrest).mono (List.subset_cons_self v rest)

namespace Store

variable {store : Store} {name : TableName} {conditions : List Condition} {failure : Failure}

theorem openTable_eq_error {columns : List String}
    (h : store.openTable name conditions columns = .error failure) : failure.kind = .backend :=
  kind_of_mapError_store h

theorem count_eq_error {v : Value} (hconditions : Condition.ofValue Cursor.columns v = .ok conditions)
    (h : store.count name v = .error failure) :
    failure.OfStatement (Condition.paramsList conditions) := by
  unfold count at h
  rw [hconditions] at h
  rcases bind_eq_error_iff.mp h with h | ⟨_, hcast, h⟩
  · cases h
  cases hcast
  rcases bind_eq_error_iff.mp h with h | ⟨table, _, h⟩
  · exact .inl (openTable_eq_error h)
  rcases bind_eq_error_iff.mp h with h | ⟨_, _, h⟩
  · exact Scalar.checkBindings_eq_error h
  rcases bind_eq_error_iff.mp h with h | ⟨_, _, h⟩
  · exact .inl (kind_of_mapError_store h)
  · cases h

theorem toList_eq_error {cursor : Cursor} {statement : Selection} {length : Value}
    (hstatement : cursor.statement length = .ok statement)
    (h : cursor.toList store name length = .error failure) :
    failure.OfStatement statement.params := by
  unfold Cursor.toList at h
  rw [hstatement] at h
  rcases bind_eq_error_iff.mp h with h | ⟨_, hcast, h⟩
  · cases h
  cases hcast
  rcases bind_eq_error_iff.mp h with h | ⟨table, _, h⟩
  · exact .inl (openTable_eq_error h)
  rcases bind_eq_error_iff.mp h with h | ⟨_, _, h⟩
  · rcases bind_eq_error_iff.mp h with h | ⟨_, _, h⟩
    · unfold Selection.checkOrder at h
      split_ifs at h
      cases h
      exact .inl rfl
    rcases bind_eq_error_iff.mp h with h | ⟨_, _, h⟩
    · exact Scalar.checkBindings_eq_error h
    · exact .inl (kind_of_mapError_store h)
  · cases h

/-- The integers among the parameters of a query that succeeds have at most 64 bits. -/
theorem fits_of_toList {cursor : Cursor} {statement : Selection} {length : Value}
    {records : List Value} {n : Int} (hstatement : cursor.statement length = .ok statement)
    (h : cursor.toList store name length = .ok records) (hn : .int n ∈ statement.params) :
    Scalar.fits n = true := by
  unfold Cursor.toList at h
  rw [hstatement] at h
  obtain ⟨_, hcast, h⟩ := bind_eq_ok_iff.mp h
  cases hcast
  obtain ⟨table, -, h⟩ := bind_eq_ok_iff.mp h
  obtain ⟨rows, hrun, -⟩ := bind_eq_ok_iff.mp h
  obtain ⟨place, hbinding⟩ := Scalar.checkBinding_of_mem (Selection.run_eq_ok hrun).1 hn
  rw [Scalar.checkBinding] at hbinding
  split_ifs at hbinding with hfits
  exact hfits

end Store

/-! ### Requests that were prepared -/

namespace Cursor

/-- The calls of a request set a sort by pairs of what can be referred to and a direction, and its
window. -/
theorem exists_refine (start : Cursor) {b : Builder} {p : Paging} (limit skip : Nat)
    (hstart : start.sort = []) (hnative : checkReference columns b.nativeKey = .ok ())
    (hsort : p.sortBy = .null ∨ p.sortBy.IsFieldName) :
    ∃ pairs : List Value, (∀ pair ∈ pairs, ∃ key, sortKey pair = .ok key) ∧
      List.foldlM StoredTable.refine start
          (b.sortCalls p ++ [.skip (.int skip), .limit (.int limit)]) =
        .ok { start with sort := pairs, skip := .int skip, limit := .int limit } := by
  unfold Builder.sortCalls
  split
  · exact ⟨[], by simp, by rw [← hstart]; rfl⟩
  · rename_i hsome
    obtain ⟨t, htext, -⟩ := hsort.resolve_left hsome
    have hfield : checkReference columns
        (if p.sortBy.equal b.publicKey then b.nativeKey else p.sortBy) = .ok () := by
      split_ifs
      · exact hnative
      · rw [htext]
        exact Condition.checkReference_text t
    exact ⟨_, List.forall_mem_singleton.mpr ⟨_, bind_eq_ok_iff.mpr ⟨_, rfl,
      bind_eq_ok_iff.mpr ⟨(), hfield, rfl⟩⟩⟩, rfl⟩

/-- The parameters of its statement are those of the conditions, paths to sort by, and the
window. -/
theorem exists_statement {entries : List (Value × Value)} {conditions : List Condition}
    {pairs : List Value} {limit : Nat} (skip : Nat) (hlimit : 0 < limit)
    (hpairs : ∀ pair ∈ pairs, ∃ key, sortKey pair = .ok key)
    (hconditions : Condition.ofValue columns (.map entries) = .ok conditions) :
    ∃ statement : Selection,
      ({ conditions := entries, sort := pairs, skip := .int skip, limit := .int limit } :
        Cursor).statement .null = .ok statement ∧
      ∀ n, .int n ∈ statement.params ↔
        .int n ∈ Condition.paramsList conditions ++ [.int limit, .int skip] := by
  obtain ⟨order, horder⟩ := exists_mapM_eq_ok hpairs
  have hskip : (Value.int skip).orElse (.int 0) = .int skip := by cases skip <;> rfl
  refine ⟨{ conditions, order, limit := .int limit, skip := .int skip }, ?_, fun n => ?_⟩
  · refine bind_eq_ok_iff.mpr ⟨_, rfl, bind_eq_ok_iff.mpr ⟨_, hconditions,
      bind_eq_ok_iff.mpr ⟨_, horder, bind_eq_ok_iff.mpr ⟨_, limitParam_natCast hlimit, ?_⟩⟩⟩⟩
    rw [hskip]
    rfl
  · have hpaths : .int n ∉ order.flatMap fun key => key.ref.params := by
      rw [List.mem_flatMap]
      rintro ⟨key, -, hpath⟩
      cases hkey : key.ref with
      | key => simp [hkey, Reference.params] at hpath
      | path path => simp [hkey, Reference.params] at hpath
    simp [Selection.params, hpaths]

end Cursor

namespace Service

/-- The service can show the records that a table yields, the name of the table, in messages and in
their contexts, and the native key. -/
structure Presents (s : Service) (store : Store) (name : TableName) : Prop where
  present : ∀ conditions calls records, store.find name conditions calls .null = .ok records →
    ∀ record ∈ records, ∃ shown, s.present record = .ok shown
  labelled : s.IsLabelled
  logs : s.Logs
  native : checkReference Cursor.columns s.builder.nativeKey = .ok ()

variable {s : Service} {store : Store} {name : TableName}

theorem handled_of_isLabelled (h : s.IsLabelled) (failure : Failure) :
    (s.handled failure).1 = failure := by
  obtain ⟨message, hmessage⟩ := failedMessage_of_isLabelled h failure
  unfold handled
  rw [hmessage]
  split_ifs <;> rfl

/-- A page whose numbers have at most 64 bits can be logged. -/
theorem Presents.exists_fetchedMessage (h : s.Presents store name) {w : Window} {total : Nat}
    (count : Nat) (hlimit : 0 < w.limit) (hfits : Scalar.fits w.limit = true)
    (hskip : Scalar.fits w.skip = true) (htotal : total < 2 ^ 63) :
    ∃ message, s.fetchedMessage w count (.int total) = .ok message := by
  simp only [Scalar.fits, Bool.and_eq_true, decide_eq_true_eq] at hfits hskip
  -- A page is no further than the records that are skipped before it.
  have hpage : w.page ≤ w.skip + 1 := by
    have hbefore : w.page - 1 ≤ (w.page - 1) * w.limit := Nat.le_mul_of_pos_right _ hlimit
    unfold Window.skip
    omega
  refine (s.exists_fetchedMessage_iff w count (.int total)).mpr ⟨h.logs, ⟨toString total, ?_⟩, ?_⟩
  · exact Value.shown_of_isShort (n := total) (Value.isShort_of_natAbs_lt (by omega))
  · exact ⟨Value.isShort_of_natAbs_lt (by omega), Value.isShort_of_natAbs_lt (by omega),
      Value.isShort_of_natAbs_lt (by omega)⟩

/-- The service knows everything by texts, and gives records their public identifiers. -/
structure Named (s : Service) : Prop where
  mapper : s.mapper? = none
  tableName : s.tableName = .null ∨ ∃ t, s.tableName = .text t
  publicKey : ∃ t, s.publicKey = .text t
  nativeKey : s.builder.nativeKey = keyName

theorem Named.exists_present (h : s.Named) (key document : Value) :
    ∃ shown, s.present (Row.ofDocument key document).record = .ok shown := by
  obtain ⟨publicKey, hpublic⟩ := h.publicKey
  unfold present
  rw [h.mapper, hpublic, h.nativeKey, Row.record_ofDocument]
  exact ⟨_, (publishKey_cons publicKey _ _).trans (by rw [Row.shown_keyValue]; rfl)⟩

theorem Named.presents (h : s.Named) (hreach : store.Reachable) : s.Presents store name where
  present := by
    intro conditions calls records hfind record hrecord
    obtain ⟨_, _, _, _, _, rows, -, -, -, -, -, -, -, hselect, rfl⟩ :=
      Store.find_eq_ok hreach.location hfind
    obtain ⟨row, hrow, rfl⟩ := List.mem_map.mp hrecord
    obtain ⟨key, document, rfl⟩ := hreach.exists_document
      (List.mem_of_mem_filter (Selection.mem_of_mem_select hselect hrow))
    exact h.exists_present key document
  labelled := by
    obtain hnull | ⟨t, htext⟩ := h.tableName
    · exact ⟨_, by rw [hnull]; rfl⟩
    · rw [IsLabelled, htext]
      unfold Value.orElse
      split_ifs <;> exact ⟨_, rfl⟩
  logs := by
    obtain hnull | ⟨t, htext⟩ := h.tableName
    · rw [Logs, hnull]
      exact ⟨by decide, _, rfl⟩
    · rw [Logs, htext]
      exact ⟨show 0 < Value.logRoom by decide, _, rfl⟩
  native := by rw [h.nativeKey]; exact Condition.checkReference_text _

end Service

namespace StoredTable

variable {t : StoredTable} {s : Service} {query : Value} {prepared : PreparedRequest}
  {failure : Failure}

theorem fetchPage_of_count_error (hprepared : s.prepare query = .ok prepared)
    (hcount : t.store.count t.name (Collection.conditionsOf prepared.expression) =
      .error failure) :
    on (s.fetchPage collection query) t = (.error failure, t) := by
  unfold Service.fetchPage
  simp only [on_bind, on_lift, hprepared, on_count, hcount]
  rfl

theorem fetchPage_of_find_error {n : Nat} {total : Number} {pages : Int} {calls : List Call}
    {start cursor : Cursor} (hprepared : s.prepare query = .ok prepared)
    (hcount : t.store.count t.name (Collection.conditionsOf prepared.expression) = .ok n)
    (htotal : Service.remaining (.int (n : Int)) prepared.window.offset = .ok total)
    (hpages : Service.pageCount total prepared.window.limit = .ok pages)
    (hcalls : Collection.refinements prepared.expression = .ok calls)
    (hstart : Cursor.find (Collection.conditionsOf prepared.expression) = .ok start)
    (hcursor : calls.foldlM refine start = .ok cursor)
    (hfind : cursor.toList t.store t.name .null = .error failure) :
    on (s.fetchPage collection query) t = (.error failure, { t with cursor }) := by
  have hcounted : on (collection.count prepared.expression) t = (.ok (.int n), t) := by
    rw [on_count, hcount]
    rfl
  have hfetched : on (collection.fetch prepared.expression) t =
      (.error failure, { t with cursor }) := by
    rw [on_fetch hcalls hstart hcursor, hfind]
    rfl
  rw [Service.fetchPage_of_count hprepared hcounted htotal hpages, Service.deliver, on_bind, hfetched]

/-- How a fetch fails of a request that was prepared and whose conditions were translated. -/
theorem fetch_eq_error {conditions : List Condition} (hpresents : s.Presents t.store t.name)
    (hcount : ∀ n, t.store.count t.name (Collection.conditionsOf prepared.expression) = .ok n →
      n < 2 ^ 63)
    (hprepared : s.prepare query = .ok prepared)
    (hconditions : Condition.ofValue Cursor.columns
      (Collection.conditionsOf prepared.expression) = .ok conditions)
    (h : (s.fetch collection query t).result = .error failure) :
    failure.OfStatement (Condition.paramsList conditions ++
      [.int prepared.window.limit, .int prepared.window.skip]) := by
  obtain ⟨request, paging, built, -, hpaging, hbuilt, hwindow, hsame, hcalls⟩ :=
    Service.exists_of_prepare hprepared
  obtain ⟨entries, rfl⟩ := Builder.build_eq_ok hbuilt
  have hcheck := (Request.checkedPaging_eq_ok_iff.mp hpaging).2
  have hlimit : 0 < (s.window paging).limit := Service.window_limit_pos hcheck
  rw [← hwindow] at hlimit hcalls
  cases hcounted : t.store.count t.name (Collection.conditionsOf prepared.expression) with
  | error failure' =>
      rw [Service.fetch_of_error (fetchPage_of_count_error hprepared hcounted),
        Service.handled_of_isLabelled hpresents.labelled] at h
      obtain rfl : failure' = failure := Except.error.inj h
      exact (Store.count_eq_error hconditions hcounted).mono (List.subset_append_left _ _)
  | ok n =>
      -- The total and the number of pages are there, so what can still fail is the query.
      have htotal := Service.remaining_natCast n prepared.window.offset
      obtain ⟨pages, hpages⟩ := Service.exists_pageCount hlimit (by decide : 63 ≤ 1023)
        ((Nat.sub_le n prepared.window.offset).trans_lt (hcount n hcounted))
      have hstart : Cursor.find (Collection.conditionsOf prepared.expression) =
          .ok { conditions := entries } := by
        rw [hsame]
        exact Cursor.find_map entries
      obtain ⟨pairs, hpairs, hcursor⟩ := Cursor.exists_refine { conditions := entries }
        prepared.window.limit prepared.window.skip rfl hpresents.native
        (Paging.check_eq_ok_iff.mp hcheck).2
      rw [hsame] at hconditions
      obtain ⟨statement, hstatement, hparams⟩ :=
        Cursor.exists_statement prepared.window.skip hlimit hpairs hconditions
      cases hfound : ({
          conditions := entries
          sort := pairs
          skip := .int prepared.window.skip
          limit := .int prepared.window.limit } : Cursor).toList t.store t.name .null with
      | error failure' =>
          rw [Service.fetch_of_error (fetchPage_of_find_error hprepared hcounted htotal hpages
            hcalls hstart hcursor hfound), Service.handled_of_isLabelled hpresents.labelled] at h
          obtain rfl : failure' = failure := Except.error.inj h
          refine (Store.toList_eq_error hstatement hfound).imp_right ?_
          rintro ⟨hwide, m, hm, hfits⟩
          exact ⟨hwide, m, (hparams m).mp hm, hfits⟩
      | ok records =>
          have hfind : t.store.find t.name (Collection.conditionsOf prepared.expression)
              (s.builder.sortCalls paging ++ [.skip (.int prepared.window.skip),
                .limit (.int prepared.window.limit)]) .null = .ok records :=
            bind_eq_ok_iff.mpr ⟨_, hstart, bind_eq_ok_iff.mpr ⟨_, hcursor, hfound⟩⟩
          obtain ⟨data, hdata⟩ := exists_mapM_eq_ok (hpresents.present _ _ _ hfind)
          have hfits (m : Nat) (hm : (.int m : Value) ∈ Condition.paramsList conditions ++
              [.int prepared.window.limit, .int prepared.window.skip]) : Scalar.fits m = true :=
            Store.fits_of_toList hstatement hfound ((hparams m).mpr hm)
          obtain ⟨message, hmessage⟩ := hpresents.exists_fetchedMessage data.length hlimit
            (hfits _ (by simp)) (hfits _ (by simp))
            ((Nat.sub_le n prepared.window.offset).trans_lt (hcount n hcounted))
          rw [fetch_of_answers hprepared hcalls hcounted hfind htotal hpages hdata hmessage] at h
          cases h

end StoredTable

namespace Store

/-- A count whose conditions are translated, a query whose statement is put together, and a request
that is prepared and whose conditions are translated fail in the store only, or because an integer
among their parameters has more than 64 bits. The parameters of a request are those of its
conditions, its limit, and the number of records to skip. -/
theorem reads_fail_in_store (store : Store) (name : TableName) :
    (∀ v conditions failure, Condition.ofValue Cursor.columns v = .ok conditions →
      store.count name v = .error failure →
      failure.OfStatement (Condition.paramsList conditions)) ∧
    (∀ (cursor : Cursor) statement length failure, cursor.statement length = .ok statement →
      cursor.toList store name length = .error failure →
      failure.OfStatement statement.params) ∧
    ∀ (s : Service) query prepared conditions failure, s.Presents store name →
      s.prepare query = .ok prepared →
      Condition.ofValue Cursor.columns (Collection.conditionsOf prepared.expression) =
        .ok conditions →
      (∀ n, store.count name (Collection.conditionsOf prepared.expression) = .ok n → n < 2 ^ 63) →
      store.fetchPage name s query = .error failure →
      failure.OfStatement (Condition.paramsList conditions ++
        [.int prepared.window.limit, .int prepared.window.skip]) :=
  ⟨fun _ _ _ hconditions h => count_eq_error hconditions h,
    fun _ _ _ _ hstatement h => toList_eq_error hstatement h,
    fun _ _ _ _ _ hpresents hprepared hconditions hcount h =>
      StoredTable.fetch_eq_error hpresents hcount hprepared hconditions h⟩

/-- A limit of 64 bits is refused, and it is the limit that is to blame. -/
theorem reads_fail_in_store_limit :
    let docs : TableName := ⟨"docs"⟩
    let now := (({} : Store).run [(docs, .create)]).2
    let service : Service := { tableName := .text "docs" }
    let query : Value := .request (.list []) (.paging .null (.int (2 ^ 63)) .null .null .null)
    ∃ prepared conditions, service.prepare query = .ok prepared ∧ prepared.window.limit = 2 ^ 63 ∧
      now.fetchPage docs service query = .error .integerTooWide ∧
      Failure.OfStatement .integerTooWide (Condition.paramsList conditions ++
        [.int prepared.window.limit, .int prepared.window.skip]) := by
  intro docs now service query
  have hfails : now.fetchPage docs service query = .error .integerTooWide :=
    eq_error_of_error? (by decide +kernel)
  have hprepared := eq_ok_of_isOk ⟨{}, ⟨0, 0, 0⟩⟩
    (by decide +kernel : (service.prepare query).isOk = true)
  set prepared := (service.prepare query).toOption.getD ⟨{}, ⟨0, 0, 0⟩⟩ with hdefined
  obtain ⟨conditions, hconditions⟩ : ∃ conditions, Condition.ofValue Cursor.columns
      (Collection.conditionsOf prepared.expression) = .ok conditions :=
    ⟨_, eq_ok_of_isOk [] (by rw [hdefined]; decide +kernel)⟩
  have hcount : now.count docs (Collection.conditionsOf prepared.expression) = .ok 0 :=
    eq_ok_of_toOption (by rw [hdefined]; decide +kernel)
  refine ⟨prepared, conditions, hprepared, by rw [hdefined]; decide +kernel, hfails, ?_⟩
  have hnamed : service.Named := ⟨rfl, .inr ⟨_, rfl⟩, ⟨_, rfl⟩, rfl⟩
  refine (reads_fail_in_store now docs).2.2 service query prepared conditions _
    (hnamed.presents ⟨0, _, rfl⟩) hprepared hconditions (fun n hn => ?_) hfails
  obtain rfl : 0 = n := Except.ok.inj (hcount.symm.trans hn)
  decide

/-- An operand that the store cannot hold fails with something else than a failure of the store,
though the request passes all checks and its conditions are translated. -/
theorem fetch_refuses_wide_integer :
    let docs : TableName := ⟨"docs"⟩
    let now := (({} : Store).run [(docs, .create)]).2
    let service : Service := { tableName := .text "docs" }
    let query : Value := .map [(.text "filters", .list [.map [(.text "field", .text "n"),
      (.text "operator", .text "="), (.text "value", .int (2 ^ 63))]])]
    ((service.prepare query).toOption.map fun prepared => (Condition.ofValue Cursor.columns
        (Collection.conditionsOf prepared.expression)).isOk) = some true ∧
      now.fetchPage docs service query = .error .integerTooWide ∧
      Failure.kind .integerTooWide ≠ .backend :=
  ⟨by decide +kernel, eq_error_of_error? (by decide +kernel), by decide⟩

end Store

end DocFilter
