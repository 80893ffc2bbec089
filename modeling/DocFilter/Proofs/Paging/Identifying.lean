import DocFilter.Proofs.Paging.Pages
import DocFilter.Proofs.Store.Lookups
import DocFilter.Proofs.Value.Showing

/-!
Fetching a record by the identifier that it shows.

A request whose one filter is on the public identifier is compiled to a demand for the key that is
the text of the identifier. A table that answered a request for a page answers this one too
(`fetchPage_by_id`), with the record that is stored under this text. The record that showed the
identifier is stored under a text that names it, which is mostly the same text
(`fetch_by_public_id`); but a key that was given in upper case stays as it is
(`fetch_by_public_id_upper_case`).
-/

namespace DocFilter

open Outcome DocFilter.Action

/-! ### Pages that do not fail -/

namespace StoredTable

variable {t : StoredTable}

theorem on_answer_eq_ok {call : Call} {cursor : Cursor} {v : Value}
    (hrefine : refine t.cursor call = .ok cursor)
    (hanswer : answer { t with cursor } call = .ok v) :
    on (collection.answer call) t = (.ok v, { t with cursor }) := by
  rw [on_answer, hrefine]
  simp only [hanswer]

/-- The calls between the start and the run of a query only refine it. -/
theorem answer_of_refinements {e : Expression} {calls : List Call}
    (h : Collection.refinements e = .ok calls) :
    ∀ call ∈ calls, ∀ t, answer t call = .ok .null := by
  rw [Collection.refinements_eq] at h
  obtain ⟨sorting, hsorting, h⟩ := bind_eq_ok_iff.mp h
  cases h
  have hsort : ∀ call ∈ sorting, ∀ t, answer t call = .ok .null := by
    unfold Collection.sortCalls at hsorting
    split at hsorting
    · obtain ⟨pairs, -, rfl⟩ := map_eq_ok_iff.mp hsorting
      exact List.forall_mem_singleton.mpr fun _ => rfl
    · cases hsorting
      exact fun _ hnone => nomatch hnone
  have honly (c : Prop) [Decidable c] (call : Call) (hcall : ∀ t, answer t call = .ok .null) :
      ∀ other ∈ (if c then [call] else []), ∀ t, answer t other = .ok .null := by
    split_ifs
    · exact List.forall_mem_singleton.mpr hcall
    · exact fun _ hnone => nomatch hnone
  rw [List.forall_mem_append, List.forall_mem_append]
  exact ⟨⟨hsort, honly _ _ fun _ => rfl⟩, honly _ _ fun _ => rfl⟩

theorem on_refine {calls : List Call} {cursor : Cursor}
    (hanswer : ∀ call ∈ calls, ∀ t, answer t call = .ok .null)
    (h : calls.foldlM refine t.cursor = .ok cursor) :
    on (forIn calls PUnit.unit fun call _ => do
      discard (collection.answer call)
      pure (ForInStep.yield PUnit.unit)) t = (.ok PUnit.unit, { t with cursor }) := by
  induction calls generalizing t with
  | nil =>
      cases h
      rfl
  | cons call rest ih =>
      rw [List.foldlM_cons] at h
      obtain ⟨next, hnext, h⟩ := bind_eq_ok_iff.mp h
      obtain ⟨hfirst, hrest⟩ := List.forall_mem_cons.mp hanswer
      have hcall : on (discard (collection.answer call)) t = (.ok ⟨⟩, { t with cursor := next }) :=
        on_bind_eq_ok_iff.mpr ⟨_, _, on_answer_eq_ok hnext (hfirst _), rfl⟩
      rw [List.forIn_cons, bind_assoc]
      exact on_bind_eq_ok_iff.mpr ⟨_, _, hcall, ih hrest h⟩

theorem on_count (e : Expression) (t : StoredTable) :
    on (collection.count e) t =
      ((t.store.count t.name (Collection.conditionsOf e)).map fun n => .int (n : Int), t) := by
  have hanswer : answer t (.countDocuments (Collection.conditionsOf e)) =
      (t.store.count t.name (Collection.conditionsOf e)).map fun n => .int (n : Int) := by
    change (t.store.count t.name (Collection.conditionsOf e) >>= _).map _ = _
    cases t.store.count t.name (Collection.conditionsOf e) <;> rfl
  rw [← hanswer]
  exact on_answer (.countDocuments (Collection.conditionsOf e)) t

/-- Only the cursor changes while a query is put together, so the store that is asked at the end is
the one that was there at the start. -/
theorem on_fetch {e : Expression} {calls : List Call} {start cursor : Cursor}
    (hcalls : Collection.refinements e = .ok calls)
    (hstart : Cursor.find (Collection.conditionsOf e) = .ok start)
    (hcursor : calls.foldlM refine start = .ok cursor) :
    on (collection.fetch e) t =
      ((cursor.toList t.store t.name .null).map .list, { t with cursor }) := by
  have hfind : on (discard (collection.answer (.find (Collection.conditionsOf e)))) t =
      (.ok ⟨⟩, { t with cursor := start }) :=
    on_bind_eq_ok_iff.mpr ⟨_, _, on_answer_eq_ok hstart rfl, rfl⟩
  have hrefine := on_refine (t := { t with cursor := start }) (answer_of_refinements hcalls) hcursor
  rw [Collection.on_fetch_of_refined hcalls hfind hrefine]
  exact on_answer (.toList .null) { t with cursor }

theorem fetch_of_answers {s : Service} {query : Value} {prepared : PreparedRequest}
    {calls : List Call} {count : Nat} {records data : List Value} {total : Number} {pages : Int}
    {message : String} (hprepared : s.prepare query = .ok prepared)
    (hcalls : Collection.refinements prepared.expression = .ok calls)
    (hcount : t.store.count t.name (Collection.conditionsOf prepared.expression) = .ok count)
    (hfind : t.store.find t.name (Collection.conditionsOf prepared.expression) calls .null =
      .ok records)
    (htotal : Service.remaining (.int count) prepared.window.offset = .ok total)
    (hpages : Service.pageCount total prepared.window.limit = .ok pages)
    (hdata : records.mapM s.present = .ok data)
    (hmessage : s.fetchedMessage prepared.window data.length total = .ok message) :
    (s.fetch collection query t).result =
      .ok ⟨data, total, min prepared.window.page pages, prepared.window.limit⟩ := by
  obtain ⟨start, hstart, hfind⟩ := bind_eq_ok_iff.mp hfind
  obtain ⟨cursor, hcursor, hrecords⟩ := bind_eq_ok_iff.mp hfind
  have hcounted : on (collection.count prepared.expression) t = (.ok (.int count), t) := by
    rw [on_count, hcount]
    rfl
  have hfetched : on (collection.fetch prepared.expression) t =
      (.ok (.list records), { t with cursor }) := by
    rw [on_fetch hcalls hstart hcursor, hrecords]
    rfl
  have hpage : on (s.fetchPage collection query) t =
      (.ok (⟨data, total, min prepared.window.page pages, prepared.window.limit⟩, message),
        { t with cursor }) := by
    rw [Service.fetchPage_of_count hprepared hcounted htotal hpages]
    refine on_bind_eq_ok_iff.mpr ⟨_, _, hfetched, ?_⟩
    refine on_lift_bind_eq_ok_iff.mpr ⟨records, rfl, ?_⟩
    refine on_lift_bind_eq_ok_iff.mpr ⟨data, hdata, ?_⟩
    exact on_lift_bind_eq_ok_iff.mpr ⟨message, hmessage, rfl⟩
  rw [Service.fetch_eq, hpage]

end StoredTable

/-! ### Fetching one record again -/

theorem Service.prepare_by_id {tableName query operator : Value} {t : String} {id : ObjectId}
    (hoperator : operator.operator? = some .eq) (hid : ObjectId.ofText? t = some id)
    (hquery : Request.ofValue query =
      .ok ⟨.list [.clause (.text "id") operator (.text t)], ({} : Paging).toValue⟩) :
    ({ tableName } : Service).prepare query =
      .ok ⟨⟨id.conditions, .null, .int 10, .int 0⟩, ⟨10, 1, 0⟩⟩ := by
  have hbuilt : ({} : Builder).build (.list [.clause (.text "id") operator (.text t)]) =
      .ok { conditions := id.conditions } :=
    Builder.build_of_single .eq rfl rfl hoperator
      (Builder.target_of_ofText? hoperator rfl (Value.equal_text_iff.mpr rfl) hid) rfl rfl
  exact bind_eq_ok_iff.mpr ⟨_, hquery, bind_eq_ok_iff.mpr ⟨{}, rfl, bind_eq_ok_iff.mpr ⟨_, rfl,
    bind_eq_ok_iff.mpr ⟨_, hbuilt, bind_eq_ok_iff.mpr ⟨_, rfl, rfl⟩⟩⟩⟩⟩

namespace Store

variable {store : Store} {name : TableName} {service : Service} {query record : Value} {page : Page}

theorem find_of_fetchPage (h : store.fetchPage name service query = .ok page) :
    ∃ v calls records, store.find name v calls .null = .ok records ∧
      records.mapM service.present = .ok page.data := by
  obtain ⟨message, h⟩ := Service.fetch_eq_ok h
  obtain ⟨prepared, calls, _, _, records, -, -, -, hfind, hdata, -⟩ :=
    StoredTable.serves.fetchPage_eq_ok h
  exact ⟨_, calls, records, hfind, hdata⟩

theorem logs_of_fetchPage (h : store.fetchPage name service query = .ok page) : service.Logs := by
  obtain ⟨message, h⟩ := Service.fetch_eq_ok h
  obtain ⟨_, _, _, _, _, -, -, -, -, -, hmessage, -⟩ := StoredTable.serves.fetchPage_eq_ok h
  exact ((Service.exists_fetchedMessage_iff ..).mp ⟨message, hmessage⟩).1

theorem exists_row_of_fetchPage (hfile : store.location = .file)
    (h : store.fetchPage name service query = .ok page) (hrecord : record ∈ page.data) :
    ∃ row ∈ store.rows name, service.present row.record = .ok record := by
  obtain ⟨v, calls, records, hfind, hdata⟩ := find_of_fetchPage h
  obtain ⟨_, _, _, _, _, rows, -, -, -, -, -, -, -, hselect, rfl⟩ := find_eq_ok hfile hfind
  obtain ⟨shown, hshown, hpresent⟩ := exists_of_mem_forall₂ (mapM_eq_ok_iff.mp hdata) hrecord
  obtain ⟨row, hrow, rfl⟩ := List.mem_map.mp hshown
  exact ⟨row, List.mem_of_mem_filter (Selection.mem_of_mem_select hselect hrow), hpresent⟩

/-- A table that answers queries answers a request for an identifier, with the record under the text
of the identifier or with nothing. -/
theorem fetchPage_by_id (hreach : store.Reachable) {t : String} {tableName operator v : Value}
    {calls : List Call} {records : List Value} {id : ObjectId}
    (hlogs : ({ tableName } : Service).Logs)
    (hfind : store.find name v calls .null = .ok records)
    (hid : ObjectId.ofText? t = some id) (hoperator : operator.operator? = some .eq)
    (hquery : Request.ofValue query =
      .ok ⟨.list [.clause (.text "id") operator (.text t)], ({} : Paging).toValue⟩) :
    ∃ page, store.fetchPage name { tableName } query = .ok page ∧
      (((store.rows name).filter (·.key = id.text)).map Row.record).mapM
        ({ tableName } : Service).present = .ok page.data ∧
      page.total = .int page.data.length := by
  obtain ⟨table, htable, hopens⟩ := openTable_of_find hreach.location hfind
  set matched := (store.rows name).filter (·.key = id.text)
  -- There is at most one row, so the limit of a page cuts nothing off and all numbers are small.
  have hone : matched.length ≤ 1 := Selection.length_filter_hasKey (hreach.distinct name)
  obtain ⟨data, hdata⟩ : ∃ data, (matched.map Row.record).mapM
      ({ tableName } : Service).present = .ok data := by
    refine exists_mapM_eq_ok (List.forall_mem_map.mpr fun row hrow => ?_)
    obtain ⟨key, document, rfl⟩ := hreach.exists_document (List.mem_of_mem_filter hrow)
    obtain ⟨rest, hpresent⟩ := Row.present_ofDocument key document tableName
    exact ⟨_, hpresent⟩
  have hlength : data.length = matched.length := by
    rw [← (mapM_eq_ok_iff.mp hdata).length_eq, List.length_map]
  obtain ⟨message, hmessage⟩ := (Service.exists_fetchedMessage_iff { tableName } ⟨10, 1, 0⟩
    data.length (.int matched.length)).mpr ⟨hlogs,
      ⟨_, Value.shown_of_isShort (Value.isShort_of_natAbs_lt (by omega))⟩,
      by decide +kernel, by decide +kernel, by decide +kernel⟩
  have hrecords : store.find name id.conditions [.skip (.int 0), .limit (.int (10 : Nat))] .null =
      .ok (matched.map Row.record) :=
    find_key (hreach.distinct name) htable hopens id (by decide) (by decide)
  have hpages := Service.pageCount_natCast (by decide : 0 < 10) (by decide)
    (hone.trans (by decide))
  have hfetched := StoredTable.fetch_of_answers (t := { store, name })
    (Service.prepare_by_id hoperator hid hquery) rfl (count_key htable hopens id) hrecords
    (Service.remaining_natCast matched.length 0) hpages hdata hmessage
  exact ⟨_, hfetched, hdata, by rw [hlength]; rfl⟩

/-- Asking for a record of a page by the identifier that it shows never fails, and yields the record
whose stored key is the text of the identifier, if there is one. That is the same record, unless its
key was given as a different text for the identifier. -/
theorem fetch_by_public_id (hreach : store.Reachable) {tableName query' operator : Value}
    {t : String} {id : ObjectId}
    (hfetch : store.fetchPage name { tableName } query = .ok page)
    (hrecord : record ∈ page.data) (hshown : record.field? "id" = some (.text t))
    (hid : ObjectId.ofText? t = some id) (hoperator : operator.operator? = some .eq)
    (hquery : Request.ofValue query' =
      .ok ⟨.list [.clause (.text "id") operator (.text t)], ({} : Paging).toValue⟩) :
    ∃ page', store.fetchPage name { tableName } query' = .ok page' ∧
      (((store.rows name).filter (·.key = t)).map Row.record).mapM
        ({ tableName } : Service).present = .ok page'.data ∧
      page'.total = .int page'.data.length ∧
      ((∀ row ∈ store.rows name, ObjectId.ofText? row.key = some id → row.key = t) →
        page'.data = [record] ∧ page'.total = .int 1) := by
  obtain ⟨_, _, _, hfind, -⟩ := find_of_fetchPage hfetch
  obtain ⟨row, hrow, hpresent⟩ := exists_row_of_fetchPage hreach.location hfetch hrecord
  -- The identifier that is shown is the one that the stored key of the record names.
  have hkey : ObjectId.ofText? row.key = some id ∧ t = id.text := by
    obtain ⟨key, document, rfl⟩ := hreach.exists_document hrow
    obtain ⟨rest, hpresent'⟩ := Row.present_ofDocument key document tableName
    cases hpresent.symm.trans hpresent'
    have hdisplay : (Row.ofDocument key document).keyValue.display = t := by
      simpa [Value.field?, Value.lookup?] using hshown
    rw [← hdisplay] at hid ⊢
    exact Row.ofText?_shown hid
  obtain ⟨hnamed, rfl⟩ := hkey
  obtain ⟨page', hpage, hdata, htotal⟩ :=
    fetchPage_by_id hreach (logs_of_fetchPage hfetch) hfind hid hoperator hquery
  refine ⟨page', hpage, hdata, htotal, fun hcanonical => ?_⟩
  have hmem : row ∈ (store.rows name).filter (·.key = id.text) :=
    List.mem_filter.mpr ⟨hrow, decide_eq_true (hcanonical row hrow hnamed)⟩
  have honly : (store.rows name).filter (·.key = id.text) = [row] := by
    have hone := Selection.length_filter_hasKey (s := id.text) (hreach.distinct name)
    obtain ⟨other, hother⟩ := List.length_eq_one_iff.mp
      (le_antisymm hone (List.length_pos_of_mem hmem))
    rw [hother] at hmem ⊢
    rw [List.mem_singleton.mp hmem]
  have hsame : page'.data = [record] := by
    rw [honly, List.map_singleton, List.mapM_cons, hpresent] at hdata
    exact (Except.ok.inj hdata).symm
  exact ⟨hsame, by rw [htotal, hsame]; rfl⟩

/-- A document whose key is given in lower case, and one whose key is made up. -/
theorem fetch_by_public_id_lower_case :
    let docs : TableName := ⟨"docs"⟩
    let t := "abcdefabcdefabcdefabcdef"
    let documents : List Value :=
      [.map [(keyName, .text t), (.text "n", .int 1)], .map [(.text "n", .int 2)]]
    let now := (({} : Store).run [(docs, .create), (docs, .insert (.list documents))]).2
    let service : Service := { tableName := .text "docs" }
    let query (field operator : String) (operand : Value) : Value :=
      .request (.list [.clause (.text field) (.text operator) operand]) ({} : Paging).toValue
    ∃ page page' record, now.fetchPage docs service (query "n" "<" (.int 9)) = .ok page ∧
      page.data.length = 2 ∧ record ∈ page.data ∧ record.field? "id" = some (.text t) ∧
      now.fetchPage docs service (query "id" "=" (.text t)) = .ok page' ∧
      page'.data = [record] ∧ page'.total = .int 1 := by
  intro docs t documents now service query
  have hfetch := eq_ok_of_isOk ⟨[], .int 0, 0, 0⟩ (by decide +kernel :
    (now.fetchPage docs service (query "n" "<" (.int 9))).isOk = true)
  set page := (now.fetchPage docs service (query "n" "<" (.int 9))).toOption.getD
    ⟨[], .int 0, 0, 0⟩ with hpage
  have hlength : page.data.length = 2 := by
    rw [hpage]
    decide +kernel
  obtain ⟨record, other, hdata⟩ := List.length_eq_two.mp hlength
  have hshown : record.field? "id" = some (.text t) :=
    Value.field?_head_of_isText hdata (by rw [hpage]; decide +kernel)
  have hrecord : record ∈ page.data := by simp [hdata]
  have hquery : Request.ofValue (query "id" "=" (.text t)) =
      .ok ⟨.list [.clause (.text "id") (.text "=") (.text t)], ({} : Paging).toValue⟩ := rfl
  obtain ⟨page', hfetch', -, -, hsame⟩ := fetch_by_public_id ⟨0, _, rfl⟩ hfetch hrecord hshown
    (by decide +kernel : ObjectId.ofText? t = some
      ⟨[0xab, 0xcd, 0xef, 0xab, 0xcd, 0xef, 0xab, 0xcd, 0xef, 0xab, 0xcd, 0xef], rfl⟩)
    (by decide +kernel : (Value.text "=").operator? = some .eq) hquery
  obtain ⟨hsingle, htotal⟩ := hsame (by decide +kernel)
  exact ⟨page, page', record, hfetch, hlength, hrecord, hshown, hfetch', hsingle, htotal⟩

/-- A key in upper case is shown in lower case, and under what is shown there is no record. -/
theorem fetch_by_public_id_upper_case :
    let docs : TableName := ⟨"docs"⟩
    let t := "abcdefabcdefabcdefabcdef"
    let documents : List Value :=
      [.map [(keyName, .text "ABCDEFABCDEFABCDEFABCDEF"), (.text "n", .int 1)]]
    let now := (({} : Store).run [(docs, .create), (docs, .insert (.list documents))]).2
    let service : Service := { tableName := .text "docs" }
    let query : Value := .map [(.text "filters", .list [.map [(.text "field", .text "id"),
      (.text "operator", .text "="), (.text "value", .text t)]])]
    ∃ page page' record, now.fetchPage docs service .null = .ok page ∧ page.data = [record] ∧
      record.field? "id" = some (.text t) ∧ (ObjectId.ofText? t).isSome ∧
      now.fetchPage docs service query = .ok page' ∧ page'.data = [] ∧ page'.total = .int 0 := by
  intro docs t documents now service query
  have hfetch := eq_ok_of_isOk ⟨[], .int 0, 0, 0⟩
    (by decide +kernel : (now.fetchPage docs service .null).isOk = true)
  have hfetch' := eq_ok_of_isOk ⟨[], .int 0, 0, 0⟩
    (by decide +kernel : (now.fetchPage docs service query).isOk = true)
  set page := (now.fetchPage docs service .null).toOption.getD ⟨[], .int 0, 0, 0⟩ with hpage
  obtain ⟨record, hdata⟩ : ∃ record, page.data = [record] := by
    refine List.length_eq_one_iff.mp ?_
    rw [hpage]
    decide +kernel
  have hshown : record.field? "id" = some (.text t) :=
    Value.field?_head_of_isText hdata (by rw [hpage]; decide +kernel)
  exact ⟨page, _, record, hfetch, hdata, hshown, by decide +kernel, hfetch',
    List.length_eq_zero_iff.mp (by decide +kernel), by decide +kernel⟩

end Store

end DocFilter
