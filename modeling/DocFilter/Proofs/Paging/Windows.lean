import DocFilter.Proofs.Number.Order
import DocFilter.Proofs.Paging.Fetching
import DocFilter.Proofs.Paging.Parameters
import DocFilter.Proofs.Store.Querying

/-!
The statement behind a page.

The filters and the sort of a request are compiled to one statement, and the window of the request
adds a limit and a number of rows to skip to it, whatever page is asked for. So a page holds what
this statement selects with the numbers of the window (`fetchPage_window`), and requests for several
pages can be told apart by their windows alone.
-/

namespace DocFilter

open Outcome DocFilter.Action

namespace Collection

variable {conditions sort : Value} {calls : List Call}

def sortCalls (sort : Value) : Except Failure (List Call) :=
  if sort.isTruthy then (sortPairs sort).map fun pairs => [Call.sort pairs .null] else pure []

theorem refinements_eq (e : Expression) :
    refinements e = sortCalls e.sort >>= fun sorting => pure (sorting ++
      (if e.skip.integer?.isSome then [Call.skip e.skip] else []) ++
      (if e.limit.integer?.any (0 < ·) then [Call.limit e.limit] else [])) := by
  unfold refinements sortCalls
  cases e.sort.isTruthy <;> rfl

theorem refinements_sort (h : refinements { conditions, sort } = .ok calls) :
    (∀ call ∈ calls, ∃ key direction, call = .sort key direction) ∧
      (sort = .null → calls = []) := by
  rw [refinements_eq] at h
  obtain ⟨sorting, hsorting, h⟩ := bind_eq_ok_iff.mp h
  have h : sorting = calls := by simpa [Value.integer?] using h
  rw [← h]
  unfold sortCalls at hsorting
  split at hsorting
  · rename_i htruthy
    obtain ⟨pairs, _, rfl⟩ := map_eq_ok_iff.mp hsorting
    refine ⟨by simp, fun hnull => ?_⟩
    rw [hnull] at htruthy
    cases htruthy
  · rw [pure_eq_ok_iff] at hsorting
    simp [← hsorting]

/-- The calls of an expression with a window sort as they do without it, then skip and limit. -/
theorem refinements_window {skip limit : Nat} (hlimit : 0 < limit)
    (h : refinements { conditions, sort, limit := .int limit, skip := .int skip } = .ok calls) :
    ∃ sorting, refinements { conditions, sort } = .ok sorting ∧
      calls = sorting ++ [.skip (.int skip), .limit (.int limit)] := by
  rw [refinements_eq] at h ⊢
  obtain ⟨sorting, hsorting, h⟩ := bind_eq_ok_iff.mp h
  rw [pure_eq_ok_iff] at h
  refine ⟨sorting, bind_eq_ok_iff.mpr ⟨sorting, hsorting, by simp [Value.integer?]⟩, ?_⟩
  simpa [Value.integer?, hlimit] using h.symm

end Collection

namespace Builder

variable {b : Builder} {e sorted : Expression} {filters sortBy sortDirection : Value}

theorem build_eq_ok (h : b.build filters = .ok e) :
    ∃ entries, e = { conditions := .map entries } := by
  obtain ⟨_, _, h⟩ := bind_eq_ok_iff.mp h
  obtain ⟨_, _, h⟩ := bind_eq_ok_iff.mp h
  obtain ⟨entries, _, h⟩ := bind_eq_ok_iff.mp h
  rw [pure_eq_ok_iff] at h
  exact ⟨entries, h.symm⟩

theorem applySort_eq_ok (h : b.applySort e sortBy sortDirection = .ok sorted) :
    sorted = { e with sort := sorted.sort } ∧ (sortBy = .null → sorted = e) := by
  unfold applySort at h
  split at h
  · rename_i htruthy
    obtain ⟨_, _, h⟩ := bind_eq_ok_iff.mp h
    refine ⟨?_, fun hnull => ?_⟩
    · dsimp only at h
      split at h
      · cases h
      · rw [pure_eq_ok_iff] at h
        rw [← h]
    · rw [hnull] at htruthy
      cases htruthy
  · rw [pure_eq_ok_iff] at h
    rw [← h]
    exact ⟨rfl, fun _ => rfl⟩

end Builder

theorem Collection.conditionsOf_map {e : Expression} {entries : List (Value × Value)}
    (h : e.conditions = .map entries) : conditionsOf e = .map entries := by
  rw [conditionsOf, h]
  cases entries <;> rfl

namespace Service

variable {s : Service} {query filters sortBy sortDirection : Value} {w : Window}

/-- The query, however it is spelled, asks for the page of a window among the results of some
filters and a sort. -/
def AsksFor (s : Service) (query filters sortBy sortDirection : Value) (w : Window) : Prop :=
  ∃ page limit offset,
    Request.ofValue query = .ok ⟨filters, .paging page limit offset sortBy sortDirection⟩ ∧
      s.window ⟨page, limit, offset, sortBy, sortDirection⟩ = w

def statement (s : Service) (filters sortBy sortDirection : Value) : Except Failure Selection := do
  let built ← s.builder.build filters
  let sorted ← s.builder.applySort built sortBy sortDirection
  let calls ← Collection.refinements sorted
  Cursor.selection (Collection.conditionsOf sorted) calls

/-- All results of some filters and a sort as the service returns them: those of a query that
neither skips nor limits. -/
def everything (s : Service) (store : Store) (name : TableName)
    (filters sortBy sortDirection : Value) : Except Failure (List Value) := do
  let built ← s.builder.build filters
  let sorted ← s.builder.applySort built sortBy sortDirection
  let calls ← Collection.refinements sorted
  let records ← store.find name (Collection.conditionsOf sorted) calls .null
  records.mapM s.present

theorem prepare_eq_ok {prepared : PreparedRequest}
    (hasks : s.AsksFor query filters sortBy sortDirection w)
    (h : s.prepare query = .ok prepared) :
    ∃ built sorted, s.builder.build filters = .ok built ∧
      s.builder.applySort built sortBy sortDirection = .ok sorted ∧
      prepared = ⟨{
        conditions := sorted.conditions
        sort := sorted.sort
        limit := .int w.limit
        skip := .int w.skip }, w⟩ := by
  obtain ⟨page, limit, offset, hrequest, rfl⟩ := hasks
  obtain ⟨_, p, built, sorted, hrequest', -, hbuilt, hsorted, rfl⟩ := parts_of_prepare h
  obtain ⟨rfl, hpaging⟩ := Request.mk.inj (Except.ok.inj (hrequest.symm.trans hrequest'))
  obtain ⟨page', limit', offset', sortBy', sortDirection'⟩ := p
  cases hpaging
  exact ⟨built, sorted, hbuilt, hsorted, rfl⟩

theorem everything_eq_ok {store : Store} {name : TableName} {all : List Value}
    (hfile : store.location = .file)
    (h : s.everything store name filters sortBy sortDirection = .ok all) :
    ∃ statement rows, s.statement filters sortBy sortDirection = .ok statement ∧
      statement.select (-1) 0 (store.rows name) = .ok rows ∧
      (rows.map Row.record).mapM s.present = .ok all := by
  obtain ⟨built, hbuilt, h⟩ := bind_eq_ok_iff.mp h
  obtain ⟨sorted, hsorted, h⟩ := bind_eq_ok_iff.mp h
  obtain ⟨calls, hcalls, h⟩ := bind_eq_ok_iff.mp h
  obtain ⟨records, hrecords, h⟩ := bind_eq_ok_iff.mp h
  obtain ⟨entries, rfl⟩ := Builder.build_eq_ok hbuilt
  have hshape := (Builder.applySort_eq_ok hsorted).1
  rw [hshape] at hcalls
  obtain ⟨statement, rows, hstatement, _, hselect, rfl⟩ :=
    Store.find_all hfile (Collection.refinements_sort hcalls).1 hrecords
  refine ⟨statement, rows, ?_, hselect, h⟩
  rw [← hshape] at hcalls
  exact bind_eq_ok_iff.mpr ⟨_, hbuilt, bind_eq_ok_iff.mpr ⟨_, hsorted,
    bind_eq_ok_iff.mpr ⟨_, hcalls, hstatement⟩⟩⟩

theorem order_statement {statement : Selection}
    (h : s.statement filters .null sortDirection = .ok statement) : statement.order = [] := by
  obtain ⟨built, hbuilt, h⟩ := bind_eq_ok_iff.mp h
  obtain ⟨sorted, hsorted, h⟩ := bind_eq_ok_iff.mp h
  obtain ⟨calls, hcalls, h⟩ := bind_eq_ok_iff.mp h
  obtain ⟨entries, rfl⟩ := Builder.build_eq_ok hbuilt
  obtain rfl := (Builder.applySort_eq_ok hsorted).2 rfl
  obtain rfl := (Collection.refinements_sort hcalls).2 rfl
  rw [Collection.conditionsOf_map rfl] at h
  exact Cursor.order_selection h

end Service

variable {σ : Type} {c : Collection σ} {view : σ → StoredTable} {finds : σ → Nat → Store}
  {state state' : σ} {s : Service} {query filters sortBy sortDirection : Value} {w : Window}
  {page : Page} {message : String}

/-- A page holds what the statement of its request selects with the numbers of its window, in the
store that the last call finds; its total comes from the number of rows that satisfy the conditions
of the statement, in the store that the first call finds. -/
theorem Collection.Serves.fetchPage_window (hc : c.Serves view finds)
    (hasks : s.AsksFor query filters sortBy sortDirection w) (hlimit : 0 < w.limit)
    (hfile : ∀ k, (finds state k).location = .file)
    (h : on (s.fetchPage c query) state = (.ok (page, message), state')) :
    ∃ statement rows count pages sorts,
      s.statement filters sortBy sortDirection = .ok statement ∧ (sortBy = .null → sorts = 0) ∧
      ((finds state (sorts + 4)).database.find? (view state).name).isSome ∧ w.limit < 2 ^ 63 ∧
      statement.select w.limit w.skip ((finds state (sorts + 4)).rows (view state).name) =
        .ok rows ∧
      (rows.map Row.record).mapM s.present = .ok page.data ∧
      (((finds state 0).database.find? (view state).name).isSome →
        count = (((finds state 0).rows (view state).name).filter
          (·.satisfies statement.conditions)).length) ∧
      Service.remaining (.int (count : Nat)) w.offset = .ok page.total ∧
      Service.pageCount page.total w.limit = .ok pages ∧
      page.page = min (w.page : Int) pages ∧ page.limit = w.limit ∧
      (view state').name = (view state).name ∧ ∀ k, finds state' k = finds state (k + sorts + 5) := by
  obtain ⟨prepared, calls, count, pages, records, hprepared, hcalls, hcount, hfind, hdata, -, htotal,
    hpages, hpage, hlimited, hname, hlater⟩ := hc.fetchPage_eq_ok h
  obtain ⟨built, sorted, hbuilt, hsorted, rfl⟩ := Service.prepare_eq_ok hasks hprepared
  obtain ⟨entries, rfl⟩ := Builder.build_eq_ok hbuilt
  obtain ⟨hshape, hunsorted⟩ := Builder.applySort_eq_ok hsorted
  obtain ⟨sorting, hsorting, rfl⟩ := Collection.refinements_window hlimit hcalls
  obtain ⟨honly, hnone⟩ := Collection.refinements_sort hsorting
  have hlength : (sorting ++ [Call.skip (.int w.skip), Call.limit (.int w.limit)]).length =
      sorting.length + 2 := List.length_append
  rw [hlength] at hfind hlater
  have hentries : sorted.conditions = .map entries := by rw [hshape]
  have hconditions (limit skip : Value) :
      Collection.conditionsOf ⟨sorted.conditions, sorted.sort, limit, skip⟩ = .map entries :=
    Collection.conditionsOf_map hentries
  obtain ⟨statement, rows, hstatement, hthere, hbound, hselect, rfl⟩ :=
    Store.find_window (hfile _) honly hlimit hfind
  obtain ⟨terms, hterms, hcounted⟩ := Store.count_eq_ok (hfile 0) hcount
  dsimp only at hterms hstatement
  rw [hconditions] at hterms hstatement
  -- The count and the query are given the same conditions.
  have hsame := Cursor.conditions_selection hstatement
  obtain rfl : statement.conditions = terms := Except.ok.inj (hsame.symm.trans hterms)
  refine ⟨statement, rows, count, pages, sorting.length, ?_, ?_, hthere, hbound, hselect, hdata,
    hcounted, htotal, hpages, hpage, hlimited, hname, hlater⟩
  · rw [← Collection.conditionsOf_map hentries] at hstatement
    have hsorting : Collection.refinements sorted = .ok sorting := by
      rw [hentries] at hsorting
      rw [hshape]
      exact hsorting
    exact bind_eq_ok_iff.mpr ⟨_, hbuilt, bind_eq_ok_iff.mpr ⟨_, hsorted,
      bind_eq_ok_iff.mpr ⟨_, hsorting, hstatement⟩⟩⟩
  · rintro rfl
    obtain rfl := hunsorted rfl
    rw [hnone rfl, List.length_nil]

end DocFilter
