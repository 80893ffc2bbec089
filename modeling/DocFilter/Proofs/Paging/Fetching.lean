import DocFilter.Paging.Shared
import DocFilter.Proofs.Json.Writing
import DocFilter.Proofs.Outcome

/-!
What a page that was fetched is made of.

A service asks a collection for a count and then, call by call, for records. Whether the table
behind the collection is in use by others or not makes a difference only to the stores that the
calls find, so both kinds of tables are treated as one: a collection *serves* a table if it answers
each call as the table does in the store that the call finds. A page that was fetched from such a
collection comes from one count, in the store that the first call finds, and one query, in the store
that the last call finds (`fetchPage_eq_ok`).
-/

namespace DocFilter

open Outcome

variable {σ α β : Type}

/-! ### Actions -/

namespace Action

variable {state state' : σ}

theorem on_bind (x : Action σ α) (f : α → Action σ β) (state : σ) :
    on (x >>= f) state = match on x state with
      | (.ok a, next) => on (f a) next
      | (.error failure, next) => (.error failure, next) := by
  change (ExceptT.bindCont f (on x state).1) (on x state).2 = _
  obtain ⟨result, next⟩ := on x state
  cases result <;> rfl

theorem on_bind_eq_ok_iff {x : Action σ α} {f : α → Action σ β} {b : β} :
    on (x >>= f) state = (.ok b, state') ↔
      ∃ a next, on x state = (.ok a, next) ∧ on (f a) next = (.ok b, state') := by
  rw [on_bind]
  obtain ⟨result, next⟩ := on x state
  cases result with
  | error failure => simp
  | ok a => simp

@[simp] theorem on_lift (result : Except Failure α) (state : σ) :
    on (Collection.lift result) state = (result, state) := rfl

@[simp] theorem on_pure (a : α) (state : σ) :
    on (pure a : Action σ α) state = (.ok a, state) := rfl

theorem on_lift_bind_eq_ok_iff {result : Except Failure α} {f : α → Action σ β} {b : β} :
    on (Collection.lift result >>= f) state = (.ok b, state') ↔
      ∃ a, result = .ok a ∧ on (f a) state = (.ok b, state') := by
  rw [on_bind, on_lift]
  cases result with
  | error failure => simp
  | ok a => simp

theorem on_discard_eq_ok {x : Action σ α} {u : PUnit}
    (h : on (discard x) state = (.ok u, state')) : ∃ a, on x state = (.ok a, state') := by
  have hdiscard : (discard x : Action σ PUnit) = x >>= fun _ => pure ⟨⟩ := rfl
  rw [hdiscard, on_bind_eq_ok_iff] at h
  obtain ⟨a, next, hx, h⟩ := h
  rw [on_pure, Prod.mk.injEq] at h
  exact ⟨a, by rw [hx, h.2]⟩

end Action

open DocFilter.Action

/-! ### Fetching in calls -/

theorem Collection.on_fetch_of_refined {c : Collection σ} {e : Expression} {calls : List Call}
    {state found refined : σ} (hcalls : refinements e = .ok calls)
    (hfind : on (discard (c.answer (.find (conditionsOf e)))) state = (.ok ⟨⟩, found))
    (hrefine : on (forIn calls PUnit.unit fun call _ => do
      discard (c.answer call)
      pure (ForInStep.yield PUnit.unit)) found = (.ok PUnit.unit, refined)) :
    on (c.fetch e) state = on (c.answer (.toList .null)) refined := by
  unfold fetch
  simp only [on_bind, on_lift, hfind, hcalls, hrefine]

namespace Service

variable {s : Service} {c : Collection σ} {query : Value} {state next : σ}
  {prepared : PreparedRequest} {counted : Value} {total : Number} {pages : Int}

def deliver (s : Service) (c : Collection σ) (prepared : PreparedRequest) (total : Number)
    (pages : Int) : Action σ (Page × String) := do
  let records ← c.fetch prepared.expression
  let items ← Collection.lift records.elements
  let data ← Collection.lift (items.mapM s.present)
  let message ← Collection.lift (s.fetchedMessage prepared.window data.length total)
  pure (⟨data, total, min prepared.window.page pages, prepared.window.limit⟩, message)

/-- The name of the table of a service can be logged, as a part of the context of a message. -/
def Logs (s : Service) : Prop :=
  s.tableName.levels < Value.logRoom ∧ ∃ json, s.tableName.write Value.shown = .ok json

/-- The message of a page can be written if the name of the table and all its numbers can. -/
theorem exists_fetchedMessage_iff (s : Service) (w : Window) (count : Nat) (total : Number) :
    (∃ message, s.fetchedMessage w count total = .ok message) ↔
      s.Logs ∧ (∃ text, (numberValue total).shown = .ok text) ∧
        Value.isShort w.page ∧ Value.isShort w.limit ∧ Value.isShort w.skip := by
  have hlogged : (∃ text, (Value.map [(.text "table", s.tableName), (.text "page", .int w.page),
        (.text "limit", .int w.limit), (.text "skip", .int w.skip)]).loggedJson = .ok text) ↔
      s.Logs ∧ Value.isShort w.page ∧ Value.isShort w.limit ∧ Value.isShort w.skip := by
    have hkey (t : String) : ∃ key, (Value.text t).writeKey = .ok key := ⟨_, rfl⟩
    have hlevels (n : Nat) : max n (max 0 (max 0 (max 0 0))) + 1 = n + 1 := by omega
    rw [Value.exists_loggedJson_iff, Value.exists_write_map_iff]
    simp only [Value.levels, Value.levelsOfEntries, hlevels, List.forall_mem_cons, hkey, true_and,
      Value.exists_write_int_iff, Logs, Nat.lt_iff_add_one_le, and_assoc]
    exact and_congr_right fun _ => and_congr_right fun _ => and_congr_right fun _ =>
      and_congr_right fun _ => and_iff_left (by simp)
  rw [and_left_comm, ← hlogged]
  constructor
  · rintro ⟨message, h⟩
    obtain ⟨text, htext, h⟩ := bind_eq_ok_iff.mp h
    obtain ⟨json, hjson, -⟩ := map_eq_ok_iff.mp h
    exact ⟨⟨text, htext⟩, json, hjson⟩
  · rintro ⟨⟨text, htext⟩, json, hjson⟩
    exact ⟨_, bind_eq_ok_iff.mpr ⟨text, htext, map_eq_ok_iff.mpr ⟨json, hjson, rfl⟩⟩⟩

theorem fetchPage_of_count (hprepared : s.prepare query = .ok prepared)
    (hcount : on (c.count prepared.expression) state = (.ok counted, next))
    (htotal : remaining counted prepared.window.offset = .ok total)
    (hpages : pageCount total prepared.window.limit = .ok pages) :
    on (s.fetchPage c query) state = on (s.deliver c prepared total pages) next := by
  unfold fetchPage deliver
  simp only [on_bind, on_lift, hprepared, hcount, htotal, hpages]

end Service

/-! ### Tables as collections -/

theorem StoredTable.on_answer (call : Call) (t : StoredTable) :
    on (StoredTable.collection.answer call) t =
      match StoredTable.refine t.cursor call with
      | .ok cursor => (StoredTable.answer { t with cursor } call, { t with cursor })
      | .error failure => (.error failure, t) := by
  have hget : on (StoredTable.collection.answer call) t =
      on (Collection.lift (StoredTable.refine t.cursor call) >>= fun cursor =>
        (set { t with cursor } >>= fun _ =>
          Collection.lift (StoredTable.answer { t with cursor } call) : Action _ _)) t := rfl
  rw [hget, on_bind, on_lift]
  cases StoredTable.refine t.cursor call <;> rfl

theorem StoredTable.store_on_answer (call : Call) (t : StoredTable) :
    (on (StoredTable.collection.answer call) t).2.store = t.store := by
  rw [StoredTable.on_answer]
  cases StoredTable.refine t.cursor call <;> rfl

/-- A collection with a table behind it: it answers each call as the table does, in the store that
the call finds. Calls are counted from the next one on. -/
structure Collection.Serves (c : Collection σ) (view : σ → StoredTable)
    (finds : σ → Nat → Store) : Prop where
  answers (call : Call) (state : σ) :
    ((on (c.answer call) state).1, view (on (c.answer call) state).2) =
      on (StoredTable.collection.answer call) { view state with store := finds state 0 }
  later (call : Call) (state : σ) (k : Nat) :
    finds (on (c.answer call) state).2 k = finds state (k + 1)

theorem StoredTable.serves : StoredTable.collection.Serves id fun t _ => t.store where
  answers _ _ := rfl
  later call t _ := StoredTable.store_on_answer call t

theorem SharedTable.serves : SharedTable.collection.Serves (·.table) found where
  answers call t := by
    have hfound : (t.table.store.run (t.others.headD [])).2 = t.found 0 := by
      rw [found]
      cases t.others <;> simp
    rw [← hfound]
    rfl
  later call t k := by
    have hstore : (on (SharedTable.collection.answer call) t).2.table.store =
        (t.table.store.run (t.others.headD [])).2 :=
      StoredTable.store_on_answer call t.disturbed
    have hothers : (on (SharedTable.collection.answer call) t).2.others = t.others.tail := rfl
    rw [found, found, hstore, hothers]
    cases t.others with
    | nil => simp
    | cons head rest => simp [Store.run_append]

namespace Collection.Serves

variable {c : Collection σ} {view : σ → StoredTable} {finds : σ → Nat → Store}
  {state state' : σ} {e : Expression} {v : Value}

theorem answer_eq_ok (hc : c.Serves view finds) {call : Call}
    (h : on (c.answer call) state = (.ok v, state')) :
    ∃ cursor, StoredTable.refine (view state).cursor call = .ok cursor ∧
      StoredTable.answer { view state with store := finds state 0, cursor } call = .ok v ∧
      view state' = { view state with store := finds state 0, cursor } ∧
      ∀ k, finds state' k = finds state (k + 1) := by
  have hanswers := hc.answers call state
  have hlater := hc.later call state
  rw [h] at hanswers hlater
  rw [StoredTable.on_answer] at hanswers
  cases hrefine : StoredTable.refine (view state).cursor call with
  | error failure =>
      simp only [hrefine, Prod.mk.injEq, reduceCtorEq, false_and] at hanswers
  | ok cursor =>
      simp only [hrefine, Prod.mk.injEq] at hanswers
      exact ⟨cursor, rfl, hanswers.1.symm, hanswers.2, hlater⟩

theorem refine_eq_ok (hc : c.Serves view finds) {calls : List Call} {u : PUnit}
    (h : on (forIn calls PUnit.unit fun call _ => do
      discard (c.answer call)
      pure (ForInStep.yield PUnit.unit)) state = (.ok u, state')) :
    calls.foldlM StoredTable.refine (view state).cursor = .ok (view state').cursor ∧
      (view state').name = (view state).name ∧
      ∀ k, finds state' k = finds state (k + calls.length) := by
  induction calls generalizing state with
  | nil =>
      rw [List.forIn_nil, on_pure, Prod.mk.injEq] at h
      obtain ⟨_, rfl⟩ := h
      exact ⟨rfl, rfl, fun _ => rfl⟩
  | cons call rest ih =>
      rw [List.forIn_cons, bind_assoc, on_bind_eq_ok_iff] at h
      obtain ⟨_, next, hcall, h⟩ := h
      rw [pure_bind] at h
      obtain ⟨v, hcall⟩ := on_discard_eq_ok hcall
      obtain ⟨cursor, hcursor, _, hview, hlater⟩ := hc.answer_eq_ok hcall
      obtain ⟨hcursor', hname, hlater'⟩ := ih h
      rw [hview] at hcursor' hname
      refine ⟨?_, hname, fun k => ?_⟩
      · rw [List.foldlM_cons]
        exact bind_eq_ok_iff.mpr ⟨cursor, hcursor, hcursor'⟩
      · rw [hlater', hlater, List.length_cons, Nat.add_assoc]

/-- Records that were fetched were found by one query of the table. -/
theorem fetch_eq_ok (hc : c.Serves view finds) (h : on (c.fetch e) state = (.ok v, state')) :
    ∃ calls records, Collection.refinements e = .ok calls ∧
      (finds state (calls.length + 1)).find (view state).name (Collection.conditionsOf e) calls
        .null = .ok records ∧
      v = .list records ∧ (view state').name = (view state).name ∧
      ∀ k, finds state' k = finds state (k + calls.length + 2) := by
  unfold fetch at h
  obtain ⟨_, next, hfind, h⟩ := on_bind_eq_ok_iff.mp h
  obtain ⟨_, hfind⟩ := on_discard_eq_ok hfind
  obtain ⟨cursor, hcursor, _, hview, hlater⟩ := hc.answer_eq_ok hfind
  obtain ⟨calls, hcalls, h⟩ := on_lift_bind_eq_ok_iff.mp h
  obtain ⟨_, next', hrefine, h⟩ := on_bind_eq_ok_iff.mp h
  obtain ⟨hcursor', hname, hlater'⟩ := hc.refine_eq_ok hrefine
  obtain ⟨cursor'', hcursor'', hanswer, hview', hlater''⟩ := hc.answer_eq_ok h
  obtain rfl : (view next').cursor = cursor'' := by
    simpa [StoredTable.refine] using hcursor''
  obtain ⟨records, hrecords, rfl⟩ := map_eq_ok_iff.mp hanswer
  rw [hview] at hcursor' hname
  have hfound : finds next' 0 = finds state (calls.length + 1) := by
    rw [hlater', hlater, Nat.zero_add]
  simp only [hname, hfound] at hrecords
  refine ⟨calls, records, hcalls, ?_, rfl, by rw [hview', hname], fun k => ?_⟩
  · unfold Store.find
    exact bind_eq_ok_iff.mpr
      ⟨cursor, hcursor, bind_eq_ok_iff.mpr ⟨_, hcursor', hrecords⟩⟩
  · rw [hlater'', hlater', hlater]
    congr 1
    omega

/-- A page that was fetched comes from a count and a query of the table for the expression that the
request was compiled to. -/
theorem fetchPage_eq_ok {s : Service} {query : Value} {page : Page} {message : String}
    (hc : c.Serves view finds)
    (h : on (s.fetchPage c query) state = (.ok (page, message), state')) :
    ∃ prepared calls count pages records,
      s.prepare query = .ok prepared ∧
      Collection.refinements prepared.expression = .ok calls ∧
      (finds state 0).count (view state).name (Collection.conditionsOf prepared.expression) =
        .ok count ∧
      (finds state (calls.length + 2)).find (view state).name
        (Collection.conditionsOf prepared.expression) calls .null = .ok records ∧
      records.mapM s.present = .ok page.data ∧
      s.fetchedMessage prepared.window page.data.length page.total = .ok message ∧
      Service.remaining (.int count) prepared.window.offset = .ok page.total ∧
      Service.pageCount page.total prepared.window.limit = .ok pages ∧
      page.page = min (prepared.window.page : Int) pages ∧ page.limit = prepared.window.limit ∧
      (view state').name = (view state).name ∧
      ∀ k, finds state' k = finds state (k + calls.length + 3) := by
  unfold Service.fetchPage at h
  obtain ⟨prepared, hprepared, h⟩ := on_lift_bind_eq_ok_iff.mp h
  dsimp only at h
  obtain ⟨counted, next, hcount, h⟩ := on_bind_eq_ok_iff.mp h
  obtain ⟨cursor, _, hanswer, hview, hlater⟩ := hc.answer_eq_ok hcount
  obtain ⟨_, hcast, rfl⟩ := map_eq_ok_iff.mp hanswer
  obtain ⟨count, hcounted, hcast⟩ := bind_eq_ok_iff.mp hcast
  rw [pure_eq_ok_iff] at hcast
  subst hcast
  obtain ⟨total, htotal, h⟩ := on_lift_bind_eq_ok_iff.mp h
  obtain ⟨pages, hpages, h⟩ := on_lift_bind_eq_ok_iff.mp h
  obtain ⟨v, next', hfetch, h⟩ := on_bind_eq_ok_iff.mp h
  obtain ⟨calls, records, hcalls, hfind, rfl, hname, hlater'⟩ := hc.fetch_eq_ok hfetch
  obtain ⟨items, hitems, h⟩ := on_lift_bind_eq_ok_iff.mp h
  cases hitems
  obtain ⟨data, hdata, h⟩ := on_lift_bind_eq_ok_iff.mp h
  obtain ⟨_, hmessage, h⟩ := on_lift_bind_eq_ok_iff.mp h
  rw [on_pure, Prod.mk.injEq, Except.ok.injEq, Prod.mk.injEq] at h
  obtain ⟨⟨rfl, rfl⟩, rfl⟩ := h
  rw [hview] at hfind hname
  rw [hlater] at hfind
  refine ⟨prepared, calls, count, pages, records, hprepared, hcalls, hcounted, hfind, hdata,
    hmessage, htotal, hpages, rfl, rfl, hname, fun k => ?_⟩
  rw [hlater', hlater]

end Collection.Serves

theorem Service.fetch_eq (s : Service) (c : Collection σ) (query : Value) (state : σ) :
    s.fetch c query state = match on (s.fetchPage c query) state with
      | (.ok (page, message), state) => ⟨.ok page, state, [⟨.debug, message⟩]⟩
      | (.error failure, state) =>
        ⟨.error (s.handled failure).1, state, (s.handled failure).2⟩ := rfl

theorem Service.fetch_eq_ok {s : Service} {c : Collection σ} {query : Value} {state : σ}
    {page : Page} (h : (s.fetch c query state).result = .ok page) :
    ∃ message, on (s.fetchPage c query) state =
      (.ok (page, message), (s.fetch c query state).state) := by
  rw [fetch_eq] at h ⊢
  generalize on (s.fetchPage c query) state = outcome at h ⊢
  obtain ⟨result, next⟩ := outcome
  cases result with
  | error failure => cases h
  | ok fetched =>
      cases h
      exact ⟨fetched.2, rfl⟩

end DocFilter
