import DocFilter.Proofs.Paging.Fetching
import DocFilter.Proofs.Store.History

/-!
Stores that look alike at a table.

A statement sees of a store what it finds when it opens its table, and nothing else. So two stores
in which every statement finds the same at a name answer all counts and all queries on that name
alike (`count_congr`, `find_congr`). A service asks a table several times, and what the table
becomes in between depends on the calls only: actions on two states agree if they do the same on
states that are alike and leave states that are alike, and that is kept by chaining them and by
repeating them (`Agree.bind`, `Agree.repeated`). So pages are alike as well (`fetchPage_congr`).
-/

namespace DocFilter

open DocFilter.Action

variable {σ τ α β : Type}

/-! ### Actions that agree -/

namespace Action

/-- The actions do the same on states that are alike, and leave states that are alike. -/
def Agree (R : σ → τ → Prop) (x : Action σ α) (y : Action τ α) : Prop :=
  ∀ state other, R state other →
    (on x state).1 = (on y other).1 ∧ R (on x state).2 (on y other).2

variable {R : σ → τ → Prop}

theorem agree_lift (result : Except Failure α) :
    Agree R (Collection.lift result) (Collection.lift result) :=
  fun _ _ h => ⟨rfl, h⟩

theorem agree_pure (a : α) : Agree R (pure a : Action σ α) (pure a) :=
  fun _ _ h => ⟨rfl, h⟩

theorem Agree.bind {x : Action σ α} {y : Action τ α} {f : α → Action σ β} {g : α → Action τ β}
    (hx : Agree R x y) (hf : ∀ a, Agree R (f a) (g a)) : Agree R (x >>= f) (y >>= g) := by
  intro state other h
  obtain ⟨hresult, hstate⟩ := hx state other h
  rw [on_bind, on_bind]
  revert hresult hstate
  obtain ⟨result, next⟩ := on x state
  obtain ⟨result', next'⟩ := on y other
  rintro rfl hstate
  cases result with
  | error failure => exact ⟨rfl, hstate⟩
  | ok a => exact hf a next next' hstate

theorem Agree.discard {x : Action σ α} {y : Action τ α} (h : Agree R x y) :
    Agree R (discard x) (discard y) :=
  h.bind fun _ => agree_pure PUnit.unit

theorem Agree.repeated {x : β → Action σ α} {y : β → Action τ α} (h : ∀ b, Agree R (x b) (y b))
    (items : List β) :
    Agree R
      (forIn items PUnit.unit fun b _ => do
        Functor.discard (x b)
        pure (ForInStep.yield PUnit.unit))
      (forIn items PUnit.unit fun b _ => do
        Functor.discard (y b)
        pure (ForInStep.yield PUnit.unit)) := by
  induction items with
  | nil => exact agree_pure _
  | cons b rest ih =>
      rw [List.forIn_cons, List.forIn_cons, bind_assoc, bind_assoc]
      exact (h b).discard.bind fun _ => ih

end Action

/-- Two collections that answer every call alike. -/
def Collection.Agree (R : σ → τ → Prop) (c : Collection σ) (d : Collection τ) : Prop :=
  ∀ call, Action.Agree R (c.answer call) (d.answer call)

namespace Collection.Agree

variable {R : σ → τ → Prop} {c : Collection σ} {d : Collection τ}

theorem fetch (h : Collection.Agree R c d) (e : Expression) :
    Action.Agree R (c.fetch e) (d.fetch e) := by
  unfold Collection.fetch
  refine (h _).discard.bind fun _ => (agree_lift _).bind fun calls => ?_
  exact (Action.Agree.repeated h calls).bind fun _ => h _

/-- Fetching a page is counting and fetching; all else concerns the request and the answers. -/
theorem fetchPage (h : Collection.Agree R c d) (s : Service) (query : Value) :
    Action.Agree R (s.fetchPage c query) (s.fetchPage d query) := by
  unfold Service.fetchPage
  refine (agree_lift _).bind fun prepared => ?_
  refine (h _).bind fun counted => ?_
  refine (agree_lift _).bind fun total => ?_
  refine (agree_lift _).bind fun pages => ?_
  refine (h.fetch _).bind fun records => ?_
  refine (agree_lift _).bind fun items => ?_
  refine (agree_lift _).bind fun data => ?_
  exact (agree_lift _).bind fun message => agree_pure _

end Collection.Agree

/-! ### Stores -/

namespace Store

/-- Every statement finds the same in both stores when it opens the table. -/
def SameAt (name : TableName) (s t : Store) : Prop :=
  ∀ conditions columns, s.openTable name conditions columns = t.openTable name conditions columns

variable {s t : Store} {name : TableName}

theorem count_congr (h : SameAt name s t) (conditions : Value) :
    s.count name conditions = t.count name conditions := by
  simp only [count, h _ _]

theorem toList_congr (h : SameAt name s t) (c : Cursor) (length : Value) :
    c.toList s name length = c.toList t name length := by
  simp only [Cursor.toList, h _ _]

theorem find_congr (h : SameAt name s t) (conditions : Value) (refinements : List Call)
    (length : Value) :
    s.find name conditions refinements length = t.find name conditions refinements length := by
  simp only [find, toList_congr h]

theorem answer_congr (h : SameAt name s t) (cursor : Cursor) (call : Call) :
    StoredTable.answer ⟨s, name, cursor⟩ call = StoredTable.answer ⟨t, name, cursor⟩ call := by
  cases call with
  | countDocuments conditions => simp only [StoredTable.answer, count_congr h]
  | toList length => simp only [StoredTable.answer, toList_congr h]
  | _ => rfl

theorem fetchPage_congr (h : SameAt name s t) (service : Service) (request : Value) :
    s.fetchPage name service request = t.fetchPage name service request := by
  -- Both tables keep the same query under construction, and their stores never change.
  let R (a b : StoredTable) : Prop := ∃ cursor, a = ⟨s, name, cursor⟩ ∧ b = ⟨t, name, cursor⟩
  have hagree : Collection.Agree R StoredTable.collection StoredTable.collection := by
    rintro call _ _ ⟨cursor, rfl, rfl⟩
    rw [StoredTable.on_answer, StoredTable.on_answer]
    cases StoredTable.refine cursor call with
    | error failure => exact ⟨rfl, cursor, rfl, rfl⟩
    | ok next => exact ⟨answer_congr h next call, next, rfl, rfl⟩
  obtain ⟨hresult, -⟩ := hagree.fetchPage service request ⟨s, name, {}⟩ ⟨t, name, {}⟩ ⟨{}, rfl, rfl⟩
  unfold fetchPage
  rw [Service.fetch_eq, Service.fetch_eq]
  revert hresult
  obtain ⟨result, _⟩ := on (service.fetchPage StoredTable.collection request) ⟨s, name, {}⟩
  obtain ⟨result', _⟩ := on (service.fetchPage StoredTable.collection request) ⟨t, name, {}⟩
  rintro rfl
  cases result <;> rfl

theorem perform_congr_of_isRead {step : Step} (h : SameAt name s t) (hread : step.isRead) :
    (s.perform name step).1 = (t.perform name step).1 := by
  cases step with
  | create => cases hread
  | insert documents => cases hread
  | count conditions => simp only [perform, count_congr h]
  | find conditions refinements length => simp only [perform, find_congr h]
  | fetch service request => simp only [perform, fetchPage_congr h]

end Store

end DocFilter
