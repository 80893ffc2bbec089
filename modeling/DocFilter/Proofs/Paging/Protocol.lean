import DocFilter.Paging.Script
import DocFilter.Proofs.Paging.Pages

/-!
What a collection is asked for, and what is reported.

A request that was prepared determines all calls that it can make (`Service.protocol`). What a
collection makes of calls is up to the collection, and it may fail at any of them and in any way.
Either it answers them all (`Collection.Answers`), or it is asked up to one that fails
(`Collection.Fails`), and so it is with the calls of every part of a fetch (`Collection.Makes`). A
fetch from any collection, with the calls to it written down, has therefore carried out a part of
the protocol: nothing if the request was refused, the calls up to the one that failed, the count if
its answer is of no use, and everything otherwise (`fetchPage_cases`). Whatever failed is the
result, and it is logged once (`fetch_follows_protocol`).

A cancellation is not logged, and there is nothing to log where the name of the table cannot be
shown (`fetch_leaves_no_record`).
-/

namespace DocFilter

open Outcome DocFilter.Action

variable {σ : Type}

/-! ### Calls of a request -/

/-- The call that sorts as the paging part of a request says, if it says so. -/
def Builder.sortCalls (b : Builder) (p : Paging) : List Call :=
  match p.sortBy with
  | .null => []
  | field =>
    let key := if field.equal b.publicKey then b.nativeKey else field
    [.sort (.list [.tuple [key, .int (Direction.ofValue p.sortDirection).sign]]) .null]

/-- All calls of a request with these conditions and this paging part, in order. -/
def Service.protocol (s : Service) (conditions : Value) (p : Paging) : List Call :=
  let w := s.window p
  [.countDocuments conditions, .find conditions] ++ s.builder.sortCalls p ++
    [.skip (.int (w.offset + (w.page - 1) * w.limit : Nat)), .limit (.int w.limit), .toList .null]

theorem Builder.sortCalls_of_applySort {b : Builder} {built sorted : Expression} {p : Paging}
    (hsort : p.sortBy = .null ∨ p.sortBy.isTruthy = true) (hnone : built.sort = .null)
    (h : b.applySort built p.sortBy p.sortDirection = .ok sorted) :
    Collection.sortCalls sorted.sort = .ok (b.sortCalls p) := by
  unfold applySort at h
  obtain hnull | htruthy := hsort
  · rw [hnull, if_neg (by decide), pure_eq_ok_iff] at h
    subst h
    rw [hnone, sortCalls, hnull]
    rfl
  · rw [if_pos htruthy] at h
    obtain ⟨_, _, h⟩ := bind_eq_ok_iff.mp h
    dsimp only at h
    split at h
    · cases h
    · rw [pure_eq_ok_iff] at h
      subst h
      have hcalls : b.sortCalls p = [.sort (.list [.tuple [
          if p.sortBy.equal b.publicKey then b.nativeKey else p.sortBy,
          .int (Direction.ofValue p.sortDirection).sign]]) .null] := by
        unfold sortCalls
        split
        · rename_i hnull
          rw [hnull] at htruthy
          cases htruthy
        · rfl
      rw [hcalls]
      rfl

namespace Service

variable {s : Service} {query : Value} {p : Paging}

theorem sortBy_cases (h : p.check = .ok ()) : p.sortBy = .null ∨ p.sortBy.isTruthy = true := by
  obtain ⟨-, hnull | hname⟩ := Paging.check_eq_ok_iff.mp h
  · exact .inl hnull
  · exact .inr hname.isTruthy

/-- What a request was prepared from, and the calls that it makes when its records are fetched. -/
theorem exists_of_prepare {prepared : PreparedRequest} (h : s.prepare query = .ok prepared) :
    ∃ request paging built, Request.ofValue query = .ok request ∧
      request.checkedPaging = .ok paging ∧ s.builder.build request.filters = .ok built ∧
      prepared.window = s.window paging ∧
      Collection.conditionsOf prepared.expression = built.conditions ∧
      Collection.refinements prepared.expression = .ok (s.builder.sortCalls paging ++
        [.skip (.int (s.window paging).skip), .limit (.int (s.window paging).limit)]) := by
  obtain ⟨filters, paging, built, sorted, hrequest, hcheck, hbuilt, hsorted, rfl⟩ :=
    parts_of_prepare h
  obtain ⟨entries, rfl⟩ := Builder.build_eq_ok hbuilt
  obtain ⟨hshape, -⟩ := Builder.applySort_eq_ok hsorted
  have hsorting := Builder.sortCalls_of_applySort (sortBy_cases hcheck) rfl hsorted
  refine ⟨_, paging, _, hrequest, Request.checkedPaging_eq_ok_iff.mpr ⟨rfl, hcheck⟩, hbuilt, rfl,
    ?_, ?_⟩
  · exact Collection.conditionsOf_map (by rw [hshape])
  · rw [Collection.refinements_eq]
    refine bind_eq_ok_iff.mpr ⟨_, hsorting, ?_⟩
    simp [Value.integer?, window_limit_pos hcheck]

end Service

/-! ### Calls to a collection -/

namespace Collection

variable {α β : Type} {c : Collection σ} {state next final : σ} {call : Call}
  {calls more made seen : List Call} {answers answers' : List Value} {failure : Failure}

/-- The calls are answered one after the other. -/
inductive Answers (c : Collection σ) : σ → List Call → List Value → σ → Prop
  | nil (state : σ) : Answers c state [] [] state
  | cons {state next final : σ} {call : Call} {calls : List Call} {v : Value} {answers : List Value}
      (hcall : on (c.answer call) state = (.ok v, next)) (hrest : Answers c next calls answers final) :
      Answers c state (call :: calls) (v :: answers) final

/-- Of some calls the first ones are made, and they are answered up to the last, which fails. -/
inductive Fails (c : Collection σ) : σ → List Call → List Call → Failure → σ → Prop
  | here {state final : σ} {call : Call} {calls : List Call} {failure : Failure}
      (hcall : on (c.answer call) state = (.error failure, final)) :
      Fails c state (call :: calls) [call] failure final
  | later {state next final : σ} {call : Call} {calls made : List Call} {v : Value}
      {failure : Failure} (hcall : on (c.answer call) state = (.ok v, next))
      (hrest : Fails c next calls made failure final) :
      Fails c state (call :: calls) (call :: made) failure final

theorem Answers.append (h : c.Answers state calls answers next)
    (hmore : c.Answers next more answers' final) :
    c.Answers state (calls ++ more) (answers ++ answers') final := by
  induction h with
  | nil => exact hmore
  | cons hcall _ ih => exact .cons hcall (ih hmore)

theorem Fails.of_answers (h : c.Answers state calls answers next)
    (hmore : c.Fails next more made failure final) :
    c.Fails state (calls ++ more) (calls ++ made) failure final := by
  induction h with
  | nil => exact hmore
  | cons hcall _ ih => exact .later hcall (ih hmore)

theorem Fails.append (h : c.Fails state calls made failure final) (more : List Call) :
    c.Fails state (calls ++ more) made failure final := by
  induction h with
  | here hcall => exact .here hcall
  | later hcall _ ih => exact .later hcall ih

theorem Fails.isPrefix (h : c.Fails state calls made failure final) : made <+: calls := by
  induction h with
  | here => exact ⟨_, rfl⟩
  | later _ _ ih => exact List.cons_prefix_cons.mpr ⟨rfl, ih⟩

/-- The action makes the calls, whatever the collection was asked before: it has a result for the
answers if all of them are answered, and fails as the first call that is not. -/
def Makes (c : Collection σ) (x : Action (σ × List Call) α) (calls : List Call)
    (results : List Value → α → Prop) : Prop :=
  ∀ state seen,
    (∃ answers a next, c.Answers state calls answers next ∧ results answers a ∧
      on x (state, seen) = (.ok a, next, seen ++ calls)) ∨
    ∃ made failure final, c.Fails state calls made failure final ∧
      on x (state, seen) = (.error failure, final, seen ++ made)

theorem on_recorded (c : Collection σ) (call : Call) (state : σ) (seen : List Call) :
    on (c.recorded.answer call) (state, seen) =
      ((on (c.answer call) state).1, (on (c.answer call) state).2, seen ++ [call]) := rfl

theorem makes_answer (c : Collection σ) (call : Call) :
    c.Makes (c.recorded.answer call) [call] fun answers v => answers = [v] := by
  intro state seen
  rw [on_recorded]
  rcases hcall : on (c.answer call) state with ⟨_ | v, final⟩
  · exact .inr ⟨[call], _, final, .here hcall, rfl⟩
  · exact .inl ⟨[v], v, final, .cons hcall (.nil final), rfl, rfl⟩

theorem makes_count (c : Collection σ) (e : Expression) :
    c.Makes (c.recorded.count e) [.countDocuments (conditionsOf e)] fun answers v => answers = [v] :=
  c.makes_answer _

theorem makes_pure (c : Collection σ) (a : α) : c.Makes (pure a) [] fun _ b => a = b :=
  fun state seen => .inl ⟨[], a, state, .nil state, rfl, by rw [on_pure, List.append_nil]⟩

theorem Makes.bind {x : Action (σ × List Call) α} {f : α → Action (σ × List Call) β}
    {before : List Value → α → Prop} {after : List Value → β → Prop} (hx : c.Makes x calls before)
    (hf : ∀ a, c.Makes (f a) more after) :
    c.Makes (x >>= f) (calls ++ more) fun answers b => ∃ first rest, answers = first ++ rest ∧
      after rest b := by
  intro state seen
  rw [on_bind]
  obtain ⟨first, a, next, hfirst, -, hx⟩ | ⟨made, failure, final, hfails, hx⟩ := hx state seen
  · rw [hx]
    obtain ⟨rest, b, final, hrest, hafter, hf⟩ | ⟨made, failure, final, hfails, hf⟩ :=
      hf a next (seen ++ calls)
    · refine .inl ⟨_, b, final, hfirst.append hrest, ⟨first, rest, rfl, hafter⟩, ?_⟩
      rw [← List.append_assoc]
      exact hf
    · refine .inr ⟨_, failure, final, .of_answers hfirst hfails, ?_⟩
      rw [← List.append_assoc]
      exact hf
  · exact .inr ⟨made, failure, final, hfails.append more, by rw [hx]⟩

theorem Makes.mono {x : Action (σ × List Call) α} {results results' : List Value → α → Prop}
    (hx : c.Makes x calls results) (h : ∀ answers a, results answers a → results' answers a) :
    c.Makes x calls results' := by
  intro state seen
  obtain ⟨answers, a, next, hanswers, hresult, hx⟩ | hfails := hx state seen
  · exact .inl ⟨answers, a, next, hanswers, h answers a hresult, hx⟩
  · exact .inr hfails

theorem makes_discard (c : Collection σ) (call : Call) :
    c.Makes (discard (c.recorded.answer call)) [call] fun _ _ => True := by
  have hcall := (c.makes_answer call).bind fun _ => c.makes_pure PUnit.unit
  exact hcall.mono fun _ _ _ => trivial

theorem makes_refine (c : Collection σ) (calls : List Call) :
    c.Makes (forIn calls PUnit.unit fun call _ => do
      discard (c.recorded.answer call)
      pure (ForInStep.yield PUnit.unit)) calls fun _ _ => True := by
  induction calls with
  | nil => exact (c.makes_pure PUnit.unit).mono fun _ _ _ => trivial
  | cons call rest ih =>
      rw [List.forIn_cons, bind_assoc]
      simp only [pure_bind]
      exact ((c.makes_discard call).bind fun _ => ih).mono fun _ _ _ => trivial

/-- Fetching makes the calls of an expression, and the answer to the last one is what it yields. -/
theorem makes_fetch (c : Collection σ) {e : Expression} (hcalls : refinements e = .ok calls) :
    c.Makes (c.recorded.fetch e) (.find (conditionsOf e) :: calls ++ [.toList .null])
      fun answers records => ∃ first, answers = first ++ [records] := by
  have hfetch : c.recorded.fetch e = discard (c.recorded.answer (.find (conditionsOf e))) >>= fun _ =>
      (forIn calls PUnit.unit fun call _ => do
        discard (c.recorded.answer call)
        pure (ForInStep.yield PUnit.unit)) >>= fun _ => c.recorded.answer (.toList .null) := by
    unfold fetch
    rw [hcalls]
    rfl
  rw [hfetch]
  refine ((c.makes_discard _).bind fun _ => (c.makes_refine calls).bind fun _ =>
    c.makes_answer (.toList .null)).mono ?_
  rintro _ records ⟨first, _, rfl, second, _, rfl, rfl⟩
  exact ⟨first ++ second, (List.append_assoc ..).symm⟩

end Collection

/-! ### Fetches -/

/-- What follows a computation without effects and has none itself has none together with it. -/
theorem Action.exists_on_lift_bind {α β : Type} {x : Except Failure α} {f : α → Action σ β}
    {P : β → Prop} {state : σ} (h : ∀ a, x = .ok a → ∃ result, on (f a) state = (result, state) ∧
      ∀ b, result = .ok b → P b) :
    ∃ result, on (Collection.lift x >>= f) state = (result, state) ∧ ∀ b, result = .ok b → P b := by
  rw [on_bind, on_lift]
  cases x with
  | error failure => exact ⟨_, rfl, nofun⟩
  | ok a => exact h a rfl

namespace Service

variable {s : Service} {query : Value} {c : Collection σ}

/-- What comes of the records behind a count. A call fails; or all calls are answered, and a page holds
what was made of the last answer. -/
theorem deliver_cases {prepared : PreparedRequest} {calls : List Call}
    (hcalls : Collection.refinements prepared.expression = .ok calls) (c : Collection σ)
    (total : Number) (pages : Int) (state : σ) (seen : List Call) :
    let more := .find (Collection.conditionsOf prepared.expression) :: calls ++ [.toList .null]
    let delivered := on (s.deliver c.recorded prepared total pages) (state, seen)
    (∃ made failure final, c.Fails state more made failure final ∧
      delivered = (.error failure, final, seen ++ made)) ∨
    ∃ answers records final result, c.Answers state more (answers ++ [records]) final ∧
      delivered = (result, final, seen ++ more) ∧ ∀ fetched, result = .ok fetched →
        (∃ items, records.elements = .ok items ∧ items.mapM s.present = .ok fetched.1.data) ∧
        fetched.1.total = total ∧ fetched.1.limit = prepared.window.limit := by
  intro more delivered
  have hdelivered : delivered = on (s.deliver c.recorded prepared total pages) (state, seen) := rfl
  rw [deliver, on_bind] at hdelivered
  obtain ⟨answers, records, final, hanswers, ⟨first, rfl⟩, hfetch⟩ |
    ⟨made, failure, final, hfails, hfetch⟩ := c.makes_fetch hcalls state seen
  · -- Every call has been made, and what is left has no effects.
    rw [hfetch] at hdelivered
    obtain ⟨result, hresult, hpage⟩ :
        ∃ result, delivered = (result, final, seen ++ more) ∧ ∀ fetched, result = .ok fetched →
          (∃ items, records.elements = .ok items ∧ items.mapM s.present = .ok fetched.1.data) ∧
          fetched.1.total = total ∧ fetched.1.limit = prepared.window.limit := by
      rw [hdelivered]
      refine Action.exists_on_lift_bind fun items hitems => Action.exists_on_lift_bind
        fun data hdata => Action.exists_on_lift_bind fun message _ => ⟨_, rfl, ?_⟩
      rintro _ ⟨⟩
      exact ⟨⟨items, hitems, hdata⟩, rfl, rfl⟩
    exact .inr ⟨first, records, final, result, hanswers, hresult, hpage⟩
  · rw [hfetch] at hdelivered
    exact .inl ⟨made, failure, final, hfails, hdelivered⟩

/-- What comes of a request that was prepared. A call fails; or the answer to the count, the first
call, is of no use; or all calls are answered, and a page holds what was made of the answers. -/
theorem fetchPage_cases {prepared : PreparedRequest} {w : Window} {conditions : Value}
    {calls : List Call} (hprepared : s.prepare query = .ok prepared) (hwindow : prepared.window = w)
    (hconditions : Collection.conditionsOf prepared.expression = conditions)
    (hcalls : Collection.refinements prepared.expression = .ok calls) (c : Collection σ) (state : σ) :
    let all := [.countDocuments conditions, .find conditions] ++ calls ++ [.toList .null]
    let fetched := on (s.fetchPage c.recorded query) (state, [])
    (∃ made failure final, c.Fails state all made failure final ∧
      fetched = (.error failure, final, made)) ∨
    (∃ counted next failure, c.Answers state [.countDocuments conditions] [counted] next ∧
      (do pageCount (← remaining counted w.offset) w.limit) = .error failure ∧
      fetched = (.error failure, next, [.countDocuments conditions])) ∨
    ∃ counted answers records final result,
      c.Answers state all (counted :: answers ++ [records]) final ∧
      fetched = (result, final, all) ∧ ∀ fetched, result = .ok fetched →
        (∃ items, records.elements = .ok items ∧ items.mapM s.present = .ok fetched.1.data) ∧
        remaining counted w.offset = .ok fetched.1.total ∧ fetched.1.limit = w.limit := by
  subst hwindow hconditions
  intro all fetched
  obtain ⟨_, counted, next, hcounted, rfl, hcount⟩ | ⟨made, failure, final, hfails, hcount⟩ :=
    c.makes_count prepared.expression state []
  · rw [List.nil_append] at hcount
    cases hpages : (do
        pageCount (← remaining counted prepared.window.offset) prepared.window.limit) with
    | error failure =>
        -- The answer to the count is of no use: nothing more is called.
        refine .inr (.inl ⟨counted, next, failure, hcounted, hpages, ?_⟩)
        unfold fetched fetchPage
        simp only [on_bind, on_lift, hprepared, hcount]
        obtain htotal | ⟨total, htotal, hpages⟩ := bind_eq_error_iff.mp hpages
        · simp only [htotal]
        · simp only [htotal, hpages]
    | ok pages =>
        obtain ⟨total, htotal, hpages⟩ := bind_eq_ok_iff.mp hpages
        have hdeliver : fetched = on (s.deliver c.recorded prepared total pages) (next, _) :=
          fetchPage_of_count hprepared hcount htotal hpages
        obtain ⟨made, failure, final, hfails, hdelivered⟩ |
          ⟨first, records, final, result, hanswers, hdelivered, hpage⟩ :=
            deliver_cases hcalls c total pages next
              [.countDocuments (Collection.conditionsOf prepared.expression)]
        · have hfails := hfails.of_answers hcounted
          exact .inl ⟨_, failure, final, hfails, hdeliver.trans hdelivered⟩
        · refine .inr (.inr ⟨counted, first, records, final, result, hcounted.append hanswers,
            hdeliver.trans hdelivered, fun fetched hfetched => ?_⟩)
          obtain ⟨hdata, hsame, hlimit⟩ := hpage fetched hfetched
          exact ⟨hdata, hsame ▸ htotal, hlimit⟩
  · refine .inl ⟨made, failure, final, hfails.append _, ?_⟩
    unfold fetched fetchPage
    simp only [on_bind, on_lift, hprepared, hcount, List.nil_append]

theorem fetch_of_error {state state' : σ} {failure : Failure}
    (h : on (s.fetchPage c query) state = (.error failure, state')) :
    s.fetch c query state = ⟨.error (s.handled failure).1, state', (s.handled failure).2⟩ := by
  rw [fetch_eq, h]

theorem fetch_of_ok {state state' : σ} {page : Page} {message : String}
    (h : on (s.fetchPage c query) state = (.ok (page, message), state')) :
    s.fetch c query state = ⟨.ok page, state', [⟨.debug, message⟩]⟩ := by
  rw [fetch_eq, h]

/-- The name of the table can be shown in a message, as a text can and a missing one. -/
def IsLabelled (s : Service) : Prop :=
  ∃ name, (s.tableName.orElse (.text "collection")).shown = .ok name

/-- The report of what was raised by a fetch: a page is logged, but not as an error; a failure is
the result as it was raised, and it is logged once, as an error, under the name of the table; a
cancellation is the result without a record. -/
structure Reports (s : Service) (raised : Except Failure Page) (outcome : Outcome σ) : Prop where
  page : ∀ page, raised = .ok page →
    outcome.result = .ok page ∧ ∃ message, outcome.log = [⟨.debug, message⟩]
  failure : ∀ failure, raised = .error failure → failure.isCaught = true → s.IsLabelled →
    outcome.result = .error failure ∧ ∃ message, s.failedMessage failure = .ok message ∧
      outcome.log = [⟨.error, message⟩]
  cancelled : ∀ failure, raised = .error failure → failure.isCaught = false →
    outcome.result = .error failure ∧ outcome.log = []

theorem failedMessage_of_isLabelled (h : s.IsLabelled) (failure : Failure) :
    ∃ message, s.failedMessage failure = .ok message := by
  obtain ⟨name, hname⟩ := h
  exact ⟨_, map_eq_ok_iff.mpr ⟨name, hname, rfl⟩⟩

/-- Whatever a fetch comes to is reported. -/
theorem reports_fetch {state final : σ} {result : Except Failure (Page × String)}
    (h : on (s.fetchPage c query) state = (result, final)) :
    s.Reports (result.map (·.1)) (s.fetch c query state) ∧ (s.fetch c query state).state = final := by
  cases result with
  | ok fetched =>
      rw [fetch_of_ok h]
      exact ⟨⟨fun page hpage => ⟨hpage, _, rfl⟩, nofun, nofun⟩, rfl⟩
  | error raised =>
      rw [fetch_of_error h]
      refine ⟨⟨nofun, ?_, ?_⟩, rfl⟩
      · rintro failure ⟨⟩ hcaught hlabelled
        obtain ⟨message, hmessage⟩ := failedMessage_of_isLabelled hlabelled raised
        simp [handled, hcaught, hmessage]
      · rintro failure ⟨⟩ hcancelled
        simp [handled, hcancelled]

end Service

end DocFilter
