import DocFilter.Proofs.Paging.Parameters
import DocFilter.Proofs.Store.Records

/-!
Requests without their null entries.

An entry that holds null says no more than an entry that is not there: what is looked up under a
name is null in both cases (`lookup?_drops`). So a clause reads the same with and without such
entries, and so do the clauses, the page, the limit and the offset of a request
(`Request.ofValue_drops`). The sort is the exception, because it may be spelled in two ways and the
first one that is present counts, null or not: a null under the first name hides what stands under
the second one, and comes to light with it when it is left out. Where no null is left out in front
of a value in this way, the request is the same in all its parts, and all that is made of it
(`Service.prepare_without_nulls`); otherwise it may get a sort that it did not have
(`Service.dropped_null_uncovers_sort`).
-/

namespace DocFilter

open Outcome

namespace Value

/-- No two entries are under the same text. -/
def DistinctTexts (entries : List (Value × Value)) : Prop :=
  entries.Pairwise fun a b => ∀ s, a.1 = text s → b.1 ≠ text s

/-- The second list of entries is the first one without some entries that hold null; what the others
hold is related under their keys. -/
inductive Drops (related : Value → Value → Value → Prop) :
    List (Value × Value) → List (Value × Value) → Prop
  | nil : Drops related [] []
  | keep {key v v' : Value} {entries entries' : List (Value × Value)} (h : related key v v')
      (hrest : Drops related entries entries') :
      Drops related ((key, v) :: entries) ((key, v') :: entries')
  | drop (key : Value) {entries entries' : List (Value × Value)}
      (hrest : Drops related entries entries') : Drops related ((key, .null) :: entries) entries'

/-- The second mapping is the first one without some entries that hold null. -/
inductive WithoutNulls : Value → Value → Prop
  | map {entries entries' : List (Value × Value)} (hdistinct : DistinctTexts entries)
      (h : Drops (fun _ v v' => v' = v) entries entries') : WithoutNulls (.map entries) (.map entries')

/-- No null under the first of two names is left out in front of a value under the second one. -/
def KeepsHidden (name other : String) (entries entries' : List (Value × Value)) : Prop :=
  lookup? entries (.text name) = some .null → lookup? entries' (.text name) = none →
    (lookup? entries (.text other)).getD .null = .null

variable {related : Value → Value → Value → Prop} {entries entries' : List (Value × Value)}

theorem Drops.key_mem (h : Drops related entries entries') :
    ∀ entry' ∈ entries', ∃ entry ∈ entries, entry.1 = entry'.1 := by
  induction h with
  | nil => simp
  | @keep key v v' _ _ _ _ ih =>
      refine List.forall_mem_cons.mpr ⟨⟨(key, v), List.mem_cons_self, rfl⟩, fun entry' hentry' => ?_⟩
      obtain ⟨entry, hentry, hkey⟩ := ih entry' hentry'
      exact ⟨entry, List.mem_cons_of_mem _ hentry, hkey⟩
  | drop _ _ ih =>
      intro entry' hentry'
      obtain ⟨entry, hentry, hkey⟩ := ih entry' hentry'
      exact ⟨entry, List.mem_cons_of_mem _ hentry, hkey⟩

/-- What is found under a name before and after: nothing both times, related values, or null before
and nothing after. -/
theorem lookup?_drops (h : Drops related entries entries') (hdistinct : DistinctTexts entries)
    (name : String) :
    (lookup? entries (.text name) = none ∧ lookup? entries' (.text name) = none) ∨
    (∃ v v', lookup? entries (.text name) = some v ∧ lookup? entries' (.text name) = some v' ∧
      related (.text name) v v') ∨
    (lookup? entries (.text name) = some .null ∧ lookup? entries' (.text name) = none) := by
  induction h with
  | nil => exact .inl ⟨rfl, rfl⟩
  | @keep key v v' entries entries' hrelated _ ih =>
      rw [lookup?_cons, lookup?_cons]
      by_cases hkey : key.isText name = true
      · rw [if_pos hkey, if_pos hkey]
        exact .inr (.inl ⟨v, v', rfl, rfl, isText_iff.mp hkey ▸ hrelated⟩)
      · rw [if_neg hkey, if_neg hkey]
        exact ih hdistinct.tail
  | @drop key entries entries' hrest ih =>
      rw [lookup?_cons]
      by_cases hkey : key.isText name = true
      · -- No other entry is under the name, so nothing takes the place of the one that is left out.
        rw [if_pos hkey]
        refine .inr (.inr ⟨rfl, lookup?_eq_none_of_forall fun entry' hentry' => ?_⟩)
        obtain ⟨entry, hentry, hsame⟩ := hrest.key_mem entry' hentry'
        rw [← hsame]
        exact List.rel_of_pairwise_cons hdistinct hentry name (isText_iff.mp hkey)
      · rw [if_neg hkey]
        exact ih hdistinct.tail

variable {v v' : Value}

theorem WithoutNulls.entry_eq (h : WithoutNulls v v') (name : String) :
    v'.entry name = v.entry name := by
  obtain ⟨hdistinct, h⟩ := h
  simp only [entry]
  obtain ⟨hnone, hnone'⟩ | ⟨v, v', hfound, hfound', rfl⟩ | ⟨hnull, hnone⟩ :=
    lookup?_drops h hdistinct name
  · rw [hnone, hnone']
  · rw [hfound, hfound']
  · rw [hnull, hnone]
    rfl

/-- Of two names, the same entry counts if no null under the first one was hiding another value. -/
theorem entryOr_drops (h : Drops (fun _ v v' => v' = v) entries entries')
    (hdistinct : DistinctTexts entries) {name other : String}
    (hhidden : KeepsHidden name other entries entries') :
    (Value.map entries').entryOr name other = (Value.map entries).entryOr name other := by
  have hother : (lookup? entries' (.text other)).getD .null =
      (lookup? entries (.text other)).getD .null :=
    Except.ok.inj ((WithoutNulls.map hdistinct h).entry_eq other)
  simp only [entryOr]
  obtain ⟨hnone, hnone'⟩ | ⟨v, v', hfound, hfound', rfl⟩ | ⟨hnull, hnone⟩ :=
    lookup?_drops h hdistinct name
  · rw [hnone, hnone', Option.none_or, Option.none_or, hother]
  · rw [hfound, hfound', Option.some_or, Option.some_or]
  · rw [hnull, hnone, Option.none_or, Option.some_or, hother, hhidden hnull hnone]
    rfl

end Value

open Value

/-! ### Parts of a request -/

/-- A clause as it was, or without some null entries. -/
def Clause.Drops (v v' : Value) : Prop := v' = v ∨ WithoutNulls v v'

theorem Clause.ofValue_drops {v v' : Value} (h : Clause.Drops v v') :
    Clause.ofValue v' = Clause.ofValue v := by
  obtain rfl | h := h
  · rfl
  · have hentry := h.entry_eq
    obtain ⟨hdistinct, h⟩ := h
    simp only [Clause.ofValue, hentry]

theorem Clause.mapM_ofValue_drops {items items' : List Value}
    (h : List.Forall₂ Clause.Drops items items') :
    items'.mapM Clause.ofValue = items.mapM Clause.ofValue := by
  induction h with
  | nil => rfl
  | cons hfirst _ ih => rw [List.mapM_cons, List.mapM_cons, Clause.ofValue_drops hfirst, ih]

namespace Paging

def unsorted (p : Paging) : Paging := { p with sortBy := .null, sortDirection := .null }

def KeepsHidden (entries entries' : List (Value × Value)) : Prop :=
  Value.KeepsHidden "sortBy" "sort_by" entries entries' ∧
    Value.KeepsHidden "sortDirection" "sort_direction" entries entries'

/-- Without null entries, a paging part is the same but for its sort, and the sort is the same, too,
if no null was hiding another one. -/
theorem ofValue_drops {entries entries' : List (Value × Value)} (hdistinct : DistinctTexts entries)
    (h : Drops (fun _ v v' => v' = v) entries entries') :
    ∃ p p', ofValue (.map entries) = .ok p ∧ ofValue (.map entries') = .ok p' ∧
      p'.unsorted = p.unsorted ∧ (KeepsHidden entries entries' → p' = p) := by
  have hentry (name : String) :
      (lookup? entries' (.text name)).getD .null = (lookup? entries (.text name)).getD .null :=
    Except.ok.inj ((WithoutNulls.map hdistinct h).entry_eq name)
  refine ⟨_, _, rfl, rfl, by simp only [unsorted, hentry], fun hhidden => ?_⟩
  have hsort := Except.ok.inj (entryOr_drops h hdistinct hhidden.1)
  have hdirection := Except.ok.inj (entryOr_drops h hdistinct hhidden.2)
  simp only [hentry, hsort, hdirection]

end Paging

namespace Request

/-- What may become of the part of a request under a key: nothing, or null entries are left out of
the paging part or of clauses. -/
inductive PartDrops : Value → Value → Value → Prop
  | same (key v : Value) : PartDrops key v v
  | paging {key v v' : Value} (hkey : key = .text "pagination") (h : WithoutNulls v v') :
      PartDrops key v v'
  | list {key : Value} {items items' : List Value} (hkey : key = .text "filters")
      (h : List.Forall₂ Clause.Drops items items') : PartDrops key (.list items) (.list items')
  | tuple {key : Value} {items items' : List Value} (hkey : key = .text "filters")
      (h : List.Forall₂ Clause.Drops items items') : PartDrops key (.tuple items) (.tuple items')

/-- The second request is the first one without some null entries, of its own or in its parts. -/
inductive Drops : Value → Value → Prop
  | map {entries entries' : List (Value × Value)} (hdistinct : DistinctTexts entries)
      (h : Value.Drops PartDrops entries entries') : Drops (.map entries) (.map entries')

/-- No null of a sort is left out in front of a value under its other name. -/
def KeepsHidden (query query' : Value) : Prop :=
  ∀ entries entries', query.entry "pagination" = .ok (.map entries) →
    query'.entry "pagination" = .ok (.map entries') → Paging.KeepsHidden entries entries'

def unsorted (r : Request) : Request :=
  match r.paging with
  | .paging page limit offset _ _ => { r with paging := .paging page limit offset .null .null }
  | _ => r

variable {query query' : Value}

theorem Drops.entry (h : Drops query query') (name : String) :
    ∃ v v', query.entry name = .ok v ∧ query'.entry name = .ok v' ∧
      PartDrops (.text name) v v' := by
  obtain ⟨hdistinct, h⟩ := h
  simp only [Value.entry]
  obtain ⟨hnone, hnone'⟩ | ⟨v, v', hfound, hfound', hpart⟩ | ⟨hnull, hnone⟩ :=
    lookup?_drops h hdistinct name
  · exact ⟨.null, .null, by rw [hnone]; rfl, by rw [hnone']; rfl, .same _ _⟩
  · exact ⟨v, v', by rw [hfound]; rfl, by rw [hfound']; rfl, hpart⟩
  · exact ⟨.null, .null, by rw [hnull]; rfl, by rw [hnone]; rfl, .same _ _⟩

def clausesOf (filters : Value) : Except Failure (List Clause) := do
  let items ← (filters.orElse (.list [])).elements
  items.mapM Clause.ofValue

theorem clausesOf_list (items : List Value) :
    clausesOf (.list items) = items.mapM Clause.ofValue ∧
      clausesOf (.tuple items) = items.mapM Clause.ofValue := by
  cases items with
  | nil => exact ⟨rfl, rfl⟩
  | cons item rest => exact ⟨rfl, rfl⟩

theorem clausesOf_drops {v v' : Value} (h : PartDrops (.text "filters") v v') :
    clausesOf v' = clausesOf v := by
  cases h with
  | same => rfl
  | paging hkey => exact absurd (text.inj hkey) (by decide)
  | list _ h => rw [(clausesOf_list _).1, (clausesOf_list _).1, Clause.mapM_ofValue_drops h]
  | tuple _ h => rw [(clausesOf_list _).2, (clausesOf_list _).2, Clause.mapM_ofValue_drops h]

/-- The paging part that is read of a part of a request, or the failure to read one. -/
theorem pagingOf_drops {v v' : Value} (h : PartDrops (.text "pagination") v v') :
    (Paging.ofValue v' = Paging.ofValue v) ∨
    ∃ entries entries', v = .map entries ∧ v' = .map entries' ∧
      ∃ p p', Paging.ofValue v = .ok p ∧ Paging.ofValue v' = .ok p' ∧ p'.unsorted = p.unsorted ∧
        (Paging.KeepsHidden entries entries' → p' = p) := by
  cases h with
  | same => exact .inl rfl
  | paging _ h =>
      cases h with
      | @map entries entries' hdistinct h =>
          exact .inr ⟨entries, entries', rfl, rfl, Paging.ofValue_drops hdistinct h⟩
  | list hkey => exact absurd (text.inj hkey) (by decide)
  | tuple hkey => exact absurd (text.inj hkey) (by decide)

/-- How a request is read of a mapping: the clauses first, then the paging part. -/
theorem ofValue_of_entry {entries : List (Value × Value)} {filters paging : Value}
    (hfilters : (Value.map entries).entry "filters" = .ok filters)
    (hpaging : (Value.map entries).entry "pagination" = .ok paging) :
    Request.ofValue (.map entries) = clausesOf filters >>= fun clauses =>
      (Paging.ofValue paging).map fun p => ⟨.list (clauses.map Clause.toValue), p.toValue⟩ := by
  simp only [Request.ofValue, hfilters, hpaging, clausesOf, bind_assoc]
  rfl

/-- A request that has no more than a paging part. -/
theorem ofValue_pagination (paging : Value) :
    Request.ofValue (.map [(.text "pagination", paging)]) =
      (Paging.ofValue paging).map fun p => ⟨.list [], p.toValue⟩ := by
  have hfilters : (Value.map [(.text "pagination", paging)]).entry "filters" = .ok .null := by
    simp [Value.entry, lookup?]
  have hpaging : (Value.map [(.text "pagination", paging)]).entry "pagination" = .ok paging := by
    simp [Value.entry, lookup?]
  exact ofValue_of_entry hfilters hpaging

theorem ofValue_drops (h : Drops query query') :
    (Request.ofValue query').map unsorted = (Request.ofValue query).map unsorted ∧
      (KeepsHidden query query' → Request.ofValue query' = Request.ofValue query) := by
  obtain ⟨filters, filters', hfilters, hfilters', hclauses⟩ := h.entry "filters"
  obtain ⟨paging, paging', hpaging, hpaging', hpart⟩ := h.entry "pagination"
  obtain ⟨hdistinct, h⟩ := h
  rw [ofValue_of_entry hfilters hpaging, ofValue_of_entry hfilters' hpaging',
    clausesOf_drops hclauses]
  obtain hsame | ⟨entries, entries', rfl, rfl, p, p', hp, hp', hunsorted, hkeeps⟩ :=
    pagingOf_drops hpart
  · rw [hsame]
    exact ⟨rfl, fun _ => rfl⟩
  · rw [hp, hp']
    refine ⟨?_, fun hhidden => by rw [hkeeps (hhidden _ _ hpaging hpaging')]⟩
    cases clausesOf filters with
    | error failure => rfl
    | ok clauses =>
        exact congrArg (fun p : Paging =>
          Except.ok (⟨.list (clauses.map Clause.toValue), p.toValue⟩ : Request)) hunsorted

end Request

namespace Service

/-- Null entries of a request may be left out, of the request itself, of its paging part and of its
clauses: what it asks for is the same in any case but for the sort, and so are the failures to read
it. Unless a null was left out that was hiding a sort, the request is the same, and is prepared and
answered alike by every service. -/
theorem prepare_without_nulls {query query' : Value} (h : Request.Drops query query') :
    (Request.ofValue query').map Request.unsorted = (Request.ofValue query).map Request.unsorted ∧
    (Request.KeepsHidden query query' →
      Request.ofValue query' = Request.ofValue query ∧
      ∀ s : Service, s.prepare query' = s.prepare query ∧
        ∀ (σ : Type) (c : Collection σ) (state : σ),
          s.fetch c query' state = s.fetch c query state) := by
  obtain ⟨hunsorted, hsame⟩ := Request.ofValue_drops h
  refine ⟨hunsorted, fun hhidden => ⟨hsame hhidden, fun s => ?_⟩⟩
  have hprepare : s.prepare query' = s.prepare query := by
    unfold prepare
    rw [hsame hhidden]
  exact ⟨hprepare, fun _ c state => fetch_congr c state hprepare⟩

/-- Nulls in all places: an operand, a limit, a spelling of the sort that hides no other, and an
entry that nothing asks for. -/
theorem prepare_without_nulls_everywhere :
    let clause (rest : List (Value × Value)) : Value :=
      .map ((.text "field", .text "n") :: (.text "operator", .text "=") :: rest)
    let paging : List (Value × Value) := [(.text "sortBy", .null), (.text "page", .int 2),
      (.text "limit", .null), (.text "sort_by", .null), (.text "sort_direction", .text "desc")]
    let paging' : List (Value × Value) := [(.text "page", .int 2), (.text "sort_by", .null),
      (.text "sort_direction", .text "desc")]
    let query : Value := .map [(.text "filters", .list [clause [(.text "value", .null)]]),
      (.text "pagination", .map paging), (.text "more", .null)]
    let query' : Value :=
      .map [(.text "filters", .list [clause []]), (.text "pagination", .map paging')]
    Request.Drops query query' ∧ Request.KeepsHidden query query' ∧
      ({} : Service).prepare query' = ({} : Service).prepare query := by
  intro clause paging paging' query query'
  have hclause : Clause.Drops (clause [(.text "value", .null)]) (clause []) :=
    .inr (.map (by simp [DistinctTexts]) (.keep rfl (.keep rfl (.drop _ .nil))))
  have hpaging : WithoutNulls (.map paging) (.map paging') :=
    .map (by simp [DistinctTexts, paging])
      (.drop _ (.keep rfl (.drop _ (.keep rfl (.keep rfl .nil)))))
  have hquery : Request.Drops query query' :=
    .map (by simp [DistinctTexts]) (.keep (.list rfl (.cons hclause .nil))
      (.keep (.paging rfl hpaging) (.drop _ .nil)))
  have hhidden : Request.KeepsHidden query query' := by
    intro entries entries' hfound hfound'
    have hentry : query.entry "pagination" = .ok (.map paging) := by
      simp [query, Value.entry, lookup?]
    cases hentry.symm.trans hfound
    refine ⟨fun _ _ => by simp [paging, lookup?], fun hnull => ?_⟩
    -- There is no entry under the first name of the direction.
    have hnone : lookup? paging (.text "sortDirection") = none := by simp [paging, lookup?]
    cases hnone.symm.trans hnull
  exact ⟨hquery, hhidden, (((prepare_without_nulls hquery).2 hhidden).2 _).1⟩

/-- A null under the first name of the sort hides the second one: with the null, a request is not
sorted, and without it, it is. -/
theorem dropped_null_uncovers_sort :
    let query : Value :=
      .map [(.text "pagination", .map [(.text "sortBy", .null), (.text "sort_by", .text "n")])]
    let query' : Value := .map [(.text "pagination", .map [(.text "sort_by", .text "n")])]
    Request.Drops query query' ∧
      (({} : Service).prepare query).map (·.expression.sort) = .ok .null ∧
      (({} : Service).prepare query').map (·.expression.sort) =
        .ok (.map [(.text "n", .int 1)]) := by
  intro query query'
  have hquery : Request.Drops query query' :=
    .map (by simp [DistinctTexts]) (.keep (.paging rfl
      (.map (by simp [DistinctTexts]) (.drop _ (.keep rfl .nil)))) .nil)
  have hread : Request.ofValue query = .ok ⟨.list [], ({} : Paging).toValue⟩ := by
    rw [Request.ofValue_pagination]
    simp only [Paging.ofValue, Value.entry, Value.entryOr, lookup?_cons]
    rfl
  have hread' :
      Request.ofValue query' = .ok ⟨.list [], ({ sortBy := .text "n" } : Paging).toValue⟩ := by
    rw [Request.ofValue_pagination]
    simp only [Paging.ofValue, Value.entry, Value.entryOr, lookup?_cons]
    rfl
  refine ⟨hquery, ?_, ?_⟩
  · rw [prepare_eq hread]
    rfl
  · rw [prepare_eq hread']
    cbv

end Service

end DocFilter
