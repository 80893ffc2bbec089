import DocFilter.Proofs.Filter.Meaning
import DocFilter.Proofs.Outcome
import DocFilter.Proofs.Sql.Translating
import DocFilter.Proofs.Text.Identifier
import DocFilter.Store.Cursor

/-!
What plain clauses are compiled to.

Plain clauses pass all checks, and none of them is about the public identifier. So clauses on
distinct fields become one entry of the conditions each, in their order (`build_plain`), and a query
translates each entry to one condition on the path of its field (`ofField_compiled`).
-/

namespace DocFilter

open Outcome

/-! ### Checks -/

namespace Value

theorem addTo_of_atom {v : Value} {a : Atom} (h : v.atom? = some a) (graph : ContainerGraph) :
    v.addTo graph = (graph, none) := by
  cases v <;> first | rfl | cases h

theorem IsAtomic.isSome_atom? {v : Value} (h : v.IsAtomic) : v.atom?.isSome := by
  obtain ⟨a, ha, _⟩ := h
  exact Option.isSome_iff_exists.mpr ⟨a, ha⟩

theorem addItemsTo_of_atoms {items : List Value} (h : ∀ v ∈ items, v.atom?.isSome)
    (graph : ContainerGraph) : addItemsTo graph items = (graph, List.replicate items.length none) := by
  induction items with
  | nil => rfl
  | cons v rest ih =>
      obtain ⟨hv, hrest⟩ := List.forall_mem_cons.mp h
      obtain ⟨a, ha⟩ := Option.isSome_iff_exists.mp hv
      rw [addItemsTo, addTo_of_atom ha]
      simp only [ih hrest, List.length_cons, List.replicate_succ]

theorem refusal?_of_atom {v : Value} (h : v.atom?.isSome) : v.refusal? = none := by
  obtain ⟨a, ha⟩ := Option.isSome_iff_exists.mp h
  rw [refusal?, addTo_of_atom ha]

theorem refusal?_list {items : List Value} (h : ∀ v ∈ items, v.atom?.isSome) :
    (list items).refusal? = none := by
  rw [refusal?, addTo, addItemsTo_of_atoms h]
  simp [ContainerGraph.refusalFrom?, ContainerGraph.scan, Container.refusal?, Container.keys,
    Container.children]

/-- The value is a field name: a text that is not empty and does not hold the reserved sign. -/
def IsFieldName (v : Value) : Prop :=
  ∃ name, v = .text name ∧ name ≠ "" ∧ reservedSign ∉ name.toList

theorem IsFieldName.isTruthy {v : Value} (h : v.IsFieldName) : v.isTruthy = true := by
  obtain ⟨name, rfl, hne, -⟩ := h
  simpa [Value.isTruthy] using hne

theorem IsFieldName.unhashableKind?_eq_none {v : Value} (h : v.IsFieldName) :
    v.unhashableKind? = none := by
  obtain ⟨name, rfl, -⟩ := h
  rfl

end Value

theorem checkFieldName_eq_ok_iff {v : Value} : checkFieldName v = .ok () ↔ v.IsFieldName := by
  cases v with
  | text name =>
      rw [checkFieldName]
      split_ifs with hempty hsign
      · simp [Value.IsFieldName, hempty]
      · simpa [Value.IsFieldName] using fun _ => by simpa using hsign
      · simpa [Value.IsFieldName, hempty] using hsign
  | _ => simp [checkFieldName, Value.IsFieldName]

variable {b : Builder} {c : Clause} {field : String} {op : Operator}

theorem Operator.Takes.cases {operand : Value} (h : op.Takes operand) :
    ((op = isIn ∨ op = notIn) ∧ ∃ items, operand = .list items ∧ ∀ v ∈ items, v.IsAtomic) ∨
      ((op = like ∨ op = notLike) ∧ ∃ s, operand = .text s ∧ '\x00' ∉ s.toList) ∨
      (op.takesList = false ∧ op.takesText = false ∧ operand.IsAtomic) := by
  unfold Takes at h
  split_ifs at h with hlist htext
  · exact .inl ⟨by simpa [takesList] using hlist, h⟩
  · exact .inr (.inl ⟨by simpa [takesText] using htext, h⟩)
  · exact .inr (.inr ⟨by simpa using hlist, by simpa using htext, h⟩)

theorem checkOperand_of_takes {operand : Value} (h : op.Takes operand) :
    checkOperand operand = .ok () := by
  have hnone : operand.refusal? = none := by
    obtain ⟨_, items, rfl, hitems⟩ | ⟨_, s, rfl, _⟩ | ⟨_, _, hatomic⟩ := h.cases
    · exact Value.refusal?_list fun v hv => (hitems v hv).isSome_atom?
    · rfl
    · exact Value.refusal?_of_atom hatomic.isSome_atom?
  rw [checkOperand, hnone]

theorem checkFieldName_of_isIdentifier (h : TableName.isIdentifier field.toList = true) :
    checkFieldName (.text field) = .ok () := by
  have hne : field ≠ "" := by
    rintro rfl
    cases h
  have hsign : field.toList.contains reservedSign = false := by
    rw [List.contains_eq_mem, decide_eq_false_iff_not]
    exact fun hmem => (forall_isNameChar h _ hmem).ne (by decide) rfl
  rw [checkFieldName, if_neg hne, hsign]
  rfl

theorem Builder.checkClauses_of_plain {clauses : List Clause}
    (h : ∀ c ∈ clauses, c.IsPlain b) : checkClauses clauses = .ok () := by
  have hpass (check : Clause → Except Failure Unit)
      (hcheck : ∀ c : Clause, c.IsPlain b → check c = .ok ()) : clauses.forM check = .ok () := by
    induction clauses with
    | nil => rfl
    | cons c rest ih =>
        obtain ⟨hc, hrest⟩ := List.forall_mem_cons.mp h
        show (check c >>= fun _ => rest.forM check) = _
        rw [hcheck c hc]
        exact ih hrest
  unfold checkClauses
  rw [hpass (fun c => checkOperand c.operand), hpass (fun c => checkFieldName c.field),
    hpass checkOperator]
  · rfl
  · rintro c ⟨field, op, hc⟩
    rw [checkOperator, hc.operator_eq]
  · rintro c ⟨field, op, hc⟩
    rw [hc.field_eq]
    exact checkFieldName_of_isIdentifier hc.isIdentifier
  · rintro c ⟨field, op, hc⟩
    exact checkOperand_of_takes hc.takes

/-! ### Entries -/

/-- The operand that a plain clause is compiled to. -/
def Operator.compiled (op : Operator) (operand : Value) : Value :=
  match op.takesText, operand with
  | true, .text s => .pattern (Pattern.containing s)
  | _, operand => operand

def Clause.compiled (c : Clause) : Value × Value :=
  (c.field, match c.operator.operator? with
    | some op => .map [(.text op.conditionKey, op.compiled c.operand)]
    | none => .null)

theorem compileOperand_of_takes {operand : Value} (h : op.Takes operand) (field : Value) :
    compileOperand op field operand = .ok (op.compiled operand) := by
  unfold compileOperand
  obtain ⟨rfl | rfl, items, rfl, _⟩ | ⟨rfl | rfl, s, rfl, _⟩ | ⟨hlist, htext, _⟩ := h.cases
  · rfl
  · rfl
  · rfl
  · rfl
  · rw [if_neg (by simp [hlist]), if_neg (by simp [htext])]
    simp [Operator.compiled, htext]

namespace Builder

theorem target_of_plain (h : c.Plain b field op) :
    b.target c.field c.operator c.operand = .ok (.text field, c.operand) := by
  have hop : c.operator.toOperator = .ok op := by rw [Value.toOperator, h.operator_eq]
  unfold target
  rw [hop, h.field_eq]
  show (if op.takesText then pure (Value.text field, c.operand) else _) = _
  split_ifs with htext
  · rfl
  · split
    · rw [h.ne_public]
      rfl
    · rfl

theorem addClause_of_plain (h : c.Plain b field op) (conditions : List (Value × Value)) :
    b.addClause conditions c =
      .ok (store conditions (.text field) c.compiled.2) := by
  have hop : c.operator.toOperator = .ok op := by rw [Value.toOperator, h.operator_eq]
  have hpredicate : predicate (.text field) c.operator c.operand = .ok c.compiled.2 := by
    unfold predicate Clause.compiled
    rw [hop, h.operator_eq]
    show (compileOperand op (.text field) c.operand).bind _ = _
    rw [compileOperand_of_takes h.takes]
    rfl
  unfold addClause
  rw [target_of_plain h]
  show (predicate (.text field) c.operator c.operand).bind _ = _
  rw [hpredicate]
  rfl

/-- None of the clauses is about the public identifier. -/
theorem splitKeyClause_of_plain {clauses : List Clause} (h : ∀ c ∈ clauses, c.IsPlain b) :
    b.splitKeyClause clauses = (none, clauses) := by
  induction clauses with
  | nil => rfl
  | cons c rest ih =>
      obtain ⟨⟨field, op, hc⟩, hrest⟩ := List.forall_mem_cons.mp h
      rw [splitKeyClause, hc.field_eq, hc.ne_public, ih hrest]
      rfl

/-- An entry under a text of its own is added at the end. -/
theorem store_of_forall {entries : List (Value × Value)} {name : String} {predicate : Value}
    (h : ∀ entry ∈ entries, (Value.text name).equal entry.1 = false) :
    store entries (.text name) predicate = entries ++ [(.text name, predicate)] := by
  induction entries with
  | nil => rfl
  | cons entry rest ih =>
      obtain ⟨k, p⟩ := entry
      obtain ⟨hk, hrest⟩ := List.forall_mem_cons.mp h
      have hk : isSameKey (.text name) k = false := by
        cases k with
        | text s => rwa [Value.equal_text] at hk
        | _ => rfl
      rw [store, hk, ih hrest]
      rfl

theorem foldlM_addClause {clauses : List Clause} (h : ∀ c ∈ clauses, c.IsPlain b)
    (hdistinct : (clauses.map (·.field)).Nodup) {entries : List (Value × Value)}
    (hentries : ∀ c ∈ clauses, ∀ entry ∈ entries, c.field.equal entry.1 = false) :
    clauses.foldlM b.addClause entries = .ok (entries ++ clauses.map Clause.compiled) := by
  induction clauses generalizing entries with
  | nil =>
      rw [List.map_nil, List.append_nil]
      rfl
  | cons c rest ih =>
      obtain ⟨⟨field, op, hc⟩, hrest⟩ := List.forall_mem_cons.mp h
      obtain ⟨hnew, hentries⟩ := List.forall_mem_cons.mp hentries
      obtain ⟨hfresh, hdistinct⟩ := List.nodup_cons.mp hdistinct
      rw [hc.field_eq] at hnew
      rw [List.foldlM_cons, addClause_of_plain hc, store_of_forall hnew]
      have hcompiled : (Value.text field, c.compiled.2) = c.compiled := by
        rw [← hc.field_eq]
        rfl
      rw [hcompiled]
      show rest.foldlM b.addClause (entries ++ [c.compiled]) = _
      rw [ih hrest hdistinct, List.append_assoc]
      · rfl
      · intro d hd entry hentry
        obtain hentry | hentry := List.mem_append.mp hentry
        · exact hentries d hd entry hentry
        · obtain rfl := List.mem_singleton.mp hentry
          -- The new entry is under a field of its own, as the fields are distinct.
          obtain ⟨other, _, hother⟩ := hrest d hd
          have hne : other ≠ field := by
            rintro rfl
            exact hfresh (List.mem_map.mpr ⟨d, hd, hother.field_eq.trans hc.field_eq.symm⟩)
          show d.field.equal c.field = false
          rw [hother.field_eq, hc.field_eq, Value.equal_text]
          exact beq_eq_false_iff_ne.mpr hne

/-- Plain clauses on distinct fields are compiled to one entry each, in their order. -/
theorem build_plain {filters : Value} {items : List Value} {clauses : List Clause}
    (hitems : filters.elements = .ok items) (hclauses : items.mapM Clause.ofValue = .ok clauses)
    (h : ∀ c ∈ clauses, c.IsPlain b) (hdistinct : (clauses.map (·.field)).Nodup) :
    b.build filters = .ok { conditions := .map (clauses.map Clause.compiled) } := by
  have hcompile : b.compile clauses = .ok (clauses.map Clause.compiled) := by
    unfold compile
    rw [checkClauses_of_plain h, splitKeyClause_of_plain h]
    have hnew : ∀ c ∈ clauses, ∀ entry ∈ ([] : List (Value × Value)),
        c.field.equal entry.1 = false := by simp
    exact foldlM_addClause h hdistinct hnew
  unfold build
  rw [hitems]
  show (items.mapM Clause.ofValue).bind _ = _
  rw [hclauses]
  show (b.compile clauses).bind _ = _
  rw [hcompile]
  rfl

end Builder

/-! ### Terms -/

/-- The condition on a reference that a plain clause is translated to. -/
def Operator.condition (ref : Reference) (operand : Value) : Operator → Condition
  | lt => .compare ref .lt (sqlOperand operand)
  | lte => .compare ref .le (sqlOperand operand)
  | gt => .compare ref .gt (sqlOperand operand)
  | gte => .compare ref .ge (sqlOperand operand)
  | eq => .compare ref .eq (sqlOperand operand)
  | ne => .nullOr ref (.not (.compare ref .eq (sqlOperand operand)))
  | isIn => match operand.elements?.getD [] with
    | [] => .never
    | items => .oneOf ref (items.map sqlOperand)
  | notIn => match operand.elements?.getD [] with
    | [] => .always
    | items => .nullOr ref (.noneOf ref (items.map sqlOperand))
  | like => match operand with
    | .text s => .finds ref (Pattern.containing s).written
    | _ => .never
  | notLike => match operand with
    | .text s => .not (.finds ref (Pattern.containing s).written)
    | _ => .always

/-- The condition that a plain clause is translated to. -/
def Clause.term (c : Clause) : Condition :=
  match c.field, c.operator.operator? with
  | .text field, some op => op.condition (.path ("$." ++ field)) c.operand
  | _, _ => .never

namespace Condition

theorem ofEntry_compiled {operand : Value} (h : op.Takes operand) (ref : Reference) :
    ofEntry ref (.text op.conditionKey) (op.compiled operand) = .ok (op.condition ref operand) := by
  obtain ⟨rfl | rfl, items, rfl, _⟩ | ⟨rfl | rfl, s, rfl, _⟩ | ⟨hlist, htext, a, ha, _⟩ := h.cases
  · cases items <;> rfl
  · cases items <;> rfl
  · rfl
  · rfl
  · cases op with
    | isIn | notIn => cases hlist
    | like | notLike => cases htext
    | lt | lte | gt | gte => rfl
    | eq | ne => cases operand <;> first | rfl | cases ha

theorem isPredicate_conditionKey (op : Operator) (operand : Value) :
    isPredicate [(.text op.conditionKey, operand)] = .ok true := by
  cases op <;> rfl

theorem ofField_compiled (h : c.Plain b field op) :
    ofField Cursor.columns c.compiled.1 c.compiled.2 = .ok (.all [c.term]) := by
  have hkey : (Value.text field).equal Cursor.columns.key = false := by
    show (Value.text field).equal (.text "_id") = false
    rw [Value.equal_text]
    exact beq_eq_false_iff_ne.mpr h.ne_key
  have href : referenceOf Cursor.columns (.text field) = .path ("$." ++ field) := by
    rw [referenceOf, hkey]
    rfl
  have hterm : c.term = op.condition (.path ("$." ++ field)) c.operand := by
    simp only [Clause.term, h.field_eq, h.operator_eq]
  have hentry : ofEntryOn Cursor.columns (.text field) (.text op.conditionKey)
      (op.compiled c.operand) = .ok c.term := by
    refine ofEntryOn_text (href ▸ ?_)
    rw [ofEntry_compiled h.takes, hterm]
  unfold ofField Clause.compiled
  simp only [h.field_eq, h.operator_eq, isPredicate_conditionKey]
  show Except.map all (List.mapM _ _) = _
  rw [List.mapM_cons, hentry]
  rfl

theorem ofValue_compiled {clauses : List Clause} (h : ∀ c ∈ clauses, c.IsPlain b) :
    ofValue Cursor.columns (.map (clauses.map Clause.compiled)) =
      .ok (clauses.map fun c => .all [c.term]) := by
  cases clauses with
  | nil => rfl
  | cons c rest =>
      have htruthy : (Value.map ((c :: rest).map Clause.compiled)).isTruthy = true := rfl
      rw [ofValue, if_pos htruthy]
      refine mapM_eq_ok_iff.mpr (List.forall₂_map_left_iff.mpr (List.forall₂_map_right_iff.mpr ?_))
      refine List.forall₂_same.mpr fun d hd => ?_
      obtain ⟨field, op, hplain⟩ := h d hd
      exact ofField_compiled hplain

end Condition

end DocFilter
