import DocFilter.Proofs.Filter.Safety
import DocFilter.Proofs.Sql.Complement
import DocFilter.Proofs.Store.Querying

/-!
What a clause and its negation select of a table.

A clause is compiled to one condition, and so is its negation, on the same reference and with the
same operand (`build_negation`). A query or a count for one condition that succeeds has evaluated it
for every row: it visits all rows, unless it looks up a key, and a condition on the key can always
be evaluated (`find_evaluates`, `count_evaluates`). So what is known of the two conditions row by
row is known of what they select: no record is selected twice, and none is missed if the operand
decides (`negation_partitions`). An operand that does not decide can make both miss a record
(`negation_misses_null_member`).
-/

namespace DocFilter

open Outcome

/-! ### Clauses and their negations -/

/-- Operators that take the same operands make the same of them. -/
theorem Operator.Makes.unique {op op' : Operator} {given operand operand' : Value}
    (hlist : op.takesList = op'.takesList) (htext : op.takesText = op'.takesText)
    (h : op.Makes given operand) (h' : op'.Makes given operand') : operand = operand' := by
  unfold Operator.Makes at h h'
  rw [← hlist, ← htext] at h'
  split_ifs at h h'
  · obtain ⟨items, hitems, rfl⟩ := h
    obtain ⟨others, hothers, rfl⟩ := h'
    cases hitems.symm.trans hothers
    rfl
  · obtain ⟨s, rfl, rfl⟩ := h
    obtain ⟨t, ht, rfl⟩ := h'
    cases ht
    rfl
  · exact h.trans h'.symm

theorem Operator.takes_of_negation? {op negation : Operator} (h : op.negation? = some negation) :
    op.takesList = negation.takesList ∧ op.takesText = negation.takesText := by
  cases op <;> cases h <;> exact ⟨rfl, rfl⟩

theorem Operator.Makes.decides {op : Operator} {given operand : Value}
    (h : op.Makes given operand) (hdecides : op.Decides given) : op.Decides operand := by
  cases op with
  | eq =>
      obtain rfl : operand = given := h
      exact hdecides
  | isIn =>
      obtain ⟨items, hitems, rfl⟩ := h
      have helements : given.elements? = some items := by
        cases given <;> cases hitems <;> rfl
      intro others hothers
      cases hothers
      exact hdecides items helements
  | _ => trivial

namespace Builder

variable {b : Builder} {field operator negated operand : Value} {op negation : Operator}
  {e e' : Expression}

theorem build_single (h : b.build (.list [.clause field operator operand]) = .ok e) :
    ∃ op key given compiled, operator.operator? = some op ∧
      b.target field operator operand = .ok (key, given) ∧
      compileOperand op key given = .ok compiled ∧
      e.conditions = .map [(key, .map [(.text op.conditionKey, compiled)])] := by
  obtain ⟨items, hitems, h⟩ := bind_eq_ok_iff.mp h
  cases hitems
  obtain ⟨clauses, hclauses, h⟩ := bind_eq_ok_iff.mp h
  cases hclauses
  obtain ⟨entries, hentries, h⟩ := bind_eq_ok_iff.mp h
  cases h
  obtain ⟨_, -, hentries⟩ := bind_eq_ok_iff.mp hentries
  -- The clause comes first or last, whether it is on the public identifier or not.
  have hclauses : ∀ split : Option Clause × List Clause,
      split = b.splitKeyClause [⟨field, operator, operand⟩] →
      split.1.toList ++ split.2 = [⟨field, operator, operand⟩] := by
    rintro _ rfl
    rw [splitKeyClause]
    split_ifs <;> rfl
  have hentries : [⟨field, operator, operand⟩].foldlM b.addClause [] = .ok entries := by
    rw [← hclauses _ rfl]
    exact hentries
  obtain ⟨stored, hstored, hentries⟩ := bind_eq_ok_iff.mp hentries
  cases hentries
  obtain ⟨op, key, given, compiled, hop, htarget, hcompiled, rfl⟩ := addClause_eq_ok hstored
  exact ⟨op, key, given, compiled, hop, htarget, hcompiled, rfl⟩

/-- A clause and its negation are compiled to one entry each, under the same key and with the same
operand, which decides if the given one does. -/
theorem build_negation (hoperator : operator.operator? = some op)
    (hnegated : negated.operator? = some negation) (hop : op.negation? = some negation)
    (he : b.build (.list [.clause field operator operand]) = .ok e)
    (he' : b.build (.list [.clause field negated operand]) = .ok e') :
    ∃ key compiled, e.conditions = .map [(key, .map [(.text op.conditionKey, compiled)])] ∧
      e'.conditions = .map [(key, .map [(.text negation.conditionKey, compiled)])] ∧
      (op.Decides operand → op.Decides compiled) := by
  obtain ⟨_, key, given, compiled, hop', htarget, hcompiled, hconditions⟩ := build_single he
  cases hoperator.symm.trans hop'
  obtain ⟨_, key', given', compiled', hop', htarget', hcompiled', hconditions'⟩ :=
    build_single he'
  cases hnegated.symm.trans hop'
  obtain ⟨hlist, htext⟩ := Operator.takes_of_negation? hop
  have hsame : b.target field negated operand = b.target field operator operand := by
    have h : operator.toOperator = .ok op := by rw [Value.toOperator, hoperator]
    have h' : negated.toOperator = .ok negation := by rw [Value.toOperator, hnegated]
    unfold target
    rw [h, h']
    show (if negation.takesText then _ else _) = if op.takesText then _ else _
    rw [htext]
  cases htarget.symm.trans (hsame.symm.trans htarget')
  have hmakes := makes_of_compileOperand hcompiled
  obtain rfl := hmakes.unique hlist htext (makes_of_compileOperand hcompiled')
  refine ⟨key, compiled, hconditions, hconditions', fun hdecides => hmakes.decides ?_⟩
  -- An identifier in place of its text is no null, which is all that the operand may not be.
  obtain ⟨-, rfl⟩ | ⟨-, -, s, id, -, -, rfl⟩ := target_eq_ok htarget
  · exact hdecides
  · cases op with
    | eq => exact Value.noConfusion
    | isIn =>
        intro items hitems
        cases hitems
    | _ => trivial

end Builder

/-! ### One condition -/

namespace Condition

variable {ref : Reference} {key operand : Value} {c : Condition}

theorem conjuncts_of_ofEntry (h : ofEntry ref key operand = .ok c) : c.conjuncts = [c] := by
  obtain ⟨op, rfl⟩ := key_of_ofEntry h
  cases op with
  | lt | lte | gt | gte =>
      cases h
      rfl
  | eq =>
      obtain ⟨-, rfl⟩ | ⟨-, json, -, rfl⟩ | ⟨-, rfl⟩ := equality_eq_ok h <;> rfl
  | ne =>
      obtain ⟨-, rfl⟩ | ⟨-, json, -, rfl⟩ | ⟨-, rfl⟩ := inequality_eq_ok h <;> rfl
  | isIn | notIn =>
      obtain ⟨items, -, rfl⟩ := map_eq_ok_iff.mp h
      split_ifs <;> rfl
  | like =>
      obtain ⟨pattern, rfl⟩ := search_eq_ok h
      rfl
  | notLike =>
      obtain ⟨found, -, rfl⟩ := map_eq_ok_iff.mp h
      rfl

theorem eval_of_keyEquality? (h : c.keyEquality? = some operand) (row : Row) :
    ∃ truth, c.eval row.read = .ok truth := by
  unfold keyEquality? at h
  split at h
  · exact ⟨_, rfl⟩
  · exact ⟨_, rfl⟩
  · cases h

theorem ofValue_single {columns : Columns} {field : Value} {op : Operator} {terms : List Condition}
    (h : ofValue columns (.map [(field, .map [(.text op.conditionKey, operand)])]) = .ok terms) :
    ∃ c, ofEntryOn columns field (.text op.conditionKey) operand = .ok c ∧ terms = [.all [c]] := by
  rw [ofValue_map, mapM_eq_ok_iff] at h
  obtain ⟨term, rest, hterm, hrest, rfl⟩ := List.forall₂_cons_left_iff.mp h
  cases hrest
  have hterm : ofField columns field (.map [(.text op.conditionKey, operand)]) = .ok term := hterm
  rw [ofField_conditionKey] at hterm
  obtain ⟨c, hc, rfl⟩ := map_eq_ok_iff.mp hterm
  exact ⟨c, hc, rfl⟩

theorem conjunctsOf_single (hc : c.conjuncts = [c]) : conjunctsOf [.all [c]] = [c] := by
  simp [conjunctsOf, conjuncts, hc]

theorem paramsList_single (c : Condition) : paramsList [.all [c]] = c.params := by
  simp [paramsList, params]

end Condition

theorem Row.satisfies_single_iff (row : Row) (c : Condition) :
    row.satisfies [.all [c]] = true ↔ c.IsTrue row.read := by
  rw [Row.satisfies_iff, List.forall_mem_singleton, Condition.isTrue_all_iff,
    List.forall_mem_singleton]

theorem Row.eval_of_decided {c : Condition} {row : Row} (hc : c.conjuncts = [c])
    (h : Condition.lastKeyEquality? (Condition.conjunctsOf [.all [c]]) = none →
      row.satisfies [.all [c]] = true ∨
        ∃ d ∈ Condition.conjunctsOf [.all [c]], d.IsRefuted row.read) :
    ∃ truth, c.eval row.read = .ok truth := by
  rw [← Row.satisfies_conjunctsOf, Condition.conjunctsOf_single hc] at h
  cases hkey : c.keyEquality? with
  | some operand => exact Condition.eval_of_keyEquality? hkey row
  | none =>
      obtain hsatisfied | ⟨d, hd, truth, htruth, -⟩ :=
        h (by simp [Condition.lastKeyEquality?, hkey])
      · exact ⟨_, Row.satisfies_iff.mp hsatisfied c List.mem_cons_self⟩
      · obtain rfl := List.mem_singleton.mp hd
        exact ⟨truth, htruth⟩

/-- What two tests find that never both find the same, and what both miss. -/
theorem filter_perm_of_disjoint {α : Type} {p q : α → Bool} {l : List α}
    (h : ∀ a ∈ l, p a = true → q a = false) :
    (l.filter p ++ l.filter q ++ l.filter fun a => !p a && !q a).Perm l := by
  have hq : (l.filter fun a => !p a).filter q = l.filter q := by
    rw [List.filter_filter]
    refine List.filter_congr fun a ha => ?_
    cases hp : p a with
    | true => simp [h a ha hp]
    | false => simp
  have hneither : ((l.filter fun a => !p a).filter fun a => !q a) =
      l.filter fun a => !p a && !q a := by
    rw [List.filter_filter]
    exact List.filter_congr fun a _ => Bool.and_comm ..
  rw [List.append_assoc, ← hneither, ← hq]
  exact ((List.filter_append_perm _ _).append_left _).trans (List.filter_append_perm _ _)

namespace Store

variable {s : Store} {name : TableName} {field operand : Value} {op : Operator}

/-- A query for one condition that succeeds has evaluated it for every row of the table. -/
theorem find_evaluates {records : List Value} (hfile : s.location = .file)
    (h : s.find name (.map [(field, .map [(.text op.conditionKey, operand)])]) [] .null =
      .ok records) :
    ∃ c, Condition.ofEntryOn Cursor.columns field (.text op.conditionKey) operand = .ok c ∧
      (∀ v ∈ c.params, ∃ place, Scalar.checkBinding place v = .ok ()) ∧
      (∀ row ∈ s.rows name, ∃ truth, c.eval row.read = .ok truth) ∧
      records.Perm (((s.rows name).filter (·.satisfies [.all [c]])).map Row.record) := by
  obtain ⟨start, cursor, statement, rows, hstart, hcursor, hstatement, -, hbindings, hselect, rfl⟩ :=
    find_unlimited hfile (by simp) h
  rw [Cursor.find_map] at hstart
  cases hstart
  cases hcursor
  obtain ⟨hconditions, -, -, -⟩ := Cursor.statement_eq_ok hstatement
  obtain ⟨c, hc, hterms⟩ := Condition.ofValue_single hconditions
  have hconjuncts := Condition.conjuncts_of_ofEntry (Condition.ofEntry_of_ofEntryOn hc)
  refine ⟨c, hc, fun v hv => ?_, fun row hrow => ?_, ?_⟩
  · refine Scalar.checkBinding_of_mem hbindings ?_
    simp only [Selection.params, hterms, Condition.paramsList_single]
    exact List.mem_append_left _ (List.mem_append_left _ hv)
  · refine Row.eval_of_decided hconjuncts fun hkey => ?_
    rw [← hterms] at hkey ⊢
    exact Selection.select_decides hkey hselect hrow
  · rw [← hterms]
    exact (Selection.select_perm hselect).map _

theorem count_evaluates {n : Nat} (hfile : s.location = .file)
    (hthere : (s.database.find? name).isSome)
    (h : s.count name (.map [(field, .map [(.text op.conditionKey, operand)])]) = .ok n) :
    ∃ c, Condition.ofEntryOn Cursor.columns field (.text op.conditionKey) operand = .ok c ∧
      (∀ v ∈ c.params, ∃ place, Scalar.checkBinding place v = .ok ()) ∧
      (∀ row ∈ s.rows name, ∃ truth, c.eval row.read = .ok truth) ∧
      n = ((s.rows name).filter (·.satisfies [.all [c]])).length := by
  obtain ⟨terms, hterms, h⟩ := bind_eq_ok_iff.mp h
  obtain ⟨table, htable, h⟩ := bind_eq_ok_iff.mp h
  obtain ⟨found, hfound⟩ := Option.isSome_iff_exists.mp hthere
  have hread := read?_of_openTable hfile htable
  rw [Database.read?_of_find? hfound, Except.ok.injEq] at hread
  have hrows : s.rows name = table.rows := by rw [rows, Database.rows_of_find? hfound, hread]
  obtain ⟨c, hc, rfl⟩ := Condition.ofValue_single hterms
  have hconjuncts := Condition.conjuncts_of_ofEntry (Condition.ofEntry_of_ofEntryOn hc)
  obtain ⟨_, hbindings, -⟩ := bind_eq_ok_iff.mp h
  refine ⟨c, hc, fun v hv => ?_, fun row hrow => ?_, ?_⟩
  · refine Scalar.checkBinding_of_mem hbindings ?_
    rwa [Condition.paramsList_single]
  · exact Row.eval_of_decided hconjuncts fun hkey => countRows_decides hkey h (hrows ▸ hrow)
  · rw [countRows_eq_ok h, hrows]

/-- The rows of an operator, the rows of its negation, and those that neither has: together these
are all rows, and if the operand decides there are none of the third kind. -/
theorem rows_of_negation? {ref : Reference} {negation : Operator} {c d : Condition}
    {rows : List Row} (hop : op.negation? = some negation)
    (hc : Condition.ofEntry ref (.text op.conditionKey) operand = .ok c)
    (hd : Condition.ofEntry ref (.text negation.conditionKey) operand = .ok d)
    (hbound : ∀ v ∈ c.params, ∃ place, Scalar.checkBinding place v = .ok ())
    (heval : ∀ row ∈ rows, ∃ truth, c.eval row.read = .ok truth)
    (heval' : ∀ row ∈ rows, ∃ other, d.eval row.read = .ok other) :
    ∃ missed, (rows.filter (·.satisfies [.all [c]]) ++ rows.filter (·.satisfies [.all [d]]) ++
      missed).Perm rows ∧ (op.Decides operand → missed = []) := by
  have hiff (term : Condition) (row : Row) : row.satisfies [.all [term]] = true ↔
      term.eval row.read = .ok (some true) := row.satisfies_single_iff term
  refine ⟨_, filter_perm_of_disjoint fun row hrow htrue => ?_, fun hdecides => ?_⟩
  · -- A row of the operator is not one of the negation.
    obtain ⟨truth, htruth⟩ := heval row hrow
    obtain ⟨other, hother⟩ := heval' row hrow
    have hopposed := Condition.opposed_of_negation? hop hc hd hbound htruth hother
    rw [hiff, htruth, Except.ok.injEq] at htrue
    rw [← Bool.not_eq_true, hiff, hother, Except.ok.injEq]
    exact hopposed.exclusive htrue
  · -- A row that neither has would be undecided.
    rw [List.filter_eq_nil_iff]
    intro row hrow
    obtain ⟨truth, htruth⟩ := heval row hrow
    obtain ⟨other, hother⟩ := heval' row hrow
    have hopposed := Condition.opposed_of_negation? hop hc hd hbound htruth hother
    rw [Bool.and_eq_true, Bool.not_eq_true', Bool.not_eq_true', ← Bool.not_eq_true,
      ← Bool.not_eq_true, hiff, hiff, htruth, hother, Except.ok.injEq, Except.ok.injEq]
    exact fun hneither => hneither.2 (hopposed.exhaustive hdecides hneither.1)

/-- The records that a clause and its negation select are different records of the table, and
together with those that neither selects they are all its records. If the operand decides, neither
misses any. The same goes for the numbers that are counted for them. -/
theorem negation_partitions {b : Builder} {operator negated : Value} {negation : Operator}
    {e e' : Expression} (hfile : s.location = .file) (hthere : (s.database.find? name).isSome)
    (hoperator : operator.operator? = some op) (hnegated : negated.operator? = some negation)
    (hop : op.negation? = some negation)
    (he : b.build (.list [.clause field operator operand]) = .ok e)
    (he' : b.build (.list [.clause field negated operand]) = .ok e') :
    (∀ selected others, s.find name e.conditions [] .null = .ok selected →
      s.find name e'.conditions [] .null = .ok others →
      ∃ missed, (selected ++ others ++ missed).Perm ((s.rows name).map Row.record) ∧
        (op.Decides operand → missed = [])) ∧
    ∀ m n, s.count name e.conditions = .ok m → s.count name e'.conditions = .ok n →
      m + n ≤ (s.rows name).length ∧ (op.Decides operand → m + n = (s.rows name).length) := by
  obtain ⟨key, compiled, hconditions, hconditions', hdecides⟩ :=
    Builder.build_negation hoperator hnegated hop he he'
  rw [hconditions, hconditions']
  constructor
  · intro selected others hselected hothers
    obtain ⟨c, hc, hbound, heval, hperm⟩ := find_evaluates hfile hselected
    obtain ⟨d, hd, -, heval', hperm'⟩ := find_evaluates hfile hothers
    obtain ⟨missed, hmissed, hnone⟩ := rows_of_negation? hop (Condition.ofEntry_of_ofEntryOn hc)
      (Condition.ofEntry_of_ofEntryOn hd) hbound heval heval'
    refine ⟨missed.map Row.record, ?_, fun hdecided => ?_⟩
    · refine ((hperm.append hperm').append_right _).trans ?_
      rw [← List.map_append, ← List.map_append]
      exact hmissed.map _
    · rw [hnone (hdecides hdecided), List.map_nil]
  · intro m n hm hn
    obtain ⟨c, hc, hbound, heval, rfl⟩ := count_evaluates hfile hthere hm
    obtain ⟨d, hd, -, heval', rfl⟩ := count_evaluates hfile hthere hn
    obtain ⟨missed, hmissed, hnone⟩ := rows_of_negation? hop (Condition.ofEntry_of_ofEntryOn hc)
      (Condition.ofEntry_of_ofEntryOn hd) hbound heval heval'
    have hlength := hmissed.length_eq
    rw [List.length_append, List.length_append] at hlength
    refine ⟨by omega, fun hdecided => ?_⟩
    rw [hnone (hdecides hdecided), List.length_nil] at hlength
    omega

/-- One document holds the number that is asked for, one holds null, and one holds nothing. -/
theorem negation_partitions_missing :
    let docs : TableName := ⟨"docs"⟩
    let documents : List Value := [.map [(keyName, .text "a"), (.text "n", .int 2)],
      .map [(keyName, .text "b"), (.text "n", .null)], .map [(keyName, .text "c")]]
    let now := (({} : Store).run [(docs, .create), (docs, .insert (.list documents))]).2
    let filters (operator : String) : Value :=
      .list [.clause (.text "n") (.text operator) (.int 2)]
    ∃ e e' selected others, ({} : Builder).build (filters "=") = .ok e ∧
      ({} : Builder).build (filters "!=") = .ok e' ∧
      now.find docs e.conditions [] .null = .ok selected ∧
      now.find docs e'.conditions [] .null = .ok others ∧
      selected.length = 1 ∧ others.length = 2 ∧
      (selected ++ others).Perm ((now.rows docs).map Row.record) ∧
      now.count docs e.conditions = .ok 1 ∧ now.count docs e'.conditions = .ok 2 ∧
      1 + 2 = (now.rows docs).length := by
  intro docs documents now filters
  have he : ({} : Builder).build (filters "=") =
      .ok { conditions := .map [(.text "n", .map [(.text "$eq", .int 2)])] } :=
    Builder.build_of_single .eq rfl rfl rfl rfl rfl (Value.unhashableKind?_text "n")
  have he' : ({} : Builder).build (filters "!=") =
      .ok { conditions := .map [(.text "n", .map [(.text "$ne", .int 2)])] } :=
    Builder.build_of_single .ne rfl rfl rfl rfl rfl (Value.unhashableKind?_text "n")
  have hselected := eq_ok_of_isOk [] (by decide +kernel :
    (now.find docs (.map [(.text "n", .map [(.text "$eq", .int 2)])]) [] .null).isOk = true)
  have hothers := eq_ok_of_isOk [] (by decide +kernel :
    (now.find docs (.map [(.text "n", .map [(.text "$ne", .int 2)])]) [] .null).isOk = true)
  have hcount := eq_ok_of_toOption (by decide +kernel :
    (now.count docs (.map [(.text "n", .map [(.text "$eq", .int 2)])])).toOption = some 1)
  have hcount' := eq_ok_of_toOption (by decide +kernel :
    (now.count docs (.map [(.text "n", .map [(.text "$ne", .int 2)])])).toOption = some 2)
  have hreachable : now.Reachable := ⟨0, _, rfl⟩
  have hthere : (now.database.find? docs).isSome = true := by decide +kernel
  obtain ⟨hfind, hsum⟩ := negation_partitions hreachable.location hthere rfl rfl rfl he he'
  have hdecides : Operator.eq.Decides (.int 2) := Value.noConfusion
  obtain ⟨missed, hperm, hnone⟩ := hfind _ _ hselected hothers
  rw [hnone hdecides, List.append_nil] at hperm
  exact ⟨_, _, _, _, he, he', hselected, hothers, by decide +kernel, by decide +kernel, hperm,
    hcount, hcount', (hsum _ _ hcount hcount').2 hdecides⟩

/-- A membership in a list that holds null is unknown of a number that is not in the list, and so is
its negation: neither finds the document. -/
theorem negation_misses_null_member :
    let docs : TableName := ⟨"docs"⟩
    let documents : List Value := [.map [(keyName, .text "a"), (.text "n", .int 2)]]
    let now := (({} : Store).run [(docs, .create), (docs, .insert (.list documents))]).2
    let filters (operator : String) : Value :=
      .list [.clause (.text "n") (.text operator) (.list [.null])]
    ∃ e e' selected others, ({} : Builder).build (filters "in") = .ok e ∧
      ({} : Builder).build (filters "not_in") = .ok e' ∧
      now.find docs e.conditions [] .null = .ok selected ∧
      now.find docs e'.conditions [] .null = .ok others ∧
      selected.length = 0 ∧ others.length = 0 ∧
      now.count docs e.conditions = .ok 0 ∧ now.count docs e'.conditions = .ok 0 ∧
      (now.rows docs).length = 1 := by
  intro docs documents now filters
  have hchecked : checkOperand (.list [.null]) = .ok () := by
    simp [checkOperand, Value.refusal?, Value.addTo, Value.addItemsTo, ContainerGraph.refusalFrom?,
      ContainerGraph.scan, Container.refusal?, Container.keys, Container.children]
  have he : ({} : Builder).build (filters "in") =
      .ok { conditions := .map [(.text "n", .map [(.text "$in", .list [.null])])] } :=
    Builder.build_of_single .isIn hchecked rfl rfl rfl rfl (Value.unhashableKind?_text "n")
  have he' : ({} : Builder).build (filters "not_in") =
      .ok { conditions := .map [(.text "n", .map [(.text "$nin", .list [.null])])] } :=
    Builder.build_of_single .notIn hchecked rfl rfl rfl rfl (Value.unhashableKind?_text "n")
  have hselected := eq_ok_of_isOk [] (by decide +kernel :
    (now.find docs (.map [(.text "n", .map [(.text "$in", .list [.null])])]) [] .null).isOk = true)
  have hothers := eq_ok_of_isOk [] (by decide +kernel :
    (now.find docs (.map [(.text "n", .map [(.text "$nin", .list [.null])])]) [] .null).isOk = true)
  have hcount := eq_ok_of_toOption (by decide +kernel :
    (now.count docs (.map [(.text "n", .map [(.text "$in", .list [.null])])])).toOption = some 0)
  have hcount' := eq_ok_of_toOption (by decide +kernel :
    (now.count docs (.map [(.text "n", .map [(.text "$nin", .list [.null])])])).toOption = some 0)
  exact ⟨_, _, _, _, he, he', hselected, hothers, by decide +kernel, by decide +kernel, hcount,
    hcount', by decide +kernel⟩

end Store

end DocFilter
