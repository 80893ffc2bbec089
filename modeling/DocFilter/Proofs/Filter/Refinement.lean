import DocFilter.Proofs.Filter.Compiling
import DocFilter.Proofs.Sql.Fields
import DocFilter.Proofs.Store.Querying

/-!
Filters select what their clauses mean.

The condition of a plain clause is evaluated to true on a field exactly if the operator accepts what
the field holds, for each operator and all kinds of operands and atoms (`eval_condition`). A null
makes comparisons and memberships unknown and searches false, and where a negated operator is to
accept it, its condition asks for it. So a query for plain clauses yields the documents that satisfy
all of them, in the order of insertion (`find_refines_clauses`).
-/

namespace DocFilter

open Outcome

/-! ### Comparisons -/

namespace Atom

theorem ofValue_sqlOperand {v : Value} {a : Atom} (h : v.atom? = some a) :
    Scalar.ofValue (sqlOperand v) = a.scalar := by
  cases v with
  | bool b | int n | text s =>
      cases h
      rfl
  | _ => cases h

theorem compareScalars_scalar (relation : Relation) (a b : Atom) :
    Condition.compareScalars relation a.scalar b.scalar =
      some (relation.holds (a.scalar.compare b.scalar)) := by
  cases a <;> cases b <;> rfl

theorem holds_compare (a b : Atom) :
    Relation.lt.holds (a.scalar.compare b.scalar) = a.less b ∧
      Relation.le.holds (a.scalar.compare b.scalar) = (a.less b || decide (a = b)) ∧
      Relation.eq.holds (a.scalar.compare b.scalar) = decide (a = b) ∧
      Relation.ge.holds (a.scalar.compare b.scalar) = (b.less a || decide (a = b)) ∧
      Relation.gt.holds (a.scalar.compare b.scalar) = b.less a := by
  obtain ⟨hless, hflip, hne, h⟩ | ⟨hless, hflip, heq, h⟩ | ⟨hless, hflip, hne, h⟩ :=
    compare_cases a b
  · simp [h, Relation.holds, hless, hflip, hne]
  · rw [h, hless, hflip, decide_eq_true heq]
    exact ⟨rfl, rfl, rfl, rfl, rfl⟩
  · simp [h, Relation.holds, hless, hflip, hne]

/-- Nothing is equal to null, and with an atom the comparison is one of atoms. -/
theorem compareScalars_held (relation : Relation) (held : Option Atom) (b : Atom) :
    Condition.compareScalars relation (heldScalar held) b.scalar =
      held.map fun a => relation.holds (a.scalar.compare b.scalar) := by
  cases held with
  | none => cases b <;> rfl
  | some a => exact compareScalars_scalar relation a b

theorem amongScalars_held {items : List Value} (hne : items ≠ [])
    (hitems : ∀ v ∈ items, v.IsAtomic) (held : Option Atom) :
    Condition.amongScalars (heldScalar held) (items.map fun v => Scalar.ofValue (sqlOperand v)) =
      held.map fun a => items.any fun v => decide (v.atom? = some a) := by
  have hresults : (items.map fun v => Scalar.ofValue (sqlOperand v)).map
      (fun b => Condition.compareScalars .eq (heldScalar held) b) =
        items.map fun v => held.map fun a => decide (v.atom? = some a) := by
    rw [List.map_map]
    refine List.map_congr_left fun v hv => ?_
    obtain ⟨b, hb, _⟩ := hitems v hv
    rw [Function.comp_apply, ofValue_sqlOperand hb, compareScalars_held]
    simp only [(holds_compare _ b).2.2.1, hb, Option.some.injEq, eq_comm]
  unfold Condition.amongScalars
  rw [hresults]
  cases held with
  | none =>
      obtain ⟨v, rest, rfl⟩ := List.exists_cons_of_ne_nil hne
      simp
  | some a =>
      simp only [Option.map_some]
      cases hany : items.any fun v => decide (v.atom? = some a) with
      | true =>
          obtain ⟨v, hv, heq⟩ := List.any_eq_true.mp hany
          rw [if_pos]
          rw [List.contains_eq_mem, decide_eq_true_eq, List.mem_map]
          exact ⟨v, hv, by rw [heq]⟩
      | false =>
          have hnone : ∀ v ∈ items, decide (v.atom? = some a) = false := by
            simpa using hany
          rw [if_neg, if_neg]
          · simp
          · simp only [List.contains_eq_mem, decide_eq_true_eq, List.mem_map, not_exists, not_and]
            intro v hv
            simp [hnone v hv]

theorem isFoundBy_held (held : Option Atom) (s : String) :
    (heldScalar held).toValue.isFoundBy (some (Pattern.containing s).written) =
      held.any fun a => a.contains s := by
  have hfound (t : String) : (Pattern.ofWritten (Pattern.containing s).written).foundIn t =
      decide (s.toList.map Text.letter <:+: t.toList.map Text.letter) := by
    rw [Pattern.ofWritten_written, Bool.eq_iff_iff, Pattern.foundIn_containing_iff,
      decide_eq_true_eq]
  cases held with
  | none => rfl
  | some a =>
      cases a with
      | number n => exact hfound (toString n)
      | text t => exact hfound t

end Atom

/-! ### Terms of plain clauses -/

namespace Operator

variable {read : Reading} {path : String} {operand : Value} {held : Option Atom} {op : Operator}

theorem eval_compare {b : Atom} (hread : read (.path path) = .ok (Atom.heldScalar held))
    (hoperand : operand.atom? = some b) (relation : Relation) :
    (Condition.compare (.path path) relation (sqlOperand operand)).eval read =
      .ok (held.map fun a => relation.holds (a.scalar.compare b.scalar)) := by
  rw [Condition.eval, hread, Reference.adapt, Atom.ofValue_sqlOperand hoperand]
  exact congrArg Except.ok (Atom.compareScalars_held relation held b)

/-- A condition that also accepts null is read only where there is an atom. -/
theorem eval_nullOr {c : Condition} (hread : read (.path path) = .ok (Atom.heldScalar held)) :
    (Condition.nullOr (.path path) c).eval read =
      if held = none then .ok (some true) else c.eval read := by
  rw [Condition.eval, hread]
  cases held with
  | none => rfl
  | some a => cases a <;> rfl

theorem eval_not {c : Condition} {truth : Option Bool} (h : c.eval read = .ok truth) :
    (Condition.not c).eval read = .ok (truth.map fun b => !b) := by
  rw [Condition.eval, h]
  rfl

theorem eval_oneOf {items : List Value} (hread : read (.path path) = .ok (Atom.heldScalar held))
    (hne : items ≠ []) (hitems : ∀ v ∈ items, v.IsAtomic) :
    (Condition.oneOf (.path path) (items.map sqlOperand)).eval read =
      .ok (held.map fun a => items.any fun v => decide (v.atom? = some a)) := by
  rw [Condition.eval, hread, List.map_map]
  exact congrArg Except.ok (Atom.amongScalars_held hne hitems held)

theorem eval_noneOf {items : List Value} (hread : read (.path path) = .ok (Atom.heldScalar held))
    (hne : items ≠ []) (hitems : ∀ v ∈ items, v.IsAtomic) :
    (Condition.noneOf (.path path) (items.map sqlOperand)).eval read =
      .ok (held.map fun a => !items.any fun v => decide (v.atom? = some a)) := by
  rw [Condition.eval, hread, List.map_map]
  have hamong := congrArg (Option.map fun b => !b) (Atom.amongScalars_held hne hitems held)
  rw [Option.map_map] at hamong
  exact congrArg Except.ok hamong

theorem eval_finds (hread : read (.path path) = .ok (Atom.heldScalar held)) (s : String) :
    (Condition.finds (.path path) (Pattern.containing s).written).eval read =
      .ok (some (held.any fun a => a.contains s)) := by
  rw [Condition.eval, hread]
  exact congrArg (fun b => Except.ok (some b)) (Atom.isFoundBy_held held s)

section Conditions

variable (hread : read (.path path) = .ok (Atom.heldScalar held))

include hread

theorem eval_membership (hop : op = .isIn ∨ op = .notIn) {items : List Value}
    (hitems : ∀ v ∈ items, v.IsAtomic) :
    ∃ truth, (op.condition (.path path) (.list items)).eval read = .ok truth ∧
      (truth = some true ↔ op.accepts (.list items) held = true) := by
  cases items with
  | nil =>
      -- Without items nothing is read.
      obtain rfl | rfl := hop
      · exact ⟨_, rfl, by simp [accepts, isNegated, meets, Value.elements?]⟩
      · exact ⟨_, rfl, by simp [accepts, isNegated, meets, Value.elements?]⟩
  | cons v rest =>
      have hne : v :: rest ≠ [] := List.cons_ne_nil v rest
      obtain rfl | rfl := hop
      · refine ⟨_, eval_oneOf hread hne hitems, ?_⟩
        cases held <;> simp [accepts, isNegated, meets, Value.elements?]
      · have hnotIn : notIn.condition (.path path) (.list (v :: rest)) =
            .nullOr (.path path) (.noneOf (.path path) ((v :: rest).map sqlOperand)) := rfl
        rw [hnotIn, eval_nullOr hread, eval_noneOf hread hne hitems]
        cases held with
        | none => exact ⟨_, rfl, by simp [accepts, isNegated]⟩
        | some a => exact ⟨_, rfl, by simp [accepts, isNegated, meets, Value.elements?]⟩

theorem eval_search (hop : op = .like ∨ op = .notLike) (s : String) :
    ∃ truth, (op.condition (.path path) (.text s)).eval read = .ok truth ∧
      (truth = some true ↔ op.accepts (.text s) held = true) := by
  obtain rfl | rfl := hop
  · refine ⟨_, eval_finds hread s, ?_⟩
    cases held <;> simp [accepts, isNegated, meets]
  · refine ⟨_, eval_not (eval_finds hread s), ?_⟩
    cases held <;> simp [accepts, isNegated, meets]

theorem eval_comparison {b : Atom} (hlist : op.takesList = false) (htext : op.takesText = false)
    (hb : operand.atom? = some b) :
    ∃ truth, (op.condition (.path path) operand).eval read = .ok truth ∧
      (truth = some true ↔ op.accepts operand held = true) := by
  have hholds (a : Atom) := Atom.holds_compare a b
  cases op with
  | isIn | notIn => cases hlist
  | like | notLike => cases htext
  | lt =>
      refine ⟨_, eval_compare hread hb _, ?_⟩
      cases held <;> simp [accepts, isNegated, meets, hb, (hholds _).1]
  | lte =>
      refine ⟨_, eval_compare hread hb _, ?_⟩
      cases held <;> simp [accepts, isNegated, meets, hb, (hholds _).2.1]
  | gt =>
      refine ⟨_, eval_compare hread hb _, ?_⟩
      cases held <;> simp [accepts, isNegated, meets, hb, (hholds _).2.2.2.2]
  | gte =>
      refine ⟨_, eval_compare hread hb _, ?_⟩
      cases held <;> simp [accepts, isNegated, meets, hb, (hholds _).2.2.2.1]
  | eq =>
      refine ⟨_, eval_compare hread hb _, ?_⟩
      cases held with
      | none => simp [accepts, isNegated]
      | some a => simp [accepts, isNegated, meets, hb, (hholds _).2.2.1, eq_comm (a := a)]
  | ne =>
      -- A missing field differs from every operand.
      show ∃ truth, (Condition.nullOr (.path path) (.not (.compare (.path path) .eq
        (sqlOperand operand)))).eval read = .ok truth ∧ _
      rw [eval_nullOr hread, eval_not (eval_compare hread hb .eq)]
      cases held with
      | none => exact ⟨_, rfl, by simp [accepts, isNegated]⟩
      | some a =>
          refine ⟨_, rfl, ?_⟩
          simp [accepts, isNegated, meets, hb, (hholds _).2.2.1, eq_comm (a := a)]

/-- On what a field holds, the condition of an operator is true exactly if the operator accepts
it. -/
theorem eval_condition (h : op.Takes operand) :
    ∃ truth, (op.condition (.path path) operand).eval read = .ok truth ∧
      (truth = some true ↔ op.accepts operand held = true) := by
  obtain ⟨hop, items, rfl, hitems⟩ | ⟨hop, s, rfl, _⟩ | ⟨hlist, htext, b, hb, _⟩ := h.cases
  · exact eval_membership hread hop hitems
  · exact eval_search hread hop s
  · exact eval_comparison hread hlist htext hb

end Conditions

end Operator

/-! ### Clauses on documents -/

namespace Operator

theorem refs_condition {op : Operator} {path : String} {operand : Value} {ref : Reference}
    (h : ref ∈ (op.condition (.path path) operand).refs) : ref = .path path := by
  cases op with
  | lt | lte | gt | gte | eq => simpa [condition, Condition.refs] using h
  | ne => simpa [condition, Condition.refs] using h
  | isIn | notIn =>
      simp only [condition] at h
      split at h
      · cases h
      · simpa [Condition.refs] using h
  | like | notLike =>
      simp only [condition] at h
      split at h
      · simpa [Condition.refs] using h
      · cases h

theorem conjuncts_condition (op : Operator) (path : String) (operand : Value) :
    (op.condition (.path path) operand).conjuncts = [op.condition (.path path) operand] ∧
      (op.condition (.path path) operand).keyEquality? = none := by
  cases op with
  | lt | lte | gt | gte | eq | ne => exact ⟨rfl, rfl⟩
  | isIn | notIn | like | notLike =>
      simp only [condition]
      split
      · exact ⟨rfl, rfl⟩
      · exact ⟨rfl, rfl⟩

end Operator

/-- The value is a mapping whose keys are texts. -/
def Value.IsDocument (document : Value) : Prop :=
  ∃ entries, document = .map entries ∧ Value.TextKeys entries

namespace Clause

variable {b : Builder} {c : Clause}

theorem term_of_plain {field : String} {op : Operator} (h : c.Plain b field op) :
    c.term = op.condition (.path ("$." ++ field)) c.operand := by
  simp only [term, h.field_eq, h.operator_eq]

theorem conjuncts_term (c : Clause) : c.term.conjuncts = [c.term] ∧ c.term.keyEquality? = none := by
  unfold term
  split
  · exact Operator.conjuncts_condition ..
  · exact ⟨rfl, rfl⟩

/-- Where the condition of a clause is read on the row of a document, it is true exactly if the
document satisfies the clause. -/
theorem eval_term (hplain : c.IsPlain b) {key document : Value} (hdocument : document.IsDocument)
    (hreaches : c.Reaches document) {truth : Option Bool}
    (h : c.term.eval (Row.ofDocument key document).read = .ok truth) :
    truth = some true ↔ c.holdsOf document = true := by
  obtain ⟨field, op, hc⟩ := hplain
  obtain ⟨entries, rfl, hkeys⟩ := hdocument
  let held := ((Value.map entries).field? field).bind Value.atom?
  have hheld : ∀ ref ∈ c.term.refs, ∀ v, (Row.ofDocument key (.map entries)).read ref = .ok v →
      Except.ok (Atom.heldScalar held) = Except.ok (ε := StoreFault) v := by
    intro ref href v hv
    rw [term_of_plain hc] at href
    obtain rfl := Operator.refs_condition href
    rw [Row.read_field hkeys hc.isIdentifier hc.ne_key
      (fun w hw => hreaches w ((Clause.heldBy_of_plain hc _).trans hw)) hv]
  -- What the condition reads is what the field holds, so it can be read everywhere.
  let everywhere : Reading := fun _ => .ok (Atom.heldScalar held)
  have heval : c.term.eval everywhere = .ok truth := Condition.eval_mono c.term hheld h
  have hread : everywhere (.path ("$." ++ field)) = .ok (Atom.heldScalar held) := rfl
  rw [term_of_plain hc] at heval
  obtain ⟨truth', htruth', hiff⟩ := Operator.eval_condition hread hc.takes
  obtain rfl : truth' = truth := Except.ok.inj (htruth'.symm.trans heval)
  rw [hiff]
  simp only [holdsOf, hc.operator_eq, heldBy_of_plain hc]
  rfl

end Clause

namespace Condition

theorem conjunctsOf_terms (clauses : List Clause) :
    conjunctsOf (clauses.map fun c => all [c.term]) = clauses.map Clause.term := by
  induction clauses with
  | nil => rfl
  | cons c rest ih =>
      rw [List.map_cons, conjunctsOf, ih, conjuncts, conjunctsOf, (Clause.conjuncts_term c).1]
      rfl

theorem lastKeyEquality?_terms (clauses : List Clause) :
    lastKeyEquality? (clauses.map Clause.term) = none := by
  induction clauses with
  | nil => rfl
  | cons c rest ih =>
      rw [List.map_cons, lastKeyEquality?, ih, (Clause.conjuncts_term c).2]
      rfl

end Condition

/-- A statement for plain clauses that succeeds finds out of every document whether it satisfies
them. -/
theorem Selection.satisfies_iff_holdsOf {b : Builder} {clauses : List Clause} {s : Selection}
    {rows all : List Row} (hconditions : s.conditions = clauses.map fun c => .all [c.term])
    (h : s.select (-1) 0 rows = .ok all) (hplain : ∀ c ∈ clauses, c.IsPlain b)
    {key document : Value} (hrow : Row.ofDocument key document ∈ rows)
    (hdocument : document.IsDocument) (hreaches : ∀ c ∈ clauses, c.Reaches document) :
    (Row.ofDocument key document).satisfies s.conditions =
      clauses.all fun c => c.holdsOf document := by
  have hterms : Condition.conjunctsOf s.conditions = clauses.map Clause.term := by
    rw [hconditions, Condition.conjunctsOf_terms]
  have hkey : Condition.lastKeyEquality? (Condition.conjunctsOf s.conditions) = none := by
    rw [hterms, Condition.lastKeyEquality?_terms]
  obtain hsatisfied | ⟨t, ht, truth, htruth, hother⟩ := select_decides hkey h hrow
  · rw [hsatisfied, eq_comm, List.all_eq_true]
    rw [← Row.satisfies_conjunctsOf, Row.satisfies_iff, hterms] at hsatisfied
    intro c hc
    exact (Clause.eval_term (hplain c hc) hdocument (hreaches c hc)
      (hsatisfied _ (List.mem_map_of_mem hc))).mp rfl
  · rw [hterms] at ht
    obtain ⟨c, hc, rfl⟩ := List.mem_map.mp ht
    have hrefuted : c.holdsOf document ≠ true := fun hholds =>
      hother ((Clause.eval_term (hplain c hc) hdocument (hreaches c hc) htruth).mpr hholds)
    have hfalse : (clauses.all fun c => c.holdsOf document) = false :=
      List.all_eq_false.mpr ⟨c, hc, hrefuted⟩
    rw [hfalse, ← Bool.not_eq_true, ← Row.satisfies_conjunctsOf, Row.satisfies_iff, hterms]
    intro hall
    have htrue : c.term.eval (Row.ofDocument key document).read = .ok (some true) :=
      hall _ (List.mem_map_of_mem hc)
    exact hother (Except.ok.inj (htruth.symm.trans htrue))

namespace Store

variable {issued : Nat} {session : List (TableName × Step)} {name : TableName} {b : Builder}
  {filters : Value} {items : List Value} {clauses : List Clause}

/-- However the documents came into a table: plain clauses on distinct fields, under which each
document holds nothing, null or an atom, can be built, and a query for them that succeeds yields the
records of exactly those documents that satisfy every clause, in the order of insertion. -/
theorem find_refines_clauses (hitems : filters.elements = .ok items)
    (hclauses : items.mapM Clause.ofValue = .ok clauses) (hplain : ∀ c ∈ clauses, c.IsPlain b)
    (hdistinct : (clauses.map (·.field)).Nodup)
    (hstored : ∀ p ∈ inserted name session (({ issued } : Store).run session).1,
      p.2.IsDocument ∧ ∀ c ∈ clauses, c.Reaches p.2) :
    let stored := inserted name session (({ issued } : Store).run session).1
    let now := (({ issued } : Store).run session).2
    ∃ e, b.build filters = .ok e ∧ ∀ records,
      now.find name e.conditions [] .null = .ok records →
        records = (stored.filter fun p => clauses.all fun c => c.holdsOf p.2).map
          fun p => (Row.ofDocument p.1 p.2).record := by
  intro stored now
  refine ⟨_, Builder.build_plain hitems hclauses hplain hdistinct, fun records h => ?_⟩
  have hreachable : now.Reachable := ⟨issued, session, rfl⟩
  have hrows : now.rows name = stored.map fun p => Row.ofDocument p.1 p.2 := by
    rw [((rows_run rfl session).2 name).1, flatten_batches]
    rfl
  obtain ⟨statement, rows, hselection, _, hselect, rfl⟩ :=
    find_all hreachable.location (by simp) h
  have hconditions : statement.conditions = clauses.map fun c => .all [c.term] := by
    have hsame := Cursor.conditions_selection hselection
    rw [Condition.ofValue_compiled hplain, Except.ok.injEq] at hsame
    exact hsame.symm
  have hfilter := Selection.select_unsorted (hreachable.distinct name)
    (Cursor.order_selection hselection) hselect
  rw [hfilter, Selection.part_all, hrows, List.filter_map, List.map_map]
  rw [hrows] at hselect
  congr 1
  refine List.filter_congr fun p hp => ?_
  exact Selection.satisfies_iff_holdsOf hconditions hselect hplain
    (List.mem_map.mpr ⟨p, hp, rfl⟩) (hstored p hp).1 (hstored p hp).2

/-- Three documents: one holds a text with the letter that is refused, one a truth value that counts
as the number asked for, and one the text asked for. -/
theorem find_refines_clauses_docs :
    let docs : TableName := ⟨"docs"⟩
    let document (key : String) (n s : Value) : Value :=
      .map [(keyName, .text key), (.text "n", n), (.text "s", s)]
    let documents := [document "a" (.int 1) (.text "Foo"), document "b" (.bool true) .null,
      document "c" (.text "x") (.int 0)]
    let session := [(docs, Step.create), (docs, .insert (.list documents))]
    let clauses : List Clause := [⟨.text "n", .text "in", .list [.int 1, .text "x"]⟩,
      ⟨.text "s", .text "not like", .text "o"⟩]
    let filters := Value.list (clauses.map Clause.toValue)
    let stored := inserted docs session (({} : Store).run session).1
    let now := (({} : Store).run session).2
    ∃ e records, ({} : Builder).build filters = .ok e ∧
      now.find docs e.conditions [] .null = .ok records ∧ records.length = 2 ∧
      records = (stored.filter fun p => clauses.all fun c => c.holdsOf p.2).map
        fun p => (Row.ofDocument p.1 p.2).record := by
  intro docs document documents session clauses filters stored now
  have hatomic : ∀ v ∈ [Value.int 1, .text "x", .text "Foo", .bool true, .int 0], v.IsAtomic := by
    simp only [List.forall_mem_cons]
    exact ⟨⟨_, rfl, by decide⟩, ⟨_, rfl, by decide⟩, ⟨_, rfl, by decide⟩, ⟨_, rfl, by decide⟩,
      ⟨_, rfl, by decide⟩, by simp⟩
  have hplain : ∀ c ∈ clauses, c.IsPlain {} := by
    simp only [clauses, List.forall_mem_cons]
    refine ⟨⟨"n", .isIn, rfl, rfl, by simp, by decide, rfl, _, rfl, ?_⟩,
      ⟨"s", .notLike, rfl, rfl, by simp, by decide, rfl, _, rfl, by decide⟩, by simp⟩
    exact fun v hv => hatomic v (by simp at hv ⊢; tauto)
  have hdocument (key : String) {n s : Value} (hn : n = .null ∨ n.IsAtomic)
      (hs : s = .null ∨ s.IsAtomic) :
      (document key n s).IsDocument ∧ ∀ c ∈ clauses, c.Reaches (document key n s) := by
    refine ⟨⟨_, rfl, ?_⟩, ?_⟩
    · simp [Value.TextKeys, keyName]
    · simpa [clauses, Clause.Reaches, Clause.heldBy, Value.field?, document, keyName,
        Value.lookup?_cons_text] using ⟨hn, hs⟩
  have hstored : ∀ p ∈ stored, p.2.IsDocument ∧ ∀ c ∈ clauses, c.Reaches p.2 := by
    intro p hp
    obtain ⟨table, inserted, hmem, hp⟩ := mem_of_mem_inserted hp
    obtain ⟨-, rfl⟩ : table = docs ∧ inserted = .list documents := by simpa [session] using hmem
    obtain h | h | h : p.2 = document "a" (.int 1) (.text "Foo") ∨
        p.2 = document "b" (.bool true) .null ∨ p.2 = document "c" (.text "x") (.int 0) := by
      simpa [documents, Value.elements?] using hp
    · exact h ▸ hdocument "a" (.inr (hatomic _ (by simp))) (.inr (hatomic _ (by simp)))
    · exact h ▸ hdocument "b" (.inr (hatomic _ (by simp))) (.inl rfl)
    · exact h ▸ hdocument "c" (.inr (hatomic _ (by simp))) (.inr (hatomic _ (by simp)))
  have hdistinct : (clauses.map (·.field)).Nodup := by simp [clauses]
  obtain ⟨e, he, h⟩ := @find_refines_clauses 0 session docs {} filters _ clauses rfl rfl hplain
    hdistinct hstored
  have hbuild := @Builder.build_plain {} filters _ clauses rfl rfl hplain hdistinct
  obtain rfl := Except.ok.inj (he.symm.trans hbuild)
  have hfind := eq_ok_of_isOk [] (by decide +kernel :
    (now.find docs (.map (clauses.map Clause.compiled)) [] .null).isOk = true)
  exact ⟨_, _, he, hfind, by decide +kernel, h _ hfind⟩

end Store

end DocFilter
