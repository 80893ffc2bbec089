import DocFilter.Proofs.Store.Scanning
import DocFilter.Proofs.Store.Sorting

/-!
What comparisons select.

The six operators that compare look at the same value of a row and set it against the same operand.
So what each of them selects is read off one comparison (`meets_comparison`): a value is below the
operand, equal to it or above it, and the operators agree about which (`comparisons_consistent`). No
value but null is missed, because an operand that can be compared is not null.
-/

namespace DocFilter

open Outcome

/-! ### Operands -/

/-- The value can be compared: it is a text, a truth value, a number, an identifier or a date. -/
def Value.isComparable : Value → Bool
  | bool _ | int _ | text _ | objectId _ | timestamp _ | date _ => true
  | real x => x ≠ .nan
  | _ => false

namespace Scalar

variable {v : Value}

theorem ofValue_sqlOperand_of_isComparable (hv : v.isComparable = true) :
    ofValue (sqlOperand v) ≠ .null ∧ (ofValue (sqlOperand v)).Stands := by
  cases v with
  | real x =>
      cases x with
      | nan => simp [Value.isComparable] at hv
      | infinite _ | finite _ _ =>
          refine ⟨Scalar.noConfusion, fun h => ?_⟩
          cases real.inj h
  | bool _ | int _ | text _ | objectId _ | timestamp _ | date _ =>
      exact ⟨Scalar.noConfusion, Scalar.noConfusion⟩
  | _ => cases hv

end Scalar

namespace Operator

def comparisons : List Operator := [lt, lte, gt, gte, eq, ne]

/-- The comparison holds of a value that stands so to the operand. -/
def holds (op : Operator) (ordering : Ordering) : Bool :=
  match op with
  | lt => ordering == .lt
  | lte => ordering != .gt
  | gt => ordering == .gt
  | gte => ordering != .lt
  | eq => ordering == .eq
  | ne => ordering != .eq
  | _ => false

end Operator

/-! ### Conditions of comparisons -/

namespace Condition

theorem equals_of_isComparable {v : Value} (hv : v.isComparable = true) (ref : Reference) :
    equality ref v = .ok (compare ref .eq (sqlOperand v)) ∧
      inequality ref v = .ok (nullOr ref (not (compare ref .eq (sqlOperand v)))) := by
  cases v with
  | list _ | ring _ | map _ | null => cases hv
  | _ => exact ⟨rfl, rfl⟩

theorem refers_comparison {op : Operator} (hop : op ∈ Operator.comparisons) (v : Value) :
    refers (.text op.conditionKey) v = true := by
  cases op with
  | isIn | notIn | like | notLike => simp [Operator.comparisons] at hop
  | _ => rfl

/-- A comparison is compiled to a condition that reads one value and sets it against the operand. Of
null it is unknown, except that null differs from every operand. -/
theorem ofEntry_comparison {op : Operator} {v : Value} (hop : op ∈ Operator.comparisons)
    (hv : v.isComparable = true) (ref : Reference) :
    ∃ c, ofEntry ref (.text op.conditionKey) v = .ok c ∧
      ∀ read : Reading, c.eval read = (read ref).map fun x =>
        if x = .null then (if op = .ne then some true else none)
        else some (op.holds (x.compare (ref.adapt (Scalar.ofValue (sqlOperand v))))) := by
  have hoperand : ref.adapt (Scalar.ofValue (sqlOperand v)) ≠ .null :=
    Scalar.adapt_ne_null (Scalar.ofValue_sqlOperand_of_isComparable hv).1 ref
  have hcompare (relation : Relation) (x : Scalar) :
      compareScalars relation x (ref.adapt (Scalar.ofValue (sqlOperand v))) =
        if x = .null then none
        else some (relation.holds (x.compare (ref.adapt (Scalar.ofValue (sqlOperand v))))) := by
    split_ifs with hnull
    · rw [hnull, compareScalars_null]
    · exact compareScalars_of_ne_null hnull hoperand
  obtain ⟨hequality, hinequality⟩ := equals_of_isComparable hv ref
  have heval (relation : Relation) (read : Reading) :
      (compare ref relation (sqlOperand v)).eval read = (read ref).map fun x =>
        if x = .null then none
        else some (relation.holds (x.compare (ref.adapt (Scalar.ofValue (sqlOperand v))))) := by
    rw [eval]
    simp only [hcompare]
  cases op with
  | lt => exact ⟨_, rfl, heval .lt⟩
  | lte => exact ⟨_, rfl, heval .le⟩
  | gt => exact ⟨_, rfl, heval .gt⟩
  | gte => exact ⟨_, rfl, heval .ge⟩
  | eq => exact ⟨_, hequality, heval .eq⟩
  | ne =>
      -- The inequality is a disjunction with the test for null, which decides it there.
      refine ⟨_, hinequality, fun read => ?_⟩
      rw [eval, eval, heval .eq read]
      cases read ref with
      | error fault => rfl
      | ok x =>
          by_cases hnull : x = .null
          · rw [hnull]
            rfl
          · simp only [Except.map, if_neg hnull, Option.map_some]
            exact if_neg hnull
  | isIn | notIn | like | notLike => simp [Operator.comparisons] at hop

end Condition

theorem Row.meets_demand_iff {op : Operator} {field operand : Value} {c : Condition}
    (hentry : Condition.ofEntryOn Cursor.columns field (.text op.conditionKey) operand = .ok c)
    (row : Row) :
    row.meets (op.demand field operand) = true ↔ c.IsTrue row.read := by
  have hterms := Operator.ofValue_demand hentry
  rw [Operator.demand] at hterms ⊢
  rw [meets_eq_satisfies (Cursor.find_map _) hterms, Row.satisfies_single_iff]

/-- What a comparison selects is read off how the value of a row stands to the operand. Null is
selected by the operator that asks for another value only. -/
theorem Row.meets_comparison {op : Operator} {field v : Value} {row : Row} {x : Scalar}
    (hop : op ∈ Operator.comparisons) (hv : v.isComparable = true)
    (hfield : checkReference Cursor.columns field = .ok ())
    (hread : row.read (referenceOf Cursor.columns field) = .ok x) :
    row.meets (op.demand field v) = if x = .null then decide (op = .ne) else
      op.holds (x.compare
        ((referenceOf Cursor.columns field).adapt (Scalar.ofValue (sqlOperand v)))) := by
  obtain ⟨c, hc, heval⟩ := Condition.ofEntry_comparison hop hv (referenceOf Cursor.columns field)
  have hentry := Condition.ofEntryOn_eq_ok_iff.mpr ⟨fun _ => hfield, hc⟩
  rw [Bool.eq_iff_iff, meets_demand_iff hentry, Condition.IsTrue, heval, hread]
  simp only [Except.map, Except.ok.injEq]
  split_ifs with hnull hne
  · simp [hne]
  · simp [hne]
  · exact Option.some_inj

theorem Row.exists_read_of_meets {op : Operator} {field v : Value} {row : Row}
    (hop : op ∈ Operator.comparisons) (hv : v.isComparable = true)
    (hfield : checkReference Cursor.columns field = .ok ())
    (h : row.meets (op.demand field v) = true) :
    ∃ x, row.read (referenceOf Cursor.columns field) = .ok x := by
  obtain ⟨c, hc, heval⟩ := Condition.ofEntry_comparison hop hv (referenceOf Cursor.columns field)
  have hentry := Condition.ofEntryOn_eq_ok_iff.mpr ⟨fun _ => hfield, hc⟩
  rw [meets_demand_iff hentry, Condition.IsTrue, heval] at h
  obtain ⟨x, hx, -⟩ := map_eq_ok_iff.mp h
  exact ⟨x, hx⟩

/-! ### Clauses -/

namespace Builder

variable {b : Builder} {field operand : Value} {op : Operator}

/-- A clause that compares is compiled to a demand of its target. -/
theorem build_comparison {e : Expression} (hop : op ∈ Operator.comparisons)
    (he : b.build (.list [.clause field (.text op.literal) operand]) = .ok e) :
    ∃ key given, b.target field (.text op.literal) operand = .ok (key, given) ∧
      e.conditions = op.demand key given := by
  obtain ⟨op', key, given, compiled, hop', htarget, hcompiled, hconditions⟩ := build_single he
  obtain rfl : op = op' := Option.some.inj ((Operator.ofLiteral?_literal op).symm.trans hop')
  obtain rfl : given = compiled := by
    cases op with
    | isIn | notIn | like | notLike => simp [Operator.comparisons] at hop
    | _ => exact Except.ok.inj hcompiled
  exact ⟨key, given, htarget, hconditions⟩

theorem target_comparison (hop : op ∈ Operator.comparisons) :
    b.target field (.text op.literal) operand =
      b.target field (.text Operator.lt.literal) operand := by
  cases op with
  | isIn | notIn | like | notLike => simp [Operator.comparisons] at hop
  | _ => rfl

/-- Clauses on one field and one operand that compare are compiled to demands on one key and one
operand, which can be compared if the given one can. -/
theorem build_comparisons {e : Operator → Expression} (hoperand : operand.isComparable = true)
    (he : ∀ op ∈ Operator.comparisons,
      b.build (.list [.clause field (.text op.literal) operand]) = .ok (e op)) :
    ∃ key given, given.isComparable = true ∧
      ∀ op ∈ Operator.comparisons, (e op).conditions = op.demand key given := by
  obtain ⟨key, given, htarget, -⟩ :=
    build_comparison (by decide) (he .lt (by decide))
  refine ⟨key, given, ?_, fun op hop => ?_⟩
  · obtain ⟨-, rfl⟩ | ⟨-, -, s, id, -, -, rfl⟩ := target_eq_ok htarget
    · exact hoperand
    · rfl
  · obtain ⟨key', given', htarget', hconditions⟩ := build_comparison hop (he op hop)
    rw [target_comparison hop, htarget] at htarget'
    cases htarget'
    exact hconditions

end Builder

/-! ### Selections -/

/-- What is below an operand is below every operand that is no less, on a part of the document. -/
theorem Row.meets_lt_mono {field v w : Value} {row : Row}
    (hpath : referenceOf Cursor.columns field ≠ .key)
    (hfield : checkReference Cursor.columns field = .ok ()) (hv : v.isComparable = true)
    (hw : w.isComparable = true)
    (hle : ((Scalar.ofValue (sqlOperand v)).compare (Scalar.ofValue (sqlOperand w))).isLE = true)
    (h : row.meets (Operator.lt.demand field v) = true) :
    row.meets (Operator.lt.demand field w) = true := by
  obtain ⟨x, hx⟩ := exists_read_of_meets (by decide) hv hfield h
  have hadapt (operand : Scalar) : (referenceOf Cursor.columns field).adapt operand = operand := by
    cases href : referenceOf Cursor.columns field with
    | key => exact absurd href hpath
    | path _ => rfl
  rw [meets_comparison (by decide) hv hfield hx, hadapt] at h
  rw [meets_comparison (by decide) hw hfield hx, hadapt]
  split_ifs at h ⊢ with hnull
  · exact h
  · rw [Operator.holds, beq_iff_eq] at h ⊢
    exact Scalar.compare_lt_of_lt_of_isLE (stands_read hx)
      (Scalar.ofValue_sqlOperand_of_isComparable hv).2
      (Scalar.ofValue_sqlOperand_of_isComparable hw).2 h hle

namespace Store

open Operator

variable {s : Store} {name : TableName} {field v : Value}

/-- A comparison that succeeds refers to its field, and has read it of every row. -/
theorem read_of_find {op : Operator} {records : List Value} (hop : op ∈ comparisons)
    (hv : v.isComparable = true) (hreach : s.Reachable)
    (h : s.find name (op.demand field v) [] .null = .ok records) :
    checkReference Cursor.columns field = .ok () ∧
      ∀ row ∈ s.rows name, ∃ x, row.read (referenceOf Cursor.columns field) = .ok x := by
  obtain ⟨c, hentry, -, hevaluates, -⟩ := find_evaluates hreach.location h
  obtain ⟨hrefers, hc⟩ := Condition.ofEntryOn_eq_ok_iff.mp hentry
  obtain ⟨c', hc', heval⟩ := Condition.ofEntry_comparison hop hv (referenceOf Cursor.columns field)
  obtain rfl : c = c' := Except.ok.inj (hc.symm.trans hc')
  refine ⟨hrefers (Condition.refers_comparison hop v), fun row hrow => ?_⟩
  obtain ⟨truth, htruth⟩ := hevaluates row hrow
  rw [heval] at htruth
  obtain ⟨x, hx, -⟩ := map_eq_ok_iff.mp htruth
  exact ⟨x, hx⟩

/-- The six comparisons of one field with one operand agree about every row: if the field holds a
value, exactly one of the operators `<`, `=` and `>` selects the row, and the other three select it
as their names say; if it is missing or null, only `!=` does. What is below an operand is below
every greater one, unless the field is the key. Clauses that compare are compiled to such
comparisons. -/
theorem comparisons_consistent (hreach : s.Reachable) (hv : v.isComparable = true)
    (hfinds : ∀ op ∈ comparisons, (s.find name (op.demand field v) [] .null).isOk = true) :
    (∀ op ∈ comparisons, s.find name (op.demand field v) [] .null =
      .ok (((s.rows name).filter (·.meets (op.demand field v))).map Row.record)) ∧
    (∀ row ∈ s.rows name, ∃ x, row.read (referenceOf Cursor.columns field) = .ok x ∧
      let selects (op : Operator) : Bool := row.meets (op.demand field v)
      (x ≠ .null → [lt, eq, gt].countP selects = 1 ∧ selects lte = (selects lt || selects eq) ∧
        selects gte = (selects gt || selects eq) ∧ selects ne = !selects eq) ∧
      (x = .null → ∀ op ∈ comparisons, selects op = decide (op = ne))) ∧
    (referenceOf Cursor.columns field ≠ .key → ∀ w : Value, w.isComparable = true →
      ((Scalar.ofValue (sqlOperand v)).compare (Scalar.ofValue (sqlOperand w))).isLE = true →
      ∀ below others, s.find name (lt.demand field v) [] .null = .ok below →
        s.find name (lt.demand field w) [] .null = .ok others → below.Sublist others) ∧
    ∀ (b : Builder) (asked given : Value) (e : Operator → Expression), given.isComparable = true →
      (∀ op ∈ comparisons,
        b.build (.list [.clause asked (.text op.literal) given]) = .ok (e op)) →
      ∃ key operand, operand.isComparable = true ∧
        ∀ op ∈ comparisons, (e op).conditions = op.demand key operand := by
  refine ⟨fun op hop => ?_, fun row hrow => ?_, ?_, ?_⟩
  · have hfind := eq_ok_of_isOk [] (hfinds op hop)
    rw [← find_meets hreach hfind]
    exact hfind
  · have hfind := eq_ok_of_isOk [] (hfinds lt (by decide))
    obtain ⟨hfield, hread⟩ := read_of_find (by decide) hv hreach hfind
    obtain ⟨x, hx⟩ := hread row hrow
    refine ⟨x, hx, ?_⟩
    intro selects
    have hselects (op : Operator) (hop : op ∈ comparisons) := Row.meets_comparison hop hv hfield hx
    refine ⟨fun hvalue => ?_, fun hnull op hop => (hselects op hop).trans (if_pos hnull)⟩
    -- All six are about the same ordering.
    generalize x.compare _ = ordering at hselects
    have hholds (op : Operator) (hop : op ∈ comparisons) : selects op = op.holds ordering :=
      (hselects op hop).trans (if_neg hvalue)
    have hcount : [lt, eq, gt].countP selects = [lt, eq, gt].countP (·.holds ordering) := by
      refine List.countP_congr fun op hop => ?_
      rw [hholds op (by revert op; decide)]
    rw [hcount, hholds lt (by decide), hholds lte (by decide), hholds gt (by decide),
      hholds gte (by decide), hholds eq (by decide), hholds ne (by decide)]
    cases ordering <;> decide
  · intro hpath w hw hle below others hbelow hothers
    obtain ⟨hfield, -⟩ := read_of_find (by decide) hv hreach hbelow
    rw [find_meets hreach hbelow, find_meets hreach hothers]
    refine List.Sublist.map _ (List.monotone_filter_right _ fun row hrow => ?_)
    exact Row.meets_lt_mono hpath hfield hv hw hle hrow
  · intro b asked given e hgiven he
    exact Builder.build_comparisons hgiven he

/-- Two numbers, a text, null and a missing field are compared with a number, and the numbers with a
text, too. -/
theorem comparisons_consistent_mixed :
    let docs : TableName := ⟨"docs"⟩
    let documents : List Value := [.map [(keyName, .text "a"), (.text "n", .int 1)],
      .map [(keyName, .text "b"), (.text "n", .int 2)],
      .map [(keyName, .text "c"), (.text "n", .text "x")],
      .map [(keyName, .text "d"), (.text "n", .null)], .map [(keyName, .text "e")]]
    let now := (({} : Store).run [(docs, .create), (docs, .insert (.list documents))]).2
    let n : Value := .text "n"
    let filters (op : Operator) : Value := .list [.clause n (.text op.literal) (.int 2)]
    let e (op : Operator) : Expression := { conditions := op.demand n (.int 2) }
    (∀ op ∈ comparisons, ({} : Builder).build (filters op) = .ok (e op)) ∧
    (∀ op ∈ comparisons, (now.find docs (e op).conditions [] .null).isOk = true) ∧
    (∀ row ∈ now.rows docs, ∃ x, row.read (.path "$.n") = .ok x ∧
      (x ≠ .null →
        [lt, eq, gt].countP (fun op => row.meets (op.demand n (.int 2))) = 1) ∧
      (x = .null → ∀ op ∈ comparisons, row.meets (op.demand n (.int 2)) = decide (op = ne))) ∧
    (∃ below others, now.find docs (lt.demand n (.int 2)) [] .null = .ok below ∧
      now.find docs (lt.demand n (.text "s")) [] .null = .ok others ∧
      below.Sublist others ∧ below.length = 1 ∧ others.length = 2) ∧
    ∃ key operand, operand.isComparable = true ∧
      ∀ op ∈ comparisons, (e op).conditions = op.demand key operand := by
  intro docs documents now n filters e
  have hreachable : now.Reachable := ⟨0, _, rfl⟩
  have hbuilds : ∀ op ∈ comparisons, ({} : Builder).build (filters op) = .ok (e op) := by
    intro op hop
    have hn := Value.unhashableKind?_text "n"
    cases op with
    | isIn | notIn | like | notLike => simp [comparisons] at hop
    | lt => exact Builder.build_of_single .lt rfl rfl rfl rfl rfl hn
    | lte => exact Builder.build_of_single .lte rfl rfl rfl rfl rfl hn
    | gt => exact Builder.build_of_single .gt rfl rfl rfl rfl rfl hn
    | gte => exact Builder.build_of_single .gte rfl rfl rfl rfl rfl hn
    | eq => exact Builder.build_of_single .eq rfl rfl rfl rfl rfl hn
    | ne => exact Builder.build_of_single .ne rfl rfl rfl rfl rfl hn
  have hfinds : ∀ op ∈ comparisons, (now.find docs (op.demand n (.int 2)) [] .null).isOk = true := by
    decide +kernel
  have hbelow := eq_ok_of_isOk [] (hfinds lt (by decide))
  have hothers := eq_ok_of_isOk [] (by decide +kernel :
    (now.find docs (lt.demand n (.text "s")) [] .null).isOk = true)
  have hpath : referenceOf Cursor.columns n = .path "$.n" := by decide +kernel
  obtain ⟨-, hrows, hmono, hclauses⟩ := comparisons_consistent hreachable rfl hfinds
  refine ⟨hbuilds, hfinds, fun row hrow => ?_, ?_, hclauses {} n (.int 2) e rfl hbuilds⟩
  · obtain ⟨x, hx, hvalue, hnull⟩ := hrows row hrow
    rw [hpath] at hx
    exact ⟨x, hx, fun h => (hvalue h).1, hnull⟩
  · have hkey : referenceOf Cursor.columns n ≠ .key := by
      rw [hpath]
      exact Reference.noConfusion
    exact ⟨_, _, hbelow, hothers, hmono hkey (.text "s") rfl rfl _ _ hbelow hothers,
      by decide +kernel, by decide +kernel⟩

end Store

end DocFilter
