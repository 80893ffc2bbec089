import DocFilter.Proofs.Store.Complements

/-!
Memberships as alternatives of equalities.

A membership in a list looks at one part of a row and compares it with all items, where equality
compares it with one. So a row satisfies the membership if it satisfies one of the equalities, and
it satisfies the complement if it satisfies all inequalities, unknown values included
(`isTrue_oneOf_iff`, `isTrue_nullOr_noneOf_iff`). The clauses agree in the same way as long as they
are compiled to the same part of a row (`membership_agrees_with_equality`). Equality with the text
of an identifier is not: under the public name it goes to the key, while a list of texts stays where
it is (`membership_misses_public_id`).
-/

namespace DocFilter

open Outcome

/-! ### Rows -/

namespace Condition

variable {read : Reading} {ref : Reference} {a : Scalar} {members : List Scalar}
  {operands : List Value}

theorem amongScalars_eq_true_iff :
    amongScalars a members = some true ↔ ∃ b ∈ members, compareScalars .eq a b = some true := by
  unfold amongScalars
  simp only [List.contains_iff_mem, List.mem_map]
  split_ifs with htrue hnone
  · exact iff_of_true rfl htrue
  · exact iff_of_false (by simp) htrue
  · exact iff_of_false (by simp) htrue

theorem amongScalars_eq_false_iff :
    amongScalars a members = some false ↔ ∀ b ∈ members, compareScalars .eq a b = some false := by
  unfold amongScalars
  simp only [List.contains_iff_mem, List.mem_map]
  split_ifs with htrue hnone
  · obtain ⟨b, hb, hequal⟩ := htrue
    refine iff_of_false (by simp) fun hall => ?_
    rw [hall b hb] at hequal
    cases hequal
  · obtain ⟨b, hb, hunknown⟩ := hnone
    refine iff_of_false (by simp) fun hall => ?_
    rw [hall b hb] at hunknown
    cases hunknown
  · refine iff_of_true rfl fun b hb => ?_
    -- Of the three truth values only one is left for each member.
    rcases hresult : compareScalars .eq a b with _ | _ | _
    · exact absurd ⟨b, hb, hresult⟩ hnone
    · rfl
    · exact absurd ⟨b, hb, hresult⟩ htrue

theorem isTrue_compare_iff {operand : Value} :
    (compare ref .eq operand).IsTrue read ↔
      ∃ v, read ref = .ok v ∧
        compareScalars .eq v (ref.adapt (Scalar.ofValue operand)) = some true := by
  rw [IsTrue, eval, map_eq_ok_iff]

theorem isTrue_nullOr_iff {c : Condition} :
    (nullOr ref c).IsTrue read ↔ ∃ v, read ref = .ok v ∧ (v = .null ∨ c.IsTrue read) := by
  rw [IsTrue, eval, bind_eq_ok_iff]
  refine exists_congr fun v => and_congr_right fun hv => ?_
  by_cases hnull : v = .null
  · rw [if_pos hnull, pure_eq_ok_iff]
    exact iff_of_true rfl (.inl hnull)
  · rw [if_neg hnull]
    exact (or_iff_right hnull).symm

theorem isTrue_nullOr_compare_iff {operand : Value} :
    (nullOr ref (not (compare ref .eq operand))).IsTrue read ↔
      ∃ v, read ref = .ok v ∧ (v = .null ∨
        compareScalars .eq v (ref.adapt (Scalar.ofValue operand)) = some false) := by
  rw [isTrue_nullOr_iff]
  refine exists_congr fun v => and_congr_right fun hv => or_congr_right ?_
  rw [IsTrue, eval, eval, hv]
  simp [Except.map]

theorem isTrue_oneOf_iff :
    (oneOf ref operands).IsTrue read ↔
      ∃ operand ∈ operands, (compare ref .eq operand).IsTrue read := by
  simp only [isTrue_compare_iff]
  rw [IsTrue, eval, map_eq_ok_iff]
  constructor
  · rintro ⟨v, hv, hamong⟩
    obtain ⟨b, hb, hequal⟩ := amongScalars_eq_true_iff.mp hamong
    obtain ⟨operand, hoperand, rfl⟩ := List.mem_map.mp hb
    exact ⟨operand, hoperand, v, hv, hequal⟩
  · rintro ⟨operand, hoperand, v, hv, hequal⟩
    exact ⟨v, hv, amongScalars_eq_true_iff.mpr ⟨_, List.mem_map_of_mem hoperand, hequal⟩⟩

theorem isTrue_nullOr_noneOf_iff (hne : operands ≠ []) :
    (nullOr ref (noneOf ref operands)).IsTrue read ↔
      ∀ operand ∈ operands, (nullOr ref (not (compare ref .eq operand))).IsTrue read := by
  have hiff : (nullOr ref (noneOf ref operands)).IsTrue read ↔ ∃ v, read ref = .ok v ∧
      (v = .null ∨ amongScalars v
        (operands.map fun operand => ref.adapt (Scalar.ofValue operand)) = some false) := by
    rw [isTrue_nullOr_iff]
    refine exists_congr fun v => and_congr_right fun hv => or_congr_right ?_
    rw [IsTrue, eval, hv]
    simp [Except.map]
  simp only [hiff, isTrue_nullOr_compare_iff, amongScalars_eq_false_iff]
  constructor
  · rintro ⟨v, hv, hnull | hall⟩ operand hoperand
    · exact ⟨v, hv, .inl hnull⟩
    · exact ⟨v, hv, .inr (hall _ (List.mem_map_of_mem hoperand))⟩
  · intro hall
    obtain ⟨first, hfirst⟩ := List.exists_mem_of_ne_nil operands hne
    obtain ⟨v, hv, -⟩ := hall first hfirst
    refine ⟨v, hv, ?_⟩
    by_cases hnull : v = .null
    · exact .inl hnull
    · refine .inr fun b hb => ?_
      obtain ⟨operand, hoperand, rfl⟩ := List.mem_map.mp hb
      obtain ⟨w, hw, hw'⟩ := hall operand hoperand
      obtain rfl : v = w := Except.ok.inj (hv.symm.trans hw)
      exact hw'.resolve_left hnull

theorem ofEntry_eq_atom {v : Value} (h : v.atom?.isSome) :
    ofEntry ref (.text Operator.eq.conditionKey) v = .ok (compare ref .eq (sqlOperand v)) := by
  cases v <;> first | rfl | cases h

theorem ofEntry_ne_atom {v : Value} (h : v.atom?.isSome) :
    ofEntry ref (.text Operator.ne.conditionKey) v =
      .ok (nullOr ref (not (compare ref .eq (sqlOperand v)))) := by
  cases v <;> first | rfl | cases h

theorem isTrue_membership_iff {vs : List Value} {c : Condition}
    (h : ofEntry ref (.text Operator.isIn.conditionKey) (.list vs) = .ok c) :
    c.IsTrue read ↔ ∃ v ∈ vs, (compare ref .eq (sqlOperand v)).IsTrue read := by
  obtain rfl : (if vs.isEmpty then never else oneOf ref (vs.map sqlOperand)) = c := Except.ok.inj h
  cases vs with
  | nil => exact iff_of_false (by simp [IsTrue, eval]) (by simp)
  | cons v rest =>
      rw [if_neg (by simp), isTrue_oneOf_iff]
      simp only [List.mem_map, exists_exists_and_eq_and]

theorem isTrue_nonMembership_iff {vs : List Value} {c : Condition}
    (h : ofEntry ref (.text Operator.notIn.conditionKey) (.list vs) = .ok c) :
    c.IsTrue read ↔
      ∀ v ∈ vs, (nullOr ref (not (compare ref .eq (sqlOperand v)))).IsTrue read := by
  obtain rfl : (if vs.isEmpty then always else nullOr ref (noneOf ref (vs.map sqlOperand))) = c :=
    Except.ok.inj h
  cases vs with
  | nil => exact iff_of_true (by simp [IsTrue, eval]) (by simp)
  | cons v rest =>
      rw [if_neg (by simp), isTrue_nullOr_noneOf_iff (by simp), List.forall_mem_map]

end Condition

/-! ### Clauses -/

def Value.isIdentifier : Value → Bool
  | text s => (ObjectId.ofText? s).isSome
  | _ => false

theorem unhashableKind?_of_checkFieldName {field : Value} (h : checkFieldName field = .ok ()) :
    field.unhashableKind? = none :=
  (checkFieldName_eq_ok_iff.mp h).unhashableKind?_eq_none

namespace Builder

variable {b : Builder} {field operator operand : Value} {op : Operator} {vs : List Value}

theorem target_of_ne {given : Value} (hoperator : operator.operator? = some op)
    (h : field.equal b.publicKey = true → given.isIdentifier = false) :
    b.target field operator given = .ok (field, given) := by
  have hop : operator.toOperator = .ok op := by rw [Value.toOperator, hoperator]
  unfold target
  rw [hop]
  change (if op.takesText then _ else _) = _
  split_ifs
  · rfl
  · cases given with
    | text t =>
        dsimp only
        split
        · rename_i id hpublic hid
          simp [Value.isIdentifier, hid] at h
          simp [h] at hpublic
        · rfl
    | _ => rfl

/-- A list is never taken for the text of an identifier. -/
theorem build_list (hop : op = .isIn ∨ op = .notIn) (hfield : checkFieldName field = .ok ())
    (hoperator : operator.operator? = some op) (hvs : ∀ v ∈ vs, v.atom?.isSome) :
    b.build (.list [.clause field operator (.list vs)]) =
      .ok { conditions := .map [(field, .map [(.text op.conditionKey, .list vs)])] } := by
  have hchecked : checkOperand (.list vs) = .ok () := by
    rw [checkOperand, Value.refusal?_list hvs]
  have hcompiled : compileOperand op field (.list vs) = .ok (.list vs) := by
    obtain rfl | rfl := hop <;> rfl
  exact build_of_single op hchecked hfield hoperator (target_of_ne hoperator fun _ => rfl)
    hcompiled (unhashableKind?_of_checkFieldName hfield)

theorem build_atom (hop : op = .eq ∨ op = .ne) (hfield : checkFieldName field = .ok ())
    (hoperator : operator.operator? = some op) (hatom : operand.atom?.isSome)
    (hid : field.equal b.publicKey = true → operand.isIdentifier = false) :
    b.build (.list [.clause field operator operand]) =
      .ok { conditions := .map [(field, .map [(.text op.conditionKey, operand)])] } := by
  have hchecked : checkOperand operand = .ok () := by
    rw [checkOperand, Value.refusal?_of_atom hatom]
  have hcompiled : compileOperand op field operand = .ok operand := by
    obtain rfl | rfl := hop <;> rfl
  exact build_of_single op hchecked hfield hoperator (target_of_ne hoperator hid)
    hcompiled (unhashableKind?_of_checkFieldName hfield)

end Builder

/-! ### Selections -/

namespace Store

variable {s : Store} {name : TableName} {field : Value} {vs : List Value}

/-- The rows that a query selects that neither sorts nor skips nor limits. -/
def selected (s : Store) (name : TableName) (conditions : Value) : Except Failure (List Row) := do
  let statement ← Cursor.selection conditions []
  let table ← s.openTable name statement.conditions [Cursor.columns.key.display]
  statement.run table

theorem find_eq_selected (s : Store) (name : TableName) (conditions : Value) :
    s.find name conditions [] .null = (s.selected name conditions).map (·.map Row.record) := by
  have hstatement (c : Cursor) (h : Cursor.find conditions = .ok c) :
      c.statement .null = Cursor.selection conditions [] := by
    rw [Cursor.selection, h]
    obtain ⟨entries, -, rfl⟩ := map_eq_ok_iff.mp h
    change (Condition.ofValue Cursor.columns (.map entries) >>= _) =
      Condition.ofValue Cursor.columns (.map entries) >>= _
    cases Condition.ofValue Cursor.columns (.map entries) <;> rfl
  unfold Store.find selected
  cases hfind : Cursor.find conditions with
  | error failure =>
      rw [Cursor.selection, hfind]
      rfl
  | ok c =>
      rw [← hstatement c hfind]
      change c.toList s name .null = _
      unfold Cursor.toList
      cases c.statement .null with
      | error failure => rfl
      | ok statement =>
          change (s.openTable name statement.conditions _ >>= _) =
            (s.openTable name statement.conditions _ >>= _).map _
          cases s.openTable name statement.conditions [Cursor.columns.key.display] with
          | error failure => rfl
          | ok table => rfl

/-- A query for one condition selects the rows of which the condition holds, in their order. -/
theorem selected_single {op : Operator} {operand : Value} {rows : List Row}
    (hreach : s.Reachable)
    (h : s.selected name (.map [(field, .map [(.text op.conditionKey, operand)])]) = .ok rows) :
    ∃ c, Condition.ofEntry (referenceOf Cursor.columns field) (.text op.conditionKey) operand =
        .ok c ∧ rows = (s.rows name).filter (·.satisfies [.all [c]]) := by
  obtain ⟨statement, hstatement, h⟩ := bind_eq_ok_iff.mp h
  obtain ⟨table, htable, h⟩ := bind_eq_ok_iff.mp h
  obtain ⟨c, hc, hterms⟩ := Condition.ofValue_single (Cursor.conditions_selection hstatement)
  have horder := Cursor.order_selection hstatement
  obtain ⟨_, _, -, -, -, -, hbounds⟩ := Cursor.selection_eq_ok hstatement
  obtain ⟨-, limit, skip, hlimit, hskip, hselect⟩ := Selection.run_eq_ok h
  rw [hbounds] at hlimit hskip
  obtain rfl : -1 = limit := Except.ok.inj hlimit
  obtain rfl : 0 = skip := Except.ok.inj hskip
  have hfound := find?_of_openTable hreach.location htable
  have hrows : s.rows name = table.rows := by rw [Store.rows, Database.rows_of_find? hfound]
  rw [← hrows] at hselect
  refine ⟨c, Condition.ofEntry_of_ofEntryOn hc, ?_⟩
  rw [Selection.select_unsorted (hreach.distinct name) horder hselect, Selection.part_all, hterms]

def selectedBy (s : Store) (b : Builder) (name : TableName) (field operator operand : Value) :
    Except Failure (List Row) := do
  let e ← b.build (.list [.clause field operator operand])
  s.selected name e.conditions

section Clauses

variable {b : Builder} {operator v : Value} {c : Condition} {rows : List Row}

theorem selectedBy_list (op : Operator) (hop : op = .isIn ∨ op = .notIn)
    (hfield : checkFieldName field = .ok ()) (hoperator : operator.operator? = some op)
    (hvs : ∀ v ∈ vs, v.atom?.isSome) :
    s.selectedBy b name field operator (.list vs) =
      s.selected name (.map [(field, .map [(.text op.conditionKey, .list vs)])]) := by
  rw [selectedBy, Builder.build_list hop hfield hoperator hvs]
  rfl

theorem selectedBy_atom (op : Operator) (hop : op = .eq ∨ op = .ne)
    (hfield : checkFieldName field = .ok ()) (hoperator : operator.operator? = some op)
    (hatom : v.atom?.isSome) (hid : field.equal b.publicKey = true → v.isIdentifier = false) :
    s.selectedBy b name field operator v =
      s.selected name (.map [(field, .map [(.text op.conditionKey, v)])]) := by
  rw [selectedBy, Builder.build_atom hop hfield hoperator hatom hid]
  rfl

theorem mem_selectedBy_iff {op : Operator} {row : Row} (hreach : s.Reachable)
    (hselects : s.selectedBy b name field operator v =
      s.selected name (.map [(field, .map [(.text op.conditionKey, v)])]))
    (hc : Condition.ofEntry (referenceOf Cursor.columns field) (.text op.conditionKey) v = .ok c)
    (h : s.selectedBy b name field operator v = .ok rows) :
    row ∈ rows ↔ row ∈ s.rows name ∧ c.IsTrue row.read := by
  obtain ⟨c', hc', rfl⟩ := selected_single hreach (hselects.symm.trans h)
  obtain rfl : c = c' := Except.ok.inj (hc.symm.trans hc')
  rw [List.mem_filter, Row.satisfies_single_iff]

end Clauses

/-- A clause with a list of atoms is compiled to a predicate on its field, whatever the field is. A
row is selected by a membership if one of the equalities selects it, and by the complement if all
inequalities do, unless equality on the public identifier is given the text of an identifier. -/
theorem membership_agrees_with_equality {b : Builder} (spelling : Operator → Value)
    {among others : List Row} {same different : Value → List Row} (hreach : s.Reachable)
    (hspelling : ∀ op, (spelling op).operator? = some op)
    (hfield : checkFieldName field = .ok ()) (hvs : ∀ v ∈ vs, v.atom?.isSome)
    (hamong : s.selectedBy b name field (spelling .isIn) (.list vs) = .ok among)
    (hothers : s.selectedBy b name field (spelling .notIn) (.list vs) = .ok others)
    (hsame : ∀ v ∈ vs, s.selectedBy b name field (spelling .eq) v = .ok (same v))
    (hdifferent : ∀ v ∈ vs, s.selectedBy b name field (spelling .ne) v = .ok (different v)) :
    (∀ op, op = .isIn ∨ op = .notIn →
      b.build (.list [.clause field (spelling op) (.list vs)]) =
        .ok { conditions := .map [(field, .map [(.text op.conditionKey, .list vs)])] }) ∧
    ((field.equal b.publicKey = true → ∀ v ∈ vs, v.isIdentifier = false) →
      among = (s.rows name).filter (fun row => ∃ v ∈ vs, row ∈ same v) ∧
      others = (s.rows name).filter (fun row => ∀ v ∈ vs, row ∈ different v)) := by
  refine ⟨fun op hop => Builder.build_list hop hfield (hspelling op) hvs, fun hid => ?_⟩
  rw [selectedBy_list .isIn (.inl rfl) hfield (hspelling _) hvs] at hamong
  rw [selectedBy_list .notIn (.inr rfl) hfield (hspelling _) hvs] at hothers
  obtain ⟨c, hc, rfl⟩ := selected_single hreach hamong
  obtain ⟨d, hd, rfl⟩ := selected_single hreach hothers
  have hmem : ∀ v ∈ vs, ∀ row, row ∈ same v ↔ row ∈ s.rows name ∧
      (Condition.compare (referenceOf Cursor.columns field) .eq (sqlOperand v)).IsTrue row.read :=
    fun v hv row => mem_selectedBy_iff hreach
      (selectedBy_atom .eq (.inl rfl) hfield (hspelling _) (hvs v hv) (hid · v hv))
      (Condition.ofEntry_eq_atom (hvs v hv)) (hsame v hv)
  have hmem' : ∀ v ∈ vs, ∀ row, row ∈ different v ↔ row ∈ s.rows name ∧
      (Condition.nullOr (referenceOf Cursor.columns field) (.not
        (.compare (referenceOf Cursor.columns field) .eq (sqlOperand v)))).IsTrue row.read :=
    fun v hv row => mem_selectedBy_iff hreach
      (selectedBy_atom .ne (.inr rfl) hfield (hspelling _) (hvs v hv) (hid · v hv))
      (Condition.ofEntry_ne_atom (hvs v hv)) (hdifferent v hv)
  constructor
  · refine List.filter_congr fun row hrow => ?_
    rw [Bool.eq_iff_iff, Row.satisfies_single_iff, Condition.isTrue_membership_iff hc,
      decide_eq_true_eq]
    exact exists_congr fun v => and_congr_right fun hv =>
      ⟨fun htrue => (hmem v hv row).mpr ⟨hrow, htrue⟩, fun hsel => ((hmem v hv row).mp hsel).2⟩
  · refine List.filter_congr fun row hrow => ?_
    rw [Bool.eq_iff_iff, Row.satisfies_single_iff, Condition.isTrue_nonMembership_iff hd,
      decide_eq_true_eq]
    exact forall₂_congr fun v hv =>
      ⟨fun htrue => (hmem' v hv row).mpr ⟨hrow, htrue⟩, fun hsel => ((hmem' v hv row).mp hsel).2⟩

/-- A number and a text are looked for under a field that one of four documents lacks. -/
theorem membership_agrees_with_equality_mixed :
    let docs : TableName := ⟨"docs"⟩
    let document (key : String) (v : Value) : Value := .map [(keyName, .text key), (.text "n", v)]
    let documents : List Value := [document "a" (.int 2), document "b" (.text "x"),
      document "c" (.int 5), .map [(keyName, .text "d")]]
    let now := (({} : Store).run [(docs, .create), (docs, .insert (.list documents))]).2
    let clause (op : Operator) (operand : Value) :=
      now.selectedBy {} docs (.text "n") (.operator op) operand
    let vs : List Value := [.int 2, .text "x", .bool true]
    ∃ among others, ∃ same different : Value → List Row,
      clause .isIn (.list vs) = .ok among ∧ clause .notIn (.list vs) = .ok others ∧
      (∀ v ∈ vs, clause .eq v = .ok (same v)) ∧ (∀ v ∈ vs, clause .ne v = .ok (different v)) ∧
      among.map Row.key = ["a", "b"] ∧ others.map Row.key = ["c", "d"] ∧
      among = (now.rows docs).filter (fun row => ∃ v ∈ vs, row ∈ same v) ∧
      others = (now.rows docs).filter (fun row => ∀ v ∈ vs, row ∈ different v) := by
  intro docs document documents now clause vs
  have hatoms : ∀ v ∈ vs, v.atom?.isSome := by simp [vs, Value.atom?]
  have hin : clause .isIn (.list vs) =
      now.selected docs (.map [(.text "n", .map [(.text "$in", .list vs)])]) :=
    selectedBy_list .isIn (.inl rfl) rfl rfl hatoms
  have hnotIn : clause .notIn (.list vs) =
      now.selected docs (.map [(.text "n", .map [(.text "$nin", .list vs)])]) :=
    selectedBy_list .notIn (.inr rfl) rfl rfl hatoms
  have hamong := hin.trans (eq_ok_of_isOk [] (by decide +kernel))
  have hothers := hnotIn.trans (eq_ok_of_isOk [] (by decide +kernel))
  have hitem (op : Operator) (hop : op = .eq ∨ op = .ne) (v : Value) (hv : v ∈ vs) :
      clause op v = .ok ((clause op v).toOption.getD []) := by
    refine eq_ok_of_isOk [] ?_
    obtain rfl | rfl | rfl : v = .int 2 ∨ v = .text "x" ∨ v = .bool true := by simpa [vs] using hv
    all_goals
      obtain rfl | rfl := hop
      all_goals decide +kernel
  obtain ⟨-, hagree⟩ := membership_agrees_with_equality .operator ⟨0, _, rfl⟩
    (fun _ => rfl) rfl hatoms hamong hothers (hitem .eq (.inl rfl)) (hitem .ne (.inr rfl))
  have hother : (Value.text "n").equal ({} : Builder).publicKey = false := Value.equal_text "n" "id"
  obtain ⟨hexists, hall⟩ := hagree fun hpublic => absurd (hother.symm.trans hpublic) (by simp)
  exact ⟨_, _, _, _, hamong, hothers, hitem .eq (.inl rfl), hitem .ne (.inr rfl),
    by decide +kernel, by decide +kernel, hexists, hall⟩

/-- Under the public name the text of an identifier finds the record, but a list of this text does
not, and its complement finds what the inequality leaves out. -/
theorem membership_misses_public_id :
    let docs : TableName := ⟨"docs"⟩
    let t : Value := .text "abcdefabcdefabcdefabcdef"
    let documents : List Value := [.map [(keyName, t), (.text "n", .int 1)]]
    let now := (({} : Store).run [(docs, .create), (docs, .insert (.list documents))]).2
    let clause (operator : String) (operand : Value) :=
      now.selectedBy {} docs (.text "id") (.text operator) operand
    ∃ same among different others, clause "=" t = .ok same ∧ clause "in" (.list [t]) = .ok among ∧
      clause "!=" t = .ok different ∧ clause "not_in" (.list [t]) = .ok others ∧
      same.length = 1 ∧ among.length = 0 ∧ different.length = 0 ∧ others.length = 1 := by
  intro docs t documents now clause
  have hatoms : ∀ v ∈ [t], v.atom?.isSome := by simp [t, Value.atom?]
  have hin : clause "in" (.list [t]) =
      now.selected docs (.map [(.text "id", .map [(.text "$in", .list [t])])]) :=
    selectedBy_list .isIn (.inl rfl) rfl rfl hatoms
  have hnotIn : clause "not_in" (.list [t]) =
      now.selected docs (.map [(.text "id", .map [(.text "$nin", .list [t])])]) :=
    selectedBy_list .notIn (.inr rfl) rfl rfl hatoms
  exact ⟨_, _, _, _, eq_ok_of_isOk [] (by decide +kernel),
    hin.trans (eq_ok_of_isOk [] (by decide +kernel)), eq_ok_of_isOk [] (by decide +kernel),
    hnotIn.trans (eq_ok_of_isOk [] (by decide +kernel)), by decide +kernel, by decide +kernel,
    by decide +kernel, by decide +kernel⟩

end Store

end DocFilter
