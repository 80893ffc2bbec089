import DocFilter.Proofs.Filter.Compiling
import DocFilter.Proofs.Json.Writing
import DocFilter.Proofs.Value.Reserved
import DocFilter.Proofs.Value.Showing

/-!
No operator gets into compiled conditions from the values of a request.

Whatever the fields, operators and operands of the clauses are, an entry of the conditions is made
of one clause and of nothing else (`Clause.Becomes`): its key is the field of the clause or the
native key, its predicate has the one condition key of the operator of the clause, and the operand
holds no reserved key that could be taken for another operator. A fold over the clauses leaves only
such entries behind (`compile_becomes`), and a query reads each of them as the operator that it
names and never finds an unknown one (`build_admits_no_operators`). What is neither a collection nor
a mapping is not looked into, so a clause that is given as an operand keeps what its own operand
holds (`build_admits_reserved_in_clause`).
-/

namespace DocFilter

open Outcome

/-! ### Values as keys and as operands -/

namespace Value

@[simp] theorem text_equal_iff {s : String} {v : Value} : (text s).equal v = true ↔ v = text s := by
  cases v with
  | text t => rw [equal_text, beq_iff_eq, text.injEq, eq_comm]
  | _ => simp [equal]

@[simp] theorem equal_text_iff {s : String} {v : Value} : v.equal (text s) = true ↔ v = text s := by
  cases v <;> simp [equal, number?]

@[simp] theorem unhashableKind?_text (s : String) : (text s).unhashableKind? = none := rfl

/-- An entry after a value was stored under a key is an old one, or holds the value under the key or
under the equal key that was there. -/
theorem mem_insertEntry {entries : List (Value × Value)} {key value : Value}
    {entry : Value × Value} (h : entry ∈ insertEntry entries key value) :
    entry ∈ entries ∨ entry = (key, value) ∨
      ∃ old, key.equal entry.1 = true ∧ (entry.1, old) ∈ entries ∧ entry.2 = value := by
  induction entries with
  | nil => exact .inr (.inl (List.mem_singleton.mp h))
  | cons first rest ih =>
      obtain ⟨k, v⟩ := first
      rw [insertEntry] at h
      split_ifs at h with hequal
      · obtain rfl | hmem := List.mem_cons.mp h
        · exact .inr (.inr ⟨v, hequal, List.mem_cons_self, rfl⟩)
        · exact .inl (List.mem_cons_of_mem _ hmem)
      · obtain rfl | hmem := List.mem_cons.mp h
        · exact .inl List.mem_cons_self
        · obtain hold | hnew | ⟨old, hkey, hold, hvalue⟩ := ih hmem
          · exact .inl (List.mem_cons_of_mem _ hold)
          · exact .inr (.inl hnew)
          · exact .inr (.inr ⟨old, hkey, List.mem_cons_of_mem _ hold, hvalue⟩)

def items? : Value → Option (List Value)
  | list items | tuple items | set items | frozenSet items => some items
  | ring items => some (items ++ [ring items])
  | _ => none

theorem contents_of_items? {v : Value} {items : List Value} (h : v.items? = some items) :
    v.contents = items := by
  cases v <;> cases h <;> rfl

theorem reservedFree_list {items : List Value} (h : ∀ v ∈ items, v.ReservedFree) :
    (list items).ReservedFree :=
  reservedFree_of_contents (by simp) fun held hheld => .inr (h held hheld)

theorem reservedFree_objectId (id : ObjectId) : (objectId id).ReservedFree :=
  reservedFree_of_contents (by simp) (by simp [contents])

theorem reservedFree_pattern (p : Pattern) : (pattern p).ReservedFree :=
  reservedFree_of_contents (by simp) (by simp [contents])

end Value

/-- The operand is what the operator makes of a given value: a list of its items, a pattern that
looks for the given text whatever the case of its letters, or the value itself. -/
def Operator.Makes (op : Operator) (given operand : Value) : Prop :=
  if op.takesList then ∃ items, given.items? = some items ∧ operand = .list items
  else if op.takesText then
    ∃ s, given = .text s ∧ operand = .pattern ⟨String.ofList (Pattern.escape s.toList), true⟩
  else operand = given

theorem Operator.Makes.reservedFree {op : Operator} {given operand : Value}
    (h : op.Makes given operand) (hgiven : given.ReservedFree) : operand.ReservedFree := by
  unfold Operator.Makes at h
  split_ifs at h
  · obtain ⟨items, hitems, rfl⟩ := h
    refine Value.reservedFree_list fun v hv => hgiven.held ?_
    rwa [Value.contents_of_items? hitems]
  · obtain ⟨s, -, rfl⟩ := h
    exact Value.reservedFree_pattern _
  · exact h ▸ hgiven

theorem makes_of_compileOperand {op : Operator} {field given operand : Value}
    (h : compileOperand op field given = .ok operand) : op.Makes given operand := by
  unfold compileOperand at h
  unfold Operator.Makes
  split_ifs at h ⊢ with hlist htext
  · obtain ⟨items, hitems, rfl⟩ := map_eq_ok_iff.mp h
    refine ⟨items, ?_, rfl⟩
    cases given <;> cases hitems <;> rfl
  · obtain ⟨p, hp, rfl⟩ := map_eq_ok_iff.mp h
    cases given <;> cases hp
    exact ⟨_, rfl, rfl⟩
  · cases h
    rfl

/-! ### Entries -/

/-- The key may stand in conditions: it is the native key, or a name that is not empty and without
the reserved sign. -/
def Builder.Allows (b : Builder) (key : Value) : Prop :=
  key = b.nativeKey ∨ ∃ name, key = .text name ∧ name ≠ "" ∧ reservedSign ∉ name.toList

/-- The clause becomes an entry, with an operator and an operand. -/
structure Clause.Becomes (b : Builder) (c : Clause) (op : Operator) (operand : Value)
    (entry : Value × Value) : Prop where
  operator_eq : c.operator.operator? = some op
  /-- The field and the operand of the clause, or the native key and the identifier that the clause
  names. -/
  origin : (entry.1 = c.field ∧ op.Makes c.operand operand) ∨
    (entry.1 = b.nativeKey ∧ c.field.equal b.publicKey = true ∧
      ∃ s id, c.operand = .text s ∧ ObjectId.ofText? s = some id ∧ op.Makes (.objectId id) operand)
  key_allowed : b.Allows entry.1
  predicate_eq : entry.2 = .map [(.text op.conditionKey, operand)]
  reservedFree : operand.ReservedFree

namespace Builder

variable {b : Builder} {c : Clause}

theorem text_of_text_isSameKey {s : String} {v : Value} (h : isSameKey (.text s) v = true) :
    v = .text s := by
  cases v with
  | text t => rw [beq_iff_eq.mp h]
  | _ => cases h

theorem text_of_isSameKey_text {s : String} {v : Value} (h : isSameKey v (.text s) = true) :
    v = .text s := by
  cases v with
  | text t => rw [beq_iff_eq.mp h]
  | _ => cases h

theorem Allows.eq_of_isSameKey {key other : Value} (h : b.Allows key) (hother : b.Allows other)
    (hsame : isSameKey key other = true) : other = key := by
  obtain rfl | ⟨name, rfl, -⟩ := h
  · obtain rfl | ⟨name, rfl, -⟩ := hother
    · rfl
    · exact (text_of_isSameKey_text hsame).symm
  · exact text_of_text_isSameKey hsame

/-- An entry after a predicate was stored under a key is an old one, or holds the predicate under
the key or under the same key that was there. -/
theorem mem_store {entries : List (Value × Value)} {key predicate : Value} {entry : Value × Value}
    (h : entry ∈ store entries key predicate) :
    entry ∈ entries ∨ entry = (key, predicate) ∨
      ∃ old, isSameKey key entry.1 = true ∧ (entry.1, old) ∈ entries ∧ entry.2 = predicate := by
  induction entries with
  | nil => exact .inr (.inl (List.mem_singleton.mp h))
  | cons first rest ih =>
      obtain ⟨k, p⟩ := first
      rw [store] at h
      split_ifs at h with hsame
      · obtain rfl | hmem := List.mem_cons.mp h
        · exact .inr (.inr ⟨p, hsame, List.mem_cons_self, rfl⟩)
        · exact .inl (List.mem_cons_of_mem _ hmem)
      · obtain rfl | hmem := List.mem_cons.mp h
        · exact .inl List.mem_cons_self
        · obtain hold | hnew | ⟨old, hkey, hold, hvalue⟩ := ih hmem
          · exact .inl (List.mem_cons_of_mem _ hold)
          · exact .inr (.inl hnew)
          · exact .inr (.inr ⟨old, hkey, List.mem_cons_of_mem _ hold, hvalue⟩)

theorem allows_of_checkFieldName {field : Value} (h : checkFieldName field = .ok ()) :
    b.Allows field :=
  .inr (checkFieldName_eq_ok_iff.mp h)

theorem target_eq_ok {field operator operand key given : Value}
    (h : b.target field operator operand = .ok (key, given)) :
    (key = field ∧ given = operand) ∨
      (key = b.nativeKey ∧ field.equal b.publicKey = true ∧
        ∃ s id, operand = .text s ∧ ObjectId.ofText? s = some id ∧ given = .objectId id) := by
  obtain ⟨op, -, h⟩ := bind_eq_ok_iff.mp h
  split_ifs at h with htext
  · cases h
    exact .inl ⟨rfl, rfl⟩
  · split at h
    next =>
      split at h
      next id hpublic hid =>
        cases h
        exact .inr ⟨rfl, hpublic, _, id, rfl, hid, rfl⟩
      next =>
        cases h
        exact .inl ⟨rfl, rfl⟩
    next =>
      cases h
      exact .inl ⟨rfl, rfl⟩

/-- Adding a clause to the conditions stores one entry under the target of the clause. -/
theorem addClause_eq_ok {conditions conditions' : List (Value × Value)}
    (h : b.addClause conditions c = .ok conditions') :
    ∃ op key given operand, c.operator.operator? = some op ∧
      b.target c.field c.operator c.operand = .ok (key, given) ∧
      compileOperand op key given = .ok operand ∧
      conditions' = store conditions key (.map [(.text op.conditionKey, operand)]) := by
  obtain ⟨⟨key, given⟩, htarget, h⟩ := bind_eq_ok_iff.mp h
  obtain ⟨predicate, hpredicate, h⟩ := bind_eq_ok_iff.mp h
  obtain ⟨op, hop, hpredicate⟩ := bind_eq_ok_iff.mp hpredicate
  obtain ⟨operand, hoperand, hpredicate⟩ := bind_eq_ok_iff.mp hpredicate
  have hoperator : c.operator.operator? = some op := by
    unfold Value.toOperator at hop
    split at hop <;> cases hop
    assumption
  refine ⟨op, key, given, operand, hoperator, htarget, hoperand, ?_⟩
  cases hpredicate
  split at h
  · cases h
  · cases h
    rfl

theorem becomes_of_target {op : Operator} {key given operand : Value}
    (hchecked : checkOperand c.operand = .ok ()) (hfield : checkFieldName c.field = .ok ())
    (hop : c.operator.operator? = some op)
    (htarget : b.target c.field c.operator c.operand = .ok (key, given))
    (hoperand : compileOperand op key given = .ok operand) :
    c.Becomes b op operand (key, .map [(.text op.conditionKey, operand)]) := by
  have hmakes := makes_of_compileOperand hoperand
  obtain ⟨rfl, rfl⟩ | ⟨rfl, hpublic, s, id, htext, hid, rfl⟩ := target_eq_ok htarget
  · exact ⟨hop, .inl ⟨rfl, hmakes⟩, allows_of_checkFieldName hfield, rfl,
      hmakes.reservedFree (checkOperand_eq_ok_iff.mp hchecked)⟩
  · exact ⟨hop, .inr ⟨rfl, hpublic, s, id, htext, hid, hmakes⟩, .inl rfl, rfl,
      hmakes.reservedFree (Value.reservedFree_objectId id)⟩

/-- The text of an identifier under the public field names the native key. -/
theorem target_of_ofText? {op : Operator} {field operator : Value} {s : String} {id : ObjectId}
    (hop : operator.operator? = some op) (htext : op.takesText = false)
    (hfield : field.equal b.publicKey = true) (hid : ObjectId.ofText? s = some id) :
    b.target field operator (.text s) = .ok (b.nativeKey, .objectId id) := by
  have hoperator : operator.toOperator = .ok op := by rw [Value.toOperator, hop]
  refine bind_eq_ok_iff.mpr ⟨op, hoperator, ?_⟩
  rw [if_neg (by simp [htext])]
  simp only [hfield, hid]
  rfl

theorem addClause_of_target (conditions : List (Value × Value)) (op : Operator)
    {key given operand : Value}
    (htarget : b.target c.field c.operator c.operand = .ok (key, given))
    (hop : c.operator.operator? = some op) (hoperand : compileOperand op key given = .ok operand)
    (hkey : key.unhashableKind? = none) :
    b.addClause conditions c =
      .ok (store conditions key (.map [(.text op.conditionKey, operand)])) := by
  have hoperator : c.operator.toOperator = .ok op := by rw [Value.toOperator, hop]
  have hpredicate : predicate key c.operator given = .ok (.map [(.text op.conditionKey, operand)]) :=
    bind_eq_ok_iff.mpr ⟨op, hoperator, bind_eq_ok_iff.mpr ⟨operand, hoperand, rfl⟩⟩
  refine bind_eq_ok_iff.mpr ⟨_, htarget, bind_eq_ok_iff.mpr ⟨_, hpredicate, ?_⟩⟩
  rw [hkey]
  rfl

/-- A clause that passes the checks is compiled to the entry of its target. -/
theorem build_of_single (op : Operator) {field operator operand key given compiled : Value}
    (hchecked : checkOperand operand = .ok ()) (hfield : checkFieldName field = .ok ())
    (hop : operator.operator? = some op)
    (htarget : b.target field operator operand = .ok (key, given))
    (hcompiled : compileOperand op key given = .ok compiled)
    (hkey : key.unhashableKind? = none) :
    b.build (.list [.clause field operator operand]) =
      .ok { conditions := .map [(key, .map [(.text op.conditionKey, compiled)])] } := by
  have hchecks : checkClauses [⟨field, operator, operand⟩] = .ok () := by
    have hoperator : checkOperator ⟨field, operator, operand⟩ = .ok () := by
      rw [checkOperator, hop]
    simp only [checkClauses, List.forM, hchecked, hfield, hoperator]
    rfl
  have hadded : [(⟨field, operator, operand⟩ : Clause)].foldlM b.addClause [] =
      .ok [(key, .map [(.text op.conditionKey, compiled)])] :=
    bind_eq_ok_iff.mpr ⟨_, addClause_of_target [] op htarget hop hcompiled hkey, rfl⟩
  have hcompile : b.compile [⟨field, operator, operand⟩] =
      .ok [(key, .map [(.text op.conditionKey, compiled)])] := by
    refine bind_eq_ok_iff.mpr ⟨(), hchecks, ?_⟩
    rw [splitKeyClause]
    split_ifs <;> exact hadded
  exact bind_eq_ok_iff.mpr ⟨_, rfl, bind_eq_ok_iff.mpr ⟨_, rfl,
    bind_eq_ok_iff.mpr ⟨_, hcompile, rfl⟩⟩⟩

theorem mem_splitKeyClause {clauses : List Clause}
    (h : c ∈ (b.splitKeyClause clauses).1.toList ++ (b.splitKeyClause clauses).2) :
    c ∈ clauses := by
  induction clauses with
  | nil => simp [splitKeyClause] at h
  | cons first rest ih =>
      rw [splitKeyClause] at h
      split_ifs at h with hpublic
      · simpa using h
      · simp only [List.mem_append, List.mem_cons] at h ih ⊢
        tauto

theorem checkClauses_eq_ok {clauses : List Clause} (h : checkClauses clauses = .ok ()) :
    ∀ c ∈ clauses, checkOperand c.operand = .ok () ∧ checkFieldName c.field = .ok () := by
  obtain ⟨_, hoperands, h⟩ := bind_eq_ok_iff.mp h
  obtain ⟨_, hfields, h⟩ := bind_eq_ok_iff.mp h
  exact fun c hc => ⟨forM_eq_ok hoperands c hc, forM_eq_ok hfields c hc⟩

/-- Every entry of compiled conditions is what one of the clauses becomes. -/
theorem compile_becomes {clauses : List Clause} {entries : List (Value × Value)}
    (h : b.compile clauses = .ok entries) :
    ∀ entry ∈ entries, ∃ c ∈ clauses, ∃ op operand, c.Becomes b op operand entry := by
  obtain ⟨_, hchecks, h⟩ := bind_eq_ok_iff.mp h
  have hchecks := checkClauses_eq_ok hchecks
  refine foldlM_preserves
    (P := fun entries => ∀ entry ∈ entries, ∃ c ∈ clauses, ∃ op operand,
      c.Becomes b op operand entry)
    (fun c hc before after hbefore hafter => ?_) (by simp) h
  have hc := mem_splitKeyClause hc
  obtain ⟨op, key, given, operand, hop, htarget, hoperand, rfl⟩ := addClause_eq_ok hafter
  have hbecomes := becomes_of_target (hchecks c hc).1 (hchecks c hc).2 hop htarget hoperand
  intro entry hentry
  obtain hold | rfl | ⟨old, hsame, hold, hvalue⟩ := mem_store hentry
  · exact hbefore entry hold
  · exact ⟨c, hc, op, operand, hbecomes⟩
  · -- The key was there: allowed keys are the same only if they are one value.
    obtain ⟨d, -, _, _, hd⟩ := hbefore _ hold
    have hkey := hbecomes.key_allowed.eq_of_isSameKey hd.key_allowed hsame
    have hentry : entry = (key, .map [(.text op.conditionKey, operand)]) := Prod.ext hkey hvalue
    exact ⟨c, hc, op, operand, hentry ▸ hbecomes⟩

end Builder

/-! ### Queries -/

namespace Condition

variable {op : Operator} {given operand : Value} {ref : Reference} {failure : Failure}

theorem kind_of_equals (h : equals ref operand = .error failure) :
    failure.kind = .type ∨ failure.kind = .value := by
  unfold equals at h
  split at h
  · exact Value.kind_of_storedJson (map_eq_error_iff.mp h)
  · exact Value.kind_of_storedJson (map_eq_error_iff.mp h)
  · exact Value.kind_of_storedJson (map_eq_error_iff.mp h)
  · cases h

/-- The operands that an operator makes are of the kind that a query expects for it; only a document
may turn out not to have a written form. -/
theorem kind_of_ofEntry (hmakes : op.Makes given operand)
    (h : ofEntry ref (.text op.conditionKey) operand = .error failure) :
    failure.kind = .type ∨ failure.kind = .value := by
  cases op with
  | eq =>
      have h : equality ref operand = .error failure := h
      unfold equality at h
      split at h
      · cases h
      · exact kind_of_equals h
  | ne =>
      have h : inequality ref operand = .error failure := h
      unfold inequality at h
      split at h
      · cases h
      · exact kind_of_equals (map_eq_error_iff.mp h)
  | lt | lte | gt | gte => cases h
  | isIn | notIn =>
      obtain ⟨items, -, rfl⟩ := hmakes
      cases h
  | like | notLike =>
      obtain ⟨s, -, rfl⟩ := hmakes
      cases h

/-- A predicate with the condition key of one operator is read as that operator. -/
theorem ofField_conditionKey (columns : Columns) (field : Value) (op : Operator) (operand : Value) :
    ofField columns field (.map [(.text op.conditionKey, operand)]) =
      (ofEntryOn columns field (.text op.conditionKey) operand).map fun term => .all [term] := by
  simp only [ofField, isPredicate_conditionKey, List.mapM_cons, List.mapM_nil]
  show Except.map all _ = _
  cases ofEntryOn columns field (.text op.conditionKey) operand <;> rfl

/-- Where a reference cannot be made, that is for a text that cannot be made. -/
theorem ofText_of_checkReference {columns : Columns} {field : Value}
    (h : checkReference columns field = .error failure) : failure.OfText := by
  unfold checkReference at h
  split_ifs at h
  · exact Value.ofText_of_shown (map_eq_error_iff.mp h)
  · obtain h | ⟨_, _, h⟩ := bind_eq_error_iff.mp h
    · exact Value.ofText_of_shown h
    · exact Value.ofText_of_shown (map_eq_error_iff.mp h)

/-- How a predicate fails that an operator made: its field or its operand cannot be written. -/
theorem kind_of_ofEntryOn {columns : Columns} {field : Value} (hmakes : op.Makes given operand)
    (h : ofEntryOn columns field (.text op.conditionKey) operand = .error failure) :
    failure.kind ≠ .unsupportedOperator := by
  have hentry (h : ofEntry (referenceOf columns field) (.text op.conditionKey) operand =
      .error failure) : failure.kind ≠ .unsupportedOperator := by
    obtain hkind | hkind := kind_of_ofEntry hmakes h <;> simp [hkind]
  unfold ofEntryOn at h
  split_ifs at h
  · obtain h | ⟨_, _, h⟩ := bind_eq_error_iff.mp h
    · obtain hkind | hkind := (ofText_of_checkReference h).kind_eq <;> simp [hkind]
    · exact hentry h
  · exact hentry h

end Condition

open Condition in
/-- Each entry of the conditions that a request is compiled to is what one of its clauses becomes,
and a query reads it as the operator of that clause; no key of the conditions is an unknown
operator. -/
theorem Builder.build_admits_no_operators {b : Builder} {filters : Value} {e : Expression}
    (h : b.build filters = .ok e) :
    ∃ items clauses entries, filters.elements = .ok items ∧
      items.mapM Clause.ofValue = .ok clauses ∧ e.conditions = .map entries ∧
      (∀ entry ∈ entries, ∃ c ∈ clauses, ∃ op operand, c.Becomes b op operand entry ∧
        ∀ columns, ofField columns entry.1 entry.2 =
          (ofEntryOn columns entry.1 (.text op.conditionKey) operand).map
            fun term => .all [term]) ∧
      ∀ columns failure, Condition.ofValue columns e.conditions = .error failure →
        failure.kind ≠ .unsupportedOperator := by
  obtain ⟨items, hitems, h⟩ := bind_eq_ok_iff.mp h
  obtain ⟨clauses, hclauses, h⟩ := bind_eq_ok_iff.mp h
  obtain ⟨entries, hentries, h⟩ := bind_eq_ok_iff.mp h
  cases h
  have hbecomes := compile_becomes hentries
  refine ⟨items, clauses, entries, hitems, hclauses, rfl, ?_, ?_⟩
  · intro entry hentry
    obtain ⟨c, hc, op, operand, hc'⟩ := hbecomes entry hentry
    refine ⟨c, hc, op, operand, hc', fun columns => ?_⟩
    rw [hc'.predicate_eq, ofField_conditionKey]
  · intro columns failure hfailure
    unfold Condition.ofValue at hfailure
    split at hfailure
    · obtain ⟨entry, hentry, hfailure⟩ := mapM_eq_error hfailure
      obtain ⟨c, -, op, operand, hc⟩ := hbecomes entry hentry
      have hfailure : ofField columns entry.1 entry.2 = .error failure := hfailure
      rw [hc.predicate_eq, ofField_conditionKey] at hfailure
      have hmakes : ∃ given, op.Makes given operand := by
        obtain ⟨-, hmakes⟩ | ⟨-, -, s, id, -, -, hmakes⟩ := hc.origin
        · exact ⟨_, hmakes⟩
        · exact ⟨_, hmakes⟩
      obtain ⟨given, hmakes⟩ := hmakes
      exact kind_of_ofEntryOn hmakes (map_eq_error_iff.mp hfailure)
    · cases hfailure

open Builder ContainerGraph Container Value in
/-- A mapping inside a list inside a mapping, the text of an identifier, and a text with the
reserved sign: none of them becomes an operator. -/
theorem Builder.build_admits_no_operators_nested :
    let nested : Value := .map [(.text "a", .list [.map [(.text "b", .text "$gt")]])]
    let clauses : List Clause := [⟨.text "tag", .text "=", nested⟩,
      ⟨.text "id", .text "!=", .text "0123456789ABCDEF01234567"⟩,
      ⟨.text "name", .operator .notLike, .text "$x"⟩]
    let id : ObjectId := ⟨[0x01, 0x23, 0x45, 0x67, 0x89, 0xab, 0xcd, 0xef, 0x01, 0x23, 0x45, 0x67],
      rfl⟩
    let entries : List (Value × Value) := [
      (.text "_id", .map [(.text "$ne", .objectId id)]),
      (.text "tag", .map [(.text "$eq", nested)]),
      (.text "name", .map [(.text "$not", .pattern ⟨"\\$x", true⟩)])]
    ({} : Builder).build (.list (clauses.map Clause.toValue)) = .ok { conditions := .map entries } ∧
      ∀ columns failure, Condition.ofValue columns (.map entries) = .error failure →
        failure.kind ≠ .unsupportedOperator := by
  intro nested clauses id entries
  have hchecks : checkClauses clauses = .ok () := by
    have hnested : checkOperand nested = .ok () := by
      have ha : isReservedKey "a" = false := by decide
      have hb : isReservedKey "b" = false := by decide
      simp [nested, checkOperand, Value.refusal?, addTo, addItemsTo, addEntriesTo, refusalFrom?,
        scan, Container.refusal?, refusedKey?, Placement.lasting, keys, children, ha, hb]
    simp only [clauses, checkClauses, List.forM, hnested]
    rfl
  have hsplit : ({} : Builder).splitKeyClause clauses =
      (some ⟨.text "id", .text "!=", .text "0123456789ABCDEF01234567"⟩,
        [⟨.text "tag", .text "=", nested⟩, ⟨.text "name", .operator .notLike, .text "$x"⟩]) := by
    simp [clauses, splitKeyClause]
  have hid : ({} : Builder).addClause [] ⟨.text "id", .text "!=", .text "0123456789ABCDEF01234567"⟩ =
      .ok [(.text "_id", .map [(.text "$ne", .objectId id)])] :=
    addClause_of_target [] .ne (target_of_ofText? rfl rfl (by simp) rfl) rfl rfl
      (unhashableKind?_text _)
  have htag (conditions : List (Value × Value)) :
      ({} : Builder).addClause conditions ⟨.text "tag", .text "=", nested⟩ =
        .ok (store conditions (.text "tag") (.map [(.text "$eq", nested)])) :=
    addClause_of_target conditions .eq rfl rfl rfl (unhashableKind?_text _)
  have hname (conditions : List (Value × Value)) :
      ({} : Builder).addClause conditions ⟨.text "name", .operator .notLike, .text "$x"⟩ =
        .ok (store conditions (.text "name")
          (.map [(.text "$not", .pattern ⟨"\\$x", true⟩)])) :=
    addClause_of_target conditions .notLike rfl rfl rfl (unhashableKind?_text _)
  have hcompile : ({} : Builder).compile clauses = .ok entries := by
    refine bind_eq_ok_iff.mpr ⟨(), hchecks, ?_⟩
    rw [hsplit]
    refine bind_eq_ok_iff.mpr ⟨_, hid, bind_eq_ok_iff.mpr ⟨_, htag _,
      bind_eq_ok_iff.mpr ⟨_, hname _, ?_⟩⟩⟩
    simp [store, isSameKey, entries]
  have hbuild : ({} : Builder).build (.list (clauses.map Clause.toValue)) =
      .ok { conditions := .map entries } :=
    bind_eq_ok_iff.mpr ⟨_, rfl, bind_eq_ok_iff.mpr ⟨clauses, rfl,
      bind_eq_ok_iff.mpr ⟨entries, hcompile, rfl⟩⟩⟩
  obtain ⟨_, _, _, _, _, _, _, hquery⟩ := build_admits_no_operators hbuild
  exact ⟨hbuild, hquery⟩

/-- Only collections and mappings are looked into: a clause that is given as an operand passes with
the reserved keys that are in it. -/
theorem Builder.build_admits_reserved_in_clause :
    let hidden : Value := .clause (.text "x") (.text "=") (.map [(.text "$where", .int 1)])
    ({} : Builder).build (.list [.clause (.text "a") (.text "=") hidden]) =
        .ok { conditions := .map [(.text "a", .map [(.text "$eq", hidden)])] } ∧
      isReservedKey "$where" = true :=
  ⟨build_of_single .eq rfl rfl rfl rfl rfl (Value.unhashableKind?_text "a"), by decide⟩

end DocFilter
