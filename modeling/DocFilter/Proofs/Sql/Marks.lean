import DocFilter.Proofs.Sql.Translating
import Mathlib.Algebra.GroupWithZero.Nat

/-!
The text of a statement and the data of a request.

Two properties keep them apart. The text depends on the *shape* of conditions only: on their
operators, on which fields are the key column, on the kinds of the operands and the lengths of
lists. So two conditions of one shape have the same text, whatever their fields, values and patterns
are. And the text has a question mark for each parameter, no more and no fewer, if the column names
have none of their own. The first is shown along the translation, one lemma for each of its
functions; the second by induction on the condition, whatever it was translated from.
-/

namespace DocFilter

open Outcome

/-! ### Shapes -/

def Value.itemCount? (v : Value) : Option Nat := v.elements?.map List.length

/-- Two entries of predicates have the same key and operands of the same kind; for memberships they
are of the same length. -/
structure SameEntry (p q : Value × Value) : Prop where
  key_eq : p.1 = q.1
  kind_eq : p.2.operandKind = q.2.operandKind
  count_eq : p.1 = .text "$in" ∨ p.1 = .text "$nin" → p.2.itemCount? = q.2.itemCount?

/-- Two values under a field have the same shape: both are compared for equality and are of one
kind, or both are predicates with entries of the same shape. -/
inductive SameShape (v w : Value) : Prop
  | equality (hv : v.predicate? = none) (hw : w.predicate? = none)
      (hkind : v.operandKind = w.operandKind)
  | predicate {entries others : List (Value × Value)} (hv : v.predicate? = some entries)
      (hw : w.predicate? = some others) (h : List.Forall₂ SameEntry entries others)

/-- Two lists of conditions have the same shape, place by place. -/
def SameConditions (columns : Columns) : List (Value × Value) → List (Value × Value) → Prop :=
  List.Forall₂ fun p q => p.1.equal columns.key = q.1.equal columns.key ∧ SameShape p.2 q.2

/-! ### Conditions of one shape -/

namespace Condition

variable {columns : Columns} {ref ref' : Reference} {v w : Value} {c d : Condition}

theorem sql_referenceOf {field field' : Value}
    (h : field.equal columns.key = field'.equal columns.key) :
    (referenceOf columns field).sql columns = (referenceOf columns field').sql columns := by
  rw [referenceOf, referenceOf, h]
  split_ifs
  · rfl
  · rfl

section

variable (href : ref.sql columns = ref'.sql columns)

include href

theorem sql_equality (hkind : v.operandKind = w.operandKind) (hv : equality ref v = .ok c)
    (hw : equality ref' w = .ok d) : c.sql columns = d.sql columns := by
  obtain ⟨hkv, rfl⟩ | ⟨hkv, _, -, rfl⟩ | ⟨hkv, rfl⟩ := equality_eq_ok hv
  all_goals
    obtain ⟨hkw, rfl⟩ | ⟨hkw, _, -, rfl⟩ | ⟨hkw, rfl⟩ := equality_eq_ok hw
    -- Only the pairs of one kind are left.
    all_goals cases hkv.symm.trans (hkind.trans hkw)
    all_goals simp only [sql, href]

theorem sql_inequality (hkind : v.operandKind = w.operandKind) (hv : inequality ref v = .ok c)
    (hw : inequality ref' w = .ok d) : c.sql columns = d.sql columns := by
  obtain ⟨hkv, rfl⟩ | ⟨hkv, _, -, rfl⟩ | ⟨hkv, rfl⟩ := inequality_eq_ok hv
  all_goals
    obtain ⟨hkw, rfl⟩ | ⟨hkw, _, -, rfl⟩ | ⟨hkw, rfl⟩ := inequality_eq_ok hw
    -- Only the pairs of one kind are left.
    all_goals cases hkv.symm.trans (hkind.trans hkw)
    all_goals simp only [sql, href]

end

theorem marks_eq_of_itemCount? {items others : List Value} (hcount : v.itemCount? = w.itemCount?)
    (hv : v.elements = .ok items) (hw : w.elements = .ok others) :
    items.isEmpty = others.isEmpty ∧
      marks (items.map sqlOperand) = marks (others.map sqlOperand) := by
  rw [Value.itemCount?, Value.itemCount?, Value.elements_eq_ok hv, Value.elements_eq_ok hw] at hcount
  have hlength : items.length = others.length := Option.some.inj hcount
  constructor
  · rw [Bool.eq_iff_iff, List.isEmpty_iff_length_eq_zero, List.isEmpty_iff_length_eq_zero, hlength]
  · rw [marks, marks, List.map_const', List.map_const', List.length_map, List.length_map, hlength]

theorem sql_ofItems {empty : Condition} (among : Reference → List Value → Condition)
    (hamong : ∀ params others, marks params = marks others →
      (among ref params).sql columns = (among ref' others).sql columns)
    (hcount : v.itemCount? = w.itemCount?)
    (hv : (v.elements.map fun items =>
      if items.isEmpty then empty else among ref (items.map sqlOperand)) = .ok c)
    (hw : (w.elements.map fun items =>
      if items.isEmpty then empty else among ref' (items.map sqlOperand)) = .ok d) :
    c.sql columns = d.sql columns := by
  obtain ⟨items, hitems, rfl⟩ := map_eq_ok_iff.mp hv
  obtain ⟨others, hothers, rfl⟩ := map_eq_ok_iff.mp hw
  obtain ⟨hempty, hmarks⟩ := marks_eq_of_itemCount? hcount hitems hothers
  rw [hempty]
  split_ifs
  · rfl
  · exact hamong _ _ hmarks

theorem sql_membership (href : ref.sql columns = ref'.sql columns)
    (hcount : v.itemCount? = w.itemCount?) (hv : membership ref v = .ok c)
    (hw : membership ref' w = .ok d) : c.sql columns = d.sql columns :=
  sql_ofItems oneOf (fun params others hmarks => by simp only [sql, href, hmarks]) hcount hv hw

theorem sql_nonMembership (href : ref.sql columns = ref'.sql columns)
    (hcount : v.itemCount? = w.itemCount?) (hv : nonMembership ref v = .ok c)
    (hw : nonMembership ref' w = .ok d) : c.sql columns = d.sql columns :=
  sql_ofItems (fun ref params => nullOr ref (noneOf ref params))
    (fun params others hmarks => by simp only [sql, href, hmarks]) hcount hv hw

theorem sql_search {key : String} (href : ref.sql columns = ref'.sql columns)
    (hv : search ref key v = .ok c) (hw : search ref' key w = .ok d) :
    c.sql columns = d.sql columns := by
  obtain ⟨_, rfl⟩ := search_eq_ok hv
  obtain ⟨_, rfl⟩ := search_eq_ok hw
  simp only [sql, href]

theorem sql_ofEntry {p q : Value × Value} (href : ref.sql columns = ref'.sql columns)
    (h : SameEntry p q) (hp : ofEntry ref p.1 p.2 = .ok c) (hq : ofEntry ref' q.1 q.2 = .ok d) :
    c.sql columns = d.sql columns := by
  obtain ⟨key, v⟩ := p
  obtain ⟨key', w⟩ := q
  obtain ⟨rfl, hkind, hcount⟩ := h
  obtain ⟨op, rfl⟩ := key_of_ofEntry hp
  cases op with
  | eq => exact sql_equality href hkind hp hq
  | ne => exact sql_inequality href hkind hp hq
  | lt | lte | gt | gte =>
      cases hp
      cases hq
      simp only [sql, href]
  | isIn => exact sql_membership href (hcount (.inl rfl)) hp hq
  | notIn => exact sql_nonMembership href (hcount (.inr rfl)) hp hq
  | like => exact sql_search href hp hq
  | notLike =>
      obtain ⟨found, hfound, rfl⟩ := map_eq_ok_iff.mp hp
      obtain ⟨found', hfound', rfl⟩ := map_eq_ok_iff.mp hq
      rw [sql, sql, sql_search href hfound hfound']

/-- Two lists that are translated item by item, where related items have one text. -/
theorem sqlList_eq_of_forall₂ {α : Type} {R : α → α → Prop}
    {translate translate' : α → Except Failure Condition} {l l' : List α}
    {terms terms' : List Condition} (hrelated : List.Forall₂ R l l')
    (hterms : List.Forall₂ (fun a c => translate a = .ok c) l terms)
    (hterms' : List.Forall₂ (fun a c => translate' a = .ok c) l' terms')
    (hsql : ∀ a b c d, R a b → translate a = .ok c → translate' b = .ok d →
      c.sql columns = d.sql columns) : sqlList columns terms = sqlList columns terms' := by
  induction hrelated generalizing terms terms' with
  | nil =>
      cases hterms
      cases hterms'
      rfl
  | cons hab _ ih =>
      obtain ⟨c, rest, hc, hrest, rfl⟩ := List.forall₂_cons_left_iff.mp hterms
      obtain ⟨d, rest', hd, hrest', rfl⟩ := List.forall₂_cons_left_iff.mp hterms'
      rw [sqlList, sqlList, hsql _ _ c d hab hc hd, ih hrest hrest']

theorem sql_ofField {p q : Value × Value}
    (hkey : p.1.equal columns.key = q.1.equal columns.key) (hshape : SameShape p.2 q.2)
    (hp : ofField columns p.1 p.2 = .ok c) (hq : ofField columns q.1 q.2 = .ok d) :
    c.sql columns = d.sql columns := by
  have href := sql_referenceOf hkey
  cases hshape with
  | equality hv hw hkind =>
      obtain ⟨-, hp⟩ | ⟨_, _, hsome, -⟩ := ofField_eq_ok hp
      · obtain ⟨-, hq⟩ | ⟨_, _, hsome, -⟩ := ofField_eq_ok hq
        · exact sql_equality href hkind hp hq
        · cases hw.symm.trans hsome
      · cases hv.symm.trans hsome
  | predicate hv hw hentries =>
      obtain ⟨hnone, -⟩ | ⟨entries, terms, hsome, rfl, hterms⟩ := ofField_eq_ok hp
      · cases hv.symm.trans hnone
      · obtain ⟨hnone, -⟩ | ⟨others, terms', hsome', rfl, hterms'⟩ := ofField_eq_ok hq
        · cases hw.symm.trans hnone
        · cases hv.symm.trans hsome
          cases hw.symm.trans hsome'
          rw [sql, sql, sqlList_eq_of_forall₂ hentries hterms hterms'
            fun _ _ _ _ => sql_ofEntry href]

theorem whereText_eq_of_sqlList {terms terms' : List Condition}
    (h : sqlList columns terms = sqlList columns terms') :
    whereText columns terms = whereText columns terms' := by
  cases terms with
  | nil =>
      cases terms' with
      | nil => rfl
      | cons _ _ => cases h
  | cons _ _ =>
      cases terms' with
      | nil => cases h
      | cons _ _ => rw [whereText, whereText, h] <;> exact List.cons_ne_nil _ _

/-! ### Counting marks -/

def markCount (s : String) : Nat := s.toList.count '?'

@[simp] theorem markCount_append (s t : String) :
    markCount (s ++ t) = markCount s + markCount t := by
  rw [markCount, String.toList_append, List.count_append]
  rfl

/-- Joined texts have the marks of the texts, if what joins them has none. -/
theorem markCount_intercalate {separator : String} (h : markCount separator = 0)
    (texts : List String) :
    markCount (separator.intercalate texts) = (texts.map markCount).sum := by
  rw [markCount] at h
  rw [markCount, String.toList_intercalate]
  induction texts with
  | nil => rfl
  | cons s rest ih =>
      cases rest with
      | nil => simp [markCount]
      | cons t rest =>
          rw [List.map_cons, List.map_cons, List.intercalate_cons_cons, List.count_append,
            List.count_append, h, ← List.map_cons, ih, List.map_cons, List.sum_cons]
          rfl

theorem markCount_marks (operands : List Value) : markCount (marks operands) = operands.length := by
  have hmark : markCount "?" = 1 := by decide
  rw [marks, markCount_intercalate (by decide), List.map_map]
  simp [Function.comp_def, hmark]

/-- The column names have no marks of their own. -/
def Unmarked (columns : Columns) : Prop :=
  markCount columns.key.display = 0 ∧ markCount columns.document.display = 0

theorem markCount_reference (h : Unmarked columns) (ref : Reference) :
    markCount (ref.sql columns) = ref.params.length := by
  cases ref with
  | key => exact h.1
  | path _ =>
      rw [Reference.sql, markCount_append, markCount_append, h.2]
      rfl

mutual

theorem markCount_sql (h : Unmarked columns) :
    (c : Condition) → markCount (c.sql columns) = c.params.length
  | always | never => by simp [sql, params, markCount]
  | isNull ref | isNotNull ref => by
      simp only [sql, params, markCount_append, markCount_reference h ref]
      simp [markCount]
  | compare ref relation operand => by
      -- Neither the sign nor the names of columns hold marks, so those of the operands remain.
      have hsign : markCount relation.sign = 0 := by cases relation <;> decide
      simp only [sql, params, markCount_append, markCount_reference h ref, hsign,
        List.length_append]
      simp [markCount]
  | sameJson ref json => by
      simp only [sql, params, markCount_append, markCount_reference h ref,
        List.length_append]
      simp [markCount]
  | oneOf ref operands | noneOf ref operands => by
      simp only [sql, params, markCount_append, markCount_reference h ref,
        markCount_marks, List.length_append]
      simp [markCount]
  | finds ref pattern => by
      simp only [sql, params, markCount_append, markCount_reference h ref,
        List.length_append]
      simp [markCount]
  | not c => by
      simp only [sql, params, markCount_append, markCount_sql h c]
      simp [markCount]
  | nullOr ref c => by
      simp only [sql, params, markCount_append, markCount_reference h ref,
        markCount_sql h c, List.length_append]
      simp [markCount]
  | all conditions => by
      have hjoin : markCount " AND " = 0 := by decide
      simp only [sql, params, markCount_append, markCount_intercalate hjoin,
        sum_markCount_sqlList h conditions]
      simp [markCount]

theorem sum_markCount_sqlList (h : Unmarked columns) :
    (conditions : List Condition) →
      ((sqlList columns conditions).map markCount).sum = (paramsList conditions).length
  | [] => rfl
  | c :: rest => by
      rw [sqlList, paramsList, List.map_cons, List.sum_cons, List.length_append, markCount_sql h c,
        sum_markCount_sqlList h rest]

end

theorem markCount_whereText (h : Unmarked columns) (conditions : List Condition) :
    markCount (whereText columns conditions) = (paramsList conditions).length := by
  cases conditions with
  | nil => simp [whereText, paramsList, markCount]
  | cons c rest =>
      rw [whereText, markCount_intercalate (by decide), sum_markCount_sqlList h]
      exact List.cons_ne_nil _ _

end Condition

open Condition in
/-- Data stays out of the text of a statement: conditions of one shape have one text, and each mark
in a text is there for one parameter. -/
theorem Condition.text_free_of_data {columns : Columns} (hkey : '?' ∉ columns.key.display.toList)
    (hdocument : '?' ∉ columns.document.display.toList) :
    (∀ conditions others terms terms', SameConditions columns conditions others →
      ofValue columns (.map conditions) = .ok terms →
      ofValue columns (.map others) = .ok terms' →
      whereText columns terms = whereText columns terms') ∧
    ∀ conditions terms, ofValue columns conditions = .ok terms →
      (whereText columns terms).toList.count '?' = (paramsList terms).length := by
  have hunmarked : Unmarked columns :=
    ⟨List.count_eq_zero.mpr hkey, List.count_eq_zero.mpr hdocument⟩
  refine ⟨fun conditions others terms terms' hsame hterms hterms' => ?_,
    fun _ terms _ => markCount_whereText hunmarked terms⟩
  rw [ofValue_map] at hterms hterms'
  apply whereText_eq_of_sqlList
  exact sqlList_eq_of_forall₂ hsame (mapM_eq_ok_iff.mp hterms) (mapM_eq_ok_iff.mp hterms')
    fun _ _ _ _ h => sql_ofField h.1 h.2

open Condition in
/-- A key, a membership of two items with a bound, and a document: other fields and values, and
marks among them, leave the text as it is. -/
theorem Condition.text_free_of_data_marks :
    let conditions : List (Value × Value) := [
      (.text "_id", .map [(.text "$ne", .text "a")]),
      (.text "n", .map [(.text "$in", .list [.int 1, .int 2]), (.text "$gt", .null)]),
      (.text "tags", .list [.bool true])]
    let others : List (Value × Value) := [
      (.text "_id", .map [(.text "$ne", .int 7)]),
      (.text "?", .map [(.text "$in", .list [.text "?", .null]), (.text "$gt", .null)]),
      (.text "x", .map [(.text "y?", .text "z?")])]
    ∃ terms terms', ofValue {} (.map conditions) = .ok terms ∧ ofValue {} (.map others) = .ok terms' ∧
      whereText {} terms = whereText {} terms' ∧
      (whereText {} terms).toList.count '?' = (paramsList terms).length := by
  intro conditions others
  have hkey : '?' ∉ ({} : Columns).key.display.toList := by decide
  have hdocument : '?' ∉ ({} : Columns).document.display.toList := by decide
  obtain ⟨htext, hcount⟩ := text_free_of_data hkey hdocument
  have hsame : SameConditions {} conditions others := by
    refine .cons ⟨rfl, .predicate rfl rfl (.cons ⟨rfl, rfl, by simp⟩ .nil)⟩ (.cons ⟨by simp,
      .predicate rfl rfl (.cons ⟨rfl, rfl, fun _ => rfl⟩ (.cons ⟨rfl, rfl, fun _ => rfl⟩ .nil))⟩
      (.cons ⟨by simp, .equality rfl rfl rfl⟩ .nil))
  obtain ⟨terms, hterms⟩ : ∃ terms, ofValue {} (.map conditions) = .ok terms :=
    ⟨_, eq_ok_of_isOk [] (by decide +kernel)⟩
  obtain ⟨terms', hterms'⟩ : ∃ terms, ofValue {} (.map others) = .ok terms :=
    ⟨_, eq_ok_of_isOk [] (by decide +kernel)⟩
  exact ⟨terms, terms', hterms, hterms', htext conditions others terms terms' hsame hterms hterms',
    hcount (.map conditions) terms hterms⟩

end DocFilter
