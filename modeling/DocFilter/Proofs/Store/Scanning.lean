import DocFilter.Proofs.Sql.Fields
import DocFilter.Proofs.Store.Lookups
import DocFilter.Proofs.Store.Memberships

/-!
Queries and counts that demand one thing of one field.

Where the demand is not about one key, its condition is evaluated for every row of the table. So the
query yields exactly the rows of which the condition is true, and the count is their number, if the
condition can be evaluated for each row (`answers_of_evaluates`). One row for which it cannot makes
both fail, however many others there are (`fails_of_fault`).

A table that is there has a name with which statements can be read, because only such names get into
a database (`Reachable.checkWord`).
-/

namespace DocFilter

open Outcome

/-- The conditions that demand one thing of one field. -/
def Operator.demand (op : Operator) (field operand : Value) : Value :=
  .map [(field, .map [(.text op.conditionKey, operand)])]

theorem Operator.ofValue_demand {op : Operator} {field operand : Value} {c : Condition}
    (hentry : Condition.ofEntryOn Cursor.columns field (.text op.conditionKey) operand = .ok c) :
    Condition.ofValue Cursor.columns (op.demand field operand) = .ok [.all [c]] := by
  rw [demand, Condition.ofValue_map, mapM_eq_ok_iff]
  refine .cons ?_ .nil
  show Condition.ofField Cursor.columns field (.map [(.text op.conditionKey, operand)]) = _
  rw [Condition.ofField_conditionKey, hentry]
  rfl

/-! ### Names of tables -/

/-- Every table has a name with which a statement can be read. -/
def Database.IsNamed (db : Database) : Prop := ∀ table ∈ db.tables, table.name.isReserved = false

namespace Database

variable {db db' : Database} {name : TableName}

theorem IsNamed.checkWord (h : db.IsNamed) (hthere : (db.find? name).isSome) :
    name.checkWord = .ok () := by
  obtain ⟨table, htable⟩ := Option.isSome_iff_exists.mp hthere
  have hfolded : table.name.folded = name.folded := by simpa using List.find?_some htable
  have hreserved : name.isReserved = false := by
    have hname := h table (List.mem_of_find?_eq_some htable)
    rwa [TableName.isReserved, hfolded] at hname
  rw [TableName.checkWord, if_neg (by simp [hreserved])]

theorem IsNamed.create (h : db.IsNamed) (hmade : db.create name = .ok db') : db'.IsNamed := by
  obtain ⟨_, hcreation, hmade⟩ := bind_eq_ok_iff.mp hmade
  have hreserved : name.isReserved = false := by
    unfold TableName.checkCreation at hcreation
    split_ifs at hcreation with hreserved
    simpa using hreserved
  split at hmade
  · cases hmade
    exact h
  · cases hmade
    intro table htable
    obtain htable | htable := List.mem_append.mp htable
    · exact h table htable
    · obtain rfl := List.mem_singleton.mp htable
      exact hreserved

theorem IsNamed.setRows (h : db.IsNamed) (name : TableName) (rows : List Row) :
    (db.setRows name rows).IsNamed := by
  intro table htable
  obtain ⟨old, hold, rfl⟩ := List.mem_map.mp htable
  split_ifs
  · exact h old hold
  · exact h old hold

end Database

namespace Store

variable {s : Store} {name : TableName} {table : Table}

theorem isNamed_perform (hfile : s.location = .file) (hnamed : s.database.IsNamed)
    (name : TableName) (step : Step) : (s.perform name step).2.database.IsNamed := by
  cases step with
  | create =>
      have hopened : s.opened = .ok s.database := by rw [opened, hfile]
      simp only [perform, createTable, hopened]
      split
      · exact hnamed
      · rename_i db hdb
        rw [keep_of_isFile hfile]
        exact hnamed.create hdb
  | insert documents =>
      rcases hinsert : s.insert name documents with ⟨result, s'⟩
      simp only [perform, hinsert]
      cases result with
      | error failure =>
          rw [insert_eq_error hfile hinsert]
          exact hnamed
      | ok keys =>
          obtain ⟨_, found, _, c, -, -, -, hc, rfl⟩ := insert_eq_ok hfile hinsert
          have hadded := Connection.insertEach_preserves (c := .ofDatabase s.database)
            (fun _ rows hnamed => hnamed.setRows name rows) hnamed (found.map (·.row))
          rwa [Connection.insertRows_eq_ok hc] at hadded
  | count | find | fetch => exact hnamed

theorem isNamed_run (hfile : s.location = .file) (hnamed : s.database.IsNamed)
    (session : List (TableName × Step)) : (s.run session).2.database.IsNamed := by
  induction session generalizing s with
  | nil => exact hnamed
  | cons head rest ih =>
      obtain ⟨other, step⟩ := head
      rw [run_cons]
      exact ih (rows_perform hfile other step).1 (isNamed_perform hfile hnamed other step)

theorem Reachable.checkWord (h : s.Reachable) (hthere : (s.database.find? name).isSome) :
    name.checkWord = .ok () := by
  obtain ⟨issued, session, rfl⟩ := h
  have hnamed : ({ issued } : Store).database.IsNamed := fun table htable =>
    absurd htable List.not_mem_nil
  exact (isNamed_run rfl hnamed session).checkWord hthere

end Store

/-! ### Conditions of statements -/

/-- A statement of the condition alone can be run, and is not about one key. -/
structure Condition.Runs (c : Condition) : Prop where
  no_key : c.keyEquality? = none
  /-- What does not depend on the row cannot fail. -/
  constant : c.isConstant = true → ∀ read, ∃ truth, c.eval read = .ok truth
  shallow : Condition.checkDepth [.all [c]] = .ok ()
  bindable : ∀ v ∈ c.params, ∀ position, Scalar.checkBinding position v = .ok ()

theorem Scalar.checkBindings_of_forall {params : List Value}
    (h : ∀ v ∈ params, ∀ position, checkBinding position v = .ok ()) (position : Nat) :
    checkBindings position params = .ok () := by
  induction params generalizing position with
  | nil => rfl
  | cons v rest ih =>
      obtain ⟨hv, hrest⟩ := List.forall_mem_cons.mp h
      exact bind_eq_ok_iff.mpr ⟨(), hv position, ih hrest (position + 1)⟩

namespace Condition

variable {c : Condition} {tests : List Condition} {read : Reading} {fault : StoreFault}

theorem evalAll_of_fault (htests : ∀ d, d ∈ tests ↔ d ∈ [c]) (h : c.eval read = .error fault) :
    evalAll read tests = .error fault := by
  cases tests with
  | nil => simpa using htests c
  | cons first rest =>
      obtain rfl : first = c := by simpa using (htests first).mp List.mem_cons_self
      rw [evalAll, h]
      rfl

theorem evalAll_of_evaluates (htests : ∀ d, d ∈ tests ↔ d ∈ [c])
    (h : ∃ truth, c.eval read = .ok truth) : ∃ holds, evalAll read tests = .ok holds := by
  refine evalAll_of_eval fun d hd => ?_
  obtain rfl : d = c := by simpa using (htests d).mp hd
  exact h

end Condition

/-! ### Visits -/

namespace Selection

open Condition

variable {c : Condition} {plan : Plan} {rows : List Row} {fault : StoreFault}

/-- A visit that does not stop early fails as the tests of one row do, if those of the others fail
in the same way or not at all. -/
theorem scan_of_fault {tests : List Condition} {visits : List (Row × Nat)}
    (h : ∀ p ∈ visits, evalAll p.1.read tests = .error fault ∨
      ∃ holds, evalAll p.1.read tests = .ok holds)
    (hfault : ∃ p ∈ visits, evalAll p.1.read tests = .error fault) :
    scan tests [] none visits = .error fault := by
  induction visits with
  | nil => simp at hfault
  | cons p rest ih =>
      obtain ⟨hp, hrest⟩ := List.forall_mem_cons.mp h
      rw [scan.eq_3 _ _ _ _ _ _ (by simp)]
      obtain hp | ⟨holds, hholds⟩ := hp
      · rw [hp]
        rfl
      · have hlater : ∃ p ∈ rest, evalAll p.1.read tests = .error fault := by
          obtain ⟨q, hq, hqfault⟩ := hfault
          obtain rfl | hq := List.mem_cons.mp hq
          · cases hholds.symm.trans hqfault
          · exact ⟨q, hq, hqfault⟩
        have hrest := ih hrest hlater
        rw [hholds]
        cases holds with
        | false => exact hrest
        | true =>
            refine bind_eq_error_iff.mpr (.inr ⟨true, rfl, ?_⟩)
            refine bind_eq_error_iff.mpr (.inr ⟨[], rfl, ?_⟩)
            exact bind_eq_error_iff.mpr (.inl hrest)

/-- A plan for one condition comes to its end if the condition can be evaluated for every row. -/
theorem explore_of_evaluates (hc : c.Runs) (hearly : plan.early = [c].filter isConstant)
    (htests : ∀ d, d ∈ plan.tests ↔ d ∈ [c])
    (heval : ∀ row ∈ rows, ∃ truth, c.eval row.read = .ok truth) :
    ∃ found, explore plan [] none rows = .ok found := by
  have hbefore : ∃ holds, evalAll (Reading.ofKey plan.key) plan.early = .ok holds := by
    refine evalAll_of_eval fun d hd => ?_
    obtain ⟨hd, hconstant⟩ := List.mem_filter.mp (hearly ▸ hd)
    obtain rfl := List.mem_singleton.mp hd
    exact hc.constant hconstant _
  have hvisits : ∀ p ∈ plan.visited rows, ∃ holds, evalAll p.1.read plan.tests = .ok holds := by
    intro p hp
    have hrow : p.1 ∈ rows := by
      obtain ⟨row, place⟩ := p
      have hmem := (plan.visited_perm rows).mem_iff.mp hp
      exact List.mem_of_getElem? (List.mk_mem_zipIdx_iff_getElem?.mp hmem)
    exact evalAll_of_evaluates htests (heval p.1 hrow)
  obtain ⟨holds, hholds⟩ := hbefore
  obtain ⟨found, hfound⟩ := scan_of_evaluates hvisits none
  cases holds with
  | true => exact ⟨found, bind_eq_ok_iff.mpr ⟨true, hholds, hfound⟩⟩
  | false => exact ⟨[], bind_eq_ok_iff.mpr ⟨false, hholds, rfl⟩⟩

theorem explore_of_fault (hc : c.Runs) (hearly : plan.early = [c].filter isConstant)
    (htests : ∀ d, d ∈ plan.tests ↔ d ∈ [c])
    (h : ∀ row ∈ rows, c.eval row.read = .error fault ∨ ∃ truth, c.eval row.read = .ok truth)
    (hfault : ∃ row ∈ rows, c.eval row.read = .error fault) :
    explore plan [] none rows = .error fault := by
  have hreads : c.isConstant = false := by
    obtain ⟨row, -, hrow⟩ := hfault
    refine Bool.eq_false_iff.mpr fun hconstant => ?_
    obtain ⟨truth, htruth⟩ := hc.constant hconstant row.read
    cases htruth.symm.trans hrow
  have hnothing : plan.early = [] := by simpa [hreads] using hearly
  have hmem {row : Row} {place : Nat} :
      (row, place) ∈ plan.visited rows ↔ rows[place]? = some row :=
    (plan.visited_perm rows).mem_iff.trans List.mk_mem_zipIdx_iff_getElem?
  have hscan : scan plan.tests [] none (plan.visited rows) = .error fault := by
    refine scan_of_fault (fun p hp => ?_) ?_
    · obtain hrow | hrow := h p.1 (List.mem_of_getElem? (hmem.mp hp))
      · exact .inl (evalAll_of_fault htests hrow)
      · exact .inr (evalAll_of_evaluates htests hrow)
    · obtain ⟨row, hrow, hrowfault⟩ := hfault
      obtain ⟨place, hplace⟩ := List.mem_iff_getElem?.mp hrow
      exact ⟨(row, place), hmem.mpr hplace, evalAll_of_fault htests hrowfault⟩
  unfold explore
  rw [hnothing]
  exact hscan

theorem select_of_explore_error {s : Selection} {limit skip : Int}
    (h : explore s.plan s.sortRefs (s.wanted? limit skip) rows = .error fault) :
    s.select limit skip rows = .error fault := by
  rw [select_eq, h]
  rfl

end Selection

/-! ### Answers -/

namespace Store

open Condition

variable {s : Store} {name : TableName} {table : Table} {terms : List Condition}

/-- A query that neither sorts nor skips nor limits runs the statement of its conditions. -/
theorem find_eq_run (hfile : s.location = .file) (hword : name.checkWord = .ok ())
    (htable : s.database.find? name = some table) {entries : List (Value × Value)}
    (hterms : Condition.ofValue Cursor.columns (.map entries) = .ok terms)
    (hdepth : checkDepth terms = .ok ()) :
    s.find name (.map entries) [] .null =
      (({ conditions := terms } : Selection).run table).map (·.map Row.record) := by
  have hselection : Cursor.selection (.map entries) [] = .ok { conditions := terms } :=
    bind_eq_ok_iff.mpr ⟨_, Cursor.find_map entries, bind_eq_ok_iff.mpr ⟨_, rfl,
      bind_eq_ok_iff.mpr ⟨terms, hterms, bind_eq_ok_iff.mpr ⟨[], rfl, rfl⟩⟩⟩⟩
  have hopened : s.openTable name terms [Cursor.columns.key.display] = .ok table := by
    refine mapError_eq_ok_iff.mpr (bind_eq_ok_iff.mpr ⟨s.database, by rw [opened, hfile], ?_⟩)
    exact bind_eq_ok_iff.mpr ⟨(), hword,
      bind_eq_ok_iff.mpr ⟨(), hdepth, Database.read?_of_find? htable _⟩⟩
  rw [find_eq_selected, selected, hselection]
  show Except.map _ (s.openTable name terms [Cursor.columns.key.display] >>= _) = _
  rw [hopened]
  rfl

theorem count_eq_run (hfile : s.location = .file) (hword : name.checkWord = .ok ())
    (htable : s.database.find? name = some table) {conditions : Value}
    (hterms : Condition.ofValue Cursor.columns conditions = .ok terms)
    (hdepth : checkDepth terms = .ok ()) :
    s.count name conditions = countRows terms table := by
  have hopened (columns : List String) : s.openTable name terms columns = .ok table := by
    refine mapError_eq_ok_iff.mpr (bind_eq_ok_iff.mpr ⟨s.database, by rw [opened, hfile], ?_⟩)
    exact bind_eq_ok_iff.mpr ⟨(), hword,
      bind_eq_ok_iff.mpr ⟨(), hdepth, Database.read?_of_find? htable _⟩⟩
  unfold Store.count
  rw [hterms]
  show (s.openTable name terms _ >>= _) = _
  rw [hopened]
  rfl

variable {op : Operator} {field operand : Value} {c : Condition} {fault : StoreFault}

/-- The plans of a demand have its condition as their only one. -/
theorem plans_demand
    (hentry : ofEntry (referenceOf Cursor.columns field) (.text op.conditionKey) operand = .ok c)
    (hkey : c.keyEquality? = none) :
    let statement : Selection := { conditions := [.all [c]] }
    (statement.plan.early = [c].filter isConstant ∧ ∀ d, d ∈ statement.plan.tests ↔ d ∈ [c]) ∧
      (Plan.toCount [c]).early = [c].filter isConstant ∧
        ∀ d, d ∈ (Plan.toCount [c]).tests ↔ d ∈ [c] := by
  intro statement
  have hnone : lastKeyEquality? [c] = none := by simp [lastKeyEquality?, hkey]
  have hplan : statement.plan = Plan.toSort [c] [] := by
    rw [Selection.plan, conjunctsOf_single (conjuncts_of_ofEntry hentry)]
  rw [hplan]
  exact ⟨Plan.toSort_of_no_keyEquality hnone, Plan.toCount_of_no_keyEquality hnone⟩

section Demand

variable (hreach : s.Reachable) (hthere : (s.database.find? name).isSome)
  (hentry : ofEntryOn Cursor.columns field (.text op.conditionKey) operand = .ok c)
  (hc : c.Runs)

include hreach hthere hentry hc

theorem run_demand :
    s.find name (op.demand field operand) [] .null =
        ((({ conditions := [.all [c]] } : Selection).select (-1) 0 (s.rows name)).map
          (·.map Row.record)).mapError .store ∧
      s.count name (op.demand field operand) =
        ((Selection.explore (Plan.toCount [c]) [] none (s.rows name)).map (·.length)).mapError
          .store := by
  obtain ⟨table, htable⟩ := Option.isSome_iff_exists.mp hthere
  have hrows : s.rows name = table.rows := Database.rows_of_find? htable
  have hword := hreach.checkWord hthere
  have hterms := Operator.ofValue_demand hentry
  have hbindings (rest : List Value)
      (hrest : ∀ v ∈ rest, ∀ position, Scalar.checkBinding position v = .ok ()) :
      Scalar.checkBindings 1 (c.params ++ rest) = .ok () :=
    Scalar.checkBindings_of_forall (List.forall_mem_append.mpr ⟨hc.bindable, hrest⟩) 1
  rw [hrows]
  constructor
  · have hparams : Scalar.checkBindings 1
        ({ conditions := [.all [c]] } : Selection).params = .ok () := by
      rw [Selection.params, paramsList_single, List.append_assoc]
      refine hbindings _ fun v hv position => ?_
      obtain rfl | rfl : v = .int (-1) ∨ v = .int 0 := by simpa using hv
      · rfl
      · rfl
    have hrun : ({ conditions := [.all [c]] } : Selection).run table =
        (({ conditions := [.all [c]] } : Selection).select (-1) 0 table.rows).mapError .store := by
      unfold Selection.run
      rw [hparams]
      rfl
    rw [Operator.demand, find_eq_run hreach.location hword htable hterms hc.shallow, hrun]
    cases ({ conditions := [.all [c]] } : Selection).select (-1) 0 table.rows <;> rfl
  · -- The count is the number of rows that a visit without sort keys and limit finds.
    have hparams : Scalar.checkBindings 1 (Condition.paramsList [.all [c]]) = .ok () := by
      rw [paramsList_single, ← List.append_nil c.params]
      exact hbindings [] (by simp)
    rw [count_eq_run hreach.location hword htable hterms hc.shallow, countRows, hparams,
      conjunctsOf_single (conjuncts_of_ofEntry (ofEntry_of_ofEntryOn hentry))]
    show ((Selection.explore (Plan.toCount [c]) [] none table.rows).mapError Failure.store).bind
      _ = _
    cases Selection.explore (Plan.toCount [c]) [] none table.rows <;> rfl

/-- If the condition can be evaluated for every row, the query yields the rows of which it is true,
in their order, and the count is their number. -/
theorem answers_of_evaluates
    (heval : ∀ row ∈ s.rows name, ∃ truth, c.eval row.read = .ok truth) :
    s.find name (op.demand field operand) [] .null =
        .ok (((s.rows name).filter (·.satisfies [.all [c]])).map Row.record) ∧
      s.count name (op.demand field operand) =
        .ok ((s.rows name).filter (·.satisfies [.all [c]])).length := by
  obtain ⟨hfind, hcount⟩ := run_demand hreach hthere hentry hc
  obtain ⟨⟨hearly, htests⟩, hearly', htests'⟩ := plans_demand
    (ofEntry_of_ofEntryOn hentry) hc.no_key
  obtain ⟨found, hfound⟩ := Selection.explore_of_evaluates hc hearly htests heval
  obtain ⟨counted, hcounted⟩ := Selection.explore_of_evaluates hc hearly' htests' heval
  constructor
  · have hexplored : Selection.explore ({ conditions := [.all [c]] } : Selection).plan
        ({ conditions := [.all [c]] } : Selection).sortRefs
        (({ conditions := [.all [c]] } : Selection).wanted? (-1) 0) (s.rows name) = .ok found := by
      rw [Selection.sortRefs, List.map_nil, ite_self]
      exact hfound
    have hselect := Selection.select_of_explore hexplored
    rw [hfind, hselect, Selection.select_unsorted (hreach.distinct name) rfl hselect,
      Selection.part_all]
    rfl
  · rw [hcounted] at hcount
    obtain ⟨terms, hterms, hlength⟩ := count_eq_ok hreach.location hcount
    obtain ⟨d, hd, rfl⟩ := Condition.ofValue_single hterms
    obtain rfl : d = c := Except.ok.inj (hd.symm.trans hentry)
    rw [hcount, ← hlength hthere]
    rfl

/-- If the condition fails for some row, and for no row in another way, the query and the count fail
in this way. -/
theorem fails_of_fault
    (h : ∀ row ∈ s.rows name, c.eval row.read = .error fault ∨ ∃ truth, c.eval row.read = .ok truth)
    (hfault : ∃ row ∈ s.rows name, c.eval row.read = .error fault) :
    s.find name (op.demand field operand) [] .null = .error (.store fault) ∧
      s.count name (op.demand field operand) = .error (.store fault) := by
  obtain ⟨hfind, hcount⟩ := run_demand hreach hthere hentry hc
  obtain ⟨⟨hearly, htests⟩, hearly', htests'⟩ := plans_demand
    (ofEntry_of_ofEntryOn hentry) hc.no_key
  constructor
  · have hselect : ({ conditions := [.all [c]] } : Selection).select (-1) 0 (s.rows name) =
        .error fault := by
      refine Selection.select_of_explore_error ?_
      rw [Selection.sortRefs, List.map_nil, ite_self]
      exact Selection.explore_of_fault hc hearly htests h hfault
    rw [hfind, hselect]
    rfl
  · rw [hcount, Selection.explore_of_fault hc hearly' htests' h hfault]
    rfl

end Demand

end Store

/-! ### Documents -/

theorem Entry.isWritable_ofValues {issued issued' : Nat} {documents : List Value}
    {found : List Entry} (h : ofValues issued documents = .ok (found, issued')) :
    ∀ document ∈ documents, (∃ entries, document = .map entries) → document.IsWritable := by
  rintro document hmem ⟨entries, rfl⟩
  obtain ⟨entry, -, _, _, hentry⟩ := exists_of_mem_forall₂ (made_ofValues h).flip hmem
  obtain ⟨entries', _, hentries, -, -, -, hjson⟩ := ofValue_eq_ok hentry
  obtain rfl : entries = entries' := Except.ok.inj hentries
  obtain ⟨tree, htree, -⟩ := map_eq_ok_iff.mp hjson
  exact ⟨⟨entries, rfl⟩, tree, htree⟩

namespace Store

variable {s : Store} {name : TableName} {conditions : Value} {fault : StoreFault}

theorem isWritable_of_mem_inserted (hfile : s.location = .file)
    (session : List (TableName × Step)) {p : Value × Value}
    (hp : p ∈ inserted name session (s.run session).1) (hmap : ∃ entries, p.2 = .map entries) :
    p.2.IsWritable := by
  induction session generalizing s with
  | nil => cases hp
  | cons head rest ih =>
      obtain ⟨other, step⟩ := head
      rw [run_cons, inserted] at hp
      obtain hp | hp := List.mem_append.mp hp
      · split_ifs at hp
        · cases step with
          | insert documents =>
              rcases hinsert : s.insert other documents with ⟨result, s'⟩
              simp only [perform, hinsert] at hp
              cases result with
              | error failure => cases hp
              | ok keys =>
                  obtain ⟨items, found, issued, -, hitems, hvalues, -⟩ := insert_eq_ok hfile hinsert
                  have hmem : p.2 ∈ items := by
                    have hzip : p ∈ keys.zip (documents.elements?.getD []) := hp
                    rw [hitems] at hzip
                    exact (List.of_mem_zip hzip).2
                  exact Entry.isWritable_ofValues hvalues p.2 hmem hmap
          | create | count | find | fetch => cases hp
        · cases hp
      · exact ih (rows_perform hfile other step).1 hp

/-- A table that is made and then filled once holds nothing but what it was given. -/
theorem mem_of_mem_inserted_created {documents : List Value}
    {answers : List (Except Failure Answer)} {p : Value × Value}
    (h : p ∈ inserted name [(name, .create), (name, .insert (.list documents))] answers) :
    p.2 ∈ documents := by
  obtain ⟨other, given, hstep, hp⟩ := mem_of_mem_inserted h
  obtain ⟨-, rfl⟩ : other = name ∧ given = .list documents := by simpa using hstep
  exact hp

/-- A query and a count for the conditions select these documents, in their order. -/
def Selects (s : Store) (name : TableName) (conditions : Value)
    (documents : List (Value × Value)) : Prop :=
  s.find name conditions [] .null =
      .ok (documents.map fun p => (Row.ofDocument p.1 p.2).record) ∧
    s.count name conditions = .ok documents.length

/-- A query and a count for the conditions fail, both in the same way. -/
def Refuses (s : Store) (name : TableName) (conditions : Value) (fault : StoreFault) : Prop :=
  s.find name conditions [] .null = .error (.store fault) ∧
    s.count name conditions = .error (.store fault)

/-- A demand of which it is known of each document whether it makes the condition fail, and else
whether the condition is true of it: one document that makes it fail is enough. -/
theorem demand_of_verdicts {issued : Nat} {session : List (TableName × Step)} (op : Operator)
    (field operand : Value) {c : Condition} (fault : StoreFault) (refuses selects : Value → Bool)
    (hthere : ((({ issued } : Store).run session).2.database.find? name).isSome)
    (hentry : Condition.ofEntryOn Cursor.columns field (.text op.conditionKey) operand = .ok c)
    (hc : c.Runs)
    (h : ∀ p ∈ inserted name session (({ issued } : Store).run session).1,
      (refuses p.2 = true → c.eval (Row.ofDocument p.1 p.2).read = .error fault) ∧
        (refuses p.2 = false → ∃ truth, c.eval (Row.ofDocument p.1 p.2).read = .ok truth ∧
          (truth = some true ↔ selects p.2 = true))) :
    let stored := inserted name session (({ issued } : Store).run session).1
    let now := (({ issued } : Store).run session).2
    ((∀ p ∈ stored, refuses p.2 = false) →
      now.Selects name (op.demand field operand) (stored.filter fun p => selects p.2)) ∧
    ((∃ p ∈ stored, refuses p.2 = true) → now.Refuses name (op.demand field operand) fault) := by
  intro stored now
  have hreach : now.Reachable := ⟨issued, session, rfl⟩
  have hrows : now.rows name = stored.map fun p => Row.ofDocument p.1 p.2 := by
    rw [((rows_run rfl session).2 name).1, flatten_batches]
    rfl
  constructor
  · intro hnone
    -- Without a refused document the condition is evaluated on each row.
    have heval : ∀ row ∈ now.rows name, ∃ truth, c.eval row.read = .ok truth := by
      rw [hrows]
      refine List.forall_mem_map.mpr fun p hp => ?_
      obtain ⟨truth, htruth, -⟩ := (h p hp).2 (hnone p hp)
      exact ⟨truth, htruth⟩
    have hfilter : (now.rows name).filter (·.satisfies [.all [c]]) =
        (stored.filter fun p => selects p.2).map fun p => Row.ofDocument p.1 p.2 := by
      rw [hrows, List.filter_map]
      congr 1
      refine List.filter_congr fun p hp => Bool.eq_iff_iff.mpr ?_
      obtain ⟨truth, htruth, hselects⟩ := (h p hp).2 (hnone p hp)
      show (Row.ofDocument p.1 p.2).satisfies [.all [c]] = true ↔ _
      rw [Row.satisfies_single_iff, ← hselects, Condition.IsTrue, htruth, Except.ok.injEq]
    obtain ⟨hfind, hcount⟩ := answers_of_evaluates hreach hthere hentry hc heval
    rw [hfilter] at hfind hcount
    refine ⟨?_, ?_⟩
    · rw [hfind, List.map_map]
      rfl
    · rw [hcount, List.length_map]
  · rintro ⟨p, hp, hrefuses⟩
    refine fails_of_fault hreach hthere hentry hc ?_ ?_
    · rw [hrows]
      refine List.forall_mem_map.mpr fun q hq => ?_
      cases hq' : refuses q.2 with
      | true => exact .inl ((h q hq).1 hq')
      | false =>
          obtain ⟨truth, htruth, -⟩ := (h q hq).2 hq'
          exact .inr ⟨truth, htruth⟩
    · rw [hrows]
      exact ⟨_, List.mem_map.mpr ⟨p, hp, rfl⟩, (h p hp).1 hrefuses⟩

end Store

end DocFilter
