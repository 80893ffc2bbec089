import DocFilter.Proofs.Number.Order
import DocFilter.Proofs.Store.History
import DocFilter.Proofs.Store.Selecting

/-!
What queries and counts yield, by the rows of their table.

A query is compiled to one statement when it runs. Sorting sets nothing but the sort keys of the
statement, so queries that were sorted alike and then skip and limit differently have statements
that differ in these two numbers only (`find_window`). Only the statement of a query names a column
for sure, so only a query that was answered shows that there is a table and not a listing.
-/

namespace DocFilter

open Outcome

/-! ### Parameters -/

theorem Scalar.fits_of_checkBindings {position : Nat} {params : List Value} {n : Int}
    (h : checkBindings position params = .ok ()) (hn : .int n ∈ params) : fits n = true := by
  induction params generalizing position with
  | nil => cases hn
  | cons v rest ih =>
      obtain ⟨_, hv, hrest⟩ := bind_eq_ok_iff.mp h
      obtain rfl | hn := List.mem_cons.mp hn
      · by_contra hfits
        simp [checkBinding, hfits] at hv
      · exact ih hrest hn

theorem Value.relatesTo_int (relation : String) (holds : Ordering → Bool) (m n : Int) :
    (int m).relatesTo relation holds n = .ok (holds (compare m n)) := by
  simp only [relatesTo, number?, Number.compare?_int, Option.map_some, Option.getD_some]

theorem Value.relates_int (relation : String) (holds : Ordering → Bool) (m n : Int) :
    (int m).relates relation holds (int n) = .ok (holds (compare m n)) := by
  simp only [relates, number?, Number.compare?_int, Option.map_some, Option.getD_some]

/-! ### Statements -/

namespace Cursor

variable {c c' : Cursor} {statement : Selection} {sorting : List Call}

theorem limitParam_int (n : Int) : limitParam (.int n) = .ok (.int (if 0 < n then n else -1)) := by
  have hgreater : (compare n 0 == .gt) = decide (0 < n) := by
    rw [Bool.eq_iff_iff, beq_iff_eq, compare_gt_iff_gt, decide_eq_true_iff]
  unfold limitParam
  rw [Value.relatesTo_int, hgreater]
  by_cases hpositive : 0 < n
  · have htruthy : (Value.int n).isTruthy = true := by
      simp [Value.isTruthy, hpositive.ne']
    rw [htruthy, if_pos hpositive, decide_eq_true hpositive]
    rfl
  · rw [if_neg hpositive, decide_eq_false hpositive]
    cases (Value.int n).isTruthy <;> rfl

theorem limitParam_natCast {n : Nat} (hn : 0 < n) : limitParam (.int n) = .ok (.int n) := by
  rw [limitParam_int, if_pos (Int.natCast_pos.mpr hn)]

/-- Of a limit and a length the stricter one holds, and the length if there is no limit. -/
theorem effectiveLimit_int (m n : Int) :
    effectiveLimit (.int m) (.int n) = .ok (.int (if m ≤ 0 ∨ n < m then n else m)) := by
  have hnone : (compare m 0 != .gt) = decide (m ≤ 0) := by
    rw [Bool.eq_iff_iff, bne_iff_ne, compare_le_iff_le, decide_eq_true_iff]
  have hstricter : (compare n m == .lt) = decide (n < m) := by
    rw [Bool.eq_iff_iff, beq_iff_eq, compare_lt_iff_lt, decide_eq_true_iff]
  unfold effectiveLimit
  dsimp only
  rw [Value.relatesTo_int, Value.relates_int, hnone, hstricter]
  by_cases hm : m ≤ 0
  · rw [decide_eq_true hm, if_pos (.inl hm)]
    rfl
  · rw [decide_eq_false hm]
    by_cases hn : n < m
    · rw [decide_eq_true hn, if_pos (.inr hn)]
      rfl
    · rw [decide_eq_false hn, if_neg (by simp [hm, hn])]
      rfl

theorem statement_within {length : Value} (h : c.statement length = .ok statement) :
    Condition.ofValue columns (.map c.conditions) = .ok statement.conditions ∧
      c.sort.mapM sortKey = .ok statement.order ∧
      (effectiveLimit c.limit length >>= limitParam) = .ok statement.limit ∧
      statement.skip = c.skip.orElse (.int 0) := by
  unfold Cursor.statement at h
  obtain ⟨limit, hlimit, h⟩ := bind_eq_ok_iff.mp h
  obtain ⟨conditions, hconditions, h⟩ := bind_eq_ok_iff.mp h
  obtain ⟨order, horder, h⟩ := bind_eq_ok_iff.mp h
  obtain ⟨param, hparam, h⟩ := bind_eq_ok_iff.mp h
  rw [pure_eq_ok_iff] at h
  subst h
  exact ⟨hconditions, horder, bind_eq_ok_iff.mpr ⟨limit, hlimit, hparam⟩, rfl⟩

theorem statement_eq_ok (h : c.statement .null = .ok statement) :
    Condition.ofValue columns (.map c.conditions) = .ok statement.conditions ∧
      c.sort.mapM sortKey = .ok statement.order ∧
      limitParam c.limit = .ok statement.limit ∧ statement.skip = c.skip.orElse (.int 0) :=
  statement_within h

theorem sortBy_eq_ok {key direction : Value} (h : c.sortBy key direction = .ok c') :
    c' = { c with sort := c'.sort } := by
  unfold sortBy at h
  split at h
  · cases h
    rfl
  · cases h
    rfl
  · obtain ⟨items, -, rfl⟩ := map_eq_ok_iff.mp h
    rfl

theorem refine_sort (hsorting : ∀ call ∈ sorting, ∃ key direction, call = .sort key direction)
    (h : sorting.foldlM StoredTable.refine c = .ok c') :
    c'.conditions = c.conditions ∧ c'.skip = c.skip ∧ c'.limit = c.limit := by
  induction sorting generalizing c with
  | nil =>
      rw [List.foldlM_nil, pure_eq_ok_iff] at h
      rw [h]
      exact ⟨rfl, rfl, rfl⟩
  | cons call rest ih =>
      rw [List.foldlM_cons] at h
      obtain ⟨next, hnext, hrest⟩ := bind_eq_ok_iff.mp h
      obtain ⟨key, direction, rfl⟩ := hsorting call (by simp)
      obtain ⟨hconditions, hskip, hlimit⟩ :=
        ih (fun call hcall => hsorting call (by simp [hcall])) hrest
      rw [hconditions, hskip, hlimit, sortBy_eq_ok hnext]
      exact ⟨rfl, rfl, rfl⟩

def selection (conditions : Value) (sorting : List Call) : Except Failure Selection := do
  let start ← Cursor.find conditions
  let cursor ← sorting.foldlM StoredTable.refine start
  let conditions ← Condition.ofValue columns (.map start.conditions)
  let order ← cursor.sort.mapM sortKey
  pure { conditions, order }

theorem find_eq_ok {conditions : Value} (h : Cursor.find conditions = .ok c) :
    c = { conditions := c.conditions } := by
  obtain ⟨entries, _, rfl⟩ := map_eq_ok_iff.mp h
  rfl

theorem find_map (entries : List (Value × Value)) :
    Cursor.find (.map entries) = .ok { conditions := entries } := by
  cases entries <;> rfl

theorem selection_eq_ok {conditions : Value} (h : selection conditions sorting = .ok statement) :
    ∃ start cursor, Cursor.find conditions = .ok start ∧
      sorting.foldlM StoredTable.refine start = .ok cursor ∧
      Condition.ofValue columns (.map start.conditions) = .ok statement.conditions ∧
      cursor.sort.mapM sortKey = .ok statement.order ∧
      statement = { conditions := statement.conditions, order := statement.order } := by
  obtain ⟨start, hstart, h⟩ := bind_eq_ok_iff.mp h
  obtain ⟨cursor, hcursor, h⟩ := bind_eq_ok_iff.mp h
  obtain ⟨terms, hterms, h⟩ := bind_eq_ok_iff.mp h
  obtain ⟨order, horder, h⟩ := bind_eq_ok_iff.mp h
  rw [pure_eq_ok_iff] at h
  subst h
  exact ⟨start, cursor, hstart, hcursor, hterms, horder, rfl⟩

/-- The conditions of the statement are those that a count of the same documents has. -/
theorem conditions_selection {entries : List (Value × Value)}
    (h : selection (.map entries) sorting = .ok statement) :
    Condition.ofValue columns (.map entries) = .ok statement.conditions := by
  obtain ⟨start, cursor, hstart, -, hconditions, -⟩ := selection_eq_ok h
  rw [find_map, Except.ok.injEq] at hstart
  rwa [← hstart] at hconditions

theorem order_selection {entries : List (Value × Value)}
    (h : selection (.map entries) [] = .ok statement) : statement.order = [] := by
  obtain ⟨start, cursor, hstart, hcursor, -, horder, -⟩ := selection_eq_ok h
  rw [List.foldlM_nil, pure_eq_ok_iff] at hcursor
  rw [find_map, Except.ok.injEq] at hstart
  rw [← hcursor, ← hstart] at horder
  exact (pure_eq_ok_iff.mp horder).symm

end Cursor

/-! ### Answers -/

/-- A statement that names a column finds a table and not a listing. -/
theorem Database.find?_of_read? {db : Database} {name : TableName} {table : Table} {column : String}
    {columns : List String} (h : db.read? name (column :: columns) = .ok table) :
    db.find? name = some table := by
  unfold read? at h
  split at h
  · rename_i found hfound
    cases h
    exact hfound
  · obtain ⟨listing, _, h⟩ := bind_eq_ok_iff.mp h
    cases listing <;> cases h

/-- A statement that ran has selected rows, with bounds that its limits have been taken for. -/
theorem Selection.run_eq_ok {statement : Selection} {table : Table} {rows : List Row}
    (h : statement.run table = .ok rows) :
    Scalar.checkBindings 1 statement.params = .ok () ∧
      ∃ limit skip, bound (Scalar.ofValue statement.limit) = .ok limit ∧
        bound (Scalar.ofValue statement.skip) = .ok skip ∧
        statement.select limit skip table.rows = .ok rows := by
  obtain ⟨_, -, h⟩ := bind_eq_ok_iff.mp h
  obtain ⟨_, hbindings, h⟩ := bind_eq_ok_iff.mp h
  obtain ⟨limit, hlimit, h⟩ := bind_eq_ok_iff.mp (mapError_eq_ok_iff.mp h)
  obtain ⟨skip, hskip, h⟩ := bind_eq_ok_iff.mp h
  exact ⟨hbindings, limit, skip, hlimit, hskip, h⟩

namespace Store

variable {s : Store} {name : TableName} {table : Table} {conditions : List Condition} {v : Value}
  {sorting : List Call} {records : List Value}

theorem read?_of_opened {db : Database} {columns : List String} (hopened : s.opened = .ok db)
    (h : s.openTable name conditions columns = .ok table) : db.read? name columns = .ok table := by
  have h := mapError_eq_ok_iff.mp h
  obtain ⟨db', hdb, h⟩ := bind_eq_ok_iff.mp h
  obtain ⟨_, _, h⟩ := bind_eq_ok_iff.mp h
  obtain ⟨_, _, h⟩ := bind_eq_ok_iff.mp h
  obtain rfl : db = db' := Except.ok.inj (hopened.symm.trans hdb)
  exact h

theorem read?_of_openTable {columns : List String} (hfile : s.location = .file)
    (h : s.openTable name conditions columns = .ok table) :
    s.database.read? name columns = .ok table :=
  read?_of_opened (by rw [opened, hfile]) h

theorem find?_of_openTable {column : String} {columns : List String} (hfile : s.location = .file)
    (h : s.openTable name conditions (column :: columns) = .ok table) :
    s.database.find? name = some table :=
  Database.find?_of_read? (read?_of_openTable hfile h)

/-- A count of the documents of a table is the number of rows that satisfy the conditions. -/
theorem count_eq_ok {n : Nat} (hfile : s.location = .file)
    (h : s.count name v = .ok n) :
    ∃ terms, Condition.ofValue Cursor.columns v = .ok terms ∧
      ((s.database.find? name).isSome → n = ((s.rows name).filter (·.satisfies terms)).length) := by
  unfold Store.count at h
  obtain ⟨terms, hterms, h⟩ := bind_eq_ok_iff.mp h
  obtain ⟨table, htable, h⟩ := bind_eq_ok_iff.mp h
  refine ⟨terms, hterms, fun hthere => ?_⟩
  obtain ⟨found, hfound⟩ := Option.isSome_iff_exists.mp hthere
  have hread := read?_of_openTable hfile htable
  rw [Database.read?_of_find? hfound, Except.ok.injEq] at hread
  rw [countRows_eq_ok h, ← hread, rows, Database.rows_of_find? hfound]

/-- A query that was answered ran its statement on a table that was opened for it. -/
theorem find_runs {calls : List Call} {length : Value}
    (h : s.find name v calls length = .ok records) :
    ∃ start cursor statement table rows, Cursor.find v = .ok start ∧
      calls.foldlM StoredTable.refine start = .ok cursor ∧
      cursor.statement length = .ok statement ∧
      s.openTable name statement.conditions [Cursor.columns.key.display] = .ok table ∧
      statement.run table = .ok rows ∧ records = rows.map Row.record := by
  obtain ⟨start, hstart, h⟩ := bind_eq_ok_iff.mp h
  obtain ⟨cursor, hcursor, h⟩ := bind_eq_ok_iff.mp h
  obtain ⟨statement, hstatement, h⟩ := bind_eq_ok_iff.mp h
  obtain ⟨table, htable, h⟩ := bind_eq_ok_iff.mp h
  obtain ⟨rows, hrows, h⟩ := bind_eq_ok_iff.mp h
  exact ⟨start, cursor, statement, table, rows, hstart, hcursor, hstatement, htable, hrows,
    (pure_eq_ok_iff.mp h).symm⟩

theorem find_eq_ok {calls : List Call} {length : Value} (hfile : s.location = .file)
    (h : s.find name v calls length = .ok records) :
    ∃ start cursor statement limit skip rows, Cursor.find v = .ok start ∧
      calls.foldlM StoredTable.refine start = .ok cursor ∧
      cursor.statement length = .ok statement ∧
      (s.database.find? name).isSome ∧
      Scalar.checkBindings 1 statement.params = .ok () ∧
      Selection.bound (Scalar.ofValue statement.limit) = .ok limit ∧
      Selection.bound (Scalar.ofValue statement.skip) = .ok skip ∧
      statement.select limit skip (s.rows name) = .ok rows ∧ records = rows.map Row.record := by
  obtain ⟨start, cursor, statement, table, rows, hstart, hcursor, hstatement, htable, hrun,
    hrecords⟩ := find_runs h
  obtain ⟨hbindings, limit, skip, hlimit, hskip, hselect⟩ := Selection.run_eq_ok hrun
  have hfound := find?_of_openTable hfile htable
  refine ⟨start, cursor, statement, limit, skip, rows, hstart, hcursor, hstatement,
    by simp [hfound], hbindings, hlimit, hskip, ?_, hrecords⟩
  rwa [Store.rows, Database.rows_of_find? hfound]

theorem find_unlimited (hfile : s.location = .file)
    (hsorting : ∀ call ∈ sorting, ∃ key direction, call = .sort key direction)
    (h : s.find name v sorting .null = .ok records) :
    ∃ start cursor statement rows, Cursor.find v = .ok start ∧
      sorting.foldlM StoredTable.refine start = .ok cursor ∧
      cursor.statement .null = .ok statement ∧
      (s.database.find? name).isSome ∧
      Scalar.checkBindings 1 statement.params = .ok () ∧
      statement.select (-1) 0 (s.rows name) = .ok rows ∧ records = rows.map Row.record := by
  obtain ⟨start, cursor, statement, limit, skip, rows, hstart, hcursor, hstatement, hthere,
    hbindings, hlimit, hskip, hselect, hrecords⟩ := find_eq_ok hfile h
  obtain ⟨-, -, hparam, hskipped⟩ := Cursor.statement_eq_ok hstatement
  obtain ⟨-, hskip', hlimit'⟩ := Cursor.refine_sort hsorting hcursor
  rw [hlimit', Cursor.find_eq_ok hstart] at hparam
  rw [hskip', Cursor.find_eq_ok hstart] at hskipped
  rw [← Except.ok.inj hparam] at hlimit
  rw [hskipped] at hskip
  obtain rfl : -1 = limit := Except.ok.inj hlimit
  obtain rfl : 0 = skip := Except.ok.inj hskip
  exact ⟨start, cursor, statement, rows, hstart, hcursor, hstatement, hthere, hbindings, hselect,
    hrecords⟩

/-- What a query yields that is sorted and neither skips nor limits. -/
theorem find_all (hfile : s.location = .file)
    (hsorting : ∀ call ∈ sorting, ∃ key direction, call = .sort key direction)
    (h : s.find name v sorting .null = .ok records) :
    ∃ statement rows, Cursor.selection v sorting = .ok statement ∧
      (s.database.find? name).isSome ∧
      statement.select (-1) 0 (s.rows name) = .ok rows ∧ records = rows.map Row.record := by
  obtain ⟨start, cursor, statement, rows, hstart, hcursor, hstatement, hthere, -, hselect,
    hrecords⟩ := find_unlimited hfile hsorting h
  obtain ⟨hconditions, horder, -, -⟩ := Cursor.statement_eq_ok hstatement
  rw [(Cursor.refine_sort hsorting hcursor).1] at hconditions
  refine ⟨{ conditions := statement.conditions, order := statement.order }, rows, ?_, hthere,
    hselect, hrecords⟩
  exact bind_eq_ok_iff.mpr ⟨start, hstart, bind_eq_ok_iff.mpr ⟨cursor, hcursor,
    bind_eq_ok_iff.mpr ⟨_, hconditions, bind_eq_ok_iff.mpr ⟨_, horder, rfl⟩⟩⟩⟩

/-- What a query yields that is sorted and then skips and limits: what its statement selects with
these numbers, of which the limit has at most 63 bits. -/
theorem find_window {skip limit : Nat} (hfile : s.location = .file)
    (hsorting : ∀ call ∈ sorting, ∃ key direction, call = .sort key direction)
    (hlimit : 0 < limit)
    (h : s.find name v (sorting ++ [.skip (.int skip), .limit (.int limit)]) .null = .ok records) :
    ∃ statement rows, Cursor.selection v sorting = .ok statement ∧
      (s.database.find? name).isSome ∧ limit < 2 ^ 63 ∧
      statement.select limit skip (s.rows name) = .ok rows ∧ records = rows.map Row.record := by
  obtain ⟨start, cursor, statement, limit', skip', rows, hstart, hcursor, hstatement, hthere,
    hbindings, hlimit', hskip', hselect, hrecords⟩ := find_eq_ok hfile h
  rw [List.foldlM_append] at hcursor
  obtain ⟨sorted, hsorted, hcursor⟩ := bind_eq_ok_iff.mp hcursor
  obtain rfl : { sorted with skip := .int skip, limit := .int limit } = cursor :=
    Except.ok.inj hcursor
  obtain ⟨hconditions, horder, hparam, hskipped⟩ := Cursor.statement_eq_ok hstatement
  obtain ⟨hsame, _, _⟩ := Cursor.refine_sort hsorting hsorted
  rw [Cursor.limitParam_natCast hlimit, Except.ok.injEq] at hparam
  have hskipped : statement.skip = .int skip := by
    rw [hskipped]
    cases skip <;> rfl
  -- The limit is a parameter of the statement and was let through as one.
  have hfits : Scalar.fits limit = true := by
    refine Scalar.fits_of_checkBindings hbindings ?_
    simp [Selection.params, hparam]
  rw [← hparam] at hlimit'
  rw [hskipped] at hskip'
  obtain rfl : (limit : Int) = limit' := Except.ok.inj hlimit'
  obtain rfl : (skip : Int) = skip' := Except.ok.inj hskip'
  refine ⟨{ conditions := statement.conditions, order := statement.order }, rows, ?_, hthere, ?_,
    hselect, hrecords⟩
  · have hconditions : Condition.ofValue Cursor.columns (.map start.conditions) =
        .ok statement.conditions := by
      rw [← hsame]
      exact hconditions
    exact bind_eq_ok_iff.mpr ⟨start, hstart, bind_eq_ok_iff.mpr ⟨sorted, hsorted,
      bind_eq_ok_iff.mpr ⟨_, hconditions, bind_eq_ok_iff.mpr ⟨_, horder, rfl⟩⟩⟩⟩
  · simp only [Scalar.fits, Bool.and_eq_true, decide_eq_true_eq] at hfits
    omega

end Store

end DocFilter
