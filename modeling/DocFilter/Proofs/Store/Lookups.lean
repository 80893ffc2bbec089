import DocFilter.Proofs.Store.Complements
import DocFilter.Proofs.Store.Records

/-!
Statements that look up one key.

A demand for one key reads nothing of a row but its key. So it can be evaluated for every row, and
neither a count nor a query for it can fail on a table that other statements can read. Keys are
distinct, so there is at most one row of the key, and no limit cuts it off (`count_key`,
`find_key`).
-/

namespace DocFilter

open Outcome

def ObjectId.conditions (id : ObjectId) : Value :=
  .map [(keyName, .map [(.text Operator.eq.conditionKey, .objectId id)])]

def Condition.hasKey (s : String) : Condition := .compare .key .eq (.text s)

namespace Condition

variable {s : String}

theorem ofValue_conditions (id : ObjectId) :
    ofValue Cursor.columns id.conditions = .ok [.all [hasKey id.text]] := by
  have href : referenceOf Cursor.columns keyName = .key := by
    simp [referenceOf, keyName, Cursor.columns]
  have hfield : ofField Cursor.columns keyName
      (.map [(.text Operator.eq.conditionKey, .objectId id)]) = .ok (.all [hasKey id.text]) := by
    have hentry : ofEntryOn Cursor.columns keyName (.text Operator.eq.conditionKey) (.objectId id) =
        .ok (hasKey id.text) := by
      refine ofEntryOn_text ?_
      rw [show referenceOf {} (.text "_id") = .key from href]
      rfl
    rw [ofField_conditionKey, hentry]
    rfl
  rw [ObjectId.conditions, ofValue_map, mapM_eq_ok_iff]
  exact .cons hfield .nil

theorem satisfies_hasKey_iff {row : Row} : row.satisfies [.all [hasKey s]] = true ↔ row.key = s := by
  rw [Row.satisfies_iff, List.forall_mem_singleton, isTrue_all_iff, List.forall_mem_singleton,
    hasKey, isTrue_compare_key_iff]
  exact ⟨fun h => (Scalar.text.inj h).symm, fun h => h ▸ rfl⟩

theorem lastKeyEquality?_hasKey :
    lastKeyEquality? (conjunctsOf [.all [hasKey s]]) = some (.text s, []) := rfl

theorem evalAll_of_eval {read : Reading} {conditions : List Condition}
    (h : ∀ c ∈ conditions, ∃ truth, c.eval read = .ok truth) :
    ∃ holds, evalAll read conditions = .ok holds := by
  induction conditions with
  | nil => exact ⟨true, rfl⟩
  | cons c rest ih =>
      obtain ⟨⟨truth, htruth⟩, hrest⟩ := List.forall_mem_cons.mp h
      obtain ⟨holds, hholds⟩ := ih hrest
      by_cases hc : truth = some true
      · exact ⟨holds, bind_eq_ok_iff.mpr ⟨truth, htruth, by rw [if_pos hc, hholds]⟩⟩
      · exact ⟨false, bind_eq_ok_iff.mpr ⟨truth, htruth, by rw [if_neg hc]; rfl⟩⟩

end Condition

open Condition

/-! ### Visits -/

namespace Selection

variable {s : String} {rows : List Row}

/-- A visit that reads only tests which can be evaluated comes to its end. -/
theorem scan_of_evaluates {tests : List Condition} {visits : List (Row × Nat)}
    (h : ∀ p ∈ visits, ∃ holds, evalAll p.1.read tests = .ok holds) (enough : Option Nat) :
    ∃ found, scan tests [] enough visits = .ok found := by
  induction visits generalizing enough with
  | nil => exact ⟨[], by cases enough <;> rfl⟩
  | cons p rest ih =>
      obtain ⟨⟨holds, hholds⟩, hrest⟩ := List.forall_mem_cons.mp h
      by_cases hzero : enough = some 0
      · exact ⟨[], by rw [hzero]; rfl⟩
      · obtain ⟨others, hothers⟩ := ih hrest enough
        obtain ⟨fewer, hfewer⟩ := ih hrest (enough.map (· - 1))
        rw [scan.eq_3 _ _ _ _ _ _ (by simpa using hzero)]
        cases holds with
        | false => exact ⟨others, bind_eq_ok_iff.mpr ⟨false, hholds, hothers⟩⟩
        | true =>
            exact ⟨_, bind_eq_ok_iff.mpr ⟨true, hholds, bind_eq_ok_iff.mpr ⟨[], rfl,
              bind_eq_ok_iff.mpr ⟨fewer, hfewer, rfl⟩⟩⟩⟩

theorem explore_hasKey (order : List SortKey) (enough : Option Nat) (rows : List Row) :
    ∃ found, explore (Plan.lookup (.text s) [] order) [] enough rows = .ok found := by
  have heval (row : Row) : ∃ holds, evalAll row.read [hasKey s] = .ok holds := by
    have hkey : (hasKey s).keyEquality? = some (.text s) := rfl
    exact evalAll_of_eval (List.forall_mem_singleton.mpr (eval_of_keyEquality? hkey row))
  obtain ⟨found, hfound⟩ := scan_of_evaluates
    (fun p (_ : p ∈ (Plan.lookup (.text s) [] order).visited rows) => heval p.1) enough
  exact ⟨found, bind_eq_ok_iff.mpr ⟨true, rfl, hfound⟩⟩

theorem filter_hasKey (rows : List Row) :
    rows.filter (·.satisfies [.all [hasKey s]]) = rows.filter (·.key = s) :=
  List.filter_congr fun _ _ =>
    Bool.eq_iff_iff.mpr (satisfies_hasKey_iff.trans decide_eq_true_iff.symm)

theorem length_filter_hasKey (hdistinct : Row.Distinct rows) :
    (rows.filter (·.key = s)).length ≤ 1 := by
  have hone := length_filter_le_one (lastKeyEquality?_hasKey (s := s)) hdistinct
  simpa only [Row.satisfies_conjunctsOf, filter_hasKey] using hone

theorem select_hasKey (hdistinct : Row.Distinct rows) {limit : Int} (hlimit : 0 < limit)
    {statement : Selection} (hconditions : statement.conditions = [.all [hasKey s]])
    (horder : statement.order = []) :
    statement.select limit 0 rows = .ok (rows.filter (·.key = s)) := by
  have hplan : statement.plan = Plan.lookup (.text s) [] [] := by
    rw [plan, hconditions, horder]
    rfl
  have hrefs : statement.sortRefs = [] := by
    rw [sortRefs, horder, List.map_nil, ite_self]
  obtain ⟨found, hfound⟩ := explore_hasKey (s := s) [] (statement.wanted? limit 0) rows
  rw [← hplan, ← hrefs] at hfound
  have hselect := select_of_explore hfound
  have hone := length_filter_hasKey (s := s) hdistinct
  rw [hselect, select_unsorted hdistinct horder hselect, hconditions, filter_hasKey, part,
    if_neg (by omega), Int.toNat_zero, List.drop_zero, List.take_of_length_le (by omega)]

end Selection

namespace Store

variable {s : Store} {name : TableName} {table : Table} {id : ObjectId}

/-- A query that was answered shows that every statement can read the table that is not too deep. -/
theorem openTable_of_find {v : Value} {calls : List Call} {length : Value} {records : List Value}
    (hfile : s.location = .file) (h : s.find name v calls length = .ok records) :
    ∃ table, s.database.find? name = some table ∧ ∀ conditions columns,
      checkDepth conditions = .ok () → s.openTable name conditions columns = .ok table := by
  obtain ⟨_, _, _, table, _, -, -, -, htable, -⟩ := find_runs h
  have hfound := find?_of_openTable hfile htable
  obtain ⟨db, hdb, htable⟩ := bind_eq_ok_iff.mp (mapError_eq_ok_iff.mp htable)
  obtain ⟨_, hword, -⟩ := bind_eq_ok_iff.mp htable
  refine ⟨table, hfound, fun conditions columns hdepth => mapError_eq_ok_iff.mpr ?_⟩
  have hopened : s.opened = .ok s.database := by simp [opened, hfile]
  exact bind_eq_ok_iff.mpr ⟨_, hopened, bind_eq_ok_iff.mpr ⟨_, hword,
    bind_eq_ok_iff.mpr ⟨_, hdepth, Database.read?_of_find? hfound columns⟩⟩⟩

theorem count_key (htable : s.database.find? name = some table)
    (hopens : ∀ conditions columns, checkDepth conditions = .ok () →
      s.openTable name conditions columns = .ok table) (id : ObjectId) :
    s.count name id.conditions = .ok ((s.rows name).filter (·.key = id.text)).length := by
  obtain ⟨found, hfound⟩ := Selection.explore_hasKey (s := id.text) [] none table.rows
  have hcount : countRows [.all [hasKey id.text]] table = .ok found.length :=
    bind_eq_ok_iff.mpr ⟨(), rfl, bind_eq_ok_iff.mpr ⟨found, mapError_eq_ok_iff.mpr hfound, rfl⟩⟩
  have hrows : s.rows name = table.rows := Database.rows_of_find? htable
  rw [hrows, ← Selection.filter_hasKey, ← countRows_eq_ok hcount]
  exact bind_eq_ok_iff.mpr ⟨_, ofValue_conditions id, bind_eq_ok_iff.mpr ⟨table,
    hopens _ _ rfl, hcount⟩⟩

/-- A query for a key yields its row, whatever the limit. -/
theorem find_key (hdistinct : Row.Distinct (s.rows name))
    (htable : s.database.find? name = some table)
    (hopens : ∀ conditions columns, checkDepth conditions = .ok () →
      s.openTable name conditions columns = .ok table) (id : ObjectId) {limit : Nat}
    (hlimit : 0 < limit) (hfits : Scalar.fits limit = true) :
    s.find name id.conditions [.skip (.int 0), .limit (.int limit)] .null =
      .ok (((s.rows name).filter (·.key = id.text)).map Row.record) := by
  have hrows : s.rows name = table.rows := Database.rows_of_find? htable
  rw [hrows] at hdistinct ⊢
  let statement : Selection := { conditions := [.all [hasKey id.text]], limit := .int limit }
  have hstatement : ({
      conditions := [(keyName, .map [(.text Operator.eq.conditionKey, .objectId id)])]
      limit := .int limit } : Cursor).statement .null = .ok statement := by
    refine bind_eq_ok_iff.mpr ⟨.int limit, rfl, bind_eq_ok_iff.mpr ⟨_, ofValue_conditions id,
      bind_eq_ok_iff.mpr ⟨[], rfl, bind_eq_ok_iff.mpr ⟨.int limit, ?_, rfl⟩⟩⟩⟩
    exact Cursor.limitParam_natCast hlimit
  have hbindings : Scalar.checkBindings 1 statement.params = .ok () := by
    refine bind_eq_ok_iff.mpr ⟨(), rfl, bind_eq_ok_iff.mpr ⟨(), ?_, rfl⟩⟩
    rw [Scalar.checkBinding, if_pos hfits]
  have hselect : statement.select limit 0 table.rows = .ok (table.rows.filter (·.key = id.text)) :=
    Selection.select_hasKey hdistinct (Int.natCast_pos.mpr hlimit) rfl rfl
  have hrun : statement.run table = .ok (table.rows.filter (·.key = id.text)) := by
    refine bind_eq_ok_iff.mpr ⟨(), rfl, bind_eq_ok_iff.mpr ⟨(), hbindings, ?_⟩⟩
    exact mapError_eq_ok_iff.mpr (bind_eq_ok_iff.mpr ⟨_, rfl, bind_eq_ok_iff.mpr ⟨_, rfl, hselect⟩⟩)
  refine bind_eq_ok_iff.mpr ⟨_, Cursor.find_map _, bind_eq_ok_iff.mpr ⟨_, rfl, ?_⟩⟩
  exact bind_eq_ok_iff.mpr ⟨statement, hstatement, bind_eq_ok_iff.mpr ⟨table, hopens _ _ rfl,
    bind_eq_ok_iff.mpr ⟨_, hrun, rfl⟩⟩⟩

end Store

end DocFilter
