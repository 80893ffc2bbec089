import DocFilter.Proofs.Store.Querying

/-!
How many records a query yields at most.

A query has the limit that it was given last, and it may be given a length when it runs. Zero and
less mean no limit, so the two bounds cannot simply be compared: the length holds where there is no
limit or the limit is the greater one (`Cursor.limit_of_statement`). What the statement selects is a
part of the satisfying rows in an order that no bound changes, so with a length a query yields the
first ones of the records that it yields without one (`find_within_length`). A length of zero is
stricter than every limit, but the statement takes it for none.
-/

namespace DocFilter

open Outcome

/-! ### Limits -/

namespace Call

def IsRefinement : Call → Prop
  | sort .. | skip _ | limit _ => True
  | _ => False

def limit? : Call → Option Value
  | limit n => some n
  | _ => none

/-- The limit that some calls leave a query with; zero if none of them limits it. -/
def lastLimit (calls : List Call) : Value := (calls.filterMap limit?).getLast?.getD (.int 0)

end Call

namespace Cursor

variable {c c' : Cursor} {calls : List Call} {statement : Selection}

theorem limit_of_refine {call : Call} (hcall : call.IsRefinement)
    (h : StoredTable.refine c call = .ok c') : c'.limit = call.limit?.getD c.limit := by
  cases call with
  | sort key direction =>
      have h : c.sortBy key direction = .ok c' := h
      rw [sortBy_eq_ok h]
      rfl
  | skip n | limit n =>
      cases h
      rfl
  | countDocuments conditions | find conditions | toList length => cases hcall

theorem limit_of_foldlM (hcalls : ∀ call ∈ calls, call.IsRefinement)
    (h : calls.foldlM StoredTable.refine c = .ok c') :
    c'.limit = (calls.filterMap Call.limit?).getLast?.getD c.limit := by
  induction calls generalizing c with
  | nil =>
      cases h
      rfl
  | cons call rest ih =>
      obtain ⟨hcall, hrest⟩ := List.forall_mem_cons.mp hcalls
      obtain ⟨next, hnext, h⟩ := bind_eq_ok_iff.mp h
      rw [ih hrest h, limit_of_refine hcall hnext]
      cases hlimit : call.limit? with
      | none => rw [List.filterMap_cons_none hlimit, Option.getD_none]
      | some n => rw [List.filterMap_cons_some hlimit, List.getLast?_cons, Option.getD_some,
          Option.getD_some]

/-- The bound that a limit and a length of at least one leave: the stricter one, or the length if
there is no limit. -/
theorem limit_of_statement {m : Int} {n : Nat} (hlimit : c.limit = .int m) (hn : 0 < n)
    (h : c.statement (.int n) = .ok statement) :
    statement.limit = .int (if 0 < m then min m n else n) := by
  obtain ⟨-, -, hparam, -⟩ := statement_within h
  rw [hlimit, effectiveLimit_int] at hparam
  have hparam : limitParam (.int (if m ≤ 0 ∨ n < m then n else m)) = .ok statement.limit := hparam
  rw [limitParam_int, Except.ok.injEq] at hparam
  rw [← hparam]
  congr 1
  split_ifs <;> omega

end Cursor

/-! ### Records -/

namespace Selection

/-- A part that is not limited, cut to a length, or a limited one that is cut further. -/
theorem take_part {α : Type} (limit skip : Int) (n : Nat) (l : List α) :
    (part limit skip l).take n = part (if limit < 0 then n else min limit n) skip l := by
  by_cases hlimit : limit < 0
  · rw [if_pos hlimit, part, part, if_pos hlimit, if_neg (by omega), Int.toNat_natCast]
  · rw [if_neg hlimit, part, part, if_neg hlimit, if_neg (by omega), List.take_take]
    congr 1
    omega

theorem length_part_le {α : Type} {limit : Int} (hlimit : 0 ≤ limit) (skip : Int) (l : List α) :
    ((part limit skip l).length : Int) ≤ limit := by
  rw [part, if_neg (by omega), List.length_take]
  omega

theorem sorted_congr {st st' : Selection} (hconditions : st.conditions = st'.conditions)
    (horder : st.order = st'.order) (rows : List Row) : st.sorted rows = st'.sorted rows := by
  rw [sorted, sorted, hconditions, horder]

end Selection

namespace Store

variable {s : Store} {name : TableName} {conditions : Value} {calls : List Call} {m : Int} {n : Nat}
  {records : List Value}

/-- A query that is given a length of at least one yields at most so many records, and at most as
many as it was told last to limit to, if that is a positive number. They are the first ones of those
that it yields without a length. -/
theorem find_within_length (hreach : s.Reachable) (hcalls : ∀ call ∈ calls, call.IsRefinement)
    (hlast : Call.lastLimit calls = .int m) (hn : 0 < n)
    (h : s.find name conditions calls (.int n) = .ok records) :
    records.length ≤ n ∧ (0 < m → (records.length : Int) ≤ m) ∧
      ∀ all, s.find name conditions calls .null = .ok all → records = all.take n := by
  obtain ⟨start, cursor, statement, limit, skip, rows, hstart, hcursor, hstatement, -, -, hlimit,
    hskip, hselect, rfl⟩ := find_eq_ok hreach.location h
  have hset : cursor.limit = .int m := by
    rw [Cursor.limit_of_foldlM hcalls hcursor, Cursor.find_eq_ok hstart]
    exact hlast
  rw [Cursor.limit_of_statement hset hn hstatement] at hlimit
  obtain rfl : (if 0 < m then min m n else n) = limit := Except.ok.inj hlimit
  have hrows := Selection.select_sorted (hreach.distinct name) hselect
  have hlength : (rows.length : Int) ≤ if 0 < m then min m n else n := by
    rw [hrows]
    exact Selection.length_part_le (by split_ifs <;> omega) ..
  rw [List.length_map]
  refine ⟨?_, fun hm => ?_, fun all hall => ?_⟩
  · split_ifs at hlength <;> omega
  · rw [if_pos hm] at hlength
    omega
  · obtain ⟨start', cursor', statement', limit', skip', rows', hstart', hcursor', hstatement', -, -,
      hlimit', hskip', hselect', rfl⟩ := find_eq_ok hreach.location hall
    obtain rfl : start = start' := Except.ok.inj (hstart.symm.trans hstart')
    obtain rfl : cursor = cursor' := Except.ok.inj (hcursor.symm.trans hcursor')
    obtain ⟨hterms, horder, -, hskipped⟩ := Cursor.statement_within hstatement
    obtain ⟨hterms', horder', hparam, hskipped'⟩ := Cursor.statement_eq_ok hstatement'
    have hsorted := Selection.sorted_congr (Except.ok.inj (hterms.symm.trans hterms'))
      (Except.ok.inj (horder.symm.trans horder')) (s.rows name)
    rw [hskipped, ← hskipped', hskip', Except.ok.injEq] at hskip
    rw [hset, Cursor.limitParam_int, Except.ok.injEq] at hparam
    rw [← hparam] at hlimit'
    obtain rfl : (if 0 < m then m else -1) = limit' := Except.ok.inj hlimit'
    rw [hrows, Selection.select_sorted (hreach.distinct name) hselect', ← List.map_take,
      Selection.take_part, hsorted, hskip]
    congr 2
    split_ifs <;> omega

/-- Three documents under a limit of two, which is the stricter bound, and then under a length of
one. -/
theorem find_within_length_docs :
    let docs : TableName := ⟨"docs"⟩
    let documents : List Value := [.map [(keyName, .text "a")], .map [(keyName, .text "b")],
      .map [(keyName, .text "c")]]
    let now := (({} : Store).run [(docs, .create), (docs, .insert (.list documents))]).2
    let calls : List Call := [.limit (.int 1), .skip (.int (-1)), .limit (.int 2)]
    ∃ three one all, now.find docs (.map []) calls (.int 3) = .ok three ∧
      now.find docs (.map []) calls (.int 1) = .ok one ∧
      now.find docs (.map []) calls .null = .ok all ∧ all.length = 2 ∧
      three.length ≤ 2 ∧ three = all.take 3 ∧ one.length ≤ 1 ∧ one = all.take 1 := by
  intro docs documents now calls
  have hreachable : now.Reachable := ⟨0, _, rfl⟩
  have hcalls : ∀ call ∈ calls, call.IsRefinement := by simp [calls, Call.IsRefinement]
  have hthree := eq_ok_of_isOk [] (by decide +kernel :
    (now.find docs (.map []) calls (.int 3)).isOk = true)
  have hone := eq_ok_of_isOk [] (by decide +kernel :
    (now.find docs (.map []) calls (.int 1)).isOk = true)
  have hall := eq_ok_of_isOk [] (by decide +kernel :
    (now.find docs (.map []) calls .null).isOk = true)
  obtain ⟨-, htwo, hprefix⟩ := find_within_length (n := 3) hreachable hcalls rfl (by decide) hthree
  obtain ⟨hlength, -, hfirst⟩ := find_within_length (n := 1) hreachable hcalls rfl (by decide) hone
  exact ⟨_, _, _, hthree, hone, hall, by decide +kernel, Int.ofNat_le.mp (htwo (by decide)),
    hprefix _ hall, hlength, hfirst _ hall⟩

/-- A length of zero lifts the limit of a query, so that it yields more records than either bound
allows. -/
theorem find_exceeds_length_zero :
    let docs : TableName := ⟨"docs"⟩
    let documents : List Value := [.map [(keyName, .text "a")], .map [(keyName, .text "b")]]
    let now := (({} : Store).run [(docs, .create), (docs, .insert (.list documents))]).2
    let calls : List Call := [.limit (.int 1)]
    Call.lastLimit calls = .int 1 ∧
      ∃ records all, now.find docs (.map []) calls (.int 0) = .ok records ∧
        now.find docs (.map []) calls .null = .ok all ∧
        records.length = 2 ∧ all.length = 1 ∧ records ≠ all.take 0 := by
  intro docs documents now calls
  have hrecords := eq_ok_of_isOk [] (by decide +kernel :
    (now.find docs (.map []) calls (.int 0)).isOk = true)
  have hall := eq_ok_of_isOk [] (by decide +kernel :
    (now.find docs (.map []) calls .null).isOk = true)
  have hlength : ((now.find docs (.map []) calls (.int 0)).toOption.getD []).length = 2 := by
    decide +kernel
  refine ⟨rfl, _, _, hrecords, hall, hlength, by decide +kernel, fun hnone => ?_⟩
  rw [hnone, List.take_zero] at hlength
  cases hlength

end Store

end DocFilter
