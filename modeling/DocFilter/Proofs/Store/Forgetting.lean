import DocFilter.Proofs.Paging.Identifying
import DocFilter.Proofs.Store.Isolation

/-!
A store in memory forgets everything.

Every statement of such a store starts on an empty database, and nothing is kept of what it leaves
(`perform_of_memory`). So each step of a session is answered as if it were the first one, and at
every name but that of the listing of pages it is answered as by a new file (`perform_fresh`). The
answers are those of a file up to the first step that makes the table. From then on the file has a
table and the memory has none: no document is ever inserted, and no query and no page is ever
answered (`memory_forgets`).
-/

namespace DocFilter

open Outcome

/-! ### Empty databases -/

namespace Database

variable {name : TableName}

/-- The two kinds of empty databases differ in nothing but the pages that they have. -/
theorem listing?_empty (hname : name.folded ≠ "dbstat") (isFile : Bool) :
    ({ isFile } : Database).listing? name = ({} : Database).listing? name := by
  unfold listing? Listing.find?
  split
  all_goals first
    | rfl
    | exact absurd ‹_› hname

theorem read?_empty (hname : name.folded ≠ "dbstat") (isFile : Bool) (columns : List String) :
    ({ isFile } : Database).read? name columns = ({} : Database).read? name columns := by
  have hlisting := listing?_empty hname isFile
  unfold read?
  rw [hlisting]
  rfl

theorem write?_empty (hname : name.folded ≠ "dbstat") (isFile : Bool) :
    ({ isFile } : Database).write? name = ({} : Database).write? name := by
  have hlisting := listing?_empty hname isFile
  unfold write?
  rw [hlisting]
  rfl

theorem exists_write?_empty (name : TableName) (isFile : Bool) :
    ∃ fault, ({ isFile } : Database).write? name = .error fault := by
  cases h : ({ isFile } : Database).write? name with
  | error fault => exact ⟨fault, rfl⟩
  | ok table => cases find?_of_write? h

end Database

/-! ### Steps -/

namespace Store

variable {s : Store} {name : TableName}

theorem opened_of_memory (h : s.location = .memory) : s.opened = .ok { isFile := false } := by
  rw [opened, h]

theorem keep_of_memory (h : s.location = .memory) (db : Database) : s.keep db = s := by
  simp [keep, h]

/-- Where there is no table yet, its name decides whether it can be made. -/
theorem createTable_empty {isFile : Bool} (hopened : s.opened = .ok { isFile }) :
    s.createTable name =
      (name.checkCreation.mapError .store,
        if name.checkCreation.isOk then s.keep { isFile, tables := [{ name }] } else s) := by
  unfold createTable Database.create
  rw [hopened]
  cases name.checkCreation <;> rfl

/-- An insertion fails with what is wrong with the documents, if anything is, and otherwise with
what is wrong with the table. -/
theorem insert_of_write? {db : Database} {fault : StoreFault} (hopened : s.opened = .ok db)
    (hkeep : s.keep db = s) (hfault : db.write? name = .error fault) (documents : Value) :
    s.insert name documents =
      ((s.entries documents).bind fun _ => .error (.store fault), s) := by
  have hrows (rows : List Row) : (Connection.ofDatabase db).insertRows name rows =
      (.error fault, Connection.ofDatabase db) := by
    have hworking : (Connection.ofDatabase db).working.write? name = .error fault := hfault
    rw [Connection.insertRows, hworking]
  unfold insert
  cases s.entries documents with
  | error failure => rfl
  | ok found =>
      simp only [transact, hopened, hrows]
      exact Prod.ext rfl hkeep

/-- No step changes a store in memory. -/
theorem perform_of_memory (h : s.location = .memory) (name : TableName) (step : Step) :
    (s.perform name step).2 = s := by
  cases step with
  | create =>
      simp only [perform, createTable_empty (opened_of_memory h), keep_of_memory h, ite_self]
  | insert documents =>
      obtain ⟨fault, hfault⟩ := Database.exists_write?_empty name false
      simp only [perform, insert_of_write? (opened_of_memory h) (keep_of_memory h _) hfault]
  | count conditions => rfl
  | find conditions refinements length => rfl
  | fetch service request => rfl

/-- It answers every step as a new file does, except at the listing of pages. -/
theorem perform_fresh (h : s.location = .memory) (hname : name.folded ≠ "dbstat") (step : Step) :
    (s.perform name step).1 = (({ issued := s.issued } : Store).perform name step).1 := by
  have hread : SameAt name s { issued := s.issued } := by
    intro conditions columns
    simp only [openTable, opened_of_memory h, bind, Except.bind, Database.read?_empty hname]
    rfl
  cases step with
  | create =>
      have hfile : ({ issued := s.issued } : Store).opened = .ok { isFile := true } := rfl
      simp only [perform, createTable_empty (opened_of_memory h), createTable_empty hfile]
  | insert documents =>
      obtain ⟨fault, hfault⟩ := Database.exists_write?_empty name true
      have hfault' := (Database.write?_empty hname false).trans hfault
      simp only [perform, insert_of_write? (opened_of_memory h) (keep_of_memory h _) hfault',
        insert_of_write? (s := { issued := s.issued }) rfl rfl hfault]
      rfl
  | count conditions => exact perform_congr_of_isRead hread rfl
  | find conditions refinements length => exact perform_congr_of_isRead hread rfl
  | fetch service request => exact perform_congr_of_isRead hread rfl

/-- A new file stays as it is until its table is made. -/
theorem perform_new_file {issued : Nat} {step : Step}
    (h : step = .create → name.checkCreation.isOk = false) :
    (({ issued } : Store).perform name step).2 = { issued } := by
  cases step with
  | create =>
      have hopened : ({ issued } : Store).opened = .ok { isFile := true } := rfl
      simp [perform, createTable_empty hopened, h rfl]
  | insert documents =>
      obtain ⟨fault, hfault⟩ := Database.exists_write?_empty name true
      simp only [perform, insert_of_write? (s := { issued }) rfl rfl hfault]
  | count conditions => rfl
  | find conditions refinements length => rfl
  | fetch service request => rfl

theorem find?_of_find {db : Database} {v length : Value} {calls : List Call} {records : List Value}
    (hopened : s.opened = .ok db) (h : s.find name v calls length = .ok records) :
    (db.find? name).isSome := by
  obtain ⟨_, _, _, table, _, -, -, -, htable, -⟩ := find_runs h
  rw [Database.find?_of_read? (read?_of_opened hopened htable)]
  rfl

/-- What a store in memory answers is that a table is made, or how many rows a listing has. -/
theorem answer_of_memory (h : s.location = .memory) {step : Step} {answer : Answer}
    (hanswer : (s.perform name step).1 = .ok answer) : answer = .done ∨ ∃ n, answer = .count n := by
  cases step with
  | create =>
      obtain ⟨_, -, rfl⟩ := map_eq_ok_iff.mp hanswer
      exact .inl rfl
  | insert documents =>
      obtain ⟨fault, hfault⟩ := Database.exists_write?_empty name false
      rw [perform, insert_of_write? (opened_of_memory h) (keep_of_memory h _) hfault] at hanswer
      obtain ⟨keys, hkeys, -⟩ := map_eq_ok_iff.mp hanswer
      obtain ⟨_, -, hkeys⟩ := bind_eq_ok_iff.mp hkeys
      cases hkeys
  | count conditions =>
      obtain ⟨n, -, rfl⟩ := map_eq_ok_iff.mp hanswer
      exact .inr ⟨n, rfl⟩
  | find conditions refinements length =>
      obtain ⟨records, hrecords, -⟩ := map_eq_ok_iff.mp hanswer
      cases find?_of_find (opened_of_memory h) hrecords
  | fetch service request =>
      obtain ⟨page, hpage, -⟩ := map_eq_ok_iff.mp hanswer
      obtain ⟨v, calls, records, hrecords, -⟩ := find_of_fetchPage hpage
      cases find?_of_find (opened_of_memory h) hrecords

/-! ### Sessions -/

/-- Each step of a session is the first one. -/
theorem run_of_memory (h : s.location = .memory) (steps : List Step) :
    s.run (steps.map (name, ·)) = (steps.map fun step => (s.perform name step).1, s) := by
  induction steps with
  | nil => rfl
  | cons step rest ih =>
      rw [List.map_cons, run_cons, perform_of_memory h, ih]
      rfl

/-- On a file this is so until the table is made. -/
theorem run_new_file {issued : Nat} {steps : List Step}
    (h : .create ∈ steps.dropLast → name.checkCreation.isOk = false) :
    (({ issued } : Store).run (steps.map (name, ·))).1 =
      steps.map fun step => (({ issued } : Store).perform name step).1 := by
  induction steps with
  | nil => rfl
  | cons step rest ih =>
      cases rest with
      | nil => rfl
      | cons next rest =>
          rw [List.dropLast_cons_of_ne_nil (List.cons_ne_nil next rest), List.mem_cons] at h
          have hsame : (({ issued } : Store).perform name step).2 = { issued } :=
            perform_new_file fun hstep => h (.inl hstep.symm)
          rw [List.map_cons, run_cons, hsame, ih fun hlater => h (.inr hlater)]
          rfl

/-- A session on a store in memory leaves it as it was, and each step is answered as by a new file.
So it has the answers that it has on a file, as long as no table has been made; after that, the
answers on the file are other ones, since in memory there is still nothing to insert into, to find
or to fetch. -/
theorem memory_forgets (hmemory : s.location = .memory) (hname : name.folded ≠ "dbstat")
    (steps : List Step) :
    s.run (steps.map (name, ·)) =
        (steps.map fun step => (({ issued := s.issued } : Store).perform name step).1, s) ∧
      ((.create ∈ steps.dropLast → name.checkCreation.isOk = false) →
        (s.run (steps.map (name, ·))).1 =
          (({ issued := s.issued } : Store).run (steps.map (name, ·))).1) ∧
      ∀ answer, .ok answer ∈ (s.run (steps.map (name, ·))).1 →
        answer = .done ∨ ∃ n, answer = .count n := by
  have hanswers : (steps.map fun step => (s.perform name step).1) =
      steps.map fun step => (({ issued := s.issued } : Store).perform name step).1 :=
    List.map_congr_left fun step _ => perform_fresh hmemory hname step
  rw [run_of_memory hmemory]
  refine ⟨by rw [hanswers], fun hnew => ?_, fun answer hanswer => ?_⟩
  · rw [run_new_file hnew, hanswers]
  · obtain ⟨step, -, hstep⟩ := List.mem_map.mp hanswer
    exact answer_of_memory hmemory hstep

/-- Before the table is made, and when it is made, nothing tells the two apart. -/
theorem memory_forgets_docs :
    let docs : TableName := ⟨"docs"⟩
    let memory : Store := { location := .memory }
    let steps : List Step :=
      [.count .null, .insert (.list [.map [(keyName, .text "a")]]), .create]
    memory.location = .memory ∧ docs.folded ≠ "dbstat" ∧ .create ∉ steps.dropLast ∧
      (memory.run (steps.map (docs, ·))).1 = (({} : Store).run (steps.map (docs, ·))).1 ∧
      (memory.run (steps.map (docs, ·))).1.map Except.isOk = [false, false, true] ∧
      (memory.run (steps.map (docs, ·))).2 = memory := by
  intro docs memory steps
  have hname : docs.folded ≠ "dbstat" := by decide
  have hnew : .create ∉ steps.dropLast := by simp [steps]
  obtain ⟨hrun, hagree, -⟩ := memory_forgets (s := memory) rfl hname steps
  exact ⟨rfl, hname, hnew, hagree fun h => absurd h hnew, by decide +kernel, by rw [hrun]⟩

/-- Once the table is made, a file has it and counts no documents, and in memory it is not there. -/
theorem memory_differs :
    let docs : TableName := ⟨"docs"⟩
    let memory : Store := { location := .memory }
    let session : List (TableName × Step) := [(docs, .create), (docs, .count .null)]
    (memory.run session).1 = [.ok .done, .error (.store (.noSuchTable "docs"))] ∧
      (({} : Store).run session).1 = [.ok .done, .ok (.count 0)] := by
  intro docs memory session
  have hmade : (({} : Store).createTable docs).1 = .ok () := eq_ok_of_isOk () (by decide +kernel)
  have hmade' : (memory.createTable docs).1 = .ok () := eq_ok_of_isOk () (by decide +kernel)
  have hforgotten : memory.count docs .null = .error (.store (.noSuchTable "docs")) :=
    eq_error_of_error? (by decide +kernel)
  have hcount : (({} : Store).createTable docs).2.count docs .null = .ok 0 :=
    eq_ok_of_toOption (by decide +kernel)
  constructor
  · calc (memory.run session).1
      _ = [(memory.createTable docs).1.map fun _ => .done,
            ((memory.perform docs .create).2.count docs .null).map .count] := rfl
      _ = [.ok .done, .error (.store (.noSuchTable "docs"))] := by
          rw [hmade', perform_of_memory rfl, hforgotten]
          rfl
  · calc (({} : Store).run session).1
      _ = [(({} : Store).createTable docs).1.map fun _ => .done,
            ((({} : Store).createTable docs).2.count docs .null).map .count] := rfl
      _ = [.ok .done, .ok (.count 0)] := by
          rw [hmade, hcount]
          rfl

end Store

end DocFilter
