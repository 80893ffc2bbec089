import DocFilter.Proofs.Store.Alike
import DocFilter.Proofs.Store.Lookups

/-!
Tables of one file do not disturb each other.

Two databases are alike at a name if they have the same table of that name. A step on another table
keeps a database alike to what it was (`alikeAt_perform_other`), and a step on the table itself does
the same in databases that are alike, and keeps them alike (`perform_congr`). So by induction on the
session, what is answered on one table is what is answered if nothing is done on the others
(`session_isolated`). All tables take the keys that are made up from one supply, so the shorter
session is one in which every step makes up the keys that it made up before; where nothing on the
other tables makes up keys, it is just the session of the steps that are left.

Tables are told apart by their names in lower case, and the listings of tables are no tables of
their own: two names can be different and one table, and a listing shows what is done on other names
(`session_not_isolated`).
-/

namespace DocFilter

open Outcome

/-! ### Listings -/

theorem countRows_nil (table : Table) : countRows [] table = .ok table.rows.length := by
  have hall : ∀ p ∈ (Plan.toCount (Condition.conjunctsOf [])).visited table.rows,
      ∃ holds, Condition.evalAll p.1.read [] = .ok holds := fun _ _ => ⟨true, rfl⟩
  obtain ⟨found, hfound⟩ := Selection.scan_of_evaluates hall none
  have hcount : countRows [] table = .ok found.length :=
    bind_eq_ok_iff.mpr ⟨(), rfl, bind_eq_ok_iff.mpr ⟨found, mapError_eq_ok_iff.mpr hfound, rfl⟩⟩
  rw [hcount, countRows_eq_ok hcount]
  congr 2
  simp [Row.satisfies, Condition.evalAll]

/-- It can be asked of listings as well, since it names no column. -/
theorem Store.count_null {s : Store} {name : TableName} {table : Table}
    (h : s.openTable name [] [] = .ok table) : s.count name .null = .ok table.rows.length :=
  bind_eq_ok_iff.mpr ⟨[], rfl, bind_eq_ok_iff.mpr ⟨table, h, countRows_nil table⟩⟩

/-- How many rows the listing of the name has depends on the tables that there are. -/
def TableName.countsTables (name : TableName) : Bool :=
  ["sqlite_master", "sqlite_schema", "dbstat", "pragma_table_list"].contains name.folded

namespace Listing

variable {name : TableName}

theorem folded_of_question? {question : String} (h : question? name = some question) :
    name.folded = "pragma_" ++ question := by
  unfold question? at h
  split_ifs at h with hstarts
  obtain ⟨rest, hrest⟩ := String.startsWith_string_iff.mp hstarts
  have hlength : "pragma_".length = "pragma_".toList.length := rfl
  rw [← Option.some.inj h, ← String.toList_inj, String.toList_append, ← hrest, hlength,
    List.drop_left]
  simp

theorem answers?_congr {question : String} (h : question ≠ "table_list") (n m : Nat) :
    answers? question n = answers? question m := by
  unfold answers?
  split_ifs
  · rfl
  · rfl
  · split <;> first | rfl | exact absurd rfl h

theorem find?_congr (h : name.countsTables = false) (n m : Nat) (isFile : Bool) :
    find? name n isFile = find? name m isFile := by
  have hquestion : (question? name).bind (answers? · n) = (question? name).bind (answers? · m) := by
    refine Option.bind_congr fun question hasked => answers?_congr ?_ n m
    rintro rfl
    rw [TableName.countsTables, folded_of_question? hasked] at h
    exact absurd h (by decide)
  unfold find?
  split
  all_goals first
    | rw [hquestion]
    | rename_i hname; rw [TableName.countsTables, hname] at h; exact absurd h (by decide)
    | rfl

end Listing

/-! ### Databases that are alike at a name -/

namespace Database

/-- What is found at the name is up to the table of that name: there is one, or no listing of that
name counts tables. -/
def Settles (db : Database) (name : TableName) : Prop :=
  name.countsTables = false ∨ (db.find? name).isSome

/-- The databases have the same table of the name, or both have none. -/
structure AlikeAt (name : TableName) (db other : Database) : Prop where
  isFile : db.isFile = other.isFile
  table : db.find? name = other.find? name
  settles : db.Settles name

variable {name other : TableName} {db db' db'' : Database}

namespace AlikeAt

theorem refl (h : db.Settles name) : AlikeAt name db db := ⟨rfl, rfl, h⟩

theorem symm (h : AlikeAt name db db') : AlikeAt name db' db :=
  ⟨h.isFile.symm, h.table.symm, by rw [Settles, ← h.table]; exact h.settles⟩

theorem trans (h : AlikeAt name db db') (h' : AlikeAt name db' db'') : AlikeAt name db db'' :=
  ⟨h.isFile.trans h'.isFile, h.table.trans h'.table, h.settles⟩

/-- Names that are read as one are names of one table. -/
theorem of_folded (h : AlikeAt name db db') (hsame : other.folded = name.folded) :
    AlikeAt other db db' := by
  refine ⟨h.isFile, ?_, ?_⟩
  · rw [find?_congr hsame, find?_congr hsame, h.table]
  · rw [Settles, TableName.countsTables, hsame, find?_congr hsame]
    exact h.settles

theorem listing?_eq (h : AlikeAt name db db') (hnone : db.find? name = none) :
    db.listing? name = db'.listing? name := by
  have hname : name.countsTables = false := h.settles.resolve_right (by simp [hnone])
  rw [listing?, listing?, h.isFile, Listing.find?_congr hname]

theorem read?_eq (h : AlikeAt name db db') (columns : List String) :
    db.read? name columns = db'.read? name columns := by
  unfold read?
  rw [← h.table]
  cases hfind : db.find? name with
  | some table => rfl
  | none => simp only [h.listing?_eq hfind]

theorem write?_eq (h : AlikeAt name db db') : db.write? name = db'.write? name := by
  unfold write?
  rw [← h.table]
  cases hfind : db.find? name with
  | some table => rfl
  | none => simp only [h.listing?_eq hfind]

theorem setRows (h : AlikeAt name db db') (rows : List Row) :
    AlikeAt name (db.setRows name rows) (db'.setRows name rows) := by
  refine ⟨h.isFile, ?_, h.settles.imp_right fun hthere => ?_⟩
  · rw [find?_setRows, find?_setRows, h.table]
  · rw [find?_setRows, if_pos rfl, Option.isSome_map, hthere]

theorem create (h : AlikeAt name db db') :
    (∃ fault, db.create name = .error fault ∧ db'.create name = .error fault) ∨
      ∃ made made', db.create name = .ok made ∧ db'.create name = .ok made' ∧
        AlikeAt name made made' := by
  unfold Database.create
  rw [← h.table]
  cases name.checkCreation with
  | error fault => exact .inl ⟨fault, rfl, rfl⟩
  | ok _ =>
      refine .inr ?_
      cases hfind : db.find? name with
      | some table => exact ⟨db, db', rfl, rfl, h⟩
      | none =>
          refine ⟨_, _, rfl, rfl, h.isFile, ?_, .inl (h.settles.resolve_right (by simp [hfind]))⟩
          have hfind' := h.table ▸ hfind
          unfold find? at hfind hfind' ⊢
          rw [List.find?_append, List.find?_append, hfind, hfind']

end AlikeAt

theorem alikeAt_setRows_other (hsettles : db.Settles name) (h : other.folded ≠ name.folded)
    (rows : List Row) : AlikeAt name db (db.setRows other rows) :=
  ⟨rfl, by rw [find?_setRows, if_neg (Ne.symm h)], hsettles⟩

theorem alikeAt_create_other (hsettles : db.Settles name) (h : other.folded ≠ name.folded)
    (hmade : db.create other = .ok db') : AlikeAt name db db' := by
  unfold create at hmade
  obtain ⟨_, _, hmade⟩ := bind_eq_ok_iff.mp hmade
  split at hmade
  · cases hmade
    exact .refl hsettles
  · cases hmade
    refine ⟨rfl, ?_, hsettles⟩
    have hnone : [({ name := other } : Table)].find? (fun table => table.name.folded = name.folded) =
        none := by
      simp [h]
    unfold find?
    rw [List.find?_append, hnone, Option.or_none]

end Database

/-! ### Insertions -/

namespace Connection

variable {name other : TableName} {c d : Connection}

theorem insertRow_congr (h : Database.AlikeAt name c.working d.working) (row : Row) :
    (∃ fault, c.insertRow name row = .error fault ∧ d.insertRow name row = .error fault) ∨
      ∃ c' d', c.insertRow name row = .ok c' ∧ d.insertRow name row = .ok d' ∧
        Database.AlikeAt name c'.working d'.working := by
  unfold insertRow
  rw [← h.write?_eq]
  cases c.working.write? name with
  | error fault => exact .inl ⟨fault, rfl, rfl⟩
  | ok table =>
      cases hadd : table.add row with
      | error fault =>
          exact .inl ⟨fault, bind_eq_error_iff.mpr (.inr ⟨_, rfl, bind_eq_error_iff.mpr (.inl hadd)⟩),
            bind_eq_error_iff.mpr (.inr ⟨_, rfl, bind_eq_error_iff.mpr (.inl hadd)⟩)⟩
      | ok added =>
          exact .inr ⟨_, _, bind_eq_ok_iff.mpr ⟨_, rfl, bind_eq_ok_iff.mpr ⟨_, hadd, rfl⟩⟩,
            bind_eq_ok_iff.mpr ⟨_, rfl, bind_eq_ok_iff.mpr ⟨_, hadd, rfl⟩⟩, h.setRows _⟩

theorem insertEach_congr (h : Database.AlikeAt name c.working d.working) (rows : List Row) :
    (c.insertEach name rows).1 = (d.insertEach name rows).1 ∧
      Database.AlikeAt name (c.insertEach name rows).2.working
        (d.insertEach name rows).2.working := by
  induction rows generalizing c d with
  | nil => exact ⟨rfl, h⟩
  | cons row rest ih =>
      unfold insertEach
      obtain ⟨fault, hc, hd⟩ | ⟨c', d', hc, hd, halike⟩ := insertRow_congr h row
      · rw [hc, hd]
        exact ⟨rfl, h⟩
      · rw [hc, hd]
        exact ih halike

theorem insertRows_congr (h : Database.AlikeAt name c.working d.working) (rows : List Row) :
    (c.insertRows name rows).1 = (d.insertRows name rows).1 ∧
      Database.AlikeAt name (c.insertRows name rows).2.working
        (d.insertRows name rows).2.working := by
  unfold insertRows
  rw [← h.write?_eq]
  cases c.working.write? name with
  | error fault => exact ⟨rfl, h⟩
  | ok table => exact insertEach_congr h rows

theorem alikeAt_insertEach_other (hsettles : c.working.Settles name)
    (h : other.folded ≠ name.folded) (rows : List Row) :
    Database.AlikeAt name c.working (c.insertEach other rows).2.working :=
  insertEach_preserves (fun _ rows halike =>
    halike.trans (Database.alikeAt_setRows_other halike.symm.settles h rows)) (.refl hsettles) rows

end Connection

/-! ### Steps -/

namespace Store

/-- Both stores are kept in files that are alike at the name. -/
structure AlikeAt (name : TableName) (s t : Store) : Prop where
  isFile : s.location = .file
  isFile' : t.location = .file
  database : Database.AlikeAt name s.database t.database

variable {name other : TableName} {s t u : Store}

namespace AlikeAt

theorem refl (hfile : s.location = .file) (h : s.database.Settles name) : AlikeAt name s s :=
  ⟨hfile, hfile, .refl h⟩

theorem symm (h : AlikeAt name s t) : AlikeAt name t s := ⟨h.isFile', h.isFile, h.database.symm⟩

theorem trans (h : AlikeAt name s t) (h' : AlikeAt name t u) : AlikeAt name s u :=
  ⟨h.isFile, h'.isFile', h.database.trans h'.database⟩

theorem of_folded (h : AlikeAt name s t) (hsame : other.folded = name.folded) :
    AlikeAt other s t :=
  ⟨h.isFile, h.isFile', h.database.of_folded hsame⟩

theorem sameAt (h : AlikeAt name s t) : SameAt name s t := by
  intro conditions columns
  simp only [openTable, opened, h.isFile, h.isFile', bind, Except.bind,
    h.database.read?_eq columns]

theorem keep {db db' : Database} (h : AlikeAt name s t) (hdb : Database.AlikeAt name db db') :
    AlikeAt name (s.keep db) (t.keep db') := by
  rw [keep_of_isFile h.isFile, keep_of_isFile h.isFile']
  exact ⟨h.isFile, h.isFile', hdb⟩

theorem createTable (h : AlikeAt name s t) :
    (s.createTable name).1 = (t.createTable name).1 ∧
      AlikeAt name (s.createTable name).2 (t.createTable name).2 := by
  unfold Store.createTable
  simp only [opened, h.isFile, h.isFile']
  obtain ⟨fault, hs, ht⟩ | ⟨made, made', hs, ht, halike⟩ := h.database.create
  · rw [hs, ht]
    exact ⟨rfl, h⟩
  · rw [hs, ht]
    exact ⟨rfl, h.keep halike⟩

theorem transact {statements : Connection → Except StoreFault Unit × Connection}
    (h : AlikeAt name s t) (hstored : ∀ c, (statements c).2.stored = c.stored)
    (hresult : (statements (.ofDatabase s.database)).1 = (statements (.ofDatabase t.database)).1)
    (hworking : Database.AlikeAt name (statements (.ofDatabase s.database)).2.working
      (statements (.ofDatabase t.database)).2.working) :
    (s.transact statements).1 = (t.transact statements).1 ∧
      AlikeAt name (s.transact statements).2 (t.transact statements).2 := by
  have hold := hstored (.ofDatabase s.database)
  have hold' := hstored (.ofDatabase t.database)
  unfold Store.transact
  simp only [opened, h.isFile, h.isFile']
  revert hresult hworking hold hold'
  obtain ⟨result, c⟩ := statements (.ofDatabase s.database)
  obtain ⟨result', d⟩ := statements (.ofDatabase t.database)
  rintro rfl hworking hold hold'
  cases result with
  | ok _ => exact ⟨rfl, h.keep hworking⟩
  | error fault =>
      refine ⟨rfl, h.keep ?_⟩
      rw [Connection.rollback, Connection.rollback, hold, hold']
      exact h.database

theorem insert (h : AlikeAt name s t) (hissued : s.issued = t.issued) (documents : Value) :
    (s.insert name documents).1 = (t.insert name documents).1 ∧
      AlikeAt name (s.insert name documents).2 (t.insert name documents).2 := by
  have hentries : s.entries documents = t.entries documents := by
    rw [entries, entries, hissued]
  unfold Store.insert
  rw [← hentries]
  cases s.entries documents with
  | error failure => exact ⟨rfl, h⟩
  | ok found =>
      obtain ⟨entries, issued⟩ := found
      dsimp only
      generalize entries.map (·.row) = rows
      have hsame : Database.AlikeAt name (Connection.ofDatabase s.database).working
          (Connection.ofDatabase t.database).working := h.database
      have hstored : ∀ c : Connection, (c.insertRows name rows).2.stored = c.stored :=
        fun c => c.stored_insertRows name rows
      obtain ⟨hresult, hworking⟩ := Connection.insertRows_congr hsame rows
      obtain ⟨hresult, halike⟩ := h.transact hstored hresult hworking
      revert hresult halike
      generalize s.transact (fun c => c.insertRows name rows) = done
      generalize t.transact (fun c => c.insertRows name rows) = done'
      obtain ⟨result, s'⟩ := done
      obtain ⟨result', t'⟩ := done'
      rintro rfl halike
      cases result with
      | ok _ => exact ⟨rfl, halike.isFile, halike.isFile', halike.database⟩
      | error fault => exact ⟨rfl, halike⟩

end AlikeAt

/-- A step on the table does the same in stores that are alike at it, and leaves stores that are. -/
theorem perform_congr (h : AlikeAt name s t) (hissued : s.issued = t.issued) (step : Step) :
    (s.perform name step).1 = (t.perform name step).1 ∧
      AlikeAt name (s.perform name step).2 (t.perform name step).2 := by
  cases step with
  | create =>
      obtain ⟨hresult, halike⟩ := h.createTable
      exact ⟨by simp only [perform, hresult], halike⟩
  | insert documents =>
      obtain ⟨hresult, halike⟩ := h.insert hissued documents
      exact ⟨by simp only [perform, hresult], halike⟩
  | count conditions => exact ⟨perform_congr_of_isRead h.sameAt rfl, h⟩
  | find conditions refinements length =>
      exact ⟨perform_congr_of_isRead h.sameAt rfl, h⟩
  | fetch service request => exact ⟨perform_congr_of_isRead h.sameAt rfl, h⟩

/-- A step on another table leaves a store that is alike at this one. -/
theorem alikeAt_perform_other (hfile : s.location = .file) (hsettles : s.database.Settles name)
    (h : other.folded ≠ name.folded) (step : Step) :
    AlikeAt name s (s.perform other step).2 := by
  cases step with
  | create =>
      simp only [perform, createTable, opened, hfile]
      split
      · exact .refl hfile hsettles
      · rename_i made hmade
        rw [keep_of_isFile hfile]
        exact ⟨hfile, hfile, Database.alikeAt_create_other hsettles h hmade⟩
  | insert documents =>
      simp only [perform]
      rcases hinsert : s.insert other documents with ⟨result, s'⟩
      cases result with
      | error failure =>
          -- A failed insertion is rolled back.
          rw [insert_eq_error hfile hinsert]
          exact .refl hfile hsettles
      | ok keys =>
          obtain ⟨_, found, issued, c, -, -, -, hc, rfl⟩ := insert_eq_ok hfile hinsert
          have hother := Connection.alikeAt_insertEach_other
            (c := .ofDatabase s.database) hsettles h (found.map (·.row))
          rw [Connection.insertRows_eq_ok hc] at hother
          exact ⟨hfile, hfile, hother⟩
  | count conditions => exact .refl hfile hsettles
  | find conditions refinements length => exact .refl hfile hsettles
  | fetch service request => exact .refl hfile hsettles

end Store

/-! ### Keys that are made up -/

/-- A document for which a key is made up when it is inserted. -/
def Value.lacksKey (document : Value) : Bool :=
  match document.toEntries with
  | .error _ => false
  | .ok entries =>
    match (Value.lookup? entries keyName).getD .null with
    | .null => true
    | _ => false

/-- The number of keys that a step makes up, told by its answer. -/
def Step.madeUp : Step → Except Failure Answer → Nat
  | .insert documents, .ok _ => (documents.elements?.getD []).countP Value.lacksKey
  | _, _ => 0

namespace Entry

theorem issued_ofValue {issued issued' : Nat} {document : Value} {entry : Entry}
    (h : ofValue issued document = .ok (entry, issued')) :
    issued' = issued + if document.lacksKey then 1 else 0 := by
  obtain ⟨entries, given, hentries, hgiven, hkey, -⟩ := ofValue_eq_ok h
  simp only [Value.lacksKey, hentries, hgiven]
  obtain ⟨rfl, -, rfl⟩ | ⟨hne, -, rfl⟩ := hkey
  · rfl
  · cases given
    case null => exact absurd rfl hne
    all_goals rfl

theorem issued_ofValues {issued issued' : Nat} {documents : List Value} {entries : List Entry}
    (h : ofValues issued documents = .ok (entries, issued')) :
    issued' = issued + documents.countP Value.lacksKey := by
  induction documents generalizing issued entries with
  | nil =>
      cases h
      rfl
  | cons document rest ih =>
      obtain ⟨entry, next, others, hentry, hothers, rfl⟩ := ofValues_cons_eq_ok h
      rw [ih hothers, issued_ofValue hentry, List.countP_cons]
      omega

end Entry

namespace Store

variable {s : Store}

theorem issued_perform (hfile : s.location = .file) (name : TableName) (step : Step) :
    (s.perform name step).2.issued = s.issued + step.madeUp (s.perform name step).1 := by
  cases step with
  | create =>
      simp only [perform, createTable, opened, hfile]
      split
      · rfl
      · rw [keep_of_isFile hfile]
        rfl
  | insert documents =>
      simp only [perform]
      rcases hinsert : s.insert name documents with ⟨result, s'⟩
      cases result with
      | error failure =>
          rw [insert_eq_error hfile hinsert]
          rfl
      | ok keys =>
          obtain ⟨items, found, issued, c, hitems, hvalues, -, -, rfl⟩ := insert_eq_ok hfile hinsert
          simp only [Except.map, Step.madeUp, hitems, Option.getD_some]
          exact Entry.issued_ofValues hvalues
  | count conditions => rfl
  | find conditions refinements length => rfl
  | fetch service request => rfl

/-! ### Sessions -/

/-- Carries out a session during which keys are made up elsewhere as well: each step comes with the
number of keys that have been made up before it. -/
def runIssuing (s : Store) :
    List (Nat × TableName × Step) → List (Except Failure Answer) × Store
  | [] => ([], s)
  | (issued, name, step) :: rest =>
    let (answer, s) := { s with issued }.perform name step
    let (answers, s) := runIssuing s rest
    (answer :: answers, s)

/-- The steps of a session, each with the number of keys that have been made up before it. -/
def issuing (s : Store) : List (TableName × Step) → List (Nat × TableName × Step)
  | [] => []
  | (name, step) :: rest => (s.issued, name, step) :: issuing (s.perform name step).2 rest

def answersOn (name : TableName) :
    List (TableName × Step) → List (Except Failure Answer) → List (Except Failure Answer)
  | (other, _) :: steps, answer :: answers =>
    if other.folded = name.folded then answer :: answersOn name steps answers
    else answersOn name steps answers
  | _, _ => []

theorem runIssuing_issuing (s : Store) (session : List (TableName × Step)) :
    s.runIssuing (s.issuing session) = s.run session := by
  induction session generalizing s with
  | nil => rfl
  | cons head rest ih =>
      obtain ⟨name, step⟩ := head
      simp only [issuing, runIssuing, ih]
      rfl

theorem map_issuing (s : Store) (session : List (TableName × Step)) :
    (s.issuing session).map (·.2) = session := by
  induction session generalizing s with
  | nil => rfl
  | cons head rest ih =>
      obtain ⟨name, step⟩ := head
      rw [issuing, List.map_cons, ih]

variable {t : Store} {name : TableName}

/-- What is answered on a table is what is answered if the steps on other tables are left out,
whatever keys are made up, as long as the steps that are left make up the same ones. -/
theorem answersOn_runIssuing (halike : AlikeAt name s t)
    (session : List (Nat × TableName × Step)) :
    answersOn name (session.map (·.2)) (s.runIssuing session).1 =
      (t.runIssuing (session.filter (·.2.1.folded = name.folded))).1 := by
  induction session generalizing s t with
  | nil => rfl
  | cons head rest ih =>
      obtain ⟨issued, other, step⟩ := head
      have hstart : AlikeAt name { s with issued } { t with issued } :=
        ⟨halike.isFile, halike.isFile', halike.database⟩
      by_cases hother : other.folded = name.folded
      · obtain ⟨hanswer, hnext⟩ := perform_congr (hstart.of_folded hother) rfl step
        rw [List.filter_cons_of_pos (by simpa using hother)]
        simp only [List.map_cons, runIssuing, answersOn, if_pos hother, hanswer,
          ih (hnext.of_folded hother.symm)]
      · have hframe := alikeAt_perform_other hstart.isFile hstart.database.settles hother step
        have hnext : AlikeAt name ({ s with issued }.perform other step).2 t :=
          hframe.symm.trans ⟨halike.isFile, halike.isFile', halike.database⟩
        rw [List.filter_cons_of_neg (by simpa using hother)]
        simp only [List.map_cons, runIssuing, answersOn, if_neg hother, ih hnext]

/-- Where nothing else makes up keys, the steps on a table make up the same ones if the others are
left out. -/
theorem filter_issuing (halike : AlikeAt name s t) (hissued : s.issued = t.issued)
    (session : List (TableName × Step))
    (hkeyed : ∀ p ∈ session, p.1.folded ≠ name.folded → ∀ answer, p.2.madeUp answer = 0) :
    (s.issuing session).filter (·.2.1.folded = name.folded) =
      t.issuing (session.filter (·.1.folded = name.folded)) := by
  induction session generalizing s t with
  | nil => rfl
  | cons head rest ih =>
      obtain ⟨other, step⟩ := head
      obtain ⟨hfirst, hothers⟩ := List.forall_mem_cons.mp hkeyed
      by_cases hother : other.folded = name.folded
      · obtain ⟨hanswer, hnext⟩ := perform_congr (halike.of_folded hother) hissued step
        have hnumber : (s.perform other step).2.issued = (t.perform other step).2.issued := by
          rw [issued_perform halike.isFile, issued_perform halike.isFile', hanswer, hissued]
        rw [List.filter_cons_of_pos (by simpa using hother), issuing,
          List.filter_cons_of_pos (by simpa using hother), issuing,
          ih (hnext.of_folded hother.symm) hnumber hothers, hissued]
      · have hframe := alikeAt_perform_other halike.isFile halike.database.settles hother step
        have hnumber : (s.perform other step).2.issued = t.issued := by
          rw [issued_perform halike.isFile, hfirst hother, Nat.add_zero, hissued]
        rw [List.filter_cons_of_neg (by simpa using hother), issuing,
          List.filter_cons_of_neg (by simpa using hother),
          ih (hframe.symm.trans halike) hnumber hothers]

/-- Whatever is done on the other tables of a file, the steps on one table are answered as if it had
not been done: the session without the other steps, in which each step that is left makes up the
keys that it made up before, has the same answers. If no keys are made up for the other tables, they
need not be held fixed. Names that differ by case only are one table, and what a listing of tables
counts is all of them, so there has to be a table that hides it. -/
theorem session_isolated (hfile : s.location = .file) (hsettles : s.database.Settles name)
    (session : List (TableName × Step)) :
    answersOn name session (s.run session).1 =
        (s.runIssuing ((s.issuing session).filter (·.2.1.folded = name.folded))).1 ∧
      ((∀ p ∈ session, p.1.folded ≠ name.folded → ∀ documents, p.2 = .insert documents →
          ∀ document ∈ documents.elements?.getD [], document.lacksKey = false) →
        answersOn name session (s.run session).1 =
          (s.run (session.filter (·.1.folded = name.folded))).1) := by
  have hsame : AlikeAt name s s := .refl hfile hsettles
  have hnumbered := answersOn_runIssuing hsame (s.issuing session)
  rw [map_issuing, runIssuing_issuing] at hnumbered
  refine ⟨hnumbered, fun hkeyed => ?_⟩
  have hnone : ∀ p ∈ session, p.1.folded ≠ name.folded → ∀ answer, p.2.madeUp answer = 0 := by
    rintro ⟨other, step⟩ hp hother answer
    unfold Step.madeUp
    split
    · rename_i hinsert
      exact List.countP_eq_zero.mpr fun document hdocument => by
        simp [hkeyed _ hp hother _ hinsert document hdocument]
    · rfl
  rw [hnumbered, filter_issuing hsame rfl session hnone, runIssuing_issuing]

/-- Keys that are made up for other documents are not made up again; documents that come with their
keys leave no trace. -/
theorem session_isolated_keys :
    let docs : TableName := ⟨"docs"⟩
    let logs : TableName := ⟨"logs"⟩
    let session (other : Value) : List (TableName × Step) :=
      [(docs, .create), (logs, .create), (logs, .insert (.list [other])),
        (docs, .insert (.list [.map [(.text "n", .int 2)]])), (docs, .count .null)]
    let keyless : Value := .map [(.text "n", .int 1)]
    let keyed : Value := .map [(keyName, .text "a")]
    ({} : Store).location = .file ∧ ({} : Database).Settles docs ∧ logs.folded ≠ docs.folded ∧
      answersOn docs (session keyless) (({} : Store).run (session keyless)).1 =
        (({} : Store).runIssuing
          ((({} : Store).issuing (session keyless)).filter (·.2.1.folded = docs.folded))).1 ∧
      (({} : Store).issuing (session keyless)).map (·.1) = [0, 0, 0, 1, 2] ∧
      keyed.lacksKey = false ∧
      answersOn docs (session keyed) (({} : Store).run (session keyed)).1 =
        (({} : Store).run ((session keyed).filter (·.1.folded = docs.folded))).1 := by
  intro docs logs session keyless keyed
  have hsettles : ({} : Database).Settles docs := .inl (by decide)
  refine ⟨rfl, hsettles, by decide, ?_, by decide +kernel, by decide +kernel, ?_⟩
  · exact (session_isolated rfl hsettles (session keyless)).1
  · refine (session_isolated rfl hsettles (session keyed)).2 ?_
    intro p hp hother documents hinsert
    simp only [session, List.mem_cons, List.not_mem_nil, or_false] at hp
    rcases hp with rfl | rfl | rfl | rfl | rfl
    · exact absurd rfl hother
    · cases hinsert
    · cases hinsert
      decide +kernel
    · exact absurd rfl hother
    · exact absurd rfl hother

/-- Different names need not be different tables: a name in capitals is let through and is the same
table, and so is a name with a line feed behind it. A listing that no table hides has two rows for
each table that is made. -/
theorem session_not_isolated :
    let docs : TableName := ⟨"docs"⟩
    let capitals : TableName := ⟨"DOCS"⟩
    let listing : TableName := ⟨"sqlite_master"⟩
    let documents : Value := .list [.map [(keyName, .text "a")]]
    let session : List (TableName × Step) :=
      [(docs, .create), (capitals, .insert documents), (docs, .count .null)]
    let listed : List (TableName × Step) := [(docs, .create), (listing, .count .null)]
    TableName.ofValue (.text "docs") = .ok docs ∧ TableName.ofValue (.text "docs\n") = .ok docs ∧
      TableName.ofValue (.text "DOCS") = .ok capitals ∧ docs ≠ capitals ∧
      (({} : Store).run session).1.eraseIdx 1 = [.ok .done, .ok (.count 1)] ∧
      (({} : Store).run (session.filter (·.1 = docs))).1 = [.ok .done, .ok (.count 0)] ∧
      TableName.ofValue (.text "sqlite_master") = .ok listing ∧ docs.folded ≠ listing.folded ∧
      (({} : Store).run listed).1.eraseIdx 0 = [.ok (.count 2)] ∧
      (({} : Store).run (listed.filter (·.1 = listing))).1 = [.ok (.count 0)] := by
  have hlisted : (({} : Store).createTable ⟨"docs"⟩).2.openTable ⟨"sqlite_master"⟩ [] [] =
      .ok ⟨⟨"sqlite_master"⟩, [⟨"", ""⟩, ⟨"", ""⟩]⟩ := by rfl
  intro docs capitals listing documents session listed
  have hmade : (({} : Store).createTable docs).1 = .ok () := eq_ok_of_isOk () (by decide +kernel)
  have hone : (({} : Store).run (session.take 2)).2.count docs .null = .ok 1 :=
    eq_ok_of_toOption (by decide +kernel)
  have hnone : (({} : Store).createTable docs).2.count docs .null = .ok 0 :=
    eq_ok_of_toOption (by decide +kernel)
  have hempty : ({} : Store).count listing .null = .ok 0 := eq_ok_of_toOption (by decide +kernel)
  refine ⟨rfl, rfl, rfl, by decide, ?_, ?_, rfl, by decide, ?_, ?_⟩
  · calc (({} : Store).run session).1.eraseIdx 1
      _ = [(({} : Store).createTable docs).1.map fun _ => .done,
            ((({} : Store).run (session.take 2)).2.count docs .null).map .count] := rfl
      _ = [.ok .done, .ok (.count 1)] := by rw [hmade, hone]; rfl
  · calc (({} : Store).run [(docs, .create), (docs, .count .null)]).1
      _ = [(({} : Store).createTable docs).1.map fun _ => .done,
            ((({} : Store).createTable docs).2.count docs .null).map .count] := rfl
      _ = [.ok .done, .ok (.count 0)] := by rw [hmade, hnone]; rfl
  · calc (({} : Store).run listed).1.eraseIdx 0
      _ = [((({} : Store).createTable docs).2.count listing .null).map .count] := rfl
      _ = [.ok (.count 2)] := by rw [count_null hlisted]; rfl
  · calc (({} : Store).run [(listing, .count .null)]).1
      _ = [(({} : Store).count listing .null).map .count] := rfl
      _ = [.ok (.count 0)] := by rw [hempty]; rfl

end Store

end DocFilter
