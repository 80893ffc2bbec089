import DocFilter.Proofs.Outcome
import DocFilter.Session

/-!
What a session leaves in a table.

Only a step that makes a table or inserts documents can change a store, and an insertion does so in
a transaction: its rows go into the copy of the connection one after the other, so that a row that
is refused finds the rows in front of it in the copy already. What is stored is not touched before
the commit (`stored_insertEach`), and so nothing has to be undone in it wherever the failure falls.

A step is described by the rows it adds, its *batch*: one row for each document of an insertion that
succeeded, and none otherwise (`rows_perform`). By induction on the session, a table holds what it
held at the start and then all batches in order, and its keys stay distinct (`rows_run`).
-/

namespace DocFilter

open Outcome

/-! ### The rows of a table -/

def Database.rows (db : Database) (name : TableName) : List Row :=
  ((db.find? name).map (·.rows)).getD []

def Store.rows (s : Store) (name : TableName) : List Row := s.database.rows name

namespace Database

variable {db : Database} {name other : TableName}

theorem rows_of_find? {table : Table} (h : db.find? name = some table) :
    db.rows name = table.rows := by
  simp [rows, h]

theorem find?_congr (h : name.folded = other.folded) : db.find? name = db.find? other := by
  simp [find?, h]

theorem rows_congr (h : name.folded = other.folded) : db.rows name = db.rows other := by
  simp [rows, find?_congr h]

theorem find?_setRows (rows : List Row) :
    (db.setRows name rows).find? other =
      if other.folded = name.folded then (db.find? other).map fun table => { table with rows }
      else db.find? other := by
  have hname : ∀ table : Table,
      (if table.name.folded = name.folded then { table with rows } else table).name =
        table.name := by
    intro table
    split <;> rfl
  simp only [find?, setRows, List.find?_map, Function.comp_def, hname]
  cases hfind : db.tables.find? (fun table => decide (table.name.folded = other.folded)) with
  | none => simp
  | some table =>
      have hfolded : table.name.folded = other.folded := by
        simpa using List.find?_some hfind
      simp only [Option.map_some, hfolded]
      split <;> rfl

theorem rows_setRows (rows : List Row) (h : (db.find? name).isSome) :
    (db.setRows name rows).rows other =
      if other.folded = name.folded then rows else db.rows other := by
  unfold Database.rows
  rw [find?_setRows]
  split
  · rename_i hfolded
    obtain ⟨table, htable⟩ := Option.isSome_iff_exists.mp h
    simp [find?_congr hfolded, htable]
  · rfl

theorem find?_of_write? {table : Table} (h : db.write? name = .ok table) :
    db.find? name = some table := by
  unfold write? at h
  obtain ⟨_, _, h⟩ := bind_eq_ok_iff.mp h
  split at h
  · rename_i found hfound
    cases h
    exact hfound
  · obtain ⟨listing, _, h⟩ := bind_eq_ok_iff.mp h
    split at h <;> cases h

theorem rows_create {made : Database} (h : db.create name = .ok made) :
    made.rows other = db.rows other := by
  unfold create at h
  obtain ⟨_, _, h⟩ := bind_eq_ok_iff.mp h
  split at h
  · cases h
    rfl
  · cases h
    unfold Database.rows find?
    simp only [List.find?_append]
    cases db.tables.find? (fun table => decide (table.name.folded = other.folded)) with
    | some table => rfl
    | none =>
        rw [List.find?_singleton]
        split <;> rfl

theorem create_of_isSome {made : Database} (hthere : (db.find? name).isSome)
    (h : db.create name = .ok made) : made = db := by
  obtain ⟨table, htable⟩ := Option.isSome_iff_exists.mp hthere
  unfold create at h
  obtain ⟨_, _, h⟩ := bind_eq_ok_iff.mp h
  rw [htable] at h
  cases h
  rfl

end Database

/-! ### Transactions -/

namespace Connection

variable {c c' : Connection} {name other : TableName}

/-- A row is added behind the others of its table, if its key is not among theirs. -/
theorem insertRow_eq_ok {row : Row} (h : c.insertRow name row = .ok c') :
    (c.working.find? name).isSome ∧ row.key ∉ (c.working.rows name).map (·.key) ∧
      c' = { c with working := c.working.setRows name (c.working.rows name ++ [row]) } := by
  unfold insertRow at h
  obtain ⟨table, htable, h⟩ := bind_eq_ok_iff.mp h
  obtain ⟨added, hadded, h⟩ := bind_eq_ok_iff.mp h
  rw [pure_eq_ok_iff] at h
  have hfind := Database.find?_of_write? htable
  have hrows := Database.rows_of_find? hfind
  unfold Table.add at hadded
  split at hadded
  · cases hadded
  · rename_i hnew
    cases hadded
    refine ⟨by simp [hfind], ?_, by rw [← h, hrows]⟩
    rw [hrows]
    intro hmem
    obtain ⟨other, hother, hkey⟩ := List.mem_map.mp hmem
    exact hnew (List.any_eq_true.mpr ⟨other, hother, by simpa using hkey⟩)

/-- Statements do not touch what is stored, whether they succeed or not. -/
theorem stored_insertEach (c : Connection) (name : TableName) (rows : List Row) :
    (c.insertEach name rows).2.stored = c.stored := by
  induction rows generalizing c with
  | nil => rfl
  | cons row rest ih =>
      simp only [insertEach]
      split
      · rename_i c' hc'
        obtain ⟨_, _, rfl⟩ := insertRow_eq_ok hc'
        exact ih _
      · rfl

/-- What all replacements of the rows of a table keep is kept while rows are added to it, one by one
and up to one that is refused. -/
theorem insertEach_preserves {P : Database → Prop}
    (hset : ∀ db rows, P db → P (db.setRows name rows)) (hstart : P c.working) (rows : List Row) :
    P (c.insertEach name rows).2.working := by
  induction rows generalizing c with
  | nil => exact hstart
  | cons row rest ih =>
      unfold insertEach
      split
      · rename_i c' hc'
        obtain ⟨-, -, rfl⟩ := insertRow_eq_ok hc'
        exact ih (hset _ _ hstart)
      · exact hstart

/-- Rows that are all added stand behind the others of their table, and their keys are new and
distinct; the rows of other tables are as they were. -/
theorem insertEach_eq_ok {rows : List Row} (h : c.insertEach name rows = (.ok (), c')) :
    (∀ other, c'.working.rows other =
      if other.folded = name.folded then c.working.rows other ++ rows else c.working.rows other) ∧
    (Row.Distinct (c.working.rows name) → Row.Distinct (c.working.rows name ++ rows)) := by
  induction rows generalizing c with
  | nil =>
      cases h
      simp
  | cons row rest ih =>
      simp only [insertEach] at h
      split at h
      · rename_i c₁ hc₁
        obtain ⟨hthere, hnew, rfl⟩ := insertRow_eq_ok hc₁
        obtain ⟨hrows, hdistinct⟩ := ih h
        have hone (other : TableName) :
            (c.working.setRows name (c.working.rows name ++ [row])).rows other =
              if other.folded = name.folded then c.working.rows name ++ [row]
              else c.working.rows other := Database.rows_setRows _ hthere
        simp only [hone, if_true, List.append_assoc, List.singleton_append] at hrows hdistinct
        refine ⟨fun other => ?_, fun hold => hdistinct ?_⟩
        · rw [hrows other]
          split
          · rename_i hfolded
            rw [Database.rows_congr hfolded, List.append_assoc, List.singleton_append]
          · rfl
        · unfold Row.Distinct at hold ⊢
          rw [List.map_append, List.nodup_append]
          refine ⟨hold, by simp, ?_⟩
          intro key hkey other hother
          rw [List.map_singleton, List.mem_singleton] at hother
          rintro rfl
          exact hnew (hother ▸ hkey)
      · cases h

theorem stored_insertRows (c : Connection) (name : TableName) (rows : List Row) :
    (c.insertRows name rows).2.stored = c.stored := by
  unfold insertRows
  split
  · exact stored_insertEach c name rows
  · rfl

theorem insertRows_eq_ok {rows : List Row} (h : c.insertRows name rows = (.ok (), c')) :
    c.insertEach name rows = (.ok (), c') := by
  unfold insertRows at h
  split at h
  · exact h
  · cases h

end Connection

namespace Store

variable {s s' : Store} {name other : TableName}

theorem keep_of_isFile (h : s.location = .file) (db : Database) :
    s.keep db = { s with database := db } := by
  simp [keep, h]

/-- Statements that do not touch what is stored have not happened if one of them fails. -/
theorem transact_eq_error {statements : Connection → Except StoreFault Unit × Connection}
    {fault : StoreFault} (hfile : s.location = .file)
    (hstored : ∀ c, (statements c).2.stored = c.stored)
    (h : s.transact statements = (.error fault, s')) : s' = s := by
  have hopened : s.opened = .ok s.database := by simp [opened, hfile]
  have hkept := hstored (Connection.ofDatabase s.database)
  unfold transact at h
  rw [hopened] at h
  simp only at h
  split at h
  · cases h
  · rename_i fault' c hc
    rw [hc] at hkept
    cases h
    rw [keep_of_isFile hfile, Connection.rollback, hkept]
    rfl

/-- What statements have done that all succeed is stored. -/
theorem transact_eq_ok {statements : Connection → Except StoreFault Unit × Connection}
    (hfile : s.location = .file) (h : s.transact statements = (.ok (), s')) :
    ∃ c, statements (Connection.ofDatabase s.database) = (.ok (), c) ∧
      s' = { s with database := c.working } := by
  have hopened : s.opened = .ok s.database := by simp [opened, hfile]
  unfold transact at h
  rw [hopened] at h
  simp only at h
  split at h
  · rename_i c hc
    cases h
    exact ⟨c, hc, keep_of_isFile hfile _⟩
  · cases h

end Store

/-! ### What documents are stored as -/

/-- The text of the entries of a document apart from its key, empty for what cannot be stored. -/
def Value.storedBody (document : Value) : String :=
  let body : Except Failure String := do
    let entries ← document.toEntries
    (Value.map (Value.eraseKey entries keyName)).storedJson
  match body with
  | .ok json => json
  | .error _ => ""

/-- The row of a document under a key. -/
def Row.ofDocument (key document : Value) : Row := ⟨key.display, document.storedBody⟩

theorem Row.keys_ofDocument {keys documents : List Value}
    (h : keys.length = documents.length) :
    (List.zipWith Row.ofDocument keys documents).map (·.key) = keys.map Value.display := by
  induction keys generalizing documents with
  | nil => rfl
  | cons key keys ih =>
      obtain ⟨document, rest, rfl⟩ := List.exists_cons_of_length_eq_add_one h.symm
      simp only [List.length_cons, Nat.add_right_cancel_iff] at h
      simp [Row.ofDocument, ih h]

namespace Entry

/-- What the entry of a document is made of: a key, which is made up for a document without one, the
text of the key, and what is written of the other entries. -/
theorem ofValue_eq_ok {issued issued' : Nat} {document : Value} {entry : Entry}
    (h : ofValue issued document = .ok (entry, issued')) :
    ∃ entries given, document.toEntries = .ok entries ∧
      (Value.lookup? entries keyName).getD .null = given ∧
      ((given = .null ∧ entry.key = .objectId (ObjectId.issued (issued + 1)) ∧
          issued' = issued + 1) ∨
        (given ≠ .null ∧ entry.key = given ∧ issued' = issued)) ∧
      entry.key.shown = .ok entry.row.key ∧
      (Value.map (Value.eraseKey entries keyName)).storedJson = .ok entry.row.document := by
  unfold ofValue at h
  obtain ⟨entries, hentries, h⟩ := bind_eq_ok_iff.mp h
  refine ⟨entries, _, hentries, rfl, ?_⟩
  generalize (Value.lookup? entries keyName).getD .null = given at h ⊢
  cases given
  all_goals
    obtain ⟨shown, hshown, h⟩ := bind_eq_ok_iff.mp h
    obtain ⟨json, hjson, h⟩ := bind_eq_ok_iff.mp h
    rw [pure_eq_ok_iff] at h
    cases h
    simp [hshown, hjson]

theorem row_ofValue {issued issued' : Nat} {document : Value} {entry : Entry}
    (h : ofValue issued document = .ok (entry, issued')) :
    entry.row = Row.ofDocument entry.key document := by
  obtain ⟨entries, _, hentries, -, -, hshown, hjson⟩ := ofValue_eq_ok h
  have hbody : document.storedBody = entry.row.document := by
    simp only [Value.storedBody, hentries, bind, Except.bind, hjson]
  rw [Row.ofDocument, hbody, Value.display_of_shown hshown]

section Entries

variable {issued issued' : Nat} {document : Value} {documents : List Value} {entries : List Entry}

theorem ofValues_cons_eq_ok (h : ofValues issued (document :: documents) = .ok (entries, issued')) :
    ∃ entry next rest, ofValue issued document = .ok (entry, next) ∧
      ofValues next documents = .ok (rest, issued') ∧ entries = entry :: rest := by
  unfold ofValues at h
  obtain ⟨⟨entry, next⟩, hentry, h⟩ := bind_eq_ok_iff.mp h
  obtain ⟨⟨rest, last⟩, hrest, h⟩ := bind_eq_ok_iff.mp h
  rw [pure_eq_ok_iff] at h
  cases h
  exact ⟨entry, next, rest, hentry, hrest, rfl⟩

theorem made_ofValues (h : ofValues issued documents = .ok (entries, issued')) :
    List.Forall₂ (fun document entry => ∃ n n', ofValue n document = .ok (entry, n'))
      documents entries := by
  induction documents generalizing issued entries with
  | nil =>
      cases h
      exact .nil
  | cons document rest ih =>
      obtain ⟨entry, next, others, hentry, hothers, rfl⟩ := ofValues_cons_eq_ok h
      exact .cons ⟨_, _, hentry⟩ (ih hothers)

/-- There is one row for each document, in order, under the key that is returned for it. -/
theorem rows_ofValues (h : ofValues issued documents = .ok (entries, issued')) :
    entries.length = documents.length ∧
      entries.map (·.row) =
        List.zipWith Row.ofDocument (entries.map (·.key)) documents := by
  have hmade := made_ofValues h
  refine ⟨hmade.length_eq.symm, ?_⟩
  clear h
  induction hmade with
  | nil => rfl
  | cons hentry _ ih =>
      obtain ⟨_, _, hentry⟩ := hentry
      simp [ih, row_ofValue hentry]

end Entries

end Entry

/-! ### Steps -/

def Step.isRead : Step → Bool
  | .create => false
  | .insert _ => false
  | _ => true

/-- The rows that a step adds, told by its answer: the documents of an insertion that succeeded
under the keys it returned. -/
def Step.batch : Step → Except Failure Answer → List Row
  | .insert documents, .ok (.keys keys) =>
      List.zipWith Row.ofDocument keys (documents.elements?.getD [])
  | _, _ => []

/-- The documents that a step adds, each with the key that was returned for it. -/
def Step.inserted : Step → Except Failure Answer → List (Value × Value)
  | .insert documents, .ok (.keys keys) => keys.zip (documents.elements?.getD [])
  | _, _ => []

theorem Step.batch_eq_map (step : Step) (answer : Except Failure Answer) :
    step.batch answer = (step.inserted answer).map fun p => Row.ofDocument p.1 p.2 := by
  unfold Step.batch Step.inserted
  split
  · rw [← List.map_uncurry_zip_eq_zipWith]
    rfl
  · rfl

namespace Store

variable {s s' : Store} {name other : TableName}

theorem insert_eq_error {documents : Value} {failure : Failure} (hfile : s.location = .file)
    (h : s.insert name documents = (.error failure, s')) : s' = s := by
  unfold insert at h
  split at h
  · cases h
    rfl
  · split at h
    · cases h
    · rename_i htransact
      cases h
      exact transact_eq_error hfile (fun c => Connection.stored_insertRows c name _) htransact

/-- An insertion that succeeds adds the rows of its entries and returns their keys. -/
theorem insert_eq_ok {documents : Value} {keys : List Value} (hfile : s.location = .file)
    (h : s.insert name documents = (.ok keys, s')) :
    ∃ items found issued c, documents.elements? = some items ∧
      Entry.ofValues s.issued items = .ok (found, issued) ∧ keys = found.map (·.key) ∧
      (Connection.ofDatabase s.database).insertRows name (found.map (·.row)) = (.ok (), c) ∧
      s' = { s with database := c.working, issued } := by
  unfold insert at h
  split at h
  · cases h
  · rename_i found issued hentries
    obtain ⟨items, hitems, hvalues⟩ := bind_eq_ok_iff.mp hentries
    have helements : documents.elements? = some items := by
      unfold Value.elements at hitems
      split at hitems
      · rename_i hfound
        cases hitems
        exact hfound
      · cases hitems
    split at h
    · rename_i htransact
      cases h
      obtain ⟨c, hc, rfl⟩ := transact_eq_ok hfile htransact
      exact ⟨items, found, issued, c, helements, hvalues, rfl, hc, rfl⟩
    · cases h

/-- An insertion either adds a row for each of its documents or leaves the store as it was. -/
theorem insert_cases (hfile : s.location = .file) (name : TableName) (documents : Value) :
    (∃ failure, s.insert name documents = (.error failure, s)) ∨
    ∃ keys items s', s.insert name documents = (.ok keys, s') ∧
      documents.elements? = some items ∧ keys.length = items.length ∧ s'.location = .file ∧
      (∀ other, s'.rows other =
        if other.folded = name.folded then s.rows other ++ List.zipWith Row.ofDocument keys items
        else s.rows other) ∧
      (Row.Distinct (s.rows name) → Row.Distinct (s'.rows name)) := by
  rcases hinsert : s.insert name documents with ⟨result, s'⟩
  cases result with
  | error failure =>
      rw [insert_eq_error hfile hinsert]
      exact .inl ⟨failure, rfl⟩
  | ok keys =>
      obtain ⟨items, found, issued, c, helements, hvalues, rfl, hc, rfl⟩ := insert_eq_ok hfile hinsert
      obtain ⟨hrows, hdistinct⟩ := Connection.insertEach_eq_ok (Connection.insertRows_eq_ok hc)
      obtain ⟨hlength, hwritten⟩ := Entry.rows_ofValues hvalues
      rw [hwritten] at hrows hdistinct
      refine .inr ⟨_, items, _, rfl, helements, by simp [hlength], hfile, hrows, fun hold => ?_⟩
      have hself := hrows name
      rw [if_pos rfl] at hself
      have hdone := hdistinct hold
      rw [← hself] at hdone
      exact hdone

/-- What a step does to a store that is kept in a file: it adds its batch to the table it is about,
and nothing else happens to any rows. -/
theorem rows_perform (hfile : s.location = .file) (name : TableName) (step : Step) :
    (s.perform name step).2.location = .file ∧
    ∀ other,
      (s.perform name step).2.rows other =
        (if other.folded = name.folded then s.rows other ++ step.batch (s.perform name step).1
        else s.rows other) ∧
      (Row.Distinct (s.rows other) → Row.Distinct ((s.perform name step).2.rows other)) := by
  cases step with
  | create =>
      have hrows (other : TableName) : (s.createTable name).2.rows other = s.rows other := by
        unfold createTable
        rw [show s.opened = .ok s.database by simp [opened, hfile]]
        simp only
        split
        · rfl
        · rename_i db hdb
          rw [keep_of_isFile hfile]
          exact Database.rows_create hdb
      refine ⟨?_, fun other => ⟨?_, fun hold => ?_⟩⟩
      · simp only [perform]
        unfold createTable
        split
        · exact hfile
        · split
          · exact hfile
          · simp [hfile]
      · simp [perform, Step.batch, hrows other]
      · simpa [perform, hrows other] using hold
  | insert documents =>
      obtain ⟨failure, hfailed⟩ | ⟨keys, items, s', hdone, hitems, _, hfile', hrows, hdistinct⟩ :=
        insert_cases hfile name documents
      · refine ⟨by simp [perform, hfailed, hfile], fun other => ⟨?_, ?_⟩⟩
        · simp [perform, hfailed, Except.map, Step.batch]
        · simp [perform, hfailed]
      · refine ⟨by simp [perform, hdone, hfile'], fun other => ⟨?_, fun hold => ?_⟩⟩
        · simp [perform, hdone, Except.map, Step.batch, hitems, hrows other]
        · simp only [perform, hdone]
          by_cases hfolded : other.folded = name.folded
          · rw [rows, Database.rows_congr hfolded] at hold ⊢
            exact hdistinct hold
          · rwa [hrows other, if_neg hfolded]
  | count conditions => simp [perform, Step.batch, hfile]
  | find conditions refinements length => simp [perform, Step.batch, hfile]
  | fetch service request => simp [perform, Step.batch, hfile]

/-- A step that fails or only reads, and the making of a table that is there, do nothing to a store
that is kept in a file. -/
theorem perform_eq_self (hfile : s.location = .file) (name : TableName) (step : Step)
    (h : (s.perform name step).1.isOk = false ∨ step.isRead ∨
      (step = .create ∧ (s.database.find? name).isSome)) :
    (s.perform name step).2 = s := by
  cases step with
  | create =>
      simp only [perform] at h ⊢
      unfold createTable at h ⊢
      rw [show s.opened = .ok s.database by simp [opened, hfile]] at h ⊢
      simp only at h ⊢
      split
      · rfl
      · rename_i db hdb
        simp only [hdb, Except.map, Except.isOk, Except.toBool, Step.isRead, Bool.true_eq_false,
          Bool.false_eq_true, true_and, false_or] at h
        rw [Database.create_of_isSome h hdb, keep_of_isFile hfile]
  | insert documents =>
      obtain ⟨failure, hfailed⟩ | ⟨keys, items, s', hdone, _⟩ := insert_cases hfile name documents
      · simp [perform, hfailed]
      · simp [perform, hdone, Except.map, Except.isOk, Except.toBool, Step.isRead] at h
  | count conditions => rfl
  | find conditions refinements length => rfl
  | fetch service request => rfl

/-! ### Runs -/

/-- The batches that the steps of a session add to a table, told by their answers. -/
def batches (name : TableName) :
    List (TableName × Step) → List (Except Failure Answer) → List (List Row)
  | (other, step) :: steps, answer :: answers =>
      (if name.folded = other.folded then step.batch answer else []) :: batches name steps answers
  | _, _ => []

/-- What a session leaves in a store that is kept in a file. -/
theorem rows_run (hfile : s.location = .file) (session : List (TableName × Step)) :
    (s.run session).2.location = .file ∧
    ∀ name,
      (s.run session).2.rows name =
        s.rows name ++ (batches name session (s.run session).1).flatten ∧
      (Row.Distinct (s.rows name) → Row.Distinct ((s.run session).2.rows name)) := by
  induction session generalizing s with
  | nil => simp [batches, hfile]
  | cons head rest ih =>
      obtain ⟨other, step⟩ := head
      obtain ⟨hfile', hstep⟩ := rows_perform hfile other step
      obtain ⟨hfile'', hrest⟩ := ih hfile'
      refine ⟨by simpa using hfile'', fun name => ?_⟩
      obtain ⟨hrows, hdistinct⟩ := hstep name
      obtain ⟨hrows', hdistinct'⟩ := hrest name
      refine ⟨?_, fun hold => ?_⟩
      · simp only [run_cons, hrows', hrows, batches, List.flatten_cons]
        split
        · rw [List.append_assoc]
        · rw [List.nil_append]
      · simpa using hdistinct' (hdistinct hold)

/-- The documents that the steps of a session add to a table, each with the key that was returned
for it, told by the answers. -/
def inserted (name : TableName) :
    List (TableName × Step) → List (Except Failure Answer) → List (Value × Value)
  | (other, step) :: steps, answer :: answers =>
      (if name.folded = other.folded then step.inserted answer else []) ++
        inserted name steps answers
  | _, _ => []

theorem mem_of_mem_inserted {name : TableName} {session : List (TableName × Step)}
    {answers : List (Except Failure Answer)} {p : Value × Value}
    (h : p ∈ inserted name session answers) :
    ∃ table documents, (table, .insert documents) ∈ session ∧
      p.2 ∈ documents.elements?.getD [] := by
  induction session generalizing answers with
  | nil => cases h
  | cons head rest ih =>
      obtain ⟨other, step⟩ := head
      cases answers with
      | nil => cases h
      | cons answer answers =>
          obtain h | h := List.mem_append.mp h
          · split_ifs at h with hname
            · unfold Step.inserted at h
              split at h
              · exact ⟨other, _, by simp, (List.of_mem_zip h).2⟩
              · cases h
            · cases h
          · obtain ⟨table, documents, hmem, hdocument⟩ := ih h
            exact ⟨table, documents, List.mem_cons_of_mem _ hmem, hdocument⟩

theorem flatten_batches (name : TableName) (session : List (TableName × Step))
    (answers : List (Except Failure Answer)) :
    (batches name session answers).flatten =
      (inserted name session answers).map fun p => Row.ofDocument p.1 p.2 := by
  induction session generalizing answers with
  | nil => rfl
  | cons head rest ih =>
      obtain ⟨other, step⟩ := head
      cases answers with
      | nil => rfl
      | cons answer answers =>
          rw [batches, inserted, List.flatten_cons, List.map_append, ih]
          split_ifs
          · rw [Step.batch_eq_map]
          · rfl

/-- However a store that is kept in a file is used, a table holds what it held before and then one
row for each document of each insertion that succeeded, in order, under the texts of the keys that
the insertion returned; its keys stay distinct. A step that fails, a step that only reads and the
making of a table that is there change nothing at all. -/
theorem run_appends_batches (s : Store) (hfile : s.location = .file) (name : TableName)
    (session : List (TableName × Step)) (step : Step) :
    let now := (s.run session).2
    let answer := (now.perform name step).1
    let next := (now.perform name step).2
    now.rows name = s.rows name ++ (batches name session (s.run session).1).flatten ∧
    (Row.Distinct (s.rows name) → Row.Distinct (now.rows name)) ∧
    (answer.isOk = false ∨ step.isRead ∨
      (step = .create ∧ (now.database.find? name).isSome) → next = now) ∧
    next.rows name = now.rows name ++ step.batch answer ∧
    ∀ documents keys, step = .insert documents → answer = .ok (.keys keys) →
      ∃ items, documents.elements? = some items ∧ items.length = keys.length ∧
        step.batch answer = List.zipWith Row.ofDocument keys items ∧
        (step.batch answer).map (·.key) = keys.map Value.display := by
  obtain ⟨hfile', hrun⟩ := rows_run hfile session
  obtain ⟨hrows, hdistinct⟩ := hrun name
  refine ⟨hrows, hdistinct, perform_eq_self hfile' name step, ?_, ?_⟩
  · simpa using ((rows_perform hfile' name step).2 name).1
  · rintro documents keys rfl hanswer
    obtain ⟨failure, hfailed⟩ | ⟨keys', items, s', hdone, hitems, hlength, _⟩ :=
      insert_cases hfile' name documents
    · simp [perform, hfailed, Except.map] at hanswer
    · obtain rfl : keys' = keys := by
        simpa [perform, hdone, Except.map] using hanswer
      have hbatch : (Step.insert documents).batch (.ok (.keys keys')) =
          List.zipWith Row.ofDocument keys' items := by
        simp [Step.batch, hitems]
      refine ⟨items, hitems, hlength.symm, by rw [hanswer, hbatch], ?_⟩
      rw [hanswer, hbatch]
      exact Row.keys_ofDocument hlength

/-- A document whose key is refused takes the one in front of it with it. -/
theorem run_appends_batches_clash :
    let docs : TableName := ⟨"docs"⟩
    let document (key : String) : Value := .map [(keyName, .text key), (.text "n", .int 1)]
    let session := [(docs, Step.create), (docs, .insert (.list [document "a", document "b"]))]
    let clash := Step.insert (.list [document "c", document "a"])
    let now := (({} : Store).run session).2
    ({} : Store).location = .file ∧ (now.perform docs clash).1.isOk = false ∧
      (now.perform docs clash).2 = now ∧ (now.rows docs).map (·.key) = ["a", "b"] := by
  intro docs document session clash now
  have hfails : (now.perform docs clash).1.isOk = false := by decide +kernel
  have hnow := run_appends_batches {} rfl docs session clash
  exact ⟨rfl, hfails, hnow.2.2.1 (.inl hfails), by decide +kernel⟩

/-! ### Reachable stores -/

/-- The store is what some session leaves of an empty one that is kept in a file. -/
def Reachable (s : Store) : Prop := ∃ issued session, s = (({ issued } : Store).run session).2

namespace Reachable

theorem location (h : s.Reachable) : s.location = .file := by
  obtain ⟨issued, session, rfl⟩ := h
  exact (rows_run rfl session).1

theorem distinct (h : s.Reachable) (name : TableName) : Row.Distinct (s.rows name) := by
  obtain ⟨issued, session, rfl⟩ := h
  exact ((rows_run rfl session).2 name).2 List.nodup_nil

theorem run (h : s.Reachable) (session : List (TableName × Step)) :
    (s.run session).2.Reachable := by
  obtain ⟨issued, before, rfl⟩ := h
  exact ⟨issued, before ++ session, by rw [run_append]⟩

end Reachable

end Store

end DocFilter
