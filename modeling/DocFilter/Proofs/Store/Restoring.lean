import DocFilter.Proofs.Number.Shortest
import DocFilter.Proofs.Sql.Extracting
import DocFilter.Proofs.Store.Lookups

/-!
Documents that come back as they were stored.

A value is written without loss if it is made of null, truth values, integers, finite numbers,
texts, lists and mappings from distinct texts: each of them is read back from its own written form,
and a mapping keeps its order because no member stands in the place of another
(`Lossless.isRestored`). Tuples come back as lists, and dates, identifiers and keys of other kinds
as texts, so they are left out.

A row keeps the key of its document as a text, beside the document. It comes back if the text tells
whether the key was an identifier (`Row.keyValue_ofDocument`). What is stored beside it has no entry
under the key, so nothing takes its place when both are put together (`Row.record_of_lossless`).
-/

namespace DocFilter

open Json Outcome

/-! ### Values -/

namespace Json

theorem numberValue_toString (n : Int) : numberValue (toString n).toList = .int n := by
  rw [numberValue, numberOf_toString]

theorem numberValue_text {x : Binary64} (h : x.isFinite = true) :
    numberValue x.text.toList = .real x := by
  rw [numberValue, Binary64.numberOf_text h]

theorem textValue_escape (s : String) : textValue (escape s.toList) = .text s := by
  rw [textValue, unescape_escape, String.ofList_toList]

end Json

namespace Value

/-- What can be read as an integer can be written as one. -/
theorem isShort_of_digitCount {n : Int} (h : digitCount n.natAbs ≤ maxIntegerDigits) :
    isShort n = true := by
  have hdigits : maxIntegerDigits = 100 * 43 := rfl
  refine decide_eq_true ?_
  obtain hzero | hpos := n.natAbs.eq_zero_or_pos
  · rw [hzero]
    exact Nat.pow_pos (Nat.pow_pos (by decide))
  · calc n.natAbs < 10 ^ digitCount n.natAbs := (Decimal.digitCount_bounds hpos.ne').2
      _ ≤ 10 ^ maxIntegerDigits := Nat.pow_le_pow_right (by decide) h
      _ = digitBound := by rw [hdigits, Nat.pow_mul, digitBound]

/-- A value that is read back from what is written of it. -/
inductive Lossless : Value → Prop
  | null : Lossless .null
  | bool (b : Bool) : Lossless (.bool b)
  | int {n : Int} (h : digitCount n.natAbs ≤ maxIntegerDigits) : Lossless (.int n)
  | real {x : Binary64} (h : x.isFinite = true) : Lossless (.real x)
  | text (s : String) : Lossless (.text s)
  | list {items : List Value} (h : ∀ v ∈ items, Lossless v) : Lossless (.list items)
  | map {entries : List (Value × Value)} (hkeys : TextKeys entries)
      (hdistinct : (entries.map (·.1)).Nodup) (h : ∀ entry ∈ entries, Lossless entry.2) :
      Lossless (.map entries)

variable {entries : List (Value × Value)}

/-- The value can be written, and is read back from that. -/
def IsRestored (v : Value) : Prop := ∃ json, v.write storedText = .ok json ∧ json.toValue = v

theorem exists_writeItems {items : List Value} (h : ∀ v ∈ items, v.IsRestored) :
    ∃ jsons, writeItems storedText items = .ok jsons ∧ itemValues jsons = items := by
  induction items with
  | nil => exact ⟨[], rfl, rfl⟩
  | cons v rest ih =>
      obtain ⟨⟨json, hjson, hvalue⟩, hrest⟩ := List.forall_mem_cons.mp h
      obtain ⟨jsons, hjsons, hvalues⟩ := ih hrest
      refine ⟨json :: jsons, bind_eq_ok_iff.mpr ⟨json, hjson, ?_⟩, ?_⟩
      · exact map_eq_ok_iff.mpr ⟨jsons, hjsons, rfl⟩
      · rw [itemValues, hvalue, hvalues]

theorem exists_writeEntries (hkeys : TextKeys entries)
    (h : ∀ entry ∈ entries, entry.2.IsRestored) :
    ∃ members, writeEntries storedText entries = .ok members ∧ memberValues members = entries := by
  induction entries with
  | nil => exact ⟨[], rfl, rfl⟩
  | cons entry rest ih =>
      obtain ⟨k, v⟩ := entry
      obtain ⟨⟨s, rfl⟩, hothers⟩ := List.forall_mem_cons.mp hkeys
      obtain ⟨⟨json, hjson, hvalue⟩, hrest⟩ := List.forall_mem_cons.mp h
      obtain ⟨members, hmembers, hvalues⟩ := ih hothers hrest
      refine ⟨(escape s.toList, json) :: members, bind_eq_ok_iff.mpr ⟨_, rfl,
        bind_eq_ok_iff.mpr ⟨json, hjson, map_eq_ok_iff.mpr ⟨members, hmembers, rfl⟩⟩⟩, ?_⟩
      rw [memberValues, textValue_escape, hvalue, hvalues]

theorem insertEntries_of_nodup (hkeys : TextKeys entries) (hdistinct : (entries.map (·.1)).Nodup) :
    insertEntries [] entries = entries := by
  induction entries with
  | nil => rfl
  | cons entry rest ih =>
      obtain ⟨k, v⟩ := entry
      obtain ⟨⟨s, rfl⟩, hothers⟩ := List.forall_mem_cons.mp hkeys
      obtain ⟨hnew, hrest⟩ := List.nodup_cons.mp hdistinct
      have hother : ∀ other ∈ rest, other.1.equal (.text s) = false := by
        intro other hother
        refine Bool.eq_false_iff.mpr fun hequal => hnew (List.mem_map.mpr ⟨other, hother, ?_⟩)
        exact equal_text_iff.mp hequal
      show insertEntries [(.text s, v)] rest = _
      rw [insertEntries_cons hother, ih hothers hrest]

theorem Lossless.isRestored {v : Value} (h : v.Lossless) : v.IsRestored := by
  induction h with
  | null => exact ⟨.null, rfl, rfl⟩
  | bool b => exact ⟨.bool b, rfl, rfl⟩
  | @int n h =>
      refine ⟨.number (toString n).toList, ?_, numberValue_toString n⟩
      rw [write, if_pos (isShort_of_digitCount h)]
  | @real x h =>
      refine ⟨.number x.text.toList, ?_, numberValue_text h⟩
      rw [write, writeReal, if_pos h]
  | text s => exact ⟨_, rfl, textValue_escape s⟩
  | list _ ih =>
      obtain ⟨jsons, hjsons, hvalues⟩ := exists_writeItems ih
      refine ⟨.array jsons, map_eq_ok_iff.mpr ⟨jsons, hjsons, rfl⟩, ?_⟩
      rw [toValue, hvalues]
  | map hkeys hdistinct _ ih =>
      obtain ⟨members, hmembers, hvalues⟩ := exists_writeEntries hkeys ih
      refine ⟨.object members, map_eq_ok_iff.mpr ⟨members, hmembers, rfl⟩, ?_⟩
      rw [toValue, hvalues, insertEntries_of_nodup hkeys hdistinct]

/-- A key that its text gives back: an identifier, or a text that does not name one. -/
inductive IsKey : Value → Prop
  | objectId (id : ObjectId) : IsKey (.objectId id)
  | text {s : String} (h : ObjectId.ofText? s = none) : IsKey (.text s)

/-- The entries of a document whose record is the document: distinct texts as keys, values that are
written without loss, and under the key of the table nothing, null or a key that comes back. -/
structure IsLosslessDocument (entries : List (Value × Value)) : Prop where
  keys : TextKeys entries
  distinct : (entries.map (·.1)).Nodup
  values : ∀ entry ∈ entries, entry.1 ≠ keyName → entry.2.Lossless
  key : ∀ v, lookup? entries keyName = some v → v = .null ∨ v.IsKey

/-- What is stored of a document is written without loss. -/
theorem IsLosslessDocument.lossless (h : IsLosslessDocument entries) :
    (Value.map (eraseKey entries keyName)).Lossless := by
  refine .map (textKeys_eraseKey h.keys keyName) ?_ fun entry hentry => ?_
  · exact h.distinct.sublist (List.filter_sublist.map _)
  · obtain ⟨hmem, hkept⟩ := List.mem_filter.mp hentry
    refine h.values entry hmem fun hkey => ?_
    simp [hkey, keyName] at hkept

/-- A document under its key: the key, and then the other entries. -/
def underKey (key : Value) (entries : List (Value × Value)) : Value :=
  .map ((keyName, key) :: eraseKey entries keyName)

end Value

/-! ### Rows -/

namespace Row

variable {key : Value} {entries : List (Value × Value)}

theorem documentEntries_ofDocument (h : Value.IsLosslessDocument entries) :
    (ofDocument key (.map entries)).documentEntries = Value.eraseKey entries keyName := by
  obtain ⟨json, hjson, hvalue⟩ := h.lossless.isRestored
  have hstored : (Value.map (Value.eraseKey entries keyName)).storedJson = .ok json.spaced :=
    map_eq_ok_iff.mpr ⟨json, hjson, rfl⟩
  have hbody : (Value.map entries).storedBody = json.spaced := by
    rw [Value.storedBody_map, hstored]
    rfl
  rw [documentEntries, ofDocument, hbody, ofText?_spaced (Value.readable_write _ hjson),
    Option.map_some, hvalue]

theorem keyValue_ofDocument (h : key.IsKey) (document : Value) :
    (ofDocument key document).keyValue = key := by
  cases h with
  | objectId id =>
      have htext : (ofDocument (.objectId id) document).key = id.text := rfl
      rw [keyValue, htext, ObjectId.ofText?_text]
  | @text s h =>
      have htext : (ofDocument (.text s) document).key = s := rfl
      rw [keyValue, htext, h]

/-- The record of a document is the document under its key. -/
theorem record_of_lossless (hkey : key.IsKey) (h : Value.IsLosslessDocument entries) :
    (ofDocument key (.map entries)).record = Value.underKey key entries := by
  obtain ⟨hkeys, hdistinct⟩ : Value.TextKeys (Value.eraseKey entries keyName) ∧
      ((Value.eraseKey entries keyName).map (·.1)).Nodup := by
    cases h.lossless with
    | map hkeys hdistinct _ => exact ⟨hkeys, hdistinct⟩
  rw [record_ofDocument, keyValue_ofDocument hkey, documentEntries_ofDocument h,
    Value.insertEntries_of_nodup hkeys hdistinct, Value.underKey]

theorem map_record_zipWith {keys : List Value} {documents : List (List (Value × Value))}
    (hkeys : ∀ key ∈ keys, key.IsKey)
    (hdocuments : ∀ entries ∈ documents, Value.IsLosslessDocument entries) :
    (List.zipWith ofDocument keys (documents.map .map)).map record =
      List.zipWith Value.underKey keys documents := by
  induction keys generalizing documents with
  | nil => rfl
  | cons key keys ih =>
      cases documents with
      | nil => rfl
      | cons entries documents =>
          obtain ⟨hkey, hkeys⟩ := List.forall_mem_cons.mp hkeys
          obtain ⟨hentries, hdocuments⟩ := List.forall_mem_cons.mp hdocuments
          rw [List.map_cons, List.zipWith_cons_cons, List.map_cons,
            record_of_lossless hkey hentries, ih hkeys hdocuments, List.zipWith_cons_cons]

end Row

/-! ### Keys -/

namespace Entry

theorem isKey_of_ofValue {issued issued' : Nat} {entries : List (Value × Value)} {entry : Entry}
    (hdocument : Value.IsLosslessDocument entries)
    (h : ofValue issued (.map entries) = .ok (entry, issued')) : entry.key.IsKey := by
  obtain ⟨found, given, hfound, hgiven, hkey, -⟩ := ofValue_eq_ok h
  obtain rfl : entries = found := Except.ok.inj hfound
  obtain ⟨-, hkey, -⟩ | ⟨hne, hkey, -⟩ := hkey
  · rw [hkey]
    exact .objectId _
  · rw [hkey]
    obtain ⟨v, hlookup, rfl⟩ : ∃ v, Value.lookup? entries keyName = some v ∧ v = given := by
      cases hlookup : Value.lookup? entries keyName with
      | none => exact absurd (by simpa [hlookup] using hgiven.symm) hne
      | some v => exact ⟨v, rfl, by simpa [hlookup] using hgiven⟩
    exact (hdocument.key v hlookup).resolve_left hne

theorem isKey_of_ofValues {issued issued' : Nat} {documents : List (List (Value × Value))}
    {found : List Entry} (hdocuments : ∀ entries ∈ documents, Value.IsLosslessDocument entries)
    (h : ofValues issued (documents.map .map) = .ok (found, issued')) :
    ∀ key ∈ found.map (·.key), key.IsKey := by
  refine List.forall_mem_map.mpr fun entry hmem => ?_
  obtain ⟨document, hdocument, _, _, hentry⟩ := exists_of_mem_forall₂ (made_ofValues h) hmem
  obtain ⟨entries, hentries, rfl⟩ := List.mem_map.mp hdocument
  exact isKey_of_ofValue (hdocuments entries hentries) hentry

end Entry

/-! ### Tables -/

namespace Connection

variable {c c' : Connection} {name : TableName} {rows : List Row}

theorem find?_insertEach (hthere : (c.working.find? name).isSome)
    (h : c.insertEach name rows = (.ok (), c')) : (c'.working.find? name).isSome := by
  have hkept : ((c.insertEach name rows).2.working.find? name).isSome :=
    insertEach_preserves (P := fun db => (db.find? name).isSome)
      (fun db rows hdb => by rwa [Database.find?_setRows, if_pos rfl, Option.isSome_map]) hthere rows
  rwa [h] at hkept

/-- Rows are added to a table that is there, under a name that a statement can have. -/
theorem write_of_insertRows (h : c.insertRows name rows = (.ok (), c')) :
    name.checkWord = .ok () ∧ (c'.working.find? name).isSome := by
  have heach := insertRows_eq_ok h
  unfold insertRows at h
  split at h
  · rename_i table htable
    obtain ⟨_, hword, -⟩ := bind_eq_ok_iff.mp htable
    exact ⟨hword, find?_insertEach (by simp [Database.find?_of_write? htable]) heach⟩
  · cases h

end Connection

namespace Store

variable {s s' : Store} {name : TableName}

/-- A query without conditions yields the records of all rows, in the order of insertion. -/
theorem find_everything {table : Table} (hfile : s.location = .file)
    (hword : name.checkWord = .ok ()) (htable : s.database.find? name = some table)
    (hdistinct : Row.Distinct table.rows) :
    s.find name (.map []) [] .null = .ok (table.rows.map Row.record) := by
  let statement : Selection := { conditions := [] }
  obtain ⟨hearly, htests⟩ : statement.plan.early = [] ∧ ∀ c, c ∈ statement.plan.tests ↔ c ∈ [] :=
    Plan.toSort_of_no_keyEquality rfl
  have hnothing : statement.plan.tests = [] :=
    List.eq_nil_iff_forall_not_mem.mpr fun c hc => List.not_mem_nil ((htests c).mp hc)
  have hrefs : statement.sortRefs = [] := ite_self ..
  have hvisits (p : Row × Nat) (_ : p ∈ statement.plan.visited table.rows) :
      ∃ holds, Condition.evalAll p.1.read statement.plan.tests = .ok holds :=
    ⟨true, by rw [hnothing]; rfl⟩
  obtain ⟨found, hfound⟩ := Selection.scan_of_evaluates hvisits none
  have hexplored : Selection.explore statement.plan statement.sortRefs
      (statement.wanted? (-1) 0) table.rows = .ok found := by
    refine bind_eq_ok_iff.mpr ⟨true, by rw [hearly]; rfl, ?_⟩
    rw [hrefs]
    exact hfound
  -- Nothing is tested and nothing sorted by, so every row is found where it stands.
  have hselect : statement.select (-1) 0 table.rows = .ok table.rows := by
    have hselect := Selection.select_of_explore hexplored
    rw [hselect, Selection.select_unsorted hdistinct rfl hselect, Selection.part_all]
    exact congrArg _ (List.filter_eq_self.mpr fun _ _ => rfl)
  have hrun : statement.run table = .ok table.rows := by
    refine bind_eq_ok_iff.mpr ⟨(), rfl, bind_eq_ok_iff.mpr ⟨(), rfl, mapError_eq_ok_iff.mpr ?_⟩⟩
    exact bind_eq_ok_iff.mpr ⟨_, rfl, bind_eq_ok_iff.mpr ⟨_, rfl, hselect⟩⟩
  have hopened : s.openTable name statement.conditions [Cursor.columns.key.display] = .ok table := by
    refine mapError_eq_ok_iff.mpr (bind_eq_ok_iff.mpr ⟨s.database, by simp [opened, hfile], ?_⟩)
    exact bind_eq_ok_iff.mpr ⟨(), hword,
      bind_eq_ok_iff.mpr ⟨(), rfl, Database.read?_of_find? htable _⟩⟩
  refine bind_eq_ok_iff.mpr ⟨_, Cursor.find_map [], bind_eq_ok_iff.mpr ⟨_, rfl, ?_⟩⟩
  exact bind_eq_ok_iff.mpr ⟨statement, rfl, bind_eq_ok_iff.mpr ⟨table, hopened,
    bind_eq_ok_iff.mpr ⟨_, hrun, rfl⟩⟩⟩

/-- Documents that are inserted into an empty table come back: one for each of them in their order,
under the key that was returned for it. -/
theorem documents_round_trip (hfile : s.location = .file) (hempty : s.rows name = [])
    {documents : List (List (Value × Value))} {keys : List Value}
    (hdocuments : ∀ entries ∈ documents, Value.IsLosslessDocument entries)
    (hinsert : s.insert name (.list (documents.map .map)) = (.ok keys, s')) :
    keys.length = documents.length ∧
      s'.find name (.map []) [] .null = .ok (List.zipWith Value.underKey keys documents) := by
  obtain ⟨items, found, issued, c, hitems, hvalues, rfl, hc, rfl⟩ := insert_eq_ok hfile hinsert
  obtain rfl : documents.map .map = items := Option.some.inj hitems
  obtain ⟨hword, hthere⟩ := Connection.write_of_insertRows hc
  obtain ⟨table, htable⟩ := Option.isSome_iff_exists.mp hthere
  obtain ⟨hlength, hwritten⟩ := Entry.rows_ofValues hvalues
  obtain ⟨hrows, hdistinct⟩ := Connection.insertEach_eq_ok (Connection.insertRows_eq_ok hc)
  have hstart : (Connection.ofDatabase s.database).working.rows name = [] := hempty
  have hself := hrows name
  rw [if_pos rfl, hstart, List.nil_append, Database.rows_of_find? htable] at hself
  rw [hstart, List.nil_append, ← hself] at hdistinct
  have hfind : ({ s with database := c.working, issued } : Store).find name (.map []) [] .null =
      .ok (table.rows.map Row.record) :=
    find_everything hfile hword htable (hdistinct List.nodup_nil)
  refine ⟨by simpa using hlength, ?_⟩
  rw [hfind, hself, hwritten,
    Row.map_record_zipWith (Entry.isKey_of_ofValues hdocuments hvalues) hdocuments]

/-- A document without a key, one whose key stands between other entries, and one that is only a
key. The first holds a text that is written with escapes, an integer of many digits, a number whose
text is rounded, and an inner entry under the name of the key. -/
theorem documents_round_trip_nested :
    let docs : TableName := ⟨"docs"⟩
    let empty := (({} : Store).run [(docs, .create)]).2
    let id : ObjectId := ⟨[1, 2, 3, 4, 5, 6, 7, 8, 9, 10, 11, 12], rfl⟩
    let tenth := Binary64.ofRatio true 1 10
    let documents : List (List (Value × Value)) := [
      [(.text "n", .int (10 ^ 30)), (.text "é", .list [.real tenth, .bool true, .text "\"😀\n"]),
        (.text "inner", .map [(keyName, .text "a"), (.text "b", .null)])],
      [(.text "z", .null), (keyName, .text "k"), (.text "y", .map [])],
      [(keyName, .objectId id)]]
    ∃ keys now, empty.insert docs (.list (documents.map .map)) = (.ok keys, now) ∧
      keys.map Value.display = ["6a0000000000000000000001", "k", "0102030405060708090a0b0c"] ∧
      now.find docs (.map []) [] .null = .ok (List.zipWith Value.underKey keys documents) := by
  intro docs empty id tenth documents
  have hinner : (Value.map [(keyName, .text "a"), (.text "b", .null)]).Lossless := by
    refine .map (by simp [Value.TextKeys, keyName]) (by simp [keyName]) ?_
    simpa using ⟨Value.Lossless.text _, Value.Lossless.null⟩
  have hempty : (Value.map []).Lossless :=
    .map (by simp [Value.TextKeys]) List.nodup_nil (by simp)
  have hlist : (Value.list [.real tenth, .bool true, .text "\"😀\n"]).Lossless := by
    refine .list ?_
    simpa using ⟨.real (by decide +kernel), .bool _, .text _⟩
  have hdocuments : ∀ entries ∈ documents, Value.IsLosslessDocument entries := by
    simp only [documents, List.forall_mem_cons]
    refine ⟨⟨?_, ?_, ?_, ?_⟩, ⟨?_, ?_, ?_, ?_⟩, ⟨?_, ?_, ?_, ?_⟩, by simp⟩
    · simp [Value.TextKeys]
    · simp
    · simpa using ⟨fun _ => .int (by decide +kernel), fun _ => hlist, fun _ => hinner⟩
    · simp [keyName, Value.lookup?]
    · simp [Value.TextKeys, keyName]
    · simp [keyName]
    · simpa [keyName] using ⟨.null, hempty⟩
    · simpa [keyName, Value.lookup?_cons_text] using .text (by decide +kernel)
    · simp [Value.TextKeys, keyName]
    · simp
    · simp
    · simpa [keyName, Value.lookup?_cons_text] using .objectId id
  have hinsert : (empty.insert docs (.list (documents.map .map))).1 = .ok _ :=
    eq_ok_of_isOk [] (by decide +kernel)
  have hround := documents_round_trip (by decide +kernel) (by decide +kernel) hdocuments
    (Prod.ext hinsert rfl)
  exact ⟨_, _, Prod.ext hinsert rfl, by decide +kernel, hround.2⟩

end Store

end DocFilter
