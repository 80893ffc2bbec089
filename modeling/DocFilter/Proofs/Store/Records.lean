import DocFilter.Paging.Service
import DocFilter.Proofs.Filter.Meaning
import DocFilter.Proofs.Filter.Safety
import DocFilter.Proofs.ObjectId
import DocFilter.Proofs.Store.History

/-!
Records of stored documents, and the identifiers that they show.

What is stored of a document has no entry under the key of the table, so a record is the key of its
row and then the entries of the document (`record_ofDocument`). A service shows the key as a text in
front of the other entries (`present_ofDocument`). If that text names an identifier, it is the text
of the identifier that the stored key names, but it need not be the stored key (`ofText?_shown`).
-/

namespace DocFilter

open Outcome

/-! ### Keys of mappings -/

namespace Value

variable {entries added : List (Value × Value)}

theorem isText_iff {v : Value} {s : String} : v.isText s = true ↔ v = text s := by
  cases v <;> simp [isText]

theorem equal_text_eq_isText (v : Value) (s : String) : v.equal (text s) = v.isText s :=
  Bool.eq_iff_iff.mpr (equal_text_iff.trans isText_iff.symm)

theorem lookup?_cons (key value : Value) (entries : List (Value × Value)) (name : String) :
    lookup? ((key, value) :: entries) (.text name) =
      if key.isText name then some value else lookup? entries (.text name) := by
  have hequal : (text name).equal key = key.isText name :=
    Bool.eq_iff_iff.mpr (text_equal_iff.trans isText_iff.symm)
  rw [lookup?, lookup?, List.find?_cons]
  dsimp only
  rw [hequal]
  cases key.isText name <;> rfl

theorem lookup?_eq_none_of_forall {name : String} (h : ∀ entry ∈ entries, entry.1 ≠ .text name) :
    lookup? entries (.text name) = none := by
  rw [lookup?, Option.map_eq_none_iff, List.find?_eq_none]
  exact fun entry hentry hequal => h entry hentry (text_equal_iff.mp hequal)

theorem forall_key_insertEntries {P : Value → Prop} (hentries : ∀ entry ∈ entries, P entry.1)
    (hadded : ∀ entry ∈ added, P entry.1) : ∀ entry ∈ insertEntries entries added, P entry.1 := by
  induction added generalizing entries with
  | nil => exact hentries
  | cons first rest ih =>
      obtain ⟨hfirst, hrest⟩ := List.forall_mem_cons.mp hadded
      have hstored : ∀ entry ∈ insertEntry entries first.1 first.2, P entry.1 := by
        intro entry hentry
        obtain hold | rfl | ⟨old, -, hold, -⟩ := mem_insertEntry hentry
        · exact hentries entry hold
        · exact hfirst
        · have hthere := hentries (entry.1, old) hold
          exact hthere
      exact ih hstored hrest

theorem insertEntries_cons {entry : Value × Value}
    (h : ∀ other ∈ added, other.1.equal entry.1 = false) :
    insertEntries (entry :: entries) added = entry :: insertEntries entries added := by
  induction added generalizing entries with
  | nil => rfl
  | cons first rest ih =>
      obtain ⟨hfirst, hrest⟩ := List.forall_mem_cons.mp h
      have hbehind : insertEntry (entry :: entries) first.1 first.2 =
          entry :: insertEntry entries first.1 first.2 := by
        rw [insertEntry, if_neg (by simp [hfirst])]
      show insertEntries (insertEntry (entry :: entries) first.1 first.2) rest = _
      rw [hbehind]
      exact ih hrest

theorem eq_keyName_of_writeKey {k : Value} {key : List Char} (h : k.writeKey = .ok key)
    (hkey : Json.textValue key = keyName) : k = keyName := by
  have hread : Json.unescape key = "_id".toList := by
    have hread : String.ofList (Json.unescape key) = "_id" := Value.text.inj hkey
    rw [← hread, String.toList_ofList]
  have hwritten : key = "_id".toList := by
    obtain ⟨cs, rfl⟩ := isWritten_key h
    rw [Json.unescape_escape] at hread
    rw [hread]
    rfl
  -- A number starts with a digit or a sign, so its text is not the key.
  have hliteral (hlit : Json.IsLiteral key) : False := by
    obtain ⟨c, cs, hcs, hdigit | ⟨rfl, -⟩⟩ := hlit.exists_cons
    · cases hcs.symm.trans hwritten
      cases hdigit
    · cases hcs.symm.trans hwritten
  cases k with
  | text s =>
      cases h
      rw [Json.unescape_escape] at hread
      rw [keyName, String.toList_inj.mp hread]
  | null => cases h.trans (congrArg _ hwritten)
  | bool b => cases b <;> cases h.trans (congrArg _ hwritten)
  | int n =>
      obtain ⟨-, rfl⟩ := Outcome.ite_eq_ok_iff.mp h
      exact (hliteral (Json.isLiteral_toString n)).elim
  | real x =>
      cases x with
      | nan => cases h.trans (congrArg _ hwritten)
      | infinite negative => cases negative <;> cases h.trans (congrArg _ hwritten)
      | finite negative rank =>
          cases h
          exact (hliteral (Binary64.isLiteral_text (x := .finite negative rank) rfl)).elim
  | _ => cases h

theorem field?_head_of_isText {record : Value} {records rest : List Value} {field s : String}
    (hrecords : records = record :: rest)
    (h : (records.head?.bind (·.field? field)).any (·.isText s) = true) :
    record.field? field = some (.text s) := by
  rw [hrecords] at h
  obtain ⟨v, hv, htext⟩ := (Option.any_eq_true _ _).mp h
  cases v with
  | text t =>
      obtain rfl : t = s := by simpa [isText] using htext
      exact hv
  | _ => cases htext

end Value

/-! ### Records -/

namespace Json

theorem memberValues_eq_map (members : List (List Char × Json)) :
    memberValues members = members.map fun member => (textValue member.1, toValue member.2) := by
  induction members with
  | nil => rfl
  | cons member rest ih =>
      obtain ⟨key, value⟩ := member
      rw [memberValues, ih, List.map_cons]

end Json

/-- The native key of a record becomes a text under the public name, in front of what else the
record holds. -/
theorem publishKey_of_lookup {nativeKey publicKey key : Value} {entries : List (Value × Value)}
    (hnative : checkKey nativeKey = .ok ()) (hpublic : checkKey publicKey = .ok ())
    (hkey : Value.lookup? entries nativeKey = some key) :
    publishKey nativeKey publicKey (.map entries) = key.shown.map fun shown =>
      .map ((publicKey, .text shown) ::
        Value.eraseKey (Value.eraseKey entries nativeKey) publicKey) := by
  simp only [publishKey, hnative, hkey, hpublic]
  cases key.shown <;> rfl

theorem publishKey_cons (name : String) (key : Value) (entries : List (Value × Value)) :
    publishKey keyName (.text name) (.map ((keyName, key) :: entries)) = key.shown.map fun shown =>
      .map ((.text name, .text shown) ::
        Value.eraseKey (Value.eraseKey entries keyName) (.text name)) := by
  have hfound : Value.lookup? ((keyName, key) :: entries) keyName = some key := by
    simp [Value.lookup?, keyName]
  have herased : Value.eraseKey ((keyName, key) :: entries) keyName =
      Value.eraseKey entries keyName := by
    simp [Value.eraseKey, keyName]
  rw [publishKey_of_lookup rfl rfl hfound, herased]

namespace Row

variable {key document : Value}

/-- A document that can be stored is written without its key, any other is not written at all. -/
theorem storedBody_cases (document : Value) :
    document.storedBody = "" ∨
      ∃ entries, (Value.map (Value.eraseKey entries keyName)).storedJson =
        .ok document.storedBody := by
  unfold Value.storedBody
  dsimp only
  split
  · rename_i json hjson
    obtain ⟨entries, -, hstored⟩ := bind_eq_ok_iff.mp hjson
    exact .inr ⟨entries, hstored⟩
  · exact .inl rfl

theorem key_ne_of_mem_documentEntries :
    ∀ entry ∈ (ofDocument key document).documentEntries, entry.1 ≠ keyName := by
  obtain hempty | ⟨entries, hstored⟩ := storedBody_cases document
  · have hnone : Json.ofText? document.storedBody = none := by
      rw [hempty]
      rfl
    simp [ofDocument, documentEntries, hnone]
  · obtain ⟨json, hjson, hread⟩ := Value.ofText?_storedJson hstored
    obtain ⟨members, hmembers, rfl⟩ := map_eq_ok_iff.mp hjson
    have hentries : (ofDocument key document).documentEntries =
        Value.insertEntries [] (Json.memberValues members) := by
      simp only [ofDocument, documentEntries, hread, Option.map_some, Json.toValue]
    rw [hentries]
    refine Value.forall_key_insertEntries (P := (· ≠ keyName)) (fun _ h => absurd h List.not_mem_nil) ?_
    rw [Json.memberValues_eq_map]
    refine List.forall_mem_map.mpr fun member hmember hkey => ?_
    -- The member was written from an entry that was not erased.
    obtain ⟨entry, hentry, hwritten, -⟩ :=
      exists_of_mem_forall₂ (Value.writeEntries_eq_ok_iff.mp hmembers) hmember
    have hkept := (List.mem_filter.mp hentry).2
    rw [Value.eq_keyName_of_writeKey hwritten hkey] at hkept
    simp [keyName] at hkept

theorem record_ofDocument :
    (ofDocument key document).record = .map ((keyName, (ofDocument key document).keyValue) ::
      Value.insertEntries [] (ofDocument key document).documentEntries) := by
  rw [record, Value.insertEntries_cons]
  intro other hother
  have hne := key_ne_of_mem_documentEntries other hother
  exact Bool.eq_false_iff.mpr fun hequal => hne (Value.equal_text_iff.mp hequal)

variable {row : Row} {id : ObjectId}

theorem shown_keyValue (row : Row) : row.keyValue.shown = .ok row.keyValue.display := by
  unfold keyValue
  cases ObjectId.ofText? row.key <;> rfl

/-- A shown key that names an identifier is the text of the identifier that the stored key names. -/
theorem ofText?_shown (h : ObjectId.ofText? row.keyValue.display = some id) :
    ObjectId.ofText? row.key = some id ∧ row.keyValue.display = id.text := by
  unfold keyValue at h ⊢
  cases hkey : ObjectId.ofText? row.key with
  | none =>
      rw [hkey] at h
      cases h.symm.trans hkey
  | some named =>
      rw [hkey] at h
      -- What is shown is the text of this identifier, which names it and no other.
      have hnamed : ObjectId.ofText? named.text = some id := h
      cases (ObjectId.ofText?_text named).symm.trans hnamed
      exact ⟨rfl, rfl⟩

/-- A service shows the key of a row as a text, in front of the other entries. -/
theorem present_ofDocument (key document tableName : Value) :
    ∃ rest, ({ tableName } : Service).present (ofDocument key document).record =
      .ok (.map ((.text "id", .text (ofDocument key document).keyValue.display) :: rest)) :=
  ⟨_, record_ofDocument ▸ (publishKey_cons "id" _ _).trans (by rw [shown_keyValue]; rfl)⟩

end Row

/-! ### Rows of reachable stores -/

theorem Store.Reachable.exists_document {s : Store} (h : s.Reachable) {name : TableName} {row : Row}
    (hrow : row ∈ s.rows name) : ∃ key document, row = Row.ofDocument key document := by
  obtain ⟨issued, session, rfl⟩ := h
  rw [((Store.rows_run rfl session).2 name).1, Store.flatten_batches] at hrow
  obtain ⟨p, -, rfl⟩ := List.mem_map.mp hrow
  exact ⟨p.1, p.2, rfl⟩

end DocFilter
