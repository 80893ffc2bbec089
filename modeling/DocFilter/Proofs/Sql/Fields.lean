import DocFilter.Proofs.Filter.Meaning
import DocFilter.Proofs.Json.Shape
import DocFilter.Proofs.Number.Shortest
import DocFilter.Proofs.Sql.Extracting
import DocFilter.Proofs.Text.Identifier

/-!
What the store reads where a document holds some value.

A path of one label leads to the entry whose key is *written* as the label: with its escapes, and
the label ends at its first NUL. What is found there has been written, so truth values are numbers,
integers of more than 64 bits are the nearest reals, texts end at their first NUL, and collections
are their texts without blanks (`Value.asStored`). All this is read if the store can read the
document at all (`Row.read_label`); for a label of plain characters it is the entry under this very
name (`underLabel?_of_plain`), and where that is an atom that the store keeps as it is, the store
reads that atom (`Row.read_field`).
-/

namespace DocFilter

open Json Outcome

/-! ### Values -/

namespace Value

/-- The text of a value without blanks, empty for what cannot be written. -/
def compact (v : Value) : String := ((v.write storedText).toOption.map Json.minified).getD ""

/-- What the store reads where a value was written. -/
def asStored : Value → Scalar
  | null => .null
  | bool b => .int (if b then 1 else 0)
  | int n => if Scalar.fits n then .int n else .real (Binary64.ofInt n)
  | real x => .real x
  | text s => .text (beforeNul s)
  | list items => .text (list items).compact
  | tuple items => .text (tuple items).compact
  | map entries => .text (map entries).compact
  | v => .text (beforeNul ((storedText v).toOption.getD ""))

theorem compact_of_write {v : Value} {json : Json} (h : v.write storedText = .ok json) :
    v.compact = json.minified := by
  rw [compact, h]
  rfl

end Value

namespace Scalar

theorem ofLiteral_eq (literal : List Char) :
    ofLiteral literal = match numberOf literal with
      | .int n => if fits n then .int n else .real (Binary64.ofInt n)
      | .real x => .real x := rfl

theorem ofEscaped_escape_eq (s : String) : ofEscaped (escape s.toList) = .text (beforeNul s) := by
  rw [ofEscaped, unescape_escape, beforeNul]

/-- Reading a written value yields what is stored of it. -/
theorem ofJson_of_write {v : Value} {json : Json} (h : v.write Value.storedText = .ok json) :
    ofJson json = v.asStored := by
  cases v with
  | null | bool b =>
      cases h
      rfl
  | int n =>
      obtain ⟨-, rfl⟩ := ite_eq_ok_iff.mp h
      rw [ofJson, ofLiteral_eq, numberOf_toString]
      rfl
  | real x =>
      cases h
      unfold Value.writeReal
      split_ifs with hfinite
      · rw [ofJson, ofLiteral_eq, Binary64.numberOf_text hfinite]
        rfl
      · rfl
  | text s =>
      cases h
      exact ofEscaped_escape_eq s
  | list items =>
      rw [Value.asStored, Value.compact_of_write h]
      obtain ⟨jsons, -, rfl⟩ := map_eq_ok_iff.mp h
      rfl
  | tuple items =>
      rw [Value.asStored, Value.compact_of_write h]
      obtain ⟨jsons, -, rfl⟩ := map_eq_ok_iff.mp h
      rfl
  | map entries =>
      rw [Value.asStored, Value.compact_of_write h]
      obtain ⟨members, -, rfl⟩ := map_eq_ok_iff.mp h
      rfl
  | ring items =>
      -- A list that holds itself is not written.
      obtain ⟨jsons, -, h⟩ := bind_eq_ok_iff.mp h
      cases h
  | objectId | timestamp | date =>
      cases h
      exact ofEscaped_escape_eq _
  | bytes | operator | pattern | set | frozenSet | clause | paging | request => cases h

end Scalar

/-! ### Labels -/

namespace Value

/-- What a document keeps beside its key. -/
def body : Value → Value
  | map entries => map (eraseKey entries keyName)
  | v => v

def underLabel? (v : Value) (label : String) : Option Value :=
  match v with
  | map entries =>
    (entries.find? fun entry => entry.1.writeKey.toOption == some label.toList).map (·.2)
  | _ => none

/-- A mapping whose body can be written. -/
def IsWritable (document : Value) : Prop :=
  (∃ entries, document = .map entries) ∧ ∃ json, document.body.write storedText = .ok json

variable {standIn : Value → Except Failure String} {entries : List (Value × Value)}

theorem underLabel?_cons (k v : Value) (entries : List (Value × Value)) (label : String) :
    (map ((k, v) :: entries)).underLabel? label =
      if k.writeKey.toOption = some label.toList then some v
      else (map entries).underLabel? label := by
  simp only [underLabel?, List.find?_cons]
  split_ifs with hkey
  · simp [hkey]
  · simp [beq_eq_false_iff_ne.mpr hkey]

/-- The member under a label belongs to the entry whose key is written so. -/
theorem rel_underLabel? {members : List (List Char × Json)}
    (hmembers : writeEntries standIn entries = .ok members) (label : String) :
    Option.Rel (fun v json => v.write standIn = .ok json) ((map entries).underLabel? label)
      (members.lookup label.toList) := by
  rw [writeEntries_eq_ok_iff] at hmembers
  induction hmembers with
  | nil => exact .none
  | @cons entry member entries members hmember _ ih =>
      obtain ⟨k, v⟩ := entry
      obtain ⟨key, json⟩ := member
      obtain ⟨hkey, hjson⟩ := hmember
      have hkey : k.writeKey = .ok key := hkey
      rw [underLabel?_cons, List.lookup_cons, hkey]
      by_cases heq : label.toList = key
      · rw [if_pos (by rw [heq]; rfl), heq, beq_self_eq_true]
        exact .some hjson
      · have hother : (Except.ok key : Except Failure (List Char)).toOption ≠ some label.toList :=
          fun h => heq (Option.some.inj h).symm
        rw [if_neg hother, beq_eq_false_iff_ne.mpr heq]
        exact ih

theorem underLabel?_of_plain (hkeys : TextKeys entries) {label : String}
    (hlabel : ∀ c ∈ label.toList, IsPlain c) :
    (map entries).underLabel? label = lookup? entries (.text label) := by
  induction entries with
  | nil => rfl
  | cons entry rest ih =>
      obtain ⟨k, v⟩ := entry
      obtain ⟨⟨s, hs⟩, hrest⟩ := List.forall_mem_cons.mp hkeys
      obtain rfl : k = .text s := hs
      have hwritten : (text s).writeKey.toOption = some (escape s.toList) := rfl
      have hsame : escape s.toList = label.toList ↔ label = s := by
        conv_lhs => rw [← escape_of_plain hlabel]
        exact ⟨fun h => (String.toList_inj.mp (escape_injective h)).symm, fun h => by rw [h]⟩
      rw [underLabel?_cons, lookup?_cons_text, ih hrest]
      simp only [hwritten, Option.some.injEq, hsame]

theorem underLabel?_body {document : Value} {label : String} (hkeys : TextKeys entries)
    (hdocument : document = .map entries) (hkey : label ≠ "_id")
    (hlabel : ∀ c ∈ label.toList, IsPlain c) :
    document.body.underLabel? label = document.field? label := by
  rw [hdocument, body, underLabel?_of_plain (textKeys_eraseKey hkeys keyName) hlabel,
    lookup?_eraseKey hkeys hkey, field?]

end Value

/-! ### Rows -/

namespace Reference

/-- A label ends where the path does, at its first NUL. -/
theorem pathChars_label (label : String) :
    pathChars ("$." ++ label) = '.' :: (beforeNul label).toList := by
  rw [pathChars, String.toList_append, beforeNul]
  show List.takeWhile _ ('.' :: label.toList) = _
  rw [List.takeWhile_cons, if_pos (by decide), String.toList_ofList]

end Reference

/-- The store reads the entry whose key is written as the label, up to its first NUL, if it can read
the document at all. -/
theorem Row.read_label {key document : Value} (hdocument : document.IsWritable) {label : String}
    (hne : beforeNul label ≠ "") (hlabel : ∀ c ∈ label.toList, c ≠ '.' ∧ c ≠ '[' ∧ c ≠ '"') :
    (Row.ofDocument key document).read (.path ("$." ++ label)) =
      if document.body.IsReadable then
        .ok (((document.body.underLabel? (beforeNul label)).map Value.asStored).getD .null)
      else .error .malformedJson := by
  obtain ⟨⟨entries, rfl⟩, json, hjson⟩ := hdocument
  have hbody : (Value.map entries).storedBody = json.spaced := by
    have hstored : (Value.map (Value.eraseKey entries keyName)).storedJson = .ok json.spaced :=
      map_eq_ok_iff.mpr ⟨json, hjson, rfl⟩
    rw [Value.storedBody_map, hstored]
    rfl
  have hread := Scalar.documentOf_of_ofText? (ofText?_spaced (Value.readable_write _ hjson))
  rw [Value.isStorable_write hjson, ← hbody] at hread
  show Reference.extract (Value.map entries).storedBody ("$." ++ label) = _
  unfold Reference.extract
  rw [hread]
  split_ifs with hreadable
  · obtain ⟨members, hmembers, rfl⟩ := map_eq_ok_iff.mp hjson
    have hinside : ∀ c ∈ (beforeNul label).toList, c ≠ '.' ∧ c ≠ '[' ∧ c ≠ '"' := by
      rw [beforeNul, String.toList_ofList]
      exact fun c hc => hlabel c ((List.takeWhile_sublist _).subset hc)
    have hchars : (beforeNul label).toList ≠ [] := fun h => hne (by simpa using h)
    have hlocate := locate_member hchars hinside members
    have hrel := Value.rel_underLabel? hmembers (beforeNul label)
    simp only [Reference.pathChars_label, hlocate, Value.body]
    generalize (Value.map (Value.eraseKey entries keyName)).underLabel? (beforeNul label) = held
      at hrel ⊢
    generalize members.lookup (beforeNul label).toList = member at hrel ⊢
    cases hrel with
    | none => rfl
    | some hwritten => exact congrArg _ (Scalar.ofJson_of_write hwritten)
  · rfl

/-- An identifier is such a label, and no NUL ends it early. -/
theorem Row.read_identifier {key document : Value} (hdocument : document.IsWritable)
    {field : String} (hfield : TableName.isIdentifier field.toList = true) :
    (Row.ofDocument key document).read (.path ("$." ++ field)) =
      if document.body.IsReadable then
        .ok (((document.body.underLabel? field).map Value.asStored).getD .null)
      else .error .malformedJson := by
  have hwhole : beforeNul field = field :=
    beforeNul_eq_self fun c hc => ne_nul_of_le (isPlain_of_isIdentifier hfield c hc).1
  have hne : beforeNul field ≠ "" := by
    rw [hwhole]
    rintro rfl
    exact ne_nil_of_isIdentifier hfield rfl
  rw [read_label hdocument hne (ne_pathSign_of_isIdentifier hfield), hwhole]

theorem Row.isWritable_of_read {key : Value} {entries : List (Value × Value)} {path : String}
    {v : Scalar} (h : (Row.ofDocument key (.map entries)).read (.path path) = .ok v) :
    (Value.map entries).IsWritable := by
  have h : Reference.extract (Value.map entries).storedBody path = .ok v := h
  rw [Value.storedBody_map] at h
  cases hstored : (Value.map (Value.eraseKey entries keyName)).storedJson with
  | error failure =>
      -- What was not written has the empty text, which is no document.
      rw [hstored] at h
      cases h
  | ok s =>
      obtain ⟨json, hjson, -⟩ := map_eq_ok_iff.mp hstored
      exact ⟨⟨entries, rfl⟩, json, hjson⟩

theorem Value.asStored_of_atom {v : Value} {a : Atom} (ha : v.atom? = some a)
    (hstorable : a.IsStorable) : v.asStored = a.scalar := by
  cases v with
  | bool b =>
      cases ha
      rfl
  | int n =>
      cases ha
      exact if_pos hstorable
  | text s =>
      cases ha
      rw [asStored, beforeNul_eq_self fun c hc => fun hnul => hstorable (hnul ▸ hc)]
      rfl
  | _ => cases ha

/-- Where a document holds nothing but an atom under a field, the store reads that atom. -/
theorem Row.read_field {key : Value} {entries : List (Value × Value)} {field : String} {v : Scalar}
    (hkeys : Value.TextKeys entries) (hfield : TableName.isIdentifier field.toList = true)
    (hkey : field ≠ "_id")
    (hatomic : ∀ w, Value.lookup? entries (.text field) = some w → w = .null ∨ w.IsAtomic)
    (h : (Row.ofDocument key (.map entries)).read (.path ("$." ++ field)) = .ok v) :
    v = Atom.heldScalar (((Value.map entries).field? field).bind Value.atom?) := by
  rw [read_identifier (isWritable_of_read h) hfield,
    Value.underLabel?_body hkeys rfl hkey (isPlain_of_isIdentifier hfield)] at h
  split_ifs at h
  rw [← Except.ok.inj h, Value.field?]
  cases hheld : Value.lookup? entries (.text field) with
  | none => rfl
  | some w =>
      obtain rfl | ⟨a, ha, hstorable⟩ := hatomic w hheld
      · rfl
      · rw [Option.bind_some, ha, Option.map_some, Option.getD_some,
          Value.asStored_of_atom ha hstorable]
        rfl

end DocFilter
