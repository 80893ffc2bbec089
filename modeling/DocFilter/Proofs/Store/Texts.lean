import DocFilter.Proofs.Store.Labels
import DocFilter.Proofs.Store.Restoring

/-!
Texts as operands.

A text is compared with what the store reads under a field. It reads a text where a text was
written, and just as well where a list or a mapping was: then it is the text of the collection
without blanks. So a text finds the documents that hold it, and those that hold a collection with
this text (`text_finds_texts_and_collections`, `text_finds_list`). Numbers and truth values are
never found, and a text that does not begin like a collection finds texts only.
-/

namespace DocFilter

open Json Outcome

/-! ### Documents -/

namespace Value

/-- A mapping from texts to values that are written without loss. -/
def IsJsonDocument (document : Value) : Prop :=
  ∃ entries, document = .map entries ∧ TextKeys entries ∧
    (map (eraseKey entries keyName)).Lossless

theorem isJsonDocument_of_field {key field : String} {v : Value} (hfield : field ≠ "_id")
    (hv : v.Lossless) : (map [(keyName, .text key), (.text field, v)]).IsJsonDocument := by
  have hkeys : TextKeys [(keyName, .text key), (.text field, v)] := by simp [TextKeys, keyName]
  refine ⟨_, rfl, hkeys, .map (textKeys_eraseKey hkeys keyName) ?_ fun entry hentry => ?_⟩
  · have hdistinct : ([(keyName, .text key), (.text field, v)].map (·.1)).Nodup := by
      simpa [keyName] using hfield.symm
    exact hdistinct.sublist (List.filter_sublist.map _)
  · obtain rfl | rfl : entry = (keyName, .text key) ∨ entry = (.text field, v) := by
      simpa using List.mem_of_mem_filter hentry
    · exact .text key
    · exact hv

theorem Lossless.isFinite {v : Value} (h : v.Lossless) : v.isFinite = true := by
  induction h with
  | null | bool | int | text => rfl
  | real h => exact h
  | list _ ih => exact areFinite_of_forall ih
  | map _ _ _ ih => exact entriesAreFinite_of_forall ih

theorem IsJsonDocument.isWritable {document : Value} (h : document.IsJsonDocument) :
    document.IsWritable := by
  obtain ⟨entries, rfl, -, hlossless⟩ := h
  obtain ⟨json, hjson, -⟩ := hlossless.isRestored
  exact ⟨⟨entries, rfl⟩, json, hjson⟩

theorem IsJsonDocument.isReadable {document : Value} (h : document.IsJsonDocument) :
    document.body.IsReadable = decide (document.body.levels ≤ Scalar.maxJsonDepth) := by
  obtain ⟨entries, rfl, -, hlossless⟩ := h
  rw [IsReadable, body, hlossless.isFinite, Bool.true_and]

theorem IsJsonDocument.lossless_field {document v : Value} {field : String}
    (h : document.IsJsonDocument) (hkey : field ≠ "_id") (hv : document.field? field = some v) :
    v.Lossless := by
  obtain ⟨entries, rfl, hkeys, hlossless⟩ := h
  rw [field?, ← lookup?_eraseKey hkeys hkey] at hv
  obtain ⟨entry, hentry, rfl⟩ := Option.map_eq_some_iff.mp hv
  cases hlossless with
  | map _ _ hvalues => exact hvalues entry (List.mem_of_find?_eq_some hentry)

end Value

/-- What the store reads under an identifier, if the document is not nested too deeply. -/
theorem Row.read_jsonField {key document : Value} {field : String}
    (h : document.IsJsonDocument) (hfield : TableName.isIdentifier field.toList = true)
    (hkey : field ≠ "_id") :
    (Row.ofDocument key document).read (.path ("$." ++ field)) =
      if document.body.levels ≤ Scalar.maxJsonDepth then
        .ok (((document.field? field).map Value.asStored).getD .null)
      else .error .malformedJson := by
  obtain ⟨entries, hmap, hkeys, -⟩ := id h
  rw [read_identifier h.isWritable hfield,
    Value.underLabel?_body hkeys hmap hkey (isPlain_of_isIdentifier hfield), h.isReadable]
  simp only [decide_eq_true_eq]

/-! ### What is read as a text -/

namespace Value

/-- The text that the store reads where a value was written, if it reads a text. -/
def readText? : Value → Option String
  | text t => some (beforeNul t)
  | list items => some (list items).compact
  | map entries => some (map entries).compact
  | _ => none

theorem Lossless.asStored_eq_text_iff {v : Value} (h : v.Lossless) {s : String} :
    v.asStored = .text s ↔ v.readText? = some s := by
  cases h with
  | @int n _ =>
      rw [asStored]
      split_ifs <;> simp [readText?]
  | null | bool | real | text | list | map => simp [asStored, readText?]

def isCollection : Value → Bool
  | list _ | map _ => true
  | _ => false

/-- The text of a collection begins with a bracket or a brace. -/
theorem Lossless.head_compact {v : Value} (h : v.Lossless) (hcollection : v.isCollection = true) :
    v.compact.toList.head? = some '[' ∨ v.compact.toList.head? = some '\x7b' := by
  obtain ⟨json, hjson, -⟩ := h.isRestored
  rw [compact_of_write hjson, minified, String.toList_ofList]
  cases v with
  | list items =>
      obtain ⟨jsons, -, rfl⟩ := map_eq_ok_iff.mp hjson
      exact .inl rfl
  | map entries =>
      obtain ⟨members, -, rfl⟩ := map_eq_ok_iff.mp hjson
      exact .inr rfl
  | _ => cases hcollection

/-- A text that does not begin like a collection is read only where a text was written. -/
theorem Lossless.eq_text_of_readText? {v : Value} (h : v.Lossless) {s : String}
    (hread : v.readText? = some s)
    (hs : s.toList.head? ≠ some '[' ∧ s.toList.head? ≠ some '\x7b') :
    ∃ t, v = .text t ∧ beforeNul t = s := by
  have hnone (hcollection : v.isCollection = true) (hcompact : v.compact = s) : False := by
    obtain hhead | hhead := h.head_compact hcollection
    · exact hs.1 (hcompact ▸ hhead)
    · exact hs.2 (hcompact ▸ hhead)
  cases v with
  | text t => exact ⟨t, rfl, Option.some.inj hread⟩
  | list | map => exact (hnone rfl (Option.some.inj hread)).elim
  | _ => cases hread

end Value

/-! ### Conditions -/

namespace Condition

theorem compareScalars_text_iff {v : Scalar} {s : String} :
    compareScalars .eq v (.text s) = some true ↔ v = .text s := by
  cases v with
  | null => simp [compareScalars]
  | text t =>
      simp [compareScalars, Scalar.compare, Relation.holds, Scalar.compareTexts_eq_iff]
  | int | real | blob =>
      simp [compareScalars, Scalar.compare, Scalar.number?, Relation.holds, Scalar.rank]

theorem amongScalars_texts_iff {v : Scalar} {path : String} {texts : List String} :
    amongScalars v ((texts.map .text).map fun operand =>
        (Reference.path path).adapt (Scalar.ofValue operand)) = some true ↔
      ∃ s ∈ texts, v = .text s := by
  have hmembers : ((texts.map .text).map fun operand =>
      (Reference.path path).adapt (Scalar.ofValue operand)) = texts.map Scalar.text := by
    rw [List.map_map]
    rfl
  simp [hmembers, amongScalars_eq_true_iff, compareScalars_text_iff]

theorem runs_oneOf {path : String} {operands : List Value}
    (hbindable : ∀ v ∈ operands, ∀ position, Scalar.checkBinding position v = .ok ()) :
    (oneOf (.path path) operands).Runs where
  no_key := rfl
  constant := fun h => by cases h
  shallow := by
    have hdepth : joinedDepth (depths [all [oneOf (.path path) operands]]) ≤ maxDepth := by
      show max 2 (if operands.length = 1 then 2 else 1) + 1 ≤ 1000
      split_ifs <;> decide
    exact if_pos hdepth
  bindable := by
    simpa [params, Reference.params, Scalar.checkBinding] using hbindable

theorem runs_never : never.Runs where
  no_key := rfl
  constant := fun _ _ => ⟨_, rfl⟩
  shallow := rfl
  bindable := by simp [params]

theorem ofEntry_isIn {path : String} {texts : List String} (hne : texts ≠ []) :
    ofEntry (.path path) (.text Operator.isIn.conditionKey) (.list (texts.map .text)) =
      .ok (oneOf (.path path) (texts.map .text)) := by
  cases texts with
  | nil => exact absurd rfl hne
  | cons s rest =>
      have hoperands : (rest.map Value.text).map sqlOperand = rest.map .text := by
        rw [List.map_map]
        rfl
      show Except.ok (oneOf (.path path) (.text s :: (rest.map Value.text).map sqlOperand)) = _
      rw [hoperands]
      rfl

end Condition

namespace Store

variable {issued : Nat} {session : List (TableName × Step)} {name : TableName} {field : String}

/-- A demand whose condition depends on what an identifier names only selects the JSON documents for
which it comes out true, if none is nested too deeply; else it fails. -/
theorem demand_of_field (op : Operator) (operand : Value) {c : Condition}
    {look : Scalar → Option Bool} (selects : Option Value → Bool)
    (hthere : ((({ issued } : Store).run session).2.database.find? name).isSome)
    (hstored : ∀ p ∈ inserted name session (({ issued } : Store).run session).1,
      p.2.IsJsonDocument)
    (hfield : TableName.isIdentifier field.toList = true) (hkey : field ≠ "_id")
    (hentry : Condition.ofEntry (.path ("$." ++ field)) (.text op.conditionKey) operand = .ok c)
    (hc : c.Runs) (hlook : ∀ read : Reading, c.eval read = (read (.path ("$." ++ field))).map look)
    (hnone : look .null = some true ↔ selects none = true)
    (hsome : ∀ v : Value, v.Lossless → (look v.asStored = some true ↔ selects (some v) = true)) :
    let stored := inserted name session (({ issued } : Store).run session).1
    let now := (({ issued } : Store).run session).2
    ((∀ p ∈ stored, p.2.body.levels ≤ Scalar.maxJsonDepth) →
      now.Selects name (op.demand (.text field) operand)
        (stored.filter fun p => selects (p.2.field? field))) ∧
    ((∃ p ∈ stored, Scalar.maxJsonDepth < p.2.body.levels) →
      now.Refuses name (op.demand (.text field) operand) .malformedJson) := by
  intro stored now
  rw [← referenceOf_text hkey] at hentry
  have hverdicts := demand_of_verdicts op (.text field) operand .malformedJson
    (fun document => decide (Scalar.maxJsonDepth < document.body.levels))
    (fun document => selects (document.field? field)) hthere
    (Condition.ofEntryOn_text hentry) hc fun p hp => ?_
  · simpa using hverdicts
  · have hread := @Row.read_jsonField p.1 p.2 field (hstored p hp) hfield hkey
    constructor
    · intro hdeep
      rw [hlook, hread, if_neg (Nat.not_le.mpr (of_decide_eq_true hdeep))]
      rfl
    · intro hshallow
      rw [hlook, hread, if_pos (Nat.not_lt.mp (of_decide_eq_false hshallow))]
      refine ⟨_, rfl, ?_⟩
      cases hvalue : p.2.field? field with
      | none => exact hnone
      | some v => exact hsome v ((hstored p hp).lossless_field hkey hvalue)

theorem isJsonDocument_of_mem_inserted {values : List (String × Value)}
    {answers : List (Except Failure Answer)} (hfield : field ≠ "_id")
    (hvalues : ∀ entry ∈ values, entry.2.Lossless) :
    ∀ p ∈ inserted name [(name, .create), (name, .insert (.list (values.map fun entry =>
      .map [(keyName, .text entry.1), (.text field, entry.2)])))] answers, p.2.IsJsonDocument := by
  intro p hp
  obtain ⟨entry, hentry, hdocument⟩ := List.mem_map.mp (mem_of_mem_inserted_created hp)
  rw [← hdocument]
  exact Value.isJsonDocument_of_field hfield (hvalues entry hentry)

theorem selects_nothing (hthere : ((({ issued } : Store).run session).2.database.find? name).isSome)
    (field : Value) :
    (({ issued } : Store).run session).2.Selects name
      (Operator.isIn.demand field (.list [])) [] := by
  have hverdicts := demand_of_verdicts .isIn field (.list []) .malformedJson (fun _ => false)
    (fun _ => false) hthere rfl Condition.runs_never fun p _ => by
      refine ⟨fun h => ?_, fun _ => ⟨_, rfl, by simp⟩⟩
      cases h
  have hselects := hverdicts.1 fun _ _ => rfl
  rwa [List.filter_false] at hselects

/-- Under an identifier a text selects the JSON documents that hold a text which is equal to it up
to its first NUL, or a collection of which it is the text without blanks, and a membership in texts
those that are selected for one of the texts; texts that do not begin like collections select texts
only. A document that is nested too deeply makes all of them fail but the membership in nothing. -/
theorem text_finds_texts_and_collections
    (hthere : ((({ issued } : Store).run session).2.database.find? name).isSome)
    (hstored : ∀ p ∈ inserted name session (({ issued } : Store).run session).1,
      p.2.IsJsonDocument)
    (hfield : TableName.isIdentifier field.toList = true) (hkey : field ≠ "_id")
    (texts : List String) :
    let stored := inserted name session (({ issued } : Store).run session).1
    let now := (({ issued } : Store).run session).2
    let read (p : Value × Value) : Option String := (p.2.field? field).bind Value.readText?
    let equals (s : String) := Operator.eq.demand (.text field) (.text s)
    let among := Operator.isIn.demand (.text field) (.list (texts.map .text))
    ((∀ p ∈ stored, p.2.body.levels ≤ Scalar.maxJsonDepth) →
      (∀ s, now.Selects name (equals s) (stored.filter fun p => (read p).any (· == s))) ∧
      now.Selects name among (stored.filter fun p => (read p).any texts.contains)) ∧
    ((∃ p ∈ stored, Scalar.maxJsonDepth < p.2.body.levels) →
      (∀ s, now.Refuses name (equals s) .malformedJson) ∧
      if texts = [] then now.Selects name among [] else now.Refuses name among .malformedJson) ∧
    ∀ p ∈ stored, ∀ s, read p = some s →
      s.toList.head? ≠ some '[' ∧ s.toList.head? ≠ some '{' →
        ∃ t, p.2.field? field = some (.text t) ∧ beforeNul t = s := by
  intro stored now read equals among
  have hequals (s : String) := demand_of_field .eq (.text s)
    (fun held => (held.bind Value.readText?).any (· == s))
    hthere hstored hfield hkey rfl (Condition.runs_compare fun _ => rfl) (fun _ => rfl)
    (by simp [Condition.compareScalars])
    fun v hv => by
      refine (Condition.compareScalars_text_iff.trans hv.asStored_eq_text_iff).trans ?_
      simp [Option.any_eq_true]
  have hamong : ((∀ p ∈ stored, p.2.body.levels ≤ Scalar.maxJsonDepth) →
        now.Selects name among (stored.filter fun p => (read p).any texts.contains)) ∧
      ((∃ p ∈ stored, Scalar.maxJsonDepth < p.2.body.levels) →
        if texts = [] then now.Selects name among []
        else now.Refuses name among .malformedJson) := by
    by_cases htexts : texts = []
    · subst htexts
      have hnothing := selects_nothing hthere (.text field)
      have hfilter : (stored.filter fun p => (read p).any [].contains) = [] :=
        List.filter_eq_nil_iff.mpr fun p _ => by cases read p <;> simp
      exact ⟨fun _ => hfilter ▸ hnothing, fun _ => hnothing⟩
    · rw [if_neg htexts]
      refine demand_of_field .isIn (.list (texts.map .text))
        (fun held => (held.bind Value.readText?).any texts.contains)
        hthere hstored hfield hkey (Condition.ofEntry_isIn htexts) (Condition.runs_oneOf ?_)
        (fun _ => rfl) ?_ fun v hv => ?_
      · simp [Scalar.checkBinding]
      · exact iff_of_false (Condition.amongScalars_null _) (by simp)
      · rw [Condition.amongScalars_texts_iff]
        simp [hv.asStored_eq_text_iff, Option.any_eq_true, and_comm]
  refine ⟨fun h => ⟨fun s => (hequals s).1 h, hamong.1 h⟩,
    fun h => ⟨fun s => (hequals s).2 h, hamong.2 h⟩, fun p hp s hs hhead => ?_⟩
  obtain ⟨v, hv, hread⟩ := Option.bind_eq_some_iff.mp hs
  obtain ⟨t, rfl, ht⟩ := ((hstored p hp).lossless_field hkey hv).eq_text_of_readText? hread hhead
  exact ⟨t, hv, ht⟩

/-- The text of a list is found where the list is and where the text is; among the others there is a
text with a NUL. -/
theorem text_finds_texts_and_collections_mixed :
    let docs : TableName := ⟨"docs"⟩
    let document (key : String) (v : Value) : Value := .map [(keyName, .text key), (.text "f", v)]
    let values := [("a", Value.list [.int 1, .int 2]), ("b", .text "[1,2]"), ("c", .text "x\x00y"),
      ("d", .map [(.text "b", .null)]), ("e", .int 5)]
    let documents := values.map fun (key, v) => document key v
    let session := [(docs, Step.create), (docs, .insert (.list documents))]
    let now := (({} : Store).run session).2
    ∃ equal among, now.Selects docs (Operator.eq.demand (.text "f") (.text "[1,2]")) equal ∧
      now.Selects docs (Operator.isIn.demand (.text "f")
        (.list (["x", "\x7b\"b\":null\x7d", "5"].map .text))) among ∧
      equal.map (fun p => p.1.display) = ["a", "b"] ∧
      among.map (fun p => p.1.display) = ["c", "d"] := by
  intro docs document values documents session now
  have hvalues : ∀ entry ∈ values, entry.2.Lossless := by
    simp only [values, List.forall_mem_cons]
    refine ⟨.list ?_, .text _, .text _, .map ?_ ?_ ?_, .int (by decide +kernel), by simp⟩
    · simpa using ⟨Value.Lossless.int (by decide +kernel), Value.Lossless.int (by decide +kernel)⟩
    · simp [Value.TextKeys]
    · simp
    · simpa using Value.Lossless.null
  have hstored : ∀ p ∈ inserted docs session (({} : Store).run session).1,
      p.2.IsJsonDocument :=
    isJsonDocument_of_mem_inserted (by decide) hvalues
  have h := @text_finds_texts_and_collections 0 session docs "f" (by decide +kernel) hstored
    (by decide) (by decide) ["x", "\x7b\"b\":null\x7d", "5"]
  obtain ⟨hequal, hamong⟩ := h.1 (by decide +kernel)
  exact ⟨_, _, hequal "[1,2]", hamong, by decide +kernel, by decide +kernel⟩

/-- A document that holds no text is found by a text. -/
theorem text_finds_list :
    let docs : TableName := ⟨"docs"⟩
    let held : Value := .list [.int 1, .int 2]
    let document : Value := .map [(keyName, .text "a"), (.text "f", held)]
    let now := (({} : Store).run [(docs, .create), (docs, .insert (.list [document]))]).2
    document.field? "f" = some held ∧
      now.count docs (Operator.eq.demand (.text "f") (.text "[1,2]")) = .ok 1 ∧
      now.count docs (Operator.isIn.demand (.text "f") (.list [.text "[1,2]"])) = .ok 1 := by
  intro docs held document now
  have hequal := eq_ok_of_toOption (by decide +kernel :
    (now.count docs (Operator.eq.demand (.text "f") (.text "[1,2]"))).toOption = some 1)
  have hamong := eq_ok_of_toOption (by decide +kernel :
    (now.count docs (Operator.isIn.demand (.text "f") (.list [.text "[1,2]"]))).toOption = some 1)
  exact ⟨by simp [Value.field?, document, Value.lookup?_cons_text, keyName], hequal, hamong⟩

end Store

end DocFilter
