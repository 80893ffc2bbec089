import DocFilter.Proofs.Store.Comparisons
import DocFilter.Proofs.Store.Sameness
import Mathlib.Data.List.Find

/-!
Values as operands for what was stored of them.

A value is written one way when it is stored and another way when it is asked for: alone it becomes
a parameter, in a document a part of a text. The two agree wherever the value can be a parameter at
all (`Recognizes`), so a value finds the documents that hold it (`stored_value_finds_itself`). A
tuple is stored as a list is, and an integer of any size as its digits; neither can be asked for,
though a list with either in it can. Keys that are no texts can be written like a name and hide what
is held under it (`underLabel?_null_key`); `HoldsAlone` leaves such documents out.
-/

namespace DocFilter

open Json Outcome

/-! ### Texts that stand in -/

theorem Calendar.le_padded (width n : Nat) : ∀ c ∈ padded width n, 32 ≤ c.val := by
  refine List.forall_mem_append.mpr ⟨fun c hc => ?_, fun c hc => ?_⟩
  · rw [List.eq_of_mem_replicate hc]
    decide
  · exact (isPlain_of_isDigit ((areDigits_toDigits n).2 c hc)).1

theorem Date.le_isoText (d : Date) : ∀ c ∈ d.isoText, 32 ≤ c.val := by
  simp only [isoText, List.append_assoc, List.cons_append, List.forall_mem_append,
    List.forall_mem_cons]
  exact ⟨Calendar.le_padded _ _, by decide, Calendar.le_padded _ _, by decide,
    Calendar.le_padded _ _⟩

namespace Timestamp

open Calendar

theorem le_offsetText (offset : Int) : ∀ c ∈ offsetText offset, 32 ≤ c.val := by
  have hsign : 32 ≤ (if offset < 0 then '-' else '+').val := by split_ifs <;> decide
  simp only [offsetText, List.cons_append, List.append_assoc, List.forall_mem_append,
    List.forall_mem_cons]
  refine ⟨hsign, le_padded _ _, by decide, le_padded _ _, ?_⟩
  split_ifs
  · exact List.forall_mem_cons.mpr ⟨by decide, List.forall_mem_append.mpr
      ⟨le_padded _ _, List.forall_mem_cons.mpr ⟨by decide, le_padded _ _⟩⟩⟩
  · exact List.forall_mem_cons.mpr ⟨by decide, le_padded _ _⟩
  · simp

theorem le_isoText (t : Timestamp) : ∀ c ∈ (t.isoText 'T').toList, 32 ≤ c.val := by
  simp only [isoText, String.toList_ofList, List.cons_append, List.append_assoc,
    List.forall_mem_append, List.forall_mem_cons]
  refine ⟨t.date.le_isoText, by decide, le_padded _ _, by decide, le_padded _ _, by decide,
    le_padded _ _, ?_, ?_⟩
  · split_ifs
    · simp
    · exact List.forall_mem_cons.mpr ⟨by decide, le_padded _ _⟩
  · cases t.offset with
    | none => simp
    | some offset => exact le_offsetText offset

end Timestamp

/-- The store sees the whole of a text that stands in for a value. -/
theorem Value.beforeNul_of_storedText {v : Value} {s : String} (h : v.storedText = .ok s) :
    beforeNul s = s := by
  have hprinted : ∀ c ∈ s.toList, 32 ≤ c.val := by
    cases v with
    | objectId id =>
        cases h
        rw [ObjectId.text, ObjectId.digits, String.toList_ofList]
        intro c hc
        obtain ⟨b, -, hc⟩ := List.mem_flatMap.mp hc
        exact Text.le_hexDigits 2 b.toNat c hc
    | timestamp t =>
        cases h
        exact t.le_isoText
    | date d =>
        cases h
        rw [Date.text, String.toList_ofList]
        exact d.le_isoText
    | _ => cases h
  exact beforeNul_eq_self fun c hc => ne_nul_of_le (hprinted c hc)

/-! ### Operands -/

namespace Value

/-- The value can be asked for: it is no tuple and no integer of more than 64 bits. -/
def isAskable : Value → Bool
  | int n => Scalar.fits n
  | tuple _ => false
  | _ => true

variable {v : Value}

theorem kinds_of_isAskable {json : Json} (hjson : v.write storedText = .ok json)
    (hask : v.isAskable = true) :
    v = .null ∨ v.isCollection = true ∨ v = .real .nan ∨ v.isComparable = true := by
  cases v with
  | null => exact .inl rfl
  | list | map => exact .inr (.inl rfl)
  | bool | int | text | objectId | timestamp | date => exact .inr (.inr (.inr rfl))
  | real x =>
      cases x with
      | nan => exact .inr (.inr (.inl rfl))
      | infinite | finite => exact .inr (.inr (.inr rfl))
  | tuple => cases hask
  | ring items =>
      obtain ⟨jsons, -, h⟩ := bind_eq_ok_iff.mp hjson
      cases h
  | bytes | operator | pattern | set | frozenSet | clause | paging | request => cases hjson

theorem asStored_eq_ofValue (hv : v.isComparable = true) (hask : v.isAskable = true)
    (hnul : ∀ s, v = .text s → '\x00' ∉ s.toList) :
    v.asStored = Scalar.ofValue (sqlOperand v) := by
  cases v with
  | bool b => rfl
  | int n => exact if_pos hask
  | real x =>
      cases x with
      | nan => simp [isComparable] at hv
      | infinite | finite => rfl
  | text s =>
      exact congrArg Scalar.text (beforeNul_eq_self fun c hc => ne_of_mem_of_not_mem hc (hnul s rfl))
  | objectId id => exact congrArg Scalar.text (@beforeNul_of_storedText (.objectId id) _ rfl)
  | timestamp t => exact congrArg Scalar.text (@beforeNul_of_storedText (.timestamp t) _ rfl)
  | date d => exact congrArg Scalar.text (@beforeNul_of_storedText (.date d) _ rfl)
  | _ => cases hv

theorem checkBinding_sqlOperand (hv : v.isComparable = true) (hask : v.isAskable = true)
    (position : Nat) : Scalar.checkBinding position (sqlOperand v) = .ok () := by
  cases v with
  | int n => exact if_pos hask
  | bool b => cases b <;> rfl
  | real | text | objectId | timestamp | date => rfl
  | _ => cases hv

end Value

/-! ### Conditions -/

namespace Condition

/-- The condition is true wherever the store reads the value at the path, if it can read the
value. -/
structure Recognizes (c : Condition) (path : String) (v : Value) : Prop where
  runs : c.Runs
  /-- It needs the value at the path. -/
  fails : ∀ {read : Reading} {fault : StoreFault}, read (.path path) = .error fault →
    c.eval read = .error fault
  holds : v.IsReadable = true → ∀ {read : Reading}, read (.path path) = .ok v.asStored →
    c.eval read = .ok (some true)

variable {v : Value} {path : String} {json : Json}

theorem recognizes_null : (isNull (.path path)).Recognizes path .null where
  runs :=
    { no_key := rfl
      constant := fun h => by cases h
      shallow := rfl
      bindable := by simp [params, Reference.params, Scalar.checkBinding] }
  fails := fun h => by rw [eval, h, Except.map]
  holds := fun _ read h => by
    rw [eval, h]
    rfl

theorem compareScalars_self {x : Scalar} (hnull : x ≠ .null) (hx : x.Stands) :
    compareScalars .eq x x = some true := by
  have hself : Scalar.compareStanding x x = .eq := Std.ReflCmp.compare_self
  rw [compareScalars_of_ne_null hnull hnull, Scalar.compare_eq_compareStanding hx hx, hself]
  rfl

theorem recognizes_comparable (hv : v.isComparable = true) (hask : v.isAskable = true)
    (hnul : ∀ s, v = .text s → '\x00' ∉ s.toList) :
    (compare (.path path) .eq (sqlOperand v)).Recognizes path v where
  runs := runs_compare (Value.checkBinding_sqlOperand hv hask)
  fails := fun h => by rw [eval, h, Except.map]
  holds := fun _ read h => by
    obtain ⟨hnull, hstands⟩ := Scalar.ofValue_sqlOperand_of_isComparable hv
    rw [eval, h, Value.asStored_eq_ofValue hv hask hnul]
    exact congrArg Except.ok (compareScalars_self hnull hstands)

theorem recognizes_collection (hcollection : v.isCollection = true)
    (hjson : v.write Value.storedText = .ok json) :
    (sameJson (.path path) json.spaced).Recognizes path v where
  runs := runs_sameJson
  fails := fun h => by
    rw [eval, h]
    rfl
  holds := fun hreadable read h => by
    have htree := Value.readable_write _ hjson
    have hstorable : json.IsStorable = true := (Value.isStorable_write hjson).trans hreadable
    have hstored : v.asStored = .text json.minified := by
      rw [← Value.compact_of_write hjson]
      cases v with
      | list | map => rfl
      | _ => cases hcollection
    have hleft : v.asStored.canonicalJson = .ok (.text json.minified) := by
      rw [hstored]
      exact (Scalar.canonicalText_minified htree).trans (if_pos hstorable)
    have hright : (Scalar.text json.spaced).canonicalJson = .ok (.text json.minified) :=
      (Scalar.canonicalText_spaced htree).trans (if_pos hstorable)
    rw [eval_sameJson h hleft hright]
    exact congrArg Except.ok (compareScalars_text_iff.mpr rfl)

/-- Whatever is stored and can be asked for has a condition that recognizes it. -/
theorem exists_recognizes (path : String) (hjson : v.write Value.storedText = .ok json)
    (hask : v.isAskable = true) (hnul : ∀ s, v = .text s → '\x00' ∉ s.toList) :
    ∃ c, ofEntry (.path path) (.text Operator.eq.conditionKey) v = .ok c ∧
      c.Recognizes path v := by
  obtain rfl | hcollection | rfl | hv := Value.kinds_of_isAskable hjson hask
  · exact ⟨_, rfl, recognizes_null⟩
  · refine ⟨_, ?_, recognizes_collection hcollection hjson⟩
    have hwritten : v.storedJson = .ok json.spaced := map_eq_ok_iff.mpr ⟨json, hjson, rfl⟩
    cases v with
    | list | map => exact map_eq_ok_iff.mpr ⟨_, hwritten, rfl⟩
    | _ => cases hcollection
  · refine ⟨_, rfl, runs_compare fun _ => rfl, fun h => by rw [eval, h, Except.map], fun h => ?_⟩
    cases h
  · exact ⟨_, (equals_of_isComparable hv _).1, recognizes_comparable hv hask hnul⟩

end Condition

/-! ### Documents -/

namespace Value

/-- The mapping holds the value under the name, and no other of its keys is written like the
name. -/
structure HoldsAlone (document : Value) (field : String) (v : Value) : Prop where
  held : document.field? field = some v
  alone : ∀ entries, document = .map entries → ∀ entry ∈ entries,
    entry.1.writeKey = .ok field.toList → entry.1 = .text field

variable {document v : Value} {field : String}

theorem HoldsAlone.exists_entries (h : document.HoldsAlone field v) :
    ∃ entries, document = .map entries := by
  have hheld := h.held
  cases document with
  | map entries => exact ⟨entries, rfl⟩
  | _ => cases hheld

theorem HoldsAlone.underLabel? (h : document.HoldsAlone field v) (hkey : field ≠ "_id")
    (hplain : ∀ c ∈ field.toList, IsPlain c) : document.body.underLabel? field = some v := by
  obtain ⟨entries, rfl⟩ := h.exists_entries
  have hwritten : (text field).writeKey = .ok field.toList :=
    congrArg Except.ok (escape_of_plain hplain)
  have hother : (text field).equal keyName = false := by
    show (text field).equal (.text "_id") = false
    rw [equal_text]
    exact beq_eq_false_iff_ne.mpr hkey
  rw [← h.held, body, Value.underLabel?, eraseKey, List.find?_filter, field?, lookup?]
  refine congrArg _ (List.find?_congr fun entry hentry => Bool.eq_iff_iff.mpr ?_)
  rw [text_equal_iff]
  constructor
  · intro hfound
    simp only [decide_eq_true_eq, beq_iff_eq] at hfound
    obtain ⟨-, hlabel⟩ := hfound
    cases hkey : entry.1.writeKey with
    | error failure => simp [hkey, Except.toOption] at hlabel
    | ok key =>
        rw [hkey] at hlabel
        have hlabel : key = field.toList := Option.some.inj hlabel
        exact h.alone entries rfl entry hentry (hlabel ▸ hkey)
  · intro hentry
    simp [hentry, hother, hwritten, Except.toOption]

/-- Texts are written in different ways, so no text but the name itself is written like it. -/
theorem IsDocument.holdsAlone (h : document.IsDocument) (hplain : ∀ c ∈ field.toList, IsPlain c)
    (hheld : document.field? field = some v) : document.HoldsAlone field v := by
  obtain ⟨entries, rfl, hkeys⟩ := h
  refine ⟨hheld, fun others hothers entry hentry hwritten => ?_⟩
  cases hothers
  obtain ⟨s, hs⟩ := hkeys entry hentry
  rw [hs] at hwritten ⊢
  have hsame : escape s.toList = escape field.toList :=
    (Except.ok.inj hwritten).trans (escape_of_plain hplain).symm
  rw [String.toList_inj.mp (escape_injective hsame)]

/-- Null as a key is written like a name, and hides what is held under the name behind it. -/
theorem underLabel?_null_key (w : Value) (entries : List (Value × Value)) :
    (map ((null, w) :: entries)).body.underLabel? "null" = some w := by
  have hkept : eraseKey ((null, w) :: entries) keyName = (null, w) :: eraseKey entries keyName :=
    List.filter_cons_of_pos (by simp [keyName, equal])
  have hwritten : null.writeKey.toOption = some "null".toList := rfl
  rw [body, hkept, underLabel?_cons, if_pos hwritten]

theorem IsWritable.exists_write {label : String} (h : document.IsWritable)
    (hv : document.body.underLabel? label = some v) : ∃ json, v.write storedText = .ok json := by
  obtain ⟨⟨entries, rfl⟩, json, hjson⟩ := h
  obtain ⟨members, hmembers, -⟩ := map_eq_ok_iff.mp hjson
  have hrel := rel_underLabel? hmembers label
  rw [← body, hv] at hrel
  generalize members.lookup label.toList = member at hrel
  cases hrel with
  | some hwritten => exact ⟨_, hwritten⟩

theorem isReadable_of_underLabel? {label : String} (h : document.IsReadable = true)
    (hv : document.underLabel? label = some v) : v.IsReadable = true := by
  refine Bool.and_eq_true_iff.mpr ⟨isFinite_of_underLabel? h hv, decide_eq_true ?_⟩
  cases document with
  | map entries =>
      obtain ⟨entry, hentry, rfl⟩ := Option.map_eq_some_iff.mp hv
      have hlevels : levelsOfEntries entries + 1 ≤ Scalar.maxJsonDepth :=
        of_decide_eq_true (Bool.and_eq_true_iff.mp h).2
      have hentry := levels_le_of_mem_entries entry (List.mem_of_find?_eq_some hentry)
      omega
  | _ => cases hv

end Value

theorem Row.read_heldAlone {key document v : Value} {field : String} (h : document.HoldsAlone field v)
    (hwritable : document.IsWritable) (hfield : TableName.isIdentifier field.toList = true)
    (hkey : field ≠ "_id") :
    (Row.ofDocument key document).read (.path ("$." ++ field)) =
      if document.body.IsReadable then .ok v.asStored else .error .malformedJson := by
  rw [read_identifier hwritable hfield, h.underLabel? hkey (isPlain_of_isIdentifier hfield)]
  rfl

namespace Store

/-! ### Parameters that are refused -/

/-- A demand that compares with what cannot be a parameter fails before any row is read. -/
theorem fails_of_checkBinding {s : Store} {name : TableName} {op : Operator} {field : String}
    {operand given : Value} {relation : Relation} {failure : Failure}
    (hreach : s.Reachable) (hthere : (s.database.find? name).isSome) (hkey : field ≠ "_id")
    (hentry : Condition.ofEntry (.path ("$." ++ field)) (.text op.conditionKey) operand =
      .ok (.compare (.path ("$." ++ field)) relation given))
    (hbinding : Scalar.checkBinding 2 given = .error failure) :
    s.find name (op.demand (.text field) operand) [] .null = .error failure ∧
      s.count name (op.demand (.text field) operand) = .error failure := by
  obtain ⟨table, htable⟩ := Option.isSome_iff_exists.mp hthere
  have hword := hreach.checkWord hthere
  set path := "$." ++ field
  have hterms := Operator.ofValue_demand
    (Condition.ofEntryOn_text ((congrArg (Condition.ofEntry · _ _) (referenceOf_text hkey)).trans
      hentry))
  -- The path is the first parameter and the operand the second.
  have hrefused (rest : List Value) :
      Scalar.checkBindings 1 (.text path :: given :: rest) = .error failure := by
    refine bind_eq_error_iff.mpr (.inr ⟨(), rfl, ?_⟩)
    exact bind_eq_error_iff.mpr (.inl hbinding)
  have hparams (rest : List Value) :
      Condition.paramsList [.all [.compare (.path path) relation given]] ++ rest =
        .text path :: given :: rest := by
    rw [Condition.paramsList_single]
    rfl
  constructor
  · have hrun : ({ conditions := [.all [.compare (.path path) relation given]] } : Selection).run
        table = .error failure := by
      unfold Selection.run
      rw [Selection.params, List.append_assoc, hparams, hrefused]
      rfl
    rw [Operator.demand, find_eq_run hreach.location hword htable hterms rfl, hrun]
    rfl
  · rw [count_eq_run hreach.location hword htable hterms rfl, countRows,
      ← List.append_nil (Condition.paramsList _), hparams, hrefused]
    rfl

/-! ### Queries -/

variable {issued : Nat} {session : List (TableName × Step)} {name : TableName} {field : String}

/-- Documents that hold a value alone are all selected by a condition that recognizes it. -/
theorem demand_of_recognizes {v : Value} {c : Condition}
    (hthere : ((({ issued } : Store).run session).2.database.find? name).isSome)
    (hstored : ∀ p ∈ inserted name session (({ issued } : Store).run session).1,
      p.2.HoldsAlone field v ∧ p.2.IsWritable)
    (hfield : TableName.isIdentifier field.toList = true) (hkey : field ≠ "_id")
    (hentry : Condition.ofEntry (.path ("$." ++ field)) (.text Operator.eq.conditionKey) v = .ok c)
    (hc : c.Recognizes ("$." ++ field) v) :
    let stored := inserted name session (({ issued } : Store).run session).1
    let now := (({ issued } : Store).run session).2
    let same := Operator.eq.demand (.text field) v
    ((∀ p ∈ stored, p.2.body.IsReadable = true) → now.Selects name same stored) ∧
      ((∃ p ∈ stored, p.2.body.IsReadable = false) → now.Refuses name same .malformedJson) := by
  intro stored now same
  rw [← referenceOf_text hkey] at hentry
  have hverdicts := demand_of_verdicts .eq (.text field) v .malformedJson
    (fun document => !document.body.IsReadable) (fun _ => true) hthere
    (Condition.ofEntryOn_text hentry) hc.runs fun p hp => ?_
  · simpa using hverdicts
  · obtain ⟨hholds, hwritable⟩ := hstored p hp
    have hread := @Row.read_heldAlone p.1 p.2 v field hholds hwritable hfield hkey
    constructor
    · intro hrefuses
      exact hc.fails (hread.trans (if_neg (by simpa using hrefuses)))
    · intro hrefuses
      have hreadable : p.2.body.IsReadable = true := by simpa using hrefuses
      have hheld := hholds.underLabel? hkey (isPlain_of_isIdentifier hfield)
      exact ⟨_, hc.holds (Value.isReadable_of_underLabel? hreadable hheld)
        (hread.trans (if_pos hreadable)), by simp⟩

end Store

end DocFilter
