import DocFilter.Proofs.Number.StoreText
import DocFilter.Proofs.Store.Texts

/-!
Collections as operands.

A list or a mapping is compared as a document, and so is what is read under the field: the store
takes it for the text of a document and takes the blanks out of it. A collection is found where it
is written in the same way, and also where a text of it is held. A number is such a text, too, and
never that of a collection. Any other text makes the store fail, and so does an integer beyond all
reals; then no document is found, whatever the others hold (`collection_finds_written_alike`,
`collection_refuses_text`).
-/

namespace DocFilter

open Json Outcome

namespace Value

/-- The store cannot read what it keeps of the value as a document. -/
def isNoDocument : Value → Bool
  | int n => !Scalar.fits n && !(Binary64.ofInt n).isFinite
  | text t => !(Scalar.documentOf (beforeNul t)).isOk
  | _ => false

/-- The value is written like the collection, or it is a text of it, blanks aside. -/
def isTakenFor (v collection : Value) : Bool :=
  match v with
  | text t => (Scalar.documentOf (beforeNul t)).toOption.map Json.minified = some collection.compact
  | list _ | map _ => v.storedJson.toOption = collection.storedJson.toOption
  | _ => false

variable {v w : Value}

/-- Values are written alike with blanks if they are without. -/
theorem Lossless.compact_eq_iff (hv : v.Lossless) (hw : w.Lossless) :
    v.compact = w.compact ↔ v.storedJson.toOption = w.storedJson.toOption := by
  obtain ⟨json, hjson, -⟩ := hv.isRestored
  obtain ⟨json', hjson', -⟩ := hw.isRestored
  have hstored : v.storedJson = .ok json.spaced := map_eq_ok_iff.mpr ⟨json, hjson, rfl⟩
  have hstored' : w.storedJson = .ok json'.spaced := map_eq_ok_iff.mpr ⟨json', hjson', rfl⟩
  have hreadable := readable_write _ hjson
  have hreadable' := readable_write _ hjson'
  rw [compact_of_write hjson, compact_of_write hjson', hstored, hstored']
  constructor
  · intro h
    rw [minified_injective hreadable hreadable' h]
  · intro h
    rw [spaced_injective hreadable hreadable' (Option.some.inj h)]

theorem IsJsonDocument.levels_field {document : Value} {field : String}
    (h : document.IsJsonDocument) (hkey : field ≠ "_id") (hv : document.field? field = some v) :
    v.levels ≤ document.body.levels := by
  obtain ⟨entries, rfl, hkeys, -⟩ := h
  rw [field?, ← lookup?_eraseKey hkeys hkey] at hv
  obtain ⟨entry, hentry, rfl⟩ := Option.map_eq_some_iff.mp hv
  exact (levels_le_of_mem_entries entry (List.mem_of_find?_eq_some hentry)).trans (Nat.le_succ _)

end Value

/-! ### Documents of values -/

namespace Scalar

variable {v w : Value}

theorem ne_compact_of_isLiteral {s : String} (hs : IsLiteral s.toList) (hv : v.Lossless)
    (hcollection : v.isCollection = true) : s ≠ v.compact := by
  rintro rfl
  obtain ⟨c, cs, hcs, hdigit | ⟨rfl, -⟩⟩ := hs.exists_cons
  · have hhead := hv.head_compact hcollection
    rw [hcs, List.head?_cons, Option.some.injEq, Option.some.injEq] at hhead
    obtain rfl | rfl := hhead <;> cases hdigit
  · have hhead := hv.head_compact hcollection
    rw [hcs] at hhead
    simp at hhead

/-- A collection that is not nested too deeply is read as its text. -/
theorem canonicalText_of_lossless (hv : v.Lossless) :
    (∀ s, v.storedJson = .ok s → canonicalText s =
      if v.levels ≤ maxJsonDepth then .ok (.text v.compact) else .error .malformedJson) ∧
    canonicalText v.compact =
      if v.levels ≤ maxJsonDepth then .ok (.text v.compact) else .error .malformedJson := by
  obtain ⟨json, hjson, -⟩ := hv.isRestored
  have hreadable := Value.readable_write _ hjson
  have hstorable : json.IsStorable = decide (v.levels ≤ maxJsonDepth) := by
    rw [Value.isStorable_write hjson, Value.IsReadable, hv.isFinite, Bool.true_and]
  constructor
  · intro s hs
    obtain ⟨json', hjson', rfl⟩ := map_eq_ok_iff.mp hs
    obtain rfl : json = json' := Except.ok.inj (hjson.symm.trans hjson')
    rw [canonicalText_spaced hreadable, hstorable, Value.compact_of_write hjson]
    simp only [decide_eq_true_eq]
  · rw [Value.compact_of_write hjson, canonicalText_minified hreadable, hstorable]
    simp only [decide_eq_true_eq]

/-- What comes of reading a value as a document: a failure, or something that is the text of a
collection only if the value is taken for it. -/
def Decides (w : Value) : Prop :=
  (w.isNoDocument = true → w.asStored.canonicalJson = .error .malformedJson) ∧
    (w.isNoDocument = false → ∃ left, w.asStored.canonicalJson = .ok left ∧
      ∀ v : Value, v.Lossless → v.isCollection = true →
        (left = .text v.compact ↔ w.isTakenFor v = true))

theorem decides_of_isLiteral {s : String} (hs : IsLiteral s.toList)
    (htext : w.asStored.asText = .text s) (hdocument : w.isNoDocument = false)
    (hother : ∀ v, w.isTakenFor v = false) : Decides w := by
  have hcanonical : w.asStored.canonicalJson = .ok (.text s) := by
    rw [canonicalJson, htext]
    exact canonicalText_of_isLiteral hs
  constructor
  · intro hrefused
    cases hrefused.symm.trans hdocument
  · refine fun _ => ⟨_, hcanonical, fun v hv hcollection => ?_⟩
    rw [hother]
    exact iff_of_false (fun h => ne_compact_of_isLiteral hs hv hcollection (Scalar.text.inj h))
      (by simp)

theorem decides_text (t : String) : Decides (.text t) := by
  have hcanonical : (Value.text t).asStored.canonicalJson =
      (documentOf (beforeNul t)).map fun json => .text json.minified := by
    show canonicalText (beforeNul t) = _
    rw [canonicalText_eq, beforeNul_beforeNul]
  rw [Decides, hcanonical]
  cases hdocument : documentOf (beforeNul t) with
  | error fault =>
      obtain rfl := fault_of_documentOf hdocument
      refine ⟨fun _ => rfl, fun h => ?_⟩
      simp [Value.isNoDocument, hdocument, Except.isOk, Except.toBool] at h
  | ok json =>
      refine ⟨fun h => ?_, fun _ => ⟨_, rfl, fun v _ _ => ?_⟩⟩
      · simp [Value.isNoDocument, hdocument, Except.isOk, Except.toBool] at h
      · simp [Value.isTakenFor, hdocument, Except.toOption]

theorem decides_collection (hw : w.Lossless) (hcollection : w.isCollection = true)
    (hdepth : w.levels ≤ maxJsonDepth) : Decides w := by
  have hcanonical := (canonicalText_of_lossless hw).2
  rw [if_pos hdepth] at hcanonical
  have hstored : w.asStored.canonicalJson = .ok (.text w.compact) := by
    cases w with
    | list | map => exact hcanonical
    | _ => cases hcollection
  have hdocument : w.isNoDocument = false := by
    cases w with
    | list | map => rfl
    | _ => cases hcollection
  refine ⟨fun h => ?_, fun _ => ⟨_, hstored, fun v hv _ => ?_⟩⟩
  · cases h.symm.trans hdocument
  · rw [Scalar.text.injEq, hw.compact_eq_iff hv]
    cases w with
    | list | map => simp [Value.isTakenFor]
    | _ => cases hcollection

theorem canonicalJson_infinite (negative : Bool) :
    (Scalar.real (.infinite negative)).canonicalJson = .error .malformedJson := by
  cases negative <;> rfl

theorem decides_of_lossless (hw : w.Lossless) (hdepth : w.levels ≤ maxJsonDepth) : Decides w := by
  cases hw with
  | null =>
      refine ⟨fun h => ?_, fun _ => ⟨.null, rfl, fun v _ _ => by simp [Value.isTakenFor]⟩⟩
      cases h
  | bool b => exact decides_of_isLiteral (isLiteral_toString _) rfl rfl fun _ => rfl
  | @int n h =>
      -- An integer beyond 64 bits is kept as a real, and is no document if that is infinite.
      cases hfits : fits n with
      | true =>
          refine decides_of_isLiteral (isLiteral_toString n) ?_ ?_ fun _ => rfl
          · rw [Value.asStored, if_pos hfits]
            rfl
          · rw [Value.isNoDocument, hfits, Bool.not_true, Bool.false_and]
      | false =>
          have hreal : (Value.int n).asStored = .real (Binary64.ofInt n) := by
            rw [Value.asStored, if_neg (by simp [hfits])]
          have hrefused : (Value.int n).isNoDocument = !(Binary64.ofInt n).isFinite := by
            rw [Value.isNoDocument, hfits, Bool.not_false, Bool.true_and]
          cases hkept : Binary64.ofInt n with
          | nan =>
              have hnan := @Value.asStored_ne_nan (.int n) rfl
              exact absurd (hreal.trans (congrArg Scalar.real hkept)) hnan
          | infinite negative =>
              rw [hkept] at hreal hrefused
              refine ⟨fun _ => ?_, fun h => ?_⟩
              · rw [hreal]
                exact canonicalJson_infinite negative
              · cases hrefused.symm.trans h
          | finite negative rank =>
              have htext : (Value.int n).asStored.asText =
                  .text (StoreReal.text (Binary64.ofInt n)) := by
                rw [hreal, asText]
              have hfinite : (Binary64.ofInt n).isFinite = true := by
                rw [hkept]
                rfl
              refine decides_of_isLiteral (StoreReal.isLiteral_text hfinite) htext ?_ fun _ => rfl
              rw [hrefused, hfinite, Bool.not_true]
  | @real x h => exact decides_of_isLiteral (StoreReal.isLiteral_text h) rfl rfl fun _ => rfl
  | text t => exact decides_text t
  | list h => exact decides_collection (.list h) rfl hdepth
  | map hkeys hdistinct h => exact decides_collection (.map hkeys hdistinct h) rfl hdepth

theorem decides_held {held : Option Value}
    (h : ∀ w, held = some w → w.Lossless ∧ w.levels ≤ maxJsonDepth) :
    let read := (held.map Value.asStored).getD .null
    (held.any Value.isNoDocument = true → read.canonicalJson = .error .malformedJson) ∧
      (held.any Value.isNoDocument = false → ∃ left, read.canonicalJson = .ok left ∧
        ∀ v : Value, v.Lossless → v.isCollection = true →
          (left = .text v.compact ↔ held.any (·.isTakenFor v) = true)) := by
  cases held with
  | none =>
      refine ⟨fun h => ?_, fun _ => ⟨.null, rfl, fun v _ _ => by simp⟩⟩
      cases h
  | some w => exact decides_of_lossless (h w rfl).1 (h w rfl).2

end Scalar

/-! ### Conditions -/

namespace Condition

theorem runs_sameJson {path json : String} : (sameJson (.path path) json).Runs where
  no_key := rfl
  constant := fun h => by cases h
  shallow := rfl
  bindable := by simp [params, Reference.params, Scalar.checkBinding]

variable {read : Reading} {path json : String} {x left right : Scalar}

theorem eval_sameJson (hread : read (.path path) = .ok x) (hleft : x.canonicalJson = .ok left)
    (hright : (Scalar.text json).canonicalJson = .ok right) :
    (sameJson (.path path) json).eval read = .ok (compareScalars .eq left right) := by
  rw [eval, hread]
  show (x.canonicalJson >>= _) = _
  rw [hleft]
  show ((Scalar.text json).canonicalJson >>= _) = _
  rw [hright]
  rfl

/-- A condition that is read and fails does so because one of the two is no document. -/
theorem eval_sameJson_of_fault (hread : read (.path path) = .ok x)
    (h : x.canonicalJson = .error .malformedJson ∨
      (∃ left, x.canonicalJson = .ok left) ∧
        (Scalar.text json).canonicalJson = .error .malformedJson) :
    (sameJson (.path path) json).eval read = .error .malformedJson := by
  rw [eval, hread]
  show (x.canonicalJson >>= _) = _
  obtain hleft | ⟨⟨left, hleft⟩, hright⟩ := h
  · rw [hleft]
    rfl
  · rw [hleft]
    show ((Scalar.text json).canonicalJson >>= _) = _
    rw [hright]
    rfl

end Condition

namespace Store

variable {issued : Nat} {session : List (TableName × Step)} {name : TableName} {field : String}

end Store

end DocFilter
