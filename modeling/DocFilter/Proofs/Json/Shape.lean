import DocFilter.Proofs.Json.Writing
import DocFilter.Sql.Scalar

/-!
The shape of written documents.

The store reads a text as a document only if no special number occurs in it and it is not nested too
deeply. Both can be seen from a value before it is written: the written tree is as deep as the
value, and strict if all its numbers are finite (`shape_write`). No NUL gets into a printed tree, so
the store sees the whole text (`canonicalText_spaced`), and takes away its blanks.
-/

namespace DocFilter

open Json Outcome

/-- The text up to its first NUL. -/
def beforeNul (s : String) : String := String.ofList (s.toList.takeWhile (· ≠ '\x00'))

theorem beforeNul_eq_self {s : String} (h : ∀ c ∈ s.toList, c ≠ '\x00') : beforeNul s = s := by
  have htake : s.toList.takeWhile (fun c => decide (c ≠ '\x00')) = s.toList :=
    List.takeWhile_eq_self_iff.mpr fun c hc => decide_eq_true (h c hc)
  rw [beforeNul, htake, String.ofList_toList]

theorem beforeNul_beforeNul (s : String) : beforeNul (beforeNul s) = beforeNul s := by
  refine beforeNul_eq_self fun c hc => ?_
  rw [beforeNul, String.toList_ofList] at hc
  simpa using List.mem_takeWhile_imp hc

/-! ### Depth and special numbers -/

namespace Value

mutual

def isFinite : Value → Bool
  | real x => x.isFinite
  | list items => areFinite items
  | tuple items => areFinite items
  | map entries => entriesAreFinite entries
  | _ => true

def areFinite : List Value → Bool
  | [] => true
  | v :: rest => isFinite v && areFinite rest

def entriesAreFinite : List (Value × Value) → Bool
  | [] => true
  | (_, v) :: rest => isFinite v && entriesAreFinite rest

end

theorem levels_le_of_mem_entries {entries : List (Value × Value)} :
    ∀ entry ∈ entries, entry.2.levels ≤ levelsOfEntries entries := by
  induction entries with
  | nil => simp
  | cons entry rest ih =>
      obtain ⟨k, v⟩ := entry
      rw [levelsOfEntries]
      exact List.forall_mem_cons.mpr
        ⟨Nat.le_max_left _ _, fun entry hentry => (ih entry hentry).trans (Nat.le_max_right _ _)⟩

theorem isFinite_of_mem_entries {entries : List (Value × Value)}
    (h : entriesAreFinite entries = true) : ∀ entry ∈ entries, entry.2.isFinite = true := by
  induction entries with
  | nil => simp
  | cons entry rest ih =>
      obtain ⟨k, v⟩ := entry
      obtain ⟨hv, hrest⟩ := Bool.and_eq_true_iff.mp h
      exact List.forall_mem_cons.mpr ⟨hv, ih hrest⟩

theorem areFinite_of_forall {items : List Value} (h : ∀ v ∈ items, v.isFinite = true) :
    areFinite items = true := by
  induction items with
  | nil => rfl
  | cons v rest ih =>
      obtain ⟨hv, hrest⟩ := List.forall_mem_cons.mp h
      exact Bool.and_eq_true_iff.mpr ⟨hv, ih hrest⟩

theorem entriesAreFinite_of_forall {entries : List (Value × Value)}
    (h : ∀ entry ∈ entries, entry.2.isFinite = true) : entriesAreFinite entries = true := by
  induction entries with
  | nil => rfl
  | cons entry rest ih =>
      obtain ⟨k, v⟩ := entry
      obtain ⟨hv, hrest⟩ := List.forall_mem_cons.mp h
      exact Bool.and_eq_true_iff.mpr ⟨hv, ih hrest⟩

variable {standIn : Value → Except Failure String}

mutual

/-- A value is written as deeply nested as it is, with special numbers where it has numbers that are
not finite. -/
theorem shape_write :
    (v : Value) → ∀ {json : Json}, v.write standIn = .ok json →
      json.depth = v.levels ∧ json.isStrict = v.isFinite
  | null, json, h | bool _, json, h | text _, json, h => by
      cases h
      exact ⟨rfl, rfl⟩
  | int n, json, h => by
      obtain ⟨-, rfl⟩ := ite_eq_ok_iff.mp h
      exact ⟨rfl, rfl⟩
  | real x, json, h => by
      cases h
      rw [writeReal, isFinite]
      split_ifs with hfinite
      · exact ⟨rfl, hfinite.symm⟩
      · exact ⟨rfl, (Bool.eq_false_iff.mpr hfinite).symm⟩
  | list items, json, h | tuple items, json, h => by
      obtain ⟨jsons, hjsons, rfl⟩ := map_eq_ok_iff.mp h
      obtain ⟨hdepth, hstrict⟩ := shape_writeItems items hjsons
      exact ⟨by rw [depth, levels, hdepth], by rw [isStrict, isFinite, hstrict]⟩
  | ring items, json, h => by
      obtain ⟨jsons, _, h⟩ := bind_eq_ok_iff.mp h
      cases h
  | map entries, json, h => by
      obtain ⟨members, hmembers, rfl⟩ := map_eq_ok_iff.mp h
      obtain ⟨hdepth, hstrict⟩ := shape_writeEntries entries hmembers
      exact ⟨by rw [depth, levels, hdepth], by rw [isStrict, isFinite, hstrict]⟩
  | bytes _, json, h | objectId _, json, h | timestamp _, json, h | date _, json, h
  | operator _, json, h | pattern _, json, h | set _, json, h | frozenSet _, json, h
  | clause .., json, h | paging .., json, h | request .., json, h => by
      obtain ⟨s, _, rfl⟩ := map_eq_ok_iff.mp h
      exact ⟨rfl, rfl⟩

theorem shape_writeItems :
    (items : List Value) → ∀ {jsons : List Json}, writeItems standIn items = .ok jsons →
      depthOfItems jsons = levelsOfItems items ∧ areStrict jsons = areFinite items
  | [], jsons, h => by
      cases h
      exact ⟨rfl, rfl⟩
  | v :: rest, jsons, h => by
      obtain ⟨json, hjson, h⟩ := bind_eq_ok_iff.mp h
      obtain ⟨others, hothers, rfl⟩ := map_eq_ok_iff.mp h
      obtain ⟨hdepth, hstrict⟩ := shape_write v hjson
      obtain ⟨hdepths, hstricts⟩ := shape_writeItems rest hothers
      exact ⟨by rw [depthOfItems, levelsOfItems, hdepth, hdepths],
        by rw [areStrict, areFinite, hstrict, hstricts]⟩

theorem shape_writeEntries :
    (entries : List (Value × Value)) → ∀ {members : List (List Char × Json)},
      writeEntries standIn entries = .ok members →
      depthOfMembers members = levelsOfEntries entries ∧
        membersAreStrict members = entriesAreFinite entries
  | [], members, h => by
      cases h
      exact ⟨rfl, rfl⟩
  | (k, v) :: rest, members, h => by
      obtain ⟨key, hkey, h⟩ := bind_eq_ok_iff.mp h
      obtain ⟨json, hjson, h⟩ := bind_eq_ok_iff.mp h
      obtain ⟨others, hothers, rfl⟩ := map_eq_ok_iff.mp h
      obtain ⟨hdepth, hstrict⟩ := shape_write v hjson
      obtain ⟨hdepths, hstricts⟩ := shape_writeEntries rest hothers
      exact ⟨by rw [depthOfMembers, levelsOfEntries, hdepth, hdepths],
        by rw [membersAreStrict, entriesAreFinite, hstrict, hstricts]⟩

end

end Value

/-! ### Printed characters -/

theorem Text.le_hexDigits (width n : Nat) : ∀ c ∈ Text.hexDigits width n, 32 ≤ c.val := by
  induction width generalizing n with
  | zero => simp [Text.hexDigits]
  | succ width ih =>
      have hall : ∀ digit < 16, 32 ≤ (Text.hexDigit digit).val := by decide
      rw [Text.hexDigits]
      exact List.forall_mem_append.mpr
        ⟨ih _, List.forall_mem_singleton.mpr (hall _ (Nat.mod_lt _ (by decide)))⟩

namespace Json

theorem le_codeEscape (code : Nat) : ∀ c ∈ codeEscape code, 32 ≤ c.val := by
  refine List.forall_mem_cons.mpr ⟨by decide, List.forall_mem_cons.mpr ⟨by decide, ?_⟩⟩
  exact Text.le_hexDigits 4 code

theorem le_escapeChar (c : Char) : ∀ d ∈ escapeChar c, 32 ≤ d.val := by
  have hshort (d e : Char) (hd : 32 ≤ d.val) (he : 32 ≤ e.val) : ∀ f ∈ [d, e], 32 ≤ f.val := by
    simpa using ⟨hd, he⟩
  unfold escapeChar
  split_ifs with h₁ h₂ h₃ h₄ h₅ h₆ h₇ hplain
  · exact hshort _ _ (by decide) (by decide)
  · exact hshort _ _ (by decide) (by decide)
  · exact hshort _ _ (by decide) (by decide)
  · exact hshort _ _ (by decide) (by decide)
  · exact hshort _ _ (by decide) (by decide)
  · exact hshort _ _ (by decide) (by decide)
  · exact hshort _ _ (by decide) (by decide)
  · simpa using hplain.1
  · exact le_codeEscape _
  · exact List.forall_mem_append.mpr ⟨le_codeEscape _, le_codeEscape _⟩

theorem IsWritten.le {escaped : List Char} (h : IsWritten escaped) :
    ∀ c ∈ escaped, 32 ≤ c.val := by
  obtain ⟨cs, rfl⟩ := h
  intro c hc
  obtain ⟨d, -, hc⟩ := List.mem_flatMap.mp hc
  exact le_escapeChar d c hc

section Print

variable {comma colon : List Char}

theorem le_label (hcolon : ∀ c ∈ colon, 32 ≤ c.val) {key : List Char} (h : IsWritten key) :
    ∀ c ∈ '"' :: key ++ '"' :: colon, 32 ≤ c.val :=
  List.forall_mem_append.mpr ⟨List.forall_mem_cons.mpr ⟨by decide, h.le⟩,
    List.forall_mem_cons.mpr ⟨by decide, hcolon⟩⟩

mutual

theorem le_print (hcomma : ∀ c ∈ comma, 32 ≤ c.val) (hcolon : ∀ c ∈ colon, 32 ≤ c.val) :
    (json : Json) → json.Readable → ∀ c ∈ print comma colon json, 32 ≤ c.val
  | null, _ => by
      simp [print]
  | bool b, _ => by
      cases b <;> simp [print]
  | number literal, h => fun c hc => (h.isPlain c hc).1
  | special x, _ => by
      have hword : ∀ c ∈ specialWord x, 32 ≤ c.val := by
        cases x with
        | nan | finite => simp [specialWord]
        | infinite negative => cases negative <;> simp [specialWord]
      exact hword
  | text escaped, h => by
      rw [print, List.cons_append]
      refine List.forall_mem_cons.mpr ⟨by decide, List.forall_mem_append.mpr ⟨h.le, by simp⟩⟩
  | array items, h => by
      rw [print, List.cons_append]
      exact List.forall_mem_cons.mpr ⟨by decide, List.forall_mem_append.mpr
        ⟨le_printItems hcomma hcolon items h, by simp⟩⟩
  | object members, h => by
      rw [print, List.cons_append]
      exact List.forall_mem_cons.mpr ⟨by decide, List.forall_mem_append.mpr
        ⟨le_printMembers hcomma hcolon members h, by simp⟩⟩

theorem le_printItems (hcomma : ∀ c ∈ comma, 32 ≤ c.val) (hcolon : ∀ c ∈ colon, 32 ≤ c.val) :
    (items : List Json) → ReadableItems items → ∀ c ∈ printItems comma colon items, 32 ≤ c.val
  | [], _ => by simp [printItems]
  | [item], h => le_print hcomma hcolon item h.1
  | item :: next :: rest, h => by
      rw [printItems.eq_3 _ _ _ _ (by simp)]
      exact List.forall_mem_append.mpr ⟨List.forall_mem_append.mpr
        ⟨le_print hcomma hcolon item h.1, hcomma⟩, le_printItems hcomma hcolon (next :: rest) h.2⟩

theorem le_printMembers (hcomma : ∀ c ∈ comma, 32 ≤ c.val) (hcolon : ∀ c ∈ colon, 32 ≤ c.val) :
    (members : List (List Char × Json)) → ReadableMembers members →
      ∀ c ∈ printMembers comma colon members, 32 ≤ c.val
  | [], _ => by simp [printMembers]
  | [(key, value)], h => by
      rw [printMembers]
      exact List.forall_mem_append.mpr ⟨le_label hcolon h.1, le_print hcomma hcolon value h.2.1⟩
  | (key, value) :: next :: rest, h => by
      rw [printMembers.eq_3 _ _ _ _ _ (by simp)]
      refine List.forall_mem_append.mpr ⟨List.forall_mem_append.mpr ⟨?_, hcomma⟩,
        le_printMembers hcomma hcolon (next :: rest) h.2.2⟩
      exact List.forall_mem_append.mpr ⟨le_label hcolon h.1, le_print hcomma hcolon value h.2.1⟩

end

end Print

theorem ne_nul_of_le {c : Char} (h : 32 ≤ c.val) : c ≠ '\x00' := by
  rintro rfl
  exact absurd h (by decide)

theorem beforeNul_spaced {json : Json} (h : json.Readable) : beforeNul json.spaced = json.spaced := by
  refine beforeNul_eq_self fun c hc => ne_nul_of_le ?_
  rw [spaced, String.toList_ofList] at hc
  exact le_print (by simp) (by simp) json h c hc

theorem beforeNul_minified {json : Json} (h : json.Readable) :
    beforeNul json.minified = json.minified := by
  refine beforeNul_eq_self fun c hc => ne_nul_of_le ?_
  rw [minified, String.toList_ofList] at hc
  exact le_print (by simp) (by simp) json h c hc

/-- Readable trees that are printed alike are the same. -/
theorem minified_injective {a b : Json} (ha : a.Readable) (hb : b.Readable)
    (h : a.minified = b.minified) : a = b := by
  have hread := ofText?_minified ha
  rw [h, ofText?_minified hb] at hread
  exact (Option.some.inj hread).symm

theorem spaced_injective {a b : Json} (ha : a.Readable) (hb : b.Readable)
    (h : a.spaced = b.spaced) : a = b := by
  have hread := ofText?_spaced ha
  rw [h, ofText?_spaced hb] at hread
  exact (Option.some.inj hread).symm

/-- The store reads the tree as a document: it has no special numbers and is not too deep. -/
def IsStorable (json : Json) : Bool := json.isStrict && json.depth ≤ Scalar.maxJsonDepth

end Json

/-! ### What the store reads -/

namespace Scalar

variable {s : String} {json : Json}

theorem documentOf_of_ofText? (h : Json.ofText? s = some json) :
    documentOf s = if json.IsStorable then .ok json else .error .malformedJson := by
  rw [documentOf, h]
  rfl

theorem canonicalText_eq (s : String) :
    canonicalText s = (documentOf (beforeNul s)).map fun json => text json.minified := rfl

/-- The store takes the blanks out of a text that it can read, and refuses any other. -/
theorem canonicalText_spaced (h : json.Readable) :
    canonicalText json.spaced =
      if json.IsStorable then .ok (.text json.minified) else .error .malformedJson := by
  rw [canonicalText_eq, Json.beforeNul_spaced h, documentOf_of_ofText? (Json.ofText?_spaced h)]
  split_ifs <;> rfl

theorem canonicalText_minified (h : json.Readable) :
    canonicalText json.minified =
      if json.IsStorable then .ok (.text json.minified) else .error .malformedJson := by
  rw [canonicalText_eq, Json.beforeNul_minified h, documentOf_of_ofText? (Json.ofText?_minified h)]
  split_ifs <;> rfl

theorem canonicalText_of_isLiteral (h : Json.IsLiteral s.toList) : canonicalText s = .ok (.text s) := by
  have hnumber : (Json.number s.toList).minified = s := String.ofList_toList
  have hcanonical := @canonicalText_minified (.number s.toList) h
  rwa [hnumber] at hcanonical

/-- The only way in which the text of a document is refused. -/
theorem fault_of_documentOf {fault : StoreFault} (h : documentOf s = .error fault) :
    fault = .malformedJson := by
  unfold documentOf at h
  split at h
  · split_ifs at h
    cases h
    rfl
  · cases h
    rfl

end Scalar

namespace Value

/-- The value can be read back by the store: its numbers are finite, and it is not nested too
deeply. -/
def IsReadable (v : Value) : Bool := v.isFinite && v.levels ≤ Scalar.maxJsonDepth

theorem isStorable_write {v : Value} {json : Json} {standIn : Value → Except Failure String}
    (h : v.write standIn = .ok json) : json.IsStorable = v.IsReadable := by
  obtain ⟨hdepth, hstrict⟩ := shape_write v h
  rw [Json.IsStorable, IsReadable, hdepth, hstrict]

end Value

end DocFilter
