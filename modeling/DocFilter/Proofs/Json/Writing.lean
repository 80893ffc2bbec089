import DocFilter.Json.Writer
import DocFilter.Proofs.Json.Reading
import DocFilter.Proofs.Outcome

/-!
Every value that can be written is written as a readable tree.

Keys are written as texts, whatever they are; numbers without a literal become special leaves. So
the stored text of a value is read back as the tree that was written (`ofText?_storedJson`), and a
stored mapping as an object with one member for each entry, in order.
-/

namespace DocFilter.Value

open Json Outcome

variable {standIn : Value → Except Failure String}

/-! ### Leaves -/

theorem isWritten_of_plain {cs : List Char} (h : ∀ c ∈ cs, IsPlain c) : IsWritten cs :=
  ⟨cs, (escape_of_plain h).symm⟩

theorem isWritten_of_all {cs : List Char} (h : (cs.all fun c => decide (IsPlain c)) = true) :
    IsWritten cs :=
  isWritten_of_plain fun c hc => of_decide_eq_true (List.all_eq_true.mp h c hc)

theorem isWritten_key {k : Value} {key : List Char} (h : k.writeKey = .ok key) :
    IsWritten key := by
  cases k with
  | text s =>
      cases h
      exact ⟨s.toList, rfl⟩
  | null =>
      cases h
      exact isWritten_of_all (by decide)
  | bool b =>
      cases h
      cases b
      · exact isWritten_of_all (by decide)
      · exact isWritten_of_all (by decide)
  | int n =>
      obtain ⟨-, rfl⟩ := ite_eq_ok_iff.mp h
      exact isWritten_of_plain (isLiteral_toString n).isPlain
  | real x =>
      cases h
      cases x with
      | nan => exact isWritten_of_all (by decide)
      | infinite negative =>
          cases negative
          · exact isWritten_of_all (by decide)
          · exact isWritten_of_all (by decide)
      | finite negative rank =>
          exact isWritten_of_plain (Binary64.isLiteral_text (x := .finite negative rank) rfl).isPlain
  | _ => cases h

theorem readable_writeReal (x : Binary64) : (writeReal x).Readable := by
  unfold writeReal
  split_ifs with hfinite
  · exact Binary64.isLiteral_text hfinite
  · simpa [Readable] using hfinite

theorem readable_writeText (s : String) : (writeText s).Readable := ⟨s.toList, rfl⟩

/-! ### Trees -/

mutual

theorem readable_write :
    (v : Value) → ∀ {json : Json}, v.write standIn = .ok json → json.Readable
  | null, json, h | bool _, json, h => by
      cases h
      trivial
  | int n, json, h => by
      obtain ⟨-, rfl⟩ := ite_eq_ok_iff.mp h
      exact isLiteral_toString n
  | real x, json, h => by
      cases h
      exact readable_writeReal x
  | text s, json, h => by
      cases h
      exact readable_writeText s
  | list items, json, h | tuple items, json, h => by
      obtain ⟨jsons, hjsons, rfl⟩ := map_eq_ok_iff.mp h
      exact readable_writeItems items hjsons
  | ring items, json, h => by
      -- A list that holds itself is never written.
      obtain ⟨jsons, _, h⟩ := bind_eq_ok_iff.mp h
      cases h
  | map entries, json, h => by
      obtain ⟨members, hmembers, rfl⟩ := map_eq_ok_iff.mp h
      exact readable_writeEntries entries hmembers
  | bytes _, json, h | objectId _, json, h | timestamp _, json, h | date _, json, h
  | operator _, json, h | pattern _, json, h | set _, json, h | frozenSet _, json, h
  | clause .., json, h | paging .., json, h | request .., json, h => by
      obtain ⟨s, _, rfl⟩ := map_eq_ok_iff.mp h
      exact readable_writeText s

theorem readable_writeItems :
    (items : List Value) → ∀ {jsons : List Json}, writeItems standIn items = .ok jsons →
      ReadableItems jsons
  | [], jsons, h => by
      cases h
      trivial
  | v :: rest, jsons, h => by
      obtain ⟨json, hjson, h⟩ := bind_eq_ok_iff.mp h
      obtain ⟨others, hothers, rfl⟩ := map_eq_ok_iff.mp h
      exact ⟨readable_write v hjson, readable_writeItems rest hothers⟩

theorem readable_writeEntries :
    (entries : List (Value × Value)) → ∀ {members : List (List Char × Json)},
      writeEntries standIn entries = .ok members → ReadableMembers members
  | [], members, h => by
      cases h
      trivial
  | (k, v) :: rest, members, h => by
      obtain ⟨key, hkey, h⟩ := bind_eq_ok_iff.mp h
      obtain ⟨json, hjson, h⟩ := bind_eq_ok_iff.mp h
      obtain ⟨others, hothers, rfl⟩ := map_eq_ok_iff.mp h
      exact ⟨isWritten_key hkey, readable_write v hjson, readable_writeEntries rest hothers⟩

end

/-- The stored text of a value is read back as the tree that was written. -/
theorem ofText?_storedJson {v : Value} {s : String} (h : v.storedJson = .ok s) :
    ∃ json, v.write storedText = .ok json ∧ Json.ofText? s = some json := by
  obtain ⟨json, hjson, rfl⟩ := map_eq_ok_iff.mp h
  exact ⟨json, hjson, ofText?_spaced (readable_write v hjson)⟩

theorem writeEntries_eq_ok_iff {entries : List (Value × Value)}
    {members : List (List Char × Json)} :
    writeEntries standIn entries = .ok members ↔
      List.Forall₂ (fun entry member => entry.1.writeKey = .ok member.1 ∧
        entry.2.write standIn = .ok member.2) entries members := by
  induction entries generalizing members with
  | nil => simp [writeEntries, eq_comm]
  | cons entry rest ih =>
      obtain ⟨k, v⟩ := entry
      rw [List.forall₂_cons_left_iff]
      constructor
      · intro h
        obtain ⟨key, hkey, h⟩ := bind_eq_ok_iff.mp h
        obtain ⟨json, hjson, h⟩ := bind_eq_ok_iff.mp h
        obtain ⟨others, hothers, rfl⟩ := map_eq_ok_iff.mp h
        exact ⟨(key, json), others, ⟨hkey, hjson⟩, ih.mp hothers, rfl⟩
      · rintro ⟨⟨key, json⟩, others, ⟨hkey, hjson⟩, hothers, rfl⟩
        exact bind_eq_ok_iff.mpr ⟨key, hkey, bind_eq_ok_iff.mpr ⟨json, hjson,
          map_eq_ok_iff.mpr ⟨others, ih.mpr hothers, rfl⟩⟩⟩

theorem exists_write_map_iff {entries : List (Value × Value)} :
    (∃ json, (map entries).write standIn = .ok json) ↔
      ∀ entry ∈ entries, (∃ key, entry.1.writeKey = .ok key) ∧
        ∃ json, entry.2.write standIn = .ok json := by
  simp only [write, map_eq_ok_iff, writeEntries_eq_ok_iff]
  induction entries with
  | nil => simp
  | cons entry rest ih =>
      rw [List.forall_mem_cons, ← ih]
      constructor
      · rintro ⟨_, members, hmembers, -⟩
        obtain ⟨member, others, ⟨hkey, hjson⟩, hothers, -⟩ := List.forall₂_cons_left_iff.mp hmembers
        exact ⟨⟨⟨_, hkey⟩, _, hjson⟩, _, others, hothers, rfl⟩
      · rintro ⟨⟨⟨key, hkey⟩, json, hjson⟩, _, others, hothers, -⟩
        exact ⟨_, (key, json) :: others, .cons ⟨hkey, hjson⟩ hothers, rfl⟩

theorem exists_write_int_iff {n : Int} :
    (∃ json, (int n).write standIn = .ok json) ↔ isShort n = true := by
  simp [write, ite_eq_ok_iff]

theorem exists_loggedJson_iff {v : Value} :
    (∃ text, v.loggedJson = .ok text) ↔ v.levels ≤ logRoom ∧ ∃ json, v.write shown = .ok json := by
  unfold loggedJson
  split_ifs with hdeep
  · simp [Nat.not_le_of_lt hdeep]
  · simp [map_eq_ok_iff, Nat.le_of_not_lt hdeep]

/-! ### Failures -/

theorem kind_of_writeKey {k : Value} {failure : Failure} (h : k.writeKey = .error failure) :
    failure.kind = .type ∨ failure.kind = .value := by
  cases k with
  | int n =>
      obtain ⟨-, rfl⟩ := ite_eq_error_iff.mp h
      exact .inr rfl
  | null | bool _ | real _ | text _ => cases h
  | _ =>
      cases h
      exact .inl rfl

/-- Where a value cannot get a stand-in, that is for its kind. -/
def FailsByKind (standIn : Value → Except Failure String) : Prop :=
  ∀ v failure, standIn v = .error failure → failure.kind = .type

mutual

/-- A value that cannot be written holds something of the wrong kind, an integer with too many
digits, or itself. -/
theorem kind_of_write (hstandIn : FailsByKind standIn) :
    (v : Value) → ∀ {failure : Failure}, v.write standIn = .error failure →
      failure.kind = .type ∨ failure.kind = .value
  | null, _, h | bool _, _, h | real _, _, h | text _, _, h => by cases h
  | int n, _, h => by
      obtain ⟨-, rfl⟩ := ite_eq_error_iff.mp h
      exact .inr rfl
  | list items, _, h | tuple items, _, h => kind_of_writeItems hstandIn items (map_eq_error_iff.mp h)
  | ring items, _, h => by
      obtain h | ⟨jsons, _, h⟩ := bind_eq_error_iff.mp h
      · exact kind_of_writeItems hstandIn items h
      · cases h
        exact .inr rfl
  | map entries, _, h => kind_of_writeEntries hstandIn entries (map_eq_error_iff.mp h)
  | bytes _, _, h | objectId _, _, h | timestamp _, _, h | date _, _, h | operator _, _, h
  | pattern _, _, h | set _, _, h | frozenSet _, _, h | clause .., _, h | paging .., _, h
  | request .., _, h => .inl (hstandIn _ _ (map_eq_error_iff.mp h))

theorem kind_of_writeItems (hstandIn : FailsByKind standIn) :
    (items : List Value) → ∀ {failure : Failure}, writeItems standIn items = .error failure →
      failure.kind = .type ∨ failure.kind = .value
  | [], _, h => by cases h
  | v :: rest, _, h => by
      obtain h | ⟨json, _, h⟩ := bind_eq_error_iff.mp h
      · exact kind_of_write hstandIn v h
      · exact kind_of_writeItems hstandIn rest (map_eq_error_iff.mp h)

theorem kind_of_writeEntries (hstandIn : FailsByKind standIn) :
    (entries : List (Value × Value)) → ∀ {failure : Failure},
      writeEntries standIn entries = .error failure →
      failure.kind = .type ∨ failure.kind = .value
  | [], _, h => by cases h
  | (k, v) :: rest, _, h => by
      obtain h | ⟨key, _, h⟩ := bind_eq_error_iff.mp h
      · exact kind_of_writeKey h
      · obtain h | ⟨json, _, h⟩ := bind_eq_error_iff.mp h
        · exact kind_of_write hstandIn v h
        · exact kind_of_writeEntries hstandIn rest (map_eq_error_iff.mp h)

end

theorem kind_of_storedJson {v : Value} {failure : Failure} (h : v.storedJson = .error failure) :
    failure.kind = .type ∨ failure.kind = .value := by
  refine kind_of_write (fun v failure h => ?_) v (map_eq_error_iff.mp h)
  cases v <;> cases h <;> rfl

end DocFilter.Value
