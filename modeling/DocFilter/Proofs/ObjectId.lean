import DocFilter.ObjectId
import DocFilter.Proofs.Json.Escaping

/-!
The texts of object identifiers.

Many texts name one identifier, since digits of either case are read; but only one of them is
written. It is read as the same identifier again (`ofText?_text`), so writing what was read gives
the one text in lower case. Every name has twenty-four characters (`length_of_ofText?`).
-/

namespace DocFilter.ObjectId

open Text

theorem hexDigits_two (n : Nat) :
    hexDigits 2 n = [hexDigit (n / 16 % 16), hexDigit (n % 16)] := by
  simp [hexDigits]

theorem readBytes?_flatMap (bytes : List UInt8) :
    readBytes? (bytes.flatMap fun b => hexDigits 2 b.toNat) = some bytes := by
  induction bytes with
  | nil => rfl
  | cons b rest ih =>
      have hlow : hexValue? (hexDigit (b.toNat % 16)) = some (b.toNat % 16) :=
        hexValue?_hexDigit (Nat.mod_lt _ (by decide))
      have hhigh : hexValue? (hexDigit (b.toNat / 16 % 16)) = some (b.toNat / 16) := by
        have hbyte := b.toNat_lt
        rw [hexValue?_hexDigit (Nat.mod_lt _ (by decide)), Nat.mod_eq_of_lt (by omega)]
      have hbyte : UInt8.ofNat (b.toNat / 16 * 16 + b.toNat % 16) = b := by
        rw [Nat.div_add_mod', UInt8.ofNat_toNat]
      rw [List.flatMap_cons, hexDigits_two, List.cons_append, List.cons_append, List.nil_append,
        readBytes?, hhigh, hlow, ih]
      exact congrArg (fun b => some (b :: rest)) hbyte

theorem length_of_readBytes? {cs : List Char} {bytes : List UInt8} (h : readBytes? cs = some bytes) :
    cs.length = 2 * bytes.length := by
  induction cs using readBytes?.induct generalizing bytes with
  | case1 =>
      cases h
      rfl
  | case2 => cases h
  | case3 c d rest ih =>
      simp only [readBytes?, Option.bind_eq_bind, Option.bind_eq_some_iff, Option.some.injEq] at h
      obtain ⟨_, -, _, -, others, hothers, rfl⟩ := h
      rw [List.length_cons, List.length_cons, ih hothers, List.length_cons]
      omega

theorem readBytes?_text (id : ObjectId) : readBytes? id.text.toList = some id.bytes := by
  rw [text, digits, String.toList_ofList, readBytes?_flatMap]

theorem ofText?_text (id : ObjectId) : ofText? id.text = some id := by
  rw [ofText?, readBytes?_text, Option.bind_some, ofBytes?, dif_pos id.length_eq]

theorem length_of_ofText? {s : String} {id : ObjectId} (h : ofText? s = some id) :
    s.length = 24 := by
  obtain ⟨bytes, hread, hbytes⟩ := Option.bind_eq_some_iff.mp h
  unfold ofBytes? at hbytes
  split_ifs at hbytes with hlength
  have hpairs := length_of_readBytes? hread
  rw [String.length_toList] at hpairs
  omega

end DocFilter.ObjectId
