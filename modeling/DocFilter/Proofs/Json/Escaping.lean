import DocFilter.Json.Basic
import DocFilter.Json.Escape
import Mathlib.Tactic.IntervalCases

/-!
Written texts read back.

Each character is written by one or two codes, and a code that is not half of a surrogate pair is a
character, so joining the halves undoes the writing (`unescape_escape`). A written text holds no
bare quote and no control character, so reading it up to its closing quote takes all of it
(`readText?_escape`). Texts of plain characters are written as they are (`escape_of_plain`).
-/

namespace DocFilter

/-! ### Hexadecimal digits -/

namespace Text

theorem hexValue?_hexDigit {n : Nat} (h : n < 16) : hexValue? (hexDigit n) = some n := by
  interval_cases n <;> rfl

theorem hexDigits_four (n : Nat) :
    hexDigits 4 n = [hexDigit (n / 4096 % 16), hexDigit (n / 256 % 16), hexDigit (n / 16 % 16),
      hexDigit (n % 16)] := by
  simp [hexDigits, Nat.div_div_eq_div_mul]

theorem readHex4?_hexDigits {n : Nat} (h : n < 0x10000) :
    readHex4? (hexDigits 4 n) = some (n, []) := by
  have hdigit (m : Nat) : hexValue? (hexDigit (m % 16)) = some (m % 16) :=
    hexValue?_hexDigit (Nat.mod_lt _ (by omega))
  simp only [hexDigits_four, readHex4?, hdigit, bind, Option.bind, Option.some.injEq,
    Prod.mk.injEq, and_true]
  omega

end Text

namespace Json

/-! ### The codes of a character -/

theorem toNat_valid (c : Char) :
    c.toNat < 0xd800 ∨ (0xdfff < c.toNat ∧ c.toNat < 0x110000) := c.valid

/-- The codes that a character is written by. -/
def charCodes (c : Char) : List Nat :=
  if c.toNat < 0x10000 then [c.toNat]
  else
    let offset := c.toNat - 0x10000
    [0xd800 + offset / 0x400, 0xdc00 + offset % 0x400]

theorem codes_codeEscape {code : Nat} (h : code < 0x10000) (rest : List Char) :
    codes (codeEscape code ++ rest) = code :: codes rest := by
  have hread := Text.readHex4?_hexDigits h
  rw [Text.hexDigits_four] at hread
  simp only [codeEscape, Text.hexDigits_four, List.cons_append, List.nil_append, codes, hread]

theorem codes_plain {c : Char} (h : c ≠ '\\') (rest : List Char) :
    codes (c :: rest) = c.toNat :: codes rest := by
  rw [codes]
  · intro _ _ _ _ _ hc
    exact absurd hc h
  · intro _ _ hc
    exact absurd hc h

theorem toNat_lt_of_short {c : Char} (h : 32 ≤ c.val ∧ c.val < 127) : c.toNat < 0x10000 := by
  have hlt : c.val.toNat < 127 := h.2
  exact Nat.lt_trans hlt (by omega)

theorem codes_escapeChar (c : Char) (rest : List Char) :
    codes (escapeChar c ++ rest) = charCodes c ++ codes rest := by
  have hsmall {d : Char} (hd : d.toNat < 0x10000) : charCodes d = [d.toNat] := if_pos hd
  unfold escapeChar
  split_ifs with hquote hback hfeed hreturn htab hbell hform hplain hcode
  · subst hquote; rfl
  · subst hback; rfl
  · subst hfeed; rfl
  · subst hreturn; rfl
  · subst htab; rfl
  · subst hbell; rfl
  · subst hform; rfl
  · rw [hsmall (toNat_lt_of_short hplain)]
    exact codes_plain hback rest
  · rw [codes_codeEscape hcode, hsmall hcode]
    rfl
  · have hvalid := toNat_valid c
    rw [List.append_assoc, codes_codeEscape (by omega), codes_codeEscape (by omega), charCodes,
      if_neg hcode]
    rfl

theorem codes_escape (cs : List Char) : codes (escape cs) = cs.flatMap charCodes := by
  induction cs with
  | nil => rfl
  | cons c cs ih =>
      rw [escape, List.flatMap_cons, codes_escapeChar, List.flatMap_cons, ← ih]
      rfl

/-- A code that is not half of a pair is a character, whatever follows. -/
theorem joinPairs_cons {code : Nat} (hhigh : isHighHalf code = false)
    (hlow : isLowHalf code = false) (rest : List Nat) :
    joinPairs (code :: rest) = Char.ofNat code :: joinPairs rest := by
  cases rest with
  | nil => simp [joinPairs, hhigh, hlow]
  | cons next rest => simp [joinPairs, hhigh, hlow]

theorem joinPairs_charCodes (c : Char) (rest : List Nat) :
    joinPairs (charCodes c ++ rest) = c :: joinPairs rest := by
  have hvalid := toNat_valid c
  unfold charCodes
  split_ifs with hsmall
  · -- Characters are no halves of pairs.
    rw [List.singleton_append, joinPairs_cons]
    · rw [Char.ofNat_toNat]
    · simp only [isHighHalf, Bool.and_eq_false_iff, decide_eq_false_iff_not]
      omega
    · simp only [isLowHalf, Bool.and_eq_false_iff, decide_eq_false_iff_not]
      omega
  · have hhigh : isHighHalf (0xd800 + (c.toNat - 0x10000) / 0x400) = true := by
      simp only [isHighHalf, Bool.and_eq_true, decide_eq_true_eq]
      omega
    have hlow : isLowHalf (0xdc00 + (c.toNat - 0x10000) % 0x400) = true := by
      simp only [isLowHalf, Bool.and_eq_true, decide_eq_true_eq]
      omega
    have hjoined : 0x10000 + (0xd800 + (c.toNat - 0x10000) / 0x400 - 0xd800) * 0x400 +
        (0xdc00 + (c.toNat - 0x10000) % 0x400 - 0xdc00) = c.toNat := by omega
    simp only [List.cons_append, List.nil_append, joinPairs, hhigh, hlow, Bool.and_self, if_true,
      hjoined, Char.ofNat_toNat]

theorem unescape_escape (cs : List Char) : unescape (escape cs) = cs := by
  rw [unescape, codes_escape]
  induction cs with
  | nil => rfl
  | cons c cs ih => rw [List.flatMap_cons, joinPairs_charCodes, ih]

theorem escape_injective {cs ds : List Char} (h : escape cs = escape ds) : cs = ds := by
  rw [← unescape_escape cs, h, unescape_escape]

/-! ### Up to the closing quote -/

theorem readText?_codeEscape {code : Nat} (h : code < 0x10000) (rest : List Char) :
    readText? (codeEscape code ++ rest) =
      (readText? rest).map fun (inside, rest) => (codeEscape code ++ inside, rest) := by
  have hread := Text.readHex4?_hexDigits h
  rw [Text.hexDigits_four] at hread
  simp only [codeEscape, Text.hexDigits_four, List.cons_append, List.nil_append, readText?, hread,
    Option.isSome_some, if_true]

theorem readText?_plain {c : Char} (hquote : c ≠ '"') (hback : c ≠ '\\') (hcontrol : 32 ≤ c.val)
    (rest : List Char) :
    readText? (c :: rest) = (readText? rest).map fun (inside, rest) => (c :: inside, rest) := by
  rw [readText?]
  · rw [if_neg (by simpa using hcontrol)]
  · exact fun hc => absurd hc hquote
  · exact fun _ _ _ _ _ hc => absurd hc hback
  · exact fun _ _ hc => absurd hc hback
  · exact fun hc => absurd hc hback

theorem readText?_escapeChar (c : Char) (rest : List Char) :
    readText? (escapeChar c ++ rest) =
      (readText? rest).map fun (inside, rest) => (escapeChar c ++ inside, rest) := by
  unfold escapeChar
  split_ifs with hquote hback hfeed hreturn htab hbell hform hplain hcode
  · rfl
  · rfl
  · rfl
  · rfl
  · rfl
  · rfl
  · rfl
  · exact readText?_plain hquote hback hplain.1 rest
  · exact readText?_codeEscape hcode rest
  · have hvalid := toNat_valid c
    rw [List.append_assoc, readText?_codeEscape (by omega), readText?_codeEscape (by omega),
      Option.map_map]
    simp only [Function.comp_def, List.append_assoc]

theorem readText?_escape (cs rest : List Char) :
    readText? (escape cs ++ '"' :: rest) = some (escape cs, rest) := by
  induction cs with
  | nil => rfl
  | cons c cs ih =>
      rw [escape, List.flatMap_cons, List.append_assoc, readText?_escapeChar]
      rw [escape] at ih
      rw [ih]
      rfl

/-! ### Plain characters -/

def IsPlain (c : Char) : Prop := 32 ≤ c.val ∧ c.val < 127 ∧ c ≠ '"' ∧ c ≠ '\\'

instance (c : Char) : Decidable (IsPlain c) := inferInstanceAs (Decidable (_ ∧ _))

theorem escapeChar_of_plain {c : Char} (h : IsPlain c) : escapeChar c = [c] := by
  obtain ⟨hlow, hhigh, hquote, hback⟩ := h
  have hne {d : Char} (hd : d.val < 32) : c ≠ d := by
    rintro rfl
    exact absurd hlow (UInt32.not_le.mpr hd)
  unfold escapeChar
  rw [if_neg hquote, if_neg hback, if_neg (hne (by decide)), if_neg (hne (by decide)),
    if_neg (hne (by decide)), if_neg (hne (by decide)), if_neg (hne (by decide)),
    if_pos ⟨hlow, hhigh⟩]

theorem escape_of_plain {cs : List Char} (h : ∀ c ∈ cs, IsPlain c) : escape cs = cs := by
  induction cs with
  | nil => rfl
  | cons c cs ih =>
      rw [List.forall_mem_cons] at h
      rw [escape, List.flatMap_cons, escapeChar_of_plain h.1]
      exact congrArg (c :: ·) (ih h.2)

end Json

end DocFilter
