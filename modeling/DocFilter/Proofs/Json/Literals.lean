import DocFilter.Json.Basic
import DocFilter.Number.Decimal
import DocFilter.Proofs.Json.Escaping
import Mathlib.Data.List.DropRight

/-!
Number literals and the texts of numbers.

A literal is a sign, digits without a zero in front, a fraction and an exponent. The text of an
integer is one, and so is the text of every finite binary64 number: the digits of its shortest
decimal start with a zero only if the number is zero, because no other number is read from zero
(`shortest_cases`).
-/

namespace DocFilter

namespace Json

/-! ### Literals -/

/-- Digits, at least one. -/
def AreDigits (cs : List Char) : Prop := cs ≠ [] ∧ ∀ c ∈ cs, c.isDigit = true

/-- Digits without a zero in front, apart from a lone one. -/
def IsWhole (cs : List Char) : Prop := AreDigits cs ∧ (cs.head? = some '0' → cs.length = 1)

def IsFraction (cs : List Char) : Prop := cs = [] ∨ ∃ digits, AreDigits digits ∧ cs = '.' :: digits

def IsExponent (cs : List Char) : Prop :=
  cs = [] ∨ ∃ sign digits, (sign = '-' ∨ sign = '+') ∧ AreDigits digits ∧
    cs = 'e' :: sign :: digits

def signChars (negative : Bool) : List Char := if negative then ['-'] else []

def IsUnsigned (cs : List Char) : Prop :=
  ∃ whole fraction exponent, IsWhole whole ∧ IsFraction fraction ∧ IsExponent exponent ∧
    cs = whole ++ fraction ++ exponent

def IsLiteral (cs : List Char) : Prop :=
  ∃ negative unsigned, IsUnsigned unsigned ∧ cs = signChars negative ++ unsigned

theorem AreDigits.exists_cons {digits : List Char} (h : AreDigits digits) :
    ∃ c cs, digits = c :: cs ∧ c.isDigit = true := by
  obtain ⟨hne, hall⟩ := h
  obtain ⟨c, cs, rfl⟩ := List.exists_cons_of_ne_nil hne
  exact ⟨c, cs, rfl, hall c (by simp)⟩

/-- The first character of a literal is a digit or the sign. -/
theorem IsLiteral.exists_cons {literal : List Char} (h : IsLiteral literal) :
    ∃ c cs, literal = c :: cs ∧
      (c.isDigit = true ∨ (c = '-' ∧ ∃ d ds, cs = d :: ds ∧ d.isDigit = true)) := by
  obtain ⟨negative, _, ⟨whole, fraction, exponent, hwhole, _, _, rfl⟩, rfl⟩ := h
  obtain ⟨d, ds, rfl, hdigit⟩ := hwhole.1.exists_cons
  cases negative with
  | true => exact ⟨_, _, rfl, .inr ⟨rfl, _, _, rfl, hdigit⟩⟩
  | false => exact ⟨_, _, rfl, .inl hdigit⟩

/-! ### Plain characters of literals -/

theorem isPlain_of_isDigit {c : Char} (h : c.isDigit = true) : IsPlain c := by
  have hrange : 48 ≤ c.val ∧ c.val ≤ 57 := by simpa [Char.isDigit] using h
  refine ⟨UInt32.le_trans (by decide) hrange.1, UInt32.lt_of_le_of_lt hrange.2 (by decide), ?_, ?_⟩
  · rintro rfl
    cases h
  · rintro rfl
    cases h

theorem IsLiteral.isPlain {literal : List Char} (h : IsLiteral literal) :
    ∀ c ∈ literal, IsPlain c := by
  obtain ⟨negative, _, ⟨whole, fraction, exponent, hwhole, hfraction, hexponent, rfl⟩, rfl⟩ := h
  have hdigits {digits : List Char} (h : AreDigits digits) : ∀ c ∈ digits, IsPlain c :=
    fun c hc => isPlain_of_isDigit (h.2 c hc)
  simp only [List.forall_mem_append]
  refine ⟨?_, ⟨hdigits hwhole.1, ?_⟩, ?_⟩
  · cases negative <;> simp [signChars, IsPlain]
  · obtain rfl | ⟨digits, h, rfl⟩ := hfraction
    · simp
    · exact List.forall_mem_cons.mpr ⟨by decide, hdigits h⟩
  · obtain rfl | ⟨sign, digits, hsign, h, rfl⟩ := hexponent
    · simp
    · refine List.forall_mem_cons.mpr ⟨by decide, List.forall_mem_cons.mpr ⟨?_, hdigits h⟩⟩
      obtain rfl | rfl := hsign <;> decide

/-! ### Integers -/

theorem areDigits_toDigits (n : Nat) : AreDigits (Nat.toDigits 10 n) :=
  ⟨Nat.toDigits_ne_nil, fun _ hc => Nat.isDigit_of_mem_toDigits (by omega) (by omega) hc⟩

/-- Only zero is written with a zero in front. -/
theorem eq_zero_of_head?_toDigits {n : Nat} (h : (Nat.toDigits 10 n).head? = some '0') :
    n = 0 := by
  induction n using Nat.base_induction 10 (by omega) with
  | single n hn =>
      rw [Nat.toDigits_of_lt_base hn, List.head?_cons, Option.some.injEq] at h
      interval_cases n <;> first | rfl | cases h
  | digit n d hd hn ih =>
      rw [← Nat.toDigits_append_toDigits (by omega) hn hd,
        List.head?_append_of_ne_nil _ Nat.toDigits_ne_nil] at h
      exact absurd (ih h) (Nat.pos_iff_ne_zero.mp hn)

theorem isWhole_toDigits (n : Nat) : IsWhole (Nat.toDigits 10 n) := by
  refine ⟨areDigits_toDigits n, fun h => ?_⟩
  rw [eq_zero_of_head?_toDigits h]
  rfl

theorem toList_toString (n : Int) :
    (toString n).toList = signChars (n < 0) ++ Nat.toDigits 10 n.natAbs := by
  rw [Int.toString_eq_repr, Int.repr_eq_if]
  split_ifs with hn
  · rw [Nat.toList_repr, signChars, if_neg (by simpa using hn), List.nil_append,
      show n.toNat = n.natAbs by omega]
  · rw [String.toList_append, Nat.toList_repr, signChars, if_pos (by simpa using hn),
      show (-n).toNat = n.natAbs by omega]
    rfl

theorem isLiteral_toString (n : Int) : IsLiteral (toString n).toList := by
  refine ⟨n < 0, _, ⟨_, [], [], isWhole_toDigits n.natAbs, .inl rfl, .inl rfl, rfl⟩, ?_⟩
  rw [toList_toString, List.append_nil, List.append_nil]

end Json

/-! ### Shortest decimals -/

namespace Decimal

open Json

/-- Digits that start with another digit than zero. -/
def LeadsOff (digits : List Char) : Prop := AreDigits digits ∧ digits.head? ≠ some '0'

theorem LeadsOff.isWhole {digits : List Char} (h : LeadsOff digits) : IsWhole digits :=
  ⟨h.1, fun hzero => absurd hzero h.2⟩

theorem dropZeros_begins (digits : List Char) : dropZeros digits <+: digits :=
  List.rdropWhile_prefix _ digits

theorem LeadsOff.dropZeros {digits : List Char} (h : LeadsOff digits) :
    LeadsOff (dropZeros digits) := by
  obtain ⟨c, cs, rfl, -⟩ := h.1.exists_cons
  have hzero : c ≠ '0' := by simpa using h.2
  obtain ⟨zeros, hzeros⟩ := dropZeros_begins (c :: cs)
  have hne : Decimal.dropZeros (c :: cs) ≠ [] := by
    intro hnil
    have hall := List.rdropWhile_eq_nil_iff.mp hnil c List.mem_cons_self
    exact hzero (of_decide_eq_true hall)
  have hhead : (Decimal.dropZeros (c :: cs) ++ zeros).head? =
      (Decimal.dropZeros (c :: cs)).head? := List.head?_append_of_ne_nil _ hne
  rw [hzeros] at hhead
  refine ⟨⟨hne, fun d hd => h.1.2 d ?_⟩, hhead ▸ h.2⟩
  rw [← hzeros]
  exact List.mem_append_left _ hd

theorem leadsOff_toDigits {n : Nat} (hn : n ≠ 0) : LeadsOff (Nat.toDigits 10 n) :=
  ⟨areDigits_toDigits n, fun hzero => hn (eq_zero_of_head?_toDigits hzero)⟩

theorem significant_leadsOff {n : Nat} (hn : n ≠ 0) : LeadsOff (significant n) := by
  have hdigits := (leadsOff_toDigits hn).dropZeros
  have hsame : significant n = dropZeros (Nat.toDigits 10 n) := by
    obtain ⟨c, cs, hcs, -⟩ := hdigits.1.exists_cons
    rw [significant, hcs]
  rw [hsame]
  exact hdigits

theorem nearestRank_zero (den : Nat) : Binary64.nearestRank 0 den = 0 := by
  simp [Binary64.nearestRank, Binary64.roundHalfEven]

theorem readsAs_zero : readsAs 0 = 0 := by
  rw [readsAs, Nat.zero_mul, nearestRank_zero]

/-- No positive magnitude is read from zero, so none is written as zero. -/
theorem candidate?_ne_zero {rank value step found : Nat} (hrank : rank ≠ 0)
    (h : candidate? rank value step = some found) : found ≠ 0 := by
  have hreads {low : Nat} (hlow : (readsAs (low * step) == rank) = true) : low ≠ 0 := by
    rintro rfl
    rw [Nat.zero_mul, readsAs_zero] at hlow
    exact hrank (beq_iff_eq.mp hlow).symm
  unfold candidate? at h
  dsimp only at h
  split_ifs at h with hboth hless hgreater hlow hhigh
  · cases h
    exact hreads (Bool.and_eq_true_iff.mp hboth).1
  · cases h
    exact Nat.succ_ne_zero _
  · cases h
    have hlow : value / step ≠ 0 := hreads (Bool.and_eq_true_iff.mp hboth).1
    exact fun hsum => hlow (Nat.eq_zero_of_add_eq_zero_right hsum)
  · cases h
    exact hreads hlow
  · cases h
    exact Nat.succ_ne_zero _

/-- A search ends with what it finds on a grid, or with the value itself. -/
theorem search_cases (found? : Nat → Option Nat) (value dropped : Nat) :
    search found? value dropped = (value, 0) ∨
      ∃ kept found, found? (10 ^ kept) = some found ∧ search found? value dropped = (found, kept) := by
  induction dropped with
  | zero => exact .inl rfl
  | succ dropped ih =>
      rw [search]
      split
      · rename_i found h
        exact .inr ⟨dropped + 1, found, h, rfl⟩
      · exact ih

theorem exact_ne_zero {rank : Nat} (hrank : rank ≠ 0) : exact rank ≠ 0 := by
  have hunits : Binary64.unitsOfRank rank ≠ 0 := by
    unfold Binary64.unitsOfRank
    refine Nat.mul_ne_zero ?_ (pow_ne_zero _ (by omega))
    split_ifs <;> omega
  exact Nat.mul_ne_zero hunits (pow_ne_zero _ (by omega))

theorem coarsest_ne_zero {rank value : Nat} (hrank : rank ≠ 0) (hvalue : value ≠ 0) :
    (coarsest rank value).1 ≠ 0 := by
  obtain hvalue' | ⟨kept, found, hfound, hsearch⟩ := search_cases (candidate? rank value) value
    ((Nat.toDigits 10 value).length - 1)
  · rwa [coarsest, hvalue']
  · rw [coarsest, hsearch]
    exact candidate?_ne_zero hrank hfound

theorem digits_ofMultiple (multiple : Nat × Nat) :
    (ofMultiple multiple).digits = significant multiple.1 := rfl

theorem shortest_cases (rank : Nat) :
    shortest rank = ⟨['0'], 0⟩ ∨ LeadsOff (shortest rank).digits := by
  unfold shortest
  split_ifs with hrank
  · exact .inl rfl
  · rw [digits_ofMultiple]
    exact .inr (significant_leadsOff (coarsest_ne_zero hrank (exact_ne_zero hrank)))

/-! ### Layouts -/

theorem areDigits_append {zeros digits : List Char} (hzeros : ∀ c ∈ zeros, c = '0')
    (hdigits : AreDigits digits) : AreDigits (zeros ++ digits) := by
  refine ⟨List.append_ne_nil_of_right_ne_nil _ hdigits.1, List.forall_mem_append.mpr ⟨?_, hdigits.2⟩⟩
  intro c hc
  rw [hzeros c hc]
  rfl

theorem isFraction_cons {digits : List Char} (h : ∀ c ∈ digits, c.isDigit = true) :
    IsFraction ('.' :: (if digits = [] then ['0'] else digits)) := by
  refine .inr ⟨_, ?_, rfl⟩
  split_ifs with hnil
  · exact ⟨by simp, by simp⟩
  · exact ⟨hnil, h⟩

theorem isUnsigned_positional {digits : List Char} {exponent : Int}
    (h : LeadsOff digits ∨ (digits = ['0'] ∧ exponent = 0)) :
    IsUnsigned (positional digits exponent) := by
  unfold positional
  split_ifs with hneg
  · have hdigits : AreDigits digits := by
      obtain h | ⟨_, rfl⟩ := h
      · exact h.1
      · exact absurd hneg (by omega)
    have hfraction : AreDigits (List.replicate ((-exponent).toNat - 1) '0' ++ digits) :=
      areDigits_append (fun c hc => List.eq_of_mem_replicate hc) hdigits
    exact ⟨['0'], _, [], isWhole_toDigits 0, .inr ⟨_, hfraction, rfl⟩, .inl rfl, by simp⟩
  · obtain h | ⟨rfl, rfl⟩ := h
    · obtain ⟨c, cs, rfl, hdigit⟩ := h.1.exists_cons
      have hwhole : LeadsOff ((c :: cs).take (exponent.toNat + 1) ++
          List.replicate (exponent.toNat + 1 - (c :: cs).length) '0') := by
        refine ⟨⟨by simp, List.forall_mem_append.mpr ⟨?_, ?_⟩⟩, by simpa using h.2⟩
        · exact fun d hd => h.1.2 d (List.mem_of_mem_take hd)
        · intro d hd
          rw [List.eq_of_mem_replicate hd]
          rfl
      have hdrop : ∀ d ∈ (c :: cs).drop (exponent.toNat + 1), d.isDigit = true :=
        fun d hd => h.1.2 d (List.mem_of_mem_drop hd)
      exact ⟨_, _, [], hwhole.isWhole, isFraction_cons hdrop, .inl rfl, (List.append_nil _).symm⟩
    · exact ⟨['0'], ['.', '0'], [], isWhole_toDigits 0, .inr ⟨_, areDigits_toDigits 0, rfl⟩,
        .inl rfl, rfl⟩

theorem isExponent_exponentText (exponent : Int) :
    IsExponent ('e' :: exponentText exponent) := by
  have hdigits := areDigits_toDigits exponent.natAbs
  refine .inr ⟨if exponent < 0 then '-' else '+', _, by split_ifs <;> simp, ?_, rfl⟩
  split_ifs
  · have hzero : ∀ c ∈ ['0'], c = '0' := by simp
    exact areDigits_append hzero hdigits
  · exact hdigits

/-- The text of a decimal is a literal under every layout. -/
theorem isUnsigned_write {d : Decimal} (layout : Layout)
    (h : LeadsOff d.digits ∨ d = ⟨['0'], 0⟩) : IsUnsigned (d.write layout) := by
  unfold Decimal.write
  split
  · refine isUnsigned_positional (h.imp_right ?_)
    rintro rfl
    exact ⟨rfl, rfl⟩
  · have hdigits : AreDigits d.digits := by
      obtain h | rfl := h
      · exact h.1
      · exact areDigits_toDigits 0
    obtain ⟨c, cs, hcs, hdigit⟩ := hdigits.exists_cons
    have hwhole : IsWhole [c] := ⟨⟨by simp, by simpa using hdigit⟩, fun _ => rfl⟩
    have hexponent := isExponent_exponentText d.exponent
    simp only [hcs, List.take_succ_cons, List.take_zero, List.drop_succ_cons, List.drop_zero]
    split_ifs with hfraction hpoint
    · exact ⟨_, ['.', '0'], _, hwhole, .inr ⟨_, areDigits_toDigits 0, rfl⟩, hexponent, rfl⟩
    · exact ⟨_, [], _, hwhole, .inl rfl, hexponent, by simp⟩
    · have hrest : AreDigits cs := ⟨hfraction, fun d hd => hdigits.2 d (by simp [hcs, hd])⟩
      exact ⟨_, '.' :: cs, _, hwhole, .inr ⟨_, hrest, rfl⟩, hexponent, by simp⟩

end Decimal

/-- The text of a finite number is a literal. -/
theorem Binary64.isLiteral_text {x : Binary64} (h : x.isFinite = true) :
    Json.IsLiteral x.text.toList := by
  cases x with
  | nan => cases h
  | infinite negative => cases h
  | finite negative rank =>
      have hunsigned :=
        Decimal.isUnsigned_write Decimal.documentLayout (Decimal.shortest_cases rank).symm
      refine ⟨negative, _, hunsigned, ?_⟩
      rw [Binary64.text, String.toList_ofList]
      cases negative <;> rfl

end DocFilter
