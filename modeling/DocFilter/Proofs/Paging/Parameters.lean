import DocFilter.Paging.Service
import DocFilter.Proofs.Filter.Compiling
import DocFilter.Proofs.Number.Quotient

/-!
What paging parameters mean.

A parameter is missing or a number, and a whole number may be spelled as an integer or as a real
number. The check lets pass exactly the parameters that mean a natural number
(`Paging.check_eq_ok_iff`), the conversion finds this number without fail
(`Service.convert_of_means`), and from there on nothing else is looked at. So a request is prepared
with the numbers that its parameters mean, and requests whose parameters mean the same numbers are
one request, whatever they are fetched from (`paging_normal_form`).
-/

namespace DocFilter

open Outcome

/-! ### Whole numbers -/

theorem Binary64.one_ne_zero : (Binary64.one : Int) ≠ 0 := Int.natCast_ne_zero.mpr one_pos.ne'

theorem Binary64.toInt?_eq_some_iff {x : Binary64} {n : Int} :
    x.toInt? = some n ↔ x.units? = some (n * Binary64.one) := by
  unfold toInt?
  cases x.units? with
  | none => exact ⟨nofun, nofun⟩
  | some units =>
      dsimp only
      split_ifs with hdivides
      · have hback : units / one * one = units := Int.ediv_mul_cancel (Int.dvd_of_emod_eq_zero hdivides)
        rw [Option.some.injEq, Option.some.injEq]
        constructor
        · rintro rfl
          exact hback.symm
        · rintro rfl
          exact Int.mul_ediv_cancel n one_ne_zero
      · refine ⟨nofun, fun hunits => hdivides ?_⟩
        rw [Option.some.inj hunits]
        exact Int.mul_emod_left n one

namespace Value

def IsWhole (v : Value) (n : Int) : Prop :=
  v = .int n ∨ ∃ x, v = .real x ∧ x.units? = some (n * Binary64.one)

/-- The value means this number as a parameter: it is the number, or it is missing and the number is
zero. -/
def Means (v : Value) (n : Nat) : Prop := v = .null ∧ n = 0 ∨ v.IsWhole n

variable {v : Value} {n : Nat}

theorem isWhole_real {x : Binary64} {n : Int} :
    (real x).IsWhole n ↔ x.units? = some (n * Binary64.one) := by
  constructor
  · rintro (h | ⟨_, h, hx⟩)
    · cases h
    · cases h
      exact hx
  · exact fun hx => .inr ⟨x, rfl, hx⟩

theorem wholeNumber?_eq_some_iff {n : Int} : v.wholeNumber? = some n ↔ v.IsWhole n := by
  cases v with
  | int m =>
      refine ⟨fun h => .inl (congrArg _ (Option.some.inj h)), ?_⟩
      rintro (h | ⟨_, h, -⟩)
      · cases h
        rfl
      · cases h
  | real x => exact Binary64.toInt?_eq_some_iff.trans isWhole_real.symm
  | _ => exact ⟨nofun, by rintro (h | ⟨_, h, -⟩) <;> cases h⟩

end Value

theorem checkParameter_of_ne_null {name : String} {v : Value} (hnull : v ≠ .null) :
    checkParameter name v = .ok () ↔ ∃ n : Nat, v.wholeNumber? = some (n : Int) := by
  unfold checkParameter
  split
  · exact absurd rfl hnull
  · split
    · rename_i hnone
      constructor
      · intro h
        cases h
      · rintro ⟨n, hn⟩
        cases hnone.symm.trans hn
    · rename_i m hm
      split_ifs with hnegative
      · constructor
        · intro h
          cases h
        · rintro ⟨n, hn⟩
          have hsame := Option.some.inj (hm.symm.trans hn)
          omega
      · exact ⟨fun _ => ⟨m.toNat, hm.trans (congrArg _ (by omega))⟩, fun _ => rfl⟩

theorem checkParameter_eq_ok_iff {name : String} {v : Value} :
    checkParameter name v = .ok () ↔ ∃ n : Nat, v.Means n := by
  by_cases hnull : v = .null
  · subst hnull
    exact ⟨fun _ => ⟨0, .inl ⟨rfl, rfl⟩⟩, fun _ => rfl⟩
  · rw [checkParameter_of_ne_null hnull]
    simp only [Value.Means, hnull, false_and, false_or, Value.wholeNumber?_eq_some_iff]

namespace Service

variable {s : Service} {v : Value} {n : Nat}

theorem convertParameter_of_means (h : v.Means n) : convertParameter v = .ok n := by
  obtain ⟨rfl, rfl⟩ | rfl | ⟨x, rfl, hx⟩ := h
  · rfl
  · rfl
  · show integerPart (.real x) = _
    rw [integerPart, hx]
    exact congrArg _ (Int.mul_tdiv_cancel _ Binary64.one_ne_zero)

theorem parameterOr_of_means (default : Nat) (h : v.Means n) :
    parameterOr v default = if n = 0 then default else n := by
  obtain ⟨rfl, rfl⟩ | hwhole := h
  · rfl
  · rw [parameterOr, Value.wholeNumber?_eq_some_iff.mpr hwhole]
    simp

end Service

/-! ### Paging parts -/

namespace Paging

/-- The page, the limit and the offset mean these numbers. -/
structure Means (p : Paging) (page limit offset : Nat) : Prop where
  page : p.page.Means page
  limit : p.limit.Means limit
  offset : p.offset.Means offset

variable {p : Paging} {page limit offset : Nat}

theorem check_of_means (h : p.Means page limit offset) :
    p.check = ({ sortBy := p.sortBy } : Paging).check := by
  have hpage : checkParameter "page" p.page = .ok () := checkParameter_eq_ok_iff.mpr ⟨_, h.page⟩
  have hlimit : checkParameter "limit" p.limit = .ok () :=
    checkParameter_eq_ok_iff.mpr ⟨_, h.limit⟩
  have hoffset : checkParameter "offset" p.offset = .ok () :=
    checkParameter_eq_ok_iff.mpr ⟨_, h.offset⟩
  unfold check
  rw [hpage, hlimit, hoffset]
  rfl

theorem means_of_check (h : p.check = .ok ()) : ∃ page limit offset, p.Means page limit offset := by
  obtain ⟨_, hpage, h⟩ := bind_eq_ok_iff.mp h
  obtain ⟨_, hlimit, h⟩ := bind_eq_ok_iff.mp h
  obtain ⟨_, hoffset, _⟩ := bind_eq_ok_iff.mp h
  obtain ⟨page, hpage⟩ := checkParameter_eq_ok_iff.mp hpage
  obtain ⟨limit, hlimit⟩ := checkParameter_eq_ok_iff.mp hlimit
  obtain ⟨offset, hoffset⟩ := checkParameter_eq_ok_iff.mp hoffset
  exact ⟨page, limit, offset, hpage, hlimit, hoffset⟩

theorem check_sort {sortBy : Value} :
    ({ sortBy } : Paging).check = .ok () ↔ sortBy = .null ∨ sortBy.IsFieldName := by
  by_cases hnull : sortBy = .null
  · subst hnull
    exact ⟨fun _ => .inl rfl, fun _ => rfl⟩
  · have hcheck : ({ sortBy } : Paging).check = checkFieldName sortBy := by
      cases sortBy with
      | null => exact absurd rfl hnull
      | _ => rfl
    rw [hcheck, checkFieldName_eq_ok_iff, or_iff_right hnull]

/-- The check passes exactly the parts whose parameters mean natural numbers and whose sort is
missing or a field name. -/
theorem check_eq_ok_iff : p.check = .ok () ↔
    (∃ page limit offset, p.Means page limit offset) ∧
      (p.sortBy = .null ∨ p.sortBy.IsFieldName) := by
  constructor
  · intro h
    obtain ⟨page, limit, offset, hmeans⟩ := means_of_check h
    exact ⟨⟨page, limit, offset, hmeans⟩, check_sort.mp ((check_of_means hmeans).symm.trans h)⟩
  · rintro ⟨⟨page, limit, offset, hmeans⟩, hsort⟩
    exact (check_of_means hmeans).trans (check_sort.mpr hsort)

end Paging

theorem Request.checkedPaging_eq_ok_iff {request : Request} {p : Paging} :
    request.checkedPaging = .ok p ↔ request.paging = p.toValue ∧ p.check = .ok () := by
  have hpart (p q : Paging) : (p.check >>= fun _ => pure p) = .ok q ↔
      p.toValue = q.toValue ∧ q.check = .ok () := by
    rw [bind_eq_ok_iff]
    constructor
    · rintro ⟨_, hcheck, hp⟩
      rw [pure_eq_ok_iff] at hp
      exact hp ▸ ⟨rfl, hcheck⟩
    · rintro ⟨hvalue, hcheck⟩
      obtain rfl : p = q := by
        cases p
        cases q
        simpa [Paging.toValue] using hvalue
      exact ⟨(), hcheck, rfl⟩
  obtain ⟨filters, paging⟩ := request
  cases paging with
  | paging page limit offset sortBy sortDirection =>
      exact hpart ⟨page, limit, offset, sortBy, sortDirection⟩ p
  | _ => simp [checkedPaging, Paging.toValue]

theorem Builder.exists_applySort {b : Builder} {sortBy : Value}
    (hnative : b.nativeKey.unhashableKind? = none) (hsort : sortBy = .null ∨ sortBy.IsFieldName)
    (e : Expression) (sortDirection : Value) :
    ∃ sort, b.applySort e sortBy sortDirection = .ok { e with sort } := by
  obtain rfl | hname := hsort
  · exact ⟨e.sort, rfl⟩
  · unfold applySort
    by_cases htruthy : sortBy.isTruthy = true
    · rw [if_pos htruthy]
      have hkey : (if sortBy.equal b.publicKey then b.nativeKey else sortBy).unhashableKind? =
          none := by
        split_ifs
        · exact hnative
        · exact hname.unhashableKind?_eq_none
      refine ⟨.map [(if sortBy.equal b.publicKey then b.nativeKey else sortBy,
        .int (Direction.ofValue sortDirection).sign)], ?_⟩
      refine bind_eq_ok_iff.mpr ⟨(), checkFieldName_eq_ok_iff.mpr hname, ?_⟩
      dsimp only
      rw [hkey]
      rfl
    · rw [if_neg htruthy]
      exact ⟨e.sort, rfl⟩

namespace Service

variable {s : Service} {p q : Paging} {page limit offset : Nat} {query query' filters : Value}

/-- The window of a page, where zero as page or limit stands for the default. -/
def windowOf (s : Service) (page limit offset : Nat) : Window where
  limit := if limit = 0 then s.defaultLimit else limit
  page := if page = 0 then 1 else page
  offset := offset

theorem windowOf_limit_pos (s : Service) (page limit offset : Nat) :
    1 ≤ (s.windowOf page limit offset).limit := by
  by_cases hzero : limit = 0
  · simp only [windowOf, if_pos hzero]
    exact s.positive
  · simpa [windowOf, hzero] using Nat.one_le_iff_ne_zero.mpr hzero

theorem windowOf_page_pos (s : Service) (page limit offset : Nat) :
    1 ≤ (s.windowOf page limit offset).page := by
  by_cases hzero : page = 0
  · simp [windowOf, hzero]
  · simpa [windowOf, hzero] using Nat.one_le_iff_ne_zero.mpr hzero

theorem window_of_means (h : p.Means page limit offset) :
    s.window p = s.windowOf page limit offset := by
  unfold window windowOf
  rw [parameterOr_of_means _ h.limit, parameterOr_of_means _ h.page,
    parameterOr_of_means _ h.offset]
  congr
  split_ifs with hzero
  · exact hzero.symm
  · rfl

theorem convert_of_means (h : p.Means page limit offset) :
    s.convert p = .ok (s.windowOf page limit offset) := by
  unfold convert
  rw [convertParameter_of_means h.limit, convertParameter_of_means h.page,
    convertParameter_of_means h.offset]
  show Except.ok _ = Except.ok _
  simp [windowOf]

theorem window_limit_pos (h : p.check = .ok ()) : 0 < (s.window p).limit := by
  obtain ⟨page, limit, offset, hmeans⟩ := Paging.means_of_check h
  rw [window_of_means hmeans]
  exact s.windowOf_limit_pos page limit offset

theorem window_page_pos (h : p.check = .ok ()) : 0 < (s.window p).page := by
  obtain ⟨page, limit, offset, hmeans⟩ := Paging.means_of_check h
  rw [window_of_means hmeans]
  exact s.windowOf_page_pos page limit offset

theorem convert_of_check (h : p.check = .ok ()) : s.convert p = .ok (s.window p) := by
  obtain ⟨page, limit, offset, hmeans⟩ := Paging.means_of_check h
  rw [convert_of_means hmeans, window_of_means hmeans]

/-! ### Requests -/

theorem prepare_eq (hrequest : Request.ofValue query = .ok ⟨filters, p.toValue⟩) :
    s.prepare query = p.check >>= fun _ => s.convert p >>= fun w =>
      s.builder.build filters >>= fun built =>
        s.builder.applySort built p.sortBy p.sortDirection >>= fun sorted =>
          pure ⟨⟨sorted.conditions, sorted.sort, .int w.limit, .int w.skip⟩, w⟩ := by
  unfold prepare
  rw [hrequest]
  show (p.check >>= fun _ => pure p) >>= _ = _
  rw [bind_assoc]
  rfl

theorem parts_of_prepare {prepared : PreparedRequest} (h : s.prepare query = .ok prepared) :
    ∃ filters p built sorted, Request.ofValue query = .ok ⟨filters, p.toValue⟩ ∧
      p.check = .ok () ∧ s.builder.build filters = .ok built ∧
      s.builder.applySort built p.sortBy p.sortDirection = .ok sorted ∧
      prepared = ⟨⟨sorted.conditions, sorted.sort, .int (s.window p).limit,
        .int (s.window p).skip⟩, s.window p⟩ := by
  obtain ⟨⟨filters, paging⟩, hrequest, hrest⟩ := bind_eq_ok_iff.mp h
  obtain ⟨p, hpaging, -⟩ := bind_eq_ok_iff.mp hrest
  obtain ⟨rfl, hcheck⟩ := Request.checkedPaging_eq_ok_iff.mp hpaging
  rw [prepare_eq hrequest, hcheck] at h
  obtain ⟨_, _, h⟩ := bind_eq_ok_iff.mp h
  obtain ⟨w, hconvert, h⟩ := bind_eq_ok_iff.mp h
  obtain rfl := Except.ok.inj ((convert_of_check hcheck).symm.trans hconvert)
  obtain ⟨built, hbuilt, h⟩ := bind_eq_ok_iff.mp h
  obtain ⟨sorted, hsorted, h⟩ := bind_eq_ok_iff.mp h
  rw [pure_eq_ok_iff] at h
  exact ⟨filters, p, built, sorted, hrequest, hcheck, hbuilt, hsorted, h.symm⟩

/-- Requests with the same clauses and the same sort whose parameters mean the same numbers are
prepared alike. -/
theorem prepare_congr (hp : p.Means page limit offset) (hq : q.Means page limit offset)
    (hsortBy : q.sortBy = p.sortBy) (hsortDirection : q.sortDirection = p.sortDirection)
    (hquery : Request.ofValue query = .ok ⟨filters, p.toValue⟩)
    (hquery' : Request.ofValue query' = .ok ⟨filters, q.toValue⟩) :
    s.prepare query' = s.prepare query := by
  rw [prepare_eq hquery, prepare_eq hquery', Paging.check_of_means hp, Paging.check_of_means hq,
    convert_of_means hp, convert_of_means hq, hsortBy, hsortDirection]

/-- A fetch depends on the request only by what it is prepared to. -/
theorem fetch_congr {σ : Type} (c : Collection σ) (state : σ)
    (h : s.prepare query' = s.prepare query) : s.fetch c query' state = s.fetch c query state := by
  unfold fetch fetchPage
  rw [h]

/-- A request whose parameters mean numbers is prepared with the window of these numbers. -/
theorem prepare_of_means {built : Expression} (hmeans : p.Means page limit offset)
    (hsort : p.sortBy = .null ∨ p.sortBy.IsFieldName)
    (hnative : s.builder.nativeKey.unhashableKind? = none)
    (hquery : Request.ofValue query = .ok ⟨filters, p.toValue⟩)
    (hbuilt : s.builder.build filters = .ok built) :
    ∃ sort, s.builder.applySort built p.sortBy p.sortDirection = .ok { built with sort } ∧
      let w := s.windowOf page limit offset
      s.prepare query = .ok ⟨⟨built.conditions, sort, .int w.limit, .int w.skip⟩, w⟩ := by
  obtain ⟨sort, hsorted⟩ := Builder.exists_applySort hnative hsort built p.sortDirection
  refine ⟨sort, hsorted, ?_⟩
  rw [prepare_eq hquery]
  refine bind_eq_ok_iff.mpr ⟨(), Paging.check_eq_ok_iff.mpr ⟨⟨_, _, _, hmeans⟩, hsort⟩, ?_⟩
  refine bind_eq_ok_iff.mpr ⟨_, convert_of_means hmeans, ?_⟩
  exact bind_eq_ok_iff.mpr ⟨built, hbuilt, bind_eq_ok_iff.mpr ⟨_, hsorted, rfl⟩⟩

/-- The normal form of paging parameters. The check passes exactly those that mean natural numbers,
with a sort that is missing or a field name. If the clauses can be compiled, the request is then
prepared: with the numbers, or the default for a limit of zero and the first page for a page of
zero, and with the number of records that the pages before take up behind the offset. And no other
part of the parameters matters: whatever spells the same numbers is prepared alike, and fetched
alike from any collection. -/
theorem paging_normal_form (s : Service) (p : Paging) :
    (p.check = .ok () ↔ (∃ page limit offset, p.Means page limit offset) ∧
      (p.sortBy = .null ∨ p.sortBy.IsFieldName)) ∧
    (∀ page limit offset query filters built, p.Means page limit offset → p.check = .ok () →
      s.builder.nativeKey.unhashableKind? = none →
      Request.ofValue query = .ok ⟨filters, p.toValue⟩ → s.builder.build filters = .ok built →
      ∃ prepared, s.prepare query = .ok prepared ∧
        prepared.window.limit = (if limit = 0 then s.defaultLimit else limit) ∧
        prepared.window.page = (if page = 0 then 1 else page) ∧ prepared.window.offset = offset ∧
        1 ≤ prepared.window.limit ∧ 1 ≤ prepared.window.page ∧
        prepared.expression.conditions = built.conditions ∧
        prepared.expression.limit = .int prepared.window.limit ∧
        prepared.expression.skip = .int (prepared.window.offset +
          (prepared.window.page - 1) * prepared.window.limit : Nat)) ∧
    ∀ (q : Paging) page limit offset query query' filters, p.Means page limit offset →
      q.Means page limit offset → q.sortBy = p.sortBy → q.sortDirection = p.sortDirection →
      Request.ofValue query = .ok ⟨filters, p.toValue⟩ →
      Request.ofValue query' = .ok ⟨filters, q.toValue⟩ →
      s.prepare query' = s.prepare query ∧
        ∀ (σ : Type) (c : Collection σ) (state : σ),
          s.fetch c query' state = s.fetch c query state := by
  refine ⟨Paging.check_eq_ok_iff, ?_, ?_⟩
  · intro page limit offset query filters built hmeans hcheck hnative hquery hbuilt
    obtain ⟨-, hsort⟩ := Paging.check_eq_ok_iff.mp hcheck
    obtain ⟨sort, -, hprepared⟩ := prepare_of_means hmeans hsort hnative hquery hbuilt
    exact ⟨_, hprepared, rfl, rfl, rfl, s.windowOf_limit_pos page limit offset,
      s.windowOf_page_pos page limit offset, rfl, rfl, rfl⟩
  · intro q page limit offset query query' filters hp hq hsortBy hsortDirection hquery hquery'
    have hsame : s.prepare query' = s.prepare query :=
      prepare_congr hp hq hsortBy hsortDirection hquery hquery'
    exact ⟨hsame, fun _ c state => fetch_congr c state hsame⟩

/-- A page of 2.0 with a limit of -0.0 behind an offset of 1.0, and the same page in integers. -/
theorem paging_normal_form_reals :
    let service : Service := {}
    let rank (exponent : Nat) (h : exponent < 2047) : Fin Binary64.rankCount :=
      ⟨exponent * 2 ^ 52, by unfold Binary64.rankCount; omega⟩
    let reals : Paging :=
      ⟨.real (.finite false (rank 1024 (by decide))), .real (.finite true (rank 0 (by decide))),
        .real (.finite false (rank 1023 (by decide))), .text "n", .null⟩
    let integers : Paging := ⟨.int 2, .null, .int 1, .text "n", .null⟩
    reals.Means 2 0 1 ∧ integers.Means 2 0 1 ∧ reals.check = .ok () ∧
      (∃ prepared, service.prepare (.request (.list []) reals.toValue) = .ok prepared ∧
        prepared.window.limit = 10 ∧ prepared.expression.skip = .int 11) ∧
      service.prepare (.request (.list []) integers.toValue) =
        service.prepare (.request (.list []) reals.toValue) := by
  intro service rank reals integers
  have hreals : reals.Means 2 0 1 :=
    ⟨.inr (.inr ⟨_, rfl, by decide +kernel⟩), .inr (.inr ⟨_, rfl, by decide +kernel⟩),
      .inr (.inr ⟨_, rfl, by decide +kernel⟩)⟩
  have hintegers : integers.Means 2 0 1 := ⟨.inr (.inl rfl), .inl ⟨rfl, rfl⟩, .inr (.inl rfl)⟩
  obtain ⟨hcheck, hprepare, hsame⟩ := paging_normal_form service reals
  have hchecked : reals.check = .ok () :=
    hcheck.mpr ⟨⟨2, 0, 1, hreals⟩, .inr ⟨"n", rfl, by decide, by decide⟩⟩
  obtain ⟨prepared, hprepared, hlimit, hpage, hoffset, -, -, -, -, hskip⟩ :=
    hprepare 2 0 1 (.request (.list []) reals.toValue) _ _ hreals hchecked rfl rfl rfl
  rw [hlimit, hpage, hoffset] at hskip
  exact ⟨hreals, hintegers, hchecked, ⟨prepared, hprepared, hlimit, hskip⟩,
    (hsame integers 2 0 1 _ _ _ hreals hintegers rfl rfl rfl rfl).1⟩

end Service

end DocFilter
