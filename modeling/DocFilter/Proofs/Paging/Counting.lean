import DocFilter.Proofs.Paging.Protocol
import Mathlib.Algebra.Order.Floor.Ring
import Mathlib.Data.Rat.Floor

/-!
The number of pages of a fetch.

A collection answers a count, the records behind the offset are counted, and their number is divided
by the limit in binary64 and rounded up. The quotient has been rounded by then, but as long as all
numbers behind the offset are exact it has not been rounded across an integer, so the number of
pages is the quotient of integers rounded up (`pageCount_eq_ceil`). With it the fetch goes on
whatever collection it is from, and a page that it yields is at most the last one
(`page_count_exact`).
-/

namespace DocFilter

open Outcome DocFilter.Action

/-- A quotient of natural numbers, rounded up. -/
theorem ceil_natCast_div {total limit : Nat} (hlimit : 0 < limit) :
    ⌈(total : ℚ) / limit⌉ = ((total + limit - 1) / limit : Nat) := by
  have hpositive : (0 : ℚ) < limit := Nat.cast_pos.mpr hlimit
  have habove : total ≤ (total + limit - 1) / limit * limit := length_le_pages total limit hlimit
  have hbelow : (total + limit - 1) / limit * limit < total + limit := by
    have hle := Nat.div_mul_le_self (total + limit - 1) limit
    omega
  rw [Int.ceil_eq_iff, lt_div_iff₀ hpositive, div_le_iff₀ hpositive]
  generalize (total + limit - 1) / limit = pages at habove hbelow
  have habove : (total : ℚ) ≤ pages * limit := by exact_mod_cast habove
  have hbelow : (pages : ℚ) * limit < total + limit := by exact_mod_cast hbelow
  push_cast
  exact ⟨by linarith, habove⟩

namespace Service

variable {σ : Type} {s : Service} {c : Collection σ} {query : Value} {state next : σ}
  {prepared : PreparedRequest} {counted : Value} {total : Number} {pages : Int}

theorem pageCount_eq_ceil {total : Int} {limit : Nat} (hlimit : 0 < limit)
    (hbound : limit ≤ 2 ^ 63) (hpositive : 0 ≤ total) (htotal : total ≤ 2 ^ 53) :
    pageCount (.int total) limit = .ok ⌈(total : ℚ) / limit⌉ := by
  obtain ⟨n, rfl⟩ := Int.eq_ofNat_of_zero_le hpositive
  rw [pageCount_natCast hlimit hbound (by exact_mod_cast htotal), Int.cast_natCast,
    ceil_natCast_div hlimit]

theorem ceil_div_eq_zero_iff {total : Int} {limit : Nat} (hlimit : 0 < limit)
    (hpositive : 0 ≤ total) : ⌈(total : ℚ) / limit⌉ = 0 ↔ total = 0 := by
  obtain rfl | hsome := hpositive.eq_or_lt
  · simp
  · have hquotient : (0 : ℚ) < total / limit :=
      div_pos (Int.cast_pos.mpr hsome) (Nat.cast_pos.mpr hlimit)
    exact iff_of_false (Int.ceil_pos.mpr hquotient).ne' hsome.ne'

theorem eq_of_deliver {page : Page} {message : String}
    (h : on (s.deliver c prepared total pages) state = (.ok (page, message), next)) :
    page.total = total ∧ page.page = min (prepared.window.page : Int) pages ∧
      page.limit = prepared.window.limit := by
  obtain ⟨records, _, -, h⟩ := on_bind_eq_ok_iff.mp h
  obtain ⟨items, -, h⟩ := on_lift_bind_eq_ok_iff.mp h
  obtain ⟨data, -, h⟩ := on_lift_bind_eq_ok_iff.mp h
  obtain ⟨message', -, h⟩ := on_lift_bind_eq_ok_iff.mp h
  rw [on_pure, Prod.mk.injEq, Except.ok.injEq, Prod.mk.injEq] at h
  obtain ⟨⟨rfl, -⟩, -⟩ := h
  exact ⟨rfl, rfl, rfl⟩

/-- Whatever integer a collection counts, and whatever page of the results is asked for: as long as
at most `2 ^ 53` records are left behind the offset and a page has room for at most `2 ^ 63`, the
division in binary64 yields the exact number of pages. It is zero only if no record is left. The
fetch goes on from there, and a page that it yields has this number as its own if it was asked for a
later one. -/
theorem page_count_exact (s : Service) (c : Collection σ) (query : Value) (state next : σ)
    (prepared : PreparedRequest) (counted : Value) (count : Int)
    (hprepared : s.prepare query = .ok prepared)
    (hcount : on (c.count prepared.expression) state = (.ok counted, next))
    (hnumber : counted.number? = some (.int count))
    (hlimit : prepared.window.limit ≤ 2 ^ 63)
    (htotal : max 0 (count - prepared.window.offset) ≤ 2 ^ 53) :
    let w := prepared.window
    let total : Int := max 0 (count - w.offset)
    let last : Int := ⌈(total : ℚ) / w.limit⌉
    1 ≤ w.limit ∧ 1 ≤ w.page ∧ remaining counted w.offset = .ok (.int total) ∧
    pageCount (.int total) w.limit = .ok last ∧ (last = 0 ↔ total = 0) ∧
    on (s.fetchPage c query) state = on (s.deliver c prepared (.int total) last) next ∧
    ∀ page, (s.fetch c query state).result = .ok page →
      page.total = .int total ∧ page.limit = w.limit ∧ page.page = min (w.page : Int) last ∧
        (page.page = 0 ↔ total = 0) := by
  intro w total last
  obtain ⟨filters, p, built, sorted, -, hcheck, -, -, hparts⟩ := parts_of_prepare hprepared
  have hroom : 1 ≤ w.limit := by
    show 1 ≤ prepared.window.limit
    rw [hparts]
    exact window_limit_pos hcheck
  have hasked : 1 ≤ w.page := by
    show 1 ≤ prepared.window.page
    rw [hparts]
    exact window_page_pos hcheck
  have hpositive : 0 ≤ total := le_max_left ..
  have hremaining : remaining counted w.offset = .ok (.int total) := remaining_of_int _ hnumber
  have hpages : pageCount (.int total) w.limit = .ok last :=
    pageCount_eq_ceil hroom hlimit hpositive htotal
  have hlast : last = 0 ↔ total = 0 := ceil_div_eq_zero_iff hroom hpositive
  have hdelivers := fetchPage_of_count hprepared hcount hremaining hpages
  refine ⟨hroom, hasked, hremaining, hpages, hlast, hdelivers, fun page hresult => ?_⟩
  obtain ⟨message, hfetched⟩ := fetch_eq_ok hresult
  rw [hdelivers] at hfetched
  obtain ⟨hsum, hpage, hlimited⟩ := eq_of_deliver hfetched
  refine ⟨hsum, hlimited, hpage, ?_⟩
  have hnonneg : 0 ≤ last := Int.ceil_nonneg (by positivity)
  show page.page = 0 ↔ _
  rw [hpage, ← hlast]
  show min (w.page : Int) last = 0 ↔ _
  omega

/-- A total of `2 ^ 53` and pages with room for one record less: the quotient is 1 up to half a
step, and the third page is the second. -/
theorem page_count_exact_half_step :
    let service : Service := {}
    let script : Script := { total := .int (2 ^ 53 + 1) }
    let query : Value :=
      .request (.list []) (.paging (.int 3) (.int (2 ^ 53 - 1)) (.int 1) .null .null)
    pageCount (.int (2 ^ 53)) (2 ^ 53 - 1) = .ok 2 ∧
      ∃ page, (service.fetch script.collection query ()).result = .ok page ∧ page.page = 2 ∧
        page.total = .int (2 ^ 53) := by
  intro service script query
  have hmeans : Paging.Means ⟨.int 3, .int (2 ^ 53 - 1), .int 1, .null, .null⟩ 3 (2 ^ 53 - 1) 1 :=
    ⟨.inr (.inl rfl), .inr (.inl (by norm_num)), .inr (.inl rfl)⟩
  have hwindow : service.windowOf 3 (2 ^ 53 - 1) 1 = ⟨2 ^ 53 - 1, 3, 1⟩ := by simp [windowOf]
  obtain ⟨sort, -, hprepared⟩ :=
    prepare_of_means (s := service) hmeans (.inl rfl) rfl (rfl : Request.ofValue query = _) rfl
  rw [hwindow] at hprepared
  have hlimit : (2 ^ 53 - 1 : Nat) ≤ 2 ^ 63 := by decide
  have hexact : (max 0 (2 ^ 53 + 1 - (1 : Nat)) : Int) ≤ 2 ^ 53 := by decide
  have hceil : ⌈((max 0 (2 ^ 53 + 1 - (1 : Nat)) : Int) : ℚ) / (2 ^ 53 - 1 : Nat)⌉ = 2 := by
    rw [Int.ceil_eq_iff]
    norm_num
  obtain ⟨-, -, -, hpages, -, -, hpage⟩ := page_count_exact service script.collection query () _ _
    _ _ hprepared rfl rfl hlimit hexact
  have hfetch := eq_ok_of_isOk ⟨[], .int 0, 0, 0⟩
    (by decide +kernel : (service.fetch script.collection query ()).result.isOk = true)
  obtain ⟨htotal, -, hnumber, -⟩ := hpage _ hfetch
  dsimp only at hpages hnumber
  rw [hceil] at hpages hnumber
  exact ⟨hpages, _, hfetch, hnumber, htotal⟩

end Service

end DocFilter
