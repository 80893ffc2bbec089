import Mathlib.Data.List.Forall2
import Mathlib.Tactic.SplitIfs

/-!
What a successful computation is made of.

Everything that can fail here is written in `Except`. A computation that succeeded is taken apart by
the lemmas below: a chain of steps succeeded exactly if each step did, and a list was worked through
exactly if each of its items was. Later proofs name the parts with `obtain` and never open a `do`.
-/

namespace DocFilter.Outcome

universe u

variable {ε δ : Type u} {α β : Type u}

theorem bind_eq_ok_iff {x : Except ε α} {f : α → Except ε β} {b : β} :
    x >>= f = .ok b ↔ ∃ a, x = .ok a ∧ f a = .ok b := by
  cases x with
  | error e => simp [bind, Except.bind]
  | ok a => simp [bind, Except.bind]

theorem bind_eq_error_iff {x : Except ε α} {f : α → Except ε β} {e : ε} :
    x >>= f = .error e ↔ x = .error e ∨ ∃ a, x = .ok a ∧ f a = .error e := by
  cases x with
  | error e => simp [bind, Except.bind]
  | ok a => simp [bind, Except.bind]

theorem map_eq_ok_iff {x : Except ε α} {f : α → β} {b : β} :
    x.map f = .ok b ↔ ∃ a, x = .ok a ∧ f a = b := by
  cases x with
  | error e => simp [Except.map]
  | ok a => simp [Except.map]

theorem map_eq_error_iff {x : Except ε α} {f : α → β} {e : ε} :
    x.map f = .error e ↔ x = .error e := by
  cases x with
  | error e => simp [Except.map]
  | ok a => simp [Except.map]

theorem mapError_eq_ok_iff {x : Except ε α} {f : ε → δ} {a : α} :
    x.mapError f = .ok a ↔ x = .ok a := by
  cases x with
  | error e => simp [Except.mapError]
  | ok a => simp [Except.mapError]

@[simp] theorem pure_eq_ok_iff {a b : α} : (pure a : Except ε α) = .ok b ↔ a = b := by
  simp [pure, Except.pure]

theorem ite_eq_ok_iff {p : Prop} [Decidable p] {e : ε} {a b : α} :
    (if p then .ok a else .error e : Except ε α) = .ok b ↔ p ∧ a = b := by
  split_ifs with hp <;> simp [hp]

theorem ite_eq_error_iff {p : Prop} [Decidable p] {e e' : ε} {a : α} :
    (if p then .ok a else .error e : Except ε α) = .error e' ↔ ¬p ∧ e = e' := by
  split_ifs with hp <;> simp [hp]

/-- A computation that succeeds yields what is read off it. -/
theorem eq_ok_of_isOk {x : Except ε α} (default : α) (h : x.isOk = true) :
    x = .ok (x.toOption.getD default) := by
  cases x with
  | error e => cases h
  | ok a => rfl

theorem eq_ok_of_toOption {x : Except ε α} {a : α} (h : x.toOption = some a) : x = .ok a := by
  cases x with
  | error e => cases h
  | ok b => exact congrArg _ (Option.some.inj h)

def error? : Except ε α → Option ε
  | .error e => some e
  | .ok _ => none

theorem eq_error_of_error? {x : Except ε α} {e : ε} (h : error? x = some e) : x = .error e := by
  cases x with
  | error e' => exact congrArg _ (Option.some.inj h)
  | ok a => cases h

theorem mapM_eq_ok_iff {f : α → Except ε β} {l : List α} {r : List β} :
    l.mapM f = .ok r ↔ List.Forall₂ (fun a b => f a = .ok b) l r := by
  induction l generalizing r with
  | nil => simp [pure, Except.pure, eq_comm]
  | cons a l ih =>
      rw [List.mapM_cons, bind_eq_ok_iff, List.forall₂_cons_left_iff]
      constructor
      · rintro ⟨b, hb, h⟩
        obtain ⟨bs, hbs, h⟩ := bind_eq_ok_iff.mp h
        rw [pure_eq_ok_iff] at h
        exact ⟨b, bs, hb, ih.mp hbs, h.symm⟩
      · rintro ⟨b, bs, hb, hbs, rfl⟩
        exact ⟨b, hb, bind_eq_ok_iff.mpr ⟨bs, ih.mpr hbs, rfl⟩⟩

theorem exists_of_mem_forall₂ {R : α → β → Prop} {l : List α} {r : List β}
    (h : List.Forall₂ R l r) {b : β} (hb : b ∈ r) : ∃ a ∈ l, R a b := by
  induction h with
  | nil => cases hb
  | @cons a b' l r hfirst _ ih =>
      obtain rfl | hb := List.mem_cons.mp hb
      · exact ⟨a, List.mem_cons_self, hfirst⟩
      · obtain ⟨a', ha', hrest⟩ := ih hb
        exact ⟨a', List.mem_cons_of_mem _ ha', hrest⟩

theorem exists_mapM_eq_ok {f : α → Except ε β} {l : List α} (h : ∀ a ∈ l, ∃ b, f a = .ok b) :
    ∃ r, l.mapM f = .ok r := by
  induction l with
  | nil => exact ⟨[], rfl⟩
  | cons a l ih =>
      obtain ⟨⟨b, hb⟩, hrest⟩ := List.forall_mem_cons.mp h
      obtain ⟨r, hr⟩ := ih hrest
      exact ⟨b :: r, mapM_eq_ok_iff.mpr (.cons hb (mapM_eq_ok_iff.mp hr))⟩

/-- What stops the work on a list stops it at one of the items. -/
theorem mapM_eq_error {f : α → Except ε β} {l : List α} {e : ε} (h : l.mapM f = .error e) :
    ∃ a ∈ l, f a = .error e := by
  induction l with
  | nil => cases h
  | cons a l ih =>
      rw [List.mapM_cons] at h
      obtain h | ⟨b, hb, h⟩ := bind_eq_error_iff.mp h
      · exact ⟨a, List.mem_cons_self, h⟩
      · obtain h | ⟨bs, hbs, h⟩ := bind_eq_error_iff.mp h
        · obtain ⟨a', hmem, ha'⟩ := ih h
          exact ⟨a', List.mem_cons_of_mem _ hmem, ha'⟩
        · cases h

theorem forM_eq_ok {f : α → Except ε PUnit.{u + 1}} {l : List α} (h : l.forM f = .ok ⟨⟩) :
    ∀ a ∈ l, f a = .ok ⟨⟩ := by
  induction l with
  | nil => simp
  | cons a l ih =>
      have hstep : (f a >>= fun _ => l.forM f) = .ok ⟨⟩ := h
      obtain ⟨_, ha, hrest⟩ := bind_eq_ok_iff.mp hstep
      exact List.forall_mem_cons.mpr ⟨ha, ih hrest⟩

theorem forM_cases (f : α → Except ε PUnit.{u + 1}) (l : List α) :
    (l.forM f = .ok ⟨⟩ ∧ ∀ a ∈ l, f a = .ok ⟨⟩) ∨
      ∃ before a after e, l = before ++ a :: after ∧ (∀ b ∈ before, f b = .ok ⟨⟩) ∧
        f a = .error e ∧ l.forM f = .error e := by
  induction l with
  | nil => exact .inl ⟨rfl, by simp⟩
  | cons a l ih =>
      have hstep : (a :: l).forM f = (f a >>= fun _ => l.forM f) := rfl
      cases ha : f a with
      | error e =>
          refine .inr ⟨[], a, l, e, rfl, by simp, ha, ?_⟩
          rw [hstep, ha]
          rfl
      | ok u =>
          have hrest : (a :: l).forM f = l.forM f := by
            rw [hstep, ha]
            rfl
          rw [hrest]
          obtain ⟨hall, hpassed⟩ | ⟨before, b, after, e, rfl, hbefore, hb, herror⟩ := ih
          · exact .inl ⟨hall, List.forall_mem_cons.mpr ⟨ha, hpassed⟩⟩
          · exact .inr ⟨a :: before, b, after, e, rfl, List.forall_mem_cons.mpr ⟨ha, hbefore⟩, hb,
              herror⟩

/-- A fold whose steps succeed for good items and fail for all others succeeds if all items are
good, and fails at one of the others if not. -/
theorem foldlM_cases {good : α → Prop} {f : β → α → Except ε β} {l : List α}
    (hgood : ∀ a ∈ l, good a → ∀ b, ∃ b', f b a = .ok b')
    (hbad : ∀ a ∈ l, ¬ good a → ∀ b, ∃ e, f b a = .error e) (b : β) :
    ((∀ a ∈ l, good a) ∧ ∃ r, l.foldlM f b = .ok r) ∨
      ∃ a ∈ l, ¬ good a ∧ ∃ b' e, f b' a = .error e ∧ l.foldlM f b = .error e := by
  induction l generalizing b with
  | nil => exact .inl ⟨by simp, b, rfl⟩
  | cons a l ih =>
      obtain ⟨hfirst, hgood⟩ := List.forall_mem_cons.mp hgood
      obtain ⟨hfirst', hbad⟩ := List.forall_mem_cons.mp hbad
      by_cases ha : good a
      · obtain ⟨next, hnext⟩ := hfirst ha b
        have hrest : (a :: l).foldlM f b = l.foldlM f next := by
          rw [List.foldlM_cons, hnext]
          rfl
        rw [hrest]
        obtain ⟨hall, hr⟩ | ⟨a', hmem, ha', b', e, he, herror⟩ := ih hgood hbad next
        · exact .inl ⟨List.forall_mem_cons.mpr ⟨ha, hall⟩, hr⟩
        · exact .inr ⟨a', List.mem_cons_of_mem _ hmem, ha', b', e, he, herror⟩
      · obtain ⟨e, he⟩ := hfirst' ha b
        refine .inr ⟨a, List.mem_cons_self, ha, b, e, he, ?_⟩
        rw [List.foldlM_cons, he]
        rfl

theorem foldlM_preserves {P : β → Prop} {f : β → α → Except ε β} {l : List α}
    (hstep : ∀ a ∈ l, ∀ b b', P b → f b a = .ok b' → P b') {b r : β} (hb : P b)
    (h : l.foldlM f b = .ok r) : P r := by
  induction l generalizing b with
  | nil =>
      cases h
      exact hb
  | cons a l ih =>
      rw [List.foldlM_cons] at h
      obtain ⟨b', hb', h⟩ := bind_eq_ok_iff.mp h
      obtain ⟨hfirst, hrest⟩ := List.forall_mem_cons.mp hstep
      exact ih hrest (hfirst b b' hb hb') h

end DocFilter.Outcome
