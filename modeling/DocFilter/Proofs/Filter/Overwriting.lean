import DocFilter.Proofs.Filter.Safety

/-!
Which clause an entry of the conditions comes from.

Conditions have one entry for each target of the clauses. Clauses are compiled one after another,
and one that is compiled later takes the place of an earlier one with the same target: after every
step the conditions are what the last clause on each key wrote (`Written`). A clause is compiled in
its place in the request, but for one, the first on the public identifier, which is compiled before
all others. So the last clause of a request on a key wins (`build_keeps_last`), unless it is that
one: a clause that was written directly on the native key and stands before it then wins.
-/

namespace DocFilter

open Outcome

namespace Builder

def Compiles (b : Builder) (c : Clause) (key compiled : Value) : Prop :=
  ∃ operand, b.target c.field c.operator c.operand = .ok (key, operand) ∧
    predicate key c.operator operand = .ok compiled

/-- The clause is compiled under the key. -/
def Targets (b : Builder) (c : Clause) (key : Value) : Prop :=
  ∃ operand, b.target c.field c.operator c.operand = .ok (key, operand)

/-- The clause is the last of the clauses on a key, with clauses before it and after it. -/
structure LastOn (b : Builder) (clauses : List Clause) (key : Value) (before : List Clause)
    (c : Clause) (after : List Clause) : Prop where
  split : clauses = before ++ c :: after
  targets : b.Targets c key
  after_free : ∀ d ∈ after, ¬ b.Targets d key

/-- The clause is the first on the public identifier: the one that is compiled before all others. -/
structure IsKeyClause (b : Builder) (before : List Clause) (c : Clause) : Prop where
  isPublic : c.field.equal b.publicKey = true
  before_free : ∀ d ∈ before, d.field.equal b.publicKey = false

/-- The conditions are what the clauses wrote, in their order: one entry for each target, with the
predicate of the last clause on it. -/
structure Written (b : Builder) (clauses : List Clause) (conditions : List (Value × Value)) :
    Prop where
  allowed : ∀ entry ∈ conditions, b.Allows entry.1
  nodup : (conditions.map (·.1)).Nodup
  compiles : ∀ c ∈ clauses, ∃ key compiled, b.Compiles c key compiled
  mem_iff : ∀ key compiled, (key, compiled) ∈ conditions ↔
    ∃ before c after, b.LastOn clauses key before c after ∧ b.Compiles c key compiled

variable {b : Builder} {c d k : Clause} {key other compiled : Value}
  {clauses before after front back : List Clause} {conditions conditions' : List (Value × Value)}

/-! ### Targets -/

theorem Compiles.targets (h : b.Compiles c key compiled) : b.Targets c key := by
  obtain ⟨operand, htarget, -⟩ := h
  exact ⟨operand, htarget⟩

theorem Targets.unique (h : b.Targets c key) (h' : b.Targets c other) : key = other := by
  obtain ⟨operand, htarget⟩ := h
  obtain ⟨operand', htarget'⟩ := h'
  cases htarget.symm.trans htarget'
  rfl

theorem Compiles.unique {compiled' : Value} (h : b.Compiles c key compiled)
    (h' : b.Compiles c key compiled') : compiled = compiled' := by
  obtain ⟨operand, htarget, hpredicate⟩ := h
  obtain ⟨operand', htarget', hpredicate'⟩ := h'
  cases htarget.symm.trans htarget'
  cases hpredicate.symm.trans hpredicate'
  rfl

/-- The target of a clause is its field, or the native key for a clause on the public identifier. -/
theorem Targets.cases (h : b.Targets c key) :
    key = c.field ∨ key = b.nativeKey ∧ c.field.equal b.publicKey = true := by
  obtain ⟨operand, htarget⟩ := h
  obtain ⟨hfield, -⟩ | ⟨hnative, hpublic, -⟩ := target_eq_ok htarget
  · exact .inl hfield
  · exact .inr ⟨hnative, hpublic⟩

theorem allows_of_compiles (hfield : checkFieldName c.field = .ok ())
    (h : b.Compiles c key compiled) : b.Allows key := by
  obtain rfl | ⟨rfl, -⟩ := h.targets.cases
  · exact allows_of_checkFieldName hfield
  · exact .inl rfl

theorem addClause_compiles (h : b.addClause conditions c = .ok conditions') :
    ∃ key compiled, b.Compiles c key compiled ∧ conditions' = store conditions key compiled := by
  obtain ⟨⟨key, operand⟩, htarget, h⟩ := bind_eq_ok_iff.mp h
  obtain ⟨compiled, hpredicate, h⟩ := bind_eq_ok_iff.mp h
  refine ⟨key, compiled, ⟨operand, htarget, hpredicate⟩, ?_⟩
  split at h
  · cases h
  · exact (pure_eq_ok_iff.mp h).symm

/-! ### One step -/

theorem isSameKey_self (key : Value) : isSameKey key key = true := by
  cases key with
  | text s => exact beq_self_eq_true s
  | _ => rfl

/-- Storing an entry under an allowed key leaves one entry under it and the other entries as they
were. -/
theorem store_spec (compiled : Value) (hallowed : ∀ entry ∈ conditions, b.Allows entry.1)
    (hnodup : (conditions.map (·.1)).Nodup) (hkey : b.Allows key) :
    ((store conditions key compiled).map (·.1)).Nodup ∧
      ∀ entry, entry ∈ store conditions key compiled ↔
        entry = (key, compiled) ∨ entry.1 ≠ key ∧ entry ∈ conditions := by
  induction conditions with
  | nil => simp [store]
  | cons first rest ih =>
      obtain ⟨k, p⟩ := first
      obtain ⟨hfirst, hrest⟩ := List.forall_mem_cons.mp hallowed
      obtain ⟨hnew, hnodup⟩ := List.nodup_cons.mp hnodup
      rw [store]
      split_ifs with hsame
      · -- An allowed key is the same as another one only if it is the other one.
        obtain rfl : k = key := hkey.eq_of_isSameKey hfirst hsame
        refine ⟨List.nodup_cons.mpr ⟨hnew, hnodup⟩, fun entry => ?_⟩
        have hother : entry ∈ rest → entry.1 ≠ k := by
          intro hmem heq
          exact hnew (List.mem_map.mpr ⟨entry, hmem, heq⟩)
        constructor
        · intro hmem
          obtain rfl | hmem := List.mem_cons.mp hmem
          · exact .inl rfl
          · exact .inr ⟨hother hmem, List.mem_cons_of_mem _ hmem⟩
        · rintro (rfl | ⟨hne, hmem⟩)
          · exact List.mem_cons_self
          · obtain rfl | hmem := List.mem_cons.mp hmem
            · exact absurd rfl hne
            · exact List.mem_cons_of_mem _ hmem
      · -- The first entry stays, and the rest is as the induction says.
        have hne : k ≠ key := by
          rintro rfl
          exact hsame (isSameKey_self k)
        obtain ⟨ihnodup, ihmem⟩ := ih hrest hnodup
        refine ⟨List.nodup_cons.mpr ⟨fun hmem => ?_, ihnodup⟩, fun entry => ?_⟩
        · obtain ⟨entry, hentry, hk⟩ := List.mem_map.mp hmem
          obtain rfl | ⟨-, hentry⟩ := (ihmem entry).mp hentry
          · exact hne hk.symm
          · exact hnew (hk ▸ List.mem_map_of_mem hentry)
        · rw [List.mem_cons, ihmem, List.mem_cons]
          constructor
          · rintro (rfl | rfl | ⟨hother, hmem⟩)
            · exact .inr ⟨hne, .inl rfl⟩
            · exact .inl rfl
            · exact .inr ⟨hother, .inr hmem⟩
          · rintro (rfl | ⟨hother, rfl | hmem⟩)
            · exact .inr (.inl rfl)
            · exact .inl rfl
            · exact .inr (.inr ⟨hother, hmem⟩)

/-- With one clause more at the end, that clause is the last on its target, and the last on any
other key is the one that was. -/
theorem lastOn_append_singleton :
    b.LastOn (clauses ++ [d]) key before c after ↔
      (b.Targets d key ∧ before = clauses ∧ c = d ∧ after = []) ∨
        ¬ b.Targets d key ∧ ∃ rest, after = rest ++ [d] ∧ b.LastOn clauses key before c rest := by
  constructor
  · rintro ⟨hsplit, htargets, hfree⟩
    obtain rfl | ⟨rest, last, rfl⟩ := List.eq_nil_or_concat after
    · obtain ⟨rfl, hlast⟩ := List.append_inj' hsplit rfl
      cases hlast
      exact .inl ⟨htargets, rfl, rfl, rfl⟩
    · rw [List.concat_eq_append] at *
      have hsplit : clauses ++ [d] = (before ++ c :: rest) ++ [last] := by simpa using hsplit
      obtain ⟨rfl, hlast⟩ := List.append_inj' hsplit rfl
      cases hlast
      exact .inr ⟨hfree d (by simp), rest, rfl, rfl, htargets,
        fun e he => hfree e (List.mem_append_left _ he)⟩
  · rintro (⟨htargets, rfl, rfl, rfl⟩ | ⟨hfree, rest, rfl, rfl, htargets, hrest⟩)
    · exact ⟨rfl, htargets, by simp⟩
    · refine ⟨by simp, htargets, fun e he => ?_⟩
      obtain he | he := List.mem_append.mp he
      · exact hrest e he
      · obtain rfl := List.mem_singleton.mp he
        exact hfree

/-- Adding a clause leaves what the clauses with this one at their end wrote. -/
theorem Written.addClause (h : b.Written clauses conditions)
    (hfield : checkFieldName c.field = .ok ())
    (hadded : b.addClause conditions c = .ok conditions') :
    b.Written (clauses ++ [c]) conditions' := by
  obtain ⟨target, written, hcompiles, rfl⟩ := addClause_compiles hadded
  have hallows := allows_of_compiles hfield hcompiles
  obtain ⟨hnodup, hmem⟩ := store_spec written h.allowed h.nodup hallows
  refine ⟨fun entry hentry => ?_, hnodup, fun e he => ?_, fun key compiled => ?_⟩
  · obtain rfl | ⟨-, hold⟩ := (hmem entry).mp hentry
    · exact hallows
    · exact h.allowed entry hold
  · obtain he | he := List.mem_append.mp he
    · exact h.compiles e he
    · obtain rfl := List.mem_singleton.mp he
      exact ⟨target, written, hcompiles⟩
  · rw [hmem, h.mem_iff]
    constructor
    · rintro (hnew | ⟨hne, before, d, after, hlast, hd⟩)
      · cases hnew
        exact ⟨clauses, c, [], lastOn_append_singleton.mpr
          (.inl ⟨hcompiles.targets, rfl, rfl, rfl⟩), hcompiles⟩
      · -- An entry under another key is still the one that the last clause on that key wrote.
        have hfree : ¬ b.Targets c key := fun htargets =>
          hne (htargets.unique hcompiles.targets)
        exact ⟨before, d, after ++ [c],
          lastOn_append_singleton.mpr (.inr ⟨hfree, after, rfl, hlast⟩), hd⟩
    · rintro ⟨before, d, after, hlast, hd⟩
      obtain ⟨htargets, -, rfl, -⟩ | ⟨hfree, rest, -, hlast⟩ := lastOn_append_singleton.mp hlast
      · obtain rfl := htargets.unique hcompiles.targets
        exact .inl (by rw [hd.unique hcompiles])
      · refine .inr ⟨?_, before, d, rest, hlast, hd⟩
        rintro rfl
        exact hfree hcompiles.targets

/-! ### The whole run -/

theorem written_nil : b.Written [] [] := by
  refine ⟨by simp, by simp, by simp, fun key compiled => ⟨by simp, ?_⟩⟩
  rintro ⟨before, c, after, ⟨hsplit, -, -⟩, -⟩
  simp at hsplit

/-- The conditions after clauses were added in their order are what the clauses wrote. -/
theorem written_of_foldlM {added : List Clause} (h : b.Written clauses conditions)
    (hfields : ∀ c ∈ added, checkFieldName c.field = .ok ())
    (hadded : added.foldlM b.addClause conditions = .ok conditions') :
    b.Written (clauses ++ added) conditions' := by
  induction added generalizing clauses conditions with
  | nil =>
      cases hadded
      rwa [List.append_nil]
  | cons c rest ih =>
      obtain ⟨hc, hrest⟩ := List.forall_mem_cons.mp hfields
      rw [List.foldlM_cons] at hadded
      obtain ⟨stored, hstored, hadded⟩ := bind_eq_ok_iff.mp hadded
      have hall := ih (h.addClause hc hstored) hrest hadded
      rwa [List.append_assoc] at hall

theorem exists_lastOn (h : ∃ c ∈ clauses, b.Targets c key) :
    ∃ before c after, b.LastOn clauses key before c after := by
  induction clauses with
  | nil => simp at h
  | cons first rest ih =>
      by_cases hrest : ∃ c ∈ rest, b.Targets c key
      · obtain ⟨before, c, after, rfl, hc, hfree⟩ := ih hrest
        exact ⟨first :: before, c, after, rfl, hc, hfree⟩
      · obtain ⟨c, hc, htargets⟩ := h
        obtain rfl | hc := List.mem_cons.mp hc
        · exact ⟨[], c, rest, rfl, htargets, fun d hd hd' => hrest ⟨d, hd, hd'⟩⟩
        · exact absurd ⟨c, hc, htargets⟩ hrest

theorem LastOn.mem (h : b.LastOn clauses key before c after) : c ∈ clauses := by
  rw [h.split]
  simp

theorem Written.of_lastOn (h : b.Written clauses conditions)
    (hlast : b.LastOn clauses key before c after) :
    ∃ compiled, b.Compiles c key compiled ∧ (key, compiled) ∈ conditions := by
  obtain ⟨target, compiled, hcompiles⟩ := h.compiles c hlast.mem
  obtain rfl := hlast.targets.unique hcompiles.targets
  exact ⟨compiled, hcompiles, (h.mem_iff key compiled).mpr ⟨before, c, after, hlast, hcompiles⟩⟩

theorem Written.mem_keys_iff (h : b.Written clauses conditions) :
    key ∈ conditions.map (·.1) ↔ ∃ c ∈ clauses, b.Targets c key := by
  constructor
  · intro hkey
    obtain ⟨⟨_, compiled⟩, hentry, rfl⟩ := List.mem_map.mp hkey
    obtain ⟨before, c, after, hlast, -⟩ := (h.mem_iff _ _).mp hentry
    exact ⟨c, hlast.mem, hlast.targets⟩
  · intro htargets
    obtain ⟨before, c, after, hlast⟩ := exists_lastOn htargets
    obtain ⟨compiled, -, hentry⟩ := h.of_lastOn hlast
    exact List.mem_map_of_mem hentry

/-! ### The order of compilation -/

/-- The first clause on the public identifier is split off, or there is none. -/
theorem splitKeyClause_cases (b : Builder) (clauses : List Clause) :
    b.splitKeyClause clauses = (none, clauses) ∧
        (∀ c ∈ clauses, c.field.equal b.publicKey = false) ∨
      ∃ front k back, clauses = front ++ k :: back ∧ b.IsKeyClause front k ∧
        b.splitKeyClause clauses = (some k, front ++ back) := by
  induction clauses with
  | nil => exact .inl ⟨rfl, by simp⟩
  | cons c rest ih =>
      rw [splitKeyClause]
      split_ifs with hpublic
      · exact .inr ⟨[], c, rest, rfl, ⟨hpublic, by simp⟩, rfl⟩
      · have hpublic : c.field.equal b.publicKey = false := by simpa using hpublic
        obtain ⟨hnone, hfree⟩ | ⟨front, k, back, rfl, ⟨hk, hfront⟩, hsome⟩ := ih
        · rw [hnone]
          exact .inl ⟨rfl, List.forall_mem_cons.mpr ⟨hpublic, hfree⟩⟩
        · rw [hsome]
          exact .inr ⟨c :: front, k, back, rfl,
            ⟨hk, List.forall_mem_cons.mpr ⟨hpublic, hfront⟩⟩, rfl⟩

/-- Two places in a list are the same, or one stands in front of the other. -/
theorem append_cons_cases (h : front ++ k :: back = before ++ c :: after) :
    (front = before ∧ k = c ∧ back = after) ∨
      (∃ mid, before = front ++ k :: mid ∧ back = mid ++ c :: after) ∨
      ∃ mid, front = before ++ c :: mid ∧ after = mid ++ k :: back := by
  obtain ⟨mid, rfl, hmid⟩ | ⟨mid, rfl, hmid⟩ := List.append_eq_append_iff.mp h
  · cases mid with
    | nil =>
        obtain ⟨rfl, rfl⟩ := List.cons.inj hmid
        exact .inl ⟨by simp, rfl, rfl⟩
    | cons first mid =>
        obtain ⟨rfl, rfl⟩ := List.cons.inj hmid
        exact .inr (.inl ⟨mid, rfl, rfl⟩)
  · cases mid with
    | nil =>
        obtain ⟨rfl, rfl⟩ := List.cons.inj hmid
        exact .inl ⟨by simp, rfl, rfl⟩
    | cons first mid =>
        obtain ⟨rfl, rfl⟩ := List.cons.inj hmid
        exact .inr (.inr ⟨mid, rfl, rfl⟩)

theorem IsKeyClause.unique (hk : b.IsKeyClause front k) (hc : b.IsKeyClause before c)
    (h : front ++ k :: back = before ++ c :: after) : front = before ∧ k = c ∧ back = after := by
  obtain hsame | ⟨mid, rfl, -⟩ | ⟨mid, rfl, -⟩ := append_cons_cases h
  · exact hsame
  · exact absurd hk.isPublic (by simp [hc.before_free k])
  · exact absurd hc.isPublic (by simp [hk.before_free c])

/-- A clause that is not compiled before all others is the last on its target in the order of
compilation, as it is in the request. -/
theorem LastOn.reorder (h : b.LastOn (front ++ k :: back) key before c after)
    (hk : b.IsKeyClause front k) (hc : ¬ b.IsKeyClause before c) :
    ∃ before' after', b.LastOn (k :: (front ++ back)) key before' c after' := by
  obtain ⟨hsplit, htargets, hfree⟩ := h
  obtain ⟨rfl, rfl, rfl⟩ | ⟨mid, rfl, rfl⟩ | ⟨mid, rfl, rfl⟩ := append_cons_cases hsplit
  · exact absurd hk hc
  · exact ⟨k :: (front ++ mid), after, by simp, htargets, hfree⟩
  · refine ⟨k :: before, mid ++ back, by simp, htargets, fun d hd => hfree d ?_⟩
    simp only [List.mem_append, List.mem_cons] at hd ⊢
    tauto

/-- The clauses in the order in which they are compiled. -/
def ordered (b : Builder) (clauses : List Clause) : List Clause :=
  (b.splitKeyClause clauses).1.toList ++ (b.splitKeyClause clauses).2

theorem mem_ordered_iff : c ∈ b.ordered clauses ↔ c ∈ clauses := by
  unfold ordered
  obtain ⟨hnone, -⟩ | ⟨front, k, back, rfl, -, hsome⟩ := b.splitKeyClause_cases clauses
  · simp [hnone]
  · simp only [hsome, Option.toList_some, List.mem_append, List.mem_cons, List.not_mem_nil]
    tauto

/-- The last clause on a key is the last one in the order of compilation, if it is not compiled
before all others or there is no other on the key. -/
theorem LastOn.ordered_of_not_overtaken (h : b.LastOn clauses key before c after)
    (hc : ¬ b.IsKeyClause before c ∨ ∀ d ∈ before, ¬ b.Targets d key) :
    ∃ before' after', b.LastOn (b.ordered clauses) key before' c after' := by
  unfold ordered
  obtain ⟨hnone, hfree⟩ | ⟨front, k, back, rfl, hk, hsome⟩ := b.splitKeyClause_cases clauses
  · rw [hnone]
    exact ⟨before, after, h⟩
  · rw [hsome]
    by_cases hkey : b.IsKeyClause before c
    · obtain ⟨rfl, rfl, rfl⟩ := hk.unique hkey h.split
      refine ⟨[], front ++ back, rfl, h.targets, fun d hd => ?_⟩
      obtain hd | hd := List.mem_append.mp hd
      · exact (hc.resolve_left (not_not_intro hkey)) d hd
      · exact h.after_free d hd
    · exact h.reorder hk hkey

/-- A clause that is compiled before all others is overtaken by the last one before it on its
key. -/
theorem LastOn.ordered_of_overtaken {before' after' : List Clause}
    (h : b.LastOn clauses key before c after) (hc : b.IsKeyClause before c)
    (hd : b.LastOn before key before' d after') :
    ∃ front back, b.LastOn (b.ordered clauses) key front d back := by
  unfold ordered
  obtain ⟨-, hfree⟩ | ⟨front, k, back, rfl, hk, hsome⟩ := b.splitKeyClause_cases clauses
  · exact absurd hc.isPublic (by simp [hfree c h.mem])
  · rw [hsome]
    obtain ⟨rfl, rfl, rfl⟩ := hk.unique hc h.split
    obtain ⟨rfl, htargets, hrest⟩ := hd
    refine ⟨k :: before', after' ++ back, by simp, htargets, fun e he => ?_⟩
    obtain he | he := List.mem_append.mp he
    · exact hrest e he
    · exact h.after_free e he

theorem written_of_compile (h : b.compile clauses = .ok conditions) :
    b.Written (b.ordered clauses) conditions := by
  obtain ⟨_, hchecks, h⟩ := bind_eq_ok_iff.mp h
  have hchecks := checkClauses_eq_ok hchecks
  have hfields : ∀ c ∈ b.ordered clauses, checkFieldName c.field = .ok () := fun c hc =>
    (hchecks c (mem_ordered_iff.mp hc)).2
  have hadded : (b.ordered clauses).foldlM b.addClause [] = .ok conditions := h
  have hwritten := written_of_foldlM written_nil hfields hadded
  rwa [List.nil_append] at hwritten

/-- The conditions of a request have one entry for each target of its clauses. The last clause on a
key gives the entry its predicate, unless that clause is the first on the public identifier and
another one on the key stands before it: then both are on the native key, and the last of those
before it, which name the native key as their field, gives the predicate. -/
theorem build_keeps_last {filters : Value} {e : Expression} (h : b.build filters = .ok e) :
    ∃ items clauses conditions, filters.elements = .ok items ∧
      items.mapM Clause.ofValue = .ok clauses ∧ e.conditions = .map conditions ∧
      (conditions.map (·.1)).Nodup ∧
      (∀ key, key ∈ conditions.map (·.1) ↔ ∃ c ∈ clauses, b.Targets c key) ∧
      ∀ key before c after, b.LastOn clauses key before c after →
        ((¬ b.IsKeyClause before c ∨ ∀ d ∈ before, ¬ b.Targets d key) →
          ∃ compiled, b.Compiles c key compiled ∧ (key, compiled) ∈ conditions) ∧
        (b.IsKeyClause before c → ∀ before' d after', b.LastOn before key before' d after' →
          key = b.nativeKey ∧ d.field = b.nativeKey ∧
            ∃ compiled, b.Compiles d key compiled ∧ (key, compiled) ∈ conditions) := by
  obtain ⟨items, hitems, h⟩ := bind_eq_ok_iff.mp h
  obtain ⟨clauses, hclauses, h⟩ := bind_eq_ok_iff.mp h
  obtain ⟨conditions, hconditions, h⟩ := bind_eq_ok_iff.mp h
  cases h
  have hwritten := written_of_compile hconditions
  refine ⟨items, clauses, conditions, hitems, hclauses, rfl, hwritten.nodup, fun key => ?_,
    fun key before c after hlast => ⟨fun hc => ?_, fun hc before' d after' hd => ?_⟩⟩
  · rw [hwritten.mem_keys_iff]
    simp only [mem_ordered_iff]
  · obtain ⟨_, _, hordered⟩ := hlast.ordered_of_not_overtaken hc
    exact hwritten.of_lastOn hordered
  · obtain ⟨_, _, hordered⟩ := hlast.ordered_of_overtaken hc hd
    -- The clause before the first on the public identifier is on a field of another name.
    have hfield : key = d.field := by
      obtain hfield | ⟨-, hpublic⟩ := hd.targets.cases
      · exact hfield
      · exact absurd hpublic (by simp [hc.before_free d hd.mem])
    have hnative : key = b.nativeKey := by
      obtain hown | ⟨hnative, -⟩ := hlast.targets.cases
      · have hpublic := hc.isPublic
        rw [← hown, hfield, hc.before_free d hd.mem] at hpublic
        cases hpublic
      · exact hnative
    exact ⟨hnative, hfield ▸ hnative, hwritten.of_lastOn hordered⟩

/-- A clause that does not name an identifier under the public field is compiled under its own
field. -/
theorem target_of_own {field operator operand : Value} {op : Operator}
    (hop : operator.operator? = some op)
    (h : ∀ s id, operand = .text s → ObjectId.ofText? s = some id →
      field.equal b.publicKey = false) :
    b.target field operator operand = .ok (field, operand) := by
  have hoperator : operator.toOperator = .ok op := by rw [Value.toOperator, hop]
  refine bind_eq_ok_iff.mpr ⟨op, hoperator, ?_⟩
  split_ifs
  · rfl
  · split
    · split
      next id hpublic hid => exact absurd hpublic (by simp [h _ id rfl hid])
      next => rfl
    · rfl

theorem build_of_ordered (hchecks : checkClauses clauses = .ok ())
    (hadded : (b.ordered clauses).foldlM b.addClause [] = .ok conditions) :
    b.build (.list (clauses.map Clause.toValue)) = .ok { conditions := .map conditions } := by
  have hclauses : (clauses.map Clause.toValue).mapM Clause.ofValue = .ok clauses := by
    refine mapM_eq_ok_iff.mpr (List.forall₂_map_left_iff.mpr (List.forall₂_same.mpr ?_))
    exact fun c _ => rfl
  have hcompile : b.compile clauses = .ok conditions :=
    bind_eq_ok_iff.mpr ⟨(), hchecks, hadded⟩
  exact bind_eq_ok_iff.mpr ⟨_, rfl, bind_eq_ok_iff.mpr ⟨clauses, hclauses,
    bind_eq_ok_iff.mpr ⟨conditions, hcompile, rfl⟩⟩⟩

/-- A clause on the native key is overwritten by the second clause on the public identifier, which
is compiled in its place. Without the first one, the second is compiled before all others, and is
overwritten itself. -/
theorem build_keeps_last_mixed :
    let b : Builder := {}
    let direct : Clause := ⟨.text "_id", .text "=", .text "x"⟩
    let first : Clause := ⟨.text "id", .text "=", .text "123"⟩
    let last : Clause := ⟨.text "id", .text "!=", .text "650000000000000000000001"⟩
    let id : ObjectId := ⟨[0x65, 0, 0, 0, 0, 0, 0, 0, 0, 0, 0, 1], rfl⟩
    let entries : List (Value × Value) := [(.text "id", .map [(.text "$eq", .text "123")]),
      (.text "_id", .map [(.text "$ne", .objectId id)])]
    let overtaken : List (Value × Value) := [(.text "_id", .map [(.text "$eq", .text "x")])]
    b.build (.list ([direct, first, last].map Clause.toValue)) = .ok { conditions := .map entries } ∧
      (entries.map (·.1)).Nodup ∧
      (∀ key, key ∈ entries.map (·.1) ↔ ∃ c ∈ [direct, first, last], b.Targets c key) ∧
      (∃ compiled, b.Compiles last (.text "_id") compiled ∧ (.text "_id", compiled) ∈ entries) ∧
      b.build (.list ([direct, last].map Clause.toValue)) =
        .ok { conditions := .map overtaken } ∧
      ∃ compiled, b.Compiles direct (.text "_id") compiled ∧
        (.text "_id", compiled) ∈ overtaken := by
  intro b direct first last id entries overtaken
  have hdirect : b.target direct.field direct.operator direct.operand =
      .ok (.text "_id", .text "x") := target_of_own rfl (by simp [b, direct])
  have hfirst : b.target first.field first.operator first.operand = .ok (.text "id", .text "123") := by
    refine target_of_own rfl fun s id hs hid => ?_
    cases hs
    cases hid
  have hlast : b.target last.field last.operator last.operand = .ok (.text "_id", .objectId id) :=
    target_of_ofText? (b := {}) rfl rfl (Value.text_equal_iff.mpr rfl) rfl
  have haddDirect (entries : List (Value × Value)) : b.addClause entries direct =
      .ok (store entries (.text "_id") (.map [(.text "$eq", .text "x")])) :=
    addClause_of_target entries .eq hdirect rfl rfl rfl
  have haddLast (entries : List (Value × Value)) : b.addClause entries last =
      .ok (store entries (.text "_id") (.map [(.text "$ne", .objectId id)])) :=
    addClause_of_target entries .ne hlast rfl rfl rfl
  have hbuild : b.build (.list ([direct, first, last].map Clause.toValue)) =
      .ok { conditions := .map entries } := by
    have hordered : b.ordered [direct, first, last] = [first, direct, last] := by
      simp [b, direct, first, last, ordered, splitKeyClause]
    refine build_of_ordered rfl ?_
    rw [hordered]
    exact bind_eq_ok_iff.mpr ⟨_, addClause_of_target [] .eq hfirst rfl rfl rfl,
      bind_eq_ok_iff.mpr ⟨_, haddDirect _, bind_eq_ok_iff.mpr ⟨_, haddLast _, rfl⟩⟩⟩
  have hovertaken : b.build (.list ([direct, last].map Clause.toValue)) =
      .ok { conditions := .map overtaken } := by
    have hordered : b.ordered [direct, last] = [last, direct] := by
      simp [b, direct, last, ordered, splitKeyClause]
    refine build_of_ordered rfl ?_
    rw [hordered]
    exact bind_eq_ok_iff.mpr ⟨_, haddLast _, bind_eq_ok_iff.mpr ⟨_, haddDirect _, rfl⟩⟩
  obtain ⟨_, _, _, hitems, hclauses, hconditions, hnodup, hkeys, hkept⟩ := build_keeps_last hbuild
  cases hitems
  cases hclauses
  cases hconditions
  obtain ⟨_, _, _, hitems, hclauses, hconditions, -, -, hkept'⟩ := build_keeps_last hovertaken
  cases hitems
  cases hclauses
  cases hconditions
  refine ⟨hbuild, hnodup, hkeys, ?_, hovertaken, ?_⟩
  · have hwins := hkept (.text "_id") [direct, first] last [] ⟨rfl, ⟨_, hlast⟩, by simp⟩
    refine hwins.1 (.inl fun hkey => ?_)
    have hpublic := hkey.before_free first (by simp)
    simp [b, first] at hpublic
  · have hloses := hkept' (.text "_id") [direct] last [] ⟨rfl, ⟨_, hlast⟩, by simp⟩
    have hkey : b.IsKeyClause [direct] last := ⟨by simp [b, last], by simp [b, direct]⟩
    exact (hloses.2 hkey [] direct [] ⟨rfl, ⟨_, hdirect⟩, by simp⟩).2.2

/-- The last clause of a request on the native key is the first on the public identifier; the one
that was written directly on the native key, and stands before it, gives the entry its predicate. -/
theorem build_overtakes_last :
    let direct : Clause := ⟨.text "_id", .text "=", .text "x"⟩
    let last : Clause := ⟨.text "id", .text "=", .text "64b7f0c2a1b2c3d4e5f60718"⟩
    let id : ObjectId :=
      ⟨[0x64, 0xb7, 0xf0, 0xc2, 0xa1, 0xb2, 0xc3, 0xd4, 0xe5, 0xf6, 0x07, 0x18], rfl⟩
    let b : Builder := {}
    b.publicKey ≠ b.nativeKey ∧
      b.build (.list ([direct, last].map Clause.toValue)) =
        .ok { conditions := .map [(.text "_id", .map [(.text "$eq", .text "x")])] } ∧
      b.LastOn [direct, last] (.text "_id") [direct] last [] ∧
      b.Compiles last (.text "_id") (.map [(.text "$eq", .objectId id)]) ∧
      (.text "_id", .map [(.text "$eq", .objectId id)]) ∉
        [((.text "_id" : Value), Value.map [(.text "$eq", .text "x")])] := by
  intro direct last id b
  have htarget : b.target last.field last.operator last.operand =
      .ok (.text "_id", .objectId id) :=
    target_of_ofText? (b := {}) rfl rfl (Value.text_equal_iff.mpr rfl) rfl
  have hordered : b.ordered [direct, last] = [last, direct] := by
    simp [b, direct, last, ordered, splitKeyClause]
  have hlast : b.addClause [] last = .ok [(.text "_id", .map [(.text "$eq", .objectId id)])] :=
    addClause_of_target [] .eq htarget rfl rfl rfl
  have hdirect (entries : List (Value × Value)) :
      b.addClause entries direct =
        .ok (store entries (.text "_id") (.map [(.text "$eq", .text "x")])) :=
    addClause_of_target entries .eq (target_of_own rfl (by simp [b, direct])) rfl rfl rfl
  have hadded : (b.ordered [direct, last]).foldlM b.addClause [] =
      .ok [(.text "_id", .map [(.text "$eq", .text "x")])] := by
    rw [hordered]
    exact bind_eq_ok_iff.mpr ⟨_, hlast, bind_eq_ok_iff.mpr ⟨_, hdirect _, rfl⟩⟩
  refine ⟨by simp [b], build_of_ordered rfl hadded, ⟨rfl, ⟨_, htarget⟩, by simp⟩,
    ⟨_, htarget, rfl⟩, by simp⟩

end Builder

end DocFilter
