import DocFilter.Proofs.Filter.Overwriting
import Mathlib.Data.List.Perm.Basic

/-!
Which check refuses a list of clauses.

Clauses are checked in stages, and each stage looks at all of them before the next one begins: first
the operands for reserved keys, then the fields, then the operators. What is left to go wrong when
they are compiled is the shape of an operand, and compiling looks at the clauses in an order of its
own. So the failure is the one of the first stage that refuses any clause, wherever the clause
stands (`build_of_isFirst`), and clauses that no stage refuses are compiled (`build_of_passed`).
Which stage this is does not depend on the order of the clauses (`build_refuses_in_stages`).

A refusal shows what it is about. Where that cannot be shown, what keeps it from being shown is
raised in place of the failure of the stage (`build_refuses_unshown`).
-/

namespace DocFilter

open Outcome

/-! ### Stages -/

/-- The checks of a list of clauses, in the order in which they decide. -/
inductive Stage
  | operands | fields | operators | shapes
  deriving DecidableEq

namespace Stage

/-- The stages that have to be passed before. -/
def earlier : Stage → List Stage
  | operands => []
  | fields => [operands]
  | operators => [operands, fields]
  | shapes => [operands, fields, operators]

/-- The stage refuses the clause: for a key in its operand, at any depth, that is reserved or cannot
be shown; for a field that is not a text, is empty or has the reserved sign; for an operator that is
not in the table; or for an operand that is not a collection or a text where the operator takes
one. -/
def Refuses : Stage → Clause → Prop
  | operands, c => ¬ c.operand.ReservedFree
  | fields, c => ¬ c.field.IsFieldName
  | operators, c => c.operator.operator? = none
  | shapes, c => ∃ op, c.operator.operator? = some op ∧
      (op.takesList = true ∧ c.operand.items? = none ∨
        op.takesText = true ∧ ∀ s, c.operand ≠ .text s)

def kind : Stage → FailureKind
  | operands | shapes => .validation
  | fields => .fieldName
  | operators => .unsupportedOperator

/-- The failure is what the stage reports about the clause, or what keeps it from being shown. -/
def Reports (b : Builder) : Stage → Clause → Failure → Prop
  | operands, c, failure =>
    (∃ key, c.operand.HasKey (.ok key) ∧ isReservedKey key = true ∧ failure = .reservedKey key) ∨
      c.operand.HasKey (.error failure)
  | fields, c, failure =>
    failure = .showing .badFieldName c.field.inspected ∨ failure = .reservedFieldName
  | operators, c, failure => failure = .showing .unsupportedOperator c.operator.shown
  | shapes, c, failure => ∃ op field kind, c.operator.operator? = some op ∧
      (field = c.field ∨ field = b.nativeKey) ∧
      (failure = .showing (.listRequired op.literal · kind) field.shown ∨
        failure = .showing (.textRequired op.literal · kind) field.shown)

/-- The stage is the first one that refuses any of the clauses. -/
structure IsFirst (stage : Stage) (clauses : List Clause) : Prop where
  refuses : ∃ c ∈ clauses, stage.Refuses c
  passed : ∀ before ∈ stage.earlier, ∀ c ∈ clauses, ¬ before.Refuses c

/-- The failure is what the stage reports about one of the clauses that it refuses. It is the first
of them, except for the shapes, which come up in the order of compilation. -/
def ReportsOn (stage : Stage) (b : Builder) (clauses : List Clause) (failure : Failure) : Prop :=
  ∃ before c after, clauses = before ++ c :: after ∧ stage.Refuses c ∧ stage.Reports b c failure ∧
    (stage ≠ shapes → ∀ d ∈ before, ¬ stage.Refuses d)

variable {stage : Stage} {clauses others : List Clause}

theorem IsFirst.unique {other : Stage} (h : stage.IsFirst clauses)
    (hother : other.IsFirst clauses) : stage = other := by
  have hearlier : stage = other ∨ stage ∈ other.earlier ∨ other ∈ stage.earlier := by
    cases stage <;> cases other <;> simp [earlier]
  obtain heq | hbefore | hafter := hearlier
  · exact heq
  · obtain ⟨c, hc, hrefuses⟩ := h.refuses
    exact absurd hrefuses (hother.passed stage hbefore c hc)
  · obtain ⟨c, hc, hrefuses⟩ := hother.refuses
    exact absurd hrefuses (h.passed other hafter c hc)

theorem IsFirst.perm (h : stage.IsFirst clauses) (hperm : others.Perm clauses) :
    stage.IsFirst others := by
  obtain ⟨⟨c, hc, hrefuses⟩, hpassed⟩ := h
  exact ⟨⟨c, hperm.mem_iff.mpr hc, hrefuses⟩,
    fun before hbefore c hc => hpassed before hbefore c (hperm.mem_iff.mp hc)⟩

end Stage

/-- The stage that a failure comes from. -/
def Failure.stage? : Failure → Option Stage
  | .reservedKey _ => some .operands
  | .badFieldName _ | .reservedFieldName => some .fields
  | .unsupportedOperator _ => some .operators
  | .listRequired .. | .textRequired .. => some .shapes
  | _ => none

theorem Failure.kind_of_stage? {failure : Failure} {stage : Stage}
    (h : failure.stage? = some stage) : failure.kind = stage.kind := by
  unfold stage? at h
  split at h <;> cases h <;> rfl

/-- Whatever a refusal of the clause may show can be shown. -/
structure Clause.IsShown (c : Clause) : Prop where
  field : ∃ text, c.field.shown = .ok text
  operator : ∃ text, c.operator.shown = .ok text
  keys : ∀ failure, ¬ c.operand.HasKey (.error failure)

/-- Whatever a refusal of the clauses may show can be shown, the native key among it. -/
structure Builder.Shows (b : Builder) (clauses : List Clause) : Prop where
  nativeKey : ∃ text, b.nativeKey.shown = .ok text
  clauses : ∀ c ∈ clauses, c.IsShown

theorem Stage.stage?_of_reports {b : Builder} {stage : Stage} {c : Clause} {failure : Failure}
    (h : stage.Reports b c failure) : failure.stage? = some stage ∨ failure.OfText := by
  cases stage with
  | operands =>
      obtain ⟨key, -, -, rfl⟩ | ⟨_, -, _, -, hfailure⟩ := h
      · exact .inl rfl
      · exact .inr (Value.ofText_of_shown hfailure)
  | fields =>
      obtain rfl | rfl := h
      · exact (Value.showing_inspected_cases ..).imp_left fun ⟨_, htext⟩ => by rw [htext]; rfl
      · exact .inl rfl
  | operators =>
      cases h
      exact (Value.showing_cases ..).imp_left fun ⟨_, htext⟩ => by rw [htext]; rfl
  | shapes =>
      obtain ⟨_, _, _, -, -, rfl | rfl⟩ := h
      · exact (Value.showing_cases ..).imp_left fun ⟨_, htext⟩ => by rw [htext]; rfl
      · exact (Value.showing_cases ..).imp_left fun ⟨_, htext⟩ => by rw [htext]; rfl

theorem Stage.stage?_of_isShown {b : Builder} {stage : Stage} {c : Clause} {failure : Failure}
    (h : stage.Reports b c failure) (hnative : ∃ text, b.nativeKey.shown = .ok text)
    (hc : c.IsShown) : failure.stage? = some stage := by
  cases stage with
  | operands =>
      obtain ⟨key, -, -, rfl⟩ | hkey := h
      · rfl
      · exact (hc.keys failure hkey).elim
  | fields =>
      obtain rfl | rfl := h
      · obtain ⟨text, htext⟩ := Value.exists_inspected_iff.mpr hc.field
        rw [htext]
        rfl
      · rfl
  | operators =>
      obtain ⟨text, htext⟩ := hc.operator
      cases h
      rw [htext]
      rfl
  | shapes =>
      obtain ⟨_, field, _, -, hfield, hfailure⟩ := h
      obtain ⟨text, htext⟩ : ∃ text, field.shown = .ok text := by
        obtain rfl | rfl := hfield
        · exact hc.field
        · exact hnative
      rw [htext] at hfailure
      obtain rfl | rfl := hfailure <;> rfl

theorem Stage.ReportsOn.stage?_or_ofText {b : Builder} {stage : Stage} {clauses : List Clause}
    {failure : Failure} (h : stage.ReportsOn b clauses failure) :
    failure.stage? = some stage ∨ failure.OfText := by
  obtain ⟨-, c, -, -, -, h, -⟩ := h
  exact Stage.stage?_of_reports h

theorem Stage.ReportsOn.stage?_eq {b : Builder} {stage : Stage} {clauses : List Clause}
    {failure : Failure} (h : stage.ReportsOn b clauses failure) (hshown : b.Shows clauses) :
    failure.stage? = some stage := by
  obtain ⟨before, c, after, hclauses, -, h, -⟩ := h
  exact Stage.stage?_of_isShown h hshown.nativeKey (hshown.clauses c (by simp [hclauses]))

/-! ### Checks -/

namespace Stage

variable {stage : Stage} {c : Clause} {clauses : List Clause}

/-- A computation that works on the clause fails exactly if the stage refuses the clause, and then
with what the stage reports. -/
def Decides {α : Type} (stage : Stage) (b : Builder) (c : Clause) (x : Except Failure α) : Prop :=
  ((∃ a, x = .ok a) ∧ ¬ stage.Refuses c) ∨
    ∃ failure, x = .error failure ∧ stage.Refuses c ∧ stage.Reports b c failure

theorem decides_checkOperand (b : Builder) (c : Clause) :
    operands.Decides b c (checkOperand c.operand) := by
  cases hcheck : checkOperand c.operand with
  | ok u => exact .inl ⟨⟨u, rfl⟩, not_not_intro (checkOperand_eq_ok_iff.mp hcheck)⟩
  | error failure =>
      refine .inr ⟨failure, rfl, fun hfree => ?_, hasKey_of_checkOperand hcheck⟩
      cases hcheck.symm.trans (checkOperand_eq_ok_iff.mpr hfree)

theorem reports_of_checkFieldName {b : Builder} {c : Clause} {failure : Failure}
    (h : checkFieldName c.field = .error failure) : fields.Reports b c failure := by
  unfold checkFieldName at h
  split at h
  · rename_i s hfield
    split_ifs at h with hempty hsign
    · cases h
      refine .inl ?_
      rw [hfield, Value.inspected_text]
      rfl
    · cases h
      exact .inr rfl
  · cases h
    exact .inl rfl

theorem decides_checkFieldName (b : Builder) (c : Clause) :
    fields.Decides b c (checkFieldName c.field) := by
  cases hresult : checkFieldName c.field with
  | ok u => exact .inl ⟨⟨u, rfl⟩, not_not_intro (checkFieldName_eq_ok_iff.mp hresult)⟩
  | error failure =>
      refine .inr ⟨failure, rfl, fun hname => ?_, reports_of_checkFieldName hresult⟩
      cases hresult.symm.trans (checkFieldName_eq_ok_iff.mpr hname)

theorem decides_checkOperator (b : Builder) (c : Clause) :
    operators.Decides b c (Builder.checkOperator c) := by
  unfold Builder.checkOperator
  cases hop : c.operator.operator? with
  | none => exact .inr ⟨_, rfl, hop, rfl⟩
  | some op =>
      refine .inl ⟨⟨(), rfl⟩, fun hnone => ?_⟩
      cases hop.symm.trans hnone

/-- A stage that looks at the clauses in their order passes all of them, or reports the first one
that it refuses. -/
theorem forM_cases_of_decides {b : Builder} {check : Clause → Except Failure Unit}
    (h : ∀ c, stage.Decides b c (check c)) (clauses : List Clause) :
    (clauses.forM check = .ok () ∧ ∀ c ∈ clauses, ¬ stage.Refuses c) ∨
      (∃ c ∈ clauses, stage.Refuses c) ∧
        ∃ failure, stage.ReportsOn b clauses failure ∧ clauses.forM check = .error failure := by
  have hpassed : ∀ c, check c = .ok () → ¬ stage.Refuses c := by
    intro c hc
    obtain ⟨-, hfree⟩ | ⟨_, herror, -⟩ := h c
    · exact hfree
    · cases hc.symm.trans herror
  obtain ⟨hall, hok⟩ | ⟨before, c, after, failure, rfl, hbefore, hc, herror⟩ :=
    forM_cases check clauses
  · exact .inl ⟨hall, fun c hc => hpassed c (hok c hc)⟩
  · obtain ⟨⟨_, hok⟩, -⟩ | ⟨_, hfailure, hrefuses, hreports⟩ := h c
    · cases hc.symm.trans hok
    · cases hc.symm.trans hfailure
      exact .inr ⟨⟨c, by simp, hrefuses⟩, failure, ⟨before, c, after, rfl, hrefuses, hreports,
        fun _ d hd => hpassed d (hbefore d hd)⟩, herror⟩

end Stage

/-! ### Shapes of operands -/

theorem listOperand_eq (op : Operator) (field operand : Value) :
    listOperand op field operand = match operand.items? with
      | some items => .ok items
      | none => .error (.showing (.listRequired op.literal · operand.kindName) field.shown) := by
  cases operand <;> rfl

namespace Builder

variable {b : Builder} {c : Clause} {op : Operator} {key given : Value}

/-- Every clause with an operator has a target: its field with its operand, or the native key with
the identifier that the operand, a text, names. -/
theorem exists_target (b : Builder) (hop : c.operator.operator? = some op) :
    ∃ key given, b.target c.field c.operator c.operand = .ok (key, given) := by
  have hoperator : c.operator.toOperator = .ok op := by rw [Value.toOperator, hop]
  unfold target
  rw [hoperator]
  show ∃ key given, (if op.takesText then pure (c.field, c.operand) else _) = _
  split_ifs
  · exact ⟨_, _, rfl⟩
  · split
    · split <;> exact ⟨_, _, rfl⟩
    · exact ⟨_, _, rfl⟩

theorem target_of_takesText (hop : c.operator.operator? = some op) (htext : op.takesText = true) :
    b.target c.field c.operator c.operand = .ok (c.field, c.operand) := by
  have hoperator : c.operator.toOperator = .ok op := by rw [Value.toOperator, hop]
  refine bind_eq_ok_iff.mpr ⟨op, hoperator, ?_⟩
  rw [if_pos htext]
  rfl

theorem items?_of_target (h : b.target c.field c.operator c.operand = .ok (key, given)) :
    given.items? = c.operand.items? := by
  obtain ⟨-, rfl⟩ | ⟨-, -, s, id, htext, -, rfl⟩ := target_eq_ok h
  · rfl
  · rw [htext]
    rfl

/-- The operand of a clause is compiled unless the last stage refuses the clause. -/
theorem decides_compileOperand (hop : c.operator.operator? = some op)
    (htarget : b.target c.field c.operator c.operand = .ok (key, given)) :
    Stage.shapes.Decides b c (compileOperand op key given) := by
  have hkey : key = c.field ∨ key = b.nativeKey := (target_eq_ok htarget).imp (·.1) (·.1)
  unfold compileOperand
  split_ifs with hlist htext
  · -- No operator takes both a list and a text.
    have hneither : op.takesText = false := by
      cases op with
      | isIn | notIn => rfl
      | _ => cases hlist
    rw [listOperand_eq, items?_of_target htarget]
    cases hitems : c.operand.items? with
    | some items =>
        refine .inl ⟨⟨_, rfl⟩, ?_⟩
        rintro ⟨op', hop', ⟨-, hnone⟩ | ⟨htext, -⟩⟩
        · cases hitems.symm.trans hnone
        · obtain rfl : op = op' := Option.some.inj (hop.symm.trans hop')
          rw [hneither] at htext
          cases htext
    | none =>
        exact .inr ⟨_, rfl, ⟨op, hop, .inl ⟨hlist, hitems⟩⟩, op, key, _, hop, hkey, .inl rfl⟩
  · rw [target_of_takesText hop htext] at htarget
    cases htarget
    cases hoperand : c.operand with
    | text s =>
        refine .inl ⟨⟨_, rfl⟩, ?_⟩
        rintro ⟨op', hop', ⟨hlist', -⟩ | ⟨-, hnone⟩⟩
        · obtain rfl : op = op' := Option.some.inj (hop.symm.trans hop')
          exact hlist hlist'
        · exact hnone s hoperand
    | _ =>
        refine .inr ⟨_, rfl, ⟨op, hop, .inr ⟨htext, fun s hs => ?_⟩⟩, op, _, _, hop, .inl rfl,
          .inr rfl⟩
        cases hoperand.symm.trans hs
  · refine .inl ⟨⟨_, rfl⟩, ?_⟩
    rintro ⟨op', hop', ⟨hlist', -⟩ | ⟨htext', -⟩⟩
    · obtain rfl : op = op' := Option.some.inj (hop.symm.trans hop')
      exact hlist hlist'
    · obtain rfl : op = op' := Option.some.inj (hop.symm.trans hop')
      exact htext htext'

/-- Adding a clause that passed the checks fails exactly if the shape of its operand is wrong. -/
theorem decides_addClause (hnative : b.nativeKey.unhashableKind? = none)
    (hfield : ¬ Stage.fields.Refuses c) (hoperator : ¬ Stage.operators.Refuses c)
    (conditions : List (Value × Value)) : Stage.shapes.Decides b c (b.addClause conditions c) := by
  obtain ⟨op, hop⟩ := Option.ne_none_iff_exists'.mp hoperator
  obtain ⟨key, given, htarget⟩ := b.exists_target hop
  have hkey : key.unhashableKind? = none := by
    obtain ⟨rfl, -⟩ | ⟨rfl, -⟩ := target_eq_ok htarget
    · exact (not_not.mp hfield).unhashableKind?_eq_none
    · exact hnative
  obtain ⟨⟨operand, hoperand⟩, hfree⟩ | ⟨failure, hfailure, hrefuses, hreports⟩ :=
    decides_compileOperand hop htarget
  · exact .inl ⟨⟨_, addClause_of_target conditions op htarget hop hoperand hkey⟩, hfree⟩
  · refine .inr ⟨failure, ?_, hrefuses, hreports⟩
    have hpredicate : predicate key c.operator given = .error failure := by
      unfold predicate Value.toOperator
      rw [hop]
      exact bind_eq_error_iff.mpr (.inr ⟨op, rfl, bind_eq_error_iff.mpr (.inl hfailure)⟩)
    exact bind_eq_error_iff.mpr (.inr ⟨_, htarget, bind_eq_error_iff.mpr (.inl hpredicate)⟩)

/-! ### Lists of clauses -/

variable {clauses : List Clause}

theorem compile_eq (b : Builder) (clauses : List Clause) :
    b.compile clauses =
      checkClauses clauses >>= fun _ => (b.ordered clauses).foldlM b.addClause [] := rfl

/-- Clauses that passed the checks are compiled unless the shape of an operand is wrong. -/
theorem foldlM_cases_of_passed (hnative : b.nativeKey.unhashableKind? = none)
    (hfields : ∀ c ∈ clauses, ¬ Stage.fields.Refuses c)
    (hoperators : ∀ c ∈ clauses, ¬ Stage.operators.Refuses c) :
    ((∃ conditions, (b.ordered clauses).foldlM b.addClause [] = .ok conditions) ∧
        ∀ c ∈ clauses, ¬ Stage.shapes.Refuses c) ∨
      (∃ c ∈ clauses, Stage.shapes.Refuses c) ∧
        ∃ failure, Stage.shapes.ReportsOn b clauses failure ∧
          (b.ordered clauses).foldlM b.addClause [] = .error failure := by
  have hdecides : ∀ c ∈ b.ordered clauses, ∀ conditions,
      Stage.shapes.Decides b c (b.addClause conditions c) := fun c hc conditions =>
    decides_addClause hnative (hfields c (mem_ordered_iff.mp hc))
      (hoperators c (mem_ordered_iff.mp hc)) conditions
  have hgood : ∀ c ∈ b.ordered clauses, ¬ Stage.shapes.Refuses c → ∀ conditions,
      ∃ conditions', b.addClause conditions c = .ok conditions' := by
    intro c hc hfree conditions
    obtain ⟨hok, -⟩ | ⟨_, -, hrefuses, -⟩ := hdecides c hc conditions
    · exact hok
    · exact absurd hrefuses hfree
  have hbad : ∀ c ∈ b.ordered clauses, ¬ ¬ Stage.shapes.Refuses c → ∀ conditions,
      ∃ failure, b.addClause conditions c = .error failure := by
    intro c hc hrefused conditions
    obtain ⟨-, hfree⟩ | ⟨failure, herror, -⟩ := hdecides c hc conditions
    · exact absurd hfree hrefused
    · exact ⟨failure, herror⟩
  -- Whether a clause is refused does not depend on the conditions that it is added to.
  obtain ⟨hall, hok⟩ | ⟨c, hc, hrefused, conditions, failure, hfailure, herror⟩ :=
    foldlM_cases hgood hbad []
  · exact .inl ⟨hok, fun c hc => hall c (mem_ordered_iff.mpr hc)⟩
  · obtain ⟨⟨_, hok⟩, -⟩ | ⟨_, hfailure', hrefuses, hreports⟩ := hdecides c hc conditions
    · cases hfailure.symm.trans hok
    · cases hfailure.symm.trans hfailure'
      have hmem := mem_ordered_iff.mp hc
      obtain ⟨before, after, hsplit⟩ := List.append_of_mem hmem
      exact .inr ⟨⟨c, hmem, hrefuses⟩, failure,
        ⟨before, c, after, hsplit, hrefuses, hreports, fun hne => absurd rfl hne⟩, herror⟩

/-- Clauses pass the first three stages, or are refused by the first one that refuses any of
them. -/
theorem checkClauses_cases (b : Builder) (clauses : List Clause) :
    (checkClauses clauses = .ok () ∧
        ∀ stage ∈ Stage.shapes.earlier, ∀ c ∈ clauses, ¬ stage.Refuses c) ∨
      ∃ stage : Stage, stage.IsFirst clauses ∧
        ∃ failure, stage.ReportsOn b clauses failure ∧ checkClauses clauses = .error failure := by
  unfold checkClauses
  rcases Stage.forM_cases_of_decides (Stage.decides_checkOperand b) clauses with
    ⟨hoperands, hfree⟩ | ⟨hrefused, failure, hreports, herror⟩
  · rw [hoperands]
    rcases Stage.forM_cases_of_decides (Stage.decides_checkFieldName b) clauses with
      ⟨hfields, hnamed⟩ | ⟨hrefused, failure, hreports, herror⟩
    · rw [hfields]
      rcases Stage.forM_cases_of_decides (Stage.decides_checkOperator b) clauses with
        ⟨hoperators, hknown⟩ | ⟨hrefused, failure, hreports, herror⟩
      · exact .inl ⟨hoperators, by simpa [Stage.earlier] using ⟨hfree, hnamed, hknown⟩⟩
      · exact .inr ⟨.operators, ⟨hrefused, by simpa [Stage.earlier] using ⟨hfree, hnamed⟩⟩,
          failure, hreports, herror⟩
    · refine .inr ⟨.fields, ⟨hrefused, by simpa [Stage.earlier] using hfree⟩, failure, hreports, ?_⟩
      exact bind_eq_error_iff.mpr (.inr ⟨(), rfl, bind_eq_error_iff.mpr (.inl herror)⟩)
  · exact .inr ⟨.operands, ⟨hrefused, by simp [Stage.earlier]⟩, failure, hreports,
      bind_eq_error_iff.mpr (.inl herror)⟩

/-- Clauses are compiled, or refused by the first stage that refuses any of them. -/
theorem compile_cases (hnative : b.nativeKey.unhashableKind? = none) (clauses : List Clause) :
    ((∃ conditions, b.compile clauses = .ok conditions) ∧
        ∀ stage : Stage, ∀ c ∈ clauses, ¬ stage.Refuses c) ∨
      ∃ stage : Stage, stage.IsFirst clauses ∧
        ∃ failure, stage.ReportsOn b clauses failure ∧ b.compile clauses = .error failure := by
  rw [compile_eq]
  obtain ⟨hchecks, hpassed⟩ | ⟨stage, hfirst, failure, hreports, herror⟩ :=
    checkClauses_cases b clauses
  · rw [hchecks]
    obtain ⟨hok, hshaped⟩ | ⟨hrefused, failure, hreports, herror⟩ :=
      foldlM_cases_of_passed hnative (hpassed .fields (by decide)) (hpassed .operators (by decide))
    · refine .inl ⟨hok, fun stage => ?_⟩
      by_cases hlast : stage = .shapes
      · exact hlast ▸ hshaped
      · refine hpassed stage ?_
        cases stage <;> simp [Stage.earlier] at hlast ⊢
    · exact .inr ⟨.shapes, ⟨hrefused, hpassed⟩, failure, hreports, herror⟩
  · exact .inr ⟨stage, hfirst, failure, hreports, bind_eq_error_iff.mpr (.inl herror)⟩

/-- What becomes of a value that lists clauses: it is compiled, or a stage refuses it. -/
def verdict (b : Builder) (filters : Value) : Except (Option Stage) Unit :=
  ((b.build filters).mapError Failure.stage?).map fun _ => ()

variable {filters : Value} {items : List Value}

theorem build_eq_compile (hfilters : filters.elements = .ok items)
    (hclauses : items.mapM Clause.ofValue = .ok clauses) :
    b.build filters = (b.compile clauses).map fun entries => { conditions := .map entries } := by
  unfold build
  rw [hfilters]
  show (items.mapM Clause.ofValue >>= _) = _
  rw [hclauses]
  show (b.compile clauses >>= _) = _
  cases b.compile clauses <;> rfl

theorem build_of_isFirst (hnative : b.nativeKey.unhashableKind? = none)
    (hfilters : filters.elements = .ok items)
    (hclauses : items.mapM Clause.ofValue = .ok clauses) {stage : Stage}
    (hfirst : stage.IsFirst clauses) :
    ∃ failure, b.build filters = .error failure ∧ stage.ReportsOn b clauses failure := by
  rw [build_eq_compile hfilters hclauses]
  obtain ⟨-, hpassed⟩ | ⟨other, hother, failure, hreports, herror⟩ := compile_cases hnative clauses
  · obtain ⟨c, hc, hrefuses⟩ := hfirst.refuses
    exact absurd hrefuses (hpassed stage c hc)
  · obtain rfl := hfirst.unique hother
    exact ⟨failure, by rw [herror]; rfl, hreports⟩

theorem build_of_passed (hnative : b.nativeKey.unhashableKind? = none)
    (hfilters : filters.elements = .ok items)
    (hclauses : items.mapM Clause.ofValue = .ok clauses)
    (hpassed : ∀ stage : Stage, ∀ c ∈ clauses, ¬ stage.Refuses c) :
    ∃ e, b.build filters = .ok e := by
  rw [build_eq_compile hfilters hclauses]
  obtain ⟨⟨conditions, hok⟩, -⟩ | ⟨stage, ⟨⟨c, hc, hrefuses⟩, -⟩, -⟩ := compile_cases hnative clauses
  · exact ⟨_, by rw [hok]; rfl⟩
  · exact absurd hrefuses (hpassed stage c hc)

section Reordered

variable (hnative : b.nativeKey.unhashableKind? = none) {filters' : Value} {items' : List Value}
  {clauses' : List Clause} (hfilters : filters.elements = .ok items)
  (hclauses : items.mapM Clause.ofValue = .ok clauses) (hfilters' : filters'.elements = .ok items')
  (hclauses' : items'.mapM Clause.ofValue = .ok clauses') (hperm : clauses'.Perm clauses)

include hnative hfilters hclauses hfilters' hclauses' hperm

/-- Clauses are compiled, or the same stage refuses them, in whatever order they are. -/
theorem build_cases_of_perm :
    (∃ e e', b.build filters = .ok e ∧ b.build filters' = .ok e') ∨
      ∃ (stage : Stage) (failure failure' : Failure), stage.IsFirst clauses ∧
        b.build filters = .error failure ∧ stage.ReportsOn b clauses failure ∧
        b.build filters' = .error failure' ∧ stage.ReportsOn b clauses' failure' := by
  obtain ⟨-, hpassed⟩ | ⟨stage, hfirst, -⟩ := compile_cases hnative clauses
  · obtain ⟨e, he⟩ := build_of_passed hnative hfilters hclauses hpassed
    obtain ⟨e', he'⟩ := build_of_passed hnative hfilters' hclauses' fun stage c hc =>
      hpassed stage c (hperm.mem_iff.mp hc)
    exact .inl ⟨e, e', he, he'⟩
  · obtain ⟨failure, herror, hreports⟩ := build_of_isFirst hnative hfilters hclauses hfirst
    obtain ⟨failure', herror', hreports'⟩ :=
      build_of_isFirst hnative hfilters' hclauses' (hfirst.perm hperm)
    exact .inr ⟨stage, failure, failure', hfirst, herror, hreports, herror', hreports'⟩

theorem isOk_build_of_perm : (b.build filters').isOk = (b.build filters).isOk := by
  obtain ⟨e, e', he, he'⟩ | ⟨_, failure, failure', -, herror, -, herror', -⟩ :=
    build_cases_of_perm hnative hfilters hclauses hfilters' hclauses' hperm
  · rw [he, he']
    rfl
  · rw [herror, herror']
    rfl

theorem verdict_of_perm (hshown : b.Shows clauses) : b.verdict filters' = b.verdict filters := by
  have hshown' : b.Shows clauses' :=
    ⟨hshown.nativeKey, fun c hc => hshown.clauses c (hperm.mem_iff.mp hc)⟩
  unfold verdict
  obtain ⟨e, e', he, he'⟩ | ⟨stage, failure, failure', -, herror, hreports, herror', hreports'⟩ :=
    build_cases_of_perm hnative hfilters hclauses hfilters' hclauses' hperm
  · rw [he, he']
    rfl
  · rw [herror, herror']
    show Except.error failure'.stage? = Except.error failure.stage?
    rw [hreports.stage?_eq hshown, hreports'.stage?_eq hshown']

end Reordered

end Builder

def Value.IsClause (v : Value) : Prop :=
  (∃ entries, v = .map entries) ∨ ∃ field operator operand, v = .clause field operator operand

theorem Value.IsClause.exists_ofValue {v : Value} (h : v.IsClause) :
    ∃ c, Clause.ofValue v = .ok c := by
  obtain ⟨entries, rfl⟩ | ⟨field, operator, operand, rfl⟩ := h
  · exact ⟨_, rfl⟩
  · exact ⟨_, rfl⟩

namespace Builder

variable {b : Builder} {filters : Value} {items : List Value}

/-- Clauses with contents of any kind are refused in stages. The first stage that refuses any of
them gives the failure, which is about the first clause that it refuses, or about one with a wrong
shape; clauses that no stage refuses are compiled. The failure is of the kind of the stage, unless
it keeps a text from being made that the refusal would have shown. So the order of the clauses
decides neither whether they are compiled nor in which stage they are refused. -/
theorem build_refuses_in_stages (hnative : b.nativeKey.unhashableKind? = none)
    (hfilters : filters.elements = .ok items) (hitems : ∀ v ∈ items, v.IsClause) :
    ∃ clauses, items.mapM Clause.ofValue = .ok clauses ∧
      (∀ stage : Stage, stage.IsFirst clauses → ∃ failure, b.build filters = .error failure ∧
        stage.ReportsOn b clauses failure ∧ (failure.kind = stage.kind ∨ failure.OfText) ∧
        (b.Shows clauses → failure.kind = stage.kind)) ∧
      ((∀ stage : Stage, ∀ c ∈ clauses, ¬ stage.Refuses c) → ∃ e, b.build filters = .ok e) ∧
      ∀ filters' items', items'.Perm items → filters'.elements = .ok items' →
        (b.build filters').isOk = (b.build filters).isOk ∧
        (∃ clauses', items'.mapM Clause.ofValue = .ok clauses' ∧
          ∀ stage : Stage, stage.IsFirst clauses' ↔ stage.IsFirst clauses) ∧
        (b.Shows clauses → b.verdict filters' = b.verdict filters) := by
  obtain ⟨clauses, hclauses⟩ := exists_mapM_eq_ok fun v hv => (hitems v hv).exists_ofValue
  refine ⟨clauses, hclauses, fun stage hfirst => ?_,
    build_of_passed hnative hfilters hclauses, fun filters' items' hperm hfilters' => ?_⟩
  · obtain ⟨failure, herror, hreports⟩ := build_of_isFirst hnative hfilters hclauses hfirst
    exact ⟨failure, herror, hreports, hreports.stage?_or_ofText.imp_left Failure.kind_of_stage?,
      fun hshown => Failure.kind_of_stage? (hreports.stage?_eq hshown)⟩
  · obtain ⟨clauses', hclauses', hsame⟩ :=
      List.perm_comp_forall₂ hperm (mapM_eq_ok_iff.mp hclauses)
    have hclauses' := mapM_eq_ok_iff.mpr hclauses'
    exact ⟨isOk_build_of_perm hnative hfilters hclauses hfilters' hclauses' hsame,
      ⟨clauses', hclauses', fun stage => ⟨(·.perm hsame.symm), (·.perm hsame)⟩⟩,
      verdict_of_perm hnative hfilters hclauses hfilters' hclauses' hsame⟩

/-- A text where a list is asked for, an operator that is not in the table, and a reserved field
behind both: the field decides, and it does so from the front as well. -/
theorem build_refuses_in_stages_mixed :
    let shape : Value := .map [(.text "field", .text "a"), (.text "operator", .text "in"),
      (.text "value", .text "x")]
    let operator : Value := .clause (.text "b") (.text "between") (.list [.int 1, .int 2])
    let field : Value := .map [(.text "field", .text "c$"), (.text "operator", .text "=")]
    let b : Builder := {}
    b.nativeKey.unhashableKind? = none ∧
      (∃ failure, b.build (.list [shape, operator, field]) = .error failure ∧
        failure.kind = .fieldName) ∧
      b.verdict (.list [field, operator, shape]) = b.verdict (.list [shape, operator, field]) := by
  intro shape operator field b
  have hitems : ∀ v ∈ [shape, operator, field], v.IsClause := by
    simp [shape, operator, field, Value.IsClause]
  have hclauses : [shape, operator, field].mapM Clause.ofValue =
      .ok [⟨.text "a", .text "in", .text "x"⟩,
        ⟨.text "b", .text "between", .list [.int 1, .int 2]⟩, ⟨.text "c$", .text "=", .null⟩] :=
    mapM_eq_ok_iff.mpr (.cons (by simp [shape, Clause.ofValue, Value.entry, Value.lookup?]; rfl)
      (.cons rfl (.cons (by simp [field, Clause.ofValue, Value.entry, Value.lookup?]; rfl) .nil)))
  have hlist : Value.ReservedFree (.list [.int 1, .int 2]) :=
    Value.refusal?_eq_none_iff.mp (Value.refusal?_list (by simp; exact ⟨rfl, rfl⟩))
  have htext : Value.ReservedFree (.text "x") := Value.refusal?_eq_none_iff.mp rfl
  have hnull : Value.ReservedFree .null := Value.refusal?_eq_none_iff.mp rfl
  have hfields : Stage.fields.IsFirst [⟨.text "a", .text "in", .text "x"⟩,
      ⟨.text "b", .text "between", .list [.int 1, .int 2]⟩, ⟨.text "c$", .text "=", .null⟩] := by
    refine ⟨⟨⟨.text "c$", .text "=", .null⟩, by simp, ?_⟩, ?_⟩
    · rintro ⟨_, hname, -, hfree⟩
      cases hname
      exact hfree (by decide)
    · simpa [Stage.earlier, Stage.Refuses] using ⟨htext, hlist, hnull⟩
  have hshown : b.Shows [⟨.text "a", .text "in", .text "x"⟩,
      ⟨.text "b", .text "between", .list [.int 1, .int 2]⟩, ⟨.text "c$", .text "=", .null⟩] := by
    have hclause {field operator : String} {operand : Value} (hfree : operand.ReservedFree) :
        Clause.IsShown ⟨.text field, .text operator, operand⟩ :=
      ⟨⟨_, rfl⟩, ⟨_, rfl⟩, fun failure hkey => by cases hfree.of_hasKey hkey⟩
    exact ⟨⟨_, rfl⟩, by simpa using ⟨hclause htext, hclause hlist, hclause hnull⟩⟩
  obtain ⟨clauses, hclauses', hfirst, -, hperm⟩ :=
    build_refuses_in_stages (b := b) rfl
      (rfl : (Value.list [shape, operator, field]).elements = .ok _) hitems
  obtain rfl := Except.ok.inj (hclauses.symm.trans hclauses')
  obtain ⟨failure, herror, -, -, hkind⟩ := hfirst .fields hfields
  exact ⟨rfl, ⟨failure, herror, hkind hshown⟩,
    (hperm _ _ (List.reverse_perm _) rfl).2.2 hshown⟩

/-- A field that is no name and cannot be shown is refused for the text of it, as an unusable value
and not as an unusable name. -/
theorem build_refuses_unshown :
    let field : Value := .int Value.digitBound
    let clauses : List Clause := [⟨field, .text "=", .int 1⟩]
    Stage.fields.IsFirst clauses ∧
      ({} : Builder).build (.list (clauses.map Clause.toValue)) = .error .integerTooLong ∧
      Failure.kind .integerTooLong ≠ Stage.fields.kind := by
  intro field clauses
  have hone : Value.ReservedFree (.int 1) := Value.refusal?_eq_none_iff.mp rfl
  refine ⟨⟨⟨_, List.mem_singleton_self _, ?_⟩, ?_⟩, eq_error_of_error? (by decide +kernel),
    by decide⟩
  · rintro ⟨_, hname, -⟩
    cases hname
  · simpa [Stage.earlier, Stage.Refuses, clauses] using hone

end Builder

end DocFilter
