import DocFilter.Proofs.Store.Records

/-!
What becomes of a record when its identifier is published.

Of the entries of a record, those under its native key and under the public name are replaced by one
entry in front, the public name with the text of the native key, if it can be shown; the others
follow as they were (`publishKey_of_some`). So the result depends on what the native key is and on
the other entries alone: neither the place of the native key nor an entry that the record has under
the public name of its own make a difference, and since no entry under the native key is left, a
second time changes nothing (`publishKey_loses_nothing`).
-/

namespace DocFilter

namespace Value

variable {native shownName : String} {entries : List (Value × Value)}

/-- The entries that are under neither of two names, in order. -/
def entriesBeside (native shownName : String) (entries : List (Value × Value)) :
    List (Value × Value) :=
  entries.filter fun entry => !entry.1.isText native && !entry.1.isText shownName

theorem eraseKey_eraseKey (native shownName : String) (entries : List (Value × Value)) :
    eraseKey (eraseKey entries (.text native)) (.text shownName) =
      entriesBeside native shownName entries := by
  simp only [eraseKey, entriesBeside, List.filter_filter, equal_text_eq_isText, Bool.and_comm]

theorem ne_of_mem_entriesBeside {entry : Value × Value}
    (h : entry ∈ entriesBeside native shownName entries) :
    entry.1 ≠ .text native ∧ entry.1 ≠ .text shownName := by
  have hbeside := (List.mem_filter.mp h).2
  constructor
  · rintro hkey
    simp [hkey, isText] at hbeside
  · rintro hkey
    simp [hkey, isText] at hbeside

/-- Two records hold the same native key, and differ at most in the place of it and in an entry of
their own under the public name. -/
structure DifferInKeys (native shownName : String) (entries other : List (Value × Value)) : Prop where
  key : ∃ key, lookup? entries (.text native) = some key ∧ lookup? other (.text native) = some key
  beside : entriesBeside native shownName entries = entriesBeside native shownName other

end Value

open Value

variable {native shownName : String}

theorem publishKey_of_some {entries : List (Value × Value)} {key : Value}
    (h : lookup? entries (.text native) = some key) :
    publishKey (.text native) (.text shownName) (.map entries) = key.shown.map fun shown =>
      .map ((.text shownName, .text shown) :: entriesBeside native shownName entries) := by
  rw [publishKey_of_lookup rfl rfl h, eraseKey_eraseKey]

theorem publishKey_of_none {entries : List (Value × Value)}
    (h : lookup? entries (.text native) = none) :
    publishKey (.text native) (.text shownName) (.map entries) = .ok (.map entries) := by
  simp only [publishKey, h]
  rfl

theorem key_ne_native (hne : native ≠ shownName) (shown : String) (entries : List (Value × Value)) :
    ∀ entry ∈ (.text shownName, .text shown) :: entriesBeside native shownName entries,
      entry.1 ≠ .text native := by
  intro entry hentry
  obtain rfl | hbeside := List.mem_cons.mp hentry
  · exact fun hkey => hne (text.inj hkey).symm
  · exact (ne_of_mem_entriesBeside hbeside).1

/-- The identifier of a record is published under a name in front of the record, and apart from the
two entries under the names of the identifier, all entries are there in their order; an identifier
that cannot be shown fails as its text does, and nothing happens to a record without an identifier.
A second time changes nothing, and records that differ in the place of the native key and in own
entries under the public name become one. -/
theorem publishKey_loses_nothing (hne : native ≠ shownName) (entries : List (Value × Value)) :
    (∀ key text, lookup? entries (.text native) = some key → key.shown = .ok text →
      ∃ shown,
        publishKey (.text native) (.text shownName) (.map entries) = .ok (.map shown) ∧
        shown.head? = some (.text shownName, .text text) ∧
        shown.tail = entries.filter (fun entry =>
          !entry.1.isText native && !entry.1.isText shownName) ∧
        ∀ entry ∈ shown, entry.1 ≠ .text native) ∧
    (∀ key failure, lookup? entries (.text native) = some key → key.shown = .error failure →
      publishKey (.text native) (.text shownName) (.map entries) = .error failure) ∧
    (lookup? entries (.text native) = none →
      publishKey (.text native) (.text shownName) (.map entries) = .ok (.map entries)) ∧
    (∀ record, publishKey (.text native) (.text shownName) (.map entries) = .ok record →
      publishKey (.text native) (.text shownName) record = .ok record) ∧
    ∀ other, DifferInKeys native shownName entries other →
      publishKey (.text native) (.text shownName) (.map other) =
        publishKey (.text native) (.text shownName) (.map entries) := by
  refine ⟨fun key text hkey hshown => ?_, fun key failure hkey hshown => ?_, publishKey_of_none,
    fun record hrecord => ?_, fun other hother => ?_⟩
  · refine ⟨_, ?_, rfl, rfl, key_ne_native hne _ _⟩
    rw [publishKey_of_some hkey, hshown]
    rfl
  · rw [publishKey_of_some hkey, hshown]
    rfl
  · cases hkey : lookup? entries (.text native) with
    | none =>
        rw [publishKey_of_none hkey] at hrecord
        cases hrecord
        exact publishKey_of_none hkey
    | some key =>
        rw [publishKey_of_some hkey] at hrecord
        obtain ⟨shown, -, rfl⟩ := Outcome.map_eq_ok_iff.mp hrecord
        exact publishKey_of_none (lookup?_eq_none_of_forall (key_ne_native hne _ _))
  · obtain ⟨key, hkey, hsame⟩ := hother.key
    rw [publishKey_of_some hsame, publishKey_of_some hkey, hother.beside]

/-- The native key in the middle or at the end, with an own entry in front or without one. -/
theorem publishKey_loses_nothing_moved :
    let entries : List (Value × Value) :=
      [(.text "b", .null), (.text "_id", .int 5), (.int 1, .list [])]
    let other : List (Value × Value) :=
      [(.text "id", .int 9), (.text "b", .null), (.int 1, .list []), (.text "_id", .int 5)]
    let shown : Value := .map [(.text "id", .text "5"), (.text "b", .null), (.int 1, .list [])]
    "_id" ≠ "id" ∧ publishKey (.text "_id") (.text "id") (.map entries) = .ok shown ∧
      publishKey (.text "_id") (.text "id") (.map other) = .ok shown ∧
      publishKey (.text "_id") (.text "id") shown = .ok shown := by
  intro entries other shown
  obtain ⟨hpublished, -, -, hagain, hother⟩ :=
    publishKey_loses_nothing (by decide : "_id" ≠ "id") entries
  have hkey : lookup? entries (.text "_id") = some (.int 5) := by simp [entries, lookup?]
  have hkey' : lookup? other (.text "_id") = some (.int 5) := by simp [other, lookup?, equal]
  have hdiffer : DifferInKeys "_id" "id" entries other := ⟨⟨.int 5, hkey, hkey'⟩, rfl⟩
  have hfive : (Value.int 5).shown = .ok "5" := Outcome.eq_ok_of_toOption (by decide +kernel)
  obtain ⟨published, hshown, hhead, htail, -⟩ := hpublished (.int 5) "5" hkey hfive
  obtain rfl : published = [(.text "id", .text "5"), (.text "b", .null), (.int 1, .list [])] := by
    cases published with
    | nil => cases hhead
    | cons first rest =>
        obtain rfl := Option.some.inj hhead
        exact congrArg _ htail
  exact ⟨by decide, hshown, (hother other hdiffer).trans hshown, hagain _ hshown⟩

/-- An identifier with too many digits has no text to be published. -/
theorem publishKey_refuses_unshown :
    publishKey (.text "_id") (.text "id") (.map [(.text "_id", .int Value.digitBound)]) =
      .error .integerTooLong :=
  Outcome.eq_error_of_error? (by decide +kernel)

end DocFilter
