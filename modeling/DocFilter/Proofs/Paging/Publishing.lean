import DocFilter.Proofs.ObjectId
import DocFilter.Proofs.Store.Memberships
import DocFilter.Proofs.Store.Records
import DocFilter.Settings

/-!
The name under which a service shows identifiers, and the name under which its builder takes them.

A service shows the identifier of a record under its own public name (`publishKey_of_lookup`), while
a clause goes to the native key if it is on the public name of the builder. One builder is made with
the service and has the name of the service; another one may be handed over and keeps a name of its
own. Where the two names are one name, a clause on it with an identifier that was shown compiles to
equality of the native key with that identifier, unless a clause cannot be on such a name at all
(`shown_identifier_accepted`). Where they differ, the clause looks for the text of the identifier
under the name itself (`shown_identifier_refused`).
-/

namespace DocFilter

open Outcome

namespace Builder

variable {b : Builder} {field operator : Value}

theorem build_of_refused {failure : Failure} (s : String)
    (h : checkFieldName field = .error failure) :
    b.build (.list [.clause field operator (.text s)]) = .error failure := by
  have hchecked : checkOperand (.text s) = .ok () := by
    rw [checkOperand, Value.refusal?_of_atom rfl]
  have hchecks : checkClauses [⟨field, operator, .text s⟩] = .error failure := by
    simp only [checkClauses, List.forM, hchecked, h]
    rfl
  have hcompile : b.compile [⟨field, operator, .text s⟩] = .error failure :=
    bind_eq_error_iff.mpr (.inl hchecks)
  exact bind_eq_error_iff.mpr (.inr ⟨_, rfl, bind_eq_error_iff.mpr (.inr ⟨_, rfl,
    bind_eq_error_iff.mpr (.inl hcompile)⟩)⟩)

/-- Equality with the text of an identifier on the public name of a builder. -/
theorem build_identifier (id : ObjectId) (hnative : checkKey b.nativeKey = .ok ())
    (hoperator : operator.operator? = some .eq) (hfield : checkFieldName b.publicKey = .ok ()) :
    b.build (.list [.clause b.publicKey operator (.text id.text)]) =
      .ok { conditions := .map [(b.nativeKey, .map [(.text "$eq", .objectId id)])] } := by
  have hchecked : checkOperand (.text id.text) = .ok () := by
    rw [checkOperand, Value.refusal?_of_atom rfl]
  have hpublic : b.publicKey.equal b.publicKey = true := by
    cases hname : b.publicKey with
    | text name => exact Value.equal_text_iff.mpr rfl
    | _ => cases (hname ▸ hfield :)
  have hhashable : b.nativeKey.unhashableKind? = none := by
    unfold checkKey at hnative
    split at hnative
    · cases hnative
    · assumption
  exact build_of_single .eq hchecked hfield hoperator
    (target_of_ofText? hoperator rfl hpublic (ObjectId.ofText?_text id)) rfl hhashable

end Builder

namespace Service

variable {tableName publicKey limit : Value} {builder : Option Builder} {s : Service}

/-- A service has the names that it was made with, and unless it was told to return records as they
are, it shows their identifiers. -/
theorem make_eq_ok (h : make tableName publicKey builder false limit = .ok s) :
    s.publicKey = publicKey ∧ s.builder = builder.getD { publicKey } ∧ s.mapper? = none := by
  unfold make at h
  split at h
  · split at h
    · cases h
      exact ⟨rfl, rfl, rfl⟩
    · cases h
  · cases h

/-- What a service shows as the identifier of a record, its builder takes as the identifier of that
record: a clause with it, on the name that it is shown under, demands the native key to be the
identifier. Only a name that no clause may have is refused, in the way all such names are. A builder
that is made with the service knows its public name; one that is handed over has to have the
same. -/
theorem shown_identifier_accepted {operator : Value} {entries : List (Value × Value)} {id : ObjectId}
    (hmake : make tableName publicKey builder false limit = .ok s)
    (hname : ∀ b, builder = some b → b.publicKey = publicKey)
    (hpublic : checkKey publicKey = .ok ()) (hnative : checkKey s.builder.nativeKey = .ok ())
    (hoperator : operator.operator? = some .eq)
    (hheld : Value.lookup? entries s.builder.nativeKey = some (.objectId id)) :
    s.present (.map entries) = .ok (.map ((publicKey, .text id.text) ::
      Value.eraseKey (Value.eraseKey entries s.builder.nativeKey) publicKey)) ∧
    s.builder.build (.list [.clause publicKey operator (.text id.text)]) =
      (checkFieldName publicKey).map fun _ =>
        { conditions := .map [(s.builder.nativeKey, .map [(.text "$eq", .objectId id)])] } := by
  obtain ⟨hservice, hbuilder, hmapper⟩ := make_eq_ok hmake
  have hsame : s.builder.publicKey = publicKey := by
    rw [hbuilder]
    cases builder with
    | none => rfl
    | some b => exact hname b rfl
  constructor
  · rw [present, hmapper, hservice]
    rw [publishKey_of_lookup hnative hpublic hheld, Value.shown_objectId]
    rfl
  · cases hfield : checkFieldName publicKey with
    | error failure => exact Builder.build_of_refused _ hfield
    | ok _ =>
        rw [← hsame] at hfield ⊢
        exact Builder.build_identifier id hnative hoperator hfield

/-- A service whose name is read from the environment, and a record that has a field of this
name. -/
theorem shown_identifier_accepted_uuid :
    let id : ObjectId :=
      ⟨[0x50, 0x7f, 0x1f, 0x77, 0xbc, 0xf8, 0x6c, 0xd7, 0x99, 0x43, 0x90, 0x11], rfl⟩
    let shown : Value := .text "507f1f77bcf86cd799439011"
    ∃ settings s,
      Environment.serviceSettings [("DOCSTORE_QUERY_PK_NAME", "uuid")] = .ok settings ∧
      make .null (.text settings.publicKey) none false (.int settings.defaultLimit) = .ok s ∧
      s.present (.map [(.text "uuid", .int 7), (keyName, .objectId id), (.text "n", .int 1)]) =
        .ok (.map [(.text "uuid", shown), (.text "n", .int 1)]) ∧
      s.builder.build (.list [.clause (.text "uuid") (.text "=") shown]) =
        .ok { conditions := .map [(keyName, .map [(.text "$eq", .objectId id)])] } := by
  intro id shown
  have hshown : shown = .text id.text := congrArg Value.text (by decide +kernel)
  let s : Service := ⟨.null, .text "uuid", { publicKey := .text "uuid" }, none, 10, by decide⟩
  have hmake : make .null (.text "uuid") none false (.int 10) = .ok s := rfl
  have hheld : Value.lookup? [(.text "uuid", .int 7), (keyName, .objectId id), (.text "n", .int 1)]
      s.builder.nativeKey = some (.objectId id) := by
    simp [Value.lookup?, keyName, s]
  have hoperator : (Value.text "=").operator? = some .eq := by decide +kernel
  obtain ⟨hpresent, hbuild⟩ :=
    shown_identifier_accepted hmake (by simp) rfl rfl hoperator hheld
  refine ⟨⟨10, "uuid"⟩, s, by decide +kernel, hmake, ?_, hshown ▸ hbuild⟩
  rw [hpresent, hshown]
  simp [Value.eraseKey, keyName, s]

/-- A builder that was handed over takes identifiers under another name than the service shows them,
and a service may be made with a name that no clause can be on. -/
theorem shown_identifier_refused :
    let id : ObjectId :=
      ⟨[0x50, 0x7f, 0x1f, 0x77, 0xbc, 0xf8, 0x6c, 0xd7, 0x99, 0x43, 0x90, 0x11], rfl⟩
    let shown : Value := .text "507f1f77bcf86cd799439011"
    let record : Value := .map [(keyName, .objectId id)]
    (∃ s, make .null (.text "id") (some { publicKey := .text "uuid" }) false (.int 10) = .ok s ∧
      s.present record = .ok (.map [(.text "id", shown)]) ∧
      s.builder.build (.list [.clause (.text "id") (.text "=") shown]) =
        .ok { conditions := .map [(.text "id", .map [(.text "$eq", shown)])] }) ∧
    ∃ settings s,
      Environment.serviceSettings [("DOCSTORE_QUERY_PK_NAME", "")] = .ok settings ∧
      make .null (.text settings.publicKey) none false (.int settings.defaultLimit) = .ok s ∧
      s.present record = .ok (.map [(.text "", shown)]) ∧
      s.builder.build (.list [.clause (.text "") (.text "=") shown]) =
        .error (.badFieldName "\x27\x27") := by
  intro id shown record
  have hshown : shown = .text id.text := congrArg Value.text (by decide +kernel)
  have hpresent (name : String) : publishKey keyName (.text name) record =
      .ok (.map [(.text name, shown)]) := by
    rw [hshown]
    exact publishKey_cons name (.objectId id) []
  let named (name : String) (b : Builder) : Service := ⟨.null, .text name, b, none, 10, by decide⟩
  refine ⟨⟨named "id" { publicKey := .text "uuid" }, rfl, hpresent "id", ?_⟩,
    ⟨10, ""⟩, named "" { publicKey := .text "" }, by decide +kernel, rfl, hpresent "", ?_⟩
  · exact Builder.build_atom (.inl (rfl : Operator.eq = .eq)) rfl rfl rfl (by simp [named])
  · exact Builder.build_of_refused _ (by decide +kernel)

end Service

end DocFilter
