import DocFilter.Proofs.Store.History
import Mathlib.Data.List.TakeWhile

/-!
Stored documents, and the paths that lead into them.

A path of one label leads to the member under that label (`locate_member`). The members of a stored
document come from the entries of a mapping, the key left out (`storedBody_map`); where all keys are
texts, each other entry is found as before (`lookup?_eraseKey`).
-/

namespace DocFilter

open Json Outcome

/-! ### Paths of one label -/

namespace Json

theorem takeLabel?_eq_some {label : List Char} (hne : label ≠ [])
    (h : ∀ c ∈ label, c ≠ '.' ∧ c ≠ '[' ∧ c ≠ '"') : takeLabel? label = some (label, []) := by
  have hinside : ∀ c ∈ label, (decide (c ≠ '.') && decide (c ≠ '[')) = true := by
    intro c hc
    simp [(h c hc).1, (h c hc).2.1]
  have htake : label.takeWhile (fun c => decide (c ≠ '.') && decide (c ≠ '[')) = label :=
    List.takeWhile_eq_self_iff.mpr hinside
  have hdrop : label.dropWhile (fun c => decide (c ≠ '.') && decide (c ≠ '[')) = [] :=
    List.dropWhile_eq_nil_iff.mpr hinside
  unfold takeLabel?
  split
  · exact absurd rfl (h '"' (by simp)).2.2
  · simp only [htake, hdrop, if_neg hne]

theorem locate_member {label : List Char} (hne : label ≠ [])
    (h : ∀ c ∈ label, c ≠ '.' ∧ c ≠ '[' ∧ c ≠ '"') (members : List (List Char × Json)) :
    locate ('.' :: label) (object members) = .ok (members.lookup label) := by
  rw [locate, List.length_cons, walk, takeLabel?_eq_some hne h]
  simp only [member?]
  cases members.lookup label with
  | none => rfl
  | some value => simp [walk]

end Json

/-! ### Members of stored documents -/

namespace Value

variable {entries : List (Value × Value)}

def TextKeys (entries : List (Value × Value)) : Prop := ∀ entry ∈ entries, ∃ s, entry.1 = .text s

theorem lookup?_cons_text (label s : String) (v : Value) (entries : List (Value × Value)) :
    lookup? ((.text s, v) :: entries) (.text label) =
      if label = s then some v else lookup? entries (.text label) := by
  unfold lookup?
  rw [List.find?_cons]
  simp only [equal_text]
  split_ifs with heq
  · simp [heq]
  · simp [beq_eq_false_iff_ne.mpr heq]

theorem textKeys_eraseKey (hkeys : TextKeys entries) (key : Value) :
    TextKeys (eraseKey entries key) :=
  fun entry hentry => hkeys entry (List.mem_of_mem_filter hentry)

theorem lookup?_eraseKey (hkeys : TextKeys entries) {label : String} (hlabel : label ≠ "_id") :
    lookup? (eraseKey entries keyName) (.text label) = lookup? entries (.text label) := by
  induction entries with
  | nil => rfl
  | cons entry rest ih =>
      obtain ⟨k, v⟩ := entry
      obtain ⟨⟨s, hs⟩, hrest⟩ := List.forall_mem_cons.mp hkeys
      obtain rfl : k = .text s := hs
      have hequal : (Value.text s).equal keyName = (s == "_id") := equal_text ..
      have hrest := ih hrest
      unfold eraseKey at hrest ⊢
      rw [List.filter_cons]
      simp only [hequal]
      by_cases heq : s = "_id"
      · rw [if_neg (by simp [heq]), hrest, lookup?_cons_text, if_neg (by rw [heq]; exact hlabel)]
      · rw [if_pos (by simp [heq]), lookup?_cons_text, lookup?_cons_text, hrest]

theorem storedBody_map (entries : List (Value × Value)) :
    (Value.map entries).storedBody =
      (Value.map (eraseKey entries keyName)).storedJson.toOption.getD "" := by
  have hbody : ((Value.map entries).toEntries >>= fun entries =>
      (Value.map (eraseKey entries keyName)).storedJson) =
    (Value.map (eraseKey entries keyName)).storedJson := rfl
  unfold storedBody
  simp only [hbody]
  cases (Value.map (eraseKey entries keyName)).storedJson with
  | error failure => rfl
  | ok s => rfl

end Value

end DocFilter
