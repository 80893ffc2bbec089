import DocFilter.Proofs.Json.Literals

/-!
Printed trees read back.

A tree is readable when its texts are written ones, its numbers have the form of literals, and its
special numbers are those that JSON has no literal for. A readable tree that is printed with any
blanks after its commas and colons is read back as it is (`ofChars?_print`). The induction carries
what may follow a value, which is nothing or one of the marks that end it, and the fuel: two calls
for each printed character.
-/

namespace DocFilter.Json

/-! ### What may follow -/

/-- What follows does not go on with a literal of which some digits have been read. -/
def EndsDigits (rest : List Char) : Prop := ∀ c ∈ rest.head?, c.isDigit = false

theorem endsDigits_nil : EndsDigits [] := by simp [EndsDigits]

theorem takeWhile_digits {digits rest : List Char} (hdigits : ∀ c ∈ digits, c.isDigit = true)
    (hrest : EndsDigits rest) :
    (digits ++ rest).takeWhile Char.isDigit = digits ∧
      (digits ++ rest).dropWhile Char.isDigit = rest := by
  rw [List.takeWhile_append_of_pos hdigits, List.dropWhile_append_of_pos hdigits]
  cases rest with
  | nil => simp
  | cons c rest => simp [hrest c rfl]

theorem readDigits?_append {digits rest : List Char} (hdigits : AreDigits digits)
    (hrest : EndsDigits rest) : readDigits? (digits ++ rest) = some (digits, rest) := by
  obtain ⟨htake, hdrop⟩ := takeWhile_digits hdigits.2 hrest
  unfold readDigits?
  simp only [htake, hdrop]
  rw [if_neg hdigits.1]

/-- What may follow a value: nothing, or a mark that ends it. -/
def Stops (rest : List Char) : Prop := ∀ c ∈ rest.head?, c = ',' ∨ c = ']' ∨ c = '\x7d'

theorem Stops.not_mem {rest : List Char} (h : Stops rest) {c : Char}
    (hc : c ≠ ',' ∧ c ≠ ']' ∧ c ≠ '\x7d') : rest.head? ≠ some c := by
  intro hhead
  obtain rfl | rfl | rfl := h c hhead
  · exact hc.1 rfl
  · exact hc.2.1 rfl
  · exact hc.2.2 rfl

theorem stops_cons {c : Char} {rest : List Char} (h : c = ',' ∨ c = ']' ∨ c = '\x7d') :
    Stops (c :: rest) := by
  intro d hd
  obtain rfl : c = d := by simpa using hd
  exact h

theorem Stops.endsDigits {rest : List Char} (h : Stops rest) : EndsDigits rest := by
  intro c hc
  obtain rfl | rfl | rfl := h c hc <;> rfl

theorem readExponent?_append {exponent rest : List Char} (hexponent : IsExponent exponent)
    (hrest : Stops rest) : readExponent? (exponent ++ rest) = some (exponent, rest) := by
  obtain rfl | ⟨sign, digits, hsign, hdigits, rfl⟩ := hexponent
  · cases rest with
    | nil => rfl
    | cons c rest =>
        have hne : ¬(c = 'e' ∨ c = 'E') := by
          rintro (rfl | rfl)
          · exact hrest.not_mem (by decide) rfl
          · exact hrest.not_mem (by decide) rfl
        rw [List.nil_append, readExponent?, if_neg hne]
  · have hread : readSign ['-', '+'] (sign :: (digits ++ rest)) = ([sign], digits ++ rest) := by
      obtain rfl | rfl := hsign <;> rfl
    simp [readExponent?, hread, readDigits?_append hdigits hrest.endsDigits]

theorem readFraction?_append {fraction rest : List Char} (hfraction : IsFraction fraction)
    (hpoint : rest.head? ≠ some '.') (hrest : EndsDigits rest) :
    readFraction? (fraction ++ rest) = some (fraction, rest) := by
  obtain rfl | ⟨digits, hdigits, rfl⟩ := hfraction
  · unfold readFraction?
    split
    · rename_i cs hcs
      rw [List.nil_append] at hcs
      exact absurd (by rw [hcs]; rfl) hpoint
    · rfl
  · simp [readFraction?, readDigits?_append hdigits hrest]

theorem IsExponent.endsDigits {exponent rest : List Char} (h : IsExponent exponent)
    (hrest : Stops rest) :
    EndsDigits (exponent ++ rest) ∧ (exponent ++ rest).head? ≠ some '.' := by
  obtain rfl | ⟨sign, digits, _, _, rfl⟩ := h
  · exact ⟨hrest.endsDigits, hrest.not_mem (by decide)⟩
  · simp [EndsDigits]

theorem IsFraction.endsDigits {fraction rest : List Char} (h : IsFraction fraction)
    (hrest : EndsDigits rest) : EndsDigits (fraction ++ rest) := by
  obtain rfl | ⟨digits, _, rfl⟩ := h
  · exact hrest
  · simp [EndsDigits]

theorem readNumber?_append {literal rest : List Char} (hliteral : IsLiteral literal)
    (hrest : Stops rest) : readNumber? (literal ++ rest) = some (literal, rest) := by
  obtain ⟨negative, _, ⟨whole, fraction, exponent, hwhole, hfraction, hexponent, rfl⟩, rfl⟩ := hliteral
  obtain ⟨hends, hpoint⟩ := hexponent.endsDigits hrest
  obtain ⟨c, cs, hcs, hdigit⟩ := hwhole.1.exists_cons
  have hsign : readSign ['-'] (signChars negative ++ (whole ++ (fraction ++ (exponent ++ rest)))) =
      (signChars negative, whole ++ (fraction ++ (exponent ++ rest))) := by
    cases negative with
    | true => rfl
    | false =>
        have hne : c ≠ '-' := by
          rintro rfl
          cases hdigit
        simp [signChars, hcs, readSign, hne]
  have hzero : ¬(whole.head? = some '0' ∧ whole.length ≠ 1) := fun h => h.2 (hwhole.2 h.1)
  simp only [List.append_assoc, readNumber?, hsign, bind, Option.bind,
    readDigits?_append hwhole.1 (hfraction.endsDigits hends), if_neg hzero,
    readFraction?_append hfraction hpoint hends, readExponent?_append hexponent hrest]

/-! ### Readable trees -/

/-- The characters are what some text is written as. -/
def IsWritten (escaped : List Char) : Prop := ∃ cs, escaped = escape cs

mutual

/-- The tree can be printed and read back. -/
def Readable : Json → Prop
  | null | bool _ => True
  | number literal => IsLiteral literal
  | special x => x.isFinite = false
  | text escaped => IsWritten escaped
  | array items => ReadableItems items
  | object members => ReadableMembers members

def ReadableItems : List Json → Prop
  | [] => True
  | item :: rest => Readable item ∧ ReadableItems rest

def ReadableMembers : List (List Char × Json) → Prop
  | [] => True
  | (key, value) :: rest => IsWritten key ∧ Readable value ∧ ReadableMembers rest

end

/-! ### Blanks -/

def AreBlank (gap : List Char) : Prop := ∀ c ∈ gap, isBlank c = true

theorem skipBlanks_append {gap : List Char} (h : AreBlank gap) (cs : List Char) :
    skipBlanks (gap ++ cs) = skipBlanks cs := by
  rw [skipBlanks, List.dropWhile_append_of_pos h]
  rfl

theorem skipBlanks_cons {c : Char} (h : isBlank c = false) (cs : List Char) :
    skipBlanks (c :: cs) = c :: cs := by
  rw [skipBlanks, List.dropWhile_cons_of_neg (by simp [h])]

theorem isBlank_of_isDigit {c : Char} (h : c.isDigit = true) : isBlank c = false := by
  unfold isBlank
  simp only [Bool.or_eq_false_iff, decide_eq_false_iff_not]
  refine ⟨⟨⟨?_, ?_⟩, ?_⟩, ?_⟩ <;> rintro rfl <;> cases h

/-- A printed value starts with a character that is neither a blank nor a closing bracket. -/
theorem print_exists_cons (comma colon : List Char) {json : Json} (h : json.Readable) :
    ∃ c cs, print comma colon json = c :: cs ∧ isBlank c = false ∧ c ≠ ']' := by
  cases json with
  | null => exact ⟨'n', _, rfl, rfl, by decide⟩
  | bool b =>
      cases b with
      | true => exact ⟨'t', _, rfl, rfl, by decide⟩
      | false => exact ⟨'f', _, rfl, rfl, by decide⟩
  | number literal =>
      obtain ⟨c, cs, rfl, hc⟩ := IsLiteral.exists_cons h
      refine ⟨c, cs, rfl, ?_⟩
      obtain hdigit | ⟨rfl, _⟩ := hc
      · refine ⟨isBlank_of_isDigit hdigit, ?_⟩
        rintro rfl
        cases hdigit
      · exact ⟨rfl, by decide⟩
  | special x =>
      cases x with
      | nan => exact ⟨'N', _, rfl, rfl, by decide⟩
      | infinite negative =>
          cases negative with
          | true => exact ⟨'-', _, rfl, rfl, by decide⟩
          | false => exact ⟨'I', _, rfl, rfl, by decide⟩
      | finite negative rank => cases h
  | text escaped => exact ⟨'"', _, rfl, rfl, by decide⟩
  | array items => exact ⟨'[', _, rfl, rfl, by decide⟩
  | object members => exact ⟨'\x7b', _, rfl, rfl, by decide⟩

/-! ### Values -/

theorem readValue?_number {literal rest : List Char} {fuel : Nat} (hliteral : IsLiteral literal)
    (hrest : Stops rest) :
    readValue? (fuel + 1) (literal ++ rest) = some (number literal, rest) := by
  obtain ⟨c, cs, hcs, hc⟩ := hliteral.exists_cons
  have hblank : isBlank c = false := by
    obtain hdigit | ⟨rfl, _⟩ := hc
    · exact isBlank_of_isDigit hdigit
    · rfl
  have hnumber : readNumber? (literal ++ rest) = some (literal, rest) :=
    readNumber?_append hliteral hrest
  rw [hcs, List.cons_append] at hnumber ⊢
  -- A literal starts like none of the words, texts, arrays and objects.
  have hne (d : Char) (hd : d.isDigit = false ∧ d ≠ '-') : c ≠ d := by
    rintro rfl
    obtain hdigit | ⟨rfl, _⟩ := hc
    · rw [hd.1] at hdigit
      cases hdigit
    · exact hd.2 rfl
  unfold readValue?
  rw [skipBlanks_cons hblank]
  split
  · rename_i heq; exact absurd (List.cons.inj heq).1 (hne _ (by decide))
  · rename_i heq; exact absurd (List.cons.inj heq).1 (hne _ (by decide))
  · rename_i heq; exact absurd (List.cons.inj heq).1 (hne _ (by decide))
  · rename_i heq; exact absurd (List.cons.inj heq).1 (hne _ (by decide))
  · rename_i heq; exact absurd (List.cons.inj heq).1 (hne _ (by decide))
  · rename_i heq
    obtain ⟨rfl, htail⟩ := List.cons.inj heq
    obtain hdigit | ⟨_, d, ds, rfl, hdigit⟩ := hc
    · cases hdigit
    · obtain ⟨rfl, _⟩ := List.cons.inj htail
      cases hdigit
  · rename_i heq; exact absurd (List.cons.inj heq).1 (hne _ (by decide))
  · rename_i heq; exact absurd (List.cons.inj heq).1 (hne _ (by decide))
  · rename_i heq; exact absurd (List.cons.inj heq).1 (hne _ (by decide))
  · rw [hnumber]
    rfl

theorem readValue?_array {items : List Json} {fuel : Nat} {inside rest : List Char} {c : Char}
    {cs : List Char} (hinside : inside = c :: cs) (hblank : isBlank c = false) (hne : c ≠ ']')
    (hread : readItems? fuel inside = some (items, rest)) :
    readValue? (fuel + 1) ('[' :: inside) = some (array items, rest) := by
  subst hinside
  unfold readValue?
  rw [skipBlanks_cons rfl]
  simp only [skipBlanks_cons hblank]
  split
  · rename_i heq
    exact absurd (List.cons.inj heq).1 hne
  · rw [hread]
    rfl

theorem readValue?_object {members : List (List Char × Json)} {fuel : Nat}
    {inside rest : List Char} (hread : readMembers? fuel ('"' :: inside) = some (members, rest)) :
    readValue? (fuel + 1) ('\x7b' :: '"' :: inside) = some (object members, rest) := by
  unfold readValue?
  rw [skipBlanks_cons rfl]
  simp only [skipBlanks_cons (show isBlank '"' = false from rfl)]
  rw [hread]
  rfl

theorem readValue?_append {lead : List Char} (h : AreBlank lead) (fuel : Nat) (cs : List Char) :
    readValue? fuel (lead ++ cs) = readValue? fuel cs := by
  cases fuel with
  | zero => rfl
  | succ fuel => rw [readValue?, readValue?, skipBlanks_append h]

theorem readItems?_append {lead : List Char} (h : AreBlank lead) (fuel : Nat) (cs : List Char) :
    readItems? fuel (lead ++ cs) = readItems? fuel cs := by
  cases fuel with
  | zero => rfl
  | succ fuel => rw [readItems?, readItems?, readValue?_append h]

theorem readMembers?_append {lead : List Char} (h : AreBlank lead) (fuel : Nat) (cs : List Char) :
    readMembers? fuel (lead ++ cs) = readMembers? fuel cs := by
  cases fuel with
  | zero => rfl
  | succ fuel => rw [readMembers?, readMembers?, skipBlanks_append h]

section Steps

variable {fuel : Nat} {gap rest after : List Char}

theorem readItems?_last {inside : List Char} {item : Json}
    (hitem : readValue? fuel inside = some (item, ']' :: rest)) :
    readItems? (fuel + 1) inside = some ([item], rest) := by
  unfold readItems?
  rw [hitem]
  rfl

theorem readItems?_more {inside : List Char} {item : Json} {items : List Json}
    (hgap : AreBlank gap) (hitem : readValue? fuel inside = some (item, ',' :: (gap ++ after)))
    (hitems : readItems? fuel after = some (items, rest)) :
    readItems? (fuel + 1) inside = some (item :: items, rest) := by
  unfold readItems?
  rw [hitem]
  show (readItems? fuel (gap ++ after)).map (fun read => (item :: read.1, read.2)) = _
  rw [readItems?_append hgap, hitems]
  rfl

variable {key inside : List Char} {value : Json} {members : List (List Char × Json)}

theorem readMembers?_last (hkey : IsWritten key) (hgap : AreBlank gap)
    (hvalue : readValue? fuel inside = some (value, '\x7d' :: rest)) :
    readMembers? (fuel + 1) ('"' :: (key ++ '"' :: ':' :: (gap ++ inside))) =
      some ([(key, value)], rest) := by
  obtain ⟨cs, rfl⟩ := hkey
  unfold readMembers?
  rw [skipBlanks_cons rfl]
  simp only [readText?_escape]
  rw [skipBlanks_cons rfl]
  simp only [readValue?_append hgap, hvalue]
  rfl

theorem readMembers?_more (hkey : IsWritten key) (hgap : AreBlank gap)
    (hvalue : readValue? fuel inside = some (value, ',' :: (gap ++ after)))
    (hmembers : readMembers? fuel after = some (members, rest)) :
    readMembers? (fuel + 1) ('"' :: (key ++ '"' :: ':' :: (gap ++ inside))) =
      some ((key, value) :: members, rest) := by
  obtain ⟨cs, rfl⟩ := hkey
  unfold readMembers?
  rw [skipBlanks_cons rfl]
  simp only [readText?_escape]
  rw [skipBlanks_cons rfl]
  simp only [readValue?_append hgap, hvalue]
  show (readMembers? fuel (gap ++ after)).map
    (fun read => ((escape cs, value) :: read.1, read.2)) = _
  rw [readMembers?_append hgap, hmembers]
  rfl

end Steps

theorem printItems_exists_cons (comma colon : List Char) {item : Json} (items : List Json)
    (h : item.Readable) :
    ∃ c cs, printItems comma colon (item :: items) = c :: cs ∧ isBlank c = false ∧ c ≠ ']' := by
  obtain ⟨c, cs, hcs, hblank, hne⟩ := print_exists_cons comma colon h
  cases items with
  | nil => exact ⟨c, cs, hcs, hblank, hne⟩
  | cons next items =>
      refine ⟨c, cs ++ comma ++ printItems comma colon (next :: items), ?_, hblank, hne⟩
      simp [printItems, hcs]

theorem printMembers_exists_cons (comma colon key : List Char) (value : Json)
    (members : List (List Char × Json)) :
    ∃ cs, printMembers comma colon ((key, value) :: members) = '"' :: cs := by
  obtain _ | ⟨⟨next, second⟩, members⟩ := members
  · exact ⟨_, rfl⟩
  · exact ⟨_, rfl⟩

section Print

variable {gap : List Char}

mutual

theorem readValue?_print (hgap : AreBlank gap) :
    (json : Json) → json.Readable → ∀ {fuel : Nat} {rest : List Char},
      2 * (print (',' :: gap) (':' :: gap) json).length < fuel → Stops rest →
      readValue? fuel (print (',' :: gap) (':' :: gap) json ++ rest) = some (json, rest)
  | json, hjson, 0, rest, hfuel, hrest => absurd hfuel (Nat.not_lt_zero _)
  | null, hjson, fuel + 1, rest, hfuel, hrest => rfl
  | bool true, hjson, fuel + 1, rest, hfuel, hrest => rfl
  | bool false, hjson, fuel + 1, rest, hfuel, hrest => rfl
  | number literal, hjson, fuel + 1, rest, hfuel, hrest => readValue?_number hjson hrest
  | special .nan, hjson, fuel + 1, rest, hfuel, hrest => rfl
  | special (.infinite true), hjson, fuel + 1, rest, hfuel, hrest => rfl
  | special (.infinite false), hjson, fuel + 1, rest, hfuel, hrest => rfl
  | special (.finite negative rank), hjson, fuel + 1, rest, hfuel, hrest => by cases hjson
  | text escaped, hjson, fuel + 1, rest, hfuel, hrest => by
      obtain ⟨cs, rfl⟩ := hjson
      unfold readValue?
      rw [print, List.cons_append, List.cons_append, List.append_assoc, skipBlanks_cons rfl]
      simp only [List.singleton_append, readText?_escape, Option.map_some]
  | array [], hjson, fuel + 1, rest, hfuel, hrest => rfl
  | array (item :: items), hjson, fuel + 1, rest, hfuel, hrest => by
      -- The first sign of the items tells the array from an empty one.
      obtain ⟨c, cs, hcs, hblank, hne⟩ :=
        printItems_exists_cons (',' :: gap) (':' :: gap) items hjson.1
      simp only [print, List.cons_append, List.append_assoc]
      simp only [print, List.length_cons, List.length_append, List.length_nil] at hfuel
      refine readValue?_array (by rw [hcs]; rfl) hblank hne ?_
      exact readItems?_print hgap item items hjson (by omega)
  | object [], hjson, fuel + 1, rest, hfuel, hrest => rfl
  | object ((key, value) :: members), hjson, fuel + 1, rest, hfuel, hrest => by
      obtain ⟨cs, hcs⟩ := printMembers_exists_cons (',' :: gap) (':' :: gap) key value members
      simp only [print, List.length_cons, List.length_append, List.length_nil] at hfuel
      have hread : readMembers? fuel
          (printMembers (',' :: gap) (':' :: gap) ((key, value) :: members) ++ '\x7d' :: rest) =
            some ((key, value) :: members, rest) :=
        readMembers?_print hgap key value members hjson (by omega)
      rw [hcs] at hread
      simp only [print, hcs, List.cons_append, List.append_assoc, List.nil_append]
      exact readValue?_object hread

theorem readItems?_print (hgap : AreBlank gap) :
    (item : Json) → (items : List Json) → ReadableItems (item :: items) →
      ∀ {fuel : Nat} {rest : List Char},
      2 * (printItems (',' :: gap) (':' :: gap) (item :: items)).length + 1 < fuel →
      readItems? fuel (printItems (',' :: gap) (':' :: gap) (item :: items) ++ ']' :: rest) =
        some (item :: items, rest)
  | item, items, hitems, 0, rest, hfuel => absurd hfuel (Nat.not_lt_zero _)
  | item, [], hitems, fuel + 1, rest, hfuel => by
      rw [printItems] at hfuel ⊢
      apply readItems?_last
      exact readValue?_print hgap item hitems.1 (by omega) (stops_cons (by simp))
  | item, next :: items, hitems, fuel + 1, rest, hfuel => by
      simp only [printItems, List.length_append, List.length_cons] at hfuel
      simp only [printItems, List.append_assoc, List.cons_append]
      apply readItems?_more hgap
      · exact readValue?_print hgap item hitems.1 (by omega) (stops_cons (by simp))
      · exact readItems?_print hgap next items hitems.2 (by omega)

theorem readMembers?_print (hgap : AreBlank gap) :
    (key : List Char) → (value : Json) → (members : List (List Char × Json)) →
      ReadableMembers ((key, value) :: members) → ∀ {fuel : Nat} {rest : List Char},
      2 * (printMembers (',' :: gap) (':' :: gap) ((key, value) :: members)).length + 1 < fuel →
      readMembers? fuel
          (printMembers (',' :: gap) (':' :: gap) ((key, value) :: members) ++ '\x7d' :: rest) =
        some ((key, value) :: members, rest)
  | key, value, members, hmembers, 0, rest, hfuel => absurd hfuel (Nat.not_lt_zero _)
  | key, value, [], hmembers, fuel + 1, rest, hfuel => by
      simp only [printMembers, List.length_append, List.length_cons] at hfuel
      simp only [printMembers, List.append_assoc, List.cons_append]
      apply readMembers?_last hmembers.1 hgap
      exact readValue?_print hgap value hmembers.2.1 (by omega) (stops_cons (by simp))
  | key, value, (next, second) :: members, hmembers, fuel + 1, rest, hfuel => by
      simp only [printMembers, List.length_append, List.length_cons] at hfuel
      simp only [printMembers, List.append_assoc, List.cons_append]
      apply readMembers?_more hmembers.1 hgap
      · exact readValue?_print hgap value hmembers.2.1 (by omega) (stops_cons (by simp))
      · exact readMembers?_print hgap next second members hmembers.2.2 (by omega)

end

/-- A readable tree is what its printed form is read as. -/
theorem ofChars?_print (hgap : AreBlank gap) {json : Json} (h : json.Readable) :
    ofChars? (print (',' :: gap) (':' :: gap) json) = some json := by
  have hread : readValue? (2 * (print (',' :: gap) (':' :: gap) json).length + 2)
      (print (',' :: gap) (':' :: gap) json ++ []) = some (json, []) :=
    readValue?_print hgap json h (by omega) (by simp [Stops])
  rw [List.append_nil] at hread
  unfold ofChars?
  rw [hread]
  rfl

end Print

theorem ofText?_spaced {json : Json} (h : json.Readable) : ofText? json.spaced = some json := by
  rw [ofText?, spaced, String.toList_ofList]
  exact ofChars?_print (by simp [AreBlank, isBlank]) h

theorem ofText?_minified {json : Json} (h : json.Readable) : ofText? json.minified = some json := by
  rw [ofText?, minified, String.toList_ofList]
  exact ofChars?_print (by simp [AreBlank]) h

end DocFilter.Json
