import DocFilter.Store.Statement
import DocFilter.Proofs.Text.Identifier

/-!
Names of tables in the texts of statements.

A text is accepted as the name of a table exactly if it is an identifier, or one with a line feed
behind it (`TableName.ofValue_eq_ok_iff`). Put into a statement, it is read as one word: the words
and signs in front of it and behind it are those of the statement, whatever the name is
(`Statement.tokens_text`). So nothing but a name can get into a statement in this place
(`accepted_name_is_one_word`). The line feed is let through although the name is meant to be an
identifier as a whole (`line_feed_gets_into_statement`); for the reader of the statement it is a
blank among others.
-/

namespace DocFilter

/-! ### Accepted names -/

namespace TableName

theorem isInner_of_isIdentifier {cs : List Char} (h : isIdentifier cs = true) :
    ∀ c ∈ cs, isInner c = true := by
  intro c hc
  simpa [isInner, IsNameChar] using forall_isNameChar h c hc

/-- A text without the line feed that may stand behind it. -/
theorem dropLineFeed_eq_iff {cs name : List Char} (h : isIdentifier name = true) :
    dropLineFeed cs = name ↔ cs = name ∨ cs = name ++ ['\n'] := by
  have hlast : name.getLast? ≠ some '\n' := fun hlast =>
    (forall_isNameChar h '\n' (List.mem_of_getLast? hlast)).ne (by decide) rfl
  unfold dropLineFeed
  constructor
  · intro hname
    split at hname
    · rename_i hfeed
      obtain ⟨front, rfl⟩ := List.getLast?_eq_some_iff.mp hfeed
      rw [List.dropLast_concat] at hname
      exact .inr (hname ▸ rfl)
    · exact .inl hname
  · rintro (rfl | rfl)
    · rw [if_neg hlast]
    · rw [if_pos (by simp), List.dropLast_concat]

theorem dropLineFeed_toList_eq_iff {s name : String} (h : isIdentifier name.toList = true) :
    dropLineFeed s.toList = name.toList ↔ s = name ∨ s = name ++ "\n" := by
  rw [dropLineFeed_eq_iff h, ← String.toList_inj, ← String.toList_inj, String.toList_append]
  rfl

/-- A text names a table exactly if it is the name, or the name and a line feed. -/
theorem ofValue_eq_ok_iff {s : String} {t : TableName} :
    ofValue (.text s) = .ok t ↔
      isIdentifier t.text.toList = true ∧ (s = t.text ∨ s = t.text ++ "\n") := by
  simp only [ofValue]
  constructor
  · intro hok
    split at hok
    · rename_i hname
      cases hok
      rw [← String.toList_ofList (l := dropLineFeed s.toList)] at hname
      exact ⟨hname, (dropLineFeed_toList_eq_iff hname).mp String.toList_ofList.symm⟩
    · cases hok
  · rintro ⟨hname, hs⟩
    rw [(dropLineFeed_toList_eq_iff hname).mpr hs, if_pos hname, String.ofList_toList]

theorem ofValue_cases (s : String) :
    (∃ t, ofValue (.text s) = .ok t) ∨
      ofValue (.text s) = .error (.badTableName (Value.text s).inspect) := by
  simp only [ofValue]
  split
  · exact .inl ⟨_, rfl⟩
  · exact .inr rfl

end TableName

/-! ### Words of statements -/

/-- What a statement is read as: words of letters, digits and underscores, and single signs. -/
inductive Token
  | word (cs : List Char)
  | sign (c : Char)
  deriving DecidableEq

namespace Token

def finished (word : List Char) : List Token := if word = [] then [] else [.word word]

/-- Reads on behind the first characters of a word. Blanks stand between tokens and are none. -/
def scanFrom (word : List Char) : List Char → List Token
  | [] => finished word
  | c :: rest =>
    if TableName.isInner c then scanFrom (word ++ [c]) rest
    else finished word ++ (if Text.isAsciiBlank c then [] else [.sign c]) ++ scanFrom [] rest

def scan (s : String) : List Token := scanFrom [] s.toList

theorem scanFrom_cons {c : Char} (hc : TableName.isInner c = false) (word rest : List Char) :
    scanFrom word (c :: rest) = finished word ++ scanFrom [] (c :: rest) := by
  simp [scanFrom, hc, finished]

theorem scanFrom_blank {c : Char} (hc : Text.isAsciiBlank c = true)
    (hinner : TableName.isInner c = false) (rest : List Char) :
    scanFrom [] (c :: rest) = scanFrom [] rest := by
  simp [scanFrom, hc, hinner, finished]

/-- A character that belongs to no word parts what is in front of it from what is behind it. -/
theorem scanFrom_append {c : Char} (hc : TableName.isInner c = false) (word cs rest : List Char) :
    scanFrom word (cs ++ c :: rest) = scanFrom word (cs ++ [c]) ++ scanFrom [] rest := by
  induction cs generalizing word with
  | nil => simp [scanFrom, hc, finished]
  | cons d cs ih =>
      by_cases hd : TableName.isInner d = true
      · simp only [List.cons_append, scanFrom, if_pos hd, ih]
      · simp only [List.cons_append, scanFrom, if_neg hd, ih, List.append_assoc]

theorem scanFrom_word {cs : List Char} (h : ∀ c ∈ cs, TableName.isInner c = true)
    (word rest : List Char) : scanFrom word (cs ++ rest) = scanFrom (word ++ cs) rest := by
  induction cs generalizing word with
  | nil => rw [List.nil_append, List.append_nil]
  | cons c cs ih =>
      obtain ⟨hc, hcs⟩ := List.forall_mem_cons.mp h
      rw [List.cons_append, scanFrom, if_pos hc, ih hcs, List.append_assoc]
      rfl

end Token

namespace Statement

open Token

theorem front_eq (statement : Statement) : ∃ cs, statement.front.toList = cs ++ [' '] := by
  have hcount : "SELECT COUNT(*) FROM ".toList = "SELECT COUNT(*) FROM".toList ++ [' '] := by decide
  have hselect : "SELECT _id, doc FROM ".toList = "SELECT _id, doc FROM".toList ++ [' '] := by decide
  cases statement with
  | create => exact ⟨"CREATE TABLE IF NOT EXISTS".toList, by decide⟩
  | insert => exact ⟨"INSERT INTO".toList, by decide⟩
  | count _ => exact ⟨_, hcount⟩
  | select _ => exact ⟨_, hselect⟩

theorem back_eq (statement : Statement) : ∃ cs, statement.back.toList = ' ' :: cs := by
  have hwhere : " WHERE ".toList = ' ' :: "WHERE ".toList := by decide
  cases statement with
  | create => exact ⟨"(_id TEXT PRIMARY KEY, doc TEXT NOT NULL)".toList, by decide⟩
  | insert => exact ⟨"(_id, doc) VALUES (?, ?)".toList, by decide⟩
  | count _ =>
      simp only [back, String.toList_append, hwhere]
      exact ⟨_, rfl⟩
  | select _ =>
      simp only [back, String.toList_append, hwhere]
      exact ⟨_, rfl⟩

/-- A name between two texts is one word between their tokens, with or without a line feed. -/
theorem tokens_text (statement : Statement) {name s : String}
    (hname : TableName.isIdentifier name.toList = true) (hs : s = name ∨ s = name ++ "\n") :
    scan (statement.text s) = scan statement.front ++ .word name.toList :: scan statement.back := by
  obtain ⟨before, hfront⟩ := statement.front_eq
  obtain ⟨behind, hback⟩ := statement.back_eq
  have hword (c : Char) (rest : List Char) (hc : TableName.isInner c = false) :
      scanFrom [] (name.toList ++ c :: rest) = .word name.toList :: scanFrom [] (c :: rest) := by
    rw [scanFrom_word (TableName.isInner_of_isIdentifier hname), List.nil_append,
      scanFrom_cons hc, finished, if_neg (ne_nil_of_isIdentifier hname)]
    rfl
  have hrest : scanFrom [] (s.toList ++ statement.back.toList) =
      .word name.toList :: scan statement.back := by
    rw [scan, hback]
    obtain rfl | rfl := hs
    · exact hword ' ' behind (by decide)
    · -- The line feed is one more blank in front of the blank.
      have hfeed : (name ++ "\n").toList ++ ' ' :: behind = name.toList ++ '\n' :: ' ' :: behind := by
        rw [String.toList_append, List.append_assoc]
        rfl
      rw [hfeed, hword '\n' _ (by decide), scanFrom_blank (by decide) (by decide)]
  have htext : (statement.text s).toList =
      before ++ ' ' :: (s.toList ++ statement.back.toList) := by
    rw [text, String.toList_append, String.toList_append, hfront]
    simp only [List.append_assoc, List.cons_append, List.nil_append]
  have hscan : scan statement.front = scanFrom [] (before ++ [' ']) := by rw [scan, hfront]
  rw [hscan, scan, htext, scanFrom_append (by decide), hrest]

end Statement

/-- A text is accepted as the name of a table exactly if it is an identifier, with at most a line
feed behind it, and refused as an unusable value otherwise. In every statement it is read as this
identifier, one word between what the statement has in front of the table and behind it. -/
theorem accepted_name_is_one_word (s : String) :
    (∀ t, TableName.ofValue (.text s) = .ok t ↔
      TableName.isIdentifier t.text.toList = true ∧ (s = t.text ∨ s = t.text ++ "\n")) ∧
    ((∀ t, TableName.ofValue (.text s) ≠ .ok t) →
      TableName.ofValue (.text s) = .error (.badTableName (Value.text s).inspect)) ∧
    ∀ t, TableName.ofValue (.text s) = .ok t → ∀ statement : Statement,
      statement.text s = statement.front ++ s ++ statement.back ∧
      Token.scan (statement.text s) =
        Token.scan statement.front ++ .word t.text.toList :: Token.scan statement.back := by
  refine ⟨fun t => TableName.ofValue_eq_ok_iff, fun hnone => ?_, fun t ht statement => ⟨rfl, ?_⟩⟩
  · exact (TableName.ofValue_cases s).resolve_left fun ⟨t, ht⟩ => hnone t ht
  · obtain ⟨hname, hs⟩ := TableName.ofValue_eq_ok_iff.mp ht
    exact statement.tokens_text hname hs

/-- A name with capitals, digits and underscores, and a text that would end the statement and begin
another one. -/
theorem accepted_name_is_one_word_people :
    TableName.ofValue (.text "_People2") = .ok ⟨"_People2"⟩ ∧
      Token.scan (Statement.insert.text "_People2") =
        Token.scan "INSERT INTO" ++
          .word "_People2".toList :: Token.scan " (_id, doc) VALUES (?, ?)" ∧
      TableName.ofValue (.text "people; DROP TABLE x") =
        .error (.badTableName (Value.text "people; DROP TABLE x").inspect) := by
  have hname : TableName.ofValue (.text "_People2") = .ok ⟨"_People2"⟩ :=
    (accepted_name_is_one_word "_People2").1 ⟨"_People2"⟩ |>.mpr ⟨by decide, .inl rfl⟩
  refine ⟨hname, ?_, (accepted_name_is_one_word "people; DROP TABLE x").2.1 ?_⟩
  · exact ((accepted_name_is_one_word "_People2").2.2 _ hname .insert).2
  · intro t ht
    have hrefused : TableName.ofValue (.text "people; DROP TABLE x") =
        .error (.badTableName (Value.text "people; DROP TABLE x").inspect) := by rfl
    rw [hrefused] at ht
    cases ht

/-- The identifier need not be the whole text: a line feed behind it is let through, and stands in
the statement. -/
theorem line_feed_gets_into_statement :
    TableName.ofValue (.text "docs\n") = .ok ⟨"docs"⟩ ∧
      TableName.isIdentifier "docs\n".toList = false ∧
      Statement.create.text "docs\n" =
        "CREATE TABLE IF NOT EXISTS docs\n (_id TEXT PRIMARY KEY, doc TEXT NOT NULL)" := by
  refine ⟨rfl, ?_, ?_⟩
  · decide
  · decide

end DocFilter
