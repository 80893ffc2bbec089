import DocFilter.Text.Letter

/-!
Search patterns that stand for literal text.

A pattern is written with a backslash before each character that could mean something else, and a
source may begin with marks such as `(?i)`, which set the ways in which it is matched: `i` makes the
search blind to case. Reading a written pattern gives the literal back, so a search compares
characters one by one: equal ones, or ones that are the same letter. A source that means more than a
literal is not read.
-/

namespace DocFilter

/-- A compiled pattern: its written source and whether it ignores case. -/
structure Pattern where
  source : String
  ignoreCase : Bool
  deriving DecidableEq

namespace Pattern

/-- The letters that a mark at the front of a source may hold. -/
def markLetters : List Char := "iLmsxatu".toList

/-- What follows the first character of a kind. -/
def behind (c : Char) (cs : List Char) : List Char := (cs.dropWhile (· ≠ c)).drop 1

/-- The letters of the marks at the front of a source. Remarks `(?#…)` may stand between them, and
behind the letter `x` also blanks and lines that start with `#`. -/
def marks (spaced : Bool) : List Char → List Char
  | '(' :: '?' :: '#' :: rest => marks spaced (behind ')' rest)
  | '(' :: '?' :: rest =>
    let letters := rest.takeWhile markLetters.contains
    let rest := rest.dropWhile markLetters.contains
    if rest.head? = some ')' then letters ++ marks (spaced || letters.contains 'x') (rest.drop 1)
    else []
  | c :: rest =>
    if spaced && c = '#' then marks spaced (behind '\n' rest)
    else if spaced && " \t\n\r\x0b\x0c".toList.contains c then marks spaced rest
    else []
  | [] => []
termination_by cs => cs.length
decreasing_by
  all_goals simp only [behind, List.length_drop, List.length_cons]
  · have := (List.dropWhile_sublist (fun c : Char => decide (c ≠ ')')) (l := rest)).length_le
    omega
  · rename_i r _
    have := (List.dropWhile_sublist markLetters.contains (l := r)).length_le
    omega
  · have := (List.dropWhile_sublist (fun c : Char => decide (c ≠ '\n')) (l := rest)).length_le
    omega
  · omega

/-- The pattern of a source that is to ignore case or not; its marks can demand it too. -/
def compile (source : String) (ignoreCase : Bool) : Pattern :=
  ⟨source, ignoreCase || (marks false source.toList).contains 'i'⟩

/-- The characters that are written after a backslash. -/
def specials : List Char := "()[]{}?*+-|^$\\.&~# \t\n\r\x0b\x0c".toList

/-- A literal as the source of a pattern. -/
def escape : List Char → List Char
  | [] => []
  | c :: rest => if specials.contains c then '\\' :: c :: escape rest else c :: escape rest

/-- The characters that mean something else than themselves unless a backslash is in front. -/
def metacharacters : List Char := ".^$*+?\x7b[\\|()".toList

/-- The literal that the source of a pattern stands for, if it stands for one: there is a backslash
in front of each character that could mean something else, and of no letter or digit, which would
mean something else there. -/
def literal? : List Char → Option (List Char)
  | '\\' :: c :: rest => if c.isAlphanum then none else (literal? rest).map (c :: ·)
  | c :: rest => if metacharacters.contains c then none else (literal? rest).map (c :: ·)
  | [] => some []

def containing (s : String) : Pattern := ⟨String.ofList (escape s.toList), true⟩

/-- The mark of a written pattern that ignores case. -/
def caseMark : List Char := ['(', '?', 'i', ')']

/-- The written form of a pattern, with the mark in front if it ignores case. -/
def written (p : Pattern) : String :=
  if p.ignoreCase then String.ofList (caseMark ++ p.source.toList) else p.source

/-- The source without the case marks at its front. -/
def dropCaseMarks : List Char → List Char
  | '(' :: '?' :: 'i' :: ')' :: rest => dropCaseMarks rest
  | cs => cs

def ofWritten (s : String) : Pattern :=
  let source := dropCaseMarks s.toList
  ⟨String.ofList source, decide (source ≠ s.toList)⟩

def startsWith (same : Char → Char → Bool) : List Char → List Char → Bool
  | [], _ => true
  | _ :: _, [] => false
  | p :: ps, c :: cs => same p c && startsWith same ps cs

/-- Some contiguous part of the text matches the literal pairwise. -/
def occursIn (same : Char → Char → Bool) (part : List Char) : List Char → Bool
  | [] => part.isEmpty
  | c :: cs => startsWith same part (c :: cs) || occursIn same part cs

/-- The pattern is found somewhere in the text. Only patterns that stand for a literal are looked
for. -/
def foundIn (p : Pattern) (text : String) : Bool :=
  match literal? p.source.toList with
  | none => false
  | some part =>
    if p.ignoreCase then
      occursIn (· == ·) (part.map Text.letter) (text.toList.map Text.letter)
    else occursIn (· == ·) part text.toList

end Pattern

end DocFilter
