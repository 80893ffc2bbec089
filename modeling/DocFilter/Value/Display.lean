import DocFilter.Failure
import DocFilter.Number.Decimal
import DocFilter.Text.Quoted
import DocFilter.Value

/-!
The text forms of values.

A value has a plain form, which for texts, identifiers, dates and operators is the bare content, and
an inspected form, which shows its kind as well: texts in quotes, identifiers by name. Inside a
collection the inspected form is used.

Not every form can be made: an integer may have too many digits for a text, and a value may be
nested too deeply (`textFault?`). So a value is shown, or there is a failure in place of its text
(`shown`, `inspected`).
-/

namespace DocFilter.Value

-- A power is the core library's, also in a file that sees other powers.
attribute [local instance (high)] instPowNat

/-- The longest inspected source of a pattern that is shown in full. -/
def patternWidth : Nat := 200

/-- The ways of matching that the inspected form of a pattern names, by the letters that set
them. -/
def patternModes : List (Char × String) := [
  ('t', "re.TEMPLATE"), ('i', "re.IGNORECASE"), ('m', "re.MULTILINE"), ('s', "re.DOTALL"),
  ('x', "re.VERBOSE"), ('a', "re.ASCII")]

def inspectPattern (p : Pattern) : String :=
  let source := String.ofList ((Text.quoted p.source).toList.take patternWidth)
  let letters := Pattern.marks false p.source.toList
  let modes := patternModes.filter fun (letter, _) =>
    letters.contains letter || (letter = 'i' && p.ignoreCase)
  if modes.isEmpty then "re.compile(" ++ source ++ ")"
  else "re.compile(" ++ source ++ ", " ++ "|".intercalate (modes.map (·.2)) ++ ")"

/-- Texts separated by commas, between two marks. -/
def enclosed (opening closing : String) (texts : List String) : String :=
  opening ++ ", ".intercalate texts ++ closing

/-- Parentheses around texts; a lone text keeps a comma. -/
def inspectTuple : List String → String
  | [only] => "(" ++ only ++ ",)"
  | texts => enclosed "(" ")" texts

mutual

/-- The form of a value: the plain one when `bare` holds, the inspected one otherwise. -/
def form (bare : Bool) : Value → String
  | null => "None"
  | bool b => if b then "True" else "False"
  | int n => toString n
  | real x => x.text
  | text s => if bare then s else Text.quoted s
  | bytes bs => Text.quotedBytes bs
  | objectId id => if bare then id.text else "ObjectId(\x27" ++ id.text ++ "\x27)"
  | timestamp t => if bare then t.isoText ' ' else t.shown
  | date d => if bare then d.text else d.shown
  | operator op =>
    if bare then "Operator." ++ op.memberName
    else "<Operator." ++ op.memberName ++ ": " ++ Text.quoted op.literal ++ ">"
  | pattern p => inspectPattern p
  | list items => enclosed "[" "]" (inspectItems items)
  | ring items => enclosed "[" "]" (inspectItems items ++ ["[...]"])
  | tuple items => inspectTuple (inspectItems items)
  | set items => if items.isEmpty then "set()" else enclosed "\x7b" "\x7d" (inspectItems items)
  | frozenSet items =>
    if items.isEmpty then "frozenset()"
    else enclosed "frozenset(\x7b" "\x7d)" (inspectItems items)
  | map entries => enclosed "\x7b" "\x7d" (inspectEntries entries)
  | clause field relation operand =>
    let literal := match relation with
      | operator op => op.literal
      | _ => form true relation
    form true field ++ " " ++ literal ++ " " ++ form false operand
  | paging page limit offset sortBy sortDirection =>
    "PaginationQuery(page=" ++ form false page ++ ", limit=" ++ form false limit
      ++ ", offset=" ++ form false offset ++ ", sort_by=" ++ form false sortBy
      ++ ", sort_direction=" ++ form false sortDirection ++ ")"
  | request filters pages =>
    "GenericFilterQuery(filters=" ++ form false filters ++ ", pagination="
      ++ form false pages ++ ")"

def inspectItems : List Value → List String
  | [] => []
  | v :: rest => form false v :: inspectItems rest

def inspectEntries : List (Value × Value) → List String
  | [] => []
  | (k, v) :: rest => (form false k ++ ": " ++ form false v) :: inspectEntries rest

end

def display (v : Value) : String := form true v

def inspect (v : Value) : String := form false v

/-! ### Forms that cannot be made -/

/-- The least integer with more than 4300 digits, which no text shows. -/
def digitBound : Nat := (10 ^ (100 : Nat)) ^ (43 : Nat)

/-- The integer can be shown. -/
def isShort (n : Int) : Bool := n.natAbs < digitBound

/-- How deeply the forms of values may lie in one another: what most callers have left of a thousand
nested calls. The form of a list or a mapping takes one of them, others take more. -/
def textRoom : Nat := 960

mutual

/-- What keeps the form of a value from being made in some room, if anything does: the first part on
the way that is an integer with too many digits or for which there is no room. -/
def textFault? (room : Nat) : Value → Option Failure
  | int n => if isShort n then none else some .integerTooLong
  | list items => if room < 1 then some .textTooDeep else itemsFault? (room - 1) items
  | ring items => if room < 1 then some .textTooDeep else itemsFault? (room - 1) items
  | tuple items => if room < 1 then some .textTooDeep else itemsFault? (room - 1) items
  | set items => if room < 2 then some .textTooDeep else itemsFault? (room - 2) items
  | frozenSet items => if room < 2 then some .textTooDeep else itemsFault? (room - 2) items
  | map entries => if room < 1 then some .textTooDeep else entriesFault? (room - 1) entries
  | clause field relation operand =>
    if room < 2 then some .textTooDeep
    else ((textFault? (room - 2) field).or (textFault? (room - 2) relation)).or
      (textFault? (room - 2) operand)
  | paging page limit offset sortBy sortDirection =>
    if room < 3 then some .textTooDeep
    else ((((textFault? (room - 3) page).or (textFault? (room - 3) limit)).or
      (textFault? (room - 3) offset)).or (textFault? (room - 3) sortBy)).or
        (textFault? (room - 3) sortDirection)
  | request filters pages =>
    if room < 3 then some .textTooDeep
    else (textFault? (room - 3) filters).or (textFault? (room - 3) pages)
  | _ => none

def itemsFault? (room : Nat) : List Value → Option Failure
  | [] => none
  | v :: rest => (textFault? room v).or (itemsFault? room rest)

def entriesFault? (room : Nat) : List (Value × Value) → Option Failure
  | [] => none
  | (k, v) :: rest => ((textFault? room k).or (textFault? room v)).or (entriesFault? room rest)

end

/-- The plain form of a value, if it can be made. -/
def shown (v : Value) : Except Failure String :=
  match v.textFault? textRoom with
  | some failure => .error failure
  | none => .ok v.display

def inspected (v : Value) : Except Failure String :=
  match v.textFault? textRoom with
  | some failure => .error failure
  | none => .ok v.inspect

theorem display_of_shown {v : Value} {s : String} (h : v.shown = .ok s) : v.display = s := by
  unfold shown at h
  split at h
  · cases h
  · exact Except.ok.inj h

theorem shown_int (n : Int) :
    (int n).shown = if isShort n then .ok (toString n) else .error .integerTooLong := by
  rw [shown, textFault?]
  cases isShort n <;> rfl

theorem isShort_digitBound : isShort digitBound = false := by
  rw [isShort, Int.natAbs_natCast]
  exact decide_eq_false (Nat.lt_irrefl _)

@[simp] theorem shown_text (s : String) : (text s).shown = .ok s := rfl

@[simp] theorem shown_objectId (id : ObjectId) : (objectId id).shown = .ok id.text := rfl

@[simp] theorem inspected_text (s : String) : (text s).inspected = .ok (text s).inspect := rfl

end DocFilter.Value
