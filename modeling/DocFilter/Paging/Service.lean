import DocFilter.Log.Message
import DocFilter.Paging.Collection
import DocFilter.Paging.Identity
import DocFilter.Paging.Request

/-!
Fetching one page.

A request is read, its paging checked and converted, and its clauses compiled before the collection
is asked for anything. Then the collection counts, the records of the page are fetched and get their
public identifiers. Whatever fails on the way is logged once and reported; a page that was fetched
is logged with its context.
-/

namespace DocFilter

/-- A service that answers requests for pages. It may have been given what it makes of a record;
otherwise the record gets its public identifier. -/
structure Service where
  tableName : Value := .null
  publicKey : Value := .text "id"
  builder : Builder := {}
  mapper? : Option (Value → Except Failure Value) := none
  defaultLimit : Nat := 10
  positive : 0 < defaultLimit := by decide

/-- The part of the results that a page covers; pages count from 1. -/
structure Window where
  limit : Nat
  page : Nat
  offset : Nat
  deriving DecidableEq, Repr

namespace Window

/-- The number of records before the page. -/
def skip (w : Window) : Nat := w.offset + (w.page - 1) * w.limit

end Window

/-- A request that is ready to run. -/
structure PreparedRequest where
  expression : Expression
  window : Window

structure Page where
  data : List Value
  total : Number
  page : Int
  limit : Nat

/-- What comes of a fetch: the page or a failure, the collection after it, and what was logged. -/
structure Outcome (σ : Type) where
  result : Except Failure Page
  state : σ
  log : List LogRecord

namespace Service

/-- A service with the given default page size, which must be a positive integer. It may be told to
return records as they are. -/
def make (tableName publicKey : Value) (builder : Option Builder) (keepsRecords : Bool)
    (defaultLimit : Value) : Except Failure Service :=
  match defaultLimit with
  | .int n =>
    if h : 0 < n then
      .ok {
        tableName, publicKey
        mapper? := if keepsRecords then some .ok else none
        builder := builder.getD { publicKey := publicKey }
        defaultLimit := n.toNat
        positive := Int.lt_toNat.mpr h }
    else .error (.showing .badDefaultLimit defaultLimit.inspected)
  | v => .error (.showing .badDefaultLimit v.inspected)

/-- A checked parameter, or a default if it is missing or zero. -/
def parameterOr (v : Value) (default : Nat) : Nat :=
  match v.wholeNumber? with
  | some n => if n = 0 then default else n.toNat
  | none => default

def window (s : Service) (p : Paging) : Window where
  limit := parameterOr p.limit s.defaultLimit
  page := parameterOr p.page 1
  offset := parameterOr p.offset 0

/-- The integer that a number is converted to, which leaves out a fractional part. -/
def integerPart : Number → Except Failure Int
  | .int n => .ok n
  | .real x =>
    match x.units? with
    | some units => .ok (units.tdiv Binary64.one)
    | none => .error (if x = .nan then .nanToInteger else .infiniteCeiling)

/-- A paging parameter as an integer, zero if it is missing. What is neither missing nor a number
does not pass the check. -/
def convertParameter (v : Value) : Except Failure Int :=
  match v.number? with
  | some x => integerPart x
  | none => .ok 0

/-- Converts checked paging parameters. A page or a limit of zero is the default, as a missing
one. -/
def convert (s : Service) (p : Paging) : Except Failure Window := do
  let limit ← convertParameter p.limit
  let page ← convertParameter p.page
  let offset ← convertParameter p.offset
  pure {
    limit := if limit = 0 then s.defaultLimit else limit.toNat
    page := if page = 0 then 1 else page.toNat
    offset := offset.toNat }

/-- Reads, checks, converts and compiles a request. -/
def prepare (s : Service) (query : Value) : Except Failure PreparedRequest := do
  let request ← Request.ofValue query
  let paging ← request.checkedPaging
  let window ← s.convert paging
  let built ← s.builder.build request.filters
  let sorted ← s.builder.applySort built paging.sortBy paging.sortDirection
  pure {
    window
    expression := {
      conditions := sorted.conditions
      sort := sorted.sort
      limit := .int window.limit
      skip := .int window.skip } }

/-- The number of records behind the offset, from a count that may be any number. -/
def remaining (total : Value) (offset : Nat) : Except Failure Number := do
  let difference : Number ← match total.number? with
    | some (.int n) => pure (.int (n - offset))
    | some (.real x) =>
      match (Binary64.ofInt offset).units? with
      | some units => pure (.real (x.subFinite units))
      | none => .error .integerTooLarge
    | none => .error (.notSubtractable total.fullKindName (Value.int offset).fullKindName)
  pure (if (Number.int 0).less difference then difference else .int 0)

def ceiling (x : Binary64) : Except Failure Int :=
  match x.ceiling? with
  | some n => .ok n
  | none => .error .infiniteCeiling

def quotientCeiling (quotient : Binary64) : Except Failure Int :=
  match quotient with
  | .infinite _ => .error .quotientTooLarge
  | quotient => ceiling quotient

/-- The number of pages: the quotient of count and page size as a binary64 number, rounded up. -/
def pageCount (total : Number) (limit : Nat) : Except Failure Int :=
  match total with
  | .int n => quotientCeiling (Binary64.ofRatio (n < 0) n.natAbs limit)
  | .real x =>
    match (Binary64.ofInt limit).units? with
    | some units => ceiling (x.divUnits units.toNat)
    | none => .error .integerTooLarge

def present (s : Service) (record : Value) : Except Failure Value :=
  match s.mapper? with
  | some mapper => mapper record
  | none => publishKey s.builder.nativeKey s.publicKey record

def numberValue : Number → Value
  | .int n => .int n
  | .real x => .real x

def fetchedMessage (s : Service) (w : Window) (count : Nat) (total : Number) :
    Except Failure String := do
  let total ← (numberValue total).shown
  contextMessage ("Fetched " ++ toString count ++ " of " ++ total ++ " records")
    (.map [(.text "table", s.tableName), (.text "page", .int w.page),
      (.text "limit", .int w.limit), (.text "skip", .int w.skip)])

/-- The message of a fetch that failed. It names the table, so there is none if that cannot be
shown. -/
def failedMessage (s : Service) (failure : Failure) : Except Failure String :=
  (s.tableName.orElse (.text "collection")).shown.map fun name =>
    "Error fetching from " ++ name ++ ": " ++ failure.kind.name ++ ": " ++ failure.message

/-- Fetches a page, and gives the message to log with it. -/
def fetchPage {σ : Type} (s : Service) (c : Collection σ) (query : Value) :
    Action σ (Page × String) := do
  let prepared ← Collection.lift (s.prepare query)
  let window := prepared.window
  let counted ← c.count prepared.expression
  let total ← Collection.lift (remaining counted window.offset)
  let pages ← Collection.lift (pageCount total window.limit)
  let records ← c.fetch prepared.expression
  let items ← Collection.lift records.elements
  let data ← Collection.lift (items.mapM s.present)
  let message ← Collection.lift (s.fetchedMessage window data.length total)
  pure (⟨data, total, min window.page pages, window.limit⟩, message)

/-- What a failure on the way comes to: it is logged and passed on. A cancellation is passed on
without a record, and a failure that cannot be logged gives way to what keeps it from being
logged. -/
def handled (s : Service) (failure : Failure) : Failure × List LogRecord :=
  if failure.isCaught then
    match s.failedMessage failure with
    | .ok message => (failure, [⟨.error, message⟩])
    | .error instead => (instead, [])
  else (failure, [])

def fetch {σ : Type} (s : Service) (c : Collection σ) (query : Value) (state : σ) : Outcome σ :=
  match (s.fetchPage c query).run state with
  | (.ok (page, message), state) => ⟨.ok page, state, [⟨.debug, message⟩]⟩
  | (.error failure, state) =>
    let (failure, log) := s.handled failure
    ⟨.error failure, state, log⟩

end Service

end DocFilter
