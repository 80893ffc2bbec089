/-!
What can go wrong, by cause, and the wording of each cause.

Every failure has a kind, by which a caller sorts it, and a message, which names what was wrong. A
failure of the store keeps the store's own message.
-/

namespace DocFilter

/-- A failure of the store while it opens, reads or writes. -/
inductive StoreFault
  | cannotOpen
  | unexpectedWord (word : String)
  | reservedTable (table : String)
  | malformedSchema (table : String)
  | tooDeep
  | noSuchTable (table : String)
  | noSuchColumn (column : String)
  | notModifiable (table : String)
  | listingArguments (listing : String)
  | missingInput
  | tooManySortKeys
  | duplicateKey (table : String)
  | unbindable (position : Nat) (kind : String)
  | malformedJson
  | badPath (rest : String)
  | mismatch
  deriving DecidableEq, Repr

/-- The message of the store. A path is quoted with its quotes doubled. -/
def StoreFault.message : StoreFault → String
  | cannotOpen => "unable to open database file"
  | unexpectedWord word => "near \"" ++ word ++ "\": syntax error"
  | reservedTable table => "object name reserved for internal use: " ++ table
  | malformedSchema table => "malformed database schema (" ++ table ++ ") - near \"(\": syntax error"
  | tooDeep => "Expression tree is too large (maximum depth 1000)"
  | noSuchTable table => "no such table: " ++ table
  | noSuchColumn column => "no such column: " ++ column
  | notModifiable table => "table " ++ table ++ " may not be modified"
  | listingArguments listing => "invalid arguments to " ++ listing ++ " constructor"
  | missingInput => "SQL logic error"
  | tooManySortKeys => "too many terms in ORDER BY clause"
  | duplicateKey table => "UNIQUE constraint failed: " ++ table ++ "._id"
  | unbindable position kind =>
    "Error binding parameter " ++ toString position ++ ": type \x27" ++ kind
      ++ "\x27 is not supported"
  | malformedJson => "malformed JSON"
  | badPath rest => "JSON path error near \x27" ++ rest.replace "\x27" "\x27\x27" ++ "\x27"
  | mismatch => "datatype mismatch"

inductive FailureKind
  | validation | fieldName | unsupportedOperator | backend
  | value | type | member | overflow | run | recursion | cancelled
  deriving DecidableEq, Repr

def FailureKind.name : FailureKind → String
  | validation => "ValidationError"
  | fieldName => "FieldNameError"
  | unsupportedOperator => "UnsupportedOperatorError"
  | backend => "BackendError"
  | value => "ValueError"
  | type => "TypeError"
  | member => "AttributeError"
  | overflow => "OverflowError"
  | run => "RuntimeError"
  | recursion => "RecursionError"
  | cancelled => "CancelledError"

/-- A failure, by cause. Kinds of values and shown values are carried as texts. -/
inductive Failure
  | reservedKey (key : String)
  | notWhole (parameter shown : String)
  | negative (parameter shown : String)
  | listRequired (operator field kind : String)
  | textRequired (operator field kind : String)
  | badFieldName (shown : String)
  | reservedFieldName
  | unsupportedOperator (operator : String)
  /-- An operator of compiled conditions is unknown to the store. -/
  | unsupportedCondition (key : String)
  /-- A value of the wrong kind was asked for a part. -/
  | noMember (kind member : String)
  | notIterable (kind : String)
  | notUnpackable (kind : String)
  | tooFewParts (count : Nat)
  | tooManyParts
  /-- An entry of a mapping given as a list is not a sequence. -/
  | entryNotSequence (index : Nat)
  | entryNotPair (index length : Nat)
  | unhashable (kind : String)
  | notWritable (kind : String)
  | keyNotWritable (kind : String)
  /-- A list that holds itself cannot be written. -/
  | circular
  | notComparable (relation left right : String)
  | notSubtractable (left right : String)
  | patternFromNonText (kind : String)
  /-- A byte string makes a pattern that cannot be looked for in a text. -/
  | patternOfBytes
  | tableNotText (kind : String)
  | tableBytes
  | badTableName (shown : String)
  | badDefaultLimit (shown : String)
  | limitSettingNotInteger (shown : String)
  | limitSettingNotPositive
  | quotientTooLarge
  | integerTooLarge
  /-- An infinite number is no integer and has none above it. -/
  | infiniteCeiling
  | nanToInteger
  | integerTooWide
  | integerTooLong
  | textTooDeep
  | documentTooDeep
  | store (fault : StoreFault)
  /-- A collection failed with a message of its own. -/
  | collection (message : String)
  /-- The fetch was called off while it waited for a collection. -/
  | cancelled
  deriving DecidableEq, Repr

namespace Failure

def kind : Failure → FailureKind
  | reservedKey _ | notWhole .. | negative .. | listRequired .. | textRequired .. => .validation
  | badFieldName _ | reservedFieldName => .fieldName
  | unsupportedOperator _ | unsupportedCondition _ => .unsupportedOperator
  | noMember .. => .member
  | notIterable _ | notUnpackable _ | entryNotSequence _ | unhashable _ | notWritable _
  | keyNotWritable _ | notComparable .. | notSubtractable .. | patternFromNonText _
  | patternOfBytes | tableNotText _ | tableBytes => .type
  | tooFewParts _ | tooManyParts | entryNotPair .. | circular | badTableName _
  | badDefaultLimit _ | limitSettingNotInteger _ | limitSettingNotPositive | nanToInteger
  | integerTooLong => .value
  | quotientTooLarge | integerTooLarge | infiniteCeiling | integerTooWide => .overflow
  | store _ => .backend
  | collection _ => .run
  | textTooDeep | documentTooDeep => .recursion
  | cancelled => .cancelled

/-- A text between single quotes. -/
def cited (s : String) : String := "\x27" ++ s ++ "\x27"

def message : Failure → String
  | reservedKey key =>
    "Invalid filter value: key " ++ cited key ++ " starts with reserved prefix \x27$\x27"
  | notWhole parameter shown =>
    "Pagination parameter " ++ cited parameter ++ " must be an integer, got " ++ shown
  | negative parameter shown =>
    "Pagination parameter " ++ cited parameter ++ " must not be negative, got " ++ shown
  | listRequired operator field kind =>
    "Operator " ++ cited operator ++ " on field " ++ cited field ++ " requires a list, got " ++ kind
  | textRequired operator field kind =>
    "Operator " ++ cited operator ++ " on field " ++ cited field ++ " requires a string, got "
      ++ kind
  | badFieldName shown => "Invalid field name: " ++ shown
  | reservedFieldName => "Invalid field name: Field names cannot contain \"$\""
  | unsupportedOperator operator => "Unsupported operator: " ++ operator
  | unsupportedCondition key => "Unsupported operator: " ++ key ++ " (backend: SQLite)"
  | noMember kind member => cited kind ++ " object has no attribute " ++ cited member
  | notIterable kind => cited kind ++ " object is not iterable"
  | notUnpackable kind => "cannot unpack non-iterable " ++ kind ++ " object"
  | tooFewParts count =>
    "not enough values to unpack (expected 2, got " ++ toString count ++ ")"
  | tooManyParts => "too many values to unpack (expected 2)"
  | entryNotSequence index =>
    "cannot convert dictionary update sequence element #" ++ toString index ++ " to a sequence"
  | entryNotPair index length =>
    "dictionary update sequence element #" ++ toString index ++ " has length "
      ++ toString length ++ "; 2 is required"
  | unhashable kind => "unhashable type: " ++ cited kind
  | notWritable kind => "Object of type " ++ kind ++ " is not JSON serializable"
  | keyNotWritable kind => "keys must be str, int, float, bool or None, not " ++ kind
  | circular => "Circular reference detected"
  | notComparable relation left right =>
    cited relation ++ " not supported between instances of " ++ cited left ++ " and "
      ++ cited right
  | notSubtractable left right =>
    "unsupported operand type(s) for -: " ++ cited left ++ " and " ++ cited right
  | patternFromNonText kind => "decoding to str: need a bytes-like object, " ++ kind ++ " found"
  | patternOfBytes => "cannot use a bytes pattern on a string-like object"
  | tableNotText kind => "expected string or bytes-like object, got " ++ cited kind
  | tableBytes => "cannot use a string pattern on a bytes-like object"
  | badTableName shown => "Invalid table name: " ++ shown
  | badDefaultLimit shown => "default_limit must be a positive integer, got " ++ shown
  | limitSettingNotInteger shown =>
    "DOCSTORE_QUERY_DEFAULT_LIMIT must be an integer, got " ++ shown
  | limitSettingNotPositive => "DOCSTORE_QUERY_DEFAULT_LIMIT must be positive"
  | quotientTooLarge => "integer division result too large for a float"
  | integerTooLarge => "int too large to convert to float"
  | infiniteCeiling => "cannot convert float infinity to integer"
  | nanToInteger => "cannot convert float NaN to integer"
  | integerTooWide => "Python int too large to convert to SQLite INTEGER"
  | integerTooLong =>
    "Exceeds the limit (4300 digits) for integer string conversion; "
      ++ "use sys.set_int_max_str_digits() to increase the limit"
  | textTooDeep => "maximum recursion depth exceeded while getting the repr of an object"
  | documentTooDeep => "maximum recursion depth exceeded while encoding a JSON object"
  | store fault => fault.message
  | collection text => text
  | cancelled => ""

/-- The failure is caught and logged on its way to the caller; a cancellation is not. -/
def isCaught (failure : Failure) : Bool := failure.kind ≠ .cancelled

/-- The failure that shows a text, or the one that keeps the text from being made. -/
def showing (cause : String → Failure) : Except Failure String → Failure
  | .ok text => cause text
  | .error failure => failure

end Failure

end DocFilter
