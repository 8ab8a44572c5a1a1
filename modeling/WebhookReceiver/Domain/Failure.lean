/-!
What can go wrong, and whether trying again could help.

A Python exception is its class name, its text and what `isinstance` finds out
about it. `isRetryable` is the classification of `adapters/failures.py`: the
domain's own taxonomy first, then the transient failures the driver reports, and
everything unrecognised is permanent.
-/

namespace WebhookReceiver

/-- What `isinstance` tells the program about an exception. -/
inductive Kind where
  /-- `RetryableError` or a subclass. -/
  | retryable
  /-- `NonRetryableError` or a subclass. -/
  | nonRetryable
  /-- Any other `ProcessingError`. -/
  | processing
  /-- SQLAlchemy's `TimeoutError`: no pooled connection in time. -/
  | poolTimeout
  /-- SQLAlchemy's `DBAPIError` with its `connection_invalidated` and
  `orig.sqlstate`. -/
  | dbapi (connectionInvalidated : Bool) (sqlstate : Option String)
  | connection
  | timeout
  | gaierror
  /-- `SignatureError` or a subclass. -/
  | signature
  | malformedPayload
  /-- Any other `Exception`; asyncpg's own carry a `sqlstate`. -/
  | other (sqlstate : Option String)
  /-- A `BaseException` that is no `Exception`, such as a cancellation. -/
  | cancelled
  deriving DecidableEq, Repr

/-- An exception: `type(exc).__name__`, `str(exc)` and its kind. -/
structure Exc where
  cls : String
  message : String
  kind : Kind
  deriving DecidableEq, Repr

namespace Exc

/-- Caught by `except Exception`. -/
def isException (exc : Exc) : Bool := exc.kind ≠ .cancelled

def isProcessingError (exc : Exc) : Bool :=
  match exc.kind with
  | .retryable | .nonRetryable | .processing => true
  | _ => false

end Exc

def lockContentionError (msg : String) : Exc := ⟨"LockContentionError", msg, .retryable⟩
def unknownEventTypeError (msg : String) : Exc := ⟨"UnknownEventTypeError", msg, .nonRetryable⟩
def unprocessableEventError (msg : String) : Exc := ⟨"UnprocessableEventError", msg, .nonRetryable⟩
def invalidDlqTransitionError (msg : String) : Exc := ⟨"InvalidDlqTransitionError", msg, .nonRetryable⟩
def eventNotFoundError (msg : String) : Exc := ⟨"EventNotFoundError", msg, .other none⟩
def malformedPayloadError (msg : String) : Exc := ⟨"MalformedPayloadError", msg, .malformedPayload⟩
def malformedSignatureHeaderError (msg : String) : Exc :=
  ⟨"MalformedSignatureHeaderError", msg, .signature⟩
def timestampOutsideToleranceError (msg : String) : Exc :=
  ⟨"TimestampOutsideToleranceError", msg, .signature⟩
def signatureMismatchError (msg : String) : Exc := ⟨"SignatureMismatchError", msg, .signature⟩
def valueError (msg : String) : Exc := ⟨"ValueError", msg, .other none⟩
def typeError (msg : String) : Exc := ⟨"TypeError", msg, .other none⟩
def overflowError (msg : String) : Exc := ⟨"OverflowError", msg, .other none⟩
def runtimeError (msg : String) : Exc := ⟨"RuntimeError", msg, .other none⟩

/-- `Result.scalar_one` on an empty result. -/
def noResultFound : Exc :=
  ⟨"NoResultFound", "No row was found when one was required", .other none⟩

/-- A statement the database refuses, as SQLAlchemy raises it. -/
def integrityError (sqlstate msg : String) : Exc := ⟨"IntegrityError", msg, .dbapi false (some sqlstate)⟩
def dataError (msg : String) : Exc := ⟨"DBAPIError", msg, .dbapi false (some "22003")⟩

/-- A value as asyncpg's messages quote it. -/
def quoted (value : Int) : String :=
  let text := toString value
  if 40 < text.length then String.ofList (text.toList.take 40) ++ "..." else text

/-- A statement that asyncpg refuses, for an argument that it cannot encode; less the text
of the statement, which SQLAlchemy appends. -/
def invalidArgument (index : Nat) (value : Int) : Exc :=
  ⟨"DBAPIError", "(sqlalchemy.dialects.postgresql.asyncpg.Error) <class 'asyncpg.exceptions.DataError'>: " ++
    "invalid input for query argument $" ++ toString index ++ ": " ++ quoted value ++
    " (value out of int64 range)", .dbapi false (some "22000")⟩

/-- `failures.py::RETRYABLE_SQLSTATES`. -/
def retryableSqlstates : List String :=
  ["40001", "40P01", "55P03", "53300", "57P01", "57P02", "57P03", "08000", "08003", "08006"]

/-- `failures.py::is_retryable`. -/
def isRetryable (exc : Exc) : Bool :=
  match exc.kind with
  | .nonRetryable => false
  | .retryable => true
  | .poolTimeout => true
  | .dbapi true _ => true
  | .dbapi false sqlstate => sqlstate.any fun code => retryableSqlstates.contains code
  | .connection | .timeout | .gaierror => true
  | .processing | .signature | .malformedPayload | .other _ | .cancelled => false

/-- `locks.py::_is_lock_timeout`, on any exception: the handler catches only a
`DBAPIError`. -/
def isLockTimeout (exc : Exc) : Bool :=
  match exc.kind with
  | .dbapi _ sqlstate => sqlstate = some "55P03"
  | _ => false

/-- `process.py::ERROR_DETAIL_LIMIT`. -/
def errorDetailLimit : Nat := 500

/-- `process.py::_redacted_detail`. -/
def redactedDetail (exc : Exc) : String :=
  let message := if exc.isProcessingError then exc.message else exc.cls ++ ": " ++ exc.message
  String.ofList (message.toList.take errorDetailLimit)

/-! ## Python's text for a string -/

private def singleQuote : Char := Char.ofNat 39
private def doubleQuote : Char := Char.ofNat 34

private def hexDigit (n : Nat) : Char :=
  if n < 10 then Char.ofNat (48 + n) else Char.ofNat (87 + n)

/-- One character inside `repr(str)`. Above Latin-1 every character is taken to
be printable. -/
private def reprChar (quote c : Char) : List Char :=
  if c = '\\' then ['\\', '\\']
  else if c = quote then ['\\', quote]
  else if c = '\n' then ['\\', 'n']
  else if c = '\r' then ['\\', 'r']
  else if c = '\t' then ['\\', 't']
  else if c.toNat < 32 ∨ (127 ≤ c.toNat ∧ c.toNat ≤ 160) ∨ c.toNat = 173 then
    ['\\', 'x', hexDigit (c.toNat / 16), hexDigit (c.toNat % 16)]
  else [c]

/-- The `!r` of an f-string: `repr` of a Python string. -/
def pyRepr (s : String) : String :=
  let chars := s.toList
  let quote := if singleQuote ∈ chars ∧ doubleQuote ∉ chars then doubleQuote else singleQuote
  String.ofList ([quote] ++ chars.flatMap (reprChar quote) ++ [quote])

end WebhookReceiver
