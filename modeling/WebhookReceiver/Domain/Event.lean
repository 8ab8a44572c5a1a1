/-!
The events, the effects and the states they go through, as the domain sees them.

Times are microseconds since the epoch. A JSON object is a list of pairs; what
`json.loads` and `jsonb` produce has no key twice. A float in a payload is kept
as Python prints it: no handler computes with one. Text that pydantic or a header has
let through is a `String`; inside a payload it is a `PyStr`, which may hold surrogates.
-/

namespace WebhookReceiver

/-- A `datetime`, in microseconds. -/
abbrev Time := Int

/-- `datetime.min` and `datetime.max`, in UTC. -/
def datetimeMin : Time := -62135596800000000
def datetimeMax : Time := 253402300799999999

/-! ## State enums (`domain/enums.py`) -/

inductive WebhookStatus where
  | pending | processing | succeeded | deadLettered
  deriving DecidableEq, Repr

inductive AttemptOutcome where
  | succeeded | superseded | retryableError | nonRetryableError
  deriving DecidableEq, Repr

/-- The pass looked at the event and dealt with it. -/
def AttemptOutcome.dealtWith : AttemptOutcome → Bool
  | .succeeded | .superseded => true
  | .retryableError | .nonRetryableError => false

inductive DlqStatus where
  | needsReview | replaying | resolved | discarded
  deriving DecidableEq, Repr

def DlqStatus.value : DlqStatus → String
  | .needsReview => "needs_review"
  | .replaying => "replaying"
  | .resolved => "resolved"
  | .discarded => "discarded"

inductive ReplayOutcome where
  | succeeded | skippedAlreadyProcessed | failed
  deriving DecidableEq, Repr

def ReplayOutcome.value : ReplayOutcome → String
  | .succeeded => "succeeded"
  | .skippedAlreadyProcessed => "skipped_already_processed"
  | .failed => "failed"

/-! ## Payloads and events (`domain/events.py`) -/

/-- A Python `str`: `json.loads` lets lone surrogates through. -/
structure PyStr where
  codePoints : List (Fin 0x110000)
  deriving DecidableEq

theorem toNat_codePoint (c : Char) : c.toNat < 0x110000 := by
  rcases c.valid with low | high
  · exact Nat.lt_trans low (by decide)
  · exact high.2

def PyStr.ofString (s : String) : PyStr := ⟨s.toList.map fun c => ⟨c.toNat, toNat_codePoint c⟩⟩

instance : Coe String PyStr := ⟨PyStr.ofString⟩

inductive Json where
  | null
  | bool (b : Bool)
  | int (n : Int)
  | float (text : String)
  | str (s : PyStr)
  | arr (items : List Json)
  | obj (fields : List (PyStr × Json))

abbrev JsonObject := List (PyStr × Json)

/-- `payload.get(field)`. -/
def JsonObject.get? (payload : JsonObject) (field : String) : Option Json :=
  (payload.find? fun entry => entry.1 = PyStr.ofString field).map (·.2)

/-! ### What `jsonb` gives back -/

/-- The number that is written with a positive exponent. -/
def largeFloat? (text : List Char) : Option Int :=
  let mantissa := text.takeWhile (· ≠ 'e')
  match text.dropWhile (· ≠ 'e') with
  | 'e' :: '+' :: exponent =>
    let places := (mantissa.dropWhile (· ≠ '.')).length - 1
    let value := Nat.ofDigitChars 10 (mantissa.filter Char.isDigit) 0 *
      Nat.pow 10 (Nat.ofDigitChars 10 exponent 0 - places)
    some (if mantissa.head? = some '-' then -value else value)
  | _ => none

/-- A float is stored as a decimal without an exponent, which Python reads as an integer
where it has no fraction, and without the sign of a zero. -/
def rereadFloat (text : String) : Json :=
  match largeFloat? text.toList with
  | some value => .int value
  | none => .float (if text = "-0.0" then "0.0" else text)

mutual
/-- What is read back of a value that was stored. -/
def Json.reread : Json → Json
  | .float text => rereadFloat text
  | .arr items => .arr (rereadItems items)
  | .obj fields => .obj (rereadFields fields)
  | value => value

def rereadItems : List Json → List Json
  | [] => []
  | item :: rest => item.reread :: rereadItems rest

def rereadFields : List (PyStr × Json) → List (PyStr × Json)
  | [] => []
  | (name, value) :: rest => (name, value.reread) :: rereadFields rest
end

/-- A `float` of 10^16 comes back as an `int`. -/
example : JsonObject.get? (rereadFields [("amount", .float "1e+16")]) "amount" =
    some (.int 10000000000000000) := by
  rfl

/-! ### Events -/

/-- An authenticated delivery, ready to be persisted. -/
structure IncomingEvent where
  source : String
  externalId : String
  idempotencyKey : String
  eventType : String
  entityType : String
  entityId : String
  payload : JsonObject
  headers : JsonObject
  signatureVerified : Bool
  occurredAt : Time
  providerSequence : Option Int

/-- A persisted event, as a handler sees it. -/
structure StoredEvent where
  id : Nat
  source : String
  eventType : String
  entityType : String
  entityId : String
  payload : JsonObject
  occurredAt : Time
  providerSequence : Option Int
  attemptCount : Nat

/-! ## Effects (`domain/effects.py`) -/

structure Credit where
  accountRef : String
  amountMinor : Int
  deriving DecidableEq, Repr

structure SetBalance where
  accountRef : String
  balanceMinor : Int
  sequence : Int
  deriving DecidableEq, Repr

inductive Effect where
  | credit (effect : Credit)
  | setBalance (effect : SetBalance)
  deriving DecidableEq, Repr

def Effect.accountRef : Effect → String
  | .credit effect => effect.accountRef
  | .setBalance effect => effect.accountRef

inductive EffectResult where
  | applied | alreadyApplied | superseded
  deriving DecidableEq, Repr

end WebhookReceiver
