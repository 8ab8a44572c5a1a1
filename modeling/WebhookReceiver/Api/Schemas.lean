import WebhookReceiver.Api.Signature
import WebhookReceiver.Domain.Event

/-!
The wire format of ingestion (`api/schemas.py`).

`json.loads` and pydantic's validation of the envelope are parameters (`Wire`): the
first decodes the body or says why not, the second builds the envelope from the
object or names the fields it could not use. An envelope carries the bounds that
its fields declare.
-/

namespace WebhookReceiver

/-- `schemas.py::EventEntity`. -/
structure EventEntity where
  type : String
  id : String
  type_bounds : 1 ≤ type.length ∧ type.length ≤ 64
  id_bounds : 1 ≤ id.length ∧ id.length ≤ 255

/-- `schemas.py::WebhookEnvelope`. -/
structure WebhookEnvelope where
  id : String
  type : String
  occurredAt : Time
  entity : EventEntity
  data : JsonObject
  sequence : Option Int
  id_bounds : 1 ≤ id.length ∧ id.length ≤ 255
  type_bounds : 1 ≤ type.length ∧ type.length ≤ 128
  sequence_bound : ∀ n ∈ sequence, 0 ≤ n

/-- The library code that reads a body. -/
structure Wire where
  /-- `json.loads`, with what it raises. -/
  loads : Bytes → Except Exc Json
  /-- `WebhookEnvelope.model_validate`, with the `loc` of every validation error. -/
  modelValidate : JsonObject → Except (List (List String)) WebhookEnvelope

/-- The request headers, in the order they came. -/
abbrev Headers := List (String × String)

/-- `str.lower()` on the ASCII text of a header name. -/
def lower (s : String) : String := s.map Char.toLower

theorem lower_eq {s t : String} (same : s.toList.map Char.toLower = t.toList) : lower s = t :=
  String.toList_inj.mp (String.toList_map.trans same)

/-- `request.headers.get(name)`. -/
def Headers.get? (headers : Headers) (name : String) : Option String :=
  (headers.find? fun entry => lower entry.1 = lower name).map (·.2)

namespace Schemas

def headerAllowlist : List String :=
  ["content-type", "content-length", "user-agent", "idempotency-key", "x-request-id",
    "x-correlation-id"]

def idempotencyKeyHeader : String := "Idempotency-Key"
def maxIdempotencyKeyLength : Nat := 255

/-- `schemas.py::redact_headers` of `dict(request.headers)`: of a header sent twice
the first value stands. -/
def redactHeaders (headers : Headers) : JsonObject :=
  headerAllowlist.filterMap fun name => (headers.get? name).map fun value => (name, .str value)

/-- `schemas.py::parse_envelope`. -/
def parseEnvelope (wire : Wire) (rawBody : Bytes) : Except Exc WebhookEnvelope :=
  match wire.loads rawBody with
  | .error exc =>
    if exc.cls = "JSONDecodeError" ∨ exc.cls = "UnicodeDecodeError" then
      .error (malformedPayloadError ("body is not valid JSON: " ++ exc.message))
    else .error exc
  | .ok (.obj decoded) =>
    match wire.modelValidate decoded with
    | .ok envelope => .ok envelope
    | .error locs => .error (malformedPayloadError ("envelope failed validation on: " ++
        ", ".intercalate (locs.map fun loc => ".".intercalate loc)))
  | .ok _ => .error (malformedPayloadError "body must be a JSON object")

/-- `schemas.py::resolve_idempotency_key`. -/
def resolveIdempotencyKey (envelope : WebhookEnvelope) (headerValue : Option String) :
    Except Exc String :=
  match headerValue with
  | none => .ok envelope.id
  | some value =>
    let key := pyStrip value.toList
    if key = [] ∨ maxIdempotencyKeyLength < key.length then
      .error (malformedPayloadError (idempotencyKeyHeader ++ " must be 1.." ++
        toString maxIdempotencyKeyLength ++ " characters"))
    else .ok (String.ofList key)

/-- `schemas.py::to_incoming_event`. -/
def toIncomingEvent (source : String) (envelope : WebhookEnvelope) (payload headers : JsonObject)
    (idempotencyKey : String) (signatureVerified : Bool) : IncomingEvent where
  source := source
  externalId := envelope.id
  idempotencyKey := idempotencyKey
  eventType := envelope.type
  entityType := envelope.entity.type
  entityId := envelope.entity.id
  payload := payload
  headers := headers
  signatureVerified := signatureVerified
  occurredAt := envelope.occurredAt
  providerSequence := envelope.sequence

end Schemas

end WebhookReceiver
