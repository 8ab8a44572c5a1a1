import WebhookReceiver.Adapters
import WebhookReceiver.Api.Schemas

/-!
The services: processing, replay, ingestion, triage and retention, as programs over
the adapters (`services/process.py`, `services/replay.py`, `services/ingest.py`,
`api/webhooks.py`, `api/admin.py`, `sp_purge_history`), and the `system` in which any
number of them run at once.
-/

namespace WebhookReceiver

open Txn (Prog)

/-- What a deployment fixes: the handlers, the configuration, the advisory lock key
of an entity (`locks.py::advisory_lock_key`) and the library code of the API. -/
structure Service where
  registry : HandlerRegistry
  settings : Settings
  advisoryLockKey : String → String → Int
  hmac : Hmac
  wire : Wire

/-! ## Processing (`services/process.py`) -/

/-- `process.py::ProcessResult`. -/
structure ProcessResult where
  outcome : Option AttemptOutcome
  effect : Option EffectResult
  deriving DecidableEq

def ProcessResult.claimed (result : ProcessResult) : Bool := result.outcome.isSome

/-- `process.py::NOT_CLAIMED`. -/
def notClaimed : ProcessResult := ⟨none, none⟩

/-- `process.py::_SUCCESS`. -/
def successOutcome : EffectResult → AttemptOutcome
  | .applied => .succeeded
  | .alreadyApplied => .succeeded
  | .superseded => .superseded

/-- `backoff.py::next_delay_seconds`. -/
def nextDelaySeconds (attempt : Nat) (baseSeconds capSeconds : ℚ) : Program ℚ :=
  if attempt < 1 then throw (valueError ("attempt is 1-based; got " ++ toString attempt))
  else execute (.uniform 0 (backoffCeiling attempt baseSeconds capSeconds))

namespace Service

variable (svc : Service)

/-- `process.py::_apply`. -/
def apply (event : StoredEvent) (startedAt : Time) : Program ProcessResult := do
  let attemptNumber ← Queue.nextAttemptNumber event.id
  let attemptsUsed := event.attemptCount + 1
  lockEntity svc.advisoryLockKey event.entityType event.entityId svc.settings.advisoryLockTimeoutSeconds
  let effect ← Prog.ofExcept (svc.registry.dispatch event)
  let result ← Ledger.applyEffect event effect
  let outcome := successOutcome result
  let finishedAt ← execute .now
  Queue.recordAttempt event.id attemptNumber startedAt finishedAt outcome none none
  Queue.markSucceeded event.id attemptsUsed finishedAt
  return ⟨some outcome, some result⟩

/-- `finished_at + timedelta(seconds=delay)`, for a delay that is drawn. -/
def nextAttemptAt (attemptNumber : Nat) (finishedAt : Time) : Program Time := do
  let delay ← nextDelaySeconds attemptNumber svc.settings.backoffBaseSeconds svc.settings.backoffCapSeconds
  Prog.ofExcept (datetimePlus finishedAt delay)

/-- `process.py::_record_failure`, the part under the row lock. -/
def recordFailureOf (eventId : Nat) (event : StoredEvent) (exc : Exc) (startedAt : Time) :
    Program ProcessResult := do
  let retryable := isRetryable exc
  let outcome := if retryable then AttemptOutcome.retryableError else .nonRetryableError
  let detail := redactedDetail exc
  let attemptNumber ← Queue.nextAttemptNumber eventId
  let attemptsUsed := event.attemptCount + 1
  let finishedAt ← execute .now
  Queue.recordAttempt eventId attemptNumber startedAt finishedAt outcome (some exc.cls) (some detail)
  let exhausted := svc.settings.maxAttempts ≤ attemptsUsed
  if retryable ∧ ¬ exhausted then
    let nextAttemptAt ← svc.nextAttemptAt attemptNumber finishedAt
    Queue.reschedule eventId attemptsUsed nextAttemptAt detail
    return ⟨some outcome, none⟩
  let reason := if retryable then "attempts exhausted" else "non-retryable failure"
  Queue.deadLetter eventId attemptsUsed (reason ++ " (" ++ exc.cls ++ "): " ++ detail)
  return ⟨some outcome, none⟩

/-- `process.py::_record_failure`. -/
def recordFailure (eventId : Nat) (exc : Exc) (startedAt : Time) : Program ProcessResult :=
  sessionScope do
    match ← Queue.loadForUpdate eventId with
    | none => return notClaimed
    | some event => svc.recordFailureOf eventId event exc startedAt

/-- The processing transaction of `process_event`. -/
def attempt (eventId : Nat) (startedAt : Time) : Program ProcessResult :=
  sessionScope do
    match ← Queue.claim eventId startedAt with
    | none => return notClaimed
    | some event => svc.apply event startedAt

/-- `process.py::process_event`. -/
def processEvent (eventId : Nat) : Program ProcessResult := do
  let startedAt ← execute .now
  try
    svc.attempt eventId startedAt
  catch exc =>
    if exc.isException then svc.recordFailure eventId exc startedAt else throw exc

end Service

/-! ## Replay (`services/replay.py`) -/

/-- `replay.py::ReplayResult`. -/
structure ReplayResult where
  eventId : Nat
  outcome : ReplayOutcome
  detail : Option String

/-- `replay.py::_outcome_of`. -/
def outcomeOf (result : ProcessResult) : ReplayOutcome × Option String :=
  if !result.claimed then (.skippedAlreadyProcessed, some "claimed by a worker first")
  else match result.effect with
    | some .applied => (.succeeded, none)
    | some .alreadyApplied => (.skippedAlreadyProcessed, some "effect already existed")
    | some .superseded => (.skippedAlreadyProcessed, some "superseded by newer state")
    | none => (.failed, some "processing failed; see the attempt history")

/-- `replay.py::_mark_dlq_replaying`. -/
def markDlqReplaying (eventId : Nat) (now : Time) : Program Unit := do
  match ← Dlq.entryForEvent eventId with
  | none => return ()
  | some entry =>
    if entry.status ≠ .needsReview then return ()
    let _ ← Dlq.transition entry.id .replaying now (some "replay requested")

/-- `replay.py::_settle_dlq`. -/
def settleDlq (eventId : Nat) (outcome : ReplayOutcome) (now : Time) : Program Unit := do
  match ← Dlq.entryForEvent eventId with
  | none => return ()
  | some entry =>
    if entry.status ≠ .replaying then return ()
    if outcome = .failed then
      let _ ← Dlq.transition entry.id .needsReview now (some "replay failed")
    else
      let _ ← Dlq.transition entry.id .resolved now (some ("replay " ++ outcome.value))

/-- The first transaction of `replay_event`. -/
def startReplay (eventId : Nat) (now : Time) : Program Unit :=
  sessionScope do
    match ← Queue.loadForUpdate eventId with
    | none => throw (eventNotFoundError ("event " ++ toString eventId ++ " does not exist"))
    | some _ =>
      Queue.requeue eventId now
      markDlqReplaying eventId now

/-- The last transaction of `replay_event`. -/
def finishReplay (eventId : Nat) (requestedBy : String) (reason : Option String) (now : Time)
    (outcome : ReplayOutcome) : Program Unit :=
  sessionScope do
    let resulting ← Queue.latestAttemptId eventId
    Queue.recordReplayRequest ⟨eventId, requestedBy, now, reason, outcome, resulting⟩
    let settledAt ← execute .now
    settleDlq eventId outcome settledAt

/-- `replay.py::replay_event`. -/
def Service.replayEvent (svc : Service) (eventId : Nat) (requestedBy : String)
    (reason : Option String) : Program ReplayResult := do
  let now ← execute .now
  startReplay eventId now
  let result ← svc.processEvent eventId
  finishReplay eventId requestedBy reason now (outcomeOf result).1
  return ⟨eventId, (outcomeOf result).1, (outcomeOf result).2⟩

/-! ## Triage (`api/admin.py`) -/

/-- The `resolve` and `discard` of `POST /dlq/{entry_id}/{action}`. -/
inductive TriageAction where
  | resolve | discard
  deriving DecidableEq

def TriageAction.target : TriageAction → DlqStatus
  | .resolve => .resolved
  | .discard => .discarded

def httpException (detail : String) : Exc := ⟨"HTTPException", detail, .other none⟩

/-- `admin.py::triage`. -/
def triage (entryId : Nat) (action : TriageAction) (note : Option String) : Program DlqRecord :=
  sessionScope do
    match ← Dlq.getEntry entryId with
    | none => throw (httpException "no such dead-letter entry")
    | some _ =>
      try
        let now ← execute .now
        Dlq.transition entryId action.target now note
      catch exc =>
        if exc.cls = "InvalidDlqTransitionError" then throw (httpException exc.message) else throw exc

/-! ## Retention (`sp_purge_history`) -/

def purgeEach (cutoff : Time) : List Nat → Program Nat
  | [] => pure 0
  | eventId :: rest => do
    let purged ← execute (.purgeEvent eventId cutoff)
    let more ← purgeEach cutoff rest
    return (if purged then 1 else 0) + more

/-- `sp_purge_history`: the attempts and the events it deleted. -/
def purgeHistory (olderThan : Int) : Program (Nat × Nat) :=
  sessionScope do
    let now ← execute .transactionNow
    let cutoff := now - olderThan
    let attempts ← execute (.purgeAttempts cutoff)
    let candidates ← execute (.purgeableEvents cutoff)
    let events ← purgeEach cutoff candidates
    return (attempts, events)

/-! ## Ingestion (`services/ingest.py`, `api/webhooks.py`) -/

/-- `ingest.py::IngestResult`. -/
structure IngestResult where
  eventId : Nat
  duplicate : Bool
  deriving DecidableEq

/-- `ingest.py::ingest_event`. -/
def ingestEvent (event : IncomingEvent) : Program IngestResult := do
  match ← execute (.insertEvent event) with
  | some insertedId => return ⟨insertedId, false⟩
  | none =>
    let existingId ← execute (.eventIdOf event.source event.idempotencyKey)
    return ⟨existingId, true⟩

/-- A request to `POST /v1/webhooks/{source}`. -/
structure Request where
  source : String
  headers : Headers
  rawBody : Bytes

inductive Response where
  | payloadTooLarge
  | unauthorized
  | badRequest (detail : String)
  | accepted (result : IngestResult)
  deriving DecidableEq

/-- The envelope of an authenticated request and its idempotency key. -/
def Service.route (svc : Service) (request : Request) : Except Exc (WebhookEnvelope × String) := do
  let envelope ← Schemas.parseEnvelope svc.wire request.rawBody
  let key ← Schemas.resolveIdempotencyKey envelope (request.headers.get? Schemas.idempotencyKeyHeader)
  return (envelope, key)

/-- The event that an authenticated, routable request stores. -/
def Request.event (request : Request) (routed : WebhookEnvelope × String) : IncomingEvent :=
  Schemas.toIncomingEvent request.source routed.1 routed.1.data (Schemas.redactHeaders request.headers)
    routed.2 true

/-- `webhooks.py::ingest`. -/
def Service.ingest (svc : Service) (request : Request) : Program Response :=
  if svc.settings.maxPayloadBytes < request.rawBody.length then return .payloadTooLarge
  else match svc.settings.secretForSource request.source with
  | none => return .unauthorized
  | some secret => do
    let now ← execute .now
    match Signature.verifySignature svc.hmac secret request.rawBody
        (request.headers.get? Signature.header) now
        svc.settings.signatureTimestampToleranceSeconds with
    | .error exc => if exc.kind = .signature then return .unauthorized else throw exc
    | .ok () =>
      match svc.route request with
      | .error exc => if exc.kind = .malformedPayload then return .badRequest exc.message else throw exc
      | .ok routed =>
        let result ← sessionScope (ingestEvent (request.event routed))
        return .accepted result

/-! ## The system -/

inductive Call where
  | process (eventId : Nat)
  | replay (eventId : Nat) (requestedBy : String) (reason : Option String)
  | triage (entryId : Nat) (action : TriageAction) (note : Option String)
  | ingest (event : IncomingEvent)
  | deliver (request : Request)
  | purge (olderThan : Int)

inductive Outcome where
  | processed (result : ProcessResult)
  | replayed (result : ReplayResult)
  | triaged (entry : DlqRecord)
  | ingested (result : IngestResult)
  | answered (response : Response)
  | purged (attempts events : Nat)

namespace Service

variable (svc : Service)

def program : Call → Program Outcome
  | .process eventId => do return .processed (← svc.processEvent eventId)
  | .replay eventId requestedBy reason => do
    return .replayed (← svc.replayEvent eventId requestedBy reason)
  | .triage entryId action note => do return .triaged (← triage entryId action note)
  | .ingest event => do return .ingested (← sessionScope (ingestEvent event))
  | .deliver request => do return .answered (← svc.ingest request)
  | .purge olderThan => do
    let (attempts, events) ← purgeHistory olderThan
    return .purged attempts events

/-- Any number of calls at once over one store. -/
def system : Txn.System Db Write Lock Input Call Stmt Stmt.Answer Exc Outcome where
  apply := Write.apply
  exec := fun avail input view s => s.exec avail input view
  program := svc.program

end Service

/-- A state of the running service. -/
abbrev World := Txn.World Db Write Lock Call Stmt Stmt.Answer Exc Outcome

abbrev Action := Txn.Action Input Call Exc

/-- A committed transaction. -/
abbrev Commit := Txn.Entry Db Write Call Stmt Stmt.Answer Exc

/-- What a thread has seen. -/
abbrev Trace := List (Txn.Ev Write Stmt Stmt.Answer Exc)

end WebhookReceiver
