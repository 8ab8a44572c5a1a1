import WebhookReceiver.Store.Facts
import WebhookReceiver.Services

/-!
What each transaction of the service commits.

Every description is about one store: the store that the transaction commits on.
It says which rows the writes are based on, as that store has them. That a program
of `Services` really commits only what is described here is `verified`; everything
said about runs is derived from these descriptions and from nothing else.
-/

namespace WebhookReceiver

/-! ## The runs a theorem speaks of -/

/-- The calls that may start, and the failures that may strike from outside. -/
structure Scope where
  calls : Call → Prop
  faults : Exc → Prop

/-- Anything may happen. -/
def Scope.any : Scope := ⟨fun _ => True, fun _ => True⟩

/-- Retention may run. -/
def Scope.purging (scope : Scope) : Prop := ∃ olderThan, scope.calls (.purge olderThan)

def Scope.permits (scope : Scope) : Action → Prop
  | .spawn _ call => scope.calls call
  | .fault _ e => scope.faults e
  | .lost _ e => scope.faults e
  | .run _ _ => True
  | .kill _ => True

def Call.isPurge : Call → Bool
  | .purge _ => true
  | _ => false

def Call.isReplay : Call → Bool
  | .replay .. => true
  | _ => false

/-- Anything but a replay. -/
def Scope.withoutReplay : Scope := ⟨fun call => call.isReplay = false, fun _ => True⟩

/-- Anything but retention. -/
def Scope.withoutPurge : Scope := ⟨fun call => call.isPurge = false, fun _ => True⟩

/-- Some run within the scope leads from one state to the other. -/
def Service.Reaches (svc : Service) (scope : Scope) : World → World → Prop :=
  Txn.Reach svc.system fun _ action => scope.permits action

/-! ## Effects (`adapters/ledger.py`) -/

/-- The account that `_account_id` answers, as its transaction sees it, and the
writes that made it. -/
inductive AccountFor (db : Db) (externalRef : String) : AccountRow → List Write → Prop where
  | existing {row : AccountRow} (member : row ∈ db.accounts) (named : row.externalRef = externalRef) :
      AccountFor db externalRef row []
  | created {id : Nat} (absent : ∀ row ∈ db.accounts, row.externalRef ≠ externalRef)
      (fresh : ∀ row ∈ db.accounts, row.id ≠ id) :
      AccountFor db externalRef ⟨⟨0, 0⟩, id, externalRef⟩ [.insertAccount ⟨⟨0, 0⟩, id, externalRef⟩]

/-- What `apply_effect` writes. A snapshot compares itself with a version and a
balance it read before it writes; that they are still the account's own takes the
entity lock, which is what `strict` stands for. -/
inductive Applied (strict : Prop) (db : Db) (event : StoredEvent) :
    Effect → EffectResult → List Write → Prop where
  | credit {effect : Credit} {row : AccountRow} {created : List Write} {id : Nat}
      (account : AccountFor db effect.accountRef row created)
      (first : ∀ entry ∈ db.ledger, entry.eventId ≠ event.id)
      (inRange : isBigint effect.amountMinor ∧ isBigint (row.balanceMinor + effect.amountMinor) ∧
        isBigint (max row.version (event.providerSequence.getD 0)) ∧
        0 ≤ max row.version (event.providerSequence.getD 0)) :
      Applied strict db event (.credit effect) .applied (created ++ [
        .insertLedger ⟨id, row.id, event.id, effect.amountMinor⟩,
        .updateAccount row.id
          ⟨row.balanceMinor + effect.amountMinor, max row.version (event.providerSequence.getD 0)⟩])
  | creditAgain {effect : Credit} {row : AccountRow} {created : List Write}
      (account : AccountFor db effect.accountRef row created)
      (again : ∃ entry ∈ db.ledger, entry.eventId = event.id) (inRange : isBigint effect.amountMinor) :
      Applied strict db event (.credit effect) .alreadyApplied created
  | superseded {effect : SetBalance} {row : AccountRow} {created : List Write}
      (account : AccountFor db effect.accountRef row created)
      (stale : strict → effect.sequence ≤ row.version) :
      Applied strict db event (.setBalance effect) .superseded created
  | snapshot {effect : SetBalance} {row : AccountRow} {created : List Write} {id : Nat} {delta : Int}
      (account : AccountFor db effect.accountRef row created)
      (first : ∀ entry ∈ db.ledger, entry.eventId ≠ event.id)
      (newer : strict → row.version < effect.sequence)
      (moved : strict → delta = effect.balanceMinor - row.balanceMinor)
      (inRange : isBigint delta ∧ isBigint effect.balanceMinor ∧ isBigint effect.sequence ∧
        0 ≤ effect.sequence) :
      Applied strict db event (.setBalance effect) .applied (created ++ [
        .insertLedger ⟨id, row.id, event.id, delta⟩,
        .updateAccount row.id ⟨effect.balanceMinor, effect.sequence⟩])
  | snapshotAgain {effect : SetBalance} {row : AccountRow} {created : List Write} {delta : Int}
      (account : AccountFor db effect.accountRef row created)
      (newer : strict → row.version < effect.sequence)
      (moved : strict → delta = effect.balanceMinor - row.balanceMinor)
      (again : ∃ entry ∈ db.ledger, entry.eventId = event.id) (inRange : isBigint delta) :
      Applied strict db event (.setBalance effect) .alreadyApplied created

/-! ## Passes (`services/process.py`) -/

/-- The attempt is numbered after every attempt of the event. -/
structure NextAttempt (db : Db) (eventId : Nat) (attempt : AttemptRow) : Prop where
  event : attempt.eventId = eventId
  inRange : isInteger attempt.attemptNumber
  later : ∀ row ∈ db.attempts, row.eventId = eventId → row.attemptNumber < attempt.attemptNumber

/-- What is left of `_record_failure` after the attempt: another try, or the
dead-letter queue. An entry that the event already has stays as it is. -/
inductive Verdict (svc : Service) (db : Db) (event : EventRow) (exc : Exc) (attempt : AttemptRow) :
    List Write → Prop where
  | rescheduled {delay : ℚ} (retryable : isRetryable exc = true)
      (left : event.attemptCount + 1 < svc.settings.maxAttempts) (start : 0 ≤ delay)
      (cap : delay ≤ backoffCeiling attempt.attemptNumber svc.settings.backoffBaseSeconds
        svc.settings.backoffCapSeconds) :
      Verdict svc db event exc attempt [.updateEvent event.id { event.toEventQueue with
        status := .pending
        attemptCount := event.attemptCount + 1
        nextAttemptAt := attempt.finishedAt + timedelta delay
        lastError := some (redactedDetail exc) }]
  | deadLettered {reason : String} {filed : List Write}
      (spent : isRetryable exc = true → svc.settings.maxAttempts ≤ event.attemptCount + 1)
      (filing : (∃ row ∈ db.entries, row.eventId = event.id) ∧ filed = [] ∨
        (∀ row ∈ db.entries, row.eventId ≠ event.id) ∧
          ∃ id at', filed = [.insertEntry
            ⟨⟨.needsReview, none, none⟩, id, event.id, reason, event.attemptCount + 1, at'⟩]) :
      Verdict svc db event exc attempt (.updateEvent event.id { event.toEventQueue with
        status := .deadLettered
        attemptCount := event.attemptCount + 1
        lastError := some reason } :: filed)

/-- What the processing transaction commits. -/
inductive Dealt (svc : Service) (eventId : Nat) (db : Db) : EffectResult → List Write → Prop where
  | mk {event : EventRow} {effect : Effect} {result : EffectResult} {business : List Write}
      {attempt : AttemptRow}
      (found : db.event? eventId = some event) (pending : event.status = .pending)
      (due : event.nextAttemptAt ≤ attempt.startedAt)
      (dispatched : svc.registry.dispatch event.toDomain = .ok effect)
      (applied : Applied svc.registry.OwnsEntity db event.toDomain effect result business)
      (next : NextAttempt db eventId attempt) (outcome : attempt.outcome = successOutcome result) :
      Dealt svc eventId db result (business ++ [.insertAttempt attempt,
        .updateEvent eventId { event.toEventQueue with
          status := .succeeded
          attemptCount := event.attemptCount + 1
          processedAt := some attempt.finishedAt
          lastError := none }])

/-- What the failure transaction commits. It finds the event by its id, whatever its
status is. -/
inductive Failed (svc : Service) (eventId : Nat) (db : Db) : List Write → Prop where
  | mk {event : EventRow} {exc : Exc} {attempt : AttemptRow} {verdict : List Write}
      (found : db.event? eventId = some event) (next : NextAttempt db eventId attempt)
      (outcome : attempt.outcome =
        if isRetryable exc then .retryableError else .nonRetryableError)
      (recorded : attempt.errorClass = some exc.cls ∧ attempt.errorDetail = some (redactedDetail exc))
      (judged : Verdict svc db event exc attempt verdict) :
      Failed svc eventId db (.insertAttempt attempt :: verdict)

/-- Without retention the attempts of an event are numbered without a gap. -/
def Numbered (purging : Prop) (db : Db) (writes : List Write) : Prop :=
  ¬ purging → ∀ attempt, Write.insertAttempt attempt ∈ writes →
    attempt.attemptNumber = db.nextAttemptNumber attempt.eventId

/-- What a transaction of `process_event` commits. Nothing at all means that nothing
was claimed, or that there was nothing to record a failure of. -/
inductive PassTx (svc : Service) (eventId : Nat) (db : Db) : List Write → Prop where
  | idle : PassTx svc eventId db []
  | dealt {result : EffectResult} {writes : List Write} (done : Dealt svc eventId db result writes) :
      PassTx svc eventId db writes
  | failed {writes : List Write} (done : Failed svc eventId db writes) : PassTx svc eventId db writes

/-! ## Replay, triage, ingestion and retention -/

/-- `dlq.transition`: a legal move from the status the entry has. -/
inductive Moves (db : Db) (target : DlqStatus) : EntryRow → List Write → Prop where
  | move {row : EntryRow} {now : Time} {note : Option String} (member : row ∈ db.entries)
      (legal : target ∈ row.status.allowed) :
      Moves db target row [.updateEntry row.id
        ⟨target, if target.terminal then some now else row.resolvedAt, note⟩]

/-- The first transaction of `replay_event`. An entry that waits for review does not
wait on. -/
inductive StartTx (eventId : Nat) (db : Db) : List Write → Prop where
  | requeued {event : EventRow} {now : Time} {marked : List Write}
      (found : db.event? eventId = some event)
      (marks : marked = [] ∨ ∃ row, row.eventId = eventId ∧ Moves db .replaying row marked)
      (unmarked : marked = [] → (Fact.noEntryIn eventId .needsReview).holds db) :
      StartTx eventId db (.updateEvent eventId ⟨.pending, 0, now, none, none⟩ :: marked)

/-- The first time that the call has read. -/
def Trace.clock (trace : Trace) : Option Time :=
  trace.findSome? fun
    | .stmt .now (.ok now) => some now
    | _ => none

/-- The event is due again when the call began. -/
def Clocked (eventId : Nat) (trace : Trace) (writes : List Write) : Prop :=
  ∀ queue, Write.updateEvent eventId queue ∈ writes → trace.clock = some queue.nextAttemptAt

/-- A statement looked for the event and came back with nothing. -/
def missed (eventId : Nat) : Txn.Ev Write Stmt Stmt.Answer Exc → Bool
  | .stmt (.claim id _) (.ok none) => id = eventId
  | .stmt (.loadForUpdate id) (.ok none) => id = eventId
  | _ => false

/-- The pass in this trace found nothing to claim. -/
def Trace.unclaimed (eventId : Nat) (trace : Trace) : Bool := trace.any (missed eventId)

theorem Trace.unclaimed_mono {eventId : Nat} {trace more : Trace} (kept : trace ⊆ more)
    (unclaimed : trace.unclaimed eventId = true) : more.unclaimed eventId = true := by
  obtain ⟨ev, member, hit⟩ := List.any_eq_true.mp unclaimed
  exact List.any_eq_true.mpr ⟨ev, kept member, hit⟩

/-- The last transaction of `replay_event`. An outcome other than a failure means
that the replay found nothing to claim, or that its own pass dealt with the event. It
leaves no entry of the event in replay. -/
inductive FinishTx (purging : Prop) (eventId : Nat) (trace : Trace) (db : Db) : List Write → Prop where
  | finished {request : ReplayRequest} {settled : List Write} (about : request.eventId = eventId)
      (honest : request.outcome ≠ .failed →
        trace.unclaimed eventId = true ∨ (¬ purging → (Fact.dealtWith eventId).holds db))
      (settles : settled = [] ∨ ∃ row, row.eventId = eventId ∧
        (request.outcome = .failed ∧ Moves db .needsReview row settled ∨
          request.outcome ≠ .failed ∧ Moves db .resolved row settled))
      (unsettled : settled = [] → (Fact.noEntryIn eventId .replaying).holds db) :
      FinishTx purging eventId trace db (.insertReplay request :: settled)

/-- What `ingest_event` is about to answer, from what it has seen. -/
def Trace.ingestAnswer (trace : Trace) : Option IngestResult :=
  match trace.getLast? with
  | some (.stmt (.insertEvent _) (.ok (some id))) => some ⟨id, false⟩
  | some (.stmt (.eventIdOf _ _) (.ok id)) => some ⟨id, true⟩
  | _ => none

/-- The transaction of `ingest_event`. -/
inductive IngestTx (purging : Prop) (event : IncomingEvent) (db : Db) :
    IngestResult → List Write → Prop where
  | inserted {id : Nat} {at' : Time} (storable : event.storable = true)
      (fresh : ∀ row ∈ db.events, row.id ≠ id) (unused : id ∉ db.purged)
      (first : ∀ row ∈ db.events,
        ¬ (row.source = event.source ∧ row.idempotencyKey = event.idempotencyKey)) :
      IngestTx purging event db ⟨id, false⟩ [.insertEvent { event with
        status := .pending, attemptCount := 0, nextAttemptAt := at', processedAt := none,
        lastError := none, id := id, receivedAt := at' }]
  | duplicate {id : Nat} (known : ¬ purging → ∃ row ∈ db.events, row.id = id ∧
        row.source = event.source ∧ row.idempotencyKey = event.idempotencyKey)
      (storable : event.storable = true) :
      IngestTx purging event db ⟨id, true⟩ []

/-- One write of `sp_purge_history`. -/
inductive Purges (db : Db) : Write → Prop where
  | attempts {ids : List Nat} : Purges db (.deleteAttempts ids)
  | event {row : EventRow} {cutoff : Time} (found : db.event? row.id = some row)
      (expired : row.expired cutoff = true) (free : ∀ entry ∈ db.ledger, entry.eventId ≠ row.id) :
      Purges db (.deleteEvent row.id)

/-! ## Calls -/

/-- What a call commits, transaction by transaction. -/
def Describes (svc : Service) (scope : Scope) : Call → Trace → Db → List Write → Prop
  | .process eventId, _, db, writes => PassTx svc eventId db writes ∧ Numbered scope.purging db writes
  | .replay eventId _ _, trace, db, writes =>
    (StartTx eventId db writes ∧ Clocked eventId trace writes) ∨
      (PassTx svc eventId db writes ∧ Numbered scope.purging db writes) ∨
      FinishTx scope.purging eventId trace db writes
  | .triage entryId action _, _, db, writes =>
    ∃ row, row.id = entryId ∧ Moves db action.target row writes
  | .ingest event, trace, db, writes =>
    ∃ result, trace.ingestAnswer = some result ∧ IngestTx scope.purging event db result writes
  | .deliver request, trace, db, writes =>
    ∃ routed result, svc.route request = .ok routed ∧ trace.ingestAnswer = some result ∧
      IngestTx scope.purging (request.event routed) db result writes
  | .purge _, _, db, writes => ∀ write ∈ writes, Purges db write

/-- The trace ends with the commit that the answer is about. -/
def Trace.answers (trace : Trace) (result : IngestResult) : Prop :=
  ∃ before writes, trace = before ++ [.committed writes] ∧ Trace.ingestAnswer before = some result

/-- The call has asked the store nothing but the time. -/
def Trace.asked (trace : Trace) (now : Time) : Prop := trace = [.stmt .now (.ok now)]

/-- The signature of the request is refused at the time that the call has read. -/
def Service.refuses (svc : Service) (request : Request) (trace : Trace) (e : Exc) : Prop :=
  ∃ secret now, svc.settings.secretForSource request.source = some secret ∧ trace.asked now ∧
    Signature.verifySignature svc.hmac secret request.rawBody
      (request.headers.get? Signature.header) now
      svc.settings.signatureTimestampToleranceSeconds = .error e

/-- What a request is answered, and what the answer says of its call. -/
def Answers (svc : Service) (request : Request) (trace : Trace) : Response → Prop
  | .payloadTooLarge => svc.settings.maxPayloadBytes < request.rawBody.length
  | .unauthorized =>
    svc.settings.secretForSource request.source = none ∨ ∃ e, svc.refuses request trace e
  | .badRequest _ =>
    (∃ now, trace.asked now) ∧ ∃ e, svc.route request = .error e ∧ e.kind = .malformedPayload
  | .accepted result =>
    trace.answers result ∧
      ∃ routed, svc.route request = .ok routed ∧ (request.event routed).storable = true

/-- Nothing that the call has done is part of a transaction that has ended. -/
def Trace.isOpen (trace : Trace) : Prop := ∀ ev ∈ trace, ∃ s answer, ev = .stmt s answer

/-- A move of the entry is illegal from the status that the call found it in. -/
def Trace.forbids (trace : Trace) (entryId : Nat) (target : DlqStatus) (e : Exc) : Prop :=
  ∃ current, .stmt (.entryStatusForUpdate entryId) (.ok current) ∈ trace ∧
    ensureTransition current target = .error e

/-- Why a triage request that nothing struck from outside is refused: it found no
entry, or the move is illegal. -/
def Refused (entryId : Nat) (target : DlqStatus) (e : Exc) (trace : Trace) : Prop :=
  (.stmt (.getEntry entryId) (.ok none) ∈ trace ∧ e = httpException "no such dead-letter entry") ∨
    (.stmt (.entryStatusForUpdate entryId) (.error e) ∈ trace ∧ e = noResultFound) ∨
    ∃ exc, trace.forbids entryId target exc ∧ e = httpException exc.message

/-- What a call returns, and what it can raise. -/
def Returns (svc : Service) (scope : Scope) : Call → Except Exc Outcome → Trace → Prop
  | .triage entryId _ _, .ok _, trace =>
    ∃ seen triage, trace = seen ++ [.committed [.updateEntry entryId triage]]
  | .triage entryId action _, .error e, trace =>
    (∃ struck, scope.faults struck ∧ (e = struck ∨ e = httpException struck.message)) ∨
      ∃ seen, trace = seen ++ [.rolledBack] ∧ Trace.isOpen seen ∧ Refused entryId action.target e seen
  | .ingest _, .ok (.ingested result), trace => trace.answers result
  | .ingest event, .error e, _ => scope.faults e ∨ event.storable = false ∨ scope.purging
  | .deliver request, .ok (.answered response), trace => Answers svc request trace response
  | .deliver _, .ok _, _ => False
  | .deliver request, .error e, trace =>
    scope.faults e ∨ scope.purging ∨
      (∃ routed, svc.route request = .ok routed ∧ (request.event routed).storable = false) ∨
      (svc.route request = .error e ∧ e.kind ≠ .malformedPayload) ∨ svc.refuses request trace e
  | _, _, _ => True

end WebhookReceiver
