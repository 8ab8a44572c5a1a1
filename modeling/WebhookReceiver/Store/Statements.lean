import Mathlib.Algebra.Order.Ring.Rat
import WebhookReceiver.Domain.Failure
import WebhookReceiver.Domain.Triage
import WebhookReceiver.Store.Schema
import WebhookReceiver.Txn.World

/-!
The SQL statements the service issues, and what Postgres does with each at READ
COMMITTED.

A statement sees `view`, the committed store with the transaction's own writes.
`avail` says which locks are free to it. An insert under a unique key waits while
another transaction has an uncommitted insert of that key (`ON CONFLICT DO NOTHING`
does too) and uses up an identity value whether or not it inserts. A foreign key
takes `FOR KEY SHARE` on the referenced row. What Postgres refuses, it refuses with
the exception SQLAlchemy raises; any other failure of a statement is the
environment's (`Txn.Action.fault`).
-/

namespace WebhookReceiver

open Txn (Mode Reply)

/-- What the outside supplies to a step: the clocks of the process and of the
database, and a random number. -/
structure Input where
  now : Time
  dbNow : Time
  draw : {u : ℚ // 0 ≤ u ∧ u ≤ 1}

/-- `dlq.py::DlqRecord`. -/
structure DlqRecord where
  id : Nat
  eventId : Nat
  source : String
  eventType : String
  entityType : String
  entityId : String
  externalId : String
  reason : String
  attemptsMade : Nat
  deadLetteredAt : Time
  status : DlqStatus
  resolvedAt : Option Time
  resolutionNote : Option String

/-- `dlq.py::_to_record`. -/
def toRecord (entry : EntryRow) (event : EventRow) : DlqRecord where
  id := entry.id
  eventId := entry.eventId
  source := event.source
  eventType := event.eventType
  entityType := event.entityType
  entityId := event.entityId
  externalId := event.externalId
  reason := entry.reason
  attemptsMade := entry.attemptsMade
  deadLetteredAt := entry.deadLetteredAt
  status := entry.status
  resolvedAt := entry.resolvedAt
  resolutionNote := entry.resolutionNote

inductive Stmt where
  /-- `clock.now()`. -/
  | now
  /-- `rng.uniform(low, high)`. -/
  | uniform (low high : ℚ)
  /-- `queue.claim`: `FOR UPDATE SKIP LOCKED`. -/
  | claim (eventId : Nat) (now : Time)
  /-- `queue.load_for_update`. -/
  | loadForUpdate (eventId : Nat)
  /-- The `max(attempt_number)` of `queue.next_attempt_number`. -/
  | maxAttemptNumber (eventId : Nat)
  /-- `UPDATE webhook_event SET ... WHERE id = ...`. -/
  | updateEvent (eventId : Nat) (values : EventQueue → EventQueue)
  | insertAttempt (attempt : Attempt)
  /-- `queue.latest_attempt_id`. -/
  | latestAttemptId (eventId : Nat)
  | insertReplayRequest (request : ReplayRequest)
  /-- `INSERT INTO dead_letter_entry ... ON CONFLICT DO NOTHING`. -/
  | insertDeadLetterEntry (eventId attemptsMade : Nat) (reason : String)
  /-- `dlq.entry_for_event`. -/
  | entryForEvent (eventId : Nat)
  /-- `dlq.get_entry`. -/
  | getEntry (entryId : Nat)
  /-- `SELECT status FROM dead_letter_entry WHERE id = ... FOR UPDATE`. -/
  | entryStatusForUpdate (entryId : Nat)
  | updateEntry (entryId : Nat) (values : EntryTriage → EntryTriage)
  /-- `set_config('lock_timeout', ..., true)`. -/
  | setLockTimeout (timeout : String)
  | advisoryXactLock (key : Int)
  /-- `INSERT INTO account ... ON CONFLICT DO NOTHING RETURNING id`. -/
  | insertAccount (externalRef : String)
  | accountIdOf (externalRef : String)
  | balanceAndVersion (accountId : Nat)
  /-- `INSERT INTO ledger_entry ... ON CONFLICT DO NOTHING RETURNING id`. -/
  | insertLedgerEntry (accountId eventId : Nat) (amountMinor : Int)
  /-- `UPDATE account SET ... WHERE id = ...`, computed from the row it writes and from
  the argument that the payload gives; the other arguments come from `bigint` columns. -/
  | updateAccount (accountId : Nat) (given : Int) (values : AccountState → AccountState)
  /-- `INSERT INTO webhook_event ... ON CONFLICT DO NOTHING RETURNING id`. -/
  | insertEvent (event : IncomingEvent)
  | eventIdOf (source idempotencyKey : String)
  /-- `now()` of `sp_purge_history`. -/
  | transactionNow
  /-- The first `DELETE` of `sp_purge_history`. -/
  | purgeAttempts (cutoff : Time)
  /-- The rows that the second `DELETE` of `sp_purge_history` goes through. -/
  | purgeableEvents (cutoff : Time)
  /-- That `DELETE` at one row: it waits for the row and checks it again. -/
  | purgeEvent (eventId : Nat) (cutoff : Time)

abbrev Stmt.Answer : Stmt → Type
  | .now | .transactionNow => Time
  | .uniform .. => ℚ
  | .claim .. | .loadForUpdate .. => Option StoredEvent
  | .maxAttemptNumber .. | .latestAttemptId .. => Option Nat
  | .updateEvent .. | .insertAttempt .. | .insertReplayRequest .. | .insertDeadLetterEntry .. => Unit
  | .entryForEvent .. | .getEntry .. => Option DlqRecord
  | .entryStatusForUpdate .. => DlqStatus
  | .updateEntry .. | .setLockTimeout .. | .advisoryXactLock .. | .updateAccount .. => Unit
  | .insertAccount .. | .insertLedgerEntry .. | .insertEvent .. => Option Nat
  | .accountIdOf .. | .eventIdOf .. => Nat
  | .balanceAndVersion .. => AccountState
  | .purgeAttempts .. => Nat
  | .purgeableEvents .. => List Nat
  | .purgeEvent .. => Bool

/-! ## What a column takes -/

/-- A `bigint`. -/
def isBigint (n : Int) : Bool := decide (-(2 ^ 63) ≤ n) && decide (n < 2 ^ 63)

/-- An `integer`. -/
def isInteger (n : Int) : Bool := decide (-(2 ^ 31) ≤ n) && decide (n < 2 ^ 31)

/-- `text` and the strings of `jsonb` refuse the NUL character. -/
def isText (s : String) : Bool := s.toList.all fun c => c.toNat ≠ 0

/-- The escapes that `jsonb` takes: no NUL, and surrogates in pairs only. -/
def isJsonText : List Nat → Bool
  | [] => true
  | [c] => c ≠ 0 && !decide (0xd800 ≤ c ∧ c < 0xe000)
  | c :: d :: rest =>
    if 0xd800 ≤ c ∧ c < 0xdc00 then decide (0xdc00 ≤ d ∧ d < 0xe000) && isJsonText rest
    else c ≠ 0 && !decide (0xdc00 ≤ c ∧ c < 0xe000) && isJsonText (d :: rest)

def PyStr.storable (s : PyStr) : Bool := isJsonText (s.codePoints.map (·.val))

mutual
/-- What `jsonb` takes: no such text, no NaN and no infinity. -/
def Json.storable : Json → Bool
  | .null | .bool _ | .int _ => true
  | .float text => text ≠ "nan" ∧ text ≠ "inf" ∧ text ≠ "-inf"
  | .str s => s.storable
  | .arr items => storableItems items
  | .obj fields => storableFields fields

def storableItems : List Json → Bool
  | [] => true
  | item :: rest => item.storable && storableItems rest

def storableFields : List (PyStr × Json) → Bool
  | [] => true
  | (name, value) :: rest => name.storable && value.storable && storableFields rest
end

/-- Every column of `webhook_event` takes its value; an instant that has no `datetime` in
UTC is refused by the driver. -/
def IncomingEvent.storable (event : IncomingEvent) : Bool :=
  isText event.source && isText event.externalId && isText event.idempotencyKey &&
    isText event.eventType && isText event.entityType && isText event.entityId &&
    storableFields event.payload && storableFields event.headers &&
    event.providerSequence.all isBigint &&
    decide (datetimeMin ≤ event.occurredAt ∧ event.occurredAt ≤ datetimeMax)

/-! ## Execution -/

abbrev Result (s : Stmt) := Option (Reply Write Lock Exc s.Answer)

/-- A statement that only reads. -/
def read {ρ : Type} (answer : ρ) (locks : List (Lock × Mode)) : Option (Reply Write Lock Exc ρ) :=
  some { answer := .ok answer, locks := locks }

/-- A statement that Postgres refuses. -/
def refuse {ρ : Type} (e : Exc) : Option (Reply Write Lock Exc ρ) := some { answer := .error e }

/-- The event has ended well, and long enough ago. -/
def EventRow.expired (row : EventRow) (cutoff : Time) : Bool :=
  row.status = .succeeded ∧ row.processedAt.any fun at' => at' < cutoff

variable (avail : Lock → Mode → Bool) (input : Input) (view : Db)

/-- An insert under a unique key: wait for a pending one, give way to a committed
one, else check the foreign keys and insert. -/
def insertUnder {ρ : Type} (key : Lock) (table : Table) (taken : Bool) (conflict : Except Exc ρ)
    (unmet : Option Exc) (inserted : ρ) (write : Write) (locks : List (Lock × Mode)) :
    Option (Reply Write Lock Exc ρ) :=
  if avail key .share then
    if taken then some { answer := conflict, instant := [.draw table] }
    else match unmet with
      | some e => some { answer := .error e, instant := [.draw table] }
      | none => some {
          answer := .ok inserted
          writes := [write]
          instant := [.draw table]
          locks := (key, .excl) :: locks }
  else none

/-- A constraint, with what its violation raises. -/
def check (violated : Bool) (e : Exc) : Option Exc := if violated then some e else none

private def foreignKey (table : String) : Exc :=
  integrityError "23503" ("insert violates a foreign key of " ++ table)

def execInsertAttempt (attempt : Attempt) : Option (Reply Write Lock Exc Unit) :=
  let id := view.seq .attempt
  let unmet :=
    (check (attempt.attemptNumber = 0) (integrityError "23514" "attempt_number_positive")).or <|
    (check (!isInteger attempt.attemptNumber || !isInteger attempt.durationMs)
      (dataError "value out of int32 range")).or <|
    check (view.event? attempt.eventId).isNone (foreignKey "processing_attempt")
  insertUnder avail (.attemptNumber attempt.eventId attempt.attemptNumber) .attempt
    (view.attempts.any fun row => row.eventId = attempt.eventId ∧ row.attemptNumber = attempt.attemptNumber)
    (.error (integrityError "23505" "uq_processing_attempt_event_id_attempt_number")) unmet ()
    (.insertAttempt { attempt with id := id })
    [(.attemptRow id, .excl), (.eventRow attempt.eventId, .share)]

def execInsertDeadLetterEntry (eventId attemptsMade : Nat) (reason : String) :
    Option (Reply Write Lock Exc Unit) :=
  let id := view.seq .entry
  let unmet := check (view.event? eventId).isNone (foreignKey "dead_letter_entry")
  insertUnder avail (.dlqKey eventId) .entry (view.entryOf? eventId).isSome (.ok ()) unmet ()
    (.insertEntry ⟨⟨.needsReview, none, none⟩, id, eventId, reason, attemptsMade, input.dbNow⟩)
    [(.entryRow id, .excl), (.eventRow eventId, .share)]

def execInsertReplayRequest (request : ReplayRequest) : Option (Reply Write Lock Exc Unit) :=
  if (view.event? request.eventId).isNone then refuse (foreignKey "replay_request")
  else if request.resultingAttemptId.any fun id => view.attempts.all fun row => row.id ≠ id then
    refuse (foreignKey "replay_request")
  else some {
    answer := .ok ()
    writes := [.insertReplay request]
    locks := (.eventRow request.eventId, .share) ::
      request.resultingAttemptId.toList.map fun id => (.attemptRow id, .share) }

def execInsertAccount (externalRef : String) : Option (Reply Write Lock Exc (Option Nat)) :=
  let id := view.seq .account
  insertUnder avail (.accountKey externalRef) .account (view.accountOf? externalRef).isSome (.ok none)
    none (some id) (.insertAccount ⟨⟨0, 0⟩, id, externalRef⟩) [(.accountRow id, .excl)]

def execInsertLedgerEntry (accountId eventId : Nat) (amountMinor : Int) :
    Option (Reply Write Lock Exc (Option Nat)) :=
  let id := view.seq .ledger
  let unmet :=
    check ((view.account? accountId).isNone || (view.event? eventId).isNone) (foreignKey "ledger_entry")
  if !isBigint amountMinor then refuse (invalidArgument 3 amountMinor)
  else insertUnder avail (.ledgerKey eventId) .ledger (view.ledgerOf? eventId).isSome (.ok none) unmet
    (some id) (.insertLedger ⟨id, accountId, eventId, amountMinor⟩) [(.eventRow eventId, .share)]

def execInsertEvent (event : IncomingEvent) : Option (Reply Write Lock Exc (Option Nat)) :=
  let id := view.seq .event
  let row : EventRow :=
    { event with
      status := .pending, attemptCount := 0, nextAttemptAt := input.dbNow, processedAt := none,
      lastError := none, id := id, receivedAt := input.dbNow }
  if !event.storable then refuse (dataError "invalid input for a column of webhook_event")
  else insertUnder avail (.eventKey event.source event.idempotencyKey) .event
    (view.eventOfKey? event.source event.idempotencyKey).isSome (.ok none) none (some id)
    (.insertEvent row) [(.eventRow id, .excl)]

/-- `UPDATE account`: the row is locked, then written. -/
def execUpdateAccount (accountId : Nat) (given : Int) (values : AccountState → AccountState) :
    Option (Reply Write Lock Exc Unit) :=
  if !isBigint given then refuse (invalidArgument 1 given)
  else match view.account? accountId with
  | none => read () []
  | some row =>
    let state := values row.toAccountState
    if !isBigint state.balanceMinor || !isBigint state.version then
      refuse (dataError "bigint out of range")
    else if state.version < 0 then refuse (integrityError "23514" "version_non_negative")
    else some {
      answer := .ok ()
      writes := [.updateAccount accountId state]
      locks := [(.accountRow accountId, .excl)] }

/-- `UPDATE dead_letter_entry`, with the trigger `trg_dlq_terminal_is_terminal`. -/
def execUpdateEntry (entryId : Nat) (values : EntryTriage → EntryTriage) :
    Option (Reply Write Lock Exc Unit) :=
  match view.entry? entryId with
  | none => read () []
  | some row =>
    let triage := values row.toEntryTriage
    if row.status.terminal && triage.status ≠ row.status then
      refuse (integrityError "23000" "dead_letter_entry is terminal")
    else some {
      answer := .ok ()
      writes := [.updateEntry entryId triage]
      locks := [(.entryRow entryId, .excl)] }

def execPurgeEvent (eventId : Nat) (cutoff : Time) : Option (Reply Write Lock Exc Bool) :=
  match view.event? eventId with
  | none => read false []
  | some row =>
    if row.expired cutoff && (view.ledgerOf? eventId).isNone then
      some {
        answer := .ok true
        writes := [.deleteEvent eventId]
        locks := (.eventRow eventId, .excl) :: (.eventKey row.source row.idempotencyKey, .excl) ::
          ((view.entries.filter fun entry => entry.eventId = eventId).map fun entry =>
            (.entryRow entry.id, .excl)) ++
          (view.attemptsOf eventId).map fun attempt => (.attemptRow attempt.id, .excl) }
    else read false []

def execPurgeAttempts (cutoff : Time) : Option (Reply Write Lock Exc Nat) :=
  let ids := (view.attempts.filter fun row =>
    (view.event? row.eventId).any fun event => event.expired cutoff).map (·.id)
  some {
    answer := .ok ids.length
    writes := [.deleteAttempts ids]
    locks := ids.map fun id => (.attemptRow id, .excl) }

def Stmt.exec : (s : Stmt) → Result s
  | .now => read input.now []
  | .transactionNow => read input.dbNow []
  | .uniform low high => read (low + (high - low) * input.draw) []
  | .claim eventId due =>
    match view.event? eventId with
    | none => read none []
    | some row =>
      if row.status = .pending ∧ row.nextAttemptAt ≤ due ∧ avail (.eventRow eventId) .excl then
        read (some row.toDomain) [(.eventRow eventId, .excl)]
      else read none []
  | .loadForUpdate eventId =>
    match view.event? eventId with
    | none => read none []
    | some row => read (some row.toDomain) [(.eventRow eventId, .excl)]
  | .maxAttemptNumber eventId => read ((view.attemptsOf eventId).map (·.attemptNumber)).max? []
  | .updateEvent eventId values =>
    match view.event? eventId with
    | none => read () []
    | some row => some {
        answer := .ok ()
        writes := [.updateEvent eventId (values row.toEventQueue)]
        locks := [(.eventRow eventId, .excl)] }
  | .insertAttempt attempt => execInsertAttempt avail view attempt
  | .latestAttemptId eventId => read ((view.attemptsOf eventId).map (·.id)).max? []
  | .insertReplayRequest request => execInsertReplayRequest view request
  | .insertDeadLetterEntry eventId attemptsMade reason =>
    execInsertDeadLetterEntry avail input view eventId attemptsMade reason
  | .entryForEvent eventId =>
    read (do return toRecord (← view.entryOf? eventId) (← view.event? eventId)) []
  | .getEntry entryId =>
    read (do let entry ← view.entry? entryId; return toRecord entry (← view.event? entry.eventId)) []
  | .entryStatusForUpdate entryId =>
    match view.entry? entryId with
    | none => refuse noResultFound
    | some row => read row.status [(.entryRow entryId, .excl)]
  | .updateEntry entryId values => execUpdateEntry view entryId values
  | .setLockTimeout _ => read () []
  | .advisoryXactLock key => read () [(.advisory key, .excl)]
  | .insertAccount externalRef => execInsertAccount avail view externalRef
  | .accountIdOf externalRef =>
    match view.accountOf? externalRef with
    | none => refuse noResultFound
    | some row => read row.id []
  | .balanceAndVersion accountId =>
    match view.account? accountId with
    | none => refuse noResultFound
    | some row => read row.toAccountState []
  | .insertLedgerEntry accountId eventId amountMinor =>
    execInsertLedgerEntry avail view accountId eventId amountMinor
  | .updateAccount accountId given values => execUpdateAccount view accountId given values
  | .insertEvent event => execInsertEvent avail input view event
  | .eventIdOf source idempotencyKey =>
    match view.eventOfKey? source idempotencyKey with
    | none => refuse noResultFound
    | some row => read row.id []
  | .purgeAttempts cutoff => execPurgeAttempts view cutoff
  | .purgeableEvents cutoff =>
    read ((view.events.filter fun row => row.expired cutoff && (view.ledgerOf? row.id).isNone).map (·.id)) []
  | .purgeEvent eventId cutoff => execPurgeEvent view eventId cutoff

end WebhookReceiver
