import Mathlib.Logic.Function.Basic
import WebhookReceiver.Domain.Event

/-!
The tables (`adapters/orm.py`, migrations 0001 and 0002) and the row writes that
statements make on them.

A table is the list of its rows, oldest first. `seq` is the next value of each
identity sequence. `purged` remembers the ids of deleted events, which a sequence
never gives out again; no statement reads it. Columns that only `now()` fills and
no code reads back are left out.
-/

namespace WebhookReceiver

/-! ## Rows -/

/-- The columns of `webhook_event` that the queue updates. -/
structure EventQueue where
  status : WebhookStatus
  attemptCount : Nat
  nextAttemptAt : Time
  processedAt : Option Time
  lastError : Option String
  deriving DecidableEq

/-- The payload is kept as it was sent; what `jsonb` makes of it shows when it is read. -/
structure EventRow extends IncomingEvent, EventQueue where
  id : Nat
  receivedAt : Time

/-- `queue.py::_to_domain`, of the row as it is read. -/
def EventRow.toDomain (row : EventRow) : StoredEvent where
  id := row.id
  source := row.source
  eventType := row.eventType
  entityType := row.entityType
  entityId := row.entityId
  payload := rereadFields row.payload
  occurredAt := row.occurredAt
  providerSequence := row.providerSequence
  attemptCount := row.attemptCount

/-- A `processing_attempt` as `record_attempt` adds it. -/
structure Attempt where
  eventId : Nat
  attemptNumber : Nat
  startedAt : Time
  finishedAt : Time
  outcome : AttemptOutcome
  errorClass : Option String
  errorDetail : Option String
  durationMs : Int
  deriving DecidableEq

structure AttemptRow extends Attempt where
  id : Nat
  deriving DecidableEq

/-- The columns of `dead_letter_entry` that triage updates. -/
structure EntryTriage where
  status : DlqStatus
  resolvedAt : Option Time
  resolutionNote : Option String
  deriving DecidableEq

structure EntryRow extends EntryTriage where
  id : Nat
  eventId : Nat
  reason : String
  attemptsMade : Nat
  deadLetteredAt : Time
  deriving DecidableEq

structure ReplayRequest where
  eventId : Nat
  requestedBy : String
  requestedAt : Time
  reason : Option String
  outcome : ReplayOutcome
  resultingAttemptId : Option Nat
  deriving DecidableEq

/-- The columns of `account` that an effect updates. -/
structure AccountState where
  balanceMinor : Int
  version : Int
  deriving DecidableEq

structure AccountRow extends AccountState where
  id : Nat
  externalRef : String
  deriving DecidableEq

structure LedgerEntry where
  id : Nat
  accountId : Nat
  eventId : Nat
  amountMinor : Int
  deriving DecidableEq

/-! ## The store -/

inductive Table where
  | event | attempt | entry | account | ledger
  deriving DecidableEq

structure Db where
  events : List EventRow
  attempts : List AttemptRow
  entries : List EntryRow
  replays : List ReplayRequest
  accounts : List AccountRow
  ledger : List LedgerEntry
  seq : Table → Nat
  purged : List Nat

/-- The store right after the migrations. -/
def Db.empty : Db := ⟨[], [], [], [], [], [], fun _ => 1, []⟩

inductive Write where
  | insertEvent (row : EventRow)
  | updateEvent (id : Nat) (queue : EventQueue)
  /-- Its attempts, its dead-letter entry and its replay requests go with it
  (`ON DELETE CASCADE`). -/
  | deleteEvent (id : Nat)
  | insertAttempt (row : AttemptRow)
  /-- A replay request that points at one of them forgets it (`ON DELETE SET NULL`). -/
  | deleteAttempts (ids : List Nat)
  | insertEntry (row : EntryRow)
  | updateEntry (id : Nat) (triage : EntryTriage)
  | insertReplay (row : ReplayRequest)
  | insertAccount (row : AccountRow)
  | updateAccount (id : Nat) (state : AccountState)
  | insertLedger (row : LedgerEntry)
  /-- A value of an identity sequence is used up. -/
  | draw (table : Table)

def Write.apply : Write → Db → Db
  | .insertEvent row, db => { db with events := db.events ++ [row] }
  | .updateEvent id queue, db =>
    { db with
      events := db.events.map fun row => if row.id = id then { row with toEventQueue := queue } else row }
  | .deleteEvent id, db =>
    { db with
      events := db.events.filter fun row => row.id ≠ id
      attempts := db.attempts.filter fun row => row.eventId ≠ id
      entries := db.entries.filter fun row => row.eventId ≠ id
      replays := db.replays.filter fun row => row.eventId ≠ id
      purged := id :: db.purged }
  | .insertAttempt row, db => { db with attempts := db.attempts ++ [row] }
  | .deleteAttempts ids, db =>
    { db with
      attempts := db.attempts.filter fun row => row.id ∉ ids
      replays := db.replays.map fun row =>
        { row with resultingAttemptId := row.resultingAttemptId.filter fun id => id ∉ ids } }
  | .insertEntry row, db => { db with entries := db.entries ++ [row] }
  | .updateEntry id triage, db =>
    { db with
      entries := db.entries.map fun row =>
        if row.id = id then { row with toEntryTriage := triage } else row }
  | .insertReplay row, db => { db with replays := db.replays ++ [row] }
  | .insertAccount row, db => { db with accounts := db.accounts ++ [row] }
  | .updateAccount id state, db =>
    { db with
      accounts := db.accounts.map fun row =>
        if row.id = id then { row with toAccountState := state } else row }
  | .insertLedger row, db => { db with ledger := db.ledger ++ [row] }
  | .draw table, db => { db with seq := Function.update db.seq table (db.seq table + 1) }

/-- The store after some writes, oldest first. -/
def Db.after (db : Db) (writes : List Write) : Db := writes.foldl (fun db write => write.apply db) db

@[simp] theorem Db.after_nil (db : Db) : db.after [] = db := rfl

@[simp] theorem Db.after_cons (db : Db) (write : Write) (writes : List Write) :
    db.after (write :: writes) = (write.apply db).after writes := rfl

theorem Db.after_append (db : Db) (first rest : List Write) :
    db.after (first ++ rest) = (db.after first).after rest :=
  List.foldl_append ..

/-- The writes that move money: those on accounts and on the ledger. -/
def Write.business : Write → Bool
  | .insertAccount _ | .updateAccount _ _ | .insertLedger _ => true
  | _ => false

/-- Accounts and ledger are left alone by everything that moves no money. -/
theorem Db.after_clerical {writes : List Write} (clerical : ∀ write ∈ writes, write.business = false)
    (db : Db) : (db.after writes).accounts = db.accounts ∧ (db.after writes).ledger = db.ledger := by
  induction writes generalizing db with
  | nil => exact ⟨rfl, rfl⟩
  | cons write rest ih =>
    obtain ⟨first, others⟩ := List.forall_mem_cons.mp clerical
    obtain ⟨accounts, ledger⟩ := ih others (write.apply db)
    rw [Db.after_cons, accounts, ledger]
    cases write with
    | insertAccount row => cases first
    | updateAccount id state => cases first
    | insertLedger row => cases first
    | _ => exact ⟨rfl, rfl⟩

/-- What moves money leaves every other table alone. -/
theorem Db.after_business {writes : List Write} (business : ∀ write ∈ writes, write.business = true)
    (db : Db) : (db.after writes).events = db.events ∧ (db.after writes).attempts = db.attempts ∧
      (db.after writes).entries = db.entries ∧ (db.after writes).purged = db.purged := by
  induction writes generalizing db with
  | nil => exact ⟨rfl, rfl, rfl, rfl⟩
  | cons write rest ih =>
    obtain ⟨first, others⟩ := List.forall_mem_cons.mp business
    obtain ⟨events, attempts, entries, purged⟩ := ih others (write.apply db)
    rw [Db.after_cons, events, attempts, entries, purged]
    cases write with
    | insertAccount row => exact ⟨rfl, rfl, rfl, rfl⟩
    | updateAccount id state => exact ⟨rfl, rfl, rfl, rfl⟩
    | insertLedger row => exact ⟨rfl, rfl, rfl, rfl⟩
    | _ => cases first

/-! ## Lookups -/

namespace Db

variable (db : Db)

def event? (id : Nat) : Option EventRow := db.events.find? fun row => row.id = id

def eventOfKey? (source key : String) : Option EventRow :=
  db.events.find? fun row => row.source = source ∧ row.idempotencyKey = key

def attemptsOf (eventId : Nat) : List AttemptRow := db.attempts.filter fun row => row.eventId = eventId

/-- The number that `queue.next_attempt_number` answers. -/
def nextAttemptNumber (eventId : Nat) : Nat :=
  ((db.attemptsOf eventId).map (·.attemptNumber)).max?.getD 0 + 1

def entry? (id : Nat) : Option EntryRow := db.entries.find? fun row => row.id = id

def entryOf? (eventId : Nat) : Option EntryRow := db.entries.find? fun row => row.eventId = eventId

def account? (id : Nat) : Option AccountRow := db.accounts.find? fun row => row.id = id

def accountOf? (externalRef : String) : Option AccountRow :=
  db.accounts.find? fun row => row.externalRef = externalRef

def ledgerOf? (eventId : Nat) : Option LedgerEntry := db.ledger.find? fun row => row.eventId = eventId

end Db

/-! ## Locks -/

/-- What a transaction can hold: rows, the keys of unique constraints while an
insert under them is pending, and advisory locks. -/
inductive Lock where
  | eventRow (id : Nat)
  | eventKey (source key : String)
  | attemptRow (id : Nat)
  | attemptNumber (eventId number : Nat)
  | entryRow (id : Nat)
  | dlqKey (eventId : Nat)
  | accountRow (id : Nat)
  | accountKey (externalRef : String)
  | ledgerKey (eventId : Nat)
  | advisory (key : Int)
  deriving DecidableEq

end WebhookReceiver
