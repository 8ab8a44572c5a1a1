import WebhookReceiver.Domain.Balance
import WebhookReceiver.Domain.Settings
import WebhookReceiver.Store.Statements

/-!
The adapters: what the service asks of the database, statement by statement
(`adapters/queue.py`, `locks.py`, `ledger.py`, `dlq.py`, `database.py`).
-/

namespace WebhookReceiver

open Txn (Prog)

/-- A program of the service. -/
abbrev Program (α : Type) := Prog Stmt Stmt.Answer Exc α

/-- `session.execute`. -/
def execute (s : Stmt) : Program s.Answer := Prog.perform s

/-- `database.py::session_scope`: one transaction, committed on success and rolled
back on any exception. -/
def sessionScope {α : Type} (body : Program α) : Program α :=
  body.andThen fun
    | .ok value => .commit fun
      | .ok () => .done (.ok value)
      | .error e => .done (.error e)
    | .error e => .rollback fun
      | .ok () => .done (.error e)
      | .error e' => .done (.error e')

/-! ## The queue -/

namespace Queue

def claim (eventId : Nat) (now : Time) : Program (Option StoredEvent) :=
  execute (.claim eventId now)

def loadForUpdate (eventId : Nat) : Program (Option StoredEvent) :=
  execute (.loadForUpdate eventId)

def nextAttemptNumber (eventId : Nat) : Program Nat := do
  let highest ← execute (.maxAttemptNumber eventId)
  return highest.getD 0 + 1

def requeue (eventId : Nat) (now : Time) : Program Unit :=
  execute (.updateEvent eventId fun _ =>
    { status := .pending, attemptCount := 0, nextAttemptAt := now, lastError := none,
      processedAt := none })

/-- `int(duration.total_seconds() * 1000)`. -/
def durationMs (startedAt finishedAt : Time) : Int :=
  truncate (toDouble (totalSeconds (finishedAt - startedAt) * 1000))

def recordAttempt (eventId attemptNumber : Nat) (startedAt finishedAt : Time)
    (outcome : AttemptOutcome) (errorClass errorDetail : Option String) : Program Unit :=
  execute (.insertAttempt ⟨eventId, attemptNumber, startedAt, finishedAt, outcome, errorClass,
    errorDetail, durationMs startedAt finishedAt⟩)

def markSucceeded (eventId attemptsUsed : Nat) (now : Time) : Program Unit :=
  execute (.updateEvent eventId fun row =>
    { row with
      status := .succeeded, attemptCount := attemptsUsed, processedAt := some now, lastError := none })

def reschedule (eventId attemptsUsed : Nat) (nextAttemptAt : Time) (lastError : String) :
    Program Unit :=
  execute (.updateEvent eventId fun row =>
    { row with
      status := .pending, attemptCount := attemptsUsed, nextAttemptAt := nextAttemptAt,
      lastError := some lastError })

def latestAttemptId (eventId : Nat) : Program (Option Nat) :=
  execute (.latestAttemptId eventId)

def recordReplayRequest (request : ReplayRequest) : Program Unit :=
  execute (.insertReplayRequest request)

def deadLetter (eventId attemptsMade : Nat) (reason : String) : Program Unit := do
  execute (.updateEvent eventId fun row =>
    { row with status := .deadLettered, attemptCount := attemptsMade, lastError := some reason })
  execute (.insertDeadLetterEntry eventId attemptsMade reason)

end Queue

/-! ## The entity lock -/

/-- `locks.py::lock_entity`, with the key function as a parameter. -/
def lockEntity (advisoryLockKey : String → String → Int) (entityType entityId : String)
    (timeout : Seconds) : Program Unit := do
  execute (.setLockTimeout (toString timeout.milliseconds ++ "ms"))
  try
    execute (.advisoryXactLock (advisoryLockKey entityType entityId))
  catch exc =>
    if isLockTimeout exc then
      throw (lockContentionError ("gave up after " ++ timeout.text ++ "s waiting for " ++ entityType ++
        ":" ++ entityId ++ "; another worker is holding it"))
    else throw exc

/-! ## The ledger -/

namespace Ledger

/-- `ledger.py::_account_id`. -/
def accountId (externalRef : String) : Program Nat := do
  match ← execute (.insertAccount externalRef) with
  | some inserted => return inserted
  | none => execute (.accountIdOf externalRef)

/-- `ledger.py::_claim_ledger_row`. -/
def claimLedgerRow (accountId eventId : Nat) (amountMinor : Int) : Program Bool := do
  let ledgerId ← execute (.insertLedgerEntry accountId eventId amountMinor)
  return ledgerId.isSome

/-- `ledger.py::_apply_credit`. -/
def applyCredit (event : StoredEvent) (effect : Credit) : Program EffectResult := do
  let account ← accountId effect.accountRef
  if !(← claimLedgerRow account event.id effect.amountMinor) then return .alreadyApplied
  execute (.updateAccount account effect.amountMinor fun row =>
    { balanceMinor := row.balanceMinor + effect.amountMinor
      version := max row.version (event.providerSequence.getD 0) })
  return .applied

/-- `ledger.py::_apply_set_balance`. -/
def applySetBalance (event : StoredEvent) (effect : SetBalance) : Program EffectResult := do
  let account ← accountId effect.accountRef
  let current ← execute (.balanceAndVersion account)
  if effect.sequence ≤ current.version then return .superseded
  let delta := effect.balanceMinor - current.balanceMinor
  if !(← claimLedgerRow account event.id delta) then return .alreadyApplied
  execute (.updateAccount account effect.balanceMinor fun _ =>
    { balanceMinor := effect.balanceMinor, version := effect.sequence })
  return .applied

/-- `ledger.py::apply_effect`. -/
def applyEffect (event : StoredEvent) : Effect → Program EffectResult
  | .credit effect => applyCredit event effect
  | .setBalance effect => applySetBalance event effect

end Ledger

/-! ## The dead-letter queue -/

namespace Dlq

def entryForEvent (eventId : Nat) : Program (Option DlqRecord) :=
  execute (.entryForEvent eventId)

def getEntry (entryId : Nat) : Program (Option DlqRecord) := execute (.getEntry entryId)

/-- `dlq.py::transition`. -/
def transition (entryId : Nat) (target : DlqStatus) (now : Time) (note : Option String) :
    Program DlqRecord := do
  let current ← execute (.entryStatusForUpdate entryId)
  Prog.ofExcept (ensureTransition current target)
  execute (.updateEntry entryId fun row =>
    { status := target, resolutionNote := note,
      resolvedAt := if target.terminal then some now else row.resolvedAt })
  match ← getEntry entryId with
  | none => throw (runtimeError ("dead-letter entry " ++ toString entryId ++
      " vanished under a row lock"))
  | some entry => return entry

end Dlq

end WebhookReceiver
