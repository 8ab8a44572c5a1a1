import WebhookReceiver.Store.Statements

/-!
What a payload cannot reach.

`Db.blank` takes out of a store what the value of a payload can get into: the payloads
themselves, the amounts they are turned into and the numbers of their ledger entries, and
the texts about failures. Writes act on what is left over (`blank_apply`), and most
statements of a pass read nothing else (`exec_blank`).
-/

namespace WebhookReceiver

open Txn (Mode Reply)

def StoredEvent.blank (event : StoredEvent) : StoredEvent := { event with payload := [] }

def EventQueue.blank (queue : EventQueue) : EventQueue := { queue with lastError := none }

def EventRow.blank (row : EventRow) : EventRow := { row with payload := [], lastError := none }

def AttemptRow.blank (row : AttemptRow) : AttemptRow := { row with errorDetail := none }

def EntryRow.blank (row : EntryRow) : EntryRow := { row with reason := "" }

def AccountState.blank (state : AccountState) : AccountState := { state with balanceMinor := 0 }

def AccountRow.blank (row : AccountRow) : AccountRow := { row with balanceMinor := 0 }

def LedgerEntry.blank (row : LedgerEntry) : LedgerEntry := { row with id := 0, amountMinor := 0 }

def Db.blank (db : Db) : Db where
  events := db.events.map EventRow.blank
  attempts := db.attempts.map AttemptRow.blank
  entries := db.entries.map EntryRow.blank
  replays := db.replays
  accounts := db.accounts.map AccountRow.blank
  ledger := db.ledger.map LedgerEntry.blank
  seq := Function.update db.seq .ledger 0
  purged := db.purged

def Write.blank : Write → Write
  | .insertEvent row => .insertEvent row.blank
  | .updateEvent id queue => .updateEvent id queue.blank
  | .insertAttempt row => .insertAttempt row.blank
  | .insertEntry row => .insertEntry row.blank
  | .insertAccount row => .insertAccount row.blank
  | .updateAccount id state => .updateAccount id state.blank
  | .insertLedger row => .insertLedger row.blank
  | write => write

/-- Other values in the payload of an event. -/
def Db.withPayload (db : Db) (id : Nat) (payload : JsonObject) : Db :=
  { db with
    events := db.events.map fun row => if row.id = id then { row with payload := payload } else row }

theorem withPayload_blank (db : Db) (id : Nat) (payload : JsonObject) :
    (db.withPayload id payload).blank = db.blank := by
  simp only [Db.blank, Db.withPayload, List.map_map, Db.mk.injEq, and_true]
  refine List.map_congr_left fun row _ => ?_
  simp only [Function.comp_apply]
  split <;> rfl

/-- The numbers of ledger entries are left out. -/
theorem blank_draw (db : Db) : ((Write.draw .ledger).apply db).blank = db.blank := by
  simp only [Write.apply, Db.blank, Function.update_idem]

/-- Writes keep to the part of the store that they are about. -/
theorem blank_apply {write : Write} (other : write ≠ .draw .ledger) (db : Db) :
    (write.apply db).blank = write.blank.apply db.blank := by
  cases write with
  | updateEvent id queue =>
    simp only [Write.apply, Write.blank, Db.blank, List.map_map, Db.mk.injEq, and_true]
    exact List.map_congr_left fun row _ => apply_ite EventRow.blank _ _ _
  | updateEntry id triage =>
    simp only [Write.apply, Write.blank, Db.blank, List.map_map, Db.mk.injEq, true_and, and_true]
    exact List.map_congr_left fun row _ => apply_ite EntryRow.blank _ _ _
  | updateAccount id state =>
    simp only [Write.apply, Write.blank, Db.blank, List.map_map, Db.mk.injEq, true_and, and_true]
    exact List.map_congr_left fun row _ => apply_ite AccountRow.blank _ _ _
  | deleteEvent id =>
    simp only [Write.apply, Write.blank, Db.blank, List.filter_map]
    rfl
  | deleteAttempts ids =>
    simp only [Write.apply, Write.blank, Db.blank, List.filter_map]
    rfl
  | insertEvent row => simp [Write.apply, Write.blank, Db.blank]
  | insertAttempt row => simp [Write.apply, Write.blank, Db.blank]
  | insertEntry row => simp [Write.apply, Write.blank, Db.blank]
  | insertReplay row => rfl
  | insertAccount row => simp [Write.apply, Write.blank, Db.blank]
  | insertLedger row => simp [Write.apply, Write.blank, Db.blank]
  | draw table =>
    have apart : table ≠ .ledger := fun same => other (congrArg Write.draw same)
    simp only [Write.apply, Write.blank, Db.blank, Db.mk.injEq, true_and, and_true]
    rw [Function.update_comm apart.symm, Function.update_of_ne apart]

/-- Stores that are alike stay so under writes that are alike. -/
theorem apply_akin {db db' : Db} {write write' : Write} (akin : db.blank = db'.blank)
    (alike : write.blank = write'.blank) : (write.apply db).blank = (write'.apply db').blank := by
  by_cases drawn : write = .draw .ledger
  · subst drawn
    obtain rfl : .draw .ledger = write' := by
      cases write' <;> cases alike
      rfl
    rw [blank_draw, blank_draw, akin]
  · have drawn' : write' ≠ .draw .ledger := by
      rintro rfl
      cases write <;> cases alike
      exact drawn rfl
    rw [blank_apply drawn, blank_apply drawn', akin, alike]

/-! ## Lookups -/

section Lookups

variable (db : Db)

theorem event?_blank (id : Nat) : db.blank.event? id = (db.event? id).map EventRow.blank :=
  List.find?_map ..

theorem attemptsOf_blank (eventId : Nat) :
    db.blank.attemptsOf eventId = (db.attemptsOf eventId).map AttemptRow.blank :=
  List.filter_map ..

theorem entryOf?_blank (eventId : Nat) : db.blank.entryOf? eventId = (db.entryOf? eventId).map EntryRow.blank :=
  List.find?_map ..

theorem account?_blank (id : Nat) : db.blank.account? id = (db.account? id).map AccountRow.blank :=
  List.find?_map ..

theorem accountOf?_blank (externalRef : String) :
    db.blank.accountOf? externalRef = (db.accountOf? externalRef).map AccountRow.blank :=
  List.find?_map ..

theorem ledgerOf?_blank (eventId : Nat) :
    db.blank.ledgerOf? eventId = (db.ledgerOf? eventId).map LedgerEntry.blank :=
  List.find?_map ..

end Lookups

/-! ## Statements -/

/-- The statement reads nothing that a payload can reach, and writes no text about a
failure. -/
def Stmt.blind : Stmt → Bool
  | .now | .uniform .. | .maxAttemptNumber .. | .setLockTimeout .. | .advisoryXactLock .. => true
  | .insertAccount .. | .accountIdOf .. => true
  | .insertAttempt attempt => attempt.errorDetail.isNone
  | _ => false

section Exec

variable {avail : Lock → Mode → Bool} {input : Input} (view : Db)

theorem execInsertAttempt_blank (attempt : Attempt) :
    execInsertAttempt avail view.blank attempt = execInsertAttempt avail view attempt := by
  have attempts : view.blank.attempts = view.attempts.map AttemptRow.blank := rfl
  simp only [execInsertAttempt, event?_blank, Option.isNone_map, attempts, List.any_map]
  rfl

theorem execInsertDeadLetterEntry_blank (eventId attemptsMade : Nat) (reason : String) :
    execInsertDeadLetterEntry avail input view.blank eventId attemptsMade reason =
      execInsertDeadLetterEntry avail input view eventId attemptsMade reason := by
  simp only [execInsertDeadLetterEntry, event?_blank, entryOf?_blank, Option.isNone_map, Option.isSome_map]
  rfl

theorem exec_blank {s : Stmt} (blind : s.blind = true) : s.exec avail input view.blank = s.exec avail
    input view := by
  cases s with
  | now | uniform | setLockTimeout | advisoryXactLock => rfl
  | maxAttemptNumber eventId =>
    simp only [Stmt.exec, attemptsOf_blank, List.map_map]
    rfl
  | insertAccount externalRef =>
    simp only [Stmt.exec, execInsertAccount, accountOf?_blank, Option.isSome_map]
    rfl
  | accountIdOf externalRef =>
    simp only [Stmt.exec, accountOf?_blank]
    cases view.accountOf? externalRef <;> rfl
  | insertAttempt attempt => exact execInsertAttempt_blank view attempt
  | _ => cases blind

end Exec

end WebhookReceiver
