import WebhookReceiver.Idempotence
import WebhookReceiver.Txn.Solo

/-!
A pass with the store to itself.

Where the rules of `Discipline` say what a transaction commits if it commits, the
lemmas here say that it does: alone on a store, over an event that is due and whose
effect fits the columns, `process_event` deals with the event (`alone_process`). A
pass over an event that is not pending changes nothing (`alone_idle`).
-/

namespace WebhookReceiver

open Txn (Prog)

/-! ## Stores that differ in their sequences -/

/-- The store with other sequence values. -/
def Db.reseq (db : Db) (seq : Table → Nat) : Db := { db with seq := seq }

/-- The sequence values after one more has been drawn. -/
def Db.drawn (db : Db) (table : Table) : Table → Nat := Function.update db.seq table (db.seq table + 1)

theorem after_reseq (writes : List Write) (db : Db) (seq : Table → Nat) :
    ∃ seq', (db.reseq seq).after writes = (db.after writes).reseq seq' := by
  induction writes generalizing db seq with
  | nil => exact ⟨seq, rfl⟩
  | cons write rest ih =>
    have first : ∃ seq', write.apply (db.reseq seq) = (write.apply db).reseq seq' := by
      cases write with
      | draw table => exact ⟨(db.reseq seq).drawn table, rfl⟩
      | _ => exact ⟨seq, rfl⟩
    obtain ⟨seq', same⟩ := first
    rw [Db.after_cons, Db.after_cons, same]
    exact ih (write.apply db) seq'

/-! ## Rules -/

section Rules

/-- The outcome of a program that runs alone. -/
def Service.solo {α : Type} (svc : Service) (input : Input) (program : Program α)
    (writes : List Write) (db : Db) : Option (Except Exc α × List Write × Db) :=
  svc.system.solo input program writes db

variable {svc : Service} {input : Input} {db db' : Db} {writes writes' : List Write} {α β : Type}

theorem solo_andThen {first : Program α} {next : Except Exc α → Program β} :
    svc.solo input (first.andThen next) writes db = (svc.solo input first writes db).bind fun ended =>
      svc.solo input (next ended.1) ended.2.1 ended.2.2 :=
  Txn.System.solo_andThen first next

theorem solo_bind {first : Program α} {next : α → Program β} {a : α}
    (ran : svc.solo input first writes db = some (.ok a, writes', db')) :
    svc.solo input (first >>= next) writes db = svc.solo input (next a) writes' db' := by
  rw [Prog.bind_eq, solo_andThen, ran]
  rfl

theorem solo_execute {s : Stmt} {reply : Txn.Reply Write Lock Exc s.Answer}
    (ran : s.exec (fun _ _ => true) input (db.after writes) = some reply) :
    svc.solo input (execute s) writes db =
      some (reply.answer, writes ++ reply.writes, db.after reply.instant) := by
  have executed : svc.system.exec (fun _ _ => true) input (svc.system.applyAll writes db) s =
      some reply := ran
  simp only [Service.solo, execute, Prog.perform, Txn.System.solo, executed]
  rfl

/-- A statement that only reads. -/
theorem solo_read {s : Stmt} {answer : s.Answer}
    (ran : ∃ locks, s.exec (fun _ _ => true) input (db.after writes) = read answer locks) :
    svc.solo input (execute s) writes db = some (.ok answer, writes, db) := by
  obtain ⟨locks, ran⟩ := ran
  rw [solo_execute ran]
  simp

theorem solo_ofExcept (a : α) :
    svc.solo input (Prog.ofExcept (.ok a)) writes db = some (.ok a, writes, db) := rfl

theorem solo_tryCatch {body : Program α} (handler : Exc → Program α) {a : α}
    (ran : svc.solo input body writes db = some (.ok a, writes', db')) :
    svc.solo input (tryCatch body handler) writes db = some (.ok a, writes', db') := by
  rw [Prog.tryCatch_eq, solo_andThen, ran]
  rfl

/-- A transaction whose body succeeds is committed. -/
theorem solo_sessionScope {body : Program α} {a : α}
    (ran : svc.solo input body [] db = some (.ok a, writes, db')) :
    svc.solo input (sessionScope body) [] db = some (.ok a, [], db'.after writes) := by
  rw [sessionScope, solo_andThen, ran]
  rfl

end Rules

/-! ## Effects that fit -/

/-- The amounts and the account that an effect would write are in range. -/
def Effect.fits (books : Books) (eventId : Nat) (sequence : Option Int) : Effect → Prop
  | .credit effect =>
    let current := books.state effect.accountRef
    isBigint effect.amountMinor = true ∧ ((books.posted eventId).isSome ∨
      isBigint (current.balanceMinor + effect.amountMinor) = true ∧
      isBigint (max current.version (sequence.getD 0)) = true ∧
      0 ≤ max current.version (sequence.getD 0))
  | .setBalance effect =>
    let current := books.state effect.accountRef
    effect.sequence ≤ current.version ∨
      isBigint (effect.balanceMinor - current.balanceMinor) = true ∧
        ((books.posted eventId).isSome ∨ isBigint effect.balanceMinor = true ∧
          isBigint effect.sequence = true ∧ 0 ≤ effect.sequence)

theorem Applied.fits {strict : Prop} {db : Db} {event : StoredEvent} {effect : Effect}
    {result : EffectResult} {writes : List Write} (good : Wf db) (owned : strict)
    (applied : Applied strict db event effect result writes) :
    effect.fits db.books event.id event.providerSequence := by
  cases applied with
  | credit account first inRange =>
    simp only [Effect.fits, account.state good]
    exact ⟨inRange.1, Or.inr inRange.2⟩
  | creditAgain account again inRange => exact ⟨inRange, Or.inl ((books_posted good).mpr again)⟩
  | superseded account stale =>
    simp only [Effect.fits, account.state good]
    exact Or.inl (stale owned)
  | snapshot account first newer moved inRange =>
    simp only [Effect.fits, account.state good, ← moved owned]
    exact Or.inr ⟨inRange.1, Or.inr inRange.2⟩
  | snapshotAgain account newer moved again inRange =>
    simp only [Effect.fits, account.state good, ← moved owned]
    exact Or.inr ⟨inRange, Or.inl ((books_posted good).mpr again)⟩

/-! ## The ledger -/

section Ledger

variable (svc : Service) (input : Input) {db : Db}

theorem solo_accountId (good : Wf db) (externalRef : String) :
    ∃ row created seq, svc.solo input (Ledger.accountId externalRef) [] db =
      some (.ok row.id, created, db.reseq seq) ∧ AccountFor db externalRef row created := by
  cases found : db.accountOf? externalRef with
  | none =>
    have ran : (Stmt.insertAccount externalRef).exec (fun _ _ => true) input (db.after []) = some {
        answer := .ok (some (db.seq .account))
        writes := [.insertAccount ⟨⟨0, 0⟩, db.seq .account, externalRef⟩]
        instant := [.draw .account]
        locks := [(.accountKey externalRef, .excl), (.accountRow (db.seq .account), .excl)] } := by
      simp [Stmt.exec, execInsertAccount, insertUnder, found]
    refine ⟨⟨⟨0, 0⟩, db.seq .account, externalRef⟩, _, db.drawn .account, ?_, .created ?_ ?_⟩
    · rw [Ledger.accountId, solo_bind (solo_execute ran)]
      rfl
    · simpa [Db.accountOf?] using found
    · exact fun row member => Nat.ne_of_lt (good.accountDrawn row member)
  | some row =>
    obtain ⟨member, named⟩ := accountOf?_mem found
    have ran : (Stmt.insertAccount externalRef).exec (fun _ _ => true) input (db.after []) = some {
        answer := .ok none
        instant := [.draw .account] } := by
      simp [Stmt.exec, execInsertAccount, insertUnder, found]
    have named' : (Stmt.accountIdOf externalRef).exec (fun _ _ => true) input
        ((db.after [.draw .account]).after []) = read row.id [] := by
      have still : ((db.after [.draw .account]).after []).accountOf? externalRef = some row := found
      simp only [Stmt.exec, still]
    refine ⟨row, [], db.drawn .account, ?_, .existing member named⟩
    rw [Ledger.accountId, solo_bind (solo_execute ran)]
    exact solo_read ⟨[], named'⟩

theorem solo_claimLedgerRow {writes : List Write} {accountId eventId : Nat} {amountMinor : Int}
    {event : EventRow} {account : AccountRow} (inRange : isBigint amountMinor = true)
    (stored : (db.after writes).event? eventId = some event)
    (owner : (db.after writes).account? accountId = some account) :
    ∃ fresh writes' seq, svc.solo input (Ledger.claimLedgerRow accountId eventId amountMinor) writes db =
        some (.ok fresh, writes', db.reseq seq) ∧
      if fresh then (∀ entry ∈ (db.after writes).ledger, entry.eventId ≠ eventId) ∧
          ∃ id, writes' = writes ++ [.insertLedger ⟨id, accountId, eventId, amountMinor⟩]
      else (∃ entry ∈ (db.after writes).ledger, entry.eventId = eventId) ∧ writes' = writes := by
  cases found : (db.after writes).ledgerOf? eventId with
  | none =>
    have ran : (Stmt.insertLedgerEntry accountId eventId amountMinor).exec (fun _ _ => true) input
        (db.after writes) = some {
          answer := .ok (some ((db.after writes).seq .ledger))
          writes := [.insertLedger ⟨(db.after writes).seq .ledger, accountId, eventId, amountMinor⟩]
          instant := [.draw .ledger]
          locks := [(.ledgerKey eventId, .excl), (.eventRow eventId, .share)] } := by
      simp [Stmt.exec, execInsertLedgerEntry, insertUnder, check, inRange, found, stored, owner]
    refine ⟨true, _, db.drawn .ledger, ?_, ?_, (db.after writes).seq .ledger, rfl⟩
    · rw [Ledger.claimLedgerRow, solo_bind (solo_execute ran)]
      rfl
    · simpa [Db.ledgerOf?] using found
  | some entry =>
    have ran : (Stmt.insertLedgerEntry accountId eventId amountMinor).exec (fun _ _ => true) input
        (db.after writes) = some { answer := .ok none, instant := [.draw .ledger] } := by
      simp [Stmt.exec, execInsertLedgerEntry, insertUnder, inRange, found]
    refine ⟨false, writes, db.drawn .ledger, ?_, ⟨entry, List.mem_of_find?_eq_some found, ?_⟩, rfl⟩
    · rw [Ledger.claimLedgerRow, solo_bind (solo_execute ran)]
      simp only [List.append_nil]
      rfl
    · simpa using List.find?_some found

theorem solo_updateAccount {writes : List Write} {account : AccountRow} {given : Int}
    {values : AccountState → AccountState} (argument : isBigint given = true)
    (owner : (db.after writes).account? account.id = some account)
    (balance : isBigint (values account.toAccountState).balanceMinor = true)
    (version : isBigint (values account.toAccountState).version = true)
    (positive : 0 ≤ (values account.toAccountState).version) :
    svc.solo input (execute (.updateAccount account.id given values)) writes db =
      some (.ok (), writes ++ [.updateAccount account.id (values account.toAccountState)], db) := by
  have ran : (Stmt.updateAccount account.id given values).exec (fun _ _ => true) input (db.after writes) =
      some {
        answer := .ok ()
        writes := [.updateAccount account.id (values account.toAccountState)]
        locks := [(.accountRow account.id, .excl)] } := by
    simp [Stmt.exec, execUpdateAccount, argument, owner, balance, version, Int.not_lt.mpr positive]
  rw [solo_execute ran]
  rfl

/-- What is left of an effect once its account is known: the claim of the ledger row,
and the update of the account if the row is new. -/
theorem solo_post (good : Wf db) (seq : Table → Nat) {externalRef : String} {row : AccountRow}
    {created : List Write} (account : AccountFor db externalRef row created) {eventId : Nat}
    {event : EventRow} (stored : db.event? eventId = some event) {amount : Int}
    (inRange : isBigint amount = true) {given : Int} (values : AccountState → AccountState)
    (argument : isBigint (values row.toAccountState).balanceMinor = true → isBigint given = true)
    (fits : (db.books.posted eventId).isSome ∨
      isBigint (values row.toAccountState).balanceMinor = true ∧
      isBigint (values row.toAccountState).version = true ∧
      0 ≤ (values row.toAccountState).version) :
    ∃ result writes seq', svc.solo input
        (do if !(← Ledger.claimLedgerRow row.id eventId amount) then return .alreadyApplied
            execute (.updateAccount row.id given values)
            return EffectResult.applied) created (db.reseq seq) = some (.ok result, writes, db.reseq seq') ∧
      ((∃ entry ∈ db.ledger, entry.eventId = eventId) ∧ result = .alreadyApplied ∧ writes = created ∨
        (∀ entry ∈ db.ledger, entry.eventId ≠ eventId) ∧ result = .applied ∧ ∃ id,
          writes = created ++ [Write.insertLedger ⟨id, row.id, eventId, amount⟩,
            .updateAccount row.id (values row.toAccountState)] ∧
          isBigint (values row.toAccountState).balanceMinor = true ∧
          isBigint (values row.toAccountState).version = true ∧
          0 ≤ (values row.toAccountState).version) := by
  obtain ⟨seq₁, view⟩ := after_reseq created db seq
  obtain ⟨events, -, -, -⟩ := Db.after_business account.business db
  have stored' : ((db.reseq seq).after created).event? eventId = some event := by
    rw [view]
    simp only [Db.reseq, Db.event?, events]
    exact stored
  have owner : ((db.reseq seq).after created).account? row.id = some row := by
    rw [view]
    exact account.byId good
  have ledger : ((db.reseq seq).after created).ledger = db.ledger := by
    rw [view]
    exact account.ledger
  obtain ⟨fresh, booked, seq₂, ran, claimed⟩ := solo_claimLedgerRow svc input
    inRange stored' owner
  rw [ledger] at claimed
  rw [solo_bind ran]
  cases fresh with
  | false => exact ⟨.alreadyApplied, booked, seq₂, rfl, Or.inl ⟨claimed.1, rfl, claimed.2⟩⟩
  | true =>
    obtain ⟨first, id, rfl⟩ := claimed
    obtain ⟨balance, version, positive⟩ := fits.resolve_left (by simp [books_unposted first])
    obtain ⟨seq₃, view'⟩ := after_reseq (created ++ [Write.insertLedger ⟨id, row.id, eventId, amount⟩]) db seq₂
    have owner' : ((db.reseq seq₂).after
        (created ++ [Write.insertLedger ⟨id, row.id, eventId, amount⟩])).account? row.id = some row := by
      rw [view', Db.after_append]
      exact account.byId good
    have updated := solo_updateAccount svc input (argument balance) owner' balance version positive
    rw [List.append_assoc] at updated
    exact ⟨.applied, _, seq₂, solo_bind updated, Or.inr ⟨first, rfl, id, rfl, balance, version, positive⟩⟩

theorem solo_applyEffect (strict : Prop) (good : Wf db) {event : StoredEvent} {effect : Effect}
    {row : EventRow} (stored : db.event? event.id = some row)
    (fits : effect.fits db.books event.id event.providerSequence) :
    ∃ result writes seq, svc.solo input (Ledger.applyEffect event effect) [] db =
      some (.ok result, writes, db.reseq seq) ∧ Applied strict db event effect result writes := by
  cases effect with
  | credit effect =>
    obtain ⟨account, created, seq, ran, known⟩ := solo_accountId svc input good
      effect.accountRef
    simp only [Effect.fits, known.state good] at fits
    let values : AccountState → AccountState := fun row =>
      ⟨row.balanceMinor + effect.amountMinor, max row.version (event.providerSequence.getD 0)⟩
    obtain ⟨result, writes, seq', ran', posted⟩ := solo_post svc input good seq known
      stored fits.1 values (fun _ => fits.1) fits.2
    refine ⟨result, writes, seq', (solo_bind ran).trans ran', ?_⟩
    rcases posted with ⟨again, rfl, rfl⟩ | ⟨first, rfl, id, rfl, balance, version, positive⟩
    · exact .creditAgain known again fits.1
    · exact .credit known first ⟨fits.1, balance, version, positive⟩
  | setBalance effect =>
    obtain ⟨account, created, seq, ran, known⟩ := solo_accountId svc input good
      effect.accountRef
    simp only [Effect.fits, known.state good] at fits
    obtain ⟨seq₁, view⟩ := after_reseq created db seq
    have owner : ((db.reseq seq).after created).account? account.id = some account := by
      rw [view]
      exact known.byId good
    have current : svc.solo input (execute (.balanceAndVersion account.id)) created (db.reseq seq) =
        some (.ok account.toAccountState, created, db.reseq seq) := by
      refine solo_read ⟨[], ?_⟩
      simp only [Stmt.exec, owner]
    have opened : svc.solo input (Ledger.applySetBalance event effect) [] db = _ :=
      (solo_bind ran).trans (solo_bind current)
    by_cases stale : effect.sequence ≤ account.version
    · refine ⟨.superseded, created, seq, ?_, .superseded known fun _ => stale⟩
      rw [Ledger.applyEffect, opened, if_pos stale]
      rfl
    · obtain ⟨inRange, room⟩ := fits.resolve_left stale
      obtain ⟨result, writes, seq', ran', posted⟩ := solo_post svc input good seq known
        stored inRange (fun _ => ⟨effect.balanceMinor, effect.sequence⟩) id room
      refine ⟨result, writes, seq', ?_, ?_⟩
      · rw [Ledger.applyEffect, opened, if_neg stale]
        exact ran'
      · have newer := Int.not_le.mp stale
        rcases posted with ⟨again, rfl, rfl⟩ | ⟨first, rfl, id, rfl, balance, version, positive⟩
        · exact .snapshotAgain known (fun _ => newer) (fun _ => rfl) again inRange
        · exact .snapshot known first (fun _ => newer) (fun _ => rfl) ⟨inRange, balance, version, positive⟩

end Ledger

/-! ## The pass -/

theorem lt_nextAttemptNumber {db : Db} {row : AttemptRow} (member : row ∈ db.attempts) :
    row.attemptNumber < db.nextAttemptNumber row.eventId := by
  refine Nat.lt_succ_of_le (List.le_max?_getD_of_mem (List.mem_map.mpr ⟨row, ?_, rfl⟩))
  exact List.mem_filter.mpr ⟨member, by simp⟩

/-- It fits its column if some number after those of the event does. -/
theorem isInteger_nextAttemptNumber {db : Db} {eventId number : Nat} (inRange : isInteger number = true)
    (later : ∀ row ∈ db.attempts, row.eventId = eventId → row.attemptNumber < number) :
    isInteger (db.nextAttemptNumber eventId) = true := by
  have bound : db.nextAttemptNumber eventId ≤ max number 1 := by
    unfold Db.nextAttemptNumber
    cases highest : ((db.attemptsOf eventId).map (·.attemptNumber)).max? with
    | none => exact Nat.le_max_right _ _
    | some most =>
      obtain ⟨row, member, rfl⟩ := List.mem_map.mp (List.max?_mem highest)
      obtain ⟨there, about⟩ := List.mem_filter.mp member
      have below := later row there (by simpa using about)
      simp only [Option.getD_some]
      omega
  simp only [isInteger, Bool.and_eq_true, decide_eq_true_eq] at inRange ⊢
  omega

/-- A pass that dealt with its event had an effect that fits, and a number for its
attempt that fits. -/
theorem Dealt.fits {svc : Service} {eventId : Nat} {db : Db} {result : EffectResult}
    {writes : List Write} (strict : svc.registry.OwnsEntity) (good : Wf db)
    (done : Dealt svc eventId db result writes) :
    ∃ event effect, db.event? eventId = some event ∧
      svc.registry.dispatch event.toDomain = .ok effect ∧
      effect.fits db.books eventId event.providerSequence ∧
      ∃ number : Nat, isInteger number = true ∧
        ∀ row ∈ db.attempts, row.eventId = eventId → row.attemptNumber < number := by
  cases done with
  | @mk event effect result business attempt found pending due dispatched applied next outcome =>
    have fits := applied.fits good strict
    have about : event.toDomain.id = eventId := event?_id found
    rw [about] at fits
    exact ⟨event, effect, found, dispatched, fits, attempt.attemptNumber, next.inRange, next.later⟩

section Pass

variable (svc : Service) (input : Input) {db : Db}

theorem solo_nextAttemptNumber (eventId : Nat) :
    svc.solo input (Queue.nextAttemptNumber eventId) [] db =
      some (.ok (db.nextAttemptNumber eventId), [], db) := by
  have ran : (Stmt.maxAttemptNumber eventId).exec (fun _ _ => true) input (db.after []) =
      read ((db.attemptsOf eventId).map (·.attemptNumber)).max? [] := rfl
  rw [Queue.nextAttemptNumber, solo_bind (solo_read ⟨[], ran⟩)]
  rfl

theorem solo_lockEntity (entityType entityId : String) (timeout : Seconds) :
    svc.solo input (lockEntity svc.advisoryLockKey entityType entityId timeout) [] db =
      some (.ok (), [], db) := by
  have configured : svc.solo input
      (execute (.setLockTimeout (toString timeout.milliseconds ++ "ms"))) [] db = some (.ok (), [], db) :=
    solo_read ⟨[], rfl⟩
  have locked : svc.solo input
      (execute (.advisoryXactLock (svc.advisoryLockKey entityType entityId))) [] db =
      some (.ok (), [], db) :=
    solo_read ⟨[(.advisory (svc.advisoryLockKey entityType entityId), .excl)], rfl⟩
  rw [lockEntity, solo_bind configured]
  exact solo_tryCatch _ locked

theorem solo_recordAttempt {writes : List Write} {eventId number : Nat} (at' : Time)
    (outcome : AttemptOutcome) {event : EventRow} (stored : (db.after writes).event? eventId = some event)
    (positive : 0 < number) (inRange : isInteger number = true)
    (later : ∀ row ∈ (db.after writes).attempts, row.eventId = eventId → row.attemptNumber < number) :
    ∃ id, svc.solo input (Queue.recordAttempt eventId number at' at' outcome none none) writes db =
      some (.ok (), writes ++ [.insertAttempt ⟨⟨eventId, number, at', at', outcome, none, none,
        Queue.durationMs at' at'⟩, id⟩], db.reseq (db.drawn .attempt)) := by
  have free : ∀ row ∈ (db.after writes).attempts, row.eventId = eventId → ¬ row.attemptNumber = number :=
    fun row member about => Nat.ne_of_lt (later row member about)
  have instantly : isInteger (Queue.durationMs at' at') = true := by
    rw [Queue.durationMs, sub_self]
    decide +kernel
  let attempt : Attempt := ⟨eventId, number, at', at', outcome, none, none, Queue.durationMs at' at'⟩
  have ran : (Stmt.insertAttempt attempt).exec (fun _ _ => true) input (db.after writes) = some {
      answer := .ok ()
      writes := [.insertAttempt { attempt with id := (db.after writes).seq .attempt }]
      instant := [.draw .attempt]
      locks := [(.attemptNumber eventId number, .excl),
        (.attemptRow ((db.after writes).seq .attempt), .excl), (.eventRow eventId, .share)] } := by
    simpa [Stmt.exec, execInsertAttempt, insertUnder, check, attempt, stored, inRange, instantly,
      Nat.ne_of_gt positive] using free
  exact ⟨(db.after writes).seq .attempt, solo_execute ran⟩

theorem solo_updateEvent {writes : List Write} {eventId : Nat} {event : EventRow}
    (values : EventQueue → EventQueue) (stored : (db.after writes).event? eventId = some event) :
    svc.solo input (execute (.updateEvent eventId values)) writes db =
      some (.ok (), writes ++ [.updateEvent eventId (values event.toEventQueue)], db) := by
  have ran : (Stmt.updateEvent eventId values).exec (fun _ _ => true) input (db.after writes) = some {
      answer := .ok ()
      writes := [.updateEvent eventId (values event.toEventQueue)]
      locks := [(.eventRow eventId, .excl)] } := by
    simp only [Stmt.exec, stored]
  rw [solo_execute ran]
  rfl

theorem solo_apply (good : Wf db) {event : EventRow} {effect : Effect}
    (found : db.event? event.id = some event) (pending : event.status = .pending)
    (due : event.nextAttemptAt ≤ input.now)
    (dispatched : svc.registry.dispatch event.toDomain = .ok effect)
    (fits : effect.fits db.books event.id event.providerSequence)
    (inRange : isInteger (db.nextAttemptNumber event.id) = true) :
    ∃ result writes seq, svc.solo input (svc.apply event.toDomain input.now) [] db =
        some (.ok ⟨some (successOutcome result), some result⟩, writes, db.reseq seq) ∧
      Dealt svc event.id db result writes := by
  have about : db.event? event.toDomain.id = some event := found
  obtain ⟨result, business, seq, ran, applied⟩ := solo_applyEffect svc input svc.registry.OwnsEntity
    good about fits
  obtain ⟨seq₁, view⟩ := after_reseq business db seq
  obtain ⟨events, attempts, -, -⟩ := Db.after_business applied.business db
  have stored : ((db.reseq seq).after business).event? event.id = some event := by
    rw [view]
    simp only [Db.reseq, Db.event?, events]
    exact found
  have later : ∀ row ∈ ((db.reseq seq).after business).attempts, row.eventId = event.id →
      row.attemptNumber < db.nextAttemptNumber event.id := by
    rw [view]
    simp only [Db.reseq, attempts]
    intro row member about
    rw [← about]
    exact lt_nextAttemptNumber member
  have read : svc.solo input (execute .now) business (db.reseq seq) =
      some (.ok input.now, business, db.reseq seq) := solo_read ⟨[], rfl⟩
  have positive : 0 < db.nextAttemptNumber event.id := Nat.succ_pos _
  obtain ⟨id, recorded⟩ := solo_recordAttempt svc input input.now (successOutcome result) stored positive
    inRange later
  let attempt : AttemptRow := ⟨⟨event.id, db.nextAttemptNumber event.id, input.now, input.now,
    successOutcome result, none, none, Queue.durationMs input.now input.now⟩, id⟩
  have stored' : ((db.reseq ((db.reseq seq).drawn .attempt)).after
      (business ++ [.insertAttempt attempt])).event? event.id = some event := by
    obtain ⟨seq₂, view'⟩ := after_reseq business db ((db.reseq seq).drawn .attempt)
    rw [Db.after_append, view']
    simp only [Db.after_cons, Db.after_nil, Write.apply, Db.reseq, Db.event?, events]
    exact found
  have updated := solo_updateEvent svc input (fun row => { row with
    status := .succeeded, attemptCount := event.attemptCount + 1, processedAt := some input.now,
    lastError := none }) stored'
  rw [List.append_assoc] at updated
  have next : NextAttempt db event.id attempt := by
    refine ⟨rfl, inRange, fun row member same => ?_⟩
    show row.attemptNumber < db.nextAttemptNumber event.id
    rw [← same]
    exact lt_nextAttemptNumber member
  refine ⟨result, _, (db.reseq seq).drawn .attempt, ?_, .mk found pending due dispatched applied next rfl⟩
  unfold Service.apply
  refine (solo_bind (solo_nextAttemptNumber svc input event.id)).trans ?_
  refine (solo_bind (solo_lockEntity svc input _ _ _)).trans ?_
  rw [dispatched]
  refine (solo_bind (solo_ofExcept effect)).trans ?_
  refine (solo_bind ran).trans ?_
  refine (solo_bind read).trans ?_
  refine (solo_bind recorded).trans ?_
  exact solo_bind updated

theorem solo_processEvent {eventId : Nat} {result : ProcessResult} {writes : List Write} {db' : Db}
    (ran : svc.solo input (do
      match ← Queue.claim eventId input.now with
      | none => return notClaimed
      | some event => svc.apply event input.now) [] db = some (.ok result, writes, db')) :
    svc.solo input (svc.processEvent eventId) [] db = some (.ok result, [], db'.after writes) := by
  have started : svc.solo input (execute .now) [] db = some (.ok input.now, [], db) :=
    solo_read ⟨[], rfl⟩
  have attempted := solo_tryCatch (fun exc =>
    if exc.isException then svc.recordFailure eventId exc input.now else throw exc) (solo_sessionScope ran)
  exact (solo_bind started).trans attempted

/-- The store that the call leaves. -/
theorem alone_of_solo {eventId : Nat} {result : ProcessResult} {db' : Db}
    (passed : svc.solo input (svc.processEvent eventId) [] db = some (.ok result, [], db')) :
    svc.system.alone input db (.process eventId) = some db' := by
  have called : svc.solo input (svc.program (.process eventId)) [] db =
      some (.ok (.processed result), [], db') := solo_bind passed
  show (svc.solo input (svc.program (.process eventId)) [] db).map _ = _
  rw [called]
  rfl

/-- Alone with an event that is due and an effect that fits, a pass deals with it. -/
theorem alone_process (good : Wf db) {eventId : Nat} {event : EventRow} {effect : Effect}
    (found : db.event? eventId = some event) (pending : event.status = .pending)
    (due : event.nextAttemptAt ≤ input.now)
    (dispatched : svc.registry.dispatch event.toDomain = .ok effect)
    (fits : effect.fits db.books eventId event.providerSequence)
    (inRange : isInteger (db.nextAttemptNumber eventId) = true) :
    ∃ result writes seq, svc.system.alone input db (.process eventId) =
        some ((db.after writes).reseq seq) ∧ Dealt svc eventId db result writes := by
  have same := event?_id found
  subst same
  have ran : (Stmt.claim event.id input.now).exec (fun _ _ => true) input (db.after []) =
      read (some event.toDomain) [(.eventRow event.id, .excl)] := by
    simp [Stmt.exec, found, pending, due]
  obtain ⟨result, writes, seq, applied, dealt⟩ := solo_apply svc input good found pending due dispatched
    fits inRange
  obtain ⟨seq', view⟩ := after_reseq writes db seq
  have claimed : svc.solo input (Queue.claim event.id input.now) [] db =
      some (.ok (some event.toDomain), [], db) := solo_read ⟨_, ran⟩
  have alone := alone_of_solo svc input (solo_processEvent svc input ((solo_bind claimed).trans applied))
  exact ⟨result, writes, seq', alone.trans (congrArg some view), dealt⟩

/-- A pass over an event that is not pending claims nothing. -/
theorem solo_idle {eventId : Nat} {event : EventRow} (found : db.event? eventId = some event)
    (idle : event.status ≠ .pending) :
    svc.solo input (svc.processEvent eventId) [] db = some (.ok notClaimed, [], db) := by
  have ran : (Stmt.claim eventId input.now).exec (fun _ _ => true) input (db.after []) = read none [] := by
    simp [Stmt.exec, found, idle]
  have claimed : svc.solo input (Queue.claim eventId input.now) [] db = some (.ok none, [], db) :=
    solo_read ⟨_, ran⟩
  exact solo_processEvent svc input (solo_bind claimed)

theorem alone_idle {eventId : Nat} {event : EventRow} (found : db.event? eventId = some event)
    (idle : event.status ≠ .pending) : svc.system.alone input db (.process eventId) = some db :=
  alone_of_solo svc input (solo_idle svc input found idle)

end Pass

end WebhookReceiver
