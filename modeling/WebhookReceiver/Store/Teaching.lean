import WebhookReceiver.Services
import WebhookReceiver.Store.Facts

/-!
What a statement's answer teaches.

`Teaches s a l` reads the answer `a` to the statement `s` as a lesson: the writes
the transaction now has pending, the locks it took and the facts it learned.
`exec_teaches` proves the reading right for every statement, and `teaches_licensed`
that a statement takes the locks its own writes need. `Obeys` is what is left to
the programs: not to update a row that may not exist, and, in a strict regime, not
to touch an account without the lock of its entity.
-/

namespace WebhookReceiver

open Txn (Mode Reply LicensedAll)

abbrev Lesson := Txn.Lesson Write Lock Fact

def Teaches : (s : Stmt) → s.Answer → Lesson → Prop
  | .now, _, l | .transactionNow, _, l => l = {}
  | .uniform low high, u, l => l = {} ∧ ∃ draw : {u : ℚ // 0 ≤ u ∧ u ≤ 1}, u = low + (high - low) * draw
  | .claim _ _, none, l => l = {}
  | .claim id due, some event, l =>
    ∃ row : EventRow, event = row.toDomain ∧ row.id = id ∧ row.status = .pending ∧
      row.nextAttemptAt ≤ due ∧
      l = { locks := [(.eventRow id, .excl)], facts := [.event id (some row)] }
  | .loadForUpdate _, none, l => l = {}
  | .loadForUpdate id, some event, l =>
    ∃ row : EventRow, event = row.toDomain ∧ row.id = id ∧
      l = { locks := [(.eventRow id, .excl)], facts := [.event id (some row)] }
  | .maxAttemptNumber id, highest, l =>
    l = { facts := [.attemptsUpTo id (highest.getD 0), .attemptNumbered id (highest.getD 0)] }
  | .updateEvent id values, _, l =>
    ∃ row : EventRow, l = {
      writes := [.updateEvent id (values row.toEventQueue)]
      locks := [(.eventRow id, .excl)]
      facts := [.event id (some row)] }
  | .insertAttempt attempt, _, l =>
    isInteger attempt.attemptNumber ∧ ∃ id event, l = {
      writes := [.insertAttempt { attempt with id := id }]
      locks := [(.attemptNumber attempt.eventId attempt.attemptNumber, .excl), (.attemptRow id, .excl),
        (.eventRow attempt.eventId, .share)]
      facts := [.event attempt.eventId (some event), .freshAttempt id,
        .noAttempt attempt.eventId attempt.attemptNumber] }
  | .latestAttemptId _, _, l => l = {}
  | .insertReplayRequest request, _, l =>
    ∃ event locks, l = {
      writes := [.insertReplay request]
      locks := (.eventRow request.eventId, .share) :: locks
      facts := [.event request.eventId (some event)] }
  | .insertDeadLetterEntry eventId attemptsMade reason, _, l =>
    (∃ id at' event, l = {
      writes := [.insertEntry ⟨⟨.needsReview, none, none⟩, id, eventId, reason, attemptsMade, at'⟩]
      locks := [(.dlqKey eventId, .excl), (.entryRow id, .excl), (.eventRow eventId, .share)]
      facts := [.event eventId (some event), .freshEntry id, .noEntry eventId] }) ∨
    ∃ id, l = { facts := [.entryOf eventId id] }
  | .entryForEvent eventId, none, l =>
    l = { facts := [.noEntryIn eventId .needsReview, .noEntryIn eventId .replaying] }
  | .entryForEvent eventId, some entry, l =>
    l = { facts := .entryOf eventId entry.id ::
      ([.needsReview, .replaying].filter fun status => status ≠ entry.status).map (.noEntryIn eventId) }
  | .getEntry id, none, l => l = { facts := [.entry id none] }
  | .getEntry _, some _, l => l = {}
  | .entryStatusForUpdate id, status, l =>
    ∃ row : EntryRow, row.status = status ∧
      l = { locks := [(.entryRow id, .excl)], facts := [.entry id (some row)] }
  | .updateEntry id values, _, l =>
    ∃ row : EntryRow, (row.status.terminal → (values row.toEntryTriage).status = row.status) ∧ l = {
      writes := [.updateEntry id (values row.toEntryTriage)]
      locks := [(.entryRow id, .excl)]
      facts := [.entry id (some row)] }
  | .setLockTimeout _, _, l => l = {}
  | .advisoryXactLock key, _, l => l = { locks := [(.advisory key, .excl)] }
  | .insertAccount externalRef, some id, l =>
    l = {
      writes := [.insertAccount ⟨⟨0, 0⟩, id, externalRef⟩]
      locks := [(.accountKey externalRef, .excl), (.accountRow id, .excl)]
      facts := [.freshAccount id, .noAccount externalRef] }
  | .insertAccount externalRef, none, l => ∃ id, l = { facts := [.hasAccount id externalRef] }
  | .accountIdOf externalRef, id, l => l = { facts := [.hasAccount id externalRef] }
  | .balanceAndVersion id, state, l =>
    ∃ row : AccountRow, row.id = id ∧ row.toAccountState = state ∧
      l = { facts := [.hasAccount id row.externalRef, .accountOf row.externalRef (some row)] }
  | .insertLedgerEntry accountId eventId amountMinor, some id, l =>
    isBigint amountMinor ∧ ∃ event externalRef, l = {
      writes := [.insertLedger ⟨id, accountId, eventId, amountMinor⟩]
      locks := [(.ledgerKey eventId, .excl), (.eventRow eventId, .share)]
      facts := [.event eventId (some event), .hasAccount accountId externalRef, .noLedger eventId] }
  | .insertLedgerEntry _ eventId amountMinor, none, l =>
    isBigint amountMinor ∧ l = { facts := [.hasLedger eventId] }
  | .updateAccount id _ values, _, l =>
    ∃ row : AccountRow, isBigint (values row.toAccountState).balanceMinor ∧
      isBigint (values row.toAccountState).version ∧ 0 ≤ (values row.toAccountState).version ∧ l = {
        writes := [.updateAccount id (values row.toAccountState)]
        locks := [(.accountRow id, .excl)]
        facts := [.account id (some row)] }
  | .insertEvent event, some id, l =>
    event.storable ∧ ∃ at', l = {
      writes := [.insertEvent { event with
        status := .pending, attemptCount := 0, nextAttemptAt := at', processedAt := none,
        lastError := none, id := id, receivedAt := at' }]
      locks := [(.eventKey event.source event.idempotencyKey, .excl), (.eventRow id, .excl)]
      facts := [.freshEvent id, .noEventKey event.source event.idempotencyKey] }
  | .insertEvent event, none, l =>
    event.storable ∧ ∃ id, l = { facts := [.hasEventKey event.source event.idempotencyKey id] }
  | .eventIdOf source key, id, l => l = { facts := [.hasEventKey source key id] }
  | .purgeAttempts _, _, l => ∃ ids locks, l = { writes := [.deleteAttempts ids], locks := locks }
  | .purgeableEvents _, _, l => l = {}
  | .purgeEvent _ _, false, l => l = {}
  | .purgeEvent id cutoff, true, l =>
    ∃ (row : EventRow) (ids : List Nat) (locks : Locks), row.expired cutoff ∧
      (.eventRow id, .excl) ∈ locks ∧ (∀ entry ∈ ids, (.entryRow entry, .excl) ∈ locks) ∧ l = {
        writes := [.deleteEvent id]
        locks := locks
        facts := [.event id (some row), .noLedger id, .entriesAmong id ids] }

/-- What a program owes before it issues a statement. -/
def Obeys (regime : Regime) (locks : Locks) (view : Db) : Stmt → Prop
  | .updateEvent id _ => ∃ row, view.event? id = some row
  | .insertAttempt attempt =>
    0 < attempt.attemptNumber ∧ ∀ row ∈ view.attempts, row.eventId = attempt.eventId →
      row.attemptNumber < attempt.attemptNumber
  | .insertDeadLetterEntry eventId _ _ => (.eventRow eventId, .excl) ∈ locks
  | .updateEntry id values =>
    (∃ row ∈ view.entries, row.id = id) ∧ ∀ row ∈ view.entries, row.id = id →
      row.status.terminal = false ∧
      (∀ triage, (values triage).status = .needsReview → locks.onEvent row.eventId) ∧
      ∀ triage, (values triage).status = .replaying → (.eventRow row.eventId, .excl) ∈ locks
  | .insertAccount externalRef => regime.strict → (regime.entity externalRef, .excl) ∈ locks
  | .updateAccount id _ _ =>
    (∃ row ∈ view.accounts, row.id = id) ∧
      (regime.strict → ∀ row ∈ view.accounts, row.id = id →
        (regime.entity row.externalRef, .excl) ∈ locks)
  | .eventIdOf source key =>
    ¬ regime.purging → ∃ row ∈ view.events, row.source = source ∧ row.idempotencyKey = key
  | .purgeAttempts _ | .purgeEvent _ _ => regime.purging
  | _ => True

/-- The failures that a statement can raise by itself, where it matters which. -/
def Raises (regime : Regime) : Stmt → Exc → Prop
  | .now, _ | .getEntry _, _ | .updateEntry _ _, _ => False
  | .entryStatusForUpdate _, e => e = noResultFound
  | .insertEvent event, _ => event.storable = false
  | .eventIdOf _ _, _ => regime.purging
  | _, _ => True

variable {regime : Regime} {avail : Lock → Mode → Bool} {input : Input} {view db : Db}

/-! ## Instants -/

theorem read_some {ρ : Type} {answer : ρ} {locks : Locks} {reply : Reply Write Lock Exc ρ}
    (ran : read answer locks = some reply) : reply = { answer := .ok answer, locks := locks } := by
  cases ran
  rfl

theorem refuse_some {ρ : Type} {e : Exc} {reply : Reply Write Lock Exc ρ}
    (ran : refuse e = some reply) : reply = { answer := .error e } := by
  cases ran
  rfl

/-- An insert that ran met a committed row, broke a constraint, or inserted. -/
theorem insertUnder_some {ρ : Type} {key : Lock} {table : Table} {taken : Bool}
    {conflict : Except Exc ρ} {unmet : Option Exc} {inserted : ρ} {write : Write} {locks : Locks}
    {reply : Reply Write Lock Exc ρ}
    (ran : insertUnder avail key table taken conflict unmet inserted write locks = some reply) :
    (taken = true ∧ reply = { answer := conflict, instant := [.draw table] }) ∨
    (taken = false ∧ ∃ e, unmet = some e ∧ reply = { answer := .error e, instant := [.draw table] }) ∨
    (taken = false ∧ unmet = none ∧ reply = {
      answer := .ok inserted, writes := [write], instant := [.draw table],
      locks := (key, .excl) :: locks }) := by
  unfold insertUnder at ran
  split at ran
  · split at ran
    · rename_i held
      exact Or.inl ⟨held, (Option.some.inj ran).symm⟩
    · rename_i absent
      split at ran
      · exact Or.inr (Or.inl ⟨by simpa using absent, _, rfl, (Option.some.inj ran).symm⟩)
      · exact Or.inr (Or.inr ⟨by simpa using absent, rfl, (Option.some.inj ran).symm⟩)
  · cases ran

theorem drawn_after (view : Db) (table : Table) :
    view.seq table < ((Write.draw table).apply view).seq table := by
  simp [Write.apply]

/-- Drawing an identity value commutes with every write. -/
theorem draw_comm (w : Write) (table : Table) (db : Db) :
    w.apply ((Write.draw table).apply db) = (Write.draw table).apply (w.apply db) := by
  cases w with
  | draw other =>
    by_cases same : other = table
    · subst same
      rfl
    · have seqs : ∀ seq : Table → Nat,
          Function.update (Function.update seq table (seq table + 1)) other (seq other + 1) =
            Function.update (Function.update seq other (seq other + 1)) table (seq table + 1) :=
        fun seq => Function.update_comm (Ne.symm same) ..
      simp only [Write.apply, Function.update_of_ne same, Function.update_of_ne (Ne.symm same), seqs]
  | _ => rfl

theorem after_draw (writes : List Write) (table : Table) (db : Db) :
    ((Write.draw table).apply db).after writes = (Write.draw table).apply (db.after writes) := by
  induction writes generalizing db with
  | nil => rfl
  | cons w rest ih =>
    simp only [Db.after_cons, draw_comm]
    exact ih (w.apply db)

/-! ## Every statement -/

/-- How a statement was carried out: refused, or answered with a lesson that the
store bears out. At once it writes to no more than an identity sequence. -/
inductive Carried (regime : Regime) (view : Db) (s : Stmt) : Reply Write Lock Exc s.Answer → Prop where
  | refused {e : Exc} {instant : List Write} (raised : Raises regime s e)
      (draws : instant = [] ∨ ∃ table, instant = [.draw table]) :
      Carried regime view s { answer := .error e, instant := instant }
  | answered {a : s.Answer} {writes instant : List Write} {locks : Locks} (facts : List Fact)
      (taught : Teaches s a ⟨writes, locks, facts⟩)
      (hold : ∀ f ∈ facts, f.holds (view.after instant))
      (draws : instant = [] ∨ ∃ table, instant = [.draw table]) :
      Carried regime view s { answer := .ok a, writes := writes, instant := instant, locks := locks }

/-- A read that teaches facts of the store it read. -/
theorem carried_read {s : Stmt} {answer : s.Answer} {locks : Locks} (facts : List Fact)
    {reply : Reply Write Lock Exc s.Answer} (ran : read answer locks = some reply)
    (taught : Teaches s answer ⟨[], locks, facts⟩) (hold : ∀ f ∈ facts, f.holds view) :
    Carried regime view s reply := by
  rw [read_some ran]
  exact .answered facts taught hold (Or.inl rfl)

theorem carried_refuse {s : Stmt} {e : Exc} {reply : Reply Write Lock Exc s.Answer}
    (ran : refuse e = some reply) (raised : Raises regime s e) : Carried regime view s reply := by
  rw [refuse_some ran]
  exact .refused raised (Or.inl rfl)

theorem mem_of_event? {id : Nat} {row : EventRow} (found : view.event? id = some row) :
    row ∈ view.events := List.mem_of_find?_eq_some found

theorem noEntry_of_entryOf? {eventId : Nat} (absent : (view.entryOf? eventId).isSome = false) :
    ∀ row ∈ view.entries, row.eventId ≠ eventId := by
  simpa [Db.entryOf?] using absent

/-! ### Inserts -/

theorem check_none {violated : Bool} {e : Exc} : check violated e = none ↔ violated = false := by
  cases violated <;> simp [check]

theorem some_of_isNone {α : Type} {found : Option α} (present : found.isNone = false) :
    ∃ row, found = some row := by
  cases found with
  | none => cases present
  | some row => exact ⟨row, rfl⟩

theorem carried_insertAttempt {attempt : Attempt} {reply : Reply Write Lock Exc Unit}
    (good : Wf view) (ran : execInsertAttempt avail view attempt = some reply) :
    Carried regime view (.insertAttempt attempt) reply := by
  rcases insertUnder_some ran with ⟨-, rfl⟩ | ⟨-, e, -, rfl⟩ | ⟨free, met, rfl⟩
  · exact .refused trivial (Or.inr ⟨_, rfl⟩)
  · exact .refused trivial (Or.inr ⟨_, rfl⟩)
  · simp only [Option.or_eq_none_iff, check_none, Bool.or_eq_false_iff] at met
    obtain ⟨event, found⟩ := some_of_isNone met.2.2
    have inRange : isInteger attempt.attemptNumber = true := by simpa using met.2.1.1
    have fresh : ∀ row ∈ view.attempts, row.id ≠ view.seq .attempt :=
      fun row member => Nat.ne_of_lt (good.attemptDrawn row member)
    refine .answered [.event attempt.eventId (some event), .freshAttempt (view.seq .attempt),
      .noAttempt attempt.eventId attempt.attemptNumber] ⟨inRange, _, _, rfl⟩ ?_ (Or.inr ⟨_, rfl⟩)
    simp only [List.forall_mem_cons, List.not_mem_nil, false_implies, implies_true, and_true]
    exact ⟨found, ⟨fresh, drawn_after view .attempt⟩, by simpa [Fact.holds, Write.apply] using free⟩

theorem carried_insertDeadLetterEntry {eventId attemptsMade : Nat} {reason : String}
    {reply : Reply Write Lock Exc Unit} (good : Wf view)
    (ran : execInsertDeadLetterEntry avail input view eventId attemptsMade reason = some reply) :
    Carried regime view (.insertDeadLetterEntry eventId attemptsMade reason) reply := by
  rcases insertUnder_some ran with ⟨taken, rfl⟩ | ⟨-, e, -, rfl⟩ | ⟨free, met, rfl⟩
  · obtain ⟨entry, found⟩ := Option.isSome_iff_exists.mp taken
    refine .answered [.entryOf eventId entry.id] (Or.inr ⟨_, rfl⟩) ?_ (Or.inr ⟨_, rfl⟩)
    simp only [List.forall_mem_cons, List.not_mem_nil, false_implies, implies_true, and_true]
    exact ⟨entry, List.mem_of_find?_eq_some found, rfl, by simpa using List.find?_some found⟩
  · exact .refused trivial (Or.inr ⟨_, rfl⟩)
  · obtain ⟨event, found⟩ := some_of_isNone (check_none.mp met)
    have fresh : ∀ row ∈ view.entries, row.id ≠ view.seq .entry :=
      fun row member => Nat.ne_of_lt (good.entryDrawn row member)
    refine .answered [.event eventId (some event), .freshEntry (view.seq .entry), .noEntry eventId]
      (Or.inl ⟨_, _, _, rfl⟩) ?_ (Or.inr ⟨_, rfl⟩)
    simp only [List.forall_mem_cons, List.not_mem_nil, false_implies, implies_true, and_true]
    exact ⟨found, ⟨fresh, drawn_after view .entry⟩, by simpa [Fact.holds, Write.apply, Db.entryOf?] using free⟩

theorem carried_insertReplayRequest {request : ReplayRequest} {reply : Reply Write Lock Exc Unit}
    (ran : execInsertReplayRequest view request = some reply) :
    Carried regime view (.insertReplayRequest request) reply := by
  unfold execInsertReplayRequest at ran
  split at ran
  · exact carried_refuse ran trivial
  · rename_i present
    split at ran
    · exact carried_refuse ran trivial
    · obtain ⟨event, found⟩ := some_of_isNone (Bool.eq_false_iff.mpr present)
      cases ran
      refine .answered [.event request.eventId (some event)] ⟨_, _, rfl⟩ ?_ (Or.inl rfl)
      simpa [Fact.holds] using found

theorem carried_insertAccount {externalRef : String} {reply : Reply Write Lock Exc (Option Nat)}
    (good : Wf view) (ran : execInsertAccount avail view externalRef = some reply) :
    Carried regime view (.insertAccount externalRef) reply := by
  unfold execInsertAccount at ran
  simp only at ran
  rcases insertUnder_some ran with ⟨taken, rfl⟩ | ⟨-, e, -, rfl⟩ | ⟨free, -, rfl⟩
  · obtain ⟨account, found⟩ := Option.isSome_iff_exists.mp taken
    obtain ⟨member, named⟩ := accountOf?_mem found
    refine .answered [.hasAccount account.id externalRef] ⟨_, rfl⟩ ?_ (Or.inr ⟨_, rfl⟩)
    simp only [List.forall_mem_cons, List.not_mem_nil, false_implies, implies_true, and_true]
    exact ⟨account, member, rfl, named⟩
  · exact .refused trivial (Or.inr ⟨_, rfl⟩)
  · have fresh : ∀ row ∈ view.accounts, row.id ≠ view.seq .account :=
      fun row member => Nat.ne_of_lt (good.accountDrawn row member)
    refine .answered [.freshAccount (view.seq .account), .noAccount externalRef] rfl ?_ (Or.inr ⟨_, rfl⟩)
    simp only [List.forall_mem_cons, List.not_mem_nil, false_implies, implies_true, and_true]
    exact ⟨⟨fresh, drawn_after view .account⟩, by simpa [Fact.holds, Write.apply, Db.accountOf?] using free⟩

theorem carried_insertLedgerEntry {accountId eventId : Nat} {amountMinor : Int}
    {reply : Reply Write Lock Exc (Option Nat)}
    (ran : execInsertLedgerEntry avail view accountId eventId amountMinor = some reply) :
    Carried regime view (.insertLedgerEntry accountId eventId amountMinor) reply := by
  unfold execInsertLedgerEntry at ran
  simp only at ran
  split at ran
  · exact carried_refuse ran trivial
  · rename_i inRange
    rcases insertUnder_some ran with ⟨taken, rfl⟩ | ⟨-, e, -, rfl⟩ | ⟨free, met, rfl⟩
    · obtain ⟨row, found⟩ := Option.isSome_iff_exists.mp taken
      refine .answered [.hasLedger eventId] ⟨by simpa using inRange, rfl⟩ ?_ (Or.inr ⟨_, rfl⟩)
      simp only [List.forall_mem_cons, List.not_mem_nil, false_implies, implies_true, and_true]
      exact ⟨row, List.mem_of_find?_eq_some found, by simpa using List.find?_some found⟩
    · exact .refused trivial (Or.inr ⟨_, rfl⟩)
    · simp only [check_none, Bool.or_eq_false_iff] at met
      obtain ⟨account, owner⟩ := some_of_isNone met.1
      obtain ⟨event, found⟩ := some_of_isNone met.2
      refine .answered [.event eventId (some event), .hasAccount accountId account.externalRef,
        .noLedger eventId] ⟨by simpa using inRange, _, _, rfl⟩ ?_ (Or.inr ⟨_, rfl⟩)
      simp only [List.forall_mem_cons, List.not_mem_nil, false_implies, implies_true, and_true]
      exact ⟨found, ⟨account, List.mem_of_find?_eq_some owner, account?_id owner, rfl⟩,
        by simpa [Fact.holds, Write.apply, Db.ledgerOf?] using free⟩

theorem carried_insertEvent {event : IncomingEvent} {reply : Reply Write Lock Exc (Option Nat)}
    (good : Wf view) (ran : execInsertEvent avail input view event = some reply) :
    Carried regime view (.insertEvent event) reply := by
  unfold execInsertEvent at ran
  simp only at ran
  split at ran
  · rename_i refused
    exact carried_refuse ran (by simpa [Raises] using refused)
  · rename_i storable
    rcases insertUnder_some ran with ⟨taken, rfl⟩ | ⟨-, e, unmet, -⟩ | ⟨free, -, rfl⟩
    · obtain ⟨row, found⟩ := Option.isSome_iff_exists.mp taken
      refine .answered [.hasEventKey event.source event.idempotencyKey row.id]
        ⟨by simpa using storable, _, rfl⟩ ?_ (Or.inr ⟨_, rfl⟩)
      simp only [List.forall_mem_cons, List.not_mem_nil, false_implies, implies_true, and_true]
      exact ⟨row, List.mem_of_find?_eq_some found, rfl, by simpa using List.find?_some found⟩
    · cases unmet
    · have fresh : ∀ row ∈ view.events, row.id ≠ view.seq .event :=
        fun row member => Nat.ne_of_lt (good.eventDrawn row member)
      have unused : view.seq .event ∉ view.purged :=
        fun member => Nat.lt_irrefl _ (good.purgedDrawn _ member)
      refine .answered [.freshEvent (view.seq .event), .noEventKey event.source event.idempotencyKey]
        ⟨by simpa using storable, _, rfl⟩ ?_ (Or.inr ⟨_, rfl⟩)
      simp only [List.forall_mem_cons, List.not_mem_nil, false_implies, implies_true, and_true]
      exact ⟨⟨fresh, unused, drawn_after view .event⟩, by simpa
        [Fact.holds, Write.apply, Db.eventOfKey?] using free⟩

/-! ### Updates and deletes -/

theorem carried_updateAccount {accountId : Nat} {given : Int} {values : AccountState → AccountState}
    {reply : Reply Write Lock Exc Unit} (present : ∃ row ∈ view.accounts, row.id = accountId)
    (ran : execUpdateAccount view accountId given values = some reply) :
    Carried regime view (.updateAccount accountId given values) reply := by
  unfold execUpdateAccount at ran
  split at ran
  · exact carried_refuse ran trivial
  split at ran
  · rename_i absent
    obtain ⟨row, member, same⟩ := present
    have differ := List.find?_eq_none.mp absent row member
    simp [same] at differ
  · rename_i row found
    simp only at ran
    split at ran
    · exact carried_refuse ran trivial
    · rename_i inRange
      split at ran
      · exact carried_refuse ran trivial
      · rename_i positive
        cases ran
        simp only [Bool.or_eq_true, Bool.not_eq_true', not_or, Bool.not_eq_false] at inRange
        refine .answered [.account accountId (some row)]
          ⟨row, inRange.1, inRange.2, by omega, rfl⟩ ?_ (Or.inl rfl)
        simpa [Fact.holds] using found

theorem carried_updateEntry {entryId : Nat} {values : EntryTriage → EntryTriage}
    {reply : Reply Write Lock Exc Unit} (present : ∃ row ∈ view.entries, row.id = entryId)
    (open' : ∀ row ∈ view.entries, row.id = entryId → row.status.terminal = false)
    (ran : execUpdateEntry view entryId values = some reply) :
    Carried regime view (.updateEntry entryId values) reply := by
  unfold execUpdateEntry at ran
  split at ran
  · rename_i absent
    obtain ⟨row, member, same⟩ := present
    have differ := List.find?_eq_none.mp absent row member
    simp [same] at differ
  · rename_i row found
    have waits := open' row (List.mem_of_find?_eq_some found) (by simpa using List.find?_some found)
    simp only [waits, Bool.false_and, Bool.false_eq_true, if_false] at ran
    cases ran
    refine .answered [.entry entryId (some row)] ⟨row, ?_, rfl⟩ ?_ (Or.inl rfl)
    · simp [waits]
    · simpa [Fact.holds] using found

theorem carried_purgeEvent {eventId : Nat} {cutoff : Time} {reply : Reply Write Lock Exc Bool}
    (ran : execPurgeEvent view eventId cutoff = some reply) :
    Carried regime view (.purgeEvent eventId cutoff) reply := by
  unfold execPurgeEvent at ran
  split at ran
  · exact carried_read [] ran rfl (by simp)
  · rename_i row found
    split at ran
    · rename_i expired
      simp only [Bool.and_eq_true, Option.isNone_iff_eq_none] at expired
      cases ran
      let ids := (view.entries.filter fun entry => entry.eventId = eventId).map (·.id)
      refine .answered [.event eventId (some row), .noLedger eventId, .entriesAmong eventId ids]
        ⟨row, ids, _, expired.1, by simp, ?_, rfl⟩ ?_ (Or.inl rfl)
      · intro id member
        obtain ⟨entry, known, rfl⟩ := List.mem_map.mp member
        refine List.mem_append_left _ (List.mem_cons_of_mem _ (List.mem_cons_of_mem _ ?_))
        exact List.mem_map.mpr ⟨entry, known, rfl⟩
      · simp only [List.forall_mem_cons, List.not_mem_nil, false_implies, implies_true, and_true]
        refine ⟨found, by simpa [Fact.holds, Db.ledgerOf?] using expired.2, ?_⟩
        intro entry member same
        exact List.mem_map.mpr ⟨entry, List.mem_filter.mpr ⟨member, by simpa using same⟩, rfl⟩
    · exact carried_read [] ran rfl (by simp)

/-! ### Reads -/

theorem carried_claim {id : Nat} {due : Time}
    {reply : Reply Write Lock Exc (Stmt.claim id due).Answer}
    (ran : (Stmt.claim id due).exec avail input view = some reply) :
    Carried regime view (.claim id due) reply := by
  simp only [Stmt.exec] at ran
  split at ran
  · exact carried_read [] ran rfl (by simp)
  · rename_i row found
    split at ran
    · rename_i ready
      exact carried_read [.event id (some row)] ran
        ⟨row, rfl, event?_id found, ready.1, ready.2.1, rfl⟩ (by simpa [Fact.holds] using found)
    · exact carried_read [] ran rfl (by simp)

theorem carried_maxAttemptNumber {id : Nat}
    {reply : Reply Write Lock Exc (Stmt.maxAttemptNumber id).Answer}
    (ran : (Stmt.maxAttemptNumber id).exec avail input view = some reply) :
    Carried regime view (.maxAttemptNumber id) reply := by
  refine carried_read [.attemptsUpTo id _, .attemptNumbered id _] ran rfl ?_
  simp only [List.forall_mem_cons, List.not_mem_nil, false_implies, implies_true, and_true]
  constructor
  · intro row member same
    refine List.le_max?_getD_of_mem (List.mem_map.mpr ⟨row, ?_, rfl⟩)
    exact List.mem_filter.mpr ⟨member, by simpa using same⟩
  · cases highest : ((view.attemptsOf id).map (·.attemptNumber)).max? with
    | none => exact Or.inl rfl
    | some number =>
      obtain ⟨row, listed, numbered⟩ := List.mem_map.mp (List.max?_mem highest)
      obtain ⟨member, about⟩ := List.mem_filter.mp listed
      exact Or.inr ⟨row, member, by simpa using about, numbered⟩

theorem carried_entryForEvent {eventId : Nat}
    {reply : Reply Write Lock Exc (Stmt.entryForEvent eventId).Answer} (good : Wf view)
    (ran : (Stmt.entryForEvent eventId).exec avail input view = some reply) :
    Carried regime view (.entryForEvent eventId) reply := by
  cases found : view.entryOf? eventId with
  | none =>
    simp only [Stmt.exec, found, Option.bind_eq_bind, Option.bind_none] at ran
    refine carried_read [.noEntryIn eventId .needsReview, .noEntryIn eventId .replaying] ran rfl ?_
    have absent : ∀ row ∈ view.entries, row.eventId ≠ eventId :=
      noEntry_of_entryOf? (by simp [found])
    simp only [List.forall_mem_cons, List.not_mem_nil, false_implies, implies_true, and_true]
    exact ⟨fun row member same => absurd same (absent row member),
      fun row member same => absurd same (absent row member)⟩
  | some entry =>
    have member := List.mem_of_find?_eq_some found
    have about : entry.eventId = eventId := by simpa using List.find?_some found
    obtain ⟨event, there, named⟩ := good.entryEvent entry member
    have known : view.event? eventId = some event := by
      rw [← about, ← named]
      exact event?_of_mem good there
    simp only [Stmt.exec, found, known, Option.bind_eq_bind, Option.bind_some, Option.pure_def] at ran
    refine carried_read _ ran (by exact rfl) ?_
    rw [List.forall_mem_cons]
    refine ⟨⟨entry, member, rfl, about⟩, fun fact listed => ?_⟩
    obtain ⟨status, apart, rfl⟩ := List.mem_map.mp listed
    intro row there same
    rw [List.inj_on_of_nodup_map good.entryEvents there member (same.trans about.symm)]
    exact fun alike => of_decide_eq_true (List.mem_filter.mp apart).2 alike.symm

theorem carried_getEntry {id : Nat}
    {reply : Reply Write Lock Exc (Stmt.getEntry id).Answer} (good : Wf view)
    (ran : (Stmt.getEntry id).exec avail input view = some reply) :
    Carried regime view (.getEntry id) reply := by
  cases found : view.entry? id with
  | none =>
    simp only [Stmt.exec, found, Option.bind_eq_bind, Option.bind_none] at ran
    exact carried_read [.entry id none] ran rfl (by simpa [Fact.holds] using found)
  | some entry =>
    obtain ⟨event, there, named⟩ := good.entryEvent entry (List.mem_of_find?_eq_some found)
    have known : view.event? entry.eventId = some event := by
      rw [← named]
      exact event?_of_mem good there
    simp only [Stmt.exec, found, known, Option.bind_eq_bind, Option.bind_some, Option.pure_def] at ran
    exact carried_read [] ran (by exact rfl) (by simp)

theorem carried_accountIdOf {externalRef : String}
    {reply : Reply Write Lock Exc (Stmt.accountIdOf externalRef).Answer}
    (ran : (Stmt.accountIdOf externalRef).exec avail input view = some reply) :
    Carried regime view (.accountIdOf externalRef) reply := by
  simp only [Stmt.exec] at ran
  split at ran
  · exact carried_refuse ran trivial
  · rename_i row found
    obtain ⟨member, named⟩ := accountOf?_mem found
    refine carried_read [.hasAccount row.id externalRef] ran rfl ?_
    simp only [List.forall_mem_cons, List.not_mem_nil, false_implies, implies_true, and_true]
    exact ⟨row, member, rfl, named⟩

theorem carried_balanceAndVersion {id : Nat}
    {reply : Reply Write Lock Exc (Stmt.balanceAndVersion id).Answer} (good : Wf view)
    (ran : (Stmt.balanceAndVersion id).exec avail input view = some reply) :
    Carried regime view (.balanceAndVersion id) reply := by
  simp only [Stmt.exec] at ran
  split at ran
  · exact carried_refuse ran trivial
  · rename_i row found
    have member := List.mem_of_find?_eq_some found
    refine carried_read [.hasAccount id row.externalRef, .accountOf row.externalRef (some row)] ran
      ⟨row, account?_id found, rfl, rfl⟩ ?_
    simp only [List.forall_mem_cons, List.not_mem_nil, false_implies, implies_true, and_true]
    exact ⟨⟨row, member, account?_id found, rfl⟩, accountOf?_of_mem good member⟩

theorem carried_eventIdOf {source key : String} {locks : Locks}
    {reply : Reply Write Lock Exc (Stmt.eventIdOf source key).Answer}
    (obeyed : Obeys regime locks view (.eventIdOf source key))
    (ran : (Stmt.eventIdOf source key).exec avail input view = some reply) :
    Carried regime view (.eventIdOf source key) reply := by
  simp only [Stmt.exec] at ran
  split at ran
  · rename_i absent
    refine carried_refuse ran (Classical.byContradiction fun never => ?_)
    obtain ⟨row, member, same⟩ := obeyed never
    have differ := List.find?_eq_none.mp absent row member
    simp [same] at differ
  · rename_i row found
    refine carried_read [.hasEventKey source key row.id] ran rfl ?_
    simp only [List.forall_mem_cons, List.not_mem_nil, false_implies, implies_true, and_true]
    exact ⟨row, List.mem_of_find?_eq_some found, rfl, by simpa using List.find?_some found⟩

/-! ### All of them -/

/-- Every statement is carried out as `Teaches` reads it. -/
theorem carried {s : Stmt} {reply : Reply Write Lock Exc s.Answer} {locks : Locks} (good : Wf view)
    (obeyed : Obeys regime locks view s) (ran : s.exec avail input view = some reply) :
    Carried regime view s reply := by
  cases s with
  | now => exact carried_read [] ran rfl (by simp)
  | transactionNow => exact carried_read [] ran rfl (by simp)
  | uniform low high => exact carried_read [] ran ⟨rfl, input.draw, rfl⟩ (by simp)
  | claim id due => exact carried_claim ran
  | loadForUpdate id =>
    simp only [Stmt.exec] at ran
    split at ran
    · exact carried_read [] ran rfl (by simp)
    · rename_i row found
      exact carried_read [.event id (some row)] ran ⟨row, rfl, event?_id found, rfl⟩
        (by simpa [Fact.holds] using found)
  | maxAttemptNumber id => exact carried_maxAttemptNumber ran
  | updateEvent id values =>
    obtain ⟨row, found⟩ := obeyed
    simp only [Stmt.exec, found] at ran
    cases ran
    exact .answered [.event id (some row)] ⟨row, rfl⟩ (by simpa [Fact.holds] using found) (Or.inl rfl)
  | insertAttempt attempt => exact carried_insertAttempt good ran
  | latestAttemptId id => exact carried_read [] ran rfl (by simp)
  | insertReplayRequest request => exact carried_insertReplayRequest ran
  | insertDeadLetterEntry eventId attemptsMade reason => exact carried_insertDeadLetterEntry good ran
  | entryForEvent eventId => exact carried_entryForEvent good ran
  | getEntry id => exact carried_getEntry good ran
  | entryStatusForUpdate id =>
    simp only [Stmt.exec] at ran
    split at ran
    · exact carried_refuse ran rfl
    · rename_i row found
      exact carried_read [.entry id (some row)] ran ⟨row, rfl, rfl⟩ (by simpa [Fact.holds] using found)
  | updateEntry id values =>
    exact carried_updateEntry obeyed.1 (fun row member same => (obeyed.2 row member same).1) ran
  | setLockTimeout timeout => exact carried_read [] ran rfl (by simp)
  | advisoryXactLock key => exact carried_read [] ran rfl (by simp)
  | insertAccount externalRef => exact carried_insertAccount good ran
  | accountIdOf externalRef => exact carried_accountIdOf ran
  | balanceAndVersion id => exact carried_balanceAndVersion good ran
  | insertLedgerEntry accountId eventId amountMinor => exact carried_insertLedgerEntry ran
  | updateAccount id given values => exact carried_updateAccount obeyed.1 ran
  | insertEvent event => exact carried_insertEvent good ran
  | eventIdOf source key => exact carried_eventIdOf obeyed ran
  | purgeAttempts cutoff =>
    cases ran
    exact .answered [] ⟨_, _, rfl⟩ (by simp) (Or.inl rfl)
  | purgeableEvents cutoff => exact carried_read [] ran rfl (by simp)
  | purgeEvent eventId cutoff => exact carried_purgeEvent ran

/-! ## Licences -/

/-- A statement that writes took the locks for it, and what it found licenses the
write. It makes one row write at most. -/
theorem teaches_licensed {s : Stmt} {a : s.Answer} {l : Lesson} {locks : Locks}
    (taught : Teaches s a l) (obeyed : Obeys regime locks view s)
    (known : ∀ f ∈ l.facts, Guarded regime (locks ++ l.locks) f → f.holds view) :
    l.writes = [] ∨ ∃ w, l.writes = [w] ∧ Licensed regime (locks ++ l.locks) view w := by
  have last : ∀ {more : Locks} {held}, held ∈ more → held ∈ locks ++ more :=
    fun member => List.mem_append_right _ member
  cases s with
  | updateEvent id values =>
    obtain ⟨row, rfl⟩ := taught
    exact Or.inr ⟨_, rfl, last (by simp)⟩
  | insertAttempt attempt =>
    obtain ⟨-, id, event, rfl⟩ := taught
    have held : Locks.onEvent (locks ++ ([(.attemptNumber attempt.eventId attempt.attemptNumber, .excl),
        (.attemptRow id, .excl), (.eventRow attempt.eventId, .share)] : Locks)) attempt.eventId :=
      ⟨.share, last (by simp)⟩
    have found := known (.event attempt.eventId (some event)) (by simp) held
    have fresh := known (.freshAttempt id) (by simp) (last (by simp))
    have free := known (.noAttempt attempt.eventId attempt.attemptNumber) (by simp) (last (by simp))
    exact Or.inr ⟨_, rfl, held, last (by simp), last (by simp),
      ⟨event, mem_of_event? found, event?_id found⟩, fresh.1, fresh.2, free⟩
  | insertReplayRequest request =>
    obtain ⟨event, more, rfl⟩ := taught
    have held : Locks.onEvent (locks ++ ((.eventRow request.eventId, .share) :: more : Locks)) request.eventId :=
      ⟨.share, last (by simp)⟩
    have found := known (.event request.eventId (some event)) (by simp) held
    exact Or.inr ⟨_, rfl, held, event, mem_of_event? found, event?_id found⟩
  | insertDeadLetterEntry eventId attemptsMade reason =>
    rcases taught with ⟨id, at', event, rfl⟩ | ⟨id, rfl⟩
    · have held : Locks.onEvent (locks ++ ([(.dlqKey eventId, .excl), (.entryRow id, .excl),
          (.eventRow eventId, .share)] : Locks)) eventId := ⟨.share, last (by simp)⟩
      have found := known (.event eventId (some event)) (by simp) held
      have fresh := known (.freshEntry id) (by simp) (last (by simp))
      have free := known (.noEntry eventId) (by simp) (last (by simp))
      exact Or.inr ⟨_, rfl, List.mem_append_left _ obeyed, last (by simp), last (by simp),
        ⟨event, mem_of_event? found, event?_id found⟩, fresh.1, fresh.2, free⟩
    · exact Or.inl rfl
  | updateEntry id values =>
    obtain ⟨row, -, rfl⟩ := taught
    refine Or.inr ⟨_, rfl, last (by simp), fun entry member same => ?_⟩
    obtain ⟨-, back, taken⟩ := obeyed.2 entry member same
    exact ⟨fun status => Locks.onEvent_mono (back _ status),
      fun status => List.mem_append_left _ (taken _ status)⟩
  | insertAccount externalRef =>
    cases a with
    | none =>
      obtain ⟨id, rfl⟩ := taught
      exact Or.inl rfl
    | some id =>
      cases taught
      have fresh := known (.freshAccount id) (by simp) (last (by simp))
      have free := known (.noAccount externalRef) (by simp) (last (by simp))
      exact Or.inr ⟨_, rfl, last (by simp), last (by simp),
        fun strict => List.mem_append_left _ (obeyed strict), fresh.1, fresh.2, free⟩
  | insertLedgerEntry accountId eventId amountMinor =>
    cases a with
    | none =>
      obtain ⟨-, rfl⟩ := taught
      exact Or.inl rfl
    | some id =>
      obtain ⟨-, event, externalRef, rfl⟩ := taught
      have held : Locks.onEvent (locks ++ ([(.ledgerKey eventId, .excl), (.eventRow eventId, .share)] : Locks))
          eventId := ⟨.share, last (by simp)⟩
      have found := known (.event eventId (some event)) (by simp) held
      obtain ⟨account, member, same, -⟩ := known (.hasAccount accountId externalRef) (by simp) trivial
      have free := known (.noLedger eventId) (by simp) (Or.inl (last (by simp)))
      exact Or.inr ⟨_, rfl, held, last (by simp), ⟨event, mem_of_event? found, event?_id found⟩,
        ⟨account, member, same⟩, free⟩
  | updateAccount id given values =>
    obtain ⟨row, -, -, -, rfl⟩ := taught
    exact Or.inr ⟨_, rfl, last (by simp), fun strict row member same =>
      List.mem_append_left _ (obeyed.2 strict row member same)⟩
  | insertEvent event =>
    cases a with
    | none =>
      obtain ⟨-, id, rfl⟩ := taught
      exact Or.inl rfl
    | some id =>
      obtain ⟨-, at', rfl⟩ := taught
      have fresh := known (.freshEvent id) (by simp) (last (by simp))
      have free := known (.noEventKey event.source event.idempotencyKey) (by simp) (last (by simp))
      exact Or.inr ⟨_, rfl, last (by simp), last (by simp), fresh.1, fresh.2.1, fresh.2.2, free⟩
  | purgeAttempts cutoff =>
    obtain ⟨ids, more, rfl⟩ := taught
    exact Or.inr ⟨_, rfl, obeyed⟩
  | purgeEvent eventId cutoff =>
    cases a with
    | false =>
      cases taught
      exact Or.inl rfl
    | true =>
      obtain ⟨row, ids, more, -, mine, entries, rfl⟩ := taught
      have found := known (.event eventId (some row)) (by simp) ⟨.excl, last mine⟩
      have free := known (.noLedger eventId) (by simp) (Or.inr (last mine))
      have among := known (.entriesAmong eventId ids) (by simp) (last mine)
      exact Or.inr ⟨_, rfl, obeyed, last mine, ⟨row, mem_of_event? found, event?_id found⟩, free,
        fun entry member same => last (entries _ (among entry member same))⟩
  | claim id due =>
    cases a with
    | none =>
      cases taught
      exact Or.inl rfl
    | some event =>
      obtain ⟨row, -, -, -, -, rfl⟩ := taught
      exact Or.inl rfl
  | loadForUpdate id =>
    cases a with
    | none =>
      cases taught
      exact Or.inl rfl
    | some event =>
      obtain ⟨row, -, -, rfl⟩ := taught
      exact Or.inl rfl
  | entryForEvent eventId => cases a <;> cases taught <;> exact Or.inl rfl
  | getEntry id => cases a <;> cases taught <;> exact Or.inl rfl
  | entryStatusForUpdate id =>
    obtain ⟨row, -, rfl⟩ := taught
    exact Or.inl rfl
  | balanceAndVersion id =>
    obtain ⟨row, -, -, rfl⟩ := taught
    exact Or.inl rfl
  | uniform low high =>
    cases taught.1
    exact Or.inl rfl
  | _ =>
    cases taught
    exact Or.inl rfl

end WebhookReceiver
