import WebhookReceiver.Books

/-!
The life of an event, transaction by transaction.

`EventStep` says what a committed transaction can have made of one event, and
`Committed.eventStep` proves that there is nothing else. Beside it stand the lemmas
about the event's attempts and its ledger entry. `dealtIn` and `failuresIn` read off
a transaction's writes which passes it ended, `requeuesIn` which events it put back.
-/

namespace WebhookReceiver

/-! ## Ids that have been given out -/

/-- There is an event with this id, or there was one. -/
def Db.knows (db : Db) (id : Nat) : Prop := (∃ event, db.event? id = some event) ∨ id ∈ db.purged

theorem knows_apply (write : Write) {db : Db} {id : Nat} (known : db.knows id) :
    (write.apply db).knows id := by
  rcases known with ⟨event, found⟩ | gone
  · unfold Db.knows
    rw [event?_apply, found]
    cases write with
    | insertEvent row => exact Or.inl ⟨event, rfl⟩
    | updateEvent target queue => exact Or.inl ⟨_, rfl⟩
    | deleteEvent target =>
      by_cases same : id = target
      · exact Or.inr (by simp [Write.apply, same])
      · exact Or.inl ⟨event, by simp [Write.onEvent, same]⟩
    | _ => exact Or.inl ⟨event, rfl⟩
  · refine Or.inr ?_
    cases write with
    | deleteEvent target => exact List.mem_cons_of_mem _ gone
    | _ => exact gone

theorem knows_after (writes : List Write) {db : Db} {id : Nat} (known : db.knows id) :
    (db.after writes).knows id := by
  induction writes generalizing db with
  | nil => exact known
  | cons write rest ih => exact ih (knows_apply write known)

/-! ## The attempts that a transaction records -/

def Write.attempt? : Write → Option AttemptRow
  | .insertAttempt row => some row
  | _ => none

def attemptsIn (writes : List Write) : List AttemptRow := writes.filterMap Write.attempt?

/-- The events that a transaction dealt with. -/
def dealtIn (writes : List Write) : List Nat :=
  ((attemptsIn writes).filter fun attempt => attempt.outcome.dealtWith).map (·.eventId)

/-- The events of which a transaction recorded a failed attempt. -/
def failuresIn (writes : List Write) : List Nat :=
  ((attemptsIn writes).filter fun attempt => !attempt.outcome.dealtWith).map (·.eventId)

/-- Only `queue.requeue` writes that no attempts are used. -/
def Write.requeues? : Write → Option Nat
  | .updateEvent id queue => if queue.attemptCount = 0 then some id else none
  | _ => none

/-- The events that a transaction put back into the queue. -/
def requeuesIn (writes : List Write) : List Nat := writes.filterMap Write.requeues?

section Passes

variable {svc : Service} {eventId : Nat} {db : Db} {writes : List Write}

theorem requeuesIn_business (business : ∀ write ∈ writes, write.business = true) :
    requeuesIn writes = [] := by
  refine List.filterMap_eq_nil_iff.mpr fun write member => ?_
  have moves := business write member
  cases write with
  | updateEvent id queue => cases moves
  | _ => rfl

theorem Dealt.requeues {result : EffectResult} (done : Dealt svc eventId db result writes) :
    requeuesIn writes = [] := by
  cases done with
  | mk found pending due dispatched applied next outcome =>
    have silent := requeuesIn_business applied.business
    simp only [requeuesIn, List.filterMap_append] at silent ⊢
    rw [silent]
    simp [Write.requeues?]

theorem Failed.requeues (done : Failed svc eventId db writes) : requeuesIn writes = [] := by
  cases done with
  | mk found next outcome recorded judged =>
    cases judged with
    | rescheduled retryable left start cap => simp [requeuesIn, Write.requeues?]
    | deadLettered spent filing =>
      rcases filing with ⟨-, rfl⟩ | ⟨-, id, at', rfl⟩ <;> simp [requeuesIn, Write.requeues?]

theorem attemptsIn_business (business : ∀ write ∈ writes, write.business = true) :
    attemptsIn writes = [] := by
  refine List.filterMap_eq_nil_iff.mpr fun write member => ?_
  have moves := business write member
  cases write with
  | insertAttempt row => cases moves
  | _ => rfl

/-- What a pass that dealt with its event leaves behind. -/
theorem Dealt.attempt {result : EffectResult} (done : Dealt svc eventId db result writes) :
    ∃ attempt, attemptsIn writes = [attempt] ∧ attempt.eventId = eventId ∧
      attempt.outcome.dealtWith = true ∧ (db.after writes).attempts = db.attempts ++ [attempt] := by
  cases done with
  | @mk event effect result business attempt found pending due dispatched applied next outcome =>
    obtain ⟨-, attempts, -, -⟩ := Db.after_business applied.business db
    have only : attemptsIn (business ++ [Write.insertAttempt attempt, .updateEvent eventId
        { event.toEventQueue with
          status := .succeeded, attemptCount := event.attemptCount + 1,
          processedAt := some attempt.finishedAt, lastError := none }]) = [attempt] := by
      have silent := attemptsIn_business applied.business
      simp only [attemptsIn, List.filterMap_append] at silent ⊢
      rw [silent]
      rfl
    refine ⟨attempt, only, next.event, ?_, ?_⟩
    · rw [outcome]
      exact dealtWith_successOutcome result
    · rw [Db.after_append]
      simp only [Db.after_cons, Db.after_nil, Write.apply, attempts]

theorem Failed.attempt (done : Failed svc eventId db writes) :
    ∃ attempt, attemptsIn writes = [attempt] ∧ attempt.eventId = eventId ∧
      attempt.outcome.dealtWith = false ∧ (db.after writes).attempts = db.attempts ++ [attempt] := by
  cases done with
  | @mk event exc attempt verdict found next outcome recorded judged =>
    have failed : attempt.outcome.dealtWith = false := by
      rw [outcome]
      split <;> rfl
    have silent : attemptsIn verdict = [] ∧ ∀ view : Db, (view.after verdict).attempts = view.attempts := by
      cases judged with
      | rescheduled retryable left start cap => exact ⟨rfl, fun _ => rfl⟩
      | deadLettered spent filing =>
        rcases filing with ⟨-, rfl⟩ | ⟨-, id, at', rfl⟩ <;> exact ⟨rfl, fun _ => rfl⟩
    refine ⟨attempt, ?_, next.event, failed, ?_⟩
    · have rest := silent.1
      simp only [attemptsIn, List.filterMap_cons, Write.attempt?] at rest ⊢
      rw [rest]
    · rw [Db.after_cons, silent.2]
      rfl

/-- What a pass that dealt with its event makes of it. -/
theorem Dealt.event? {result : EffectResult} (done : Dealt svc eventId db result writes) :
    ∃ event queue, db.event? eventId = some event ∧ event.status = .pending ∧
      queue.status = .succeeded ∧ queue.attemptCount = event.attemptCount + 1 ∧
      ∀ id, (db.after writes).event? id =
        if id = eventId then some { event with toEventQueue := queue } else db.event? id := by
  cases done with
  | @mk event effect result business attempt found pending due dispatched applied next outcome =>
    refine ⟨event, { event.toEventQueue with
      status := .succeeded, attemptCount := event.attemptCount + 1,
      processedAt := some attempt.finishedAt, lastError := none }, found, pending, rfl, rfl, fun id => ?_⟩
    obtain ⟨events, -, -, -⟩ := Db.after_business applied.business db
    have before : ∀ id, (db.after business).event? id = db.event? id := fun id => by
      simp only [Db.event?, events]
    rw [Db.after_append]
    simp only [Db.after_cons, Db.after_nil, event?_apply, Write.onEvent, before]
    by_cases same : id = eventId
    · subst same
      simp [found, event?_id found]
    · rw [if_neg same]
      cases other : db.event? id with
      | none => rfl
      | some row => simp [event?_id other, same]

/-- What a failure transaction makes of its event and its dead-letter entry. -/
inductive Ruling (svc : Service) (db : Db) (writes : List Write) (event : EventRow)
    (attempt : AttemptRow) (queue : EventQueue) : Prop where
  | later {delay : ℚ} (retryable : attempt.outcome = .retryableError)
      (left : event.attemptCount + 1 < svc.settings.maxAttempts) (start : 0 ≤ delay)
      (cap : delay ≤ backoffCeiling attempt.attemptNumber svc.settings.backoffBaseSeconds
        svc.settings.backoffCapSeconds)
      (status : queue.status = .pending) (due : queue.nextAttemptAt = attempt.finishedAt + timedelta delay)
      (entries : (db.after writes).entries = db.entries)
  | givenUp (spent : attempt.outcome = .retryableError → svc.settings.maxAttempts ≤ event.attemptCount + 1)
      (status : queue.status = .deadLettered)
      (entries : (∃ row ∈ db.entries, row.eventId = event.id) ∧ (db.after writes).entries = db.entries ∨
        (∀ row ∈ db.entries, row.eventId ≠ event.id) ∧
          ∃ row, (db.after writes).entries = db.entries ++ [row] ∧ row.eventId = event.id ∧
            row.attemptsMade = event.attemptCount + 1)

/-- The whole of a failure transaction. -/
theorem Failed.ruling (done : Failed svc eventId db writes) :
    ∃ event attempt queue, db.event? eventId = some event ∧ attemptsIn writes = [attempt] ∧
      queue.attemptCount = event.attemptCount + 1 ∧ Ruling svc db writes event attempt queue ∧
      ∀ id, (db.after writes).event? id =
        if id = eventId then some { event with toEventQueue := queue } else db.event? id := by
  obtain ⟨attempt', only, -⟩ := done.attempt
  have updated : ∀ {event : EventRow} {queue : EventQueue} {view : Db} {id : Nat},
      db.event? eventId = some event → (∀ id, view.event? id = db.event? id) →
      ((Write.updateEvent event.id queue).apply view).event? id =
        if id = eventId then some { event with toEventQueue := queue } else db.event? id := by
    intro event queue view id found same
    simp only [event?_apply, Write.onEvent, same, event?_id found]
    by_cases hit : id = eventId
    · subst hit
      simp [found, event?_id found]
    · rw [if_neg hit]
      cases other : db.event? id with
      | none => rfl
      | some row => simp [event?_id other, hit]
  cases done with
  | @mk event exc attempt verdict found next outcome recorded judged =>
    obtain rfl : attempt = attempt' := (List.cons.inj only).1
    have retries : attempt.outcome = .retryableError ↔ isRetryable exc = true := by
      rw [outcome]
      split <;> simp [*]
    cases judged with
    | rescheduled retryable left start cap =>
      refine ⟨event, attempt, _, found, only, rfl, ?_, fun id => updated found fun _ => rfl⟩
      exact .later (retries.mpr retryable) left start cap rfl rfl rfl
    | @deadLettered reason filed spent filing =>
      refine ⟨event, attempt, { event.toEventQueue with
        status := .deadLettered, attemptCount := event.attemptCount + 1, lastError := some reason },
        found, only, rfl, .givenUp (fun retryable => spent (retries.mp retryable)) rfl ?_, fun id => ?_⟩
      · rcases filing with ⟨there, rfl⟩ | ⟨none, entryId, at', rfl⟩
        · exact Or.inl ⟨there, rfl⟩
        · exact Or.inr ⟨none, _, rfl, rfl, rfl⟩
      · rcases filing with ⟨-, rfl⟩ | ⟨-, entryId, at', rfl⟩
        · exact updated found fun _ => rfl
        · rw [Db.after_cons, Db.after_cons, Db.after_cons, Db.after_nil, event?_apply]
          exact updated found fun _ => rfl

theorem Failed.event? (done : Failed svc eventId db writes) :
    ∃ event queue, db.event? eventId = some event ∧
      (queue.status = .pending ∧ event.attemptCount + 1 < svc.settings.maxAttempts ∨
        queue.status = .deadLettered) ∧
      queue.attemptCount = event.attemptCount + 1 ∧
      ∀ id, (db.after writes).event? id =
        if id = eventId then some { event with toEventQueue := queue } else db.event? id := by
  obtain ⟨event, attempt, queue, found, -, count, ruling, lookup⟩ := done.ruling
  refine ⟨event, queue, found, ?_, count, lookup⟩
  cases ruling with
  | later retryable left start cap status => exact Or.inl ⟨status, left⟩
  | givenUp spent status => exact Or.inr status

/-- A failure leaves its event for later, but for no later than the cap allows, or it
leaves an entry for it. -/
theorem Failed.left {event : EventRow} (done : Failed svc eventId db writes)
    (after : (db.after writes).event? eventId = some event) :
    (event.status = .pending ∧ (db.after writes).entries = db.entries ∧
      ∃ attempt ∈ attemptsIn writes, attempt.eventId = eventId ∧ attempt.outcome.dealtWith = false ∧
        event.nextAttemptAt ≤ attempt.finishedAt + timedelta svc.settings.backoffCapSeconds) ∨
    (event.status = .deadLettered ∧ ∃ row ∈ (db.after writes).entries, row.eventId = eventId) := by
  obtain ⟨attempt', only', about, failed, -⟩ := done.attempt
  obtain ⟨before, attempt, queue, found, only, -, ruling, lookup⟩ := done.ruling
  obtain rfl : attempt = attempt' := (List.cons.inj (only.symm.trans only')).1
  have named := event?_id found
  rw [lookup, if_pos rfl, Option.some.injEq] at after
  subst after
  cases ruling with
  | @later delay retryable left start cap status due entries =>
    have capped : timedelta delay ≤ timedelta svc.settings.backoffCapSeconds :=
      timedelta_mono (cap.trans (backoffCeiling_le_cap svc.settings _))
    refine Or.inl ⟨status, entries, attempt, only ▸ List.mem_singleton_self _, about, failed, ?_⟩
    show queue.nextAttemptAt ≤ _
    rw [due]
    simpa using capped
  | givenUp spent status entries =>
    refine Or.inr ⟨status, ?_⟩
    rcases entries with ⟨⟨row, member, same⟩, kept⟩ | ⟨-, row, filed, same, -⟩
    · exact ⟨row, kept ▸ member, same.trans named⟩
    · exact ⟨row, filed ▸ List.mem_append_right _ (List.mem_singleton_self _), same.trans named⟩

/-- A pass that dealt with its event posts for no other event. -/
theorem Dealt.ledger {result : EffectResult} (done : Dealt svc eventId db result writes) :
    ∀ entry ∈ (db.after writes).ledger, entry ∈ db.ledger ∨ entry.eventId = eventId := by
  cases done with
  | @mk event effect result business attempt found pending due dispatched applied next outcome =>
    have same : event.toDomain.id = eventId := event?_id found
    intro entry member
    rw [Db.after_append] at member
    have posted : ∀ {externalRef row created id amount state}, AccountFor db externalRef row created →
        entry ∈ (db.after (created ++ [Write.insertLedger ⟨id, row.id, event.toDomain.id, amount⟩,
          .updateAccount row.id state])).ledger → entry ∈ db.ledger ∨ entry.eventId = eventId := by
      intro externalRef row created id amount state account there
      rw [Db.after_append] at there
      simp only [Db.after_cons, Db.after_nil, Write.apply, account.ledger, List.mem_append,
        List.mem_singleton] at there
      rcases there with old | rfl
      · exact Or.inl old
      · exact Or.inr same
    simp only [Db.after_cons, Db.after_nil, Write.apply] at member
    cases applied with
    | credit account first inRange => exact posted account member
    | creditAgain account again inRange => exact Or.inl (account.ledger ▸ member)
    | superseded account stale => exact Or.inl (account.ledger ▸ member)
    | snapshot account first newer moved inRange => exact posted account member
    | snapshotAgain account newer moved again inRange => exact Or.inl (account.ledger ▸ member)

end Passes

/-! ## One event in one transaction -/

/-- What a committed transaction can have made of an event that is there after it. -/
inductive EventStep (svc : Service) (call : Call) (db : Db) (writes : List Write) (id : Nat)
    (event : EventRow) : Prop where
  /-- The transaction was not about the event. -/
  | same (before : db.event? id = some event) (spared : id ∉ dealtIn writes ∧ id ∉ failuresIn writes)
      (unqueued : id ∉ requeuesIn writes)
  /-- A pass dealt with it. -/
  | dealt {before : EventRow} (found : db.event? id = some before)
      (kept : event.toIncomingEvent = before.toIncomingEvent) (pending : before.status = .pending)
      (status : event.status = .succeeded) (count : event.attemptCount = before.attemptCount + 1)
      (recorded : id ∈ dealtIn writes) (received : event.receivedAt = before.receivedAt)
      (unqueued : id ∉ requeuesIn writes)
  /-- A pass failed, and left it for later or gave it up. -/
  | failed {before : EventRow} (found : db.event? id = some before)
      (kept : event.toIncomingEvent = before.toIncomingEvent)
      (status : event.status = .pending ∧ event.attemptCount < svc.settings.maxAttempts ∨
        event.status = .deadLettered)
      (count : event.attemptCount = before.attemptCount + 1) (recorded : id ∈ failuresIn writes)
      (received : event.receivedAt = before.receivedAt)
      (due : event.status = .pending → ∃ attempt ∈ attemptsIn writes, attempt.eventId = id ∧
        attempt.outcome.dealtWith = false ∧
        event.nextAttemptAt ≤ attempt.finishedAt + timedelta svc.settings.backoffCapSeconds)
      (unqueued : id ∉ requeuesIn writes)
      (filed : event.status = .deadLettered → ∃ row ∈ (db.after writes).entries, row.eventId = id)
  /-- A replay put it back. -/
  | requeued {before : EventRow} (found : db.event? id = some before)
      (kept : event.toIncomingEvent = before.toIncomingEvent) (replay : call.isReplay = true)
      (status : event.status = .pending) (spared : id ∉ dealtIn writes ∧ id ∉ failuresIn writes)
      (count : event.attemptCount = 0) (received : event.receivedAt = before.receivedAt)
      (wrote : .updateEvent id event.toEventQueue ∈ writes) (queued : id ∈ requeuesIn writes)
  /-- A delivery stored it. -/
  | stored (absent : db.event? id = none) (unused : id ∉ db.purged) (status : event.status = .pending)
      (count : event.attemptCount = 0) (spared : id ∉ dealtIn writes ∧ id ∉ failuresIn writes)
      (delivered : call.stores svc event.toIncomingEvent) (due : event.nextAttemptAt = event.receivedAt)
      (unqueued : id ∉ requeuesIn writes)

section Steps

variable {svc : Service} {scope : Scope} {call : Call} {trace : Trace} {db : Db} {writes : List Write}
  {id : Nat} {event : EventRow}

theorem Dealt.recorded {eventId : Nat} {result : EffectResult}
    (done : Dealt svc eventId db result writes) :
    dealtIn writes = [eventId] ∧ failuresIn writes = [] := by
  obtain ⟨attempt, only, rfl, dealt, -⟩ := done.attempt
  simp [dealtIn, failuresIn, only, dealt]

theorem Failed.recorded {eventId : Nat} (done : Failed svc eventId db writes) :
    dealtIn writes = [] ∧ failuresIn writes = [eventId] := by
  obtain ⟨attempt, only, rfl, failed, -⟩ := done.attempt
  simp [dealtIn, failuresIn, only, failed]

/-- A transaction that records no attempt. -/
theorem spared_of_silent (silent : attemptsIn writes = []) :
    dealtIn writes = [] ∧ failuresIn writes = [] := by
  simp [dealtIn, failuresIn, silent]

/-- A move of an entry is about nothing else. -/
theorem Moves.silent {target : DlqStatus} {row : EntryRow} (moves : Moves db target row writes) :
    attemptsIn writes = [] ∧ ∀ view : Db, (view.after writes).events = view.events ∧
      (view.after writes).attempts = view.attempts := by
  cases moves with
  | move member legal => exact ⟨rfl, fun _ => ⟨rfl, rfl⟩⟩

theorem Moves.requeues {target : DlqStatus} {row : EntryRow} (moves : Moves db target row writes) :
    requeuesIn writes = [] := by
  cases moves with
  | move member legal => rfl

theorem StartTx.silent {eventId : Nat} (started : StartTx eventId db writes) :
    attemptsIn writes = [] ∧ (db.after writes).attempts = db.attempts := by
  cases started with
  | requeued found marks =>
    rcases marks with rfl | ⟨row, about, moves⟩
    · exact ⟨rfl, rfl⟩
    · exact ⟨moves.silent.1, (moves.silent.2 _).2⟩

theorem StartTx.event? {eventId : Nat} (started : StartTx eventId db writes) :
    ∃ event queue, db.event? eventId = some event ∧ queue.status = .pending ∧
      queue.attemptCount = 0 ∧ .updateEvent eventId queue ∈ writes ∧ ∀ id, (db.after writes).event? id =
        if id = eventId then some { event with toEventQueue := queue } else db.event? id := by
  cases started with
  | @requeued event now marked found marks =>
    refine ⟨event, ⟨.pending, 0, now, none, none⟩, found, rfl, rfl, List.mem_cons_self, fun id => ?_⟩
    have moved : ∀ view : Db, (view.after marked).event? id = view.event? id := by
      intro view
      rcases marks with rfl | ⟨row, about, moves⟩
      · rfl
      · simp only [Db.event?, (moves.silent.2 view).1]
    rw [Db.after_cons, moved]
    simp only [event?_apply, Write.onEvent]
    by_cases hit : id = eventId
    · subst hit
      simp [found, event?_id found]
    · rw [if_neg hit]
      cases other : db.event? id with
      | none => rfl
      | some row => simp [event?_id other, hit]

theorem StartTx.requeues {eventId : Nat} (started : StartTx eventId db writes) :
    requeuesIn writes = [eventId] := by
  cases started with
  | requeued found marks =>
    rcases marks with rfl | ⟨row, about, moves⟩
    · rfl
    · have rest := moves.requeues
      simp only [requeuesIn, List.filterMap_cons, Write.requeues?] at rest ⊢
      rw [rest]
      rfl

theorem FinishTx.requeues {purging : Prop} {eventId : Nat}
    (finished : FinishTx purging eventId trace db writes) : requeuesIn writes = [] := by
  cases finished with
  | finished about honest settles =>
    rcases settles with rfl | ⟨row, about, ⟨-, moves⟩ | ⟨-, moves⟩⟩
    · rfl
    · exact moves.requeues
    · exact moves.requeues

theorem FinishTx.silent {purging : Prop} {eventId : Nat} (finished : FinishTx purging eventId trace db writes) :
    attemptsIn writes = [] ∧ (db.after writes).events = db.events ∧
      (db.after writes).attempts = db.attempts := by
  cases finished with
  | finished about honest settles =>
    rcases settles with rfl | ⟨row, about, ⟨-, moves⟩ | ⟨-, moves⟩⟩
    · exact ⟨rfl, rfl, rfl⟩
    · exact ⟨moves.silent.1, moves.silent.2 _⟩
    · exact ⟨moves.silent.1, moves.silent.2 _⟩

theorem purges_silent (purges : ∀ write ∈ writes, Purges db write) : attemptsIn writes = [] := by
  refine List.filterMap_eq_nil_iff.mpr fun write member => ?_
  cases purges write member <;> rfl

theorem purges_requeues (purges : ∀ write ∈ writes, Purges db write) : requeuesIn writes = [] := by
  refine List.filterMap_eq_nil_iff.mpr fun write member => ?_
  cases purges write member <;> rfl

/-- What a transaction did to an event, whatever call committed it. -/
theorem Committed.eventStep (committed : Committed svc scope call trace db writes)
    (after : (db.after writes).event? id = some event) : EventStep svc call db writes id event := by
  cases committed with
  | idle => exact .same after (by simp [dealtIn, failuresIn, attemptsIn]) (by simp [requeuesIn])
  | dealt passing done =>
    obtain ⟨before, queue, found, pending, status, count, lookup⟩ := done.event?
    obtain ⟨dealt, failures⟩ := done.recorded
    rw [lookup] at after
    split at after
    · rename_i same
      cases after
      have known : db.event? id = some before := same ▸ found
      exact .dealt known rfl pending status count (by simp [dealt, same]) rfl (by simp [done.requeues])
    · rename_i other
      exact .same after (by simp [dealt, failures, other]) (by simp [done.requeues])
  | failed passing done =>
    obtain ⟨before, queue, found, status, count, lookup⟩ := done.event?
    obtain ⟨dealt, failures⟩ := done.recorded
    have left : (db.after writes).event? _ = some event → _ := done.left
    rw [lookup] at after left
    split at after
    · rename_i same
      cases after
      have known : db.event? id = some before := same ▸ found
      rw [if_pos rfl, ← same] at left
      refine .failed known rfl (status.imp_left fun ⟨pending, less⟩ => ⟨pending, by simpa [count] using less⟩)
        count (by simp [failures, same]) rfl ?_ (by simp [done.requeues]) ?_
      · rcases left rfl with ⟨-, -, due⟩ | ⟨dead, -⟩
        · exact fun _ => due
        · exact fun pending => absurd (pending.symm.trans dead) (by decide)
      · rcases left rfl with ⟨pending, -⟩ | ⟨-, filed⟩
        · exact fun dead => absurd (pending.symm.trans dead) (by decide)
        · exact fun _ => filed
    · rename_i other
      exact .same after (by simp [dealt, failures, other]) (by simp [done.requeues])
  | started replay done =>
    obtain ⟨before, queue, found, status, count, wrote, lookup⟩ := done.event?
    obtain ⟨dealt, failures⟩ := spared_of_silent done.silent.1
    rw [lookup] at after
    split at after
    · rename_i same
      cases after
      have known : db.event? id = some before := same ▸ found
      exact .requeued known rfl (by rw [replay]; rfl) status (by simp [dealt, failures]) count rfl
        (same ▸ wrote) (by simp [done.requeues, same])
    · rename_i other
      exact .same after (by simp [dealt, failures]) (by simp [done.requeues, other])
  | finished replay done =>
    obtain ⟨silent, events, -⟩ := done.silent
    obtain ⟨dealt, failures⟩ := spared_of_silent silent
    simp only [Db.event?, events] at after
    exact .same after (by simp [dealt, failures]) (by simp [done.requeues])
  | moved triage named done =>
    obtain ⟨silent, same⟩ := done.silent
    obtain ⟨dealt, failures⟩ := spared_of_silent silent
    simp only [Db.event?, (same db).1] at after
    exact .same after (by simp [dealt, failures]) (by simp [done.requeues])
  | stored stores answered done =>
    cases done with
    | duplicate known =>
      exact .same after (by simp [dealtIn, failuresIn, attemptsIn]) (by simp [requeuesIn])
    | @inserted newId at' storable fresh unused first =>
      have spared : ∀ {row}, id ∉ dealtIn [.insertEvent row] ∧ id ∉ failuresIn [.insertEvent row] := by
        simp [dealtIn, failuresIn, attemptsIn, Write.attempt?]
      have unqueued : ∀ {row}, id ∉ requeuesIn [.insertEvent row] := by
        simp [requeuesIn, Write.requeues?]
      simp only [Db.after_cons, Db.after_nil, event?_apply, Write.onEvent] at after
      cases before : db.event? id with
      | some row =>
        rw [before] at after
        cases after
        exact .same before spared unqueued
      | none =>
        rw [before] at after
        simp only [Option.none_or] at after
        split at after
        · rename_i same
          cases after
          exact .stored before (same ▸ unused) rfl rfl spared stores rfl unqueued
        · cases after
  | purged purge done =>
    obtain ⟨dealt, failures⟩ := spared_of_silent (purges_silent done)
    exact .same (event?_of_purged done after) (by simp [dealt, failures])
      (by simp [purges_requeues done])

/-! ## Attempts and ledger entries of an event -/

theorem purges_attempts {view : Db} (purges : ∀ write ∈ writes, Purges db write) :
    (view.after writes).attempts.Sublist view.attempts := by
  induction writes generalizing view with
  | nil => exact List.Sublist.refl _
  | cons write rest ih =>
    obtain ⟨first, others⟩ := List.forall_mem_cons.mp purges
    refine (ih others).trans ?_
    cases first with
    | attempts => exact List.filter_sublist
    | event found expired free => exact List.filter_sublist

/-- The attempts after a transaction: those before it, or fewer after retention, and
the one it records. -/
theorem Committed.attempts (committed : Committed svc scope call trace db writes) :
    (attemptsIn writes = [] ∧ (db.after writes).attempts.Sublist db.attempts) ∨
      ∃ attempt, attemptsIn writes = [attempt] ∧ (db.after writes).attempts = db.attempts ++ [attempt] := by
  cases committed with
  | idle => exact Or.inl ⟨rfl, List.Sublist.refl _⟩
  | dealt passing done =>
    obtain ⟨attempt, only, -, -, attempts⟩ := done.attempt
    exact Or.inr ⟨attempt, only, attempts⟩
  | failed passing done =>
    obtain ⟨attempt, only, -, -, attempts⟩ := done.attempt
    exact Or.inr ⟨attempt, only, attempts⟩
  | started replay done =>
    obtain ⟨silent, attempts⟩ := done.silent
    exact Or.inl ⟨silent, by rw [attempts]⟩
  | finished replay done =>
    obtain ⟨silent, -, attempts⟩ := done.silent
    exact Or.inl ⟨silent, by rw [attempts]⟩
  | moved triage named done =>
    obtain ⟨silent, same⟩ := done.silent
    exact Or.inl ⟨silent, by rw [(same db).2]⟩
  | stored stores answered done =>
    cases done with
    | inserted storable fresh unused first => exact Or.inl ⟨rfl, List.Sublist.refl _⟩
    | duplicate known => exact Or.inl ⟨rfl, List.Sublist.refl _⟩
  | purged purge done => exact Or.inl ⟨purges_silent done, purges_attempts done⟩

/-- Nothing but retention removes an attempt. -/
theorem Committed.attempts_eq (called : call.isPurge = false)
    (committed : Committed svc scope call trace db writes) :
    (db.after writes).attempts = db.attempts ++ attemptsIn writes := by
  have unchanged : attemptsIn writes = [] → (db.after writes).attempts = db.attempts →
      (db.after writes).attempts = db.attempts ++ attemptsIn writes := by
    intro silent same
    rw [silent, same, List.append_nil]
  cases committed with
  | idle => exact unchanged rfl rfl
  | dealt passing done =>
    obtain ⟨attempt, only, -, -, attempts⟩ := done.attempt
    rw [only, attempts]
  | failed passing done =>
    obtain ⟨attempt, only, -, -, attempts⟩ := done.attempt
    rw [only, attempts]
  | started replay done => exact unchanged done.silent.1 done.silent.2
  | finished replay done => exact unchanged done.silent.1 done.silent.2.2
  | moved triage named done => exact unchanged done.silent.1 (done.silent.2 db).2
  | stored stores answered done => cases done <;> exact unchanged rfl rfl
  | purged purge done => simp [purge, Call.isPurge] at called

theorem Committed.keeps_attempts (called : call.isPurge = false)
    (committed : Committed svc scope call trace db writes) {attempt : AttemptRow}
    (member : attempt ∈ db.attempts) : attempt ∈ (db.after writes).attempts := by
  rw [committed.attempts_eq called]
  exact List.mem_append_left _ member

/-- Nothing but retention removes an event, and what was delivered never changes. -/
theorem Committed.keeps_event (called : call.isPurge = false)
    (committed : Committed svc scope call trace db writes) (found : db.event? id = some event) :
    ∃ event', (db.after writes).event? id = some event' ∧
      event'.toIncomingEvent = event.toIncomingEvent := by
  have updated : ∀ {eventId before queue}, db.event? eventId = some before →
      (∀ id, (db.after writes).event? id =
        if id = eventId then some { before with toEventQueue := queue } else db.event? id) →
      ∃ event', (db.after writes).event? id = some event' ∧
        event'.toIncomingEvent = event.toIncomingEvent := by
    intro eventId before queue there lookup
    by_cases same : id = eventId
    · subst same
      rw [found] at there
      cases there
      exact ⟨_, (lookup id).trans (if_pos rfl), rfl⟩
    · exact ⟨event, (lookup id).trans ((if_neg same).trans found), rfl⟩
  have untouched : (db.after writes).events = db.events → ∃ event', (db.after writes).event? id =
      some event' ∧ event'.toIncomingEvent = event.toIncomingEvent := by
    intro same
    refine ⟨event, ?_, rfl⟩
    simp only [Db.event?, same]
    exact found
  cases committed with
  | idle => exact ⟨event, found, rfl⟩
  | dealt passing done =>
    obtain ⟨before, queue, there, -, -, -, lookup⟩ := done.event?
    exact updated there lookup
  | failed passing done =>
    obtain ⟨before, queue, there, -, -, lookup⟩ := done.event?
    exact updated there lookup
  | started replay done =>
    obtain ⟨before, queue, there, -, -, -, lookup⟩ := done.event?
    exact updated there lookup
  | finished replay done => exact untouched done.silent.2.1
  | moved triage named done => exact untouched (done.silent.2 db).1
  | stored stores answered done =>
    cases done with
    | duplicate known => exact ⟨event, found, rfl⟩
    | inserted storable fresh unused first =>
      refine ⟨event, ?_, rfl⟩
      simp [event?_apply, Write.onEvent, found]
  | purged purge done => simp [purge, Call.isPurge] at called

/-- Only a pass that dealt with an event posts for it. -/
theorem Committed.ledger (committed : Committed svc scope call trace db writes)
    (spared : id ∉ dealtIn writes) {entry : LedgerEntry} (member : entry ∈ (db.after writes).ledger)
    (about : entry.eventId = id) : entry ∈ db.ledger := by
  have clerical : (∀ write ∈ writes, write.business = false) → entry ∈ db.ledger := fun clerical =>
    (Db.after_clerical clerical db).2 ▸ member
  rcases committed.money with silent | ⟨eventId, result, passing, done⟩
  · exact clerical silent
  · rcases done.ledger entry member with old | new
    · exact old
    · rw [done.recorded.1] at spared
      exact absurd (List.mem_singleton.mpr (about.symm.trans new)) spared

/-- A failed attempt is recorded by the failure transaction of a pass. -/
theorem Committed.failure (committed : Committed svc scope call trace db writes)
    (member : id ∈ failuresIn writes) : call.passesOver id = true ∧ Failed svc id db writes := by
  cases committed with
  | dealt passing done => simp [done.recorded.2] at member
  | failed passing done =>
    rw [done.recorded.2, List.mem_singleton] at member
    subst member
    exact ⟨passing, done⟩
  | idle => simp [failuresIn, attemptsIn] at member
  | started replay done => simp [(spared_of_silent done.silent.1).2] at member
  | finished replay done => simp [(spared_of_silent done.silent.1).2] at member
  | moved triage named done => simp [(spared_of_silent done.silent.1).2] at member
  | stored stores answered done => cases done <;> simp [failuresIn, attemptsIn, Write.attempt?] at member
  | purged purge done => simp [(spared_of_silent (purges_silent done)).2] at member

/-- An event is put back by the first transaction of a replay. -/
theorem Committed.requeue (committed : Committed svc scope call trace db writes)
    (member : id ∈ requeuesIn writes) :
    (∃ requestedBy reason, call = .replay id requestedBy reason) ∧ StartTx id db writes ∧
      Clocked id trace writes := by
  cases committed with
  | started replay done clocked =>
    rw [done.requeues, List.mem_singleton] at member
    subst member
    exact ⟨⟨_, _, replay⟩, done, clocked⟩
  | idle => simp [requeuesIn] at member
  | dealt passing done => simp [done.requeues] at member
  | failed passing done => simp [done.requeues] at member
  | finished replay done => simp [done.requeues] at member
  | moved triage named done => simp [done.requeues] at member
  | stored stores answered done => cases done <;> simp [requeuesIn, Write.requeues?] at member
  | purged purge done => simp [purges_requeues done] at member

/-- A dealt-with event was dealt with by the processing transaction of a pass. -/
theorem Committed.dealtWith (committed : Committed svc scope call trace db writes)
    (member : id ∈ dealtIn writes) :
    call.passesOver id = true ∧ ∃ result, Dealt svc id db result writes := by
  cases committed with
  | dealt passing done =>
    rw [done.recorded.1, List.mem_singleton] at member
    subst member
    exact ⟨passing, _, done⟩
  | failed passing done => simp [done.recorded.1] at member
  | idle => simp [dealtIn, attemptsIn] at member
  | started replay done => simp [(spared_of_silent done.silent.1).1] at member
  | finished replay done => simp [(spared_of_silent done.silent.1).1] at member
  | moved triage named done => simp [(spared_of_silent done.silent.1).1] at member
  | stored stores answered done => cases done <;> simp [dealtIn, attemptsIn, Write.attempt?] at member
  | purged purge done => simp [(spared_of_silent (purges_silent done)).1] at member

/-- A transaction dealt with an event, or it moved no money. -/
theorem Committed.dealt_or_clerical (committed : Committed svc scope call trace db writes) :
    (dealtIn writes = [] ∧ ∀ write ∈ writes, write.business = false) ∨
      ∃ eventId result, call.passesOver eventId = true ∧ Dealt svc eventId db result writes := by
  by_cases none : dealtIn writes = []
  · refine Or.inl ⟨none, committed.money.resolve_right ?_⟩
    rintro ⟨eventId, result, passing, done⟩
    simp [done.recorded.1] at none
  · obtain ⟨eventId, member⟩ := List.exists_mem_of_ne_nil _ none
    obtain ⟨passing, result, done⟩ := committed.dealtWith member
    exact Or.inr ⟨eventId, result, passing, done⟩

end Steps

end WebhookReceiver
