import WebhookReceiver.DeadLetters

/-!
The two counters of an event.

`attempt_number` is derived from the history of the event and never starts again;
`attempt_count` is a column that a replay sets back. Both are written under the row
lock of the event. Without retention the numbers are 1, 2, …, n, and the count is the
number of attempts since the last requeue.
-/

namespace WebhookReceiver

/-- The attempts recorded for an event since its last requeue, or since it was stored. -/
def attemptsSince (id : Nat) (log : List Commit) : List AttemptRow :=
  log.foldl (fun since entry =>
    if id ∈ requeuesIn entry.writes then []
    else since ++ (attemptsIn entry.writes).filter fun row => row.eventId = id) []

/-- The attempts of an event as the two counters have them. -/
structure Tallied (log : List Commit) (db : Db) (id : Nat) : Prop where
  numbers : (db.attemptsOf id).map (·.attemptNumber) = List.range' 1 (db.attemptsOf id).length
  recorded : attemptsSince id log <:+ db.attemptsOf id
  counted : ∀ event, db.event? id = some event → event.attemptCount = (attemptsSince id log).length

theorem attemptsSince_append (id : Nat) (log : List Commit) (entry : Commit) :
    attemptsSince id (log ++ [entry]) =
      if id ∈ requeuesIn entry.writes then []
      else attemptsSince id log ++ (attemptsIn entry.writes).filter fun row => row.eventId = id := by
  simp only [attemptsSince, List.foldl_append, List.foldl_cons, List.foldl_nil]

/-- The next number continues an unbroken numbering. -/
theorem nextAttemptNumber_of_numbers {db : Db} {id : Nat}
    (numbers : (db.attemptsOf id).map (·.attemptNumber) = List.range' 1 (db.attemptsOf id).length) :
    db.nextAttemptNumber id = (db.attemptsOf id).length + 1 := by
  unfold Db.nextAttemptNumber
  rw [numbers]
  cases (db.attemptsOf id).length with
  | zero => rfl
  | succ count =>
    have most : (List.range' 1 (count + 1)).max? = some (count + 1) := by
      refine List.max?_eq_some_iff.mpr ⟨?_, fun number member => ?_⟩
      · rw [List.mem_range'_1]
        omega
      · rw [List.mem_range'_1] at member
        omega
    rw [most]
    rfl

section Steps

variable {svc : Service} {scope : Scope} {call : Call} {trace : Trace} {db : Db} {writes : List Write}
  {id : Nat}

/-- Without retention every attempt that a transaction records has the next number. -/
theorem Committed.numbered (spared : ¬ scope.purging)
    (committed : Committed svc scope call trace db writes) :
    ∀ attempt ∈ attemptsIn writes, attempt.attemptNumber = db.nextAttemptNumber attempt.eventId := by
  have inserted : ∀ attempt ∈ attemptsIn writes, Write.insertAttempt attempt ∈ writes := by
    intro attempt member
    obtain ⟨write, there, shape⟩ := List.mem_filterMap.mp member
    cases write with
    | insertAttempt row =>
      cases shape
      exact there
    | _ => cases shape
  intro attempt member
  have silent : attemptsIn writes ≠ [] := List.ne_nil_of_mem member
  cases committed with
  | dealt passing done numbered => exact numbered spared attempt (inserted attempt member)
  | failed passing done numbered => exact numbered spared attempt (inserted attempt member)
  | idle => exact absurd rfl silent
  | started replay done => exact absurd done.silent.1 silent
  | finished replay done => exact absurd done.silent.1 silent
  | moved triage named done => exact absurd done.silent.1 silent
  | stored stores answered done => cases done <;> exact absurd rfl silent
  | purged purge done => exact absurd (purges_silent done) silent

/-- A transaction adds to an event what it records for it, one attempt at most. -/
theorem Committed.attemptsOf_eq (called : call.isPurge = false)
    (committed : Committed svc scope call trace db writes) (id : Nat) :
    (db.after writes).attemptsOf id =
      db.attemptsOf id ++ (attemptsIn writes).filter fun row => row.eventId = id := by
  simp only [Db.attemptsOf, committed.attempts_eq called, List.filter_append]

/-- What the event counts is what the transaction recorded for it. -/
theorem Committed.recorded_length (committed : Committed svc scope call trace db writes) (id : Nat) :
    ((attemptsIn writes).filter fun row => row.eventId = id).length =
      if id ∈ dealtIn writes ∨ id ∈ failuresIn writes then 1 else 0 := by
  rcases committed.attempts with ⟨silent, -⟩ | ⟨attempt, only, -⟩
  · obtain ⟨dealt, failures⟩ := spared_of_silent silent
    simp [silent, dealt, failures]
  · by_cases about : attempt.eventId = id
    · cases dealt : attempt.outcome.dealtWith <;> simp [dealtIn, failuresIn, only, about, dealt]
    · have other : id ≠ attempt.eventId := fun same => about same.symm
      cases dealt : attempt.outcome.dealtWith <;> simp [dealtIn, failuresIn, only, about, dealt, other]

theorem Committed.keeps_tally {log : List Commit} {entry : Commit} (spared : ¬ scope.purging)
    (good : Wf entry.before) (called : entry.call.isPurge = false)
    (committed : Committed svc scope entry.call entry.trace entry.before entry.writes)
    (tallied : Tallied log entry.before id) :
    Tallied (log ++ [entry]) (entry.before.after entry.writes) id := by
  have attempts := committed.attemptsOf_eq called id
  have length := committed.recorded_length id
  have numbers : ((entry.before.after entry.writes).attemptsOf id).map (·.attemptNumber) =
      List.range' 1 ((entry.before.after entry.writes).attemptsOf id).length := by
    have next := nextAttemptNumber_of_numbers tallied.numbers
    have recorded := committed.numbered spared
    rw [attempts, List.map_append, tallied.numbers, List.length_append]
    rcases committed.attempts with ⟨silent, -⟩ | ⟨attempt, only, -⟩
    · simp [silent]
    · rw [only] at recorded ⊢
      by_cases about : attempt.eventId = id
      · have number := recorded attempt (List.mem_singleton_self _)
        rw [about, next] at number
        rw [Nat.add_comm] at number
        simp [about, number, List.range'_concat]
      · simp [about]
  refine ⟨numbers, ?_, fun event after => ?_⟩
  · rw [attemptsSince_append, attempts]
    split
    · exact List.nil_suffix
    · exact List.suffix_append_self_iff.mpr tallied.recorded
  · rw [attemptsSince_append]
    cases committed.eventStep after with
    | same before apart unqueued =>
      rw [if_neg unqueued, List.length_append, length, if_neg (by simp [apart]), tallied.counted _ before]
      rfl
    | dealt found kept pending status count recorded received unqueued =>
      rw [if_neg unqueued, List.length_append, length, if_pos (Or.inl recorded), count,
        tallied.counted _ found]
    | failed found kept status count recorded received due unqueued =>
      rw [if_neg unqueued, List.length_append, length, if_pos (Or.inr recorded), count,
        tallied.counted _ found]
    | requeued found kept replay status apart count received wrote queued =>
      rw [if_pos queued, count]
      rfl
    | stored absent unused status count apart delivered due unqueued =>
      have blank : attemptsSince id log = [] := by
        have suffix := tallied.recorded
        rwa [attemptsOf_none good absent, List.suffix_nil] at suffix
      rw [if_neg unqueued, List.length_append, length, if_neg (by simp [apart]), count, blank]
      rfl

end Steps

/-- The violation of the unique constraint on `(event_id, attempt_number)`. -/
def attemptNumberTaken : Exc := integrityError "23505" "uq_processing_attempt_event_id_attempt_number"

/-- No insert of an attempt that is about to run can violate the constraint. -/
def AttemptsInsertable (svc : Service) (w : World) : Prop :=
  ∀ t th attempt next, w.threads t = some th → th.prog = .stmt (.insertAttempt attempt) next →
    ∀ avail input reply,
      svc.system.exec avail input (w.db.after th.writes) (.insertAttempt attempt) = some reply →
      reply.answer ≠ .error attemptNumberTaken

theorem execInsertAttempt_taken {avail : Lock → Txn.Mode → Bool} {view : Db} {attempt : Attempt}
    {reply : Txn.Reply Write Lock Exc Unit} (ran : execInsertAttempt avail view attempt = some reply)
    (refused : reply.answer = .error attemptNumberTaken) :
    ∃ row ∈ view.attempts, row.eventId = attempt.eventId ∧ row.attemptNumber = attempt.attemptNumber := by
  unfold execInsertAttempt at ran
  rcases insertUnder_some ran with ⟨taken, -⟩ | ⟨-, e, unmet, rfl⟩ | ⟨-, -, rfl⟩
  · simpa using taken
  · obtain rfl := Except.error.inj refused
    have checks : ∀ violated e, check violated e = some attemptNumberTaken →
        e.kind = attemptNumberTaken.kind := by
      intro violated e failed
      cases violated with
      | false => cases failed
      | true => rw [Option.some.inj failed]
    simp only [Option.or_eq_some_iff] at unmet
    rcases unmet with positive | ⟨-, range | ⟨-, event⟩⟩
    · exact absurd (checks _ _ positive) (by decide)
    · exact absurd (checks _ _ range) (by decide)
    · exact absurd (checks _ _ event) (by decide)
  · cases refused

/-- An attempt is inserted with a number above all that the event has. -/
theorem attempts_insertable (svc : Service) {scope : Scope} {w : World}
    (reached : svc.Reaches scope (.init Db.empty) w) : AttemptsInsertable svc w := by
  intro t th attempt next here shape avail input reply ran refused
  obtain ⟨-, locks, -, above⟩ := reaches_obeyed wf_empty reached here shape
  obtain ⟨row, member, about, same⟩ := execInsertAttempt_taken ran refused
  have below := above row member about
  omega

/-- In every run without retention the two counters of every event are right, and no
attempt collides with another. -/
theorem attempts_tallied (svc : Service) {w : World}
    (reached : svc.Reaches .withoutPurge (.init Db.empty) w) :
    (∀ id, Tallied w.log w.db id) ∧ AttemptsInsertable svc w := by
  refine ⟨?_, attempts_insertable svc reached⟩
  obtain ⟨-, past⟩ := reaches_history wf_empty reached
  let AllTallied (log : List Commit) (db : Db) : Prop := ∀ id, Tallied log db id
  refine past.along (P := AllTallied) ?_ ?_ ?_ ?_
  · exact fun id => ⟨rfl, List.nil_suffix, by simp [Db.empty, Db.event?]⟩
  · exact fun table holds id => ⟨(holds id).numbers, (holds id).recorded, (holds id).counted⟩
  · exact fun ids purging => absurd purging withoutPurge_purging
  · exact fun log entry good still called committed holds id =>
      committed.keeps_tally withoutPurge_purging good called (holds id)

/-- The event fails, is replayed and fails again: two attempts, one of them counted. -/
theorem attempts_tallied_sample : ∃ w, Sample.service.Reaches .withoutPurge (.init Db.empty) w ∧
    (w.db.attemptsOf 1).map (·.attemptNumber) = [1, 2] ∧
    (w.db.event? 1).map (·.attemptCount) = some 1 ∧
    (∀ id, Tallied w.log w.db id) ∧ AttemptsInsertable Sample.service w := by
  let schedule : List Action :=
    Sample.store 0 (Sample.unknown "u") ++ .spawn 1 (.process 1) :: Sample.failingPass 1 ++
    .spawn 2 (.replay 1 "operator" none) :: Sample.steps 2 8 ++ Sample.failingPass 2
  obtain ⟨w, reached, shown⟩ := Sample.service.reaches_test .withoutPurge (.init Db.empty) schedule
    (fun w => (w.db.attemptsOf 1).map (·.attemptNumber) = [1, 2] ∧
      (w.db.event? 1).map (·.attemptCount) = some 1)
    (by simp [schedule, Sample.store, Sample.failingPass, Sample.steps, Scope.permits,
      Scope.withoutPurge, Call.isPurge])
    (by decide +kernel)
  simp only [decide_eq_true_eq] at shown
  exact ⟨w, reached, shown.1, shown.2, attempts_tallied Sample.service reached⟩

end WebhookReceiver
