import WebhookReceiver.Answers

/-!
The attempt log and the ledger agree.

Success is recorded with the effect, in the transaction that posts it or finds it
posted; failure is recorded in a transaction that posts nothing. Without retention
neither table loses a row, so an event has a ledger entry exactly if one of its
attempts succeeded.
-/

namespace WebhookReceiver

/-! ## What a transaction adds to the two tables -/

theorem ledger_mem_after (writes : List Write) (db : Db) (id : Nat) :
    (db.after writes).hasEffect id ↔ db.hasEffect id ∨ id ∈ postedIn writes := by
  induction writes generalizing db with
  | nil => simp [postedIn]
  | cons write rest ih =>
    rw [Db.after_cons, ih]
    cases write with
    | insertLedger row =>
      have added : ((Write.insertLedger row).apply db).hasEffect id ↔
          db.hasEffect id ∨ row.eventId = id := by
        simp [Db.hasEffect, Write.apply, or_and_right, exists_or]
      rw [added]
      simp [postedIn, or_assoc, eq_comm]
    | _ => rfl

section Steps

variable {svc : Service} {scope : Scope} {call : Call} {trace : Trace} {db : Db} {writes : List Write}
  {id : Nat}

theorem Committed.attempts_mem (called : call.isPurge = false)
    (committed : Committed svc scope call trace db writes) {attempt : AttemptRow} :
    attempt ∈ (db.after writes).attempts ↔ attempt ∈ db.attempts ∨ attempt ∈ attemptsIn writes := by
  rw [committed.attempts_eq called, List.mem_append]

/-- An effect that was found applied has its ledger entry. -/
theorem Dealt.again (done : Dealt svc id db .alreadyApplied writes) : db.hasEffect id := by
  generalize same : EffectResult.alreadyApplied = result at done
  cases done with
  | @mk event effect _ business attempt found pending due dispatched applied next outcome =>
    have about : event.toDomain.id = id := event?_id found
    cases applied with
    | creditAgain account again inRange => exact about ▸ again
    | snapshotAgain account newer moved again inRange => exact about ▸ again
    | _ => cases same

end Steps

/-! ## Agreement -/

/-- Entries are the attempts that succeeded, and a succeeded event has an attempt that
dealt with it. -/
structure LogAgrees (db : Db) : Prop where
  ledger : ∀ id, db.hasEffect id ↔
    ∃ attempt ∈ db.attempts, attempt.eventId = id ∧ attempt.outcome = .succeeded
  status : ∀ id event, db.event? id = some event → event.status = .succeeded →
    ∃ attempt ∈ db.attempts, attempt.eventId = id ∧ attempt.outcome.dealtWith = true

section Steps

variable {svc : Service} {scope : Scope} {call : Call} {trace : Trace} {db : Db} {writes : List Write}

/-- A transaction adds a ledger entry exactly where it adds, or already has, a success. -/
theorem Committed.succeeds_iff (committed : Committed svc scope call trace db writes) (id : Nat) :
    (db.hasEffect id ∨ id ∈ postedIn writes) ↔
      db.hasEffect id ∨ ∃ attempt ∈ attemptsIn writes, attempt.eventId = id ∧
        attempt.outcome = .succeeded := by
  rcases committed.dealt_or_clerical with ⟨silent, clerical⟩ | ⟨eventId, result, passing, done⟩
  · have none : ¬ ∃ attempt ∈ attemptsIn writes, attempt.eventId = id ∧ attempt.outcome = .succeeded := by
      rintro ⟨attempt, member, about, succeeded⟩
      have dealt : id ∈ dealtIn writes :=
        List.mem_map.mpr ⟨attempt, List.mem_filter.mpr ⟨member, by rw [succeeded]; rfl⟩, about⟩
      rw [silent] at dealt
      cases dealt
    simp [postedIn_clerical clerical, none]
  · obtain ⟨attempt, only, about, outcome⟩ := done.outcome
    rw [done.posts]
    simp only [only, List.mem_singleton, exists_eq_left, about, outcome]
    cases result with
    | applied => simp [successOutcome, eq_comm]
    | superseded => simp [successOutcome]
    | alreadyApplied =>
      have again := done.again
      constructor
      · rintro (old | new)
        · exact Or.inl old
        · cases new
      · rintro (old | ⟨rfl, -⟩)
        · exact Or.inl old
        · exact Or.inl again

theorem Committed.logAgrees (called : call.isPurge = false)
    (committed : Committed svc scope call trace db writes) (agrees : LogAgrees db) :
    LogAgrees (db.after writes) := by
  constructor
  · intro id
    rw [ledger_mem_after, committed.succeeds_iff, agrees.ledger]
    simp only [committed.attempts_mem called, or_and_right, exists_or]
  · intro id event there succeeded
    have earlier : ∀ before, db.event? id = some before → before.status = .succeeded →
        ∃ attempt ∈ (db.after writes).attempts, attempt.eventId = id ∧
          attempt.outcome.dealtWith = true := by
      intro before found status
      obtain ⟨attempt, member, rest⟩ := agrees.status id before found status
      exact ⟨attempt, committed.keeps_attempts called member, rest⟩
    cases committed.eventStep there with
    | same before spared => exact earlier event before succeeded
    | dealt found kept pending status count recorded =>
      obtain ⟨attempt, member, about⟩ := List.mem_map.mp recorded
      obtain ⟨member, dealt⟩ := List.mem_filter.mp member
      exact ⟨attempt, (committed.attempts_mem called).mpr (Or.inr member), about, dealt⟩
    | failed found kept status count recorded =>
      rcases status with ⟨pending, -⟩ | dead
      · rw [pending] at succeeded
        cases succeeded
      · rw [dead] at succeeded
        cases succeeded
    | requeued found kept replay status spared =>
      rw [status] at succeeded
      cases succeeded
    | stored absent unused status count spared delivered =>
      rw [status] at succeeded
      cases succeeded

end Steps

/-- Without retention an event has a ledger entry exactly if an attempt at it succeeded,
and an event that is marked as succeeded has an attempt that succeeded or was superseded. -/
theorem attempts_agree_with_ledger (svc : Service) {w : World}
    (reached : svc.Reaches .withoutPurge (.init Db.empty) w) :
    (∀ event ∈ w.db.events, (∃ entry ∈ w.db.ledger, entry.eventId = event.id) ↔
      ∃ attempt ∈ w.db.attempts, attempt.eventId = event.id ∧ attempt.outcome = .succeeded) ∧
    ∀ event ∈ w.db.events, event.status = .succeeded →
      ∃ attempt ∈ w.db.attempts, attempt.eventId = event.id ∧
        (attempt.outcome = .succeeded ∨ attempt.outcome = .superseded) := by
  obtain ⟨good, past⟩ := reaches_history wf_empty reached
  have start : LogAgrees Db.empty := by
    constructor <;> simp [Db.hasEffect, Db.event?, Db.empty]
  have agrees : LogAgrees w.db := by
    refine past.keeps start (fun _ holds => ⟨holds.ledger, holds.status⟩) ?_ ?_
    · rintro db ids ⟨olderThan, called⟩
      cases called
    · exact fun entry _ _ called committed holds => committed.logAgrees called holds
  refine ⟨fun event _ => agrees.ledger event.id, fun event member succeeded => ?_⟩
  obtain ⟨attempt, known, about, dealt⟩ :=
    agrees.status event.id event (event?_of_mem good member) succeeded
  refine ⟨attempt, known, about, ?_⟩
  cases outcome : attempt.outcome with
  | succeeded => exact Or.inl rfl
  | superseded => exact Or.inr rfl
  | _ =>
    rw [outcome] at dealt
    cases dealt

/-- A credit fails once and then succeeds; a snapshot is superseded. -/
theorem attempts_agree_with_ledger_sample :
    ∃ w, Sample.service.Reaches .withoutPurge (.init Db.empty) w ∧
      w.db.attempts.map (·.outcome) = [.retryableError, .succeeded, .superseded] ∧
      ∀ event ∈ w.db.events, (∃ entry ∈ w.db.ledger, entry.eventId = event.id) ↔
        ∃ attempt ∈ w.db.attempts, attempt.eventId = event.id ∧ attempt.outcome = .succeeded := by
  let schedule : List Action :=
    Sample.store 0 (Sample.credit "c" 100 5) ++ Sample.store 1 (Sample.snapshot "s" 500 2) ++
    .spawn 2 (.process 1) :: Sample.steps 2 4 ++ .fault 2 (integrityError "55P03" "") ::
    Sample.steps 2 8 ++ .spawn 3 (.process 1) :: Sample.steps 3 12 ++
    .spawn 4 (.process 2) :: Sample.steps 4 12
  obtain ⟨w, reached, shown⟩ := Sample.service.reaches_test .withoutPurge (.init Db.empty) schedule
    (fun w => w.db.attempts.map (·.outcome) = [.retryableError, .succeeded, .superseded])
    (by simp [schedule, Sample.steps, Sample.store, Scope.permits, Scope.withoutPurge, Call.isPurge])
    (by decide +kernel)
  simp only [decide_eq_true_eq] at shown
  exact ⟨w, reached, shown, (attempts_agree_with_ledger Sample.service reached).1⟩

end WebhookReceiver
