import WebhookReceiver.Counters

/-!
Attempt numbers over the whole history.

The next number is one more than the highest that is left. Retention deletes the
attempts of a succeeded event and keeps the event when it has an effect, so a replay
starts again from 1. The unique constraint compares surviving rows only. A number stays
unused exactly as long as the highest one before it is still there
(`attempt_numbers_never_repeat`).
-/

namespace WebhookReceiver

/-- Every attempt ever recorded for an event, whatever became of its row. -/
def attemptsEver (id : Nat) (log : List Commit) : List AttemptRow :=
  log.flatMap fun entry => (attemptsIn entry.writes).filter fun row => row.eventId = id

/-- Whenever an attempt is recorded for the event, an attempt with the highest number
that the event ever had is still in the table. -/
def HighestSurvives (id : Nat) (log : List Commit) : Prop :=
  log.Pairwise fun earlier later => ∀ attempt ∈ attemptsIn earlier.writes, attempt.eventId = id →
    (∃ next ∈ attemptsIn later.writes, next.eventId = id) →
    ∃ row ∈ later.before.attempts, row.eventId = id ∧ attempt.attemptNumber ≤ row.attemptNumber

instance (id : Nat) (log : List Commit) : Decidable (HighestSurvives id log) :=
  inferInstanceAs (Decidable (log.Pairwise _))

section Steps

variable {svc : Service} {scope : Scope} {call : Call} {trace : Trace} {db : Db} {writes : List Write}

theorem Dealt.above {eventId : Nat} {result : EffectResult} (done : Dealt svc eventId db result writes) :
    ∀ attempt ∈ attemptsIn writes, NextAttempt db eventId attempt := by
  intro attempt member
  obtain ⟨other, only, -⟩ := done.attempt
  cases done with
  | mk found pending due dispatched applied next outcome =>
    rw [attemptsIn, List.filterMap_append] at member
    rcases List.mem_append.mp member with business | recorded
    · have none := attemptsIn_business applied.business
      rw [attemptsIn] at none
      rw [none] at business
      cases business
    · rw [List.mem_singleton.mp recorded]
      exact next

theorem Failed.above {eventId : Nat} (done : Failed svc eventId db writes) :
    ∀ attempt ∈ attemptsIn writes, NextAttempt db eventId attempt := by
  intro attempt member
  obtain ⟨other, only, -⟩ := done.attempt
  rw [only, List.mem_singleton] at member
  subst member
  cases done with
  | mk found next outcome recorded judged =>
    obtain ⟨same, -⟩ := List.cons.inj only
    exact same ▸ next

/-- An attempt is recorded with a number above all that the event has. -/
theorem Committed.above (committed : Committed svc scope call trace db writes) :
    ∀ attempt ∈ attemptsIn writes, ∀ row ∈ db.attempts, row.eventId = attempt.eventId →
      row.attemptNumber < attempt.attemptNumber := by
  intro attempt member row there about
  have numbered : ∃ eventId, NextAttempt db eventId attempt := by
    have silent : attemptsIn writes ≠ [] := List.ne_nil_of_mem member
    cases committed with
    | dealt passing done => exact ⟨_, done.above attempt member⟩
    | failed passing done => exact ⟨_, done.above attempt member⟩
    | idle => exact absurd rfl silent
    | started replay done => exact absurd done.silent.1 silent
    | finished replay done => exact absurd done.silent.1 silent
    | moved triage named done => exact absurd done.silent.1 silent
    | stored stores answered done => cases done <;> exact absurd rfl silent
    | purged purge done => exact absurd (purges_silent done) silent
  obtain ⟨eventId, next⟩ := numbered
  exact next.later row there (about.trans next.event)

end Steps

/-- Without retention the condition is always met. -/
theorem highestSurvives_withoutPurge {svc : Service} {w : World}
    (reached : svc.Reaches .withoutPurge (.init Db.empty) w) (id : Nat) : HighestSurvives id w.log := by
  obtain ⟨-, past⟩ := reaches_history wf_empty reached
  have kept (attempt : AttemptRow) : w.log.Pairwise fun earlier later =>
      attempt ∈ attemptsIn earlier.writes → attempt ∈ later.before.attempts := by
    refine (past.since (P := fun db => attempt ∈ db.attempts) ?_ ?_ ?_ ?_).1
    · intro entry member good committed recorded
      obtain ⟨_, _, -, -, -, called, -⟩ := past.at member
      rw [committed.attempts_eq called]
      exact List.mem_append_right _ recorded
    · exact fun table there => there
    · exact fun ids purging => absurd purging withoutPurge_purging
    · exact fun entry member good called committed there =>
        committed.keeps_attempts called there
  refine List.pairwise_iff_getElem.mpr fun i j low high less attempt recorded about _ => ?_
  exact ⟨attempt, List.pairwise_iff_getElem.mp (kept attempt) i j low high less recorded, about, le_refl _⟩

/-- In every run, the attempts ever recorded for an event have different numbers, as
long as each is recorded while the highest number before it is still in the table. -/
theorem attempt_numbers_never_repeat (svc : Service) {scope : Scope} {w : World}
    (reached : svc.Reaches scope (.init Db.empty) w) (id : Nat) (survives : HighestSurvives id w.log) :
    ((attemptsEver id w.log).map (·.attemptNumber)).Nodup := by
  obtain ⟨-, past⟩ := reaches_history wf_empty reached
  have ascending : (attemptsEver id w.log).Pairwise fun earlier later =>
      earlier.attemptNumber < later.attemptNumber := by
    rw [attemptsEver, List.pairwise_flatMap]
    constructor
    · intro entry member
      obtain ⟨_, _, -, -, -, -, described, -⟩ := past.at member
      rcases described.cases.attempts with ⟨silent, -⟩ | ⟨attempt, only, -⟩
      · simp [silent]
      · rw [only]
        exact (List.pairwise_singleton _ _).filter _
    · refine survives.imp_of_mem fun {earlier later} _ member rises attempt recorded next recorded' => ?_
      obtain ⟨recorded, about⟩ := List.mem_filter.mp recorded
      obtain ⟨recorded', about'⟩ := List.mem_filter.mp recorded'
      simp only [decide_eq_true_eq] at about about'
      obtain ⟨row, there, same, least⟩ := rises attempt recorded about ⟨next, recorded', about'⟩
      obtain ⟨_, _, -, -, -, -, described, -⟩ := past.at member
      have above := described.cases.above next recorded' row there (same.trans about'.symm)
      omega
  exact List.pairwise_map.mpr (ascending.imp fun less => Nat.ne_of_lt less)

/-- The event fails once and succeeds. Its numbers stay different when the rows are gone. -/
theorem attempt_numbers_never_repeat_sample : ∃ w, Sample.service.Reaches .any (.init Db.empty) w ∧
    (attemptsEver 1 w.log).map (·.attemptNumber) = [1, 2] ∧ w.db.attempts = [] ∧
    ((attemptsEver 1 w.log).map (·.attemptNumber)).Nodup := by
  let schedule : List Action :=
    Sample.store 0 (Sample.credit "c" 100 1) ++ .spawn 1 (.process 1) :: Sample.steps 1 4 ++
    .fault 1 (integrityError "55P03" "") :: Sample.steps 1 8 ++ .spawn 2 (.process 1) ::
    Sample.ticks 2 12 3 ++ .spawn 3 (.purge 0) :: Sample.ticks 3 4 10
  obtain ⟨w, reached, shown⟩ := Sample.service.reaches_test .any (.init Db.empty) schedule
    (fun w => (attemptsEver 1 w.log).map (·.attemptNumber) = [1, 2] ∧ w.db.attempts = [] ∧
      HighestSurvives 1 w.log)
    (fun action _ => Scope.any_permits action) (by decide +kernel)
  simp only [decide_eq_true_eq] at shown
  exact ⟨w, reached, shown.1, shown.2.1,
    attempt_numbers_never_repeat Sample.service reached 1 shown.2.2⟩

/-- Retention takes the only attempt of an event with an effect, and a replay records
the number 1 again. -/
theorem attempt_number_repeats : ¬ ∀ w id, Sample.service.Reaches .any (.init Db.empty) w →
    ((attemptsEver id w.log).map (·.attemptNumber)).Nodup := by
  let schedule : List Action :=
    Sample.store 0 (Sample.credit "c" 100 1) ++ .spawn 1 (.process 1) :: Sample.steps 1 12 ++
    .spawn 2 (.purge 0) :: Sample.ticks 2 4 10 ++
    .spawn 3 (.replay 1 "operator" none) :: Sample.steps 3 22
  obtain ⟨w, reached, shown⟩ := Sample.service.reaches_test .any (.init Db.empty) schedule
    (fun w => (attemptsEver 1 w.log).map (·.attemptNumber) = [1, 1])
    (fun action _ => Scope.any_permits action) (by decide +kernel)
  simp only [decide_eq_true_eq] at shown
  intro never
  have distinct := never w 1 reached
  rw [shown] at distinct
  simp at distinct

end WebhookReceiver
