import WebhookReceiver.Counters
import WebhookReceiver.Undisturbed

/-!
The retry schedule of an event.

The exponent of the delay is the attempt number, which counts the whole history of the
event and not the cycle that a replay begins. After a replay the first retries
therefore wait as long as late ones do (`replayed_retry_waits`). A delay is the one of
a clean schedule exactly as long as the difference does not show: at the cap, or
where the number is that of the cycle (`clean_retry_schedule`).
-/

namespace WebhookReceiver

/-- The longest delay after the `k`-th retryable failure of a cycle: `min(cap, base * 2**k)`. -/
def cleanCeiling (settings : Settings) (k : Nat) : ℚ :=
  min settings.backoffCapSeconds (settings.backoffBaseSeconds * 2 ^ k)

/-- Which retryable failure since the last requeue of an event its next one is. -/
def nextRetry (id : Nat) (log : List Commit) : Nat :=
  ((attemptsSince id log).filter fun row => row.outcome = .retryableError).length + 1

/-- The delay reaches its cap anyway, or the number of the attempt gives no higher
exponent than the cycle. -/
def OnSchedule (settings : Settings) (number k : Nat) : Prop :=
  settings.backoffCapSeconds ≤ settings.backoffBaseSeconds * 2 ^ k ∨ min number maxExponent ≤ k

instance (settings : Settings) (number k : Nat) : Decidable (OnSchedule settings number k) :=
  inferInstanceAs (Decidable (_ ∨ _))

/-- Exactly then does every delay that may be drawn fit the schedule. -/
theorem onSchedule_iff (settings : Settings) (number k : Nat) :
    OnSchedule settings number k ↔
      backoffCeiling number settings.backoffBaseSeconds settings.backoffCapSeconds ≤ cleanCeiling
        settings k := by
  have base := settings.base_positive
  constructor
  · rintro (capped | low)
    · rw [cleanCeiling, min_eq_left capped]
      exact backoffCeiling_le_cap settings number
    · refine min_le_min le_rfl (mul_le_mul_of_nonneg_left ?_ base.le)
      exact pow_le_pow_right₀ (by norm_num) low
  · intro fits
    by_contra off
    obtain ⟨uncapped, high⟩ := not_or.mp off
    have more : settings.backoffBaseSeconds * 2 ^ k <
        settings.backoffBaseSeconds * 2 ^ min number maxExponent :=
      mul_lt_mul_of_pos_left (pow_lt_pow_right₀ (by norm_num) (not_le.mp high)) base
    have below : cleanCeiling settings k <
        backoffCeiling number settings.backoffBaseSeconds settings.backoffCapSeconds := by
      rw [cleanCeiling, min_eq_right (not_le.mp uncapped).le]
      exact lt_min (not_le.mp uncapped) more
    exact absurd fits (not_le.mpr below)

theorem nextAttemptNumber_pos (db : Db) (id : Nat) : 0 < db.nextAttemptNumber id := by
  unfold Db.nextAttemptNumber
  omega

/-- Off the schedule, the highest draw is too long. -/
theorem delay_off_schedule (svc : Service) (db : Db) {settings : Settings} {number k : Nat}
    (positive : 0 < number) (off : ¬ OnSchedule settings number k) :
    ∃ input delay, svc.solo input
        (nextDelaySeconds number settings.backoffBaseSeconds settings.backoffCapSeconds) [] db =
          some (.ok delay, [], db) ∧
      cleanCeiling settings k < delay := by
  rw [onSchedule_iff, not_le] at off
  let ceiling := backoffCeiling number settings.backoffBaseSeconds settings.backoffCapSeconds
  refine ⟨⟨0, 0, ⟨1, by norm_num⟩⟩, 0 + (ceiling - 0) * 1, ?_, ?_⟩
  · rw [nextDelaySeconds, if_neg (by omega)]
    exact solo_read ⟨[], rfl⟩
  · rw [zero_add, sub_zero, mul_one]
    exact off

/-- What a retryable failure of an event makes of it: with attempts left it is due again
after a delay of at most `ceiling`. -/
def RetriesWithin (svc : Service) (id : Nat) (ceiling : ℚ) (db : Db) (writes : List Write) : Prop :=
  ∀ attempt ∈ attemptsIn writes, attempt.eventId = id → attempt.outcome = .retryableError →
    ∃ before after, db.event? id = some before ∧ (db.after writes).event? id = some after ∧
      ((svc.settings.maxAttempts ≤ before.attemptCount + 1 ∧ after.status = .deadLettered) ∨
        before.attemptCount + 1 < svc.settings.maxAttempts ∧ after.status = .pending ∧
          ∃ delay, 0 ≤ delay ∧ delay ≤ ceiling ∧
            after.nextAttemptAt = attempt.finishedAt + timedelta delay)

section Steps

variable {svc : Service} {scope : Scope} {call : Call} {trace : Trace} {db : Db} {writes : List Write}

/-- The delay of a failure is drawn below the ceiling for its attempt number. -/
theorem Committed.retries (committed : Committed svc scope call trace db writes) {id : Nat} {ceiling : ℚ}
    (bounded : ∀ attempt ∈ attemptsIn writes, attempt.eventId = id →
      backoffCeiling attempt.attemptNumber svc.settings.backoffBaseSeconds svc.settings.backoffCapSeconds ≤
        ceiling) :
    RetriesWithin svc id ceiling db writes := by
  intro attempt member about retryable
  have low := bounded attempt member about
  have silent : attemptsIn writes ≠ [] := List.ne_nil_of_mem member
  cases committed with
  | failed passing done =>
    obtain ⟨other, only', named, -⟩ := done.attempt
    obtain ⟨before, attempt', queue, found, only, -, ruling, lookup⟩ := done.ruling
    rw [only, List.mem_singleton] at member
    subst member
    obtain rfl : attempt = other := (List.cons.inj (only.symm.trans only')).1
    obtain rfl : _ = id := named.symm.trans about
    refine ⟨before, _, found, by rw [lookup, if_pos rfl], ?_⟩
    cases ruling with
    | @later delay _ left start cap status due => exact Or.inr ⟨left, status, delay, start, cap.trans low, due⟩
    | givenUp spent status => exact Or.inl ⟨spent retryable, status⟩
  | dealt passing done =>
    obtain ⟨other, only, -, dealt, -⟩ := done.attempt
    rw [only, List.mem_singleton] at member
    subst member
    rw [retryable] at dealt
    cases dealt
  | idle => exact absurd rfl silent
  | started replay done => exact absurd done.silent.1 silent
  | finished replay done => exact absurd done.silent.1 silent
  | moved triage named done => exact absurd done.silent.1 silent
  | stored stores answered done => cases done <;> exact absurd rfl silent
  | purged purge done => exact absurd (purges_silent done) silent

end Steps

/-- Whatever has happened to an event, retention included: in every run from then on
without retention, each of its retryable failures that is on schedule is rescheduled as
in a cycle of its own; off the schedule its delay can come out too long. -/
theorem clean_retry_schedule (svc : Service) {scope : Scope} {begun w : World}
    (reached : svc.Reaches scope (.init Db.empty) begun)
    (resumed : svc.Reaches .withoutPurge (.init begun.db) w) (id : Nat)
    {earlier later : List Commit} {entry : Commit} (split : w.log = earlier ++ entry :: later) :
    let k := nextRetry id (begun.log ++ earlier)
    (OnSchedule svc.settings (entry.before.nextAttemptNumber id) k →
      RetriesWithin svc id (cleanCeiling svc.settings k) entry.before entry.writes) ∧
    (¬ OnSchedule svc.settings (entry.before.nextAttemptNumber id) k → ∃ input delay,
      svc.solo input (nextDelaySeconds (entry.before.nextAttemptNumber id) svc.settings.backoffBaseSeconds
        svc.settings.backoffCapSeconds) [] entry.before = some (.ok delay, [], entry.before) ∧
      cleanCeiling svc.settings k < delay) := by
  intro k
  refine ⟨fun fits => ?_, delay_off_schedule svc entry.before (nextAttemptNumber_pos _ id)⟩
  obtain ⟨-, past⟩ := reaches_history (reaches_history wf_empty reached).1 resumed
  have member : entry ∈ w.log := by simp [split]
  obtain ⟨_, _, -, -, -, -, described, -⟩ := past.at member
  refine described.cases.retries fun attempt recorded about => ?_
  rw [described.cases.numbered withoutPurge_purging attempt recorded, about]
  exact (onSchedule_iff ..).mp fits

/-- Both clocks at 20 seconds, and the highest draw. -/
def Sample.highest : Input := ⟨20000000, 20000000, ⟨1, Sample.draw_one⟩⟩

/-- A replay whose pass fails for a lock, and is to be tried again as late as possible. -/
def Sample.failingReplay (t : Nat) : List Action :=
  .spawn t (.replay 1 "operator" none) :: (List.replicate 9 (.run t Sample.highest) : List Action) ++
    .fault t (integrityError "55P03" "") :: (List.replicate 8 (.run t Sample.highest) : List Action)

/-- The only attempt of an event is purged and the event replayed: its first failure is on
schedule. -/
theorem clean_retry_schedule_sample : ∃ begun w earlier entry,
    Sample.service.Reaches .any (.init Db.empty) begun ∧
    Sample.service.Reaches .withoutPurge (.init begun.db) w ∧ w.log = earlier ++ entry :: [] ∧
    nextRetry 1 (begun.log ++ earlier) = 1 ∧ (attemptsIn entry.writes).map (·.outcome) = [.retryableError] ∧
    RetriesWithin Sample.service 1 2 entry.before entry.writes := by
  let history : List Action :=
    Sample.store 0 (Sample.credit "c" 100 1) ++ .spawn 1 (.process 1) :: Sample.steps 1 12 ++
    .spawn 2 (.purge 0) :: Sample.ticks 2 4 10
  let first (begun w : World) : Bool :=
    nextRetry 1 (begun.log ++ w.log.dropLast) = 1 ∧ w.log.getLast?.any fun entry =>
      (attemptsIn entry.writes).map (·.outcome) = [.retryableError] ∧
        OnSchedule Sample.service.settings (entry.before.nextAttemptNumber 1) 1
  obtain ⟨begun, reached, ran⟩ := Sample.service.reaches_test .any (.init Db.empty) history
    (fun begun => (Sample.service.runFrom (.init begun.db) (Sample.failingReplay 3)).any (first begun))
    (fun action _ => Scope.any_permits action) (by decide +kernel)
  obtain ⟨w, resumed, shown⟩ := Sample.service.reaches_test .withoutPurge (.init begun.db)
    (Sample.failingReplay 3) (first begun)
    (by simp [Sample.failingReplay, Scope.permits, Scope.withoutPurge, Call.isPurge]) ran
  simp only [first, decide_eq_true_eq, Option.any_eq_true] at shown
  obtain ⟨one, entry, last, outcome, fits⟩ := shown
  have split : w.log = w.log.dropLast ++ entry :: [] := (List.dropLast_append_getLast? entry last).symm
  have two : cleanCeiling Sample.service.settings 1 = 2 := by decide +kernel
  have kept := (clean_retry_schedule Sample.service reached resumed 1 split).1
  rw [one, two] at kept
  exact ⟨begun, w, _, entry, reached, resumed, split, one, outcome, kept fits⟩

/-- An event is dealt with and replayed, and the first failure after the replay waits four
seconds: the first retry of a cycle never waits more than two. -/
theorem replayed_retry_waits : ¬ ∀ w id earlier entry later,
    Sample.service.Reaches .withoutPurge (.init Db.empty) w → w.log = earlier ++ entry :: later →
    RetriesWithin Sample.service id (cleanCeiling Sample.service.settings (nextRetry id earlier))
      entry.before entry.writes := by
  let schedule : List Action :=
    Sample.store 0 (Sample.credit "c" 100 1) ++ .spawn 1 (.process 1) :: Sample.steps 1 12 ++
    Sample.failingReplay 2
  obtain ⟨w, reached, shown⟩ := Sample.service.reaches_test .withoutPurge (.init Db.empty) schedule
    (fun w => nextRetry 1 w.log.dropLast = 1 ∧ w.log.getLast?.any fun entry =>
      (attemptsIn entry.writes).any fun attempt => attempt.eventId = 1 ∧
        attempt.outcome = .retryableError ∧ ((entry.before.after entry.writes).event? 1).any fun after =>
          after.status = .pending ∧ after.nextAttemptAt = attempt.finishedAt + 4000000)
    (by simp [schedule, Sample.store, Sample.steps, Sample.failingReplay, Scope.permits,
      Scope.withoutPurge, Call.isPurge])
    (by decide +kernel)
  simp only [decide_eq_true_eq, Option.any_eq_true, List.any_eq_true] at shown
  obtain ⟨first, entry, last, attempt, member, about, retryable, after, lookup, status, due⟩ := shown
  intro never
  have split : w.log = w.log.dropLast ++ entry :: [] := (List.dropLast_append_getLast? entry last).symm
  obtain ⟨before, after', -, lookup', fate⟩ := never w 1 _ entry [] reached split attempt member about retryable
  obtain rfl : after = after' := Option.some.inj (lookup.symm.trans lookup')
  rcases fate with ⟨-, ended⟩ | ⟨-, -, delay, -, short, due'⟩
  · rw [status] at ended
    cases ended
  · have two : cleanCeiling Sample.service.settings 1 = 2 := by decide +kernel
    rw [first, two] at short
    have most : timedelta delay ≤ 2000000 := (timedelta_mono short).trans (by decide +kernel)
    rw [due] at due'
    have same : timedelta delay = 4000000 := (add_left_cancel due').symm
    omega

end WebhookReceiver
