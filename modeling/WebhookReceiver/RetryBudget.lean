import WebhookReceiver.Lifecycle

/-!
The retry budget.

A pass is only started while attempts are left, but the attempt is counted in the
failure transaction, which reads the count again without comparing it. Passes whose
failures overlap can so exceed `max_attempts` (`overlapping_failures_overspend`).
Where every failure transaction finds an attempt left, the budget holds
(`attempts_within_budget`).
-/

namespace WebhookReceiver

/-- No event has more attempts than the configuration allows, in the table or in its
own count. -/
def WithinBudget (maxAttempts : Nat) (db : Db) : Prop :=
  ∀ id event, db.event? id = some event →
    event.attemptCount ≤ maxAttempts ∧ (db.attemptsOf id).length ≤ maxAttempts

/-- Every failure transaction finds that its event has an attempt left. -/
def FailuresAffordable (maxAttempts : Nat) (log : List Commit) : Prop :=
  ∀ entry ∈ log, ∀ id ∈ failuresIn entry.writes, ∀ event, entry.before.event? id = some event →
    event.attemptCount < maxAttempts

/-- What makes the budget an invariant: an event that may still be claimed has an
attempt left, and every row of the attempt table has been counted. -/
def Counted (maxAttempts : Nat) (db : Db) (id : Nat) (event : EventRow) : Prop :=
  event.attemptCount ≤ maxAttempts ∧
    (event.status = .pending → event.attemptCount < maxAttempts) ∧
    (db.attemptsOf id).length ≤ event.attemptCount

theorem attemptsOf_none {db : Db} (good : Wf db) {id : Nat} (absent : db.event? id = none) :
    db.attemptsOf id = [] := by
  rw [Db.attemptsOf, List.filter_eq_nil_iff]
  intro attempt member
  obtain ⟨event, known, same⟩ := good.attemptEvent attempt member
  have found := event?_of_mem good known
  rw [same] at found
  intro hit
  simp only [decide_eq_true_eq] at hit
  rw [hit, absent] at found
  cases found

section Steps

variable {svc : Service} {scope : Scope} {call : Call} {trace : Trace} {db : Db} {writes : List Write}

/-- A transaction adds at most one attempt to an event, and none to one it spares. -/
theorem Committed.attemptsOf (committed : Committed svc scope call trace db writes) (id : Nat) :
    ((db.after writes).attemptsOf id).length ≤ (db.attemptsOf id).length + 1 ∧
      (id ∉ dealtIn writes ∧ id ∉ failuresIn writes →
        ((db.after writes).attemptsOf id).length ≤ (db.attemptsOf id).length) := by
  rcases committed.attempts with ⟨-, fewer⟩ | ⟨attempt, only, one⟩
  · have less := (fewer.filter fun row => row.eventId = id).length_le
    exact ⟨Nat.le_succ_of_le less, fun _ => less⟩
  · simp only [Db.attemptsOf, one, List.filter_append, List.length_append]
    by_cases about : attempt.eventId = id
    · refine ⟨by simp [about], fun spared => ?_⟩
      exfalso
      cases dealt : attempt.outcome.dealtWith with
      | true => exact spared.1 (by simp [dealtIn, only, dealt, about])
      | false => exact spared.2 (by simp [failuresIn, only, dealt, about])
    · simp [about]

theorem Committed.keeps_count {maxAttempts : Nat} (good : Wf db) (replayed : call.isReplay = false)
    (positive : 1 ≤ maxAttempts) (budget : svc.settings.maxAttempts = maxAttempts)
    (committed : Committed svc scope call trace db writes)
    (affordable : ∀ id ∈ failuresIn writes, ∀ event, db.event? id = some event →
      event.attemptCount < maxAttempts)
    (counted : ∀ id event, db.event? id = some event → Counted maxAttempts db id event) :
    ∀ id event, (db.after writes).event? id = some event →
      Counted maxAttempts (db.after writes) id event := by
  intro id event after
  obtain ⟨oneMore, noMore⟩ := committed.attemptsOf id
  cases committed.eventStep after with
  | same before spared =>
    obtain ⟨within, left, rows⟩ := counted id event before
    exact ⟨within, left, (noMore spared).trans rows⟩
  | dealt found kept pending status count recorded =>
    obtain ⟨within, left, rows⟩ := counted id _ found
    have room := left pending
    refine ⟨by omega, fun claimable => ?_, by omega⟩
    simp [status] at claimable
  | failed found kept status count recorded =>
    obtain ⟨within, left, rows⟩ := counted id _ found
    have room := affordable id recorded _ found
    refine ⟨by omega, fun claimable => ?_, by omega⟩
    rcases status with ⟨-, less⟩ | dead
    · omega
    · simp [dead] at claimable
  | requeued found kept replay status spared => simp [replayed] at replay
  | stored absent unused status count spared delivered =>
    have rows := noMore spared
    rw [attemptsOf_none good absent, List.length_nil] at rows
    exact ⟨by omega, fun _ => by omega, by omega⟩

end Steps

/-- In every run without replays whose failure transactions find an attempt left, no
event exceeds the budget. -/
theorem attempts_within_budget (svc : Service) {w : World}
    (reached : svc.Reaches .withoutReplay (.init Db.empty) w)
    (affordable : FailuresAffordable svc.settings.maxAttempts w.log) :
    WithinBudget svc.settings.maxAttempts w.db := by
  obtain ⟨-, past⟩ := reaches_history wf_empty reached
  let AllCounted (db : Db) : Prop :=
    ∀ id event, db.event? id = some event → Counted svc.settings.maxAttempts db id event
  have counted : AllCounted w.db := by
    refine past.keeps (P := AllCounted) (by simp [AllCounted, Db.empty, Db.event?]) ?_ ?_ ?_
    · exact fun table holds => holds
    · intro db ids _ holds id event found
      obtain ⟨within, left, rows⟩ := holds id event found
      have fewer : (((Write.deleteAttempts ids).apply db).attemptsOf id).length ≤
          (db.attemptsOf id).length :=
        (List.Sublist.filter _ List.filter_sublist).length_le
      exact ⟨within, left, fewer.trans rows⟩
    · exact fun entry member good called committed holds =>
        committed.keeps_count good called svc.settings.attempts_positive rfl (affordable entry member) holds
  intro id event found
  obtain ⟨within, -, rows⟩ := counted id event found
  exact ⟨within, rows.trans within⟩

/-- Two tries, one after the other, spend a budget of two. -/
def Sample.twoAttempts : Service :=
  { Sample.service with
    settings := { Sample.service.settings with maxAttempts := 2, attempts_positive := by decide } }

/-- With a budget of two attempts, both fail for a lock. -/
theorem attempts_within_budget_sample : ∃ w,
    Sample.twoAttempts.Reaches .withoutReplay (.init Db.empty) w ∧
    (w.db.event? 1).map (·.attemptCount) = some 2 ∧ WithinBudget 2 w.db := by
  let schedule : List Action :=
    Sample.store 0 (Sample.credit "c" 100 1) ++ .spawn 1 (.process 1) :: Sample.steps 1 2 ++
    .fault 1 (integrityError "55P03" "") :: Sample.steps 1 8 ++ .spawn 2 (.process 1) ::
    Sample.steps 2 2 ++ .fault 2 (integrityError "55P03" "") :: Sample.steps 2 8
  obtain ⟨w, reached, shown⟩ := Sample.twoAttempts.reaches_test .withoutReplay (.init Db.empty) schedule
    (fun w => (w.db.event? 1).map (·.attemptCount) = some 2 ∧
      w.log.all fun entry => (failuresIn entry.writes).all fun id =>
        (entry.before.event? id).all fun event => event.attemptCount < 2)
    (by simp [schedule, Sample.store, Sample.steps, Scope.permits, Scope.withoutReplay, Call.isReplay])
    (by decide +kernel)
  simp only [decide_eq_true_eq] at shown
  have affordable : FailuresAffordable 2 w.log := by
    intro entry member id failed event found
    have checked := List.all_eq_true.mp (List.all_eq_true.mp shown.2 entry member) id failed
    simpa [found] using checked
  exact ⟨w, reached, shown.1, attempts_within_budget Sample.twoAttempts reached affordable⟩

def Sample.oneAttempt : Service :=
  { Sample.service with
    settings := { Sample.service.settings with maxAttempts := 1, attempts_positive := by decide } }

/-- Two workers fail on the event one after the other before either of them has
recorded its attempt: a budget of one is spent twice. -/
theorem overlapping_failures_overspend : ¬ ∀ w,
    Sample.oneAttempt.Reaches .withoutReplay (.init Db.empty) w → WithinBudget 1 w.db := by
  let schedule : List Action :=
    Sample.store 0 (Sample.unknown "u") ++ .spawn 1 (.process 1) :: Sample.steps 1 6 ++
    .spawn 2 (.process 1) :: Sample.steps 2 6 ++ Sample.steps 1 7 ++ Sample.steps 2 7
  obtain ⟨w, reached, shown⟩ := Sample.oneAttempt.reaches_test .withoutReplay (.init Db.empty) schedule
    (fun w => (w.db.event? 1).map (·.attemptCount) = some 2 ∧ (w.db.attemptsOf 1).length = 2)
    (by simp [schedule, Sample.store, Sample.steps, Scope.permits, Scope.withoutReplay, Call.isReplay])
    (by decide +kernel)
  simp only [decide_eq_true_eq, Option.map_eq_some_iff] at shown
  obtain ⟨⟨event, found, two⟩, -⟩ := shown
  intro within
  have atMost := (within w reached 1 event found).1
  omega

end WebhookReceiver
