import WebhookReceiver.AttemptLog
import WebhookReceiver.Reconciliation

/-!
The operator's read model (migration 0003): views and functions over the tables.

`v_event_overview` puts an event beside its attempts and its effect. The row of the
event and the log of its attempts are written together and can be read together: what
the view says of an event is what its last attempt did (`overview_agrees`). The counts
of `v_queue_health` leave no event out, and the functions over the ledger never
overflow (`accountBalance_known`).
-/

namespace WebhookReceiver

/-! ## `v_event_overview` -/

/-- `ORDER BY attempt_number DESC LIMIT 1`. -/
def Db.lastAttempt? (db : Db) (eventId : Nat) : Option AttemptRow :=
  (db.attemptsOf eventId).find? fun row =>
    (db.attemptsOf eventId).all fun other => other.attemptNumber ≤ row.attemptNumber

/-- A row of `v_event_overview`. -/
structure EventOverview where
  id : Nat
  source : String
  externalId : String
  eventType : String
  entityType : String
  entityId : String
  status : WebhookStatus
  attemptCount : Nat
  receivedAt : Time
  occurredAt : Time
  nextAttemptAt : Time
  processedAt : Option Time
  lastError : Option String
  attemptsRecorded : Nat
  lastAttemptAt : Option Time
  lastOutcome : Option AttemptOutcome
  hasEffect : Bool

def Db.overviewOf (db : Db) (event : EventRow) : EventOverview where
  id := event.id
  source := event.source
  externalId := event.externalId
  eventType := event.eventType
  entityType := event.entityType
  entityId := event.entityId
  status := event.status
  attemptCount := event.attemptCount
  receivedAt := event.receivedAt
  occurredAt := event.occurredAt
  nextAttemptAt := event.nextAttemptAt
  processedAt := event.processedAt
  lastError := event.lastError
  attemptsRecorded := (db.attemptsOf event.id).length
  lastAttemptAt := ((db.attemptsOf event.id).map (·.finishedAt)).max?
  lastOutcome := (db.lastAttempt? event.id).map (·.outcome)
  hasEffect := db.ledger.any fun entry => entry.eventId = event.id

def Db.vEventOverview (db : Db) : List EventOverview := db.events.map db.overviewOf

/-! ## The last attempt -/

section LastAttempt

variable {db db' : Db} {id : Nat} {attempt : AttemptRow}

theorem lastAttempt?_congr (same : db'.attemptsOf id = db.attemptsOf id) :
    db'.lastAttempt? id = db.lastAttempt? id := by
  simp only [Db.lastAttempt?, same]

/-- An attempt with a new number is the last one. -/
theorem lastAttempt?_insert (added : db'.attemptsOf id = db.attemptsOf id ++ [attempt])
    (later : ∀ row ∈ db.attempts, row.eventId = id → row.attemptNumber < attempt.attemptNumber) :
    db'.lastAttempt? id = some attempt := by
  have below : ∀ row ∈ db.attemptsOf id, row.attemptNumber < attempt.attemptNumber := by
    intro row member
    obtain ⟨there, about⟩ := List.mem_filter.mp member
    exact later row there (by simpa using about)
  have overtaken : (db.attemptsOf id).find? (fun row =>
      (db'.attemptsOf id).all fun other => other.attemptNumber ≤ row.attemptNumber) = none := by
    refine List.find?_eq_none.mpr fun row member => ?_
    have less := below row member
    simp only [added, List.all_append, List.all_cons, List.all_nil, Bool.and_true, Bool.and_eq_true,
      decide_eq_true_eq, not_and, Nat.not_le]
    exact fun _ => less
  have highest : ((db'.attemptsOf id).all fun other => other.attemptNumber ≤ attempt.attemptNumber) = true := by
    simp only [added, List.all_append, List.all_cons, List.all_nil, Bool.and_true, Bool.and_eq_true,
      decide_eq_true_eq, List.all_eq_true, Nat.le_refl, and_true]
    exact fun row member => (below row member).le
  unfold Db.lastAttempt?
  rw [show (db'.attemptsOf id).find? _ = (db.attemptsOf id ++ [attempt]).find? _ from congrArg _ added,
    List.find?_append, overtaken, Option.none_or, List.find?_cons, highest]

end LastAttempt

section Steps

variable {svc : Service} {scope : Scope} {call : Call} {trace : Trace} {db : Db} {writes : List Write}
  {id : Nat} {event : EventRow}

/-- Where a transaction records no attempt of an event, the log of the event stays. -/
theorem Committed.attemptsOf_spared (called : call.isPurge = false)
    (committed : Committed svc scope call trace db writes)
    (spared : id ∉ dealtIn writes ∧ id ∉ failuresIn writes) :
    (db.after writes).attemptsOf id = db.attemptsOf id := by
  have none : (attemptsIn writes).filter (fun row => row.eventId = id) = [] := by
    refine List.filter_eq_nil_iff.mpr fun attempt member about => ?_
    have about : attempt.eventId = id := by simpa using about
    cases dealt : attempt.outcome.dealtWith with
    | true => exact spared.1 (List.mem_map.mpr ⟨attempt, List.mem_filter.mpr ⟨member, dealt⟩, about⟩)
    | false =>
      exact spared.2 (List.mem_map.mpr ⟨attempt, List.mem_filter.mpr ⟨member, by simp [dealt]⟩, about⟩)
  simp only [Db.attemptsOf, committed.attempts_eq called, List.filter_append, none, List.append_nil]

theorem Committed.attemptsOf_added (called : call.isPurge = false)
    (committed : Committed svc scope call trace db writes) {attempt : AttemptRow}
    (only : attemptsIn writes = [attempt]) (about : attempt.eventId = id) :
    (db.after writes).attemptsOf id = db.attemptsOf id ++ [attempt] := by
  simp [Db.attemptsOf, committed.attempts_eq called, only, about]

/-- A pass that dealt with its event leaves its attempt in the log and its mark on the event. -/
theorem Dealt.mark {result : EffectResult} (done : Dealt svc id db result writes)
    (after : (db.after writes).event? id = some event) :
    ∃ attempt, attemptsIn writes = [attempt] ∧ NextAttempt db id attempt ∧
      attempt.outcome = successOutcome result ∧ event.processedAt = some attempt.finishedAt ∧
      event.lastError = none := by
  obtain ⟨attempt', only, -, outcome'⟩ := done.outcome
  cases done with
  | @mk before effect result business attempt found pending due dispatched applied next outcome =>
    have recorded : attempt ∈ attemptsIn (business ++ [Write.insertAttempt attempt, .updateEvent id
        { before.toEventQueue with
          status := .succeeded, attemptCount := before.attemptCount + 1,
          processedAt := some attempt.finishedAt, lastError := none }]) := by
      simp [attemptsIn, Write.attempt?]
    obtain rfl : attempt = attempt' := by simpa [only] using recorded
    obtain ⟨events, -, -, -⟩ := Db.after_business applied.business db
    have there : (db.after business).event? id = some before := by simp only [Db.event?, events]; exact found
    rw [Db.after_append] at after
    simp only [Db.after_cons, Db.after_nil, event?_apply, Write.onEvent, there, Option.map_some,
      event?_id found, if_true, Option.some.injEq] at after
    subst after
    exact ⟨attempt, only, next, outcome, rfl, rfl⟩

/-- A pass that failed leaves its attempt in the log, and its error with an event that waits. -/
theorem Failed.mark (done : Failed svc id db writes) (after : (db.after writes).event? id = some event) :
    ∃ attempt, attemptsIn writes = [attempt] ∧ NextAttempt db id attempt ∧ attempt.outcome.dealtWith = false ∧
      (event.status = .pending → attempt.outcome = .retryableError ∧
        event.lastError = attempt.errorDetail) := by
  obtain ⟨attempt', only, -, failed, -⟩ := done.attempt
  cases done with
  | @mk before exc attempt verdict found next outcome recorded judged =>
    obtain rfl : attempt = attempt' := by
      have first : attempt ∈ attemptsIn
        (.insertAttempt attempt :: verdict) := by simp [attemptsIn, Write.attempt?]
      simpa [only] using first
    refine ⟨attempt, only, next, failed, fun pending => ?_⟩
    have named := event?_id found
    cases judged with
    | rescheduled retryable left start cap =>
      simp only [Db.after_cons, Db.after_nil, event?_apply, Write.onEvent, found, Option.map_some, named,
        if_true, Option.some.injEq] at after
      subst after
      exact ⟨by rw [outcome, if_pos retryable], recorded.2.symm⟩
    | @deadLettered reason filed spent filing =>
      have dead : event.status = .deadLettered := by
        rcases filing with ⟨-, rfl⟩ | ⟨-, entryId, at', rfl⟩
        · simp only [Db.after_cons, Db.after_nil, event?_apply, Write.onEvent, found, Option.map_some, named,
            if_true, Option.some.injEq] at after
          rw [← after]
        · simp only [Db.after_cons, Db.after_nil, event?_apply, Write.onEvent, found, Option.map_some, named,
            if_true, Option.some.injEq] at after
          rw [← after]
      rw [dead] at pending
      cases pending

/-! ## What the log says of an event -/

/-- The event is as its last attempt left it, or waits for its first pass since it was
stored or replayed. -/
structure ToldByLog (svc : Service) (db : Db) (event : EventRow) : Prop where
  unclaimed : event.status ≠ .processing
  counted : event.attemptCount ≤ (db.attemptsOf event.id).length
  waiting : event.status = .pending → 0 < event.attemptCount → event.attemptCount < svc.settings.maxAttempts ∧
    ∃ last, db.lastAttempt? event.id = some last ∧ last.outcome = .retryableError ∧
      event.lastError = last.errorDetail
  succeeded : event.status = .succeeded → event.lastError = none ∧
    ∃ last, db.lastAttempt? event.id = some last ∧ last.outcome.dealtWith = true ∧
      event.processedAt = some last.finishedAt ∧ (last.outcome = .superseded ∨ db.hasEffect event.id)
  givenUp : event.status = .deadLettered →
    ∃ last, db.lastAttempt? event.id = some last ∧ last.outcome.dealtWith = false

theorem Dealt.hasEffect {result : EffectResult} (done : Dealt svc id db result writes) :
    successOutcome result = .superseded ∨ (db.after writes).hasEffect id := by
  cases result with
  | superseded => exact Or.inl rfl
  | applied => exact Or.inr ((ledger_mem_after writes db id).mpr (Or.inr (by simp [done.posts])))
  | alreadyApplied => exact Or.inr ((ledger_mem_after writes db id).mpr (Or.inl done.again))

theorem Committed.toldByLog (called : call.isPurge = false)
    (committed : Committed svc scope call trace db writes)
    (told : ∀ id event, db.event? id = some event → ToldByLog svc db event) :
    ∀ id event, (db.after writes).event? id = some event → ToldByLog svc (db.after writes) event := by
  intro id event after
  have named := event?_id after
  cases committed.eventStep after with
  | same before spared =>
    obtain ⟨unclaimed, counted, waiting, succeeded, givenUp⟩ := told id event before
    have log := committed.attemptsOf_spared called spared
    rw [← named] at log
    have last := lastAttempt?_congr log
    refine ⟨unclaimed, log ▸ counted, ?_, ?_, ?_⟩
    · rw [last]
      exact waiting
    · rw [last]
      intro status
      obtain ⟨none, attempt, latest, dealt, processed, effect⟩ := succeeded status
      exact ⟨none, attempt, latest, dealt, processed,
        effect.imp_right fun posted => (ledger_mem_after writes db event.id).mpr (Or.inl posted)⟩
    · rw [last]
      exact givenUp
  | dealt found kept pending status count recorded =>
    obtain ⟨-, result, done⟩ := committed.dealtWith recorded
    obtain ⟨attempt, only, next, outcome, processed, none⟩ := done.mark after
    have added := committed.attemptsOf_added called only next.event
    have counted := (told id _ found).counted
    rw [event?_id found] at counted
    have last := lastAttempt?_insert added next.later
    subst named
    refine ⟨by simp [status], ?_, by simp [status], fun _ => ⟨none, attempt, last, ?_, processed, ?_⟩,
      by simp [status]⟩
    · rw [added, List.length_append, List.length_singleton]
      omega
    · rw [outcome]
      exact dealtWith_successOutcome result
    · rw [outcome]
      exact done.hasEffect
  | failed found kept status count recorded =>
    obtain ⟨-, done⟩ := committed.failure recorded
    obtain ⟨attempt, only, next, failed, error⟩ := done.mark after
    have added := committed.attemptsOf_added called only next.event
    have counted := (told id _ found).counted
    rw [event?_id found] at counted
    have last := lastAttempt?_insert added next.later
    subst named
    refine ⟨?_, ?_, fun pending _ => ⟨?_, attempt, last, error pending⟩, ?_, fun _ => ⟨attempt, last, failed⟩⟩
    · rcases status with ⟨pending, -⟩ | dead
      · simp [pending]
      · simp [dead]
    · rw [added, List.length_append, List.length_singleton]
      omega
    · rcases status with ⟨-, left⟩ | dead
      · exact left
      · exact absurd (pending.symm.trans dead) (by simp)
    · rcases status with ⟨pending, -⟩ | dead
      · simp [pending]
      · simp [dead]
  | requeued found kept replay status spared count =>
    exact ⟨by simp [status], by omega, by simp [count], by simp [status], by simp [status]⟩
  | stored absent unused status count =>
    exact ⟨by simp [status], by omega, by simp [count], by simp [status], by simp [status]⟩

end Steps

theorem Service.History.toldByLog {svc : Service} {last : Db} {log : List Commit}
    (past : svc.History .withoutPurge Db.empty last log) {id : Nat} {event : EventRow}
    (found : last.event? id = some event) : ToldByLog svc last event := by
  have all : ∀ id event, last.event? id = some event → ToldByLog svc last event := by
    refine past.keeps (P := fun db => ∀ id event, db.event? id = some event → ToldByLog svc db event)
      ?_ ?_ ?_ ?_
    · intro id event found
      simp [Db.event?, Db.empty] at found
    · intro db table told id event found
      obtain ⟨unclaimed, counted, waiting, succeeded, givenUp⟩ := told id event found
      exact ⟨unclaimed, counted, waiting, succeeded, givenUp⟩
    · exact fun ids purging => absurd purging (not_purging fun _ called => called)
    · exact fun entry member good called committed told => committed.toldByLog called told
  exact all id event found

/-- The overview never contradicts itself. An event that succeeded was dealt with by its
last attempt, and has its effect unless that attempt found it superseded; one that was
given up failed at its last attempt; one that waits after a pass waits for a retry that
it still has, and shows the error of its last attempt. -/
theorem overview_agrees (svc : Service) {w : World} (reached : svc.Reaches .withoutPurge (.init Db.empty) w)
    {row : EventOverview} (member : row ∈ w.db.vEventOverview) :
    row.status ≠ .processing ∧ row.attemptCount ≤ row.attemptsRecorded ∧
    (row.status = .pending → 0 < row.attemptCount →
      row.attemptCount < svc.settings.maxAttempts ∧ row.lastOutcome = some .retryableError ∧
      ∃ attempt ∈ w.db.attempts, attempt.eventId = row.id ∧ row.lastError = attempt.errorDetail) ∧
    (row.status = .succeeded → row.lastError = none ∧ row.processedAt.isSome ∧
      (row.lastOutcome = some .succeeded ∧ row.hasEffect = true ∨ row.lastOutcome = some .superseded)) ∧
    (row.status = .deadLettered →
      row.lastOutcome = some .retryableError ∨ row.lastOutcome = some .nonRetryableError) := by
  obtain ⟨good, past⟩ := reaches_history wf_empty reached
  obtain ⟨event, there, rfl⟩ := List.mem_map.mp member
  obtain ⟨unclaimed, counted, waiting, succeeded, givenUp⟩ := past.toldByLog (event?_of_mem good there)
  refine ⟨unclaimed, counted, fun pending tried => ?_, fun status => ?_, fun status => ?_⟩
  · obtain ⟨left, last, latest, outcome, error⟩ := waiting pending tried
    obtain ⟨logged, about⟩ := List.mem_filter.mp (List.mem_of_find?_eq_some latest)
    exact ⟨left, by simp [Db.overviewOf, latest, outcome], last, logged, of_decide_eq_true about, error⟩
  · obtain ⟨none, last, latest, dealt, processed, effect⟩ := succeeded status
    refine ⟨none, by simp [Db.overviewOf, processed], ?_⟩
    have outcome : (w.db.overviewOf event).lastOutcome = some last.outcome := by simp [Db.overviewOf, latest]
    rw [outcome]
    rcases effect with superseded | ⟨entry, posted, about⟩
    · exact Or.inr (congrArg some superseded)
    · have has : (w.db.overviewOf event).hasEffect = true :=
        List.any_eq_true.mpr ⟨entry, posted, by simpa using about⟩
      cases how : last.outcome with
      | succeeded => exact Or.inl ⟨rfl, has⟩
      | superseded => exact Or.inr rfl
      | retryableError => simp [how, AttemptOutcome.dealtWith] at dealt
      | nonRetryableError => simp [how, AttemptOutcome.dealtWith] at dealt
  · obtain ⟨last, latest, failed⟩ := givenUp status
    have outcome : (w.db.overviewOf event).lastOutcome = some last.outcome := by simp [Db.overviewOf, latest]
    rw [outcome]
    cases how : last.outcome with
    | retryableError => exact Or.inl rfl
    | nonRetryableError => exact Or.inr rfl
    | succeeded => simp [how, AttemptOutcome.dealtWith] at failed
    | superseded => simp [how, AttemptOutcome.dealtWith] at failed

/-- A snapshot that is overtaken while it waits, and an event that nobody can handle. -/
theorem overview_agrees_sample : ∃ w, Sample.service.Reaches .withoutPurge (.init Db.empty) w ∧
    (w.db.vEventOverview.map fun row => (row.status, row.lastOutcome, row.hasEffect)) =
      [(.succeeded, some .succeeded, true), (.succeeded, some .superseded, false),
        (.deadLettered, some .nonRetryableError, false)] ∧
    ∀ row ∈ w.db.vEventOverview, row.status = .succeeded → row.lastError = none ∧ row.processedAt.isSome ∧
      (row.lastOutcome = some .succeeded ∧ row.hasEffect = true ∨ row.lastOutcome = some .superseded) := by
  let schedule : List Action :=
    Sample.store 0 (Sample.snapshot "s" 500 2) ++ Sample.store 1 (Sample.snapshot "r" 300 1) ++
    Sample.store 2 (Sample.unknown "u") ++ .spawn 3 (.process 1) :: Sample.steps 3 13 ++
    .spawn 4 (.process 2) :: Sample.steps 4 12 ++ .spawn 5 (.process 3) :: Sample.steps 5 13
  obtain ⟨w, reached, shown⟩ := Sample.service.reaches_test .withoutPurge (.init Db.empty) schedule
    (fun w => (w.db.vEventOverview.map fun row => (row.status, row.lastOutcome, row.hasEffect)) =
      [(.succeeded, some .succeeded, true), (.succeeded, some .superseded, false),
        (.deadLettered, some .nonRetryableError, false)])
    (by simp [schedule, Sample.store, Sample.steps, Scope.permits, Scope.withoutPurge, Call.isPurge])
    (by decide +kernel)
  simp only [decide_eq_true_eq] at shown
  exact ⟨w, reached, shown, fun row member => (overview_agrees Sample.service reached member).2.2.2.1⟩

/-! ## `v_queue_health` -/

structure QueueHealth where
  pending : Nat
  dueNow : Nat
  waitingOnBackoff : Nat
  succeeded : Nat
  deadLettered : Nat
  oldestDueAge : Time

/-- The ages of the events that are due. -/
def Db.dueAges (db : Db) (now : Time) : List Time :=
  (db.events.filter fun row => row.status = .pending ∧ row.nextAttemptAt ≤ now).map fun row =>
    now - row.nextAttemptAt

def Db.vQueueHealth (db : Db) (now : Time) : QueueHealth where
  pending := db.events.countP fun row => row.status = .pending
  dueNow := db.events.countP fun row => row.status = .pending ∧ row.nextAttemptAt ≤ now
  waitingOnBackoff := db.events.countP fun row => row.status = .pending ∧ now < row.nextAttemptAt
  succeeded := db.events.countP fun row => row.status = .succeeded
  deadLettered := db.events.countP fun row => row.status = .deadLettered
  oldestDueAge := (db.dueAges now).max?.getD 0

theorem countP_split {α : Type} {p q r : α → Bool} {rows : List α}
    (either : ∀ row ∈ rows, p row = (q row || r row))
    (apart : ∀ row ∈ rows, ¬ (q row = true ∧ r row = true)) :
    rows.countP p = rows.countP q + rows.countP r := by
  induction rows with
  | nil => rfl
  | cons row rest ih =>
    obtain ⟨first, others⟩ := List.forall_mem_cons.mp either
    obtain ⟨differ, otherwise⟩ := List.forall_mem_cons.mp apart
    simp only [List.countP_cons, ih others otherwise, first]
    cases one : q row <;> cases other : r row
    · simp
    · simp [Nat.add_assoc]
    · simp [Nat.add_right_comm]
    · exact absurd ⟨one, other⟩ differ

/-- The health view leaves no event out and counts none twice. -/
theorem queueHealth_total (svc : Service) {w : World} (reached : svc.Reaches .withoutPurge (.init Db.empty) w)
    (now : Time) : (w.db.vQueueHealth now).pending =
      (w.db.vQueueHealth now).dueNow + (w.db.vQueueHealth now).waitingOnBackoff ∧
    w.db.events.length = (w.db.vQueueHealth now).pending + (w.db.vQueueHealth now).succeeded +
      (w.db.vQueueHealth now).deadLettered := by
  obtain ⟨good, past⟩ := reaches_history wf_empty reached
  constructor
  · refine countP_split (fun row _ => ?_) fun row _ => ?_
    · by_cases due : row.nextAttemptAt ≤ now
      · simp [due, Int.not_lt.mpr due]
      · simp [due, Int.not_le.mp due]
    · simp only [decide_eq_true_eq, not_and, and_imp]
      exact fun _ due _ => Int.not_lt.mpr due
  · have claimed : ∀ row ∈ w.db.events, row.status ≠ .processing := fun row member =>
      (past.toldByLog (event?_of_mem good member)).unclaimed
    have closed : w.db.events.countP (fun row => !decide (row.status = .pending)) =
        (w.db.vQueueHealth now).succeeded + (w.db.vQueueHealth now).deadLettered := by
      refine countP_split (fun row member => ?_) fun row _ => ?_
      · have open' := claimed row member
        cases status : row.status <;> simp_all
      · simp only [decide_eq_true_eq, not_and]
        intro succeeded
        simp [succeeded]
    have split := List.length_eq_countP_add_countP
      (fun row : EventRow => decide (row.status = .pending)) (l := w.db.events)
    simp only [Db.vQueueHealth] at closed ⊢
    simp only [Bool.decide_eq_true, decide_not] at split
    omega

/-! ## The ledger's view and functions -/

/-- A row of `v_account_reconciliation`. -/
structure AccountReconciliation where
  id : Nat
  externalRef : String
  balanceMinor : Int
  version : Int
  ledgerSum : Int
  drift : Int
  ledgerRows : Nat

def Db.vAccountReconciliation (db : Db) : List AccountReconciliation :=
  db.accounts.map fun account => {
    id := account.id
    externalRef := account.externalRef
    balanceMinor := account.balanceMinor
    version := account.version
    ledgerSum := db.posted account.id
    drift := account.balanceMinor - db.posted account.id
    ledgerRows := db.ledger.countP fun entry => entry.accountId = account.id }

/-- The sum is cast to `bigint`, which refuses what is out of range. -/
def Db.fnAccountBalance (db : Db) (externalRef : String) : Option Int :=
  let sum := ((db.ledger.filter fun entry =>
    db.accounts.any fun account => account.id = entry.accountId ∧ account.externalRef = externalRef).map
      (·.amountMinor)).sum
  if isBigint sum then some sum else none

def Db.fnLedgerInvariantOk (db : Db) : Bool := !db.vAccountReconciliation.any fun row => row.drift ≠ 0

/-- Every balance is in the range of its column. -/
def BalancesInRange (db : Db) : Prop := ∀ account ∈ db.accounts, isBigint account.balanceMinor = true

theorem Applied.balancesInRange {strict : Prop} {db : Db} {event : StoredEvent} {effect : Effect}
    {result : EffectResult}
    {writes : List Write} (applied : Applied strict db event effect result writes)
    (bounded : BalancesInRange db) :
    BalancesInRange (db.after writes) := by
  have looked : ∀ {externalRef row created}, AccountFor db externalRef row created →
      BalancesInRange (db.after created) := by
    intro externalRef row created account other member
    cases account with
    | existing there named => exact bounded other member
    | created absent fresh =>
      simp only [Db.after_cons, Db.after_nil, Write.apply, List.mem_append, List.mem_singleton] at member
      rcases member with old | rfl
      · exact bounded other old
      · rfl
  have posted : ∀ {externalRef row created id amount state}, AccountFor db externalRef row created →
      isBigint state.balanceMinor = true →
      BalancesInRange (db.after (created ++ [Write.insertLedger ⟨id, row.id, event.id, amount⟩,
        .updateAccount row.id state])) := by
    intro externalRef row created id amount state account inRange other member
    rw [Db.after_append] at member
    simp only [Db.after_cons, Db.after_nil, Write.apply] at member
    obtain ⟨before, there, rfl⟩ := List.mem_map.mp member
    split
    · exact inRange
    · exact looked account before there
  cases applied with
  | credit account first inRange => exact posted account inRange.2.1
  | creditAgain account again inRange => exact looked account
  | superseded account stale => exact looked account
  | snapshot account first newer moved inRange => exact posted account inRange.2.1
  | snapshotAgain account newer moved again inRange => exact looked account

theorem balancesInRange_clerical {db : Db} {writes : List Write}
    (clerical : ∀ write ∈ writes, write.business = false)
    (bounded : BalancesInRange db) : BalancesInRange (db.after writes) := by
  intro account member
  rw [(Db.after_clerical clerical db).1] at member
  exact bounded account member

theorem Dealt.balancesInRange {svc : Service} {eventId : Nat} {db : Db} {result : EffectResult}
    {writes : List Write}
    (done : Dealt svc eventId db result writes) (bounded : BalancesInRange db) :
    BalancesInRange (db.after writes) := by
  cases done with
  | mk found pending due dispatched applied next outcome =>
    rw [Db.after_append]
    exact balancesInRange_clerical (by simp [Write.business]) (applied.balancesInRange bounded)

theorem Service.History.balancesInRange {svc : Service} {scope : Scope} {last : Db} {log : List Commit}
    (past : svc.History scope Db.empty last log) : BalancesInRange last := by
  refine past.keeps (by simp [BalancesInRange, Db.empty]) (fun _ bounded => bounded)
    (fun _ _ bounded => bounded) ?_
  intro entry member good called committed bounded
  rcases committed.money with silent | ⟨eventId, result, passing, dealt⟩
  · exact balancesInRange_clerical silent bounded
  · exact dealt.balancesInRange bounded

/-- The ledger of an account, by the account's name. -/
theorem ledger_named {db : Db} (good : Wf db) {account : AccountRow} (member : account ∈ db.accounts) :
    (db.ledger.filter fun entry => db.accounts.any fun other =>
      other.id = entry.accountId ∧ other.externalRef = account.externalRef) =
      db.ledger.filter fun entry => entry.accountId = account.id := by
  refine List.filter_congr fun entry _ => ?_
  by_cases same : entry.accountId = account.id
  · simp only [same, decide_true, List.any_eq_true, decide_eq_true_eq]
    exact ⟨account, member, rfl, rfl⟩
  · simp only [same, decide_false, List.any_eq_false, decide_eq_true_eq, not_and]
    intro other there owner named
    obtain rfl : other = account := List.inj_on_of_nodup_map good.accountRefs there member named
    exact same owner.symm

/-- In every reachable state the functions over the ledger answer: no balance that the
ledger proves is out of range, each is the cached one, and the invariant is found to
hold. -/
theorem accountBalance_known (svc : Service) (shipped : svc.registry = Balance.registry) {w : World}
    (reached : svc.Reaches .any (.init Db.empty) w) :
    w.db.fnLedgerInvariantOk = true ∧
      ∀ externalRef, w.db.fnAccountBalance externalRef =
        some ((w.db.accountOf? externalRef).elim 0 (·.balanceMinor)) := by
  have strict : svc.registry.OwnsEntity := shipped ▸ Balance.registry_ownsEntity
  obtain ⟨good, past⟩ := reaches_history wf_empty reached
  have balanced : Reconciled w.db := past.reconciled strict (by simp [Reconciled, Db.empty])
  constructor
  · simp only [Db.fnLedgerInvariantOk, Bool.not_eq_true', List.any_eq_false, decide_eq_true_eq, not_not]
    intro row member
    obtain ⟨account, there, rfl⟩ := List.mem_map.mp member
    have same := balanced account there
    simp only
    omega
  · intro externalRef
    cases found : w.db.accountOf? externalRef with
    | none =>
      have empty : (w.db.ledger.filter fun entry => w.db.accounts.any fun account =>
          account.id = entry.accountId ∧ account.externalRef = externalRef) = [] := by
        refine List.filter_eq_nil_iff.mpr fun entry _ hit => ?_
        obtain ⟨account, there, owner⟩ := List.any_eq_true.mp hit
        have named := List.find?_eq_none.mp found account there
        simp only [decide_eq_true_eq] at owner named
        exact named owner.2
      have total : ((w.db.ledger.filter fun entry => w.db.accounts.any fun account =>
          account.id = entry.accountId ∧ account.externalRef = externalRef).map (·.amountMinor)).sum = 0 := by
        rw [empty]
        rfl
      simp only [Db.fnAccountBalance, total]
      rfl
    | some account =>
      obtain ⟨there, named⟩ := accountOf?_mem found
      subst named
      have inRange : isBigint (w.db.posted account.id) = true :=
        balanced account there ▸ past.balancesInRange account there
      have same : ((w.db.ledger.filter fun entry => w.db.accounts.any fun other =>
          other.id = entry.accountId ∧ other.externalRef = account.externalRef).map (·.amountMinor)).sum =
          w.db.posted account.id := by
        rw [ledger_named good there]
        rfl
      simp only [Db.fnAccountBalance, same, inRange, if_true, Option.elim_some]
      rw [balanced account there]

/-- A credit, and a snapshot that moves the balance on. -/
theorem accountBalance_known_sample : ∃ w, Sample.service.Reaches .any (.init Db.empty) w ∧
    w.db.fnLedgerInvariantOk = true ∧ w.db.ledger.map (·.amountMinor) = [100, 400] ∧
    w.db.fnAccountBalance "A" = some ((w.db.accountOf? "A").elim 0 (·.balanceMinor)) := by
  let schedule : List Action :=
    Sample.store 0 (Sample.credit "c" 100 1) ++ Sample.store 1 (Sample.snapshot "s" 500 2) ++
    .spawn 2 (.process 1) :: Sample.steps 2 12 ++ .spawn 3 (.process 2) :: Sample.steps 3 14
  obtain ⟨w, reached, shown⟩ := Sample.service.reaches_test .any (.init Db.empty) schedule
    (fun w => w.db.ledger.map (·.amountMinor) = [100, 400]) (fun action _ => Scope.any_permits action)
    (by decide +kernel)
  have known := accountBalance_known Sample.service rfl reached
  exact ⟨w, reached, known.1, of_decide_eq_true shown, known.2 "A"⟩

end WebhookReceiver
