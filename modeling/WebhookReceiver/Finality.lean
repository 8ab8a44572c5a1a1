import WebhookReceiver.Lifecycle

/-!
SUCCEEDED is final, as long as no failure is recorded late.

`_record_failure` takes the row again by its id and overwrites whatever status it
finds. While a worker is between its rollback and that second transaction, another
worker may claim the event and succeed; the late failure then puts the event back to
PENDING or DEAD_LETTERED beside its ledger entry (`late_failure_overwrites`). Where
every failure transaction finds its event unfinished, SUCCEEDED stays
(`succeeded_is_final`).
-/

namespace WebhookReceiver

/-- What SUCCEEDED once, is SUCCEEDED later; and the event of a ledger entry is
SUCCEEDED. -/
def SucceededIsFinal (w w' : World) : Prop :=
  (∀ id event event', w.db.event? id = some event → event.status = .succeeded →
    w'.db.event? id = some event' → event'.status = .succeeded) ∧
  ∀ entry ∈ w'.db.ledger, ∀ event, w'.db.event? entry.eventId = some event →
    event.status = .succeeded

/-- No failure transaction finds its event SUCCEEDED. -/
def FailuresInTime (log : List Commit) : Prop :=
  ∀ entry ∈ log, ∀ id ∈ failuresIn entry.writes, ∀ event, entry.before.event? id = some event →
    event.status ≠ .succeeded

section Steps

variable {svc : Service} {call : Call} {trace : Trace} {db : Db} {writes : List Write}

/-- One transaction leaves a SUCCEEDED event SUCCEEDED. -/
theorem Committed.keeps_succeeded (replayed : call.isReplay = false)
    (committed : Committed svc .withoutReplay call trace db writes)
    (inTime : ∀ id ∈ failuresIn writes, ∀ event, db.event? id = some event → event.status ≠ .succeeded)
    {id : Nat} (known : db.knows id)
    (succeeded : ∀ event, db.event? id = some event → event.status = .succeeded) {event : EventRow}
    (after : (db.after writes).event? id = some event) : event.status = .succeeded := by
  cases committed.eventStep after with
  | same before spared => exact succeeded event before
  | dealt found kept pending status count recorded => exact status
  | failed found kept status count recorded => exact absurd (succeeded _ found) (inTime id recorded _ found)
  | requeued found kept replay status spared => simp [replayed] at replay
  | stored absent unused status count spared delivered =>
    rcases known with ⟨row, found⟩ | gone
    · simp [absent] at found
    · exact absurd gone unused

/-- One transaction keeps the ledger and the queue in agreement. -/
theorem Committed.keeps_agreement (good : Wf db) (replayed : call.isReplay = false)
    (committed : Committed svc .withoutReplay call trace db writes)
    (inTime : ∀ id ∈ failuresIn writes, ∀ event, db.event? id = some event → event.status ≠ .succeeded)
    (agree : ∀ entry ∈ db.ledger, ∀ event, db.event? entry.eventId = some event →
      event.status = .succeeded) :
    ∀ entry ∈ (db.after writes).ledger, ∀ event, (db.after writes).event? entry.eventId = some event →
      event.status = .succeeded := by
  intro entry member event after
  cases committed.eventStep after with
  | same before spared => exact agree entry (committed.ledger spared.1 member rfl) event before
  | dealt found kept pending status count recorded => exact status
  | failed found kept status count recorded =>
    have spared : entry.eventId ∉ dealtIn writes := by
      simp [(committed.failure recorded).2.recorded.1]
    have before := agree entry (committed.ledger spared member rfl) _ found
    exact absurd before (inTime _ recorded _ found)
  | requeued found kept replay status spared => simp [replayed] at replay
  | stored absent unused status count spared delivered =>
    obtain ⟨row, known, same⟩ := good.ledgerEvent entry (committed.ledger spared.1 member rfl)
    have found := event?_of_mem good known
    rw [same, absent] at found
    cases found

end Steps

/-- In every run without replays whose failure transactions find their events
unfinished, SUCCEEDED is final. -/
theorem succeeded_is_final (svc : Service) {w w' : World}
    (reached : svc.Reaches .withoutReplay (.init Db.empty) w)
    (later : svc.Reaches .withoutReplay w w') (inTime : FailuresInTime w'.log) :
    SucceededIsFinal w w' := by
  obtain ⟨log, same, onward⟩ := reaches_stretch wf_empty reached later
  obtain ⟨-, whole⟩ := reaches_history wf_empty (reached.trans later)
  constructor
  · intro id event event' found succeeded after
    let Stays (db : Db) : Prop :=
      db.knows id ∧ ∀ event, db.event? id = some event → event.status = .succeeded
    have stays : Stays w'.db := by
      refine onward.keeps (P := Stays) ⟨Or.inl ⟨event, found⟩, ?_⟩ ?_ ?_ ?_
      · intro other there
        rw [found] at there
        cases there
        exact succeeded
      · exact fun table holds => ⟨knows_apply _ holds.1, holds.2⟩
      · exact fun ids _ holds => ⟨knows_apply _ holds.1, holds.2⟩
      · intro entry member good called committed holds
        have listed : entry ∈ w'.log := same ▸ List.mem_append_right _ member
        exact ⟨knows_after _ holds.1, fun event after =>
          committed.keeps_succeeded called (inTime entry listed) holds.1 holds.2 after⟩
    exact stays.2 event' after
  · let Agrees (db : Db) : Prop := ∀ entry ∈ db.ledger, ∀ event,
      db.event? entry.eventId = some event → event.status = .succeeded
    refine whole.keeps (P := Agrees) (by simp [Agrees, Db.empty]) ?_ ?_ ?_
    · exact fun table holds => holds
    · exact fun ids _ holds => holds
    · exact fun entry member good called committed holds =>
        committed.keeps_agreement good called (inTime entry member) holds

/-- A pass that fails and is retried to the end, with nobody else around. -/
theorem succeeded_is_final_sample : ∃ w w',
    Sample.service.Reaches .withoutReplay (.init Db.empty) w ∧
    Sample.service.Reaches .withoutReplay w w' ∧
    (w'.log.map fun entry => failuresIn entry.writes) = [[], [1], []] ∧ SucceededIsFinal w w' := by
  let first : List Action :=
    Sample.store 0 (Sample.credit "c" 100 1) ++ .spawn 1 (.process 1) :: Sample.steps 1 2 ++
    .fault 1 (integrityError "55P03" "") :: Sample.steps 1 8
  let second : List Action := .spawn 2 (.process 1) :: Sample.steps 2 12
  obtain ⟨w, w', reached, later, shown⟩ := Sample.service.reaches_test₂ .withoutReplay
    (.init Db.empty) first second
    (fun _ w' => (w'.log.map fun entry => failuresIn entry.writes) = [[], [1], []] ∧
      w'.log.all fun entry => (failuresIn entry.writes).all fun id =>
        (entry.before.event? id).all fun event => event.status ≠ .succeeded)
    (by simp [first, second, Sample.store, Sample.steps, Scope.permits, Scope.withoutReplay, Call.isReplay])
    (by decide +kernel)
  simp only [decide_eq_true_eq] at shown
  have inTime : FailuresInTime w'.log := by
    intro entry member id failed event found
    have checked := List.all_eq_true.mp (List.all_eq_true.mp shown.2 entry member) id failed
    simpa [found] using checked
  exact ⟨w, w', reached, later, shown.1, succeeded_is_final Sample.service reached later inTime⟩

/-- Worker 1 fails and rolls back, worker 2 claims the event and succeeds, and then
worker 1 records its failure. -/
theorem late_failure_overwrites : ¬ ∀ w w',
    Sample.service.Reaches .withoutReplay (.init Db.empty) w →
    Sample.service.Reaches .withoutReplay w w' → SucceededIsFinal w w' := by
  let first : List Action :=
    Sample.store 0 (Sample.credit "c" 100 1) ++ .spawn 1 (.process 1) :: Sample.steps 1 2 ++
    .fault 1 (integrityError "55P03" "") :: Sample.steps 1 1 ++ .spawn 2 (.process 1) ::
    Sample.steps 2 12
  let second : List Action := Sample.steps 1 7
  obtain ⟨w, w', reached, later, shown⟩ := Sample.service.reaches_test₂ .withoutReplay
    (.init Db.empty) first second
    (fun w w' => (w.db.event? 1).map (·.status) = some .succeeded ∧
      (w'.db.event? 1).map (·.status) = some .pending)
    (by simp [first, second, Sample.store, Sample.steps, Scope.permits, Scope.withoutReplay, Call.isReplay])
    (by decide +kernel)
  simp only [decide_eq_true_eq, Option.map_eq_some_iff] at shown
  obtain ⟨⟨event, found, succeeded⟩, event', found', pending⟩ := shown
  intro final
  have stays := (final w w' reached later).1 1 event event' found succeeded found'
  rw [pending] at stays
  cases stays

end WebhookReceiver
