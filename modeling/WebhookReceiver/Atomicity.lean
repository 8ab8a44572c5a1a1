import WebhookReceiver.Solitude

/-!
No half-applied effect.

Whatever goes wrong in the processing transaction, at whichever statement, nothing of
it is left: the process dies and the store is as it was, or the failure transaction
adds its bookkeeping for this one event (`no_half_applied_effect`).
-/

namespace WebhookReceiver

/-- The stores differ in one attempt, in the queue columns of one event, and perhaps in
a dead-letter entry for it. -/
structure FailureOnly (eventId : Nat) (db db' : Db) : Prop where
  accounts : db'.accounts = db.accounts
  ledger : db'.ledger = db.ledger
  replays : db'.replays = db.replays
  purged : db'.purged = db.purged
  attempt : ∃ attempt, attempt.eventId = eventId ∧ db'.attempts = db.attempts ++ [attempt]
  event : ∃ queue, db'.events = db.events.map fun row =>
    if row.id = eventId then { row with toEventQueue := queue } else row
  entry : db'.entries = db.entries ∨
    ∃ entry, entry.eventId = eventId ∧ db'.entries = db.entries ++ [entry]

theorem Failed.only {svc : Service} {eventId : Nat} {db : Db} {writes : List Write}
    (done : Failed svc eventId db writes) : FailureOnly eventId db (db.after writes) := by
  obtain ⟨accounts, ledger⟩ := Db.after_clerical done.clerical db
  obtain ⟨attempt, -, about, -, attempts⟩ := done.attempt
  cases done with
  | mk found next outcome recorded judged =>
    have named := event?_id found
    cases judged with
    | rescheduled retryable left start cap =>
      subst named
      exact ⟨accounts, ledger, rfl, rfl, ⟨attempt, about, attempts⟩, ⟨_, rfl⟩, Or.inl rfl⟩
    | deadLettered spent filing =>
      subst named
      rcases filing with ⟨-, rfl⟩ | ⟨-, id, at', rfl⟩
      · exact ⟨accounts, ledger, rfl, rfl, ⟨attempt, about, attempts⟩, ⟨_, rfl⟩, Or.inl rfl⟩
      · exact ⟨accounts, ledger, rfl, rfl, ⟨attempt, about, attempts⟩, ⟨_, rfl⟩, Or.inr ⟨_, rfl, rfl⟩⟩

theorem FailureOnly.congr {eventId : Nat} {db db₁ db₂ : Db} (same : SameRows db db₁)
    (failed : FailureOnly eventId db₁ db₂) : FailureOnly eventId db db₂ := by
  obtain ⟨seq, rfl⟩ := same
  exact ⟨failed.accounts, failed.ledger, failed.replays, failed.purged, failed.attempt, failed.event,
    failed.entry⟩

/-- A pass alone on any store, over any event, with exceptions striking anywhere.
Until a transaction commits the store keeps its rows, and so it does when the process
dies inside the processing transaction. When an exception has undone that transaction
and the pass returns, the store has the bookkeeping of the failure and no other change. -/
theorem no_half_applied_effect (svc : Service) {db : Db} (good : Wf db) {eventId : Nat}
    {event : EventRow} (found : db.event? eventId = some event) {strikes : Strikes} {w : World}
    (solitary : svc.Solitary (.process eventId) strikes db w) :
    (w.log = [] → SameRows db w.db) ∧
    (∀ th, w.threads 0 = some th → Trace.isOpen th.trace → SameRows db w.db ∧
      ∀ w', Txn.step svc.system w (.kill 0) = some w' → SameRows db w'.db) ∧
    ∀ th result, w.threads 0 = some th → th.prog = .done (.ok (.processed result)) →
      .rolledBack ∈ th.trace → FailureOnly eventId db w.db := by
  have quiet : w.log = [] → SameRows db w.db := solitary_quiet good solitary
  refine ⟨quiet, ?_, ?_⟩
  · intro th here still
    have clear : w.log = [] := by
      by_contra some
      obtain ⟨writes, seen⟩ := (solitary_alone found solitary).committed th here some
      obtain ⟨s, answer, same⟩ := still _ seen
      cases same
    refine ⟨quiet clear, fun w' died => ?_⟩
    cases died
    exact quiet clear
  · intro th result here returned rolled
    obtain ⟨entry, now, -, -, before, after, trace, fate⟩ := solitary_fate good found solitary here returned
    have rolled' : .rolledBack ∈ entry.trace := by
      rw [trace] at rolled
      simpa using rolled
    rw [after]
    cases fate with
    | unclaimed idle smooth wrote => exact absurd rolled' smooth
    | dealt due smooth done => exact absurd rolled' smooth
    | failed due rolled done recorded => exact done.only.congr before

/-- The balance update fails, with the account and the ledger row already written. -/
theorem no_half_applied_effect_sample : ∃ db w,
    Sample.service.Solitary (.process 1) (fun _ _ => true = true) db w ∧
    db.events.map (·.id) = [1] ∧ w.db.attempts.map (·.outcome) = [.retryableError] ∧
    FailureOnly 1 db w.db := by
  obtain ⟨begun, stored, shown⟩ := Sample.service.reaches_test .any (.init Db.empty)
    (Sample.store 0 (Sample.credit "c" 100 1))
    (fun begun => begun.db.events.map (·.id) = [1] ∧ (begun.db.event? 1).isSome ∧
      ((Txn.runLonely Sample.service.system 0 (fun _ => true)
        (Txn.World.begin Sample.service.system begun.db 0 (.process 1))
        (Sample.steps 0 7 ++ .fault 0 (integrityError "55P03" "") :: Sample.steps 0 8)).any fun w =>
          w.db.attempts.map (·.outcome) = [.retryableError] ∧ (passResult w).isSome ∧
          (w.threads 0).any fun th => th.trace.any fun | .rolledBack => true | _ => false) = true)
    (fun action _ => Scope.any_permits action) (by decide +kernel)
  simp only [decide_eq_true_eq, Option.isSome_iff_exists] at shown
  obtain ⟨events, ⟨event, found⟩, ran⟩ := shown
  obtain ⟨w, solitary, shown⟩ := solitary_test _ _ _ _ _ _ ran
  simp only [decide_eq_true_eq, Option.isSome_iff_exists, Option.any_eq_true] at shown
  obtain ⟨outcomes, ⟨result, returned⟩, th, here, undone⟩ := shown
  obtain ⟨th', here', ended⟩ := passResult_some returned
  obtain rfl : th' = th := Option.some.inj (here'.symm.trans here)
  have rolled : .rolledBack ∈ th'.trace := by
    obtain ⟨ev, member, kind⟩ := List.any_eq_true.mp undone
    cases ev with
    | rolledBack => exact member
    | _ => cases kind
  refine ⟨begun.db, w, solitary, events, outcomes, ?_⟩
  exact (no_half_applied_effect Sample.service (reaches_history wf_empty stored).1 found solitary).2.2
    th' result here ended rolled

end WebhookReceiver
