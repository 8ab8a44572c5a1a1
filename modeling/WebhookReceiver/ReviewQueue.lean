import WebhookReceiver.Entries

/-!
The open dead-letter queue as a list of what needs a human.

`_settle_dlq` puts an entry back under review whenever the replay failed. A failure
that is retryable leaves the event PENDING, and whichever worker finishes it later
knows nothing of the entry, which stays under review for an event that is SUCCEEDED
(`review_of_succeeded_event`). A failure transaction that comes late can take an event
out of DEAD_LETTERED in the same way. Where neither happens, the queue lists
DEAD_LETTERED events only (`review_means_dead_lettered`).
-/

namespace WebhookReceiver

/-- No `replay_event` is under way. -/
def NoReplayInProgress (w : World) : Prop :=
  ∀ t th, w.threads t = some th → th.call.isReplay = true → ∃ result, th.prog = .done result

/-- Every entry under review belongs to a DEAD_LETTERED event. -/
def ReviewsAreDead (db : Db) : Prop :=
  ∀ row ∈ db.entries, row.status = .needsReview →
    ∃ event, db.event? row.eventId = some event ∧ event.status = .deadLettered

/-- A replay that puts an entry back under review finds its event DEAD_LETTERED. -/
def HandedBackDead (log : List Commit) : Prop :=
  ∀ entry ∈ log, ∀ row ∈ entry.before.entries, (row.id, .needsReview) ∈ movesIn entry.writes →
    ∀ event, entry.before.event? row.eventId = some event → event.status = .deadLettered

/-- A failure that leaves its event for another try finds no entry of it under review. -/
def RetriesUnreviewed (log : List Commit) : Prop :=
  ∀ entry ∈ log, ∀ id ∈ failuresIn entry.writes,
    (∃ event, (entry.before.after entry.writes).event? id = some event ∧ event.status = .pending) →
    ∀ row ∈ entry.before.entries, row.eventId = id → row.status ≠ .needsReview

section Steps

variable {svc : Service} {scope : Scope} {entry : Commit} {row : EntryRow}

/-- A requeued event has no entry under review. -/
theorem StartTx.unreviewed {eventId : Nat} {db : Db} {writes : List Write} (good : Wf db)
    (started : StartTx eventId db writes) (member : row ∈ db.entries) (about : row.eventId = eventId)
    (unmoved : ∀ status, (row.id, status) ∉ movesIn writes) : row.status ≠ .needsReview := by
  cases started with
  | requeued found marks unmarked =>
    rcases marks with rfl | ⟨moved, same, moves⟩
    · exact unmarked rfl row member about
    · cases moves with
      | move there legal =>
        obtain rfl := List.inj_on_of_nodup_map good.entryEvents there member (same.trans about.symm)
        exact absurd (List.mem_singleton_self _) (unmoved .replaying)

theorem Committed.keeps_reviews (good : Wf entry.before) (still : Wf (entry.before.after entry.writes))
    (committed : Committed svc scope entry.call entry.trace entry.before entry.writes)
    (handed : HandedBackDead [entry]) (retries : RetriesUnreviewed [entry])
    (dead : ReviewsAreDead entry.before) : ReviewsAreDead (entry.before.after entry.writes) := by
  intro row after review
  obtain ⟨event, known, about⟩ := still.entryEvent row after
  have found := event?_of_mem still known
  rw [about] at found
  refine ⟨event, found, ?_⟩
  cases committed.entryStep good after with
  | filed absent status unresolved failed =>
    rcases failed.left found with ⟨-, same, -⟩ | ⟨ended, -⟩
    · exact absurd rfl (absent row (same ▸ after))
    · exact ended
  | @moved before target now note member legal triaged wrote mover =>
    subst triaged
    obtain rfl : target = .needsReview := review
    rcases mover with ⟨replaying, -⟩ | ⟨-, finished⟩ | terminal
    · cases replaying
    · have same := finished.silent.2.1
      simp only [Db.event?, same] at found
      exact handed entry (List.mem_singleton_self _) before member wrote event found
    · cases terminal
  | same member unmoved =>
    obtain ⟨earlier, there, ended⟩ := dead row member review
    cases committed.eventStep found with
    | same before spared unqueued =>
      rw [there] at before
      cases before
      exact ended
    | dealt before kept pending status count recorded received unqueued =>
      rw [there] at before
      cases before
      simp [ended] at pending
    | failed before kept status count recorded received due unqueued filed =>
      rcases status with ⟨pending, -⟩ | status
      · exact absurd review (retries entry (List.mem_singleton_self _) _ recorded
          ⟨event, found, pending⟩ row member rfl)
      · exact status
    | requeued before kept replay status spared count received wrote queued =>
      obtain ⟨-, started, -⟩ := committed.requeue queued
      exact absurd review (started.unreviewed good member rfl unmoved)
    | stored absent unused status count spared delivered due unqueued =>
      rw [there] at absent
      cases absent

end Steps

/-- In every run in which replays hand back only entries of DEAD_LETTERED events, and
retries find none under review, the open queue lists DEAD_LETTERED events only. -/
theorem review_means_dead_lettered (svc : Service) {w : World}
    (reached : svc.Reaches .any (.init Db.empty) w) (handed : HandedBackDead w.log)
    (retries : RetriesUnreviewed w.log) : ReviewsAreDead w.db := by
  obtain ⟨-, past⟩ := reaches_history wf_empty reached
  let Listed (log : List Commit) (db : Db) : Prop :=
    HandedBackDead log → RetriesUnreviewed log → ReviewsAreDead db
  have listed : Listed w.log w.db := by
    refine past.along (P := Listed) (fun _ _ => by simp [ReviewsAreDead, Db.empty]) ?_ ?_ ?_
    · exact fun table holds => holds
    · exact fun ids _ holds => holds
    · intro log entry good still called committed holds handed retries
      have last : ∀ other ∈ [entry], other ∈ log ++ [entry] := fun _ => List.mem_append_right log
      exact committed.keeps_reviews good still (fun other member => handed other (last other member))
        (fun other member => retries other (last other member))
        (holds (fun other member => handed other (List.mem_append_left _ member))
          fun other member => retries other (List.mem_append_left _ member))
  exact listed handed retries

/-- An event without a handler fails, is replayed, and fails again. -/
theorem review_means_dead_lettered_sample : ∃ w, Sample.service.Reaches .any (.init Db.empty) w ∧
    w.db.entries.map (·.status) = [.needsReview] ∧ w.db.replays.length = 1 ∧ ReviewsAreDead w.db := by
  let schedule : List Action :=
    Sample.deadLettered ++ .spawn 2 (.replay 1 "operator" none) :: Sample.steps 2 8 ++
    Sample.failingPass 2 ++ Sample.steps 2 8
  obtain ⟨w, reached, shown⟩ := Sample.service.reaches_test .any (.init Db.empty) schedule
    (fun w => (w.db.entries.map (·.status) = [.needsReview] ∧ w.db.replays.length = 1) ∧
      w.log.all fun entry => entry.before.entries.all fun row =>
        ((row.id, .needsReview) ∉ movesIn entry.writes ∨
          (entry.before.event? row.eventId).all fun event => event.status = .deadLettered) ∧
        (row.eventId ∉ failuresIn entry.writes ∨ row.status ≠ .needsReview))
    (fun action _ => Scope.any_permits action) (by decide +kernel)
  simp only [decide_eq_true_eq, List.all_eq_true, Option.all_eq_true] at shown
  obtain ⟨⟨review, replayed⟩, steps⟩ := shown
  refine ⟨w, reached, review, replayed, review_means_dead_lettered Sample.service reached ?_ ?_⟩
  · intro entry member row there moved event found
    exact ((steps entry member row there).1.resolve_left (not_not_intro moved)) event found
  · rintro entry member id failed - row there rfl
    exact (steps entry member row there).2.resolve_left (not_not_intro failed)

/-- A credit fails for good and is dead-lettered. Its replay loses the database for a
moment and leaves the event PENDING, with the entry back under review; then a worker
processes it. -/
theorem review_of_succeeded_event : ¬ ∀ w, Sample.service.Reaches .any (.init Db.empty) w →
    NoReplayInProgress w → ReviewsAreDead w.db := by
  let schedule : List Action :=
    Sample.store 0 (Sample.credit "c" 100 1) ++ .spawn 1 (.process 1) :: Sample.steps 1 2 ++
    .fault 1 (integrityError "23000" "") :: Sample.steps 1 8 ++
    .spawn 2 (.replay 1 "operator" none) :: Sample.steps 2 8 ++ Sample.steps 2 2 ++
    .fault 2 (integrityError "55P03" "") :: Sample.steps 2 16 ++
    .spawn 3 (.process 1) :: Sample.steps 3 12
  obtain ⟨w, reached, shown, absent⟩ := Sample.service.reaches_quiet .any (.init Db.empty) schedule
    (fun w => (w.db.entries.any fun row => row.eventId = 1 ∧ row.status = .needsReview) ∧
      (w.db.event? 1).map (·.status) = some .succeeded ∧
      (List.range 4).all fun t => (w.threads t).all fun th => th.prog.isDone)
    (fun action _ => Scope.any_permits action) (by decide +kernel)
  simp only [decide_eq_true_eq, List.any_eq_true, Option.map_eq_some_iff, List.all_eq_true,
    Option.all_eq_true, List.mem_range] at shown
  obtain ⟨⟨row, listed, about, review⟩, ⟨event, found, succeeded⟩, ended⟩ := shown
  intro reviewed
  have quiet : NoReplayInProgress w := by
    intro (t : Nat) th here _
    by_cases started : t < 4
    · exact Txn.Prog.isDone_iff.mp (ended t started th here)
    · have late : t ≠ 0 ∧ t ≠ 1 ∧ t ≠ 2 ∧ t ≠ 3 := by omega
      have nobody := absent t rfl (by simp [schedule, Sample.store, Sample.steps, late])
      rw [here] at nobody
      cases nobody
  obtain ⟨event', found', dead⟩ := reviewed w reached quiet row listed review
  rw [about, found] at found'
  cases found'
  simp [succeeded] at dead

end WebhookReceiver
