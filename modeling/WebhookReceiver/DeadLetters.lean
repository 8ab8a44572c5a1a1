import WebhookReceiver.RetryBudget

/-!
What a dead-letter entry shows of its event.

- `queue.dead_letter` inserts `ON CONFLICT DO NOTHING`. An entry that somebody has
  resolved or discarded stays as it is, and a later failure of the event is not seen
  (`dead_letter_open_iff`, `failure_behind_resolved_entry`).
- A replay resolves the entry also when it found nothing to claim, because the worker
  that had the event may still fail (`resolved_means_dealt_with`,
  `skipped_replay_resolves`).
-/

namespace WebhookReceiver

/-! ## Dead-lettering -/

def Write.deadLetters? : Write → Option Nat
  | .updateEvent id queue => if queue.status = .deadLettered then some id else none
  | _ => none

/-- The events that a transaction moves to DEAD_LETTERED. -/
def deadLettersIn (writes : List Write) : List Nat := writes.filterMap Write.deadLetters?

@[simp] theorem deadLettersIn_nil : deadLettersIn [] = [] := rfl

@[simp] theorem deadLettersIn_cons (write : Write) (rest : List Write) :
    deadLettersIn (write :: rest) = write.deadLetters?.toList ++ deadLettersIn rest := by
  simp only [deadLettersIn, List.filterMap_cons]
  cases write.deadLetters? <;> rfl

@[simp] theorem deadLettersIn_append (writes rest : List Write) :
    deadLettersIn (writes ++ rest) = deadLettersIn writes ++ deadLettersIn rest :=
  List.filterMap_append

theorem deadLettersIn_business {writes : List Write}
    (business : ∀ write ∈ writes, write.business = true) : deadLettersIn writes = [] := by
  refine List.filterMap_eq_nil_iff.mpr fun write member => ?_
  have moves := business write member
  cases write with
  | updateEvent id queue => cases moves
  | _ => rfl

theorem Moves.quiet {db : Db} {target : DlqStatus} {row : EntryRow} {writes : List Write}
    (moves : Moves db target row writes) : deadLettersIn writes = [] := by
  cases moves with
  | move member legal => rfl

section DeadLetter

variable {svc : Service} {scope : Scope} {call : Call} {trace : Trace} {db : Db} {writes : List Write}

/-- What dead-lettering an event does to the entries. -/
theorem Failed.filed {eventId id : Nat} (done : Failed svc eventId db writes)
    (member : id ∈ deadLettersIn writes) :
    ((∃ row ∈ db.entries, row.eventId = id) ∧ (db.after writes).entries = db.entries) ∨
      ((∀ row ∈ db.entries, row.eventId ≠ id) ∧ ∃ row : EntryRow, row.eventId = id ∧
        row.status = .needsReview ∧ (db.after writes).entries = db.entries ++ [row]) := by
  cases done with
  | @mk event exc attempt verdict found next outcome recorded judged =>
    have same := event?_id found
    cases judged with
    | rescheduled retryable left start cap => simp [Write.deadLetters?] at member
    | deadLettered spent filing =>
      rcases filing with ⟨present, rfl⟩ | ⟨absent, entryId, at', rfl⟩
      · obtain rfl : id = event.id := by simpa [Write.deadLetters?] using member
        exact Or.inl ⟨present, rfl⟩
      · obtain rfl : id = event.id := by simpa [Write.deadLetters?] using member
        exact Or.inr ⟨absent, ⟨⟨.needsReview, none, none⟩, entryId, event.id, _, _, at'⟩, rfl, rfl, rfl⟩

/-- Only the failure transaction of a pass dead-letters. -/
theorem Committed.deadLetters (committed : Committed svc scope call trace db writes) {id : Nat}
    (member : id ∈ deadLettersIn writes) : ∃ eventId, Failed svc eventId db writes := by
  cases committed with
  | failed passing done => exact ⟨_, done⟩
  | idle => cases member
  | dealt passing done =>
    cases done with
    | mk found pending due dispatched applied next outcome =>
      simp [deadLettersIn_business applied.business, Write.deadLetters?] at member
  | started replay done =>
    cases done with
    | requeued found marks =>
      rcases marks with rfl | ⟨row, about, moves⟩
      · cases member
      · simp [Write.deadLetters?, moves.quiet] at member
  | finished replay done =>
    cases done with
    | finished about honest settles =>
      rcases settles with rfl | ⟨row, about, ⟨-, moves⟩ | ⟨-, moves⟩⟩
      · cases member
      · simp [Write.deadLetters?, moves.quiet] at member
      · simp [Write.deadLetters?, moves.quiet] at member
  | moved triage named done => simp [done.quiet] at member
  | stored stores answered done => cases done <;> cases member
  | purged purge done =>
    have quiet : deadLettersIn writes = [] := by
      refine List.filterMap_eq_nil_iff.mpr fun write there => ?_
      cases done write there <;> rfl
    simp [quiet] at member

end DeadLetter

/-- A pass that dead-letters an event leaves the event's entry open exactly if no
terminal entry of the event was there before. -/
theorem dead_letter_open_iff (svc : Service) {w : World}
    (reached : svc.Reaches .any (.init Db.empty) w) {entry : Commit} (member : entry ∈ w.log) {id : Nat}
    (dead : id ∈ deadLettersIn entry.writes) :
    (∃ row, (entry.before.after entry.writes).entryOf? id = some row ∧ row.status.isOpen = true) ↔
      ¬ ∃ row, entry.before.entryOf? id = some row ∧ row.status.terminal = true := by
  obtain ⟨-, past⟩ := reaches_history wf_empty reached
  obtain ⟨before, after, -, -, good, called, described, -⟩ := past.at member
  obtain ⟨eventId, failed⟩ := described.cases.deadLetters dead
  rcases failed.filed dead with ⟨⟨row, there, rfl⟩, same⟩ | ⟨absent, row, rfl, review, added⟩
  · have found : entry.before.entryOf? row.eventId = some row := entryOf?_of_mem good there
    have still : (entry.before.after entry.writes).entryOf? row.eventId = some row := by
      simp only [Db.entryOf?, same]
      exact found
    simp only [found, still, Option.some.injEq, exists_eq_left', DlqStatus.isOpen]
    cases row.status.terminal <;> simp
  · have none : entry.before.entryOf? row.eventId = none := by
      simpa [Db.entryOf?] using absent
    have filed : (entry.before.after entry.writes).entryOf? row.eventId = some row := by
      have nobody := none
      simp only [Db.entryOf?] at nobody ⊢
      rw [added, List.find?_append, nobody]
      simp
    simp [none, filed, review, DlqStatus.isOpen, DlqStatus.terminal]

/-- The steps of a pass over an event without a handler: it fails in the processing
transaction and is dead-lettered in the next one. -/
def Sample.failingPass (t : Nat) : List Action := Sample.steps t 13

/-- A dead-lettered event is replayed and fails for good once more: its entry, which the replay
has marked, stays open. -/
theorem dead_letter_open_sample : ∃ w, Sample.service.Reaches .any (.init Db.empty) w ∧
    ∃ entry ∈ w.log, 1 ∈ deadLettersIn entry.writes ∧
      (entry.before.entryOf? 1).map (·.status) = some .replaying ∧
      ∃ row, (entry.before.after entry.writes).entryOf? 1 = some row ∧ row.status.isOpen = true := by
  let schedule : List Action :=
    Sample.store 0 (Sample.unknown "u") ++ .spawn 1 (.process 1) :: Sample.failingPass 1 ++
    .spawn 2 (.replay 1 "operator" none) :: Sample.steps 2 29
  obtain ⟨w, reached, shown⟩ := Sample.service.reaches_test .any (.init Db.empty) schedule
    (fun w => w.log.any fun entry => 1 ∈ deadLettersIn entry.writes ∧
      (entry.before.entryOf? 1).map (·.status) = some .replaying)
    (fun action _ => Scope.any_permits action) (by decide +kernel)
  obtain ⟨entry, member, checked⟩ := List.any_eq_true.mp shown
  obtain ⟨dead, replaying⟩ := of_decide_eq_true checked
  have open' : ¬ ∃ row, entry.before.entryOf? 1 = some row ∧ row.status.terminal = true := by
    rintro ⟨row, found, ended⟩
    rw [found, Option.map_some, Option.some.injEq] at replaying
    rw [replaying] at ended
    cases ended
  exact ⟨w, reached, entry, member, dead, replaying,
    (dead_letter_open_iff Sample.service reached member dead).mpr open'⟩

/-- The event fails, an operator resolves its entry, a replay puts the event back, and
its pass fails again: the event is DEAD_LETTERED and its entry RESOLVED. -/
theorem failure_behind_resolved_entry : ¬ ∀ w, Sample.service.Reaches .any (.init Db.empty) w →
    ∀ entry ∈ w.log, ∀ id ∈ deadLettersIn entry.writes,
      ∃ row, (entry.before.after entry.writes).entryOf? id = some row ∧ row.status.isOpen = true := by
  let schedule : List Action :=
    Sample.store 0 (Sample.unknown "u") ++ .spawn 1 (.process 1) :: Sample.failingPass 1 ++
    .spawn 2 (.triage 1 .resolve (some "done by hand")) :: Sample.steps 2 6 ++
    .spawn 3 (.replay 1 "operator" none) :: Sample.steps 3 5 ++ Sample.failingPass 3
  obtain ⟨w, reached, shown⟩ := Sample.service.reaches_test .any (.init Db.empty) schedule
    (fun w => w.log.any fun entry => 1 ∈ deadLettersIn entry.writes ∧
      ((entry.before.after entry.writes).entryOf? 1).map (·.status) = some .resolved)
    (fun action _ => Scope.any_permits action) (by decide +kernel)
  obtain ⟨entry, member, checked⟩ := List.any_eq_true.mp shown
  simp only [decide_eq_true_eq, Option.map_eq_some_iff] at checked
  obtain ⟨dead, row, found, resolved⟩ := checked
  intro visible
  obtain ⟨row', found', isOpen⟩ := visible w reached entry member 1 dead
  rw [found] at found'
  cases found'
  simp [resolved, DlqStatus.isOpen, DlqStatus.terminal] at isOpen

/-! ## Settling a replay -/

def Write.resolves? : Write → Option Nat
  | .updateEntry id triage => if triage.status = .resolved then some id else none
  | _ => none

/-- The entries that a transaction moves to RESOLVED. -/
def resolvesIn (writes : List Write) : List Nat := writes.filterMap Write.resolves?

@[simp] theorem resolvesIn_nil : resolvesIn [] = [] := rfl

@[simp] theorem resolvesIn_cons (write : Write) (rest : List Write) :
    resolvesIn (write :: rest) = write.resolves?.toList ++ resolvesIn rest := by
  simp only [resolvesIn, List.filterMap_cons]
  cases write.resolves? <;> rfl

/-- The events whose entry a replay moves from REPLAYING to RESOLVED. -/
def settledIn (entry : Commit) : List Nat :=
  if entry.call.isReplay then
    (entry.before.entries.filter fun row =>
      row.status = .replaying ∧ row.id ∈ resolvesIn entry.writes).map (·.eventId)
  else []

/-- A replay that claimed nothing resolves the entry only of a SUCCEEDED event. -/
def SkipsAreSucceeded (log : List Commit) : Prop :=
  ∀ entry ∈ log, ∀ id ∈ settledIn entry, Trace.unclaimed id entry.trace = true →
    ∀ event, entry.before.event? id = some event → event.status = .succeeded

/-- The event has an attempt that succeeded or found it superseded. -/
def ReallyDealtWith (db : Db) (id : Nat) : Prop :=
  ∃ attempt ∈ db.attempts, attempt.eventId = id ∧
    (attempt.outcome = .succeeded ∨ attempt.outcome = .superseded)

theorem reallyDealtWith_iff {db : Db} {id : Nat} :
    ReallyDealtWith db id ↔ (Fact.dealtWith id).holds db := by
  have same : ∀ outcome : AttemptOutcome,
      (outcome = .succeeded ∨ outcome = .superseded) ↔ outcome.dealtWith = true := by
    intro outcome
    cases outcome <;> simp [AttemptOutcome.dealtWith]
  simp only [ReallyDealtWith, Fact.holds, same]

section Settling

variable {svc : Service} {call : Call} {trace : Trace} {db : Db} {writes : List Write}

theorem withoutPurge_purging : ¬ Scope.withoutPurge.purging := not_purging fun _ called => called

/-- Without retention, the attempt that made an event SUCCEEDED stays on record. -/
theorem Committed.keeps_evidence (called : call.isPurge = false)
    (committed : Committed svc .withoutPurge call trace db writes)
    (evident : ∀ id event, db.event? id = some event → event.status = .succeeded →
      ReallyDealtWith db id) :
    ∀ id event, (db.after writes).event? id = some event → event.status = .succeeded →
      ReallyDealtWith (db.after writes) id := by
  intro id event after succeeded
  cases committed.eventStep after with
  | same before spared =>
    obtain ⟨attempt, member, about⟩ := evident id event before succeeded
    exact ⟨attempt, committed.keeps_attempts called member, about⟩
  | dealt found kept pending status count recorded =>
    obtain ⟨-, result, done⟩ := committed.dealtWith recorded
    obtain ⟨attempt, -, about, dealt, added⟩ := done.attempt
    refine reallyDealtWith_iff.mpr ⟨attempt, ?_, about, dealt⟩
    simp [added]
  | failed found kept status count recorded =>
    rcases status with ⟨pending, -⟩ | dead
    · simp [pending] at succeeded
    · simp [dead] at succeeded
  | requeued found kept replay status spared => simp [status] at succeeded
  | stored absent unused status count spared delivered => simp [status] at succeeded

theorem Moves.resolves {target : DlqStatus} {row : EntryRow} (moves : Moves db target row writes) :
    resolvesIn writes = if target = .resolved then [row.id] else [] := by
  cases moves with
  | move member legal =>
    by_cases resolved : target = .resolved <;> simp [Write.resolves?, resolved]

theorem Failed.resolves {eventId : Nat} (done : Failed svc eventId db writes) :
    resolvesIn writes = [] := by
  cases done with
  | mk found next outcome recorded judged =>
    cases judged with
    | rescheduled retryable left start cap => rfl
    | deadLettered spent filing =>
      rcases filing with ⟨-, rfl⟩ | ⟨-, id, at', rfl⟩ <;> rfl

theorem Dealt.resolves {eventId : Nat} {result : EffectResult}
    (done : Dealt svc eventId db result writes) : resolvesIn writes = [] := by
  cases done with
  | mk found pending due dispatched applied next outcome =>
    refine List.filterMap_eq_nil_iff.mpr fun write member => ?_
    rcases List.mem_append.mp member with old | new
    · have business := applied.business write old
      cases write with
      | updateEntry id triage => cases business
      | _ => rfl
    · simp only [List.mem_cons, List.not_mem_nil, or_false] at new
      rcases new with rfl | rfl <;> rfl

/-- Only the last transaction of a replay resolves an entry for it. -/
theorem Committed.settles (good : Wf db) (replayed : call.isReplay = true)
    (committed : Committed svc .withoutPurge call trace db writes) {row : EntryRow}
    (member : row ∈ db.entries) (resolved : row.id ∈ resolvesIn writes) :
    trace.unclaimed row.eventId = true ∨ (Fact.dealtWith row.eventId).holds db := by
  have sameRow : ∀ {target other written}, Moves db target other written →
      row.id ∈ resolvesIn written → other = row := by
    intro target other written moves there
    rw [moves.resolves] at there
    split at there
    · cases moves with
      | move known legal =>
        exact List.inj_on_of_nodup_map good.entryIds known member (List.mem_singleton.mp there).symm
    · cases there
  cases committed with
  | idle => cases resolved
  | dealt passing done => simp [done.resolves] at resolved
  | failed passing done => simp [done.resolves] at resolved
  | started replay done =>
    cases done with
    | requeued found marks =>
      rcases marks with rfl | ⟨other, about, moves⟩
      · cases resolved
      · simp [Write.resolves?, moves.resolves] at resolved
  | finished replay done =>
    cases done with
    | finished about honest settles =>
      rcases settles with rfl | ⟨other, about', ⟨failed, moves⟩ | ⟨fine, moves⟩⟩
      · cases resolved
      · simp [Write.resolves?, moves.resolves] at resolved
      · obtain rfl := sameRow moves (by simpa [Write.resolves?] using resolved)
        rw [about']
        exact (honest fine).imp_right fun dealt => dealt withoutPurge_purging
  | moved triage named done => simp [triage, Call.isReplay] at replayed
  | stored stores answered done => cases done <;> cases resolved
  | purged purge done => simp [purge, Call.isReplay] at replayed

end Settling

/-- In every run in which a replay that claimed nothing resolves only entries of
SUCCEEDED events, whatever a replay resolves has really been dealt with. -/
theorem resolved_means_dealt_with (svc : Service) {w : World}
    (reached : svc.Reaches .withoutPurge (.init Db.empty) w) (skips : SkipsAreSucceeded w.log) :
    ∀ entry ∈ w.log, ∀ id ∈ settledIn entry, ReallyDealtWith entry.before id := by
  intro entry member id settled
  obtain ⟨-, past⟩ := reaches_history wf_empty reached
  obtain ⟨before, after, same, earlier, good, called, described, -⟩ := past.at member
  have earlier : svc.History .withoutPurge Db.empty entry.before before := earlier
  let Evident (db : Db) : Prop := ∀ id event, db.event? id = some event →
    event.status = .succeeded → ReallyDealtWith db id
  have evident : Evident entry.before := by
    refine earlier.keeps (P := Evident) (by simp [Evident, Db.empty, Db.event?]) ?_ ?_ ?_
    · exact fun table holds => holds
    · exact fun ids purging => absurd purging withoutPurge_purging
    · exact fun other _ good called committed holds => committed.keeps_evidence called holds
  have listed := settled
  unfold settledIn at settled
  split at settled
  · rename_i replayed
    obtain ⟨row, there, rfl⟩ := List.mem_map.mp settled
    obtain ⟨there, replaying⟩ := List.mem_filter.mp there
    simp only [decide_eq_true_eq] at replaying
    rcases described.cases.settles good replayed there replaying.2 with unclaimed | dealt
    · obtain ⟨event, known, about⟩ := good.entryEvent row there
      have found := event?_of_mem good known
      rw [about] at found
      exact evident row.eventId event found (skips entry member row.eventId listed unclaimed event found)
    · exact reallyDealtWith_iff.mpr dealt
  · cases settled

/-- The event fails for good and is dead-lettered by worker 1. -/
def Sample.deadLettered : List Action :=
  Sample.store 0 (Sample.unknown "u") ++ .spawn 1 (.process 1) :: Sample.failingPass 1

/-- A credit loses its connection on the only try it has. It is replayed, and worker 3
processes it before the replay's own pass can claim it: the skip is settled rightly. -/
theorem resolved_means_dealt_with_sample : ∃ w,
    Sample.oneAttempt.Reaches .withoutPurge (.init Db.empty) w ∧ SkipsAreSucceeded w.log ∧
    ∃ entry ∈ w.log, 1 ∈ settledIn entry ∧ ReallyDealtWith entry.before 1 := by
  let schedule : List Action :=
    Sample.store 0 (Sample.credit "c" 100 1) ++ .spawn 1 (.process 1) :: Sample.steps 1 2 ++
    .fault 1 (integrityError "55P03" "") :: Sample.steps 1 8 ++
    .spawn 2 (.replay 1 "operator" none) :: Sample.steps 2 8 ++
    .spawn 3 (.process 1) :: Sample.steps 3 12 ++ Sample.steps 2 11
  obtain ⟨w, reached, shown⟩ := Sample.oneAttempt.reaches_test .withoutPurge (.init Db.empty) schedule
    (fun w => (w.log.any fun entry => 1 ∈ settledIn entry) ∧ w.log.all fun entry =>
      (settledIn entry).all fun id => (entry.before.event? id).all fun event =>
        event.status = .succeeded)
    (by simp [schedule, Sample.store, Sample.steps, Scope.permits, Scope.withoutPurge, Call.isPurge])
    (by decide +kernel)
  simp only [decide_eq_true_eq] at shown
  have skips : SkipsAreSucceeded w.log := by
    intro entry member id settled _ event found
    have checked := List.all_eq_true.mp (List.all_eq_true.mp shown.2 entry member) id settled
    simpa [found] using checked
  obtain ⟨entry, member, settled⟩ := List.any_eq_true.mp shown.1
  have settled : 1 ∈ settledIn entry := by simpa using settled
  exact ⟨w, reached, skips, entry, member, settled,
    resolved_means_dealt_with Sample.oneAttempt reached skips entry member 1 settled⟩

/-- A failing event is replayed. The replay's first transaction puts it back, worker 3
claims it before the replay's own pass does, so the replay skips it; worker 3 fails and
rolls back; the replay resolves the entry, and worker 3 records its failure. -/
theorem skipped_replay_resolves : ¬ ∀ w, Sample.service.Reaches .withoutPurge (.init Db.empty) w →
    ∀ entry ∈ w.log, ∀ id ∈ settledIn entry, ReallyDealtWith entry.before id := by
  let schedule : List Action :=
    Sample.deadLettered ++ .spawn 2 (.replay 1 "operator" none) :: Sample.steps 2 8 ++
    .spawn 3 (.process 1) :: Sample.steps 3 2 ++ Sample.steps 2 3 ++ Sample.steps 3 4 ++
    Sample.steps 2 8 ++ Sample.steps 3 7
  obtain ⟨w, reached, shown⟩ := Sample.service.reaches_test .withoutPurge (.init Db.empty) schedule
    (fun w => w.log.any fun entry => 1 ∈ settledIn entry ∧ entry.before.attempts.all fun attempt =>
      !attempt.outcome.dealtWith)
    (by simp [schedule, Sample.deadLettered, Sample.failingPass, Sample.store, Sample.steps,
      Scope.permits, Scope.withoutPurge, Call.isPurge])
    (by decide +kernel)
  obtain ⟨entry, member, checked⟩ := List.any_eq_true.mp shown
  simp only [decide_eq_true_eq] at checked
  intro dealt
  obtain ⟨attempt, there, -, done⟩ := reallyDealtWith_iff.mp (dealt w reached entry member 1 checked.1)
  have undone := List.all_eq_true.mp checked.2 attempt there
  simp [done] at undone

end WebhookReceiver
