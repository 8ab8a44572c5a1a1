import WebhookReceiver.Counters

/-!
Nothing that was acknowledged is lost or left lying.

Every operation that writes the queue columns leaves an event PENDING with a deadline
that comes, SUCCEEDED, or DEAD_LETTERED with an entry for a human to see. There is no
status that a dead process could leave behind, so nothing has to be repaired after one.
-/

namespace WebhookReceiver

/-! ## The times that a deadline is counted from -/

/-- When a transaction recorded a failed attempt of the event, if it did. -/
def failedAt (id : Nat) (entry : Commit) : Option Time :=
  ((attemptsIn entry.writes).find? fun attempt =>
    attempt.eventId = id ∧ attempt.outcome.dealtWith = false).map (·.finishedAt)

/-- When the replay began whose transaction put the event back, if it did. -/
def requeuedAt (id : Nat) (entry : Commit) : Option Time :=
  if id ∈ requeuesIn entry.writes then Trace.clock entry.trace else none

/-- The time of the last transaction that has one. -/
def lastTime (time : Commit → Option Time) (log : List Commit) : Option Time :=
  log.reverse.findSome? time

/-- The latest of an event's reception, its last recorded failure and its last requeue. -/
def latestTouch (log : List Commit) (id : Nat) (receivedAt : Time) : Time :=
  max receivedAt (max ((lastTime (failedAt id) log).getD receivedAt)
    ((lastTime (requeuedAt id) log).getD receivedAt))

theorem lastTime_append (time : Commit → Option Time) (log : List Commit) (entry : Commit) :
    lastTime time (log ++ [entry]) = (time entry).or (lastTime time log) := by
  simp only [lastTime, List.reverse_append, List.reverse_cons, List.reverse_nil, List.nil_append,
    List.singleton_append, List.findSome?_cons]
  cases time entry <;> rfl

theorem failedAt_none {id : Nat} {entry : Commit} (spared : id ∉ failuresIn entry.writes) :
    failedAt id entry = none := by
  simp only [failedAt, Option.map_eq_none_iff, List.find?_eq_none, decide_eq_true_eq]
  rintro attempt member ⟨about, failed⟩
  refine spared (List.mem_map.mpr ⟨attempt, List.mem_filter.mpr ⟨member, ?_⟩, about⟩)
  simp [failed]

theorem latestTouch_spared {log : List Commit} {entry : Commit} {id : Nat} {receivedAt : Time}
    (spared : id ∉ failuresIn entry.writes) (unqueued : id ∉ requeuesIn entry.writes) :
    latestTouch (log ++ [entry]) id receivedAt = latestTouch log id receivedAt := by
  simp only [latestTouch, lastTime_append, failedAt_none spared, requeuedAt, if_neg unqueued, Option.none_or]

theorem latestTouch_received (log : List Commit) (id : Nat) (receivedAt : Time) :
    receivedAt ≤ latestTouch log id receivedAt :=
  le_max_left _ _

theorem latestTouch_failed {log : List Commit} {entry : Commit} {id : Nat} {receivedAt time : Time}
    (failed : failedAt id entry = some time) : time ≤ latestTouch (log ++ [entry]) id receivedAt := by
  simp only [latestTouch, lastTime_append, failed, Option.some_or, Option.getD_some]
  exact le_max_of_le_right (le_max_left _ _)

theorem latestTouch_requeued {log : List Commit} {entry : Commit} {id : Nat} {receivedAt time : Time}
    (requeued : requeuedAt id entry = some time) :
    time ≤ latestTouch (log ++ [entry]) id receivedAt := by
  simp only [latestTouch, lastTime_append, requeued, Option.some_or, Option.getD_some]
  exact le_max_of_le_right (le_max_right _ _)

theorem timedelta_cap_nonneg (settings : Settings) : 0 ≤ timedelta settings.backoffCapSeconds :=
  timedelta_nonneg (settings.base_positive.le.trans settings.cap_bounds_base)

/-! ## The entry of an event -/

theorem purged_after {writes : List Write} {db : Db} {id : Nat}
    (gone : id ∈ db.purged ∨ Write.deleteEvent id ∈ writes) : id ∈ (db.after writes).purged := by
  induction writes generalizing db with
  | nil => exact gone.resolve_right List.not_mem_nil
  | cons write rest ih =>
    refine ih ?_
    rcases gone with before | now
    · refine Or.inl ?_
      cases write with
      | deleteEvent target => exact List.mem_cons_of_mem _ before
      | _ => exact before
    · rcases List.mem_cons.mp now with rfl | later
      · exact Or.inl List.mem_cons_self
      · exact Or.inr later

/-- An event that nobody deletes stays, and what was delivered never changes. -/
theorem event_after {writes : List Write} {db : Db} {id : Nat} {event : EventRow}
    (kept : Write.deleteEvent id ∉ writes) (found : db.event? id = some event) :
    ∃ event', (db.after writes).event? id = some event' ∧
      event'.toIncomingEvent = event.toIncomingEvent := by
  induction writes generalizing db event with
  | nil => exact ⟨event, found, rfl⟩
  | cons write rest ih =>
    have first : Write.deleteEvent id ≠ write := fun same => kept (same ▸ List.mem_cons_self)
    have others : Write.deleteEvent id ∉ rest := fun member => kept (List.mem_cons_of_mem _ member)
    have lookup := event?_apply write db id
    rw [found] at lookup
    cases write with
    | updateEvent target queue =>
      obtain ⟨event', after, same⟩ := ih others lookup
      refine ⟨event', after, same.trans ?_⟩
      by_cases hit : event.id = target <;> simp [hit]
    | deleteEvent target =>
      have other : id ≠ target := fun same => first (by rw [same])
      refine ih others (lookup.trans ?_)
      simp [Write.onEvent, other]
    | _ => exact ih others lookup

/-- An entry goes only with its event. -/
theorem hasEntry_after {writes : List Write} {db : Db} {id : Nat}
    (kept : Write.deleteEvent id ∉ writes) (filed : ∃ row ∈ db.entries, row.eventId = id) :
    ∃ row ∈ (db.after writes).entries, row.eventId = id := by
  induction writes generalizing db with
  | nil => exact filed
  | cons write rest ih =>
    have first : Write.deleteEvent id ≠ write := fun same => kept (same ▸ List.mem_cons_self)
    refine ih (fun member => kept (List.mem_cons_of_mem _ member)) ?_
    obtain ⟨row, member, about⟩ := filed
    cases write with
    | deleteEvent target =>
      have other : row.eventId ≠ target := fun same => first (by rw [← about, same])
      exact ⟨row, List.mem_filter.mpr ⟨member, by simpa using other⟩, about⟩
    | insertEntry new => exact ⟨row, List.mem_append_left _ member, about⟩
    | updateEntry target triage =>
      refine ⟨_, List.mem_map_of_mem member, ?_⟩
      by_cases same : row.id = target <;> simp [same, about]
    | _ => exact ⟨row, member, about⟩

theorem entries_one {db : Db} (good : Wf db) {id : Nat} (filed : ∃ row ∈ db.entries, row.eventId = id) :
    (db.entries.filter fun row => row.eventId = id).length = 1 := by
  obtain ⟨row, member, rfl⟩ := filed
  have nodup : ((db.entries.filter fun other => other.eventId = row.eventId).map (·.eventId)).Nodup :=
    good.entryEvents.sublist (List.filter_sublist.map _)
  have same : (db.entries.filter fun other => other.eventId = row.eventId).map (·.eventId) =
      List.replicate (db.entries.filter fun other => other.eventId = row.eventId).length row.eventId := by
    refine List.eq_replicate_iff.mpr ⟨List.length_map _, fun id listed => ?_⟩
    obtain ⟨other, there, rfl⟩ := List.mem_map.mp listed
    simpa using (List.mem_filter.mp there).2
  rw [same, List.nodup_replicate] at nodup
  have mine : row ∈ db.entries.filter fun other => other.eventId = row.eventId :=
    List.mem_filter.mpr ⟨member, by simp⟩
  have positive := List.length_pos_of_mem mine
  omega

/-! ## Custody -/

/-- The event waits for a worker and is due in time, or it has ended well, or it has
its one entry in the dead-letter queue. -/
structure InCustody (svc : Service) (log : List Commit) (db : Db) (id : Nat) (event : EventRow) :
    Prop where
  status : event.status = .pending ∨ event.status = .succeeded ∨ event.status = .deadLettered
  filed : event.status = .deadLettered → (db.entries.filter fun row => row.eventId = id).length = 1
  due : event.status = .pending →
    event.nextAttemptAt ≤ latestTouch log id event.receivedAt + timedelta svc.settings.backoffCapSeconds

section Steps

variable {svc : Service} {scope : Scope} {db : Db} {id : Nat} {event : EventRow}

theorem Committed.keeps_custody {log : List Commit} {entry : Commit}
    (still : Wf (entry.before.after entry.writes))
    (committed : Committed svc scope entry.call entry.trace entry.before entry.writes)
    (held : ∀ id event, entry.before.event? id = some event → InCustody svc log entry.before id event)
    (after : (entry.before.after entry.writes).event? id = some event) :
    InCustody svc (log ++ [entry]) (entry.before.after entry.writes) id event := by
  have cap := timedelta_cap_nonneg svc.settings
  have received := latestTouch_received (log ++ [entry]) id event.receivedAt
  cases committed.eventStep after with
  | same before spared unqueued =>
    obtain ⟨status, filed, due⟩ := held id event before
    refine ⟨status, fun dead => ?_, fun pending => ?_⟩
    · have present : Write.deleteEvent id ∉ entry.writes := fun deleted => by
        have gone : id ∈ (entry.before.after entry.writes).purged := purged_after (Or.inr deleted)
        have there := List.mem_of_find?_eq_some after
        exact still.purgedGone event there (event?_id after ▸ gone)
      have one := filed dead
      obtain ⟨row, member⟩ := List.exists_mem_of_length_pos (Nat.lt_of_lt_of_eq Nat.one_pos one.symm)
      obtain ⟨member, about⟩ := List.mem_filter.mp member
      exact entries_one still (hasEntry_after present ⟨row, member, by simpa using about⟩)
    · rw [latestTouch_spared spared.2 unqueued]
      exact due pending
  | dealt found kept pending status count recorded received unqueued =>
    exact ⟨Or.inr (Or.inl status), by simp [status], by simp [status]⟩
  | failed found kept status count recorded received due unqueued filed =>
    refine ⟨status.elim (fun pending => Or.inl pending.1) (fun dead => Or.inr (Or.inr dead)),
      fun dead => entries_one still (filed dead), fun pending => ?_⟩
    obtain ⟨attempt, member, about, failed, inTime⟩ := due pending
    have time : failedAt id entry = some attempt.finishedAt := by
      rcases committed.attempts with ⟨silent, -⟩ | ⟨only, one, -⟩
      · simp [silent] at member
      · rw [one, List.mem_singleton] at member
        subst member
        simp [failedAt, one, about, failed]
    exact inTime.trans (Int.add_le_add_right (latestTouch_failed time) _)
  | requeued found kept replay status spared count received wrote queued =>
    refine ⟨Or.inl status, by simp [status], fun _ => ?_⟩
    obtain ⟨-, -, clocked⟩ := committed.requeue queued
    have time : requeuedAt id entry = some event.nextAttemptAt := by
      rw [requeuedAt, if_pos queued]
      exact clocked _ wrote
    exact le_add_of_le_of_nonneg (latestTouch_requeued time) cap
  | stored absent unused status count spared delivered due unqueued =>
    exact ⟨Or.inl status, by simp [status], fun _ => le_add_of_le_of_nonneg (due ▸ received) cap⟩

theorem Committed.purges {call : Call} {trace : Trace} {writes : List Write}
    (called : call.isPurge = true) (committed : Committed svc scope call trace db writes) :
    ∀ write ∈ writes, Purges db write := by
  cases call with
  | purge olderThan =>
    cases committed with
    | purged purge done => exact done
    | idle passing => cases passing
    | dealt passing done => cases passing
    | failed passing done => cases passing
    | started replay done => cases replay
    | finished replay done => cases replay
    | moved triage named done => cases triage
    | stored stores answered done => exact stores.elim
  | _ => cases called

/-- A transaction keeps an event, or it is retention and the event was SUCCEEDED. -/
theorem Committed.keeps_or_purges {call : Call} {trace : Trace} {writes : List Write}
    (committed : Committed svc scope call trace db writes) (found : db.event? id = some event) :
    (∃ event', (db.after writes).event? id = some event' ∧
      event'.toIncomingEvent = event.toIncomingEvent) ∨
    call.isPurge = true ∧ .deleteEvent id ∈ writes ∧
      ∃ row, db.event? id = some row ∧ row.status = .succeeded := by
  by_cases deleted : Write.deleteEvent id ∈ writes
  · cases called : call.isPurge with
    | false => exact Or.inl (committed.keeps_event called found)
    | true =>
      refine Or.inr ⟨rfl, deleted, ?_⟩
      generalize same : Write.deleteEvent id = write at deleted
      cases committed.purges called write deleted with
      | attempts => cases same
      | @event row cutoff there expired free =>
        cases same
        have ended : row.status = .succeeded := by
          simp only [EventRow.expired, decide_eq_true_eq] at expired
          exact expired.1
        exact ⟨row, there, ended⟩
  · exact Or.inl (event_after deleted found)

end Steps

/-- Once its deadline has come, the event is handed to whoever claims it first. -/
theorem claim_due {svc : Service} {db : Db} {id : Nat} {event : EventRow}
    (found : db.event? id = some event) (pending : event.status = .pending)
    {avail : Lock → Txn.Mode → Bool} {input : Input} {now : Time} (due : event.nextAttemptAt ≤ now)
    (free : avail (.eventRow id) .excl = true) :
    ∃ reply, svc.system.exec avail input db (.claim id now) = some reply ∧
      reply.answer = .ok (some event.toDomain) := by
  refine ⟨{ answer := .ok (some event.toDomain), locks := [(.eventRow id, .excl)] }, ?_, rfl⟩
  change Stmt.exec avail input db (.claim id now) = _
  simp [Stmt.exec, found, pending, due, free, read]

/-- The event can be claimed by anybody from the time on by which it is due. -/
def ClaimableInTime (svc : Service) (w : World) (id : Nat) (event : EventRow) : Prop :=
  event.status = .pending → ∀ avail input now,
    latestTouch w.log id event.receivedAt + timedelta svc.settings.backoffCapSeconds ≤ now →
    avail (.eventRow id) .excl = true →
    ∃ reply, svc.system.exec avail input w.db (.claim id now) = some reply ∧
      reply.answer = .ok (some event.toDomain)

/-- An event that is there stays there as it was delivered, unless retention has
removed it when it was SUCCEEDED. -/
def NothingLost (w w' : World) : Prop :=
  ∀ id event, w.db.event? id = some event →
    (∃ event', w'.db.event? id = some event' ∧ event'.toIncomingEvent = event.toIncomingEvent) ∨
      ∃ entry ∈ w'.log, entry.call.isPurge = true ∧ .deleteEvent id ∈ entry.writes ∧
        ∃ row, entry.before.event? id = some row ∧ row.status = .succeeded

/-- In every run, every event is in custody in every state, and stays in custody. -/
theorem events_in_custody (svc : Service) {w : World}
    (reached : svc.Reaches .any (.init Db.empty) w) :
    (∀ id event, w.db.event? id = some event →
      InCustody svc w.log w.db id event ∧ ClaimableInTime svc w id event) ∧
    ∀ w', svc.Reaches .any w w' → NothingLost w w' := by
  constructor
  · obtain ⟨-, past⟩ := reaches_history wf_empty reached
    let AllHeld (log : List Commit) (db : Db) : Prop :=
      ∀ id event, db.event? id = some event → InCustody svc log db id event
    have held : AllHeld w.log w.db := by
      refine past.along (P := AllHeld) (by simp [AllHeld, Db.empty, Db.event?]) ?_ ?_ ?_
      · exact fun table holds id event found =>
          ⟨(holds id event found).status, (holds id event found).filed, (holds id event found).due⟩
      · exact fun ids _ holds id event found =>
          ⟨(holds id event found).status, (holds id event found).filed, (holds id event found).due⟩
      · exact fun log entry good still called committed holds id event after =>
          committed.keeps_custody still holds after
    exact fun id event found => ⟨held id event found, fun pending avail input now late free =>
      claim_due found pending (((held id event found).due pending).trans late) free⟩
  · intro w' later id event found
    obtain ⟨log, same, onward⟩ := reaches_stretch wf_empty reached later
    let Kept (log : List Commit) (db : Db) : Prop :=
      (∃ event', db.event? id = some event' ∧ event'.toIncomingEvent = event.toIncomingEvent) ∨
        ∃ entry ∈ log, entry.call.isPurge = true ∧ .deleteEvent id ∈ entry.writes ∧
          ∃ row, entry.before.event? id = some row ∧ row.status = .succeeded
    have kept : Kept log w'.db := by
      refine onward.along (P := Kept) (Or.inl ⟨event, found, rfl⟩) ?_ ?_ ?_
      · exact fun table holds => holds
      · exact fun ids _ holds => holds
      · rintro log entry good still called committed (⟨event', there, delivered⟩ | ⟨other, member, gone⟩)
        · rcases committed.keeps_or_purges there with ⟨event'', after, same⟩ | gone
          · exact Or.inl ⟨event'', after, same.trans delivered⟩
          · exact Or.inr ⟨entry, List.mem_append_right _ (List.mem_singleton_self _), gone⟩
        · exact Or.inr ⟨other, List.mem_append_left _ member, gone⟩
    rcases kept with there | ⟨entry, member, gone⟩
    · exact Or.inl there
    · exact Or.inr ⟨entry, same ▸ List.mem_append_right _ member, gone⟩

/-- Worker 1 fails on a credit, worker 2 dies in the middle of it, and the event waits
for the next one. A second event is dead-lettered. -/
theorem events_in_custody_sample : ∃ w, Sample.service.Reaches .any (.init Db.empty) w ∧
    (w.db.events.map (·.status)) = [.pending, .deadLettered] ∧
    (∀ id event, w.db.event? id = some event →
      InCustody Sample.service w.log w.db id event ∧ ClaimableInTime Sample.service w id event) ∧
    ∀ w', Sample.service.Reaches .any w w' → NothingLost w w' := by
  let schedule : List Action :=
    Sample.store 0 (Sample.credit "c" 100 1) ++ .spawn 1 (.process 1) :: Sample.steps 1 2 ++
    .fault 1 (integrityError "55P03" "") :: Sample.steps 1 8 ++ .spawn 2 (.process 1) ::
    Sample.steps 2 7 ++ .kill 2 :: Sample.store 3 (Sample.unknown "u") ++
    .spawn 4 (.process 2) :: Sample.failingPass 4
  obtain ⟨w, reached, shown⟩ := Sample.service.reaches_test .any (.init Db.empty) schedule
    (fun w => (w.db.events.map (·.status)) = [.pending, .deadLettered])
    (fun action _ => Scope.any_permits action) (by decide +kernel)
  simp only [decide_eq_true_eq] at shown
  exact ⟨w, reached, shown, events_in_custody Sample.service reached⟩

end WebhookReceiver
