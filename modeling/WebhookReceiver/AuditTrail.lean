import WebhookReceiver.Retention
import WebhookReceiver.Undisturbed

/-!
What retention takes from the operators.

The foreign keys of `dead_letter_entry` and `replay_request` cascade, so an event
that goes takes its entry and its replay requests along. An event that was
dead-lettered, replayed and then superseded is deleted like any other superseded one:
retention keeps the audit trail exactly as long as none of the events it deletes has
one (`audit_trail_kept_iff`).
-/

namespace WebhookReceiver

/-- A replay request without its attempt, which retention may set to null. -/
def ReplayRequest.unlinked (request : ReplayRequest) : ReplayRequest :=
  { request with resultingAttemptId := none }

/-- Every dead-letter entry and every replay request is still there. -/
def KeepsAudit (db later : Db) : Prop :=
  later.entries = db.entries ∧
    later.replays.map ReplayRequest.unlinked = db.replays.map ReplayRequest.unlinked

/-- The operators have had to do with the event. -/
def Db.audited (db : Db) (id : Nat) : Prop :=
  (∃ entry ∈ db.entries, entry.eventId = id) ∨ ∃ request ∈ db.replays, request.eventId = id

/-! ## The writes of retention -/

def Write.deletes? : Write → Option Nat
  | .deleteEvent id => some id
  | _ => none

/-- The events that a transaction deletes. -/
def deletedIn (writes : List Write) : List Nat := writes.filterMap Write.deletes?

theorem mem_deletedIn {writes : List Write} {id : Nat} :
    id ∈ deletedIn writes ↔ .deleteEvent id ∈ writes := by
  simp only [deletedIn, List.mem_filterMap]
  constructor
  · rintro ⟨write, member, names⟩
    cases write with
    | deleteEvent target =>
      cases names
      exact member
    | _ => cases names
  · intro member
    exact ⟨_, member, rfl⟩

/-- A write that deletes events or attempts. -/
def Write.deletion : Write → Bool
  | .deleteEvent _ | .deleteAttempts _ => true
  | _ => false

/-- What is left of entries and replay requests. -/
theorem audit_after {writes : List Write} (deletions : ∀ write ∈ writes, write.deletion = true) (db : Db) :
    (db.after writes).entries = db.entries.filter (fun entry => entry.eventId ∉ deletedIn writes) ∧
      (db.after writes).replays.map ReplayRequest.unlinked =
        (db.replays.filter fun request => request.eventId ∉ deletedIn writes).map
          ReplayRequest.unlinked := by
  induction writes generalizing db with
  | nil => simp [deletedIn]
  | cons write rest ih =>
    obtain ⟨first, others⟩ := List.forall_mem_cons.mp deletions
    obtain ⟨entries, replays⟩ := ih others (write.apply db)
    rw [Db.after_cons, entries, replays]
    cases write with
    | deleteEvent id =>
      have named (target : Nat) : target ∉ deletedIn (.deleteEvent id :: rest) ↔
          target ≠ id ∧ target ∉ deletedIn rest := by
        simp [deletedIn, Write.deletes?]
      simp only [Write.apply, List.filter_filter, named]
      constructor
      · congr 1
        funext entry
        simp [Bool.and_comm]
      · congr 2
        funext request
        simp [Bool.and_comm]
    | deleteAttempts ids =>
      have named : deletedIn (.deleteAttempts ids :: rest) = deletedIn rest := rfl
      simp only [Write.apply, named, List.filter_map, List.map_map]
      exact ⟨trivial, rfl⟩
    | _ => cases first

/-- A deleted event is gone. -/
theorem event?_deleted {writes : List Write} (deletions : ∀ write ∈ writes, write.deletion = true)
    {db : Db} {id : Nat} (gone : db.event? id = none ∨ .deleteEvent id ∈ writes) :
    (db.after writes).event? id = none := by
  induction writes generalizing db with
  | nil => exact gone.resolve_right List.not_mem_nil
  | cons write rest ih =>
    obtain ⟨first, others⟩ := List.forall_mem_cons.mp deletions
    refine ih others ?_
    rw [event?_apply]
    cases write with
    | deleteEvent target =>
      by_cases same : id = target
      · simp [Write.onEvent, same]
      · refine gone.imp (fun absent => by simp [Write.onEvent, absent]) fun listed => ?_
        exact (List.mem_cons.mp listed).resolve_left fun named => same (by cases named; rfl)
    | deleteAttempts ids =>
      refine gone.imp (fun absent => absent) fun listed => ?_
      exact (List.mem_cons.mp listed).resolve_left fun named => by cases named
    | _ => cases first

/-- The audit trail survives exactly if none of the deleted events has one. -/
theorem keepsAudit_iff {writes : List Write} (deletions : ∀ write ∈ writes, write.deletion = true)
    (db : Db) : KeepsAudit db (db.after writes) ↔ ∀ id ∈ deletedIn writes, ¬ db.audited id := by
  obtain ⟨entries, replays⟩ := audit_after deletions db
  rw [KeepsAudit, entries, replays]
  constructor
  · rintro ⟨kept, kept'⟩ id deleted (⟨entry, member, rfl⟩ | ⟨request, member, rfl⟩)
    · have stays := List.filter_eq_self.mp kept entry member
      simp [deleted] at stays
    · have lengths := congrArg List.length kept'
      simp only [List.length_map] at lengths
      have stays := List.length_filter_eq_length_iff.mp lengths request member
      simp [deleted] at stays
  · intro spared
    constructor
    · refine List.filter_eq_self.mpr fun entry member => decide_eq_true fun deleted => ?_
      exact spared _ deleted (Or.inl ⟨entry, member, rfl⟩)
    · congr 1
      refine List.filter_eq_self.mpr fun request member => decide_eq_true fun deleted => ?_
      exact spared _ deleted (Or.inr ⟨request, member, rfl⟩)

theorem purges_deletion {db : Db} {writes : List Write} (purges : ∀ write ∈ writes, Purges db write) :
    ∀ write ∈ writes, write.deletion = true := by
  intro write member
  cases purges write member with
  | attempts => rfl
  | event found expired free => rfl

/-! ## The procedure, alone -/

/-- The events that the second `DELETE` goes through. -/
def Db.purgeable (db : Db) (cutoff : Time) : List Nat :=
  (db.events.filter fun row => row.expired cutoff && (db.ledgerOf? row.id).isNone).map (·.id)

theorem mem_purgeable {db : Db} (good : Wf db) {cutoff : Time} {id : Nat} :
    id ∈ db.purgeable cutoff ↔ ∃ row, db.event? id = some row ∧ row.expired cutoff = true ∧
      ∀ posted ∈ db.ledger, posted.eventId ≠ id := by
  simp only [Db.purgeable, List.mem_map, List.mem_filter, Bool.and_eq_true]
  constructor
  · rintro ⟨row, ⟨member, expired, free⟩, rfl⟩
    refine ⟨row, event?_of_mem good member, expired, ?_⟩
    simpa [Db.ledgerOf?] using free
  · rintro ⟨row, found, expired, free⟩
    refine ⟨row, ⟨List.mem_of_find?_eq_some found, expired, ?_⟩, event?_id found⟩
    rw [event?_id found]
    simpa [Db.ledgerOf?] using free

section Alone

variable (svc : Service) (input : Input) {db : Db}

theorem solo_purgeEach {cutoff : Time} {ids : List Nat} {writes : List Write} (distinct : ids.Nodup)
    (each : ∀ id ∈ ids, ∃ row, (db.after writes).event? id = some row ∧ row.expired cutoff = true ∧
      (db.after writes).ledgerOf? id = none) :
    ∃ n, svc.solo input (purgeEach cutoff ids) writes db =
      some (.ok n, writes ++ ids.map .deleteEvent, db) := by
  induction ids generalizing writes with
  | nil => exact ⟨0, by simp [purgeEach, Service.solo, Txn.System.solo]⟩
  | cons id rest ih =>
    obtain ⟨fresh, others⟩ := List.nodup_cons.mp distinct
    obtain ⟨row, found, expired, free⟩ := each id List.mem_cons_self
    obtain ⟨locks, ran⟩ : ∃ locks : Locks,
        (Stmt.purgeEvent id cutoff).exec (fun _ _ => true) input (db.after writes) =
          some { answer := .ok true, writes := [.deleteEvent id], locks := locks } := by
      simp [Stmt.exec, execPurgeEvent, found, expired, free]
    have later : ∀ other ∈ rest, ∃ row, (db.after (writes ++ [Write.deleteEvent id])).event? other = some row ∧
        row.expired cutoff = true ∧ (db.after (writes ++ [Write.deleteEvent id])).ledgerOf? other = none := by
      intro other member
      obtain ⟨row', found', expired', free'⟩ := each other (List.mem_cons_of_mem _ member)
      have apart : other ≠ id := fun same => fresh (same ▸ member)
      refine ⟨row', ?_, expired', ?_⟩
      · rw [Db.after_append, Db.after_cons, Db.after_nil, event?_apply]
        simp [Write.onEvent, apart, found']
      · rw [Db.after_append]
        exact free'
    obtain ⟨n, went⟩ := ih others later
    refine ⟨1 + n, ?_⟩
    rw [purgeEach, solo_bind (solo_execute ran)]
    refine (solo_bind went).trans ?_
    simp [Service.solo, Txn.System.solo]

/-- Alone, the procedure deletes all the events that it goes through. -/
theorem alone_purge (good : Wf db) (olderThan : Int) :
    ∃ ids, svc.system.alone input db (.purge olderThan) = some (db.after
      (.deleteAttempts ids :: (db.purgeable (input.dbNow - olderThan)).map .deleteEvent)) := by
  let cutoff := input.dbNow - olderThan
  let ids := (db.attempts.filter fun row =>
    (db.event? row.eventId).any fun event => event.expired cutoff).map (·.id)
  have started : svc.solo input (execute .transactionNow) [] db = some (.ok input.dbNow, [], db) :=
    solo_read ⟨[], rfl⟩
  have attempted : (Stmt.purgeAttempts cutoff).exec (fun _ _ => true) input (db.after []) = some {
      answer := .ok ids.length
      writes := [.deleteAttempts ids]
      locks := ids.map fun id => (.attemptRow id, .excl) } := rfl
  have candidates : svc.solo input (execute (.purgeableEvents cutoff)) [.deleteAttempts ids] db =
      some (.ok (db.purgeable cutoff), [.deleteAttempts ids], db) := solo_read ⟨[], rfl⟩
  have distinct : (db.purgeable cutoff).Nodup := good.eventIds.sublist (List.filter_sublist.map _)
  have each : ∀ id ∈ db.purgeable cutoff, ∃ row, (db.after [.deleteAttempts ids]).event? id = some row ∧
      row.expired cutoff = true ∧ (db.after [.deleteAttempts ids]).ledgerOf? id = none := by
    intro id member
    obtain ⟨row, found, expired, free⟩ := (mem_purgeable good).mp member
    exact ⟨row, found, expired, by simpa [Db.ledgerOf?, Write.apply] using free⟩
  obtain ⟨n, deleted⟩ := solo_purgeEach svc input distinct each
  have body : svc.solo input (purgeHistory olderThan) [] db = some (.ok (ids.length, n), [],
      db.after (.deleteAttempts ids :: (db.purgeable cutoff).map .deleteEvent)) := by
    refine solo_sessionScope ?_
    refine (solo_bind started).trans ?_
    refine (solo_bind (solo_execute attempted)).trans ?_
    refine (solo_bind candidates).trans ?_
    exact solo_bind deleted
  have called : svc.solo input (svc.program (.purge olderThan)) [] db = some (.ok (.purged ids.length n), [],
      db.after (.deleteAttempts ids :: (db.purgeable cutoff).map .deleteEvent)) := solo_bind body
  refine ⟨ids, ?_⟩
  show (svc.solo input (svc.program (.purge olderThan)) [] db).map _ = _
  rw [called]
  rfl

end Alone

theorem deletedIn_purge (attempts ids : List Nat) :
    deletedIn (.deleteAttempts attempts :: ids.map .deleteEvent) = ids := by
  induction ids with
  | nil => rfl
  | cons id rest ih =>
    simp only [deletedIn, List.map_cons, List.filterMap_cons, Write.deletes?] at ih ⊢
    rw [ih]

/-- In every run, a transaction of retention keeps the audit trail exactly if no event
that it deletes has one. Called on any reachable store, with any cutoff, the procedure
keeps it exactly if no event that ended well before the cutoff without an effect has one. -/
theorem audit_trail_kept_iff (svc : Service) {scope : Scope} {w : World}
    (reached : svc.Reaches scope (.init Db.empty) w) :
    (∀ entry ∈ w.log, entry.call.isPurge = true →
      (KeepsAudit entry.before (entry.before.after entry.writes) ↔
        ∀ row, Deletes entry row → ¬ entry.before.audited row.id)) ∧
    ∀ input olderThan, ∃ db, svc.system.alone input w.db (.purge olderThan) = some db ∧
      (KeepsAudit w.db db ↔ ∀ row ∈ w.db.events, row.expired (input.dbNow - olderThan) = true →
        (∀ posted ∈ w.db.ledger, posted.eventId ≠ row.id) → ¬ w.db.audited row.id) := by
  obtain ⟨good, past⟩ := reaches_history wf_empty reached
  constructor
  · intro entry member called
    obtain ⟨_, _, -, -, -, -, described, -⟩ := past.at member
    have purges := described.cases.purges called
    rw [keepsAudit_iff (purges_deletion purges)]
    constructor
    · intro spared row deletes
      refine spared row.id (mem_deletedIn.mpr ?_)
      by_contra kept
      obtain ⟨row', there, -⟩ := event_after kept deletes.1
      rw [deletes.2] at there
      cases there
    · intro spared id deleted
      have listed := mem_deletedIn.mp deleted
      cases purges _ listed with
      | @event row cutoff found expired free =>
        exact spared row ⟨found, event?_deleted (purges_deletion purges) (Or.inr listed)⟩
  · intro input olderThan
    obtain ⟨ids, alone⟩ := alone_purge svc input good olderThan
    refine ⟨_, alone, ?_⟩
    have deletions : ∀ write ∈ Write.deleteAttempts ids ::
        (w.db.purgeable (input.dbNow - olderThan)).map Write.deleteEvent, write.deletion = true := by
      intro write member
      rcases List.mem_cons.mp member with rfl | listed
      · rfl
      · obtain ⟨id, -, rfl⟩ := List.mem_map.mp listed
        rfl
    rw [keepsAudit_iff deletions, deletedIn_purge]
    constructor
    · intro spared row member expired free
      exact spared row.id ((mem_purgeable good).mpr ⟨row, event?_of_mem good member, expired, free⟩)
    · intro spared id listed
      obtain ⟨row, found, expired, free⟩ := (mem_purgeable good).mp listed
      obtain rfl := event?_id found
      exact spared row (List.mem_of_find?_eq_some found) expired free

/-- A credit, and a snapshot that is too late and leaves nothing in the ledger; the credit is
replayed. The purge takes the snapshot, which nobody asked for again. -/
theorem audit_trail_kept_iff_sample : ∃ w, Sample.service.Reaches .any (.init Db.empty) w ∧
    w.db.events.map (fun row => (row.id, row.status)) = [(1, .succeeded), (2, .succeeded)] ∧
    w.db.replays.map (·.eventId) = [1] ∧
    ∃ db, Sample.service.system.alone (Sample.clock 10) w.db (.purge 0) = some db ∧
      db.purged = [2] ∧ KeepsAudit w.db db := by
  let schedule : List Action :=
    Sample.store 0 (Sample.credit "c" 100 5) ++ Sample.store 1 (Sample.snapshot "s" 500 2) ++
    .spawn 2 (.process 1) :: Sample.steps 2 12 ++ .spawn 3 (.process 2) :: Sample.steps 3 12 ++
    .spawn 4 (.replay 1 "operator" none) :: Sample.steps 4 22
  obtain ⟨w, reached, shown⟩ := Sample.service.reaches_test .any (.init Db.empty) schedule
    (fun w => w.db.events.map (fun row => (row.id, row.status)) = [(1, .succeeded), (2, .succeeded)] ∧
      w.db.replays.map (·.eventId) = [1] ∧
      ((Sample.service.system.alone (Sample.clock 10) w.db (.purge 0)).any fun db =>
        db.purged = [2]) = true ∧
      w.db.entries = [] ∧ ∀ request ∈ w.db.replays, ∃ posted ∈ w.db.ledger, posted.eventId = request.eventId)
    (fun action _ => Scope.any_permits action) (by decide +kernel)
  simp only [decide_eq_true_eq] at shown
  obtain ⟨statuses, requests, purged, unfiled, posted⟩ := shown
  obtain ⟨db, alone, kept⟩ :=
    (audit_trail_kept_iff Sample.service reached).2 (Sample.clock 10) 0
  rw [alone] at purged
  refine ⟨w, reached, statuses, requests, db, alone, by simpa using purged, ?_⟩
  rw [kept]
  rintro row - - free (⟨entry, member, -⟩ | ⟨request, member, about⟩)
  · rw [unfiled] at member
    cases member
  · obtain ⟨there, listed, same⟩ := posted request member
    exact free there listed (same.trans about)

/-- A dead-lettered snapshot that an operator replays after a later credit is superseded,
and retention takes its replay request and its entry. -/
theorem audit_trail_purged : ¬ ∀ w input olderThan db,
    Sample.service.Reaches .any (.init Db.empty) w →
    Sample.service.system.alone input w.db (.purge olderThan) = some db → KeepsAudit w.db db := by
  let schedule : List Action :=
    Sample.store 0 (Sample.credit "c" 100 5) ++ Sample.store 1 (Sample.snapshot "s" 500 2) ++
    .spawn 2 (.process 2) :: Sample.steps 2 4 ++ .fault 2 (integrityError "23514" "") ::
    Sample.steps 2 8 ++ .spawn 3 (.process 1) :: Sample.steps 3 12 ++
    .spawn 4 (.replay 2 "operator" none) :: Sample.steps 4 28
  obtain ⟨w, reached, shown⟩ := Sample.service.reaches_test .any (.init Db.empty) schedule
    (fun w => ((Sample.service.system.alone (Sample.clock 10) w.db (.purge 0)).any fun db =>
        w.db.entries.length = 1 ∧ w.db.replays.length = 1 ∧ db.entries = [] ∧ db.replays = []) = true)
    (fun action _ => Scope.any_permits action) (by decide +kernel)
  intro keeps
  simp only [decide_eq_true_eq] at shown
  cases alone : Sample.service.system.alone (Sample.clock 10) w.db (.purge 0) with
  | none =>
    rw [alone] at shown
    cases shown
  | some db =>
    rw [alone] at shown
    simp only [Option.any_some, decide_eq_true_eq] at shown
    obtain ⟨one, -, cleared, -⟩ := shown
    obtain ⟨kept, -⟩ := keeps w _ _ db reached alone
    rw [cleared] at kept
    rw [← kept] at one
    cases one

end WebhookReceiver
