import Mathlib.Algebra.Order.BigOperators.Group.List
import WebhookReceiver.Solitude
import WebhookReceiver.Views

/-!
A worker works off the queue (`main.py::poll_once`, `queue.py::due_event_ids`).

A poll looks for events that are due and makes a pass over each. While nothing else goes
on, every pass that returns deals with its event or uses up one of the attempts it has
left. So
what the pending events can still cost is known beforehand (`Db.budget`): no more passes
than that are made, however many polls there are, and after as many polls that waited
for the backoff nothing is pending (`polls_drain`).
-/

namespace WebhookReceiver

/-! ## Polls -/

/-- `queue.py::due_event_ids`. What is due at the same time comes in any order. -/
def DueEventIds (db : Db) (now : Time) (limit : Nat) (ids : List Nat) : Prop :=
  ∃ rows : List EventRow,
    rows.Perm (db.events.filter fun row => row.status = .pending ∧ row.nextAttemptAt ≤ now) ∧
    rows.Pairwise (fun row later => row.nextAttemptAt ≤ later.nextAttemptAt) ∧
    ids = (rows.take limit).map (·.id)

/-- The time that the pass read first. -/
def passClock (w : World) : Option Time := (w.threads 0).bind fun th => Trace.clock th.trace

/-- The passes of a poll: each is made alone, returns, and reads no earlier time than the
poll did. -/
inductive Service.PassesOver (svc : Service) (now : Time) : List Nat → Db → Db → Prop where
  | nil {db : Db} : PassesOver svc now [] db db
  | cons {eventId : Nat} {ids : List Nat} {db after : Db} {w : World} {strikes : Strikes}
      (alone : svc.Solitary (.process eventId) strikes db w)
      (returned : (passResult w).isSome = true)
      (forward : ∀ startedAt ∈ passClock w, now ≤ startedAt)
      (rest : PassesOver svc now ids w.db after) : PassesOver svc now (eventId :: ids) db after

/-- A poll that has returned: when it looked, what it found, and the store it left. -/
structure PollOf where
  now : Time
  ids : List Nat
  after : Db

/-- `main.py::poll_once`. -/
def Service.PollsOnce (svc : Service) (limit : Nat) (db : Db) (poll : PollOf) : Prop :=
  DueEventIds db poll.now limit poll.ids ∧ svc.PassesOver poll.now poll.ids db poll.after

/-- Polls one after the other, with nothing else going on. -/
def Service.PollsInTurn (svc : Service) (limit : Nat) : Db → List PollOf → Prop
  | _, [] => True
  | db, poll :: rest => svc.PollsOnce limit db poll ∧ svc.PollsInTurn limit poll.after rest

/-- The store after the polls. -/
def Db.afterPolls (db : Db) : List PollOf → Db
  | [] => db
  | poll :: rest => poll.after.afterPolls rest

/-- Each poll came when everything that was pending was due. -/
def Waited : Db → List PollOf → Prop
  | _, [] => True
  | db, poll :: rest =>
    (∀ row ∈ db.events, row.status = .pending → row.nextAttemptAt ≤ poll.now) ∧ Waited poll.after rest

/-! ## What the queue can still cost -/

/-- The passes that the event can still take. -/
def EventRow.left (row : EventRow) (maxAttempts : Nat) : Nat :=
  if row.status = .pending then maxAttempts - row.attemptCount else 0

def Db.budget (db : Db) (maxAttempts : Nat) : Nat := (db.events.map fun row => row.left maxAttempts).sum

/-- Every pending event has attempts left, and none is stuck in processing. -/
structure Live (maxAttempts : Nat) (db : Db) : Prop where
  good : Wf db
  unclaimed : ∀ row ∈ db.events, row.status ≠ .processing
  hasLeft : ∀ row ∈ db.events, row.status = .pending → row.attemptCount < maxAttempts

/-- An event is changed where it stands. -/
def Db.changes (eventId : Nat) (queue : EventQueue) (db db' : Db) : Prop :=
  db'.events = db.events.map fun row => if row.id = eventId then { row with toEventQueue := queue } else row

section Passes

variable {svc : Service} {db db' : Db} {eventId : Nat} {writes : List Write} {queue : EventQueue}

/-- What a pass makes of its event: it is done with, or one attempt further. -/
def Progress (maxAttempts : Nat) (event : EventRow) (queue : EventQueue) : Prop :=
  queue.status = .succeeded ∨ queue.status = .deadLettered ∨
    queue.status = .pending ∧ queue.attemptCount = event.attemptCount + 1 ∧ queue.attemptCount < maxAttempts

/-- An event that stays pending waits from the end of a new attempt. -/
def Retried (db db' : Db) (queue : EventQueue) : Prop :=
  queue.status = .pending → ∃ attempt ∈ db'.attempts, attempt ∉ db.attempts ∧
    attempt.finishedAt ≤ queue.nextAttemptAt

theorem Dealt.changes {result : EffectResult} (done : Dealt svc eventId db result writes) :
    ∃ event queue, db.event? eventId = some event ∧ Db.changes eventId queue db (db.after writes) ∧
      Progress svc.settings.maxAttempts event queue ∧ Retried db (db.after writes) queue := by
  cases done with
  | @mk event effect result business attempt found pending due dispatched applied next outcome =>
    obtain ⟨events, -, -, -⟩ := Db.after_business applied.business db
    refine ⟨event, { event.toEventQueue with
      status := .succeeded, attemptCount := event.attemptCount + 1,
      processedAt := some attempt.finishedAt, lastError := none }, found, ?_, Or.inl rfl, by rintro ⟨⟩⟩
    rw [Db.changes, Db.after_append]
    simp only [Db.after_cons, Db.after_nil, Write.apply, events]

theorem Failed.changes (done : Failed svc eventId db writes) :
    ∃ event queue, db.event? eventId = some event ∧ Db.changes eventId queue db (db.after writes) ∧
      Progress svc.settings.maxAttempts event queue ∧ Retried db (db.after writes) queue := by
  cases done with
  | @mk event exc attempt verdict found next outcome recorded judged =>
    have named := event?_id found
    have fresh : attempt ∉ db.attempts := fun there => Nat.lt_irrefl _ (next.later attempt there next.event)
    cases judged with
    | @rescheduled delay retryable left start cap =>
      refine ⟨event, { event.toEventQueue with
        status := .pending, attemptCount := event.attemptCount + 1,
        nextAttemptAt := attempt.finishedAt + timedelta delay, lastError :=
          some (redactedDetail exc) }, found, ?_,
        Or.inr (Or.inr ⟨rfl, rfl, left⟩), fun _ => ⟨attempt, ?_, fresh, ?_⟩⟩
      · simp only [Db.changes, Db.after_cons, Db.after_nil, Write.apply, named]
      · exact List.mem_append_right _ (List.mem_singleton_self _)
      · exact Int.le_add_of_nonneg_right (timedelta_nonneg start)
    | @deadLettered reason filed spent filing =>
      refine ⟨event, { event.toEventQueue with
        status := .deadLettered, attemptCount := event.attemptCount + 1, lastError := some reason }, found, ?_,
        Or.inr (Or.inl rfl), by rintro ⟨⟩⟩
      rcases filing with ⟨-, rfl⟩ | ⟨-, id, at', rfl⟩ <;>
        simp only [Db.changes, Db.after_cons, Db.after_nil, Write.apply, named]

/-- Progress on a pending event uses up part of the budget. -/
theorem Live.progress {maxAttempts : Nat} {event : EventRow} (live : Live maxAttempts db) (good : Wf db')
    (found : db.event? eventId = some event) (pending : event.status = .pending)
    (changed : Db.changes eventId queue db db') (progress : Progress maxAttempts event queue) :
    Live maxAttempts db' ∧ db'.budget maxAttempts < db.budget maxAttempts := by
  have member := mem_of_event? found
  have named := event?_id found
  have only : ∀ row ∈ db.events, row.id = eventId → row = event := fun row there same =>
    List.inj_on_of_nodup_map live.good.eventIds there member (same.trans named.symm)
  have room := live.hasLeft event member pending
  have spent : EventRow.left { event with toEventQueue := queue } maxAttempts < event.left maxAttempts := by
    rcases progress with status | status | ⟨status, count, less⟩ <;>
      simp only [EventRow.left, status, pending, if_true, if_false, reduceCtorEq] <;> omega
  refine ⟨⟨good, fun row there => ?_, fun row there waiting => ?_⟩, ?_⟩
  · rw [changed] at there
    obtain ⟨before, listed, rfl⟩ := List.mem_map.mp there
    split
    · rcases progress with status | status | ⟨status, -⟩ <;> simp [status]
    · exact live.unclaimed before listed
  · rw [changed] at there
    obtain ⟨before, listed, rfl⟩ := List.mem_map.mp there
    split at waiting
    · rename_i same
      rw [if_pos same]
      rcases progress with status | status | ⟨-, -, less⟩
      · exact absurd (status.symm.trans waiting) (by simp)
      · exact absurd (status.symm.trans waiting) (by simp)
      · exact less
    · rename_i other
      rw [if_neg other]
      exact live.hasLeft before listed waiting
  · unfold Db.budget
    rw [changed, List.map_map]
    refine List.sum_lt_sum _ _ (fun row there => ?_) ⟨event, member, ?_⟩
    · by_cases same : row.id = eventId
      · obtain rfl := only row there same
        simp only [Function.comp_apply, same, if_true]
        exact spent.le
      · simp only [Function.comp_apply, same, if_false, le_refl]
    · simp only [Function.comp_apply, named, if_true]
      exact spent

/-- Another event stays as it is. -/
theorem Db.changes.other (changed : Db.changes eventId queue db db') {other : Nat} (differ : other ≠ eventId) :
    db'.event? other = db.event? other := by
  have same : db'.event? other = ((Write.updateEvent eventId queue).apply db).event? other := by
    have events := changed
    unfold Db.changes at events
    simp only [Db.event?, events, Write.apply]
  rw [same, event?_apply]
  cases found : db.event? other with
  | none => rfl
  | some row => simp [Write.onEvent, event?_id found, differ]

end Passes

section Polls

variable {svc : Service} {db : Db} {now : Time} {limit : Nat}

theorem Due.sameRows {db' : Db} {eventId : Nat} (same : SameRows db db') (due : Due db eventId now) :
    Due db' eventId now := by
  obtain ⟨seq, rfl⟩ := same
  exact due

/-- A pass over an event that is due changes that event only, and makes progress on it. -/
theorem solitary_changes {eventId : Nat} {strikes : Strikes} {w : World} (good : Wf db)
    (due : Due db eventId now) (alone : svc.Solitary (.process eventId) strikes db w)
    (returned : (passResult w).isSome = true) (forward : ∀ startedAt ∈ passClock w, now ≤ startedAt) :
    ∃ event queue, db.event? eventId = some event ∧ event.status = .pending ∧ Db.changes eventId queue db w.db ∧
      Progress svc.settings.maxAttempts event queue ∧ Retried db w.db queue := by
  obtain ⟨event, found, pending, early⟩ := due
  obtain ⟨result, came⟩ := Option.isSome_iff_exists.mp returned
  obtain ⟨th, here, ended⟩ := passResult_some came
  obtain ⟨entry, startedAt, clock, -, before, after, trace, fate⟩ := solitary_fate good found alone here ended
  have read : Trace.clock th.trace = some startedAt := by
    rw [trace]
    exact Trace.clock_mono (List.prefix_append _ _) clock
  have late : now ≤ startedAt := forward startedAt (by simp [passClock, here, read])
  have step : (∃ event queue, entry.before.event? eventId = some event ∧
      Db.changes eventId queue entry.before (entry.before.after entry.writes) ∧
      Progress svc.settings.maxAttempts event queue ∧
        Retried entry.before (entry.before.after entry.writes) queue) →
      ∃ event queue, db.event? eventId = some event ∧ event.status = .pending ∧
        Db.changes eventId queue db w.db ∧
        Progress svc.settings.maxAttempts event queue ∧ Retried db w.db queue := by
    rintro ⟨event', queue, found', changed, progress, retried⟩
    rw [sameRows_event? before, found] at found'
    cases found'
    rw [← after] at changed retried
    obtain ⟨seq, same⟩ := before
    rw [same] at changed retried
    exact ⟨event, queue, found, pending, changed, progress, retried⟩
  cases fate with
  | unclaimed idle smooth wrote => exact absurd ⟨event, found, pending, early.trans late⟩ idle
  | dealt due smooth done same => exact step done.changes
  | failed due rolled done recorded => exact step done.changes

/-- Such a pass uses up part of the budget, and leaves the other events alone. -/
theorem solitary_progress {eventId : Nat} {strikes : Strikes} {w : World}
    (live : Live svc.settings.maxAttempts db)
    (due : Due db eventId now) (alone : svc.Solitary (.process eventId) strikes db w)
    (returned : (passResult w).isSome = true) (forward : ∀ startedAt ∈ passClock w, now ≤ startedAt) :
    Live svc.settings.maxAttempts w.db ∧
      w.db.budget svc.settings.maxAttempts < db.budget svc.settings.maxAttempts ∧
      ∀ other, other ≠ eventId → w.db.event? other = db.event? other := by
  obtain ⟨good, -⟩ := reaches_history live.good (solitary_reaches alone)
  obtain ⟨event, queue, found, pending, changed, progress, -⟩ :=
    solitary_changes live.good due alone returned forward
  obtain ⟨still, less⟩ := live.progress good found pending changed progress
  exact ⟨still, less, fun other differ => changed.other differ⟩

theorem Service.PassesOver.progress {ids : List Nat} {after : Db} (passes : svc.PassesOver now ids db after)
    (live : Live svc.settings.maxAttempts db) (distinct : ids.Nodup) (due : ∀ id ∈ ids, Due db id now) :
    Live svc.settings.maxAttempts after ∧
      after.budget svc.settings.maxAttempts + ids.length ≤ db.budget svc.settings.maxAttempts := by
  induction passes with
  | nil => exact ⟨live, le_rfl⟩
  | @cons eventId ids db after w strikes alone returned forward rest ih =>
    obtain ⟨fresh, distinct⟩ := List.nodup_cons.mp distinct
    obtain ⟨first, others⟩ := List.forall_mem_cons.mp due
    obtain ⟨still, less, kept⟩ := solitary_progress live first alone returned forward
    have waiting : ∀ id ∈ ids, Due w.db id now := by
      intro id member
      obtain ⟨event, found, pending, early⟩ := others id member
      have other : id ≠ eventId := fun same => fresh (same ▸ member)
      exact ⟨event, (kept id other).trans found, pending, early⟩
    obtain ⟨live', spent⟩ := ih still distinct waiting
    refine ⟨live', ?_⟩
    rw [List.length_cons]
    omega

/-- What a poll finds is due, and each event once. -/
theorem DueEventIds.due (good : Wf db) {ids : List Nat} (selected : DueEventIds db now limit ids) :
    ids.Nodup ∧ ∀ id ∈ ids, Due db id now := by
  obtain ⟨rows, same, -, rfl⟩ := selected
  have distinct : (rows.map (·.id)).Nodup :=
    (same.map _).nodup_iff.mpr (nodup_map_filter good.eventIds)
  constructor
  · rw [List.map_take]
    exact distinct.sublist (List.take_sublist _ _)
  · intro id member
    obtain ⟨row, listed, rfl⟩ := List.mem_map.mp member
    have there := same.mem_iff.mp (List.mem_of_mem_take listed)
    obtain ⟨stored, waiting⟩ := List.mem_filter.mp there
    obtain ⟨pending, early⟩ := of_decide_eq_true waiting
    exact ⟨row, event?_of_mem good stored, pending, early⟩

/-- A poll that finds nothing leaves nothing behind that was due. -/
theorem DueEventIds.nothing (room : 0 < limit) (selected : DueEventIds db now limit []) :
    ∀ row ∈ db.events, row.status = .pending → now < row.nextAttemptAt := by
  obtain ⟨rows, same, -, none⟩ := selected
  have empty : rows = [] := by
    have taken : rows.take limit = [] := List.map_eq_nil_iff.mp none.symm
    rcases List.take_eq_nil_iff.mp taken with zero | empty
    · omega
    · exact empty
  intro row member pending
  by_contra early
  have listed : row ∈ db.events.filter fun row => row.status = .pending ∧ row.nextAttemptAt ≤ now :=
    List.mem_filter.mpr ⟨member, decide_eq_true ⟨pending, Int.not_lt.mp early⟩⟩
  have there := same.mem_iff.mpr listed
  rw [empty] at there
  cases there

/-- Polls use up the budget, one for each pass that they make. -/
theorem Service.PollsInTurn.progress {polls : List PollOf} (inTurn : svc.PollsInTurn limit db polls)
    (live : Live svc.settings.maxAttempts db) : Live svc.settings.maxAttempts (db.afterPolls polls) ∧
      (db.afterPolls polls).budget svc.settings.maxAttempts + (polls.map fun poll => poll.ids.length).sum ≤
        db.budget svc.settings.maxAttempts := by
  induction polls generalizing db with
  | nil => exact ⟨live, le_rfl⟩
  | cons poll rest ih =>
    obtain ⟨⟨selected, passes⟩, later⟩ := inTurn
    obtain ⟨distinct, due⟩ := selected.due live.good
    obtain ⟨still, spent⟩ := passes.progress live distinct due
    obtain ⟨live', more⟩ := ih later still
    refine ⟨live', ?_⟩
    rw [List.map_cons, List.sum_cons]
    show (poll.after.afterPolls rest).budget _ + _ ≤ _
    omega

/-- Once nothing is pending nothing becomes so. -/
theorem Service.PollsInTurn.idle {polls : List PollOf} (inTurn : svc.PollsInTurn limit db polls)
    (live : Live svc.settings.maxAttempts db) (none : db.budget svc.settings.maxAttempts = 0) :
    (db.afterPolls polls).budget svc.settings.maxAttempts = 0 := by
  have spent := (inTurn.progress live).2
  omega

/-- A poll that comes when everything pending is due makes a pass, unless nothing is pending. -/
theorem Service.PollsInTurn.waited {polls : List PollOf} (room : 0 < limit)
    (inTurn : svc.PollsInTurn limit db polls)
    (live : Live svc.settings.maxAttempts db) (waited : Waited db polls) :
    (db.afterPolls polls).budget svc.settings.maxAttempts = 0 ∨
      polls.length ≤ (polls.map fun poll => poll.ids.length).sum := by
  induction polls generalizing db with
  | nil => exact Or.inr le_rfl
  | cons poll rest ih =>
    obtain ⟨⟨selected, passes⟩, later⟩ := inTurn
    obtain ⟨allDue, waitedOn⟩ := waited
    obtain ⟨distinct, due⟩ := selected.due live.good
    obtain ⟨still, spent⟩ := passes.progress live distinct due
    by_cases found : poll.ids = []
    · -- nothing was due, so nothing was pending
      have budget : db.budget svc.settings.maxAttempts = 0 := by
        refine List.sum_eq_zero fun cost member => ?_
        obtain ⟨row, there, rfl⟩ := List.mem_map.mp member
        unfold EventRow.left
        split
        · rename_i pending
          rw [found] at selected
          exact absurd (allDue row there pending) (Int.not_le.mpr (selected.nothing room row there pending))
        · rfl
      refine Or.inl (later.idle still ?_)
      omega
    · rcases ih later still waitedOn with none | more
      · exact Or.inl none
      · have some : 0 < poll.ids.length := List.length_pos_iff.mpr found
        refine Or.inr ?_
        rw [List.map_cons, List.sum_cons, List.length_cons]
        omega

end Polls

/-- What is pending has a part of the budget. -/
theorem Live.closed {maxAttempts : Nat} {db : Db} (live : Live maxAttempts db)
    (none : db.budget maxAttempts = 0)
    {row : EventRow} (member : row ∈ db.events) : row.status = .succeeded ∨ row.status = .deadLettered := by
  have nothing := List.sum_eq_zero_iff.mp none (row.left maxAttempts) (List.mem_map_of_mem member)
  cases status : row.status with
  | pending =>
    have room := live.hasLeft row member status
    rw [EventRow.left, if_pos status] at nothing
    omega
  | processing => exact absurd status (live.unclaimed row member)
  | succeeded => exact Or.inl rfl
  | deadLettered => exact Or.inr rfl

/-- While a worker is alone with the queue, its polls make no more passes than the
attempts that the pending events have left, and once as many polls have come after the
backoff of whatever was pending, every event has succeeded or is dead-lettered. -/
theorem polls_drain (svc : Service) {w : World}
    (reached : svc.Reaches .withoutPurge (.init Db.empty) w) {limit : Nat}
    {polls : List PollOf} (inTurn : svc.PollsInTurn limit w.db polls) :
    (polls.map fun poll => poll.ids.length).sum ≤ w.db.budget svc.settings.maxAttempts ∧
    (0 < limit → Waited w.db polls → w.db.budget svc.settings.maxAttempts ≤ polls.length →
      ∀ row ∈ (w.db.afterPolls polls).events, row.status = .succeeded ∨ row.status = .deadLettered) := by
  obtain ⟨good, past⟩ := reaches_history wf_empty reached
  have live : Live svc.settings.maxAttempts w.db := by
    refine ⟨good, fun row member => (past.toldByLog (event?_of_mem good member)).unclaimed,
      fun row member pending => ?_⟩
    rcases Nat.eq_zero_or_pos row.attemptCount with zero | tried
    · have some := svc.settings.attempts_positive
      omega
    · exact ((past.toldByLog (event?_of_mem good member)).waiting pending tried).1
  obtain ⟨still, spent⟩ := inTurn.progress live
  refine ⟨by omega, fun room waited enough row member => ?_⟩
  rcases inTurn.waited room live waited with none | all
  · exact still.closed none member
  · exact still.closed (by omega) member

/-! ## Two credits, and a connection that is lost -/

namespace Sample

/-- What a poll at this time can take, as it is stored. -/
def due (db : Db) (now : Time) : List EventRow :=
  db.events.filter fun row => row.status = .pending ∧ row.nextAttemptAt ≤ now

/-- A poll at this time finds these events, and no other event is pending. -/
def finds (now : Time) (ids : List Nat) (db : Db) : Bool :=
  (due db now).map (·.id) = ids ∧ ((due db now).map (·.nextAttemptAt)).Pairwise (· ≤ ·) ∧
    (db.events.all fun row => row.status ≠ .pending ∨ row.nextAttemptAt ≤ now) = true

theorem finds_due {db : Db} {now : Time} {ids : List Nat} (found : finds now ids db = true) (limit : Nat) :
    DueEventIds db now limit (ids.take limit) := by
  obtain ⟨rfl, rising, -⟩ := of_decide_eq_true found
  exact ⟨due db now, .refl _, List.pairwise_map.mp rising, List.map_take.symm⟩

theorem finds_all {db : Db} {now : Time} {ids : List Nat} (found : finds now ids db = true) :
    ∀ row ∈ db.events, row.status = .pending → row.nextAttemptAt ≤ now := by
  intro row member pending
  obtain ⟨-, -, all⟩ := of_decide_eq_true found
  exact (of_decide_eq_true (List.all_eq_true.mp all row member)).resolve_left (not_not_intro pending)

/-- A pass that has the store to itself. -/
def pass (eventId : Nat) (schedule : List Action) (db : Db) : Option World :=
  Txn.runLonely service.system 0 (fun _ => true)
    (Txn.World.begin service.system db 0 (.process eventId)) schedule

/-- It has returned, and read this time or a later one. -/
def returned (now : Time) (w : World) : Bool := (passResult w).isSome && (passClock w).all (now ≤ ·)

/-- One more pass of a poll. -/
theorem pass_over {eventId : Nat} {schedule : List Action} {now : Time} {ids : List Nat}
    {db after : Db} {w : World}
    (ran : pass eventId schedule db = some w) (done : returned now w = true)
    (rest : service.PassesOver now ids w.db after) : service.PassesOver now (eventId :: ids) db after := by
  obtain ⟨value, forward⟩ := Bool.and_eq_true_iff.mp done
  refine .cons (Txn.reach_of_lonely ran) value (fun startedAt read => ?_) rest
  rw [Option.mem_def.mp read] at forward
  exact of_decide_eq_true forward

/-- Polls that find nothing pending. -/
theorem idle_polls {db : Db} {now : Time} (nothing : finds now [] db = true) (limit n : Nat) :
    service.PollsInTurn limit db (List.replicate n ⟨now, [], db⟩) ∧
      Waited db (List.replicate n ⟨now, [], db⟩) := by
  induction n with
  | zero => exact ⟨trivial, trivial⟩
  | succ n ih =>
    have one : DueEventIds db now limit [] := by simpa using finds_due nothing limit
    exact ⟨⟨⟨one, .nil⟩, ih.1⟩, finds_all nothing, ih.2⟩

/-- The pass loses its connection before the claim is answered, and draws the longest delay. -/
def interrupted : List Action :=
  ticks 0 1 0 ++ .fault 0 ⟨"DBAPIError", "connection does not exist", .dbapi true (some "08003")⟩ ::
    (List.replicate 8 (.run 0 ⟨0, 0, ⟨1, draw_one⟩⟩) : List Action)

end Sample

/-- Two credits and two to a poll. The first pass loses its connection and is made again by the
second poll, after its backoff; the other polls find nothing. -/
theorem polls_drain_sample : ∃ w polls, Sample.service.Reaches .withoutPurge (.init Db.empty) w ∧
    Sample.service.PollsInTurn 2 w.db polls ∧ w.db.budget Sample.service.settings.maxAttempts = 10 ∧
    polls.map PollOf.ids = [1, 2] :: [1] :: List.replicate 8 [] ∧
    ∀ row ∈ (w.db.afterPolls polls).events, row.status = .succeeded ∨ row.status = .deadLettered := by
  have ran : (Sample.service.runFrom (.init Db.empty) (Sample.store 0 (Sample.credit "c" 100 1) ++
      Sample.store 1 (Sample.credit "d" 100 2))).any (fun w => Sample.finds 0 [1, 2] w.db &&
        decide (w.db.budget Sample.service.settings.maxAttempts = 10) &&
        (Sample.pass 1 Sample.interrupted w.db).any fun w₁ => Sample.returned 0 w₁ &&
          (Sample.pass 2 (Sample.ticks 0 12 0) w₁.db).any fun w₂ => Sample.returned 0 w₂ &&
            Sample.finds 100000000 [1] w₂.db &&
            (Sample.pass 1 (Sample.ticks 0 13 100) w₂.db).any fun w₃ => Sample.returned 100000000 w₃ &&
              Sample.finds 100000000 [] w₃.db) = true := by decide +kernel
  simp only [Option.any_eq_true, Bool.and_eq_true, decide_eq_true_eq] at ran
  obtain ⟨w, stored, ⟨both, budget⟩, w₁, lost, back₁, w₂, went, ⟨back₂, one⟩, w₃, again, back₃, none⟩ := ran
  have reached : Sample.service.Reaches .withoutPurge (.init Db.empty) w := by
    refine Service.reaches_runFrom ?_ stored
    simp [Sample.store, Sample.steps, Scope.permits, Scope.withoutPurge, Call.isPurge]
  obtain ⟨idle, rests⟩ := Sample.idle_polls none 2 8
  let polls : List PollOf := ⟨0, [1, 2], w₂.db⟩ :: ⟨100000000, [1], w₃.db⟩ ::
    List.replicate 8 ⟨100000000, [], w₃.db⟩
  have inTurn : Sample.service.PollsInTurn 2 w.db polls :=
    ⟨⟨Sample.finds_due both 2, Sample.pass_over lost back₁ (Sample.pass_over went back₂ .nil)⟩,
      ⟨Sample.finds_due one 2, Sample.pass_over again back₃ .nil⟩, idle⟩
  have waited : Waited w.db polls := ⟨Sample.finds_all both, Sample.finds_all one, rests⟩
  exact ⟨w, polls, reached, inTurn, budget, rfl,
    (polls_drain Sample.service reached inTurn).2 (by decide) waited (by rw [budget]; exact le_rfl)⟩

end WebhookReceiver
