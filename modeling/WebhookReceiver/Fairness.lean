import Mathlib.Data.Finset.Dedup
import Mathlib.Data.Finset.SDiff
import Mathlib.Data.Finset.Card
import WebhookReceiver.Polling

/-!
No event starves (`queue.py::due_event_ids`, `main.py::poll_once`).

A poll takes the oldest deadlines first, so that a retried event does not starve behind a
steady arrival of new ones. An event waits for the events with a deadline no later than its
own and for no others (`Db.ahead`): what is delivered meanwhile is due after it, and a pass
that returns, even one that has recorded a failure, takes its event out of the way. So a
poll takes the event up before as many polls have come as it takes to work off those ahead
of it (`no_starvation`).
-/

namespace WebhookReceiver

/-! ## Polls amid deliveries -/

def Call.delivers : Call → Bool
  | .ingest _ | .deliver _ => true
  | _ => false

/-- Deliveries and nothing else. -/
def Scope.deliveries : Scope := ⟨fun call => call.delivers = true, fun _ => True⟩

/-- Any number of deliveries. What they store, they have received after a time. -/
def Service.Receives (svc : Service) (since : Time) (db db' : Db) : Prop :=
  ∃ w, svc.Reaches .deliveries (.init db) w ∧ w.db = db' ∧
    ∀ row ∈ db'.events, row ∉ db.events → since < row.nextAttemptAt

/-- The clock of the worker does not go back: no attempt that the poll has recorded finished before
the poll began. -/
def PollOf.forward (poll : PollOf) (db : Db) : Prop :=
  ∀ attempt ∈ poll.after.attempts, attempt ∉ db.attempts → poll.now ≤ attempt.finishedAt

/-- Polls after a time, one after the other, with deliveries before each of them. -/
def Service.PollsAmid (svc : Service) (limit : Nat) (since : Time) : Db → List PollOf → Prop
  | _, [] => True
  | db, poll :: rest => ∃ db', svc.Receives since db db' ∧ since < poll.now ∧ svc.PollsOnce limit db' poll ∧
      poll.forward db' ∧ svc.PollsAmid limit since poll.after rest

/-! ## Who is ahead -/

/-- The events that were due by a time and are still pending. -/
def Db.ahead (db : Db) (since : Time) : Finset Nat :=
  ((db.events.filter fun row => row.status = .pending ∧ row.nextAttemptAt ≤ since).map (·.id)).toFinset

section Ahead

variable {svc : Service} {db db' after : Db} {since now : Time} {limit eventId : Nat} {ids : List Nat}

theorem mem_ahead (good : Wf db) : eventId ∈ db.ahead since ↔ Due db eventId since := by
  simp only [Db.ahead, List.mem_toFinset, List.mem_map, List.mem_filter, decide_eq_true_eq]
  constructor
  · rintro ⟨row, ⟨member, pending, early⟩, rfl⟩
    exact ⟨row, event?_of_mem good member, pending, early⟩
  · rintro ⟨event, found, pending, early⟩
    exact ⟨event, ⟨mem_of_event? found, pending, early⟩, event?_id found⟩

/-- Deliveries add events and change none. -/
theorem deliveries_events {w : World} (good : Wf db) (reached : svc.Reaches .deliveries (.init db) w) :
    Wf w.db ∧ ∃ more, w.db.events = db.events ++ more := by
  obtain ⟨good', past⟩ := reaches_history good reached
  have spared : ¬ Scope.deliveries.purging := by
    rintro ⟨olderThan, called⟩
    cases called
  refine ⟨good', past.keeps (P := fun later => ∃ more, later.events = db.events ++ more) ⟨[], by simp⟩
    (fun _ kept => kept) (fun _ purging => absurd purging spared) ?_⟩
  rintro ⟨t, call, trace, before, writes⟩ member good called committed ⟨more, kept⟩
  have added : ∀ row, ∃ more, before.events ++ [row] = db.events ++ more := by
    intro row
    exact ⟨more ++ [row], by rw [← List.append_assoc, ← kept]⟩
  cases committed with
  | idle passing => exact ⟨more, kept⟩
  | dealt passing => cases call <;> first | cases passing | cases called
  | failed passing => cases call <;> first | cases passing | cases called
  | started replay => cases replay; cases called
  | finished replay => cases replay; cases called
  | moved triage => cases triage; cases called
  | purged purge => cases purge; cases called
  | stored stores answered done =>
    cases done with
    | inserted => exact added _
    | duplicate => exact ⟨more, kept⟩

theorem Service.Receives.events (good : Wf db) (receives : svc.Receives since db db') :
    Wf db' ∧ ∃ more, db'.events = db.events ++ more := by
  obtain ⟨w, reached, rfl, -⟩ := receives
  exact deliveries_events good reached

/-- What has just been delivered is not ahead of what was due before. -/
theorem Service.Receives.ahead (good : Wf db) (receives : svc.Receives since db db') :
    db'.ahead since = db.ahead since := by
  obtain ⟨good', more, events⟩ := receives.events good
  obtain ⟨w, reached, rfl, fresh⟩ := receives
  have none : more.filter (fun row => row.status = .pending ∧ row.nextAttemptAt ≤ since) = [] := by
    refine List.filter_eq_nil_iff.mpr fun row late waiting => ?_
    obtain ⟨-, early⟩ := of_decide_eq_true waiting
    have distinct := good'.eventIds
    rw [events, List.map_append, List.nodup_append] at distinct
    have new : row ∉ db.events := fun old =>
      distinct.2.2 row.id (List.mem_map_of_mem old) row.id (List.mem_map_of_mem late) rfl
    exact Int.not_le.mpr (fresh row (events ▸ List.mem_append_right _ late) new) early
  rw [Db.ahead, events, List.filter_append, none, List.append_nil]
  rfl

/-- A pass takes its event out of the way of those that were due before. -/
theorem solitary_ahead {strikes : Strikes} {w : World} (good : Wf db) (due : Due db eventId now)
    (alone : svc.Solitary (.process eventId) strikes db w) (returned : (passResult w).isSome = true)
    (forward : ∀ startedAt ∈ passClock w, now ≤ startedAt) (late : since < now)
    (finished : ∀ attempt ∈ w.db.attempts, attempt ∉ db.attempts → now ≤ attempt.finishedAt) :
    w.db.ahead since = (db.ahead since).erase eventId := by
  obtain ⟨good', -⟩ := reaches_history good (solitary_reaches alone)
  obtain ⟨event, queue, found, pending, changed, progress, retried⟩ :=
    solitary_changes good due alone returned forward
  ext other
  rw [Finset.mem_erase, mem_ahead good', mem_ahead good]
  by_cases same : other = eventId
  · subst same
    refine iff_of_false ?_ (by simp)
    rintro ⟨event', found', waiting, early⟩
    have listed := mem_of_event? found'
    rw [changed] at listed
    obtain ⟨row, -, made⟩ := List.mem_map.mp listed
    have named : row.id = other := by
      have named := event?_id found'
      rw [← made] at named
      split at named
      · assumption
      · exact named
    rw [if_pos named] at made
    subst made
    obtain ⟨attempt, there, new, before⟩ := retried waiting
    have ended := finished attempt there new
    have early : queue.nextAttemptAt ≤ since := early
    exact Int.not_le.mpr late (ended.trans (before.trans early))
  · simp [Due, changed.other same, same]

/-- No pass loses an attempt. -/
theorem solitary_attempts {strikes : Strikes} {w : World} (good : Wf db)
    (alone : svc.Solitary (.process eventId) strikes db w) : Wf w.db ∧
      ∀ attempt ∈ db.attempts, attempt ∈ w.db.attempts := by
  obtain ⟨good', past⟩ := reaches_history good (solitary_reaches alone)
  refine ⟨good', past.keeps (P := fun later => ∀ attempt ∈ db.attempts, attempt ∈ later.attempts)
    (fun _ there => there)
    (fun _ kept => kept) (fun _ purging => absurd purging (only_not_purging eventId)) ?_⟩
  intro entry member good called committed kept attempt there
  have call : entry.call = .process eventId := called
  exact committed.keeps_attempts (by rw [call]; rfl) (kept attempt there)

theorem Service.PassesOver.attempts (passes : svc.PassesOver now ids db after) (good : Wf db) :
    ∀ attempt ∈ db.attempts, attempt ∈ after.attempts := by
  induction passes with
  | nil => exact fun _ there => there
  | cons alone returned forward rest ih =>
    obtain ⟨good', kept⟩ := solitary_attempts good alone
    exact fun attempt there => ih good' attempt (kept attempt there)

/-- So do the passes of a poll. -/
theorem Service.PassesOver.ahead (passes : svc.PassesOver now ids db after) (good : Wf db)
    (distinct : ids.Nodup)
    (due : ∀ id ∈ ids, Due db id now) (late : since < now)
    (finished : ∀ attempt ∈ after.attempts, attempt ∉ db.attempts → now ≤ attempt.finishedAt) :
    Wf after ∧ after.ahead since = db.ahead since \ ids.toFinset := by
  induction passes with
  | nil => exact ⟨good, by simp⟩
  | @cons eventId ids db after w strikes alone returned forward rest ih =>
    obtain ⟨fresh, distinct⟩ := List.nodup_cons.mp distinct
    obtain ⟨first, others⟩ := List.forall_mem_cons.mp due
    obtain ⟨good', kept⟩ := solitary_attempts good alone
    obtain ⟨event, queue, -, -, changed, -⟩ := solitary_changes good first alone returned forward
    have one : w.db.ahead since = (db.ahead since).erase eventId :=
      solitary_ahead good first alone returned forward late fun attempt there =>
        finished attempt (rest.attempts good' attempt there)
    have waiting : ∀ id ∈ ids, Due w.db id now := by
      intro id member
      obtain ⟨row, found, pending, early⟩ := others id member
      have other : id ≠ eventId := fun same => fresh (same ▸ member)
      exact ⟨row, (changed.other other).trans found, pending, early⟩
    obtain ⟨still, left⟩ := ih good' distinct waiting fun attempt there new =>
      finished attempt there fun old => new (kept attempt old)
    refine ⟨still, ?_⟩
    rw [left, one, List.toFinset_cons]
    ext id
    simp only [Finset.mem_sdiff, Finset.mem_erase, Finset.mem_insert, List.mem_toFinset]
    tauto

/-- A poll that passes an event by is full of events that were due before it. -/
theorem DueEventIds.full (good : Wf db) (selected : DueEventIds db now limit ids) (late : since ≤ now)
    {event : EventRow} (found : db.event? eventId = some event) (pending : event.status = .pending)
    (early : event.nextAttemptAt ≤ since) (missed : eventId ∉ ids) :
    ids.length = limit ∧ ∀ id ∈ ids, id ∈ db.ahead since := by
  obtain ⟨rows, same, sorted, rfl⟩ := selected
  have listed : event ∈ rows := same.mem_iff.mpr
    (List.mem_filter.mpr ⟨mem_of_event? found, decide_eq_true ⟨pending, early.trans late⟩⟩)
  have split : event ∈ rows.take limit ++ rows.drop limit := by rwa [List.take_append_drop]
  have left : event ∈ rows.drop limit := by
    refine (List.mem_append.mp split).resolve_left fun taken => missed ?_
    exact event?_id found ▸ List.mem_map_of_mem taken
  constructor
  · have some : 0 < (rows.drop limit).length := List.length_pos_of_mem left
    rw [List.length_drop] at some
    rw [List.length_map, List.length_take]
    omega
  · intro id member
    obtain ⟨row, taken, rfl⟩ := List.mem_map.mp member
    rw [← List.take_append_drop limit rows] at sorted
    have before : row.nextAttemptAt ≤ event.nextAttemptAt :=
      (List.pairwise_append.mp sorted).2.2 row taken event left
    obtain ⟨stored, waiting⟩ := List.mem_filter.mp (same.mem_iff.mp (List.mem_of_mem_take taken))
    exact (mem_ahead good).mpr
      ⟨row, event?_of_mem good stored, (of_decide_eq_true waiting).1, before.trans early⟩

end Ahead

/-- Whatever is delivered meanwhile, an event that is due is taken up by one of the next polls, as soon as
these are enough to work off the events that were due before it. -/
theorem no_starvation (svc : Service) {w : World} (reached : svc.Reaches .any (.init Db.empty) w) {since : Time}
    {event : EventRow} (member : event ∈ w.db.events) (pending : event.status = .pending)
    (due : event.nextAttemptAt ≤ since) {limit : Nat} {polls : List PollOf}
    (amid : svc.PollsAmid limit since w.db polls) (enough : (w.db.ahead since).card ≤ polls.length * limit) :
    ∃ poll ∈ polls, event.id ∈ poll.ids := by
  have good := (reaches_history wf_empty reached).1
  have waiting : event.id ∈ w.db.ahead since :=
    (mem_ahead good).mpr ⟨event, event?_of_mem good member, pending, due⟩
  clear reached member pending due
  generalize w.db = db at good waiting amid enough
  induction polls generalizing db with
  | nil =>
    have some : 0 < (db.ahead since).card := Finset.card_pos.mpr ⟨_, waiting⟩
    simp at enough
    simp [enough] at waiting
  | cons poll rest ih =>
    obtain ⟨db', receives, late, ⟨selected, passes⟩, forward, amid⟩ := amid
    obtain ⟨good', -⟩ := receives.events good
    have same := receives.ahead good
    by_cases taken : event.id ∈ poll.ids
    · exact ⟨poll, List.mem_cons_self, taken⟩
    · obtain ⟨row, found, pending, early⟩ := (mem_ahead good').mp (same ▸ waiting)
      obtain ⟨full, ahead⟩ := selected.full good' late.le found pending early taken
      obtain ⟨distinct, due⟩ := selected.due good'
      obtain ⟨still, left⟩ := passes.ahead good' distinct due late forward
      have card : (poll.after.ahead since).card + limit = (db.ahead since).card := by
        rw [left, same, ← full, ← List.toFinset_card_of_nodup distinct]
        refine Finset.card_sdiff_add_card_eq_card fun id there => ?_
        exact same ▸ ahead id (List.mem_toFinset.mp there)
      have waits : event.id ∈ poll.after.ahead since := by
        rw [left, same, Finset.mem_sdiff, List.mem_toFinset]
        exact ⟨waiting, taken⟩
      obtain ⟨later, among, there⟩ := ih poll.after still waits amid (by
        rw [List.length_cons, Nat.succ_mul] at enough
        omega)
      exact ⟨later, List.mem_cons_of_mem _ among, there⟩

/-! ## Two events that are due, and deliveries -/

namespace Sample

/-- A credit that is delivered at a time. -/
def arrival (key : String) (now : Int) : List Action := .spawn 0 (.ingest (credit key 100 1)) :: ticks 0 2 now

/-- What was delivered is due later. -/
def lateArrivals (since : Time) (db db' : Db) : Bool :=
  (db'.events.drop db.events.length).all fun row => since < row.nextAttemptAt

theorem receives {db : Db} {since : Time} {key : String} {now : Int} {w : World} (good : Wf db)
    (ran : service.runFrom (.init db) (arrival key now) = some w) (late : lateArrivals since db w.db = true) :
    Wf w.db ∧ service.Receives since db w.db := by
  have reached : service.Reaches .deliveries (.init db) w :=
    Service.reaches_runFrom (by simp [arrival, ticks, Scope.permits, Scope.deliveries, Call.delivers]) ran
  obtain ⟨good', more, added⟩ := deliveries_events good reached
  refine ⟨good', w, reached, rfl, fun row there new => ?_⟩
  rw [lateArrivals, added, List.drop_left, List.all_eq_true] at late
  rw [added] at there
  exact of_decide_eq_true (late row ((List.mem_append.mp there).resolve_left new))

/-- What was recorded meanwhile finished no earlier than this. -/
def noEarlier (now : Time) (db db' : Db) : Bool :=
  db'.attempts.all fun attempt => attempt ∈ db.attempts ∨ now ≤ attempt.finishedAt

theorem noEarlier_forward {db db' : Db} {now : Time} {ids : List Nat} (recorded : noEarlier now db db' = true) :
    PollOf.forward ⟨now, ids, db'⟩ db := by
  intro attempt there new
  exact (of_decide_eq_true (List.all_eq_true.mp recorded attempt there)).resolve_left new

end Sample

/-- Two events are due and a poll takes one. A third is delivered before the first poll, which
dead-letters an event without a handler, and a fourth before the second, which comes to the credit. -/
theorem no_starvation_sample : ∃ w polls event, Sample.service.Reaches .any (.init Db.empty) w ∧
    event ∈ w.db.events ∧ event.id = 2 ∧ event.status = .pending ∧ Sample.service.PollsAmid 1 0 w.db polls ∧
    (w.db.ahead 0).card = 2 ∧ polls.map PollOf.ids = [[1], [2]] ∧
    polls.map (fun poll => poll.after.events.length) = [3, 4] ∧ ∃ poll ∈ polls, event.id ∈ poll.ids := by
  have ran : (Sample.service.runFrom (.init Db.empty) (Sample.store 0 (Sample.unknown "u") ++
      Sample.store 1 (Sample.credit "c" 100 1))).any (fun w => decide (w.db.events.map (fun row =>
        (row.id, row.status, row.nextAttemptAt)) = [(1, .pending, 0), (2, .pending, 0)]) &&
        decide ((w.db.ahead 0).card = 2) &&
        (Sample.service.runFrom (.init w.db) (Sample.arrival "d" 5)).any fun v =>
          Sample.lateArrivals 0 w.db v.db &&
          Sample.finds 10000000 [1, 2, 3] v.db &&
          (Sample.pass 1 (Sample.ticks 0 13 10) v.db).any fun w₁ => Sample.returned 10000000 w₁ &&
            Sample.noEarlier 10000000 v.db w₁.db && decide (w₁.db.events.length = 3) &&
            (Sample.service.runFrom (.init w₁.db) (Sample.arrival "e" 15)).any fun v₁ =>
              Sample.lateArrivals 0 w₁.db v₁.db && Sample.finds 20000000 [2, 3, 4] v₁.db &&
              (Sample.pass 2 (Sample.ticks 0 12 20) v₁.db).any fun w₂ => Sample.returned 20000000 w₂ &&
                Sample.noEarlier 20000000 v₁.db w₂.db && decide (w₂.db.events.length = 4)) = true := by
    decide +kernel
  simp only [Option.any_eq_true, Bool.and_eq_true, decide_eq_true_eq] at ran
  obtain ⟨w, stored, ⟨rows, ahead⟩, v, came, ⟨late, three⟩, w₁, failed, ⟨⟨back₁, recorded₁⟩, count₁⟩,
    v₁, came₁, ⟨late₁, more⟩, w₂, went, ⟨back₂, recorded₂⟩, count₂⟩ := ran
  have reached : Sample.service.Reaches .any (.init Db.empty) w :=
    Service.reaches_runFrom (fun action _ => Scope.any_permits action) stored
  obtain ⟨unhandled, others, events, -, rest⟩ := List.map_eq_cons_iff.mp rows
  obtain ⟨event, none, rfl, named, -⟩ := List.map_eq_cons_iff.mp rest
  simp only [Prod.mk.injEq] at named
  obtain ⟨id, status, due⟩ := named
  have member : event ∈ w.db.events := by simp [events]
  have good : Wf w.db := (reaches_history wf_empty reached).1
  obtain ⟨good', receives⟩ := Sample.receives good came late
  have good₁ : Wf w₁.db := (reaches_history good' (solitary_reaches (Txn.reach_of_lonely failed))).1
  obtain ⟨-, receives₁⟩ := Sample.receives good₁ came₁ late₁
  let polls : List PollOf := [⟨10000000, [1], w₁.db⟩, ⟨20000000, [2], w₂.db⟩]
  have amid : Sample.service.PollsAmid 1 0 w.db polls :=
    ⟨v.db, receives, (by decide : (0 : Time) < 10000000),
      ⟨Sample.finds_due three 1, Sample.pass_over failed back₁ .nil⟩, Sample.noEarlier_forward recorded₁,
      v₁.db, receives₁, (by decide : (0 : Time) < 20000000),
      ⟨Sample.finds_due more 1, Sample.pass_over went back₂ .nil⟩, Sample.noEarlier_forward recorded₂, trivial⟩
  exact ⟨w, polls, event, reached, member, id, status, amid, ahead, rfl, by simp [polls, count₁, count₂],
    no_starvation Sample.service reached member status (by rw [due]) amid (by rw [ahead]; exact le_rfl)⟩

end WebhookReceiver
