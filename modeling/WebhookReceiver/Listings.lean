import WebhookReceiver.Custody
import WebhookReceiver.Paging

/-!
The listings of the admin API (`adapters/query.py`, `adapters/dlq.py`, `api/admin.py`).

Events and dead-letter entries are listed newest first, with a limit and an offset. While
an operator pages through them, events arrive and are processed, so an offset does not mean
the same row twice. Without retention, and with no filter on the status, which changes,
every event that matched at the first page is on some page (`browsing_finds`), and likewise
for the dead-letter queue (`browsing_finds_entries`). Both listings are ordered by a time
alone, so the times have to differ.
-/

namespace WebhookReceiver

/-! ## Events (`query.py`) -/

/-- `query.py::EventSummary`. -/
structure EventSummary where
  id : Nat
  source : String
  externalId : String
  eventType : String
  entityType : String
  entityId : String
  status : WebhookStatus
  attemptCount : Nat
  occurredAt : Time
  receivedAt : Time
  nextAttemptAt : Time
  processedAt : Option Time
  lastError : Option String

/-- `query.py::_summarise`. -/
def summarise (row : EventRow) : EventSummary where
  id := row.id
  source := row.source
  externalId := row.externalId
  eventType := row.eventType
  entityType := row.entityType
  entityId := row.entityId
  status := row.status
  attemptCount := row.attemptCount
  occurredAt := row.occurredAt
  receivedAt := row.receivedAt
  nextAttemptAt := row.nextAttemptAt
  processedAt := row.processedAt
  lastError := row.lastError

/-- What `_filtered` is given. -/
structure EventFilter where
  status : Option WebhookStatus := none
  source : Option String := none
  eventType : Option String := none
  entityType : Option String := none
  entityId : Option String := none
  since : Option Time := none
  until' : Option Time := none

/-- `query.py::_filtered`. -/
def EventFilter.admits (filter : EventFilter) (row : EventRow) : Bool :=
  filter.status.all (fun status => row.status = status) &&
    filter.source.all (fun source => row.source = source) &&
    filter.eventType.all (fun eventType => row.eventType = eventType) &&
    filter.entityType.all (fun entityType => row.entityType = entityType) &&
    filter.entityId.all (fun entityId => row.entityId = entityId) &&
    filter.since.all (fun since => since ≤ row.receivedAt) &&
    filter.until'.all (fun until' => row.receivedAt < until')

def Db.eventsFor (filter : EventFilter) (db : Db) : List EventRow := db.events.filter filter.admits

/-- `query.py::list_events`. -/
def ListsEvents (filter : EventFilter) (limit offset : Nat) (db : Db) (answer : List EventSummary) : Prop :=
  Paging.Answers (·.receivedAt) summarise limit offset (db.eventsFor filter) answer

/-! ## Dead-letter entries (`dlq.py`) -/

/-- `dlq.py::_base_query`, with the filter of `list_entries`: each entry with its event. -/
def Db.entriesFor (status : Option DlqStatus) (db : Db) : List (EntryRow × EventRow) :=
  (db.entries.filterMap fun row => (db.event? row.eventId).map fun event => (row, event)).filter fun found =>
    status.all fun status => found.1.status = status

/-- `dlq.py::list_entries`. -/
def ListsEntries (status : Option DlqStatus) (limit offset : Nat) (db : Db) (answer : List DlqRecord) : Prop :=
  Paging.Answers (fun found : EntryRow × EventRow => found.1.deadLetteredAt)
    (fun found => toRecord found.1 found.2)
    limit offset (db.entriesFor status) answer

/-! ## What a run leaves where it is -/

/-- A write keeps an event that it does not delete, but for the columns of the queue. -/
theorem event_stays (write : Write) {db : Db} {event : EventRow} (spared : write ≠ .deleteEvent event.id)
    (member : event ∈ db.events) : ∃ queue, { event with toEventQueue := queue } ∈ (write.apply db).events := by
  cases write with
  | insertEvent row => exact ⟨event.toEventQueue, List.mem_append_left _ member⟩
  | updateEvent id queue =>
    by_cases same : event.id = id
    · exact ⟨queue, List.mem_map.mpr ⟨event, member, if_pos same⟩⟩
    · exact ⟨event.toEventQueue, List.mem_map.mpr ⟨event, member, if_neg same⟩⟩
  | deleteEvent id =>
    have other : event.id ≠ id := fun same => spared (congrArg Write.deleteEvent same.symm)
    exact ⟨event.toEventQueue, List.mem_filter.mpr ⟨member, decide_eq_true other⟩⟩
  | _ => exact ⟨event.toEventQueue, member⟩

/-- Likewise a dead-letter entry, but for the columns of triage. -/
theorem entry_stays (write : Write) {db : Db} {entry : EntryRow} (spared : write ≠ .deleteEvent entry.eventId)
    (member : entry ∈ db.entries) :
    ∃ triage, { entry with toEntryTriage := triage } ∈ (write.apply db).entries := by
  cases write with
  | insertEntry row => exact ⟨entry.toEntryTriage, List.mem_append_left _ member⟩
  | updateEntry id triage =>
    by_cases same : entry.id = id
    · exact ⟨triage, List.mem_map.mpr ⟨entry, member, if_pos same⟩⟩
    · exact ⟨entry.toEntryTriage, List.mem_map.mpr ⟨entry, member, if_neg same⟩⟩
  | deleteEvent id =>
    have other : entry.eventId ≠ id := fun same => spared (congrArg Write.deleteEvent same.symm)
    exact ⟨entry.toEntryTriage, List.mem_filter.mpr ⟨member, decide_eq_true other⟩⟩
  | _ => exact ⟨entry.toEntryTriage, member⟩

theorem event_stays_after {writes : List Write} {db : Db} {event : EventRow}
    (member : event ∈ db.events) (spared : Write.deleteEvent event.id ∉ writes) :
    ∃ queue, { event with toEventQueue := queue } ∈ (db.after writes).events := by
  induction writes generalizing db event with
  | nil => exact ⟨event.toEventQueue, member⟩
  | cons write rest ih =>
    obtain ⟨first, others⟩ := not_or.mp (List.mem_cons.not.mp spared)
    obtain ⟨queue, there⟩ := event_stays write (Ne.symm first) member
    obtain ⟨last, after⟩ := ih there others
    exact ⟨last, after⟩

theorem entry_stays_after {writes : List Write} {db : Db} {entry : EntryRow}
    (member : entry ∈ db.entries) (spared : Write.deleteEvent entry.eventId ∉ writes) :
    ∃ triage, { entry with toEntryTriage := triage } ∈ (db.after writes).entries := by
  induction writes generalizing db entry with
  | nil => exact ⟨entry.toEntryTriage, member⟩
  | cons write rest ih =>
    obtain ⟨first, others⟩ := not_or.mp (List.mem_cons.not.mp spared)
    obtain ⟨triage, there⟩ := entry_stays write (Ne.symm first) member
    obtain ⟨last, after⟩ := ih there others
    exact ⟨last, after⟩

section Steps

variable {svc : Service} {scope : Scope} {call : Call} {trace : Trace} {db : Db} {writes : List Write}

/-- Only retention deletes an event. -/
theorem Committed.spares_events (called : call.isPurge = false)
    (committed : Committed svc scope call trace db writes)
    (good : Wf db) (still : Wf (db.after writes)) {event : EventRow} (member : event ∈ db.events) :
    Write.deleteEvent event.id ∉ writes := by
  intro deleted
  obtain ⟨event', there, -⟩ := committed.keeps_event called (event?_of_mem good member)
  refine still.purgedGone event' (mem_of_event? there) ?_
  rw [event?_id there]
  exact purged_after (Or.inr deleted)

end Steps

section Runs

variable {svc : Service} {w w' : World}

theorem events_stay (reached : svc.Reaches .withoutPurge (.init Db.empty) w)
    (later : svc.Reaches .withoutPurge w w') {event : EventRow} (member : event ∈ w.db.events) :
    ∃ queue, { event with toEventQueue := queue } ∈ w'.db.events := by
  obtain ⟨log, -, onward⟩ := reaches_stretch wf_empty reached later
  refine onward.along (P := fun _ db => ∃ queue, { event with toEventQueue := queue } ∈ db.events)
    ⟨event.toEventQueue, member⟩ ?_ ?_ ?_
  · exact fun table holds => holds
  · exact fun ids _ holds => holds
  · rintro log entry good still called committed ⟨queue, there⟩
    obtain ⟨last, after⟩ := event_stays_after there (committed.spares_events called good still there)
    exact ⟨last, after⟩

theorem entries_stay (reached : svc.Reaches .withoutPurge (.init Db.empty) w)
    (later : svc.Reaches .withoutPurge w w') {entry : EntryRow} (member : entry ∈ w.db.entries) :
    ∃ triage, { entry with toEntryTriage := triage } ∈ w'.db.entries := by
  obtain ⟨log, -, onward⟩ := reaches_stretch wf_empty reached later
  refine onward.along (P := fun _ db => ∃ triage, { entry with toEntryTriage := triage } ∈ db.entries)
    ⟨entry.toEntryTriage, member⟩ ?_ ?_ ?_
  · exact fun table holds => holds
  · exact fun ids _ holds => holds
  · rintro log entry' good still called committed ⟨triage, there⟩
    obtain ⟨event, held, named⟩ := good.entryEvent _ there
    have spared := committed.spares_events called good still held
    rw [named] at spared
    obtain ⟨last, after⟩ := entry_stays_after there spared
    exact ⟨last, after⟩

end Runs

/-! ## Browsing -/

/-- A filter that does not ask for the status asks for nothing that changes. -/
theorem EventFilter.admits_queue {filter : EventFilter} (unstatused : filter.status = none) (event : EventRow)
    (queue : EventQueue) : filter.admits { event with toEventQueue := queue } = filter.admits event := by
  simp [EventFilter.admits, unstatused]

theorem events_growing (svc : Service) {filter : EventFilter} (unstatused : filter.status = none) :
    Paging.Growing (fun w : World => w.db.eventsFor filter) (·.id) (·.receivedAt) (svc.Reaches .withoutPurge)
      (svc.Reaches .withoutPurge (.init Db.empty)) where
  names w reached := nodup_map_filter (reaches_history wf_empty reached).1.eventIds
  onward w w' reached later := reached.trans later
  kept := by
    intro w w' reached later event listed
    obtain ⟨member, admitted⟩ := List.mem_filter.mp listed
    obtain ⟨queue, there⟩ := events_stay reached later member
    exact ⟨_, List.mem_filter.mpr ⟨there, (EventFilter.admits_queue unstatused event queue).trans
      admitted⟩, rfl, rfl⟩

/-- An operator who reads the events page by page, while everything but retention goes on,
sees every event that was there at the first page. -/
theorem browsing_finds (svc : Service) {filter : EventFilter} (unstatused : filter.status = none) {limit : Nat}
    {w last : World} {answers : List (List EventSummary)}
    (reached : svc.Reaches .withoutPurge (.init Db.empty) w)
    (reads : Paging.Reads (fun offset w answer => ListsEvents filter limit offset w.db answer) limit
      (svc.Reaches .withoutPurge) 0 w answers last)
    (distinct : ((last.db.eventsFor filter).map (·.receivedAt)).Nodup) :
    ∀ event ∈ w.db.eventsFor filter, ∃ answer ∈ answers, ∃ summary ∈ answer, summary.id = event.id := by
  intro event listed
  obtain ⟨found, same, answer, read, shown⟩ :=
    (events_growing svc unstatused).finds reads reached distinct listed (by omega)
  exact ⟨answer, read, summarise found, shown, same⟩

private def delivered (t : Nat) (key : String) (now : Int) : List Action :=
  .spawn t (.ingest (Sample.credit key 100 1)) :: Sample.ticks t 2 now

private def lastFirst (db : Db) : List EventRow := (db.eventsFor {}).reverse

/-- Three events, two to a page. Between the first two pages one more is delivered and one is
processed: what was last on the first page is first on the second. -/
theorem browsing_finds_sample : ∃ (w last : World) (first second third : List EventSummary),
    Sample.service.Reaches .withoutPurge (.init Db.empty) w ∧ Sample.service.Reaches .withoutPurge w last ∧
    w.db.events.map (fun event => (event.id, event.status)) = [(1, .pending), (2, .pending), (3, .pending)] ∧
    last.db.events.map (fun event => (event.id, event.status)) =
      [(1, .succeeded), (2, .pending), (3, .pending), (4, .pending)] ∧
    first.map (·.id) = [3, 2] ∧ second.map (·.id) = [2, 1] ∧ third = [] ∧
    ∀ event ∈ w.db.eventsFor {}, ∃ answer ∈ [first, second, third], ∃ summary ∈ answer,
      summary.id = event.id := by
  obtain ⟨w, last, reached, later, shown⟩ := Sample.service.reaches_test₂ .withoutPurge (.init Db.empty)
    (delivered 0 "evt_1" 10 ++ delivered 1 "evt_2" 20 ++ delivered 2 "evt_3" 30)
    (delivered 3 "evt_4" 40 ++ .spawn 4 (.process 1) :: Sample.ticks 4 12 50)
    (fun w last => w.db.events.map (fun event => (event.id, event.status)) =
        [(1, .pending), (2, .pending), (3, .pending)] ∧
      last.db.events.map (fun event => (event.id, event.status)) =
        [(1, .succeeded), (2, .pending), (3, .pending), (4, .pending)] ∧
      (Paging.page 2 0 (lastFirst w.db)).map (·.id) = [3, 2] ∧
        (Paging.page 2 2 (lastFirst last.db)).map (·.id) = [2, 1] ∧
      (Paging.page 2 4 (lastFirst last.db)).length = 0 ∧
      ((w.db.eventsFor {}).map (·.receivedAt)).Pairwise (· ≤ ·) ∧
      ((last.db.eventsFor {}).map (·.receivedAt)).Pairwise (· < ·))
    (by simp [delivered, Sample.ticks, Scope.permits, Scope.withoutPurge, Call.isPurge]) (by decide +kernel)
  simp only [decide_eq_true_eq] at shown
  obtain ⟨before, after, page₁, page₂, page₃, rising, rising'⟩ := shown
  have ordered : Paging.Ordered (·.receivedAt) (w.db.eventsFor {}) (lastFirst w.db) := .of_rising rising
  have ordered' : Paging.Ordered (·.receivedAt) (last.db.eventsFor {}) (lastFirst last.db) :=
    .of_rising (rising'.imp fun less => Int.le_of_lt less)
  have nothing : Paging.page 2 4 (lastFirst last.db) = [] := List.eq_nil_of_length_eq_zero page₃
  let first := (Paging.page 2 0 (lastFirst w.db)).map summarise
  let second := (Paging.page 2 2 (lastFirst last.db)).map summarise
  have reads : Paging.Reads (fun offset w answer => ListsEvents {} 2 offset w.db answer) 2
      (Sample.service.Reaches .withoutPurge) 0 w [first, second, []] last :=
    .more ⟨_, ordered, rfl⟩ later (.more ⟨_, ordered', rfl⟩ Txn.Reach.start
      (.last ⟨_, ordered', by rw [nothing]; rfl⟩ (by decide)))
  exact ⟨w, last, first, second, [], reached, later, before, after, List.map_map.trans page₁,
    List.map_map.trans page₂, rfl,
    browsing_finds Sample.service rfl reached reads (rising'.imp fun less => Int.ne_of_lt less)⟩

/-- Two events of one time: each page may order them as it likes, so the second is shown on
none. -/
theorem tied_event_missed : ∃ (w : World) (answers : List (List EventSummary)),
    Sample.service.Reaches .withoutPurge (.init Db.empty) w ∧
    Paging.Reads (fun offset w answer => ListsEvents {} 1 offset w.db answer) 1
      (Sample.service.Reaches .withoutPurge) 0 w answers w ∧
    ∃ event ∈ w.db.eventsFor {}, ∀ answer ∈ answers, ∀ summary ∈ answer, summary.id ≠ event.id := by
  obtain ⟨w, reached, shown⟩ := Sample.service.reaches_test .withoutPurge (.init Db.empty)
    (Sample.store 0 (Sample.credit "evt_1" 100 1) ++ Sample.store 1 (Sample.credit "evt_2" 100 2))
    (fun w => w.db.events.map (fun event => (event.id, event.receivedAt)) = [(1, 0), (2, 0)])
    (by simp [Sample.store, Sample.steps, Scope.permits, Scope.withoutPurge, Call.isPurge])
    (by decide +kernel)
  simp only [decide_eq_true_eq] at shown
  obtain ⟨first, rest, rows, one, others⟩ := List.map_eq_cons_iff.mp shown
  obtain ⟨second, more, rfl, two, none⟩ := List.map_eq_cons_iff.mp others
  obtain rfl := List.map_eq_nil_iff.mp none
  simp only [Prod.mk.injEq] at one two
  have all : w.db.eventsFor {} = [first, second] := by
    rw [Db.eventsFor, rows]
    rfl
  have ordered : Paging.Ordered (·.receivedAt) (w.db.eventsFor {}) [first, second] := by
    rw [all]
    exact ⟨List.Perm.refl _, by simp [one.2, two.2]⟩
  have swapped : Paging.Ordered (·.receivedAt) (w.db.eventsFor {}) [second, first] := by
    rw [all]
    exact ⟨List.Perm.swap _ _ _, by simp [one.2, two.2]⟩
  refine ⟨w, [[summarise first], [summarise first], []], reached,
    .more ⟨[first, second], ordered, rfl⟩ Txn.Reach.start (.more ⟨[second, first], swapped, rfl⟩ Txn.Reach.start
      (.last ⟨[first, second], ordered, rfl⟩ Nat.one_pos)), second, by simp [all], ?_⟩
  simp [summarise, one.1, two.1]

theorem entriesFor_names {db : Db} (good : Wf db) (status : Option DlqStatus) :
    ((db.entriesFor status).map (·.1.id)).Nodup := by
  have unique := good.entryIds
  rw [List.Nodup, List.pairwise_map] at unique
  refine nodup_map_filter ?_
  rw [List.Nodup, List.pairwise_map, List.pairwise_filterMap]
  refine unique.imp ?_
  intro row other apart found shown found' shown'
  obtain ⟨event, -, rfl⟩ := Option.map_eq_some_iff.mp shown
  obtain ⟨event', -, rfl⟩ := Option.map_eq_some_iff.mp shown'
  exact apart

/-- An entry is listed with its event. -/
theorem listed_entry {db : Db} (good : Wf db) {entry : EntryRow} (member : entry ∈ db.entries) :
    ∃ event, (entry, event) ∈ db.entriesFor none := by
  obtain ⟨event, held, named⟩ := good.entryEvent entry member
  have found := event?_of_mem good held
  rw [named] at found
  exact ⟨event, List.mem_filter.mpr ⟨List.mem_filterMap.mpr ⟨entry, member, by rw [found]; rfl⟩, rfl⟩⟩

theorem mem_entriesFor {db : Db} {status : Option DlqStatus} {found : EntryRow × EventRow}
    (listed : found ∈ db.entriesFor status) : found.1 ∈ db.entries := by
  obtain ⟨entry, member, shown⟩ := List.mem_filterMap.mp (List.mem_filter.mp listed).1
  obtain ⟨event, -, rfl⟩ := Option.map_eq_some_iff.mp shown
  exact member

theorem entries_growing (svc : Service) :
    Paging.Growing (fun w : World => w.db.entriesFor none) (·.1.id) (·.1.deadLetteredAt)
      (svc.Reaches .withoutPurge) (svc.Reaches .withoutPurge (.init Db.empty)) where
  names w reached := entriesFor_names (reaches_history wf_empty reached).1 none
  onward w w' reached later := reached.trans later
  kept := by
    intro w w' reached later found listed
    obtain ⟨triage, there⟩ := entries_stay reached later (mem_entriesFor listed)
    obtain ⟨event, shown⟩ := listed_entry (reaches_history wf_empty (reached.trans later)).1 there
    exact ⟨_, shown, rfl, rfl⟩

/-- Likewise the whole dead-letter queue, whatever is triaged and replayed meanwhile. -/
theorem browsing_finds_entries (svc : Service) {limit : Nat} {w last : World} {answers : List (List DlqRecord)}
    (reached : svc.Reaches .withoutPurge (.init Db.empty) w)
    (reads : Paging.Reads (fun offset w answer => ListsEntries none limit offset w.db answer) limit
      (svc.Reaches .withoutPurge) 0 w answers last)
    (distinct : ((last.db.entriesFor none).map (·.1.deadLetteredAt)).Nodup) :
    ∀ entry ∈ w.db.entries, ∃ answer ∈ answers, ∃ record ∈ answer, record.id = entry.id := by
  intro entry member
  obtain ⟨event, listed⟩ := listed_entry (reaches_history wf_empty reached).1 member
  obtain ⟨found, same, answer, read, shown⟩ := (entries_growing svc).finds reads reached distinct
    listed (by omega)
  exact ⟨answer, read, toRecord found.1 found.2, shown, same⟩

private def failed (t eventId : Nat) (key : String) (now : Int) : List Action :=
  Sample.store t (Sample.unknown key) ++ .spawn (t + 1) (.process eventId) :: Sample.ticks (t + 1) 13 now

private def lastFiledFirst (db : Db) : List (EntryRow × EventRow) := (db.entriesFor none).reverse

/-- Three entries, two to a page. Between the first two pages one more event is dead-lettered
and an operator resolves the entry that was last on the first page. -/
theorem browsing_finds_entries_sample : ∃ (w last : World) (first second third : List DlqRecord),
    Sample.service.Reaches .withoutPurge (.init Db.empty) w ∧ Sample.service.Reaches .withoutPurge w last ∧
    w.db.entries.map (fun entry => (entry.id, entry.status)) =
      [(1, .needsReview), (2, .needsReview), (3, .needsReview)] ∧
    last.db.entries.map (fun entry => (entry.id, entry.status)) =
      [(1, .needsReview), (2, .resolved), (3, .needsReview), (4, .needsReview)] ∧
    first.map (·.id) = [3, 2] ∧ second.map (·.id) = [2, 1] ∧ third = [] ∧
    ∀ entry ∈ w.db.entries, ∃ answer ∈ [first, second, third], ∃ record ∈ answer, record.id = entry.id := by
  obtain ⟨w, last, reached, later, shown⟩ := Sample.service.reaches_test₂ .withoutPurge (.init Db.empty)
    (failed 0 1 "u" 10 ++ failed 2 2 "v" 20 ++ failed 4 3 "w" 30)
    (failed 6 4 "x" 40 ++ .spawn 8 (.triage 2 .resolve none) :: Sample.ticks 8 6 50)
    (fun w last => w.db.entries.map (fun entry => (entry.id, entry.status)) =
        [(1, .needsReview), (2, .needsReview), (3, .needsReview)] ∧
      last.db.entries.map (fun entry => (entry.id, entry.status)) =
        [(1, .needsReview), (2, .resolved), (3, .needsReview), (4, .needsReview)] ∧
      (Paging.page 2 0 (lastFiledFirst w.db)).map (·.1.id) = [3, 2] ∧
      (Paging.page 2 2 (lastFiledFirst last.db)).map (·.1.id) = [2, 1] ∧
      (Paging.page 2 4 (lastFiledFirst last.db)).length = 0 ∧
      ((w.db.entriesFor none).map (·.1.deadLetteredAt)).Pairwise (· ≤ ·) ∧
      ((last.db.entriesFor none).map (·.1.deadLetteredAt)).Pairwise (· < ·))
    (by simp [failed, Sample.store, Sample.steps, Sample.ticks, Scope.permits, Scope.withoutPurge,
      Call.isPurge])
    (by decide +kernel)
  simp only [decide_eq_true_eq] at shown
  obtain ⟨before, after, page₁, page₂, page₃, rising, rising'⟩ := shown
  have ordered : Paging.Ordered (·.1.deadLetteredAt) (w.db.entriesFor none) (lastFiledFirst w.db) :=
    .of_rising rising
  have ordered' : Paging.Ordered (·.1.deadLetteredAt) (last.db.entriesFor none) (lastFiledFirst last.db) :=
    .of_rising (rising'.imp fun less => Int.le_of_lt less)
  have nothing : Paging.page 2 4 (lastFiledFirst last.db) = [] := List.eq_nil_of_length_eq_zero page₃
  let first := (Paging.page 2 0 (lastFiledFirst w.db)).map fun found => toRecord found.1 found.2
  let second := (Paging.page 2 2 (lastFiledFirst last.db)).map fun found => toRecord found.1 found.2
  have reads : Paging.Reads (fun offset w answer => ListsEntries none 2 offset w.db answer) 2
      (Sample.service.Reaches .withoutPurge) 0 w [first, second, []] last :=
    .more ⟨_, ordered, rfl⟩ later (.more ⟨_, ordered', rfl⟩ Txn.Reach.start
      (.last ⟨_, ordered', by rw [nothing]; rfl⟩ (by decide)))
  exact ⟨w, last, first, second, [], reached, later, before, after, List.map_map.trans page₁,
    List.map_map.trans page₂, rfl,
    browsing_finds_entries Sample.service reached reads (rising'.imp fun less => Int.ne_of_lt less)⟩

end WebhookReceiver
