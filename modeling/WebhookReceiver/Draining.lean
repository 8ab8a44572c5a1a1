import WebhookReceiver.Backlog
import WebhookReceiver.Entries
import WebhookReceiver.Solitude

/-!
Replaying the dead-letter queue (`admin.py::replay` of a request `dead_lettered`).

A request replays the oldest entries under review, as many as the limit allows, and a
replay that fails puts its entry back under review with the time it was dead-lettered
at. So requests in a row are rounds over a backlog (`Backlog`), and the entries that
come back are the first to be taken again: whether all have had their turn after
⌈N / L⌉ requests is a matter of how many came back before (`replays_drain_iff`).
-/

namespace WebhookReceiver

open Backlog (Round Rounds OldestFirst Covers putBack)

/-! ## Requests (`api/admin.py`) -/

/-- `queue.py::dead_lettered_event_ids`. What was dead-lettered at the same time comes in
any order. -/
def DeadLetteredEventIds (db : Db) (limit : Nat) (ids : List Nat) : Prop :=
  ∃ rows : List EntryRow, rows.Perm (db.entries.filter fun row => row.status = .needsReview) ∧
    rows.Pairwise (fun row later => row.deadLetteredAt ≤ later.deadLetteredAt) ∧
    ids = (rows.take limit).map (·.eventId)

/-- What a replay has returned. -/
def replayResult (w : World) : Option ReplayResult :=
  (w.threads 0).bind fun th =>
    match th.prog with
    | .done (.ok (.replayed result)) => some result
    | _ => none

/-- `replay.py::replay_events`: each event is replayed alone, and to the end. -/
inductive Service.ReplaysEvents (svc : Service) (requestedBy : String) (reason : Option String) :
    List Nat → Db → Db → Prop where
  | nil {db : Db} : ReplaysEvents svc requestedBy reason [] db db
  | cons {eventId : Nat} {ids : List Nat} {db after : Db} {w : World} {strikes : Strikes}
      (alone : svc.Solitary (.replay eventId requestedBy reason) strikes db w)
      (returned : (replayResult w).isSome = true)
      (rest : ReplaysEvents svc requestedBy reason ids w.db after) :
      ReplaysEvents svc requestedBy reason (eventId :: ids) db after

/-- A request that has been answered: the events it replayed, and the store it left. -/
structure Batch where
  ids : List Nat
  after : Db

/-- `admin.py::replay` of a request `dead_lettered`. -/
def Service.Replays (svc : Service) (limit : Nat) (db : Db) (batch : Batch) : Prop :=
  DeadLetteredEventIds db limit batch.ids ∧
    ∃ requestedBy reason, svc.ReplaysEvents requestedBy reason batch.ids db batch.after

/-- Requests one after the other, with nothing else going on. -/
def Service.ReplaysInTurn (svc : Service) (limit : Nat) : Db → List Batch → Prop
  | _, [] => True
  | db, batch :: rest => svc.Replays limit db batch ∧ svc.ReplaysInTurn limit batch.after rest

/-! ## The queue -/

/-- The events with an entry under review. -/
def Db.underReview (db : Db) : Finset Nat :=
  ((db.entries.filter fun row => row.status = .needsReview).map (·.eventId)).toFinset

/-- When each entry was dead-lettered. -/
def Db.stamps (db : Db) : List (Nat × Time) := db.entries.map fun row => (row.eventId, row.deadLetteredAt)

/-- When the event was dead-lettered. -/
def Db.stamp (db : Db) (eventId : Nat) : Time :=
  ((db.stamps.find? fun entry => entry.1 = eventId).map (·.2)).getD 0

theorem mem_underReview {db : Db} {eventId : Nat} :
    eventId ∈ db.underReview ↔ ∃ row ∈ db.entries, row.status = .needsReview ∧ row.eventId = eventId := by
  simp only [Db.underReview, List.mem_toFinset, List.mem_map, List.mem_filter, decide_eq_true_eq, and_assoc]

theorem stamp_of_mem {db : Db} (good : Wf db) {row : EntryRow} (member : row ∈ db.entries) :
    db.stamp row.eventId = row.deadLetteredAt := by
  have found : db.stamps.find? (fun entry => entry.1 = row.eventId) = some
      (row.eventId, row.deadLetteredAt) := by
    refine find?_unique (List.mem_map.mpr ⟨row, member, rfl⟩) (by simp) ?_
    rintro other there same
    obtain ⟨row', member', rfl⟩ := List.mem_map.mp there
    obtain rfl := List.inj_on_of_nodup_map good.entryEvents member' member (by simpa using same)
    rfl
  rw [Db.stamp, found]
  rfl

/-! ## What a replay does to the queue -/

/-- The entry, but for what triage makes of the one of the event. -/
def EntryRow.blur (eventId : Nat) (row : EntryRow) : EntryRow :=
  if row.eventId = eventId then { row with toEntryTriage := ⟨.needsReview, none, none⟩ } else row

/-- The entries are the same but for the triage of the one of the event. -/
def SameBut (eventId : Nat) (db db' : Db) : Prop :=
  db'.entries.map (EntryRow.blur eventId) = db.entries.map (EntryRow.blur eventId)

section Steps

variable {svc : Service} {scope : Scope} {trace : Trace} {db : Db} {writes : List Write} {eventId : Nat}

theorem Moves.sameBut {target : DlqStatus} {row : EntryRow} (good : Wf db) (moves : Moves db target row writes)
    (about : row.eventId = eventId) (view : Db) (same : view.entries = db.entries) :
    SameBut eventId db (view.after writes) := by
  cases moves with
  | move member legal =>
    simp only [SameBut, Db.after_cons, Db.after_nil, Write.apply, same, List.map_map]
    refine List.map_congr_left fun other there => ?_
    simp only [Function.comp_apply]
    split
    · rename_i hit
      obtain rfl := List.inj_on_of_nodup_map good.entryIds there member hit
      simp [EntryRow.blur, about]
    · rfl

/-- No transaction of a replay touches the entry of another event, or files one for an
event that has its entry. -/
theorem Committed.sameBut {requestedBy : String} {reason : Option String} (good : Wf db)
    (committed : Committed svc scope (.replay eventId requestedBy reason) trace db writes)
    (present : ∃ row ∈ db.entries, row.eventId = eventId) : SameBut eventId db (db.after writes) := by
  have unchanged : (db.after writes).entries = db.entries → SameBut eventId db (db.after writes) := by
    intro same
    rw [SameBut, same]
  cases committed with
  | idle => exact unchanged rfl
  | dealt passing done => exact unchanged done.entries.2
  | failed passing done =>
    obtain ⟨-, same | ⟨absent, -⟩⟩ := done.entries
    · exact unchanged same
    · obtain ⟨row, member, about⟩ := present
      simp only [Call.passesOver, decide_eq_true_eq] at passing
      exact absurd (about.trans passing) (absent row member)
  | started replay done =>
    cases replay
    cases done with
    | requeued found marks =>
      rcases marks with rfl | ⟨row, about, moves⟩
      · exact unchanged rfl
      · exact moves.sameBut good about (Write.apply _ db) rfl
  | finished replay done =>
    cases replay
    cases done with
    | finished about honest settles =>
      rcases settles with rfl | ⟨row, named, ⟨-, moves⟩ | ⟨-, moves⟩⟩
      · exact unchanged rfl
      · exact moves.sameBut good named (Write.apply _ db) rfl
      · exact moves.sameBut good named (Write.apply _ db) rfl
  | moved triage => cases triage
  | stored stores => exact stores.elim
  | purged purge => cases purge

end Steps

namespace SameBut

variable {db db' : Db} {eventId : Nat}

theorem stamps (same : SameBut eventId db db') : db'.stamps = db.stamps := by
  have blurred : ∀ view : Db, view.stamps =
      (view.entries.map (EntryRow.blur eventId)).map fun row => (row.eventId, row.deadLetteredAt) := by
    intro view
    rw [List.map_map]
    refine List.map_congr_left fun row _ => ?_
    simp only [Function.comp_apply, EntryRow.blur]
    split <;> rfl
  rw [blurred, same, ← blurred]

theorem underReview_iff (same : SameBut eventId db db') {other : Nat} (differ : other ≠ eventId) :
    other ∈ db'.underReview ↔ other ∈ db.underReview := by
  have blurred : ∀ view : Db, other ∈ view.underReview ↔
      ∃ row ∈ view.entries.map (EntryRow.blur eventId), row.status = .needsReview ∧ row.eventId = other := by
    intro view
    rw [mem_underReview]
    constructor
    · rintro ⟨row, member, status, rfl⟩
      exact ⟨_, List.mem_map_of_mem member, by simp [EntryRow.blur, differ,
        status], by simp [EntryRow.blur, differ]⟩
    · rintro ⟨_, there, status, about⟩
      obtain ⟨row, member, rfl⟩ := List.mem_map.mp there
      have untouched : row.blur eventId = row := by
        unfold EntryRow.blur at about ⊢
        split
        · rename_i hit
          rw [if_pos hit] at about
          exact absurd (about.symm.trans hit) differ
        · rfl
      rw [untouched] at status about
      exact ⟨row, member, status, about⟩
  rw [blurred, blurred, same]

end SameBut

theorem mem_stamps {db : Db} {eventId : Nat} :
    (∃ row ∈ db.entries, row.eventId = eventId) ↔ eventId ∈ db.stamps.map (·.1) := by
  simp [Db.stamps, eq_comm]

section Replays

variable {svc : Service} {db after : Db} {requestedBy : String} {reason : Option String}

theorem solitary_sameBut {eventId : Nat} {strikes : Strikes} {w : World} (good : Wf db)
    (alone : svc.Solitary (.replay eventId requestedBy reason) strikes db w)
    (present : eventId ∈ db.stamps.map (·.1)) : Wf w.db ∧ SameBut eventId db w.db := by
  obtain ⟨good', past⟩ := reaches_history good (solitary_reaches alone)
  refine ⟨good', past.keeps (P := SameBut eventId db) rfl (fun _ same => same) (fun _ _ same => same) ?_⟩
  intro entry member good called committed same
  have call : entry.call = .replay eventId requestedBy reason := called
  rw [call] at committed
  have there := mem_stamps.mpr (same.stamps ▸ present)
  exact (committed.sameBut good there).trans same

/-- A batch of replays leaves alone what it does not replay. -/
theorem Service.ReplaysEvents.spares {ids : List Nat}
    (replays : svc.ReplaysEvents requestedBy reason ids db after)
    (good : Wf db) (present : ∀ id ∈ ids, id ∈ db.stamps.map (·.1)) :
    Wf after ∧ after.stamps = db.stamps ∧
      ∀ other, other ∉ ids → (other ∈ after.underReview ↔ other ∈ db.underReview) := by
  induction replays with
  | nil => exact ⟨good, rfl, fun _ _ => Iff.rfl⟩
  | cons alone returned rest ih =>
    obtain ⟨first, others⟩ := List.forall_mem_cons.mp present
    obtain ⟨good', same⟩ := solitary_sameBut good alone first
    obtain ⟨good'', stamps, spared⟩ := ih good' fun id member => same.stamps ▸ others id member
    refine ⟨good'', stamps.trans same.stamps, fun other apart => ?_⟩
    rw [List.mem_cons, not_or] at apart
    exact (spared other apart.2).trans (same.underReview_iff apart.1)

end Replays

/-! ## Requests are rounds -/

/-- What a request takes from the queue, and what is under review again after it. -/
def Batch.round (batch : Batch) : Round Nat :=
  ⟨batch.ids.toFinset, batch.ids.toFinset ∩ batch.after.underReview⟩

section Requests

variable {svc : Service} {limit : Nat} {db : Db} {batch : Batch}

theorem DeadLetteredEventIds.present {ids : List Nat} (selected : DeadLetteredEventIds db limit ids) {id : Nat}
    (member : id ∈ ids) : id ∈ db.stamps.map (·.1) := by
  obtain ⟨rows, perm, -, rfl⟩ := selected
  obtain ⟨row, there, rfl⟩ := List.mem_map.mp member
  have waiting := List.mem_filter.mp (perm.subset (List.mem_of_mem_take there))
  exact mem_stamps.mp ⟨row, waiting.1, rfl⟩

theorem nodup_underReview (good : Wf db) :
    ((db.entries.filter fun row => row.status = .needsReview).map (·.eventId)).Nodup :=
  (List.filter_sublist.map _).nodup good.entryEvents

/-- The request is a round over the queue, and leaves the queue that the round leaves. -/
theorem Service.Replays.round (good : Wf db) (replays : svc.Replays limit db batch) :
    batch.round.Fits limit db.underReview ∧ batch.round.left db.underReview = batch.after.underReview := by
  obtain ⟨selected, requestedBy, reason, replayed⟩ := replays
  obtain ⟨-, -, spared⟩ := replayed.spares good fun id member => selected.present member
  obtain ⟨rows, perm, -, ids⟩ := selected
  have names : (rows.map (·.eventId)).Perm
      ((db.entries.filter fun row => row.status = .needsReview).map (·.eventId)) := perm.map _
  have nodup : (rows.map (·.eventId)).Nodup := names.nodup_iff.mpr (nodup_underReview good)
  have waiting : db.underReview = (rows.map (·.eventId)).toFinset := by
    rw [Db.underReview]
    exact (List.toFinset_eq_of_perm _ _ names).symm
  have taken : batch.ids = (rows.map (·.eventId)).take limit := by rw [ids, List.map_take]
  refine ⟨⟨?_, Finset.inter_subset_left, ?_⟩, ?_⟩
  · intro id member
    rw [waiting, List.mem_toFinset]
    have there := List.mem_toFinset.mp member
    rw [taken] at there
    exact List.mem_of_mem_take there
  · have some : batch.ids.Nodup := taken ▸ (List.take_sublist ..).nodup nodup
    simp only [Batch.round]
    rw [List.toFinset_card_of_nodup some, waiting, List.toFinset_card_of_nodup nodup, taken, List.length_take]
  · ext other
    simp only [Round.left, Batch.round, Finset.mem_union, Finset.mem_sdiff, Finset.mem_inter, List.mem_toFinset]
    by_cases hit : other ∈ batch.ids
    · simp [hit]
    · simp [hit, spared other hit]

theorem Service.Replays.oldest (good : Wf db) (replays : svc.Replays limit db batch) :
    batch.round.Oldest db.stamp db.underReview := by
  obtain ⟨⟨rows, perm, sorted, ids⟩, -⟩ := replays
  intro item taken other waits
  simp only [Batch.round, Finset.mem_sdiff, List.mem_toFinset, ids, List.mem_map] at taken waits
  obtain ⟨row, early, rfl⟩ := taken
  obtain ⟨row', member', status, rfl⟩ := mem_underReview.mp waits.1
  have listed : row' ∈ rows := perm.symm.subset (List.mem_filter.mpr ⟨member', by simpa using status⟩)
  have member := (List.mem_filter.mp (perm.subset (List.mem_of_mem_take early))).1
  rw [stamp_of_mem good member, stamp_of_mem good member']
  rw [← List.take_append_drop limit rows] at sorted listed
  rcases List.mem_append.mp listed with taken | late
  · exact absurd ⟨row', taken, rfl⟩ waits.2
  · exact (List.pairwise_append.mp sorted).2.2 row early row' late

theorem Service.ReplaysInTurn.rounds {batches : List Batch} (good : Wf db)
    (requests : svc.ReplaysInTurn limit db batches) :
    Rounds limit db.underReview (batches.map Batch.round) ∧
      OldestFirst db.stamp db.underReview (batches.map Batch.round) := by
  induction batches generalizing db with
  | nil => exact ⟨trivial, trivial⟩
  | cons batch rest ih =>
    obtain ⟨replays, requests⟩ := requests
    obtain ⟨fits, left⟩ := replays.round good
    obtain ⟨selected, requestedBy, reason, replayed⟩ := id replays
    obtain ⟨good', stamps, -⟩ := replayed.spares good fun id member => selected.present member
    have same : batch.after.stamp = db.stamp := by
      funext id
      rw [Db.stamp, Db.stamp, stamps]
    obtain ⟨rounds, oldest⟩ := ih good' requests
    rw [← left] at rounds oldest
    exact ⟨⟨fits, rounds⟩, replays.oldest good, same ▸ oldest⟩

end Requests

/-- How many replays of all requests but the last left their entry under review. -/
def comeBack (batches : List Batch) : Nat := putBack (batches.map Batch.round)

/-- Every entry under review is replayed by one of the requests. -/
def ReplaysAll (db : Db) (batches : List Batch) : Prop :=
  ∀ id ∈ db.underReview, ∃ batch ∈ batches, id ∈ batch.ids

theorem replaysAll_iff {db : Db} {batches : List Batch} :
    ReplaysAll db batches ↔ Covers db.underReview (batches.map Batch.round) := by
  simp [ReplaysAll, Covers, Batch.round]

/-- With N entries under review, r requests in a row (⌈N / L⌉ among others) replay each of
them if no more than r * L - N replays before the last request leave their entry under
review; and if no two entries were dead-lettered at the same time, only then. -/
theorem replays_drain_iff (svc : Service) {w : World} (reached : svc.Reaches .any (.init Db.empty) w)
    {limit : Nat} {batches : List Batch} (requests : svc.ReplaysInTurn limit w.db batches) :
    (w.db.underReview.card + comeBack batches ≤ batches.length * limit → ReplaysAll w.db batches) ∧
    (Set.InjOn w.db.stamp w.db.underReview → (ReplaysAll w.db batches ↔
      w.db.underReview.card + comeBack batches ≤ batches.length * limit)) := by
  obtain ⟨good, -⟩ := reaches_history wf_empty reached
  obtain ⟨rounds, oldest⟩ := requests.rounds good
  have length : (batches.map Batch.round).length = batches.length := List.length_map ..
  constructor
  · intro room
    exact replaysAll_iff.mpr (rounds.covers (length.symm ▸ room))
  · intro distinct
    have exact' := rounds.covers_iff oldest distinct
    rw [length] at exact'
    exact replaysAll_iff.trans exact'

/-! ## Two entries under review -/

/-- The entries under review, in the order in which they were filed. -/
private def reviewed (db : Db) : List EntryRow := db.entries.filter fun row => row.status = .needsReview

/-- The entries of these events are under review, and were dead-lettered one after the other. -/
private def queued (ids : List Nat) (db : Db) : Bool :=
  (reviewed db).map (·.eventId) = ids ∧ ((reviewed db).map (·.deadLetteredAt)).Pairwise (· ≤ ·) ∧
    db.underReview = ids.toFinset

private theorem queued_selected {ids : List Nat} {db : Db} (waits : queued ids db = true) (limit : Nat) :
    DeadLetteredEventIds db limit (ids.take limit) := by
  obtain ⟨rfl, rising, -⟩ := of_decide_eq_true waits
  exact ⟨reviewed db, .refl _, List.pairwise_map.mp rising, List.map_take.symm⟩

private theorem queued_underReview {ids : List Nat} {db : Db} (waits : queued ids db = true) :
    db.underReview = ids.toFinset :=
  (of_decide_eq_true waits).2.2

/-- Two events without a handler, dead-lettered after ten seconds and after twenty. -/
private def unhandled : List Action :=
  Sample.store 0 (Sample.unknown "u") ++ Sample.store 1 (Sample.unknown "v") ++
    .spawn 2 (.process 1) :: Sample.ticks 2 13 10 ++ .spawn 3 (.process 2) :: Sample.ticks 3 13 20

/-- The first one is a credit instead, and the server was starting up when a worker claimed it. -/
private def failover : List Action :=
  Sample.store 0 (Sample.credit "c" 100 1) ++ Sample.store 1 (Sample.unknown "v") ++
    .spawn 2 (.process 1) :: Sample.ticks 2 1 10 ++
    .fault 2 ⟨"CannotConnectNowError", "the database system is starting up", .other (some "57P03")⟩ ::
    Sample.ticks 2 8 10 ++ .spawn 3 (.process 2) :: Sample.ticks 3 13 20

private def replayed (db : Db) (eventId steps : Nat) : Option World :=
  Txn.runLonely Sample.service.system 0 (fun _ => false)
    (Txn.World.begin Sample.service.system db 0 (.replay eventId "operator" none)) (Sample.ticks 0 steps 30)

private theorem replayed_alone {db : Db} {eventId steps : Nat} {w : World}
    (ran : replayed db eventId steps = some w) :
    Sample.service.Solitary (.replay eventId "operator" none) (fun _ _ => False) db w :=
  (Txn.reach_of_lonely ran).mono fun _ action lonely => by
    cases action with
    | fault t e => simp [Txn.Lonely] at lonely
    | _ => exact lonely

/-- Two replays, one after the other, and what is under review between them. -/
private theorem two_replays (schedule : List Action) (first second steps steps' : Nat) (left : List Nat)
    (passed : ((Sample.service.runFrom (.init Db.empty) schedule).any fun w => queued [1, 2] w.db &&
      (replayed w.db first steps).any fun w₁ => (replayResult w₁).isSome && queued left w₁.db &&
        (replayed w₁.db second steps').any fun w₂ => (replayResult w₂).isSome) = true) :
    ∃ w w₁ w₂, Sample.service.Reaches .any (.init Db.empty) w ∧
      queued [1, 2] w.db = true ∧ queued left w₁.db = true ∧
      Sample.service.Solitary (.replay first "operator" none) (fun _ _ => False) w.db w₁ ∧
      Sample.service.Solitary (.replay second "operator" none) (fun _ _ => False) w₁.db w₂ ∧
      (replayResult w₁).isSome = true ∧ (replayResult w₂).isSome = true := by
  obtain ⟨w, ran, shown⟩ := (Option.any_eq_true _ _).mp passed
  obtain ⟨wait, next⟩ := Bool.and_eq_true_iff.mp shown
  obtain ⟨w₁, ran₁, shown₁⟩ := (Option.any_eq_true _ _).mp next
  obtain ⟨both, next₁⟩ := Bool.and_eq_true_iff.mp shown₁
  obtain ⟨returned, wait₁⟩ := Bool.and_eq_true_iff.mp both
  obtain ⟨w₂, ran₂, returned₂⟩ := (Option.any_eq_true _ _).mp next₁
  exact ⟨w, w₁, w₂, Service.reaches_runFrom (fun action _ => Scope.any_permits action) ran, wait, wait₁,
    replayed_alone ran₁, replayed_alone ran₂, returned, returned₂⟩

/-- Two requests that take one each: the first replay succeeds and its entry is resolved, so
the second request comes to the other one. -/
theorem replays_drain_sample : ∃ w batches, Sample.service.Reaches .any (.init Db.empty) w ∧
    Sample.service.ReplaysInTurn 1 w.db batches ∧ w.db.underReview.card = 2 ∧
    batches.map Batch.ids = [[1], [2]] ∧ ReplaysAll w.db batches := by
  obtain ⟨w, w₁, w₂, reached, wait, wait₁, alone, alone₂, returned, returned₂⟩ :=
    two_replays failover 1 2 28 29 [2] (by decide +kernel)
  let first : Batch := ⟨[1], w₁.db⟩
  let second : Batch := ⟨[2], w₂.db⟩
  have requests : Sample.service.ReplaysInTurn 1 w.db [first, second] :=
    ⟨⟨queued_selected wait 1, "operator", none, .cons alone returned .nil⟩,
      ⟨queued_selected wait₁ 1, "operator", none, .cons alone₂ returned₂ .nil⟩, trivial⟩
  have count : w.db.underReview.card = 2 := by
    rw [queued_underReview wait]
    rfl
  have none : comeBack [first, second] = 0 := by
    simp [comeBack, putBack, Batch.round, first, queued_underReview wait₁]
  have room : w.db.underReview.card + comeBack [first, second] ≤ [first, second].length * 1 := by
    rw [count, none]
    exact le_rfl
  exact ⟨w, [first, second], reached, requests, count, rfl,
    (replays_drain_iff Sample.service reached requests).1 room⟩

/-- Two requests that take one each both take the older one. -/
theorem replays_stall : ∃ w batches, Sample.service.Reaches .any (.init Db.empty) w ∧
    Sample.service.ReplaysInTurn 1 w.db batches ∧ w.db.underReview.card = 2 ∧ batches.length = 2 ∧
    ¬ ReplaysAll w.db batches := by
  obtain ⟨w, w₁, w₂, reached, wait, wait₁, alone, alone₂, returned, returned₂⟩ :=
    two_replays unhandled 1 1 29 29 [1, 2] (by decide +kernel)
  let first : Batch := ⟨[1], w₁.db⟩
  let second : Batch := ⟨[1], w₂.db⟩
  have requests : Sample.service.ReplaysInTurn 1 w.db [first, second] :=
    ⟨⟨queued_selected wait 1, "operator", none, .cons alone returned .nil⟩,
      ⟨queued_selected wait₁ 1, "operator", none, .cons alone₂ returned₂ .nil⟩, trivial⟩
  have waiting := queued_underReview wait
  refine ⟨w, [first, second], reached, requests, by rw [waiting]; rfl, rfl, fun all => ?_⟩
  obtain ⟨batch, among, taken⟩ := all 2 (by rw [waiting]; decide)
  rcases List.mem_pair.mp among with rfl | rfl <;> simp [first, second] at taken

end WebhookReceiver
