import WebhookReceiver.Custody
import WebhookReceiver.Idempotence

/-!
What retention may take away.

`sp_purge_history` deletes events that ended well and have no ledger entry. With the
shipped handlers such an event is a snapshot that was superseded (`Settled`), and
once a snapshot is superseded it is superseded for good, whoever delivers its body
again and under whatever id it is then stored (`Superseded`). So the deduplication
key that goes with the event protects nothing any more.
-/

namespace WebhookReceiver

/-! ## The body of a delivery -/

/-- Two deliveries say the same: everything that is read from the signed body agrees. -/
structure SameBody (event other : IncomingEvent) : Prop where
  externalId : other.externalId = event.externalId
  eventType : other.eventType = event.eventType
  entityType : other.entityType = event.entityType
  entityId : other.entityId = event.entityId
  payload : other.payload = event.payload
  occurredAt : other.occurredAt = event.occurredAt
  providerSequence : other.providerSequence = event.providerSequence

/-- Requests with one body are stored as events that say the same. -/
theorem sameBody_of_rawBody {svc : Service} {request other : Request}
    {routed routed' : WebhookEnvelope × String} (same : other.rawBody = request.rawBody)
    (first : svc.route request = .ok routed) (second : svc.route other = .ok routed') :
    SameBody (request.event routed) (other.event routed') := by
  have envelope {request : Request} {routed : WebhookEnvelope × String}
      (known : svc.route request = .ok routed) :
      Schemas.parseEnvelope svc.wire request.rawBody = .ok routed.1 := by
    simp only [Service.route, bind, Except.bind] at known
    cases parsed : Schemas.parseEnvelope svc.wire request.rawBody with
    | error e => simp [parsed] at known
    | ok envelope =>
      simp only [parsed] at known
      split at known
      · cases known
      · cases known
        rfl
  have agree : routed'.1 = routed.1 := by
    have again := envelope second
    rw [same, envelope first] at again
    exact (Except.ok.inj again).symm
  constructor <;> simp [Request.event, Schemas.toIncomingEvent, agree]

/-- The shipped handlers look at the body alone. -/
theorem Balance.dispatch_sameBody {event other : EventRow}
    (same : SameBody event.toIncomingEvent other.toIncomingEvent) :
    Balance.registry.dispatch other.toDomain = Balance.registry.dispatch event.toDomain := by
  have alike : other.toDomain = { event.toDomain with
      id := other.id, source := other.source, attemptCount := other.attemptCount } := by
    simp [EventRow.toDomain, same.eventType, same.entityType, same.entityId, same.payload,
      same.occurredAt, same.providerSequence]
  rw [alike]
  unfold HandlerRegistry.dispatch
  cases found : Balance.registry.handlers.find? fun entry => entry.1 = event.toDomain.eventType with
  | none => rfl
  | some entry =>
    have member := List.mem_of_find?_eq_some found
    simp only [Balance.registry, List.mem_cons, List.not_mem_nil, or_false] at member
    rcases member with rfl | rfl | rfl <;> rfl

/-! ## Superseded for good -/

/-- An event with a ledger entry or a superseded snapshot: the effect of whatever has
ended well is spent. -/
def Settled (registry : HandlerRegistry) (db : Db) : Prop :=
  ∀ id event, db.event? id = some event → event.status = .succeeded →
    ∀ effect, registry.dispatch event.toDomain = .ok effect → effect.spent id db.books

/-- A snapshot that the account has left behind. -/
def Effect.Superseded (books : Books) (effect : Effect) : Prop :=
  ∃ snapshot state, effect = .setBalance snapshot ∧ books.account snapshot.accountRef = some state ∧
    snapshot.sequence ≤ state.version

theorem Effect.Superseded.spent {books : Books} {effect : Effect} (left : effect.Superseded books)
    (id : Nat) : effect.spent id books := by
  obtain ⟨snapshot, state, rfl, found, stale⟩ := left
  exact ⟨state, found, Or.inr stale⟩

theorem Effect.Superseded.mono {books later : Books} {effect : Effect} (forward : books.Le later)
    (left : effect.Superseded books) : effect.Superseded later := by
  obtain ⟨snapshot, state, rfl, found, stale⟩ := left
  obtain ⟨state', still, newer⟩ := forward.account _ _ found
  exact ⟨snapshot, state', rfl, still, stale.trans newer⟩

/-- What is spent without a posting is a superseded snapshot. -/
theorem superseded_of_spent {books : Books} {id : Nat} {effect : Effect}
    (spent : effect.spent id books) (unposted : books.posted id = none) : effect.Superseded books := by
  cases effect with
  | credit effect => simp [Effect.spent, unposted] at spent
  | setBalance effect =>
    obtain ⟨state, found, posted | stale⟩ := spent
    · simp [unposted] at posted
    · exact ⟨effect, state, rfl, found, stale⟩

/-- Whoever says the same as this event asks for nothing that is left to do. -/
def Worthless (registry : HandlerRegistry) (event : IncomingEvent) (db : Db) : Prop :=
  ∀ row : EventRow, SameBody event row.toIncomingEvent →
    ∀ effect, registry.dispatch row.toDomain = .ok effect → effect.Superseded db.books

section Steps

variable {svc : Service} {scope : Scope} {call : Call} {trace : Trace} {db : Db} {writes : List Write}

section Shipped

variable (shipped : svc.registry = Balance.registry)
include shipped

theorem Committed.keeps_settled (good : Wf db) (committed : Committed svc scope call trace db writes)
    (settled : Settled svc.registry db) : Settled svc.registry (db.after writes) := by
  intro id event after succeeded effect dispatched
  have strict : svc.registry.OwnsEntity := shipped ▸ Balance.registry_ownsEntity
  cases committed.eventStep after with
  | same before spared unqueued =>
    exact Books.spent_mono (committed.forward strict good) (settled id event before succeeded effect dispatched)
  | dealt found kept pending status count recorded received unqueued =>
    obtain ⟨-, result, done⟩ := committed.dealtWith recorded
    exact (done.doneWith shipped good).2 event effect after dispatched
  | failed found kept status count recorded received due unqueued filed =>
    rcases status with ⟨pending, -⟩ | dead
    · rw [pending] at succeeded
      cases succeeded
    · rw [dead] at succeeded
      cases succeeded
  | requeued found kept replay status spared count received wrote queued =>
    rw [status] at succeeded
    cases succeeded
  | stored absent unused status count spared delivered due unqueued =>
    rw [status] at succeeded
    cases succeeded

theorem Committed.keeps_worthless {event : IncomingEvent} (good : Wf db)
    (committed : Committed svc scope call trace db writes)
    (worthless : Worthless svc.registry event db) : Worthless svc.registry event (db.after writes) := by
  have strict : svc.registry.OwnsEntity := shipped ▸ Balance.registry_ownsEntity
  intro row same effect dispatched
  exact (worthless row same effect dispatched).mono (committed.forward strict good)

/-- An event that retention deletes is worthless to whoever delivers it again. -/
theorem worthless_of_settled {row : EventRow} (settled : Settled svc.registry db)
    (found : db.event? row.id = some row) (succeeded : row.status = .succeeded)
    (free : ∀ entry ∈ db.ledger, entry.eventId ≠ row.id) :
    Worthless svc.registry row.toIncomingEvent db := by
  intro other same effect dispatched
  rw [shipped, Balance.dispatch_sameBody same, ← shipped] at dispatched
  exact superseded_of_spent (settled row.id row found succeeded effect dispatched) (books_unposted free)

/-- A pass over a worthless event leaves accounts and ledger alone. -/
theorem Committed.worthless {id : Nat} {event : IncomingEvent} {row : EventRow} (good : Wf db)
    (committed : Committed svc scope call trace db writes) (passing : call.passesOver id = true)
    (found : db.event? id = some row) (same : SameBody event row.toIncomingEvent)
    (worthless : Worthless svc.registry event db) :
    (db.after writes).accounts = db.accounts ∧ (db.after writes).ledger = db.ledger := by
  refine committed.idempotent shipped good passing
    ⟨Or.inl ⟨row, found⟩, fun other effect there dispatched => ?_⟩
  rw [found] at there
  cases there
  exact (worthless row same effect dispatched).spent id

end Shipped

/-- The transaction deletes the event. -/
def Deletes (entry : Commit) (row : EventRow) : Prop :=
  entry.before.event? row.id = some row ∧ (entry.before.after entry.writes).event? row.id = none

/-- Only retention deletes events, and of them those that ended well without an effect. -/
theorem Committed.deletes {entry : Commit} {row : EventRow}
    (committed : Committed svc scope entry.call entry.trace entry.before entry.writes)
    (deletes : Deletes entry row) :
    row.status = .succeeded ∧ ∀ posted ∈ entry.before.ledger, posted.eventId ≠ row.id := by
  obtain ⟨found, gone⟩ := deletes
  by_cases deleted : Write.deleteEvent row.id ∈ entry.writes
  · cases called : entry.call.isPurge with
    | false =>
      obtain ⟨event', there, -⟩ := committed.keeps_event called found
      rw [gone] at there
      cases there
    | true =>
      generalize same : Write.deleteEvent row.id = write at deleted
      cases committed.purges called write deleted with
      | attempts => cases same
      | @event other cutoff there expired free =>
        simp only [Write.deleteEvent.injEq] at same
        rw [← same, found] at there
        cases there
        simp only [EventRow.expired, decide_eq_true_eq] at expired
        exact ⟨expired.1, free⟩
  · obtain ⟨event', there, -⟩ := event_after deleted found
    rw [gone] at there
    cases there

theorem purges_clerical (purges : ∀ write ∈ writes, Purges db write) :
    ∀ write ∈ writes, write.business = false := by
  intro write member
  cases purges write member with
  | attempts => rfl
  | event found expired free => rfl

end Steps

theorem Service.History.settled {svc : Service} (shipped : svc.registry = Balance.registry)
    {scope : Scope} {last : Db} {log : List Commit} (past : svc.History scope Db.empty last log) :
    Settled svc.registry last := by
  refine past.keeps ?_ ?_ ?_ ?_
  · intro id event found
    simp [Db.event?, Db.empty] at found
  · exact fun table settled => settled
  · exact fun ids _ settled => settled
  · exact fun entry member good called committed settled => committed.keeps_settled shipped good settled

/-- The transaction leaves accounts and ledger as they are. -/
def SparesMoney (entry : Commit) : Prop :=
  (entry.before.after entry.writes).accounts = entry.before.accounts ∧
    (entry.before.after entry.writes).ledger = entry.before.ledger

/-- Retention moves no money and deletes nothing but events that ended well without an
effect. And when the body of such an event is delivered again and stored as a new
event, no pass over that one moves money either, then or later. -/
theorem retention_is_safe (svc : Service) (shipped : svc.registry = Balance.registry) {w : World}
    (reached : svc.Reaches .any (.init Db.empty) w) :
    (∀ entry ∈ w.log, entry.call.isPurge = true → SparesMoney entry ∧
      ∀ row, Deletes entry row →
        row.status = .succeeded ∧ ∀ posted ∈ entry.before.ledger, posted.eventId ≠ row.id) ∧
    w.log.Pairwise fun earlier later => ∀ row again : EventRow, Deletes earlier row →
      later.before.event? again.id = some again →
      SameBody row.toIncomingEvent again.toIncomingEvent →
      later.call.passesOver again.id = true → SparesMoney later := by
  obtain ⟨-, past⟩ := reaches_history wf_empty reached
  constructor
  · intro entry member called
    obtain ⟨_, _, -, -, -, -, described, -⟩ := past.at member
    have committed := described.cases
    exact ⟨Db.after_clerical (purges_clerical (committed.purges called)) entry.before,
      fun row deletes => committed.deletes deletes⟩
  · have since (row : EventRow) : w.log.Pairwise fun earlier later =>
        Deletes earlier row → Worthless svc.registry row.toIncomingEvent later.before := by
      refine (past.since (P := Worthless svc.registry row.toIncomingEvent) ?_ ?_ ?_ ?_).1
      · intro entry member good committed deletes
        obtain ⟨before, _, -, earlier, -⟩ := past.at member
        have settled : Settled svc.registry entry.before :=
          Service.History.settled shipped (show svc.History _ Db.empty _ before from earlier)
        obtain ⟨succeeded, free⟩ := committed.deletes deletes
        exact committed.keeps_worthless shipped good
          (worthless_of_settled shipped settled deletes.1 succeeded free)
      · exact fun table worthless => worthless
      · exact fun ids _ worthless => worthless
      · exact fun entry member good called committed worthless =>
          committed.keeps_worthless shipped good worthless
    refine List.pairwise_iff_getElem.mpr fun i j low high less row again deletes found same passing => ?_
    have worthless := List.pairwise_iff_getElem.mp (since row) i j low high less deletes
    obtain ⟨_, _, -, -, good, -, described, -⟩ := past.at (List.getElem_mem high)
    exact described.cases.worthless shipped good passing found same worthless

/-- A superseded snapshot is deleted and delivered again under its old key: it is
superseded again. -/
theorem retention_is_safe_sample : ∃ w, Sample.service.Reaches .any (.init Db.empty) w ∧
    w.db.events.map (fun row => (row.id, row.idempotencyKey, row.status)) =
      [(1, "c", .succeeded), (3, "s", .succeeded)] ∧ w.db.purged = [2] ∧
    w.db.accounts.map (·.balanceMinor) = [100] ∧
    ∀ entry ∈ w.log, entry.call.isPurge = true → SparesMoney entry := by
  let schedule : List Action :=
    Sample.store 0 (Sample.credit "c" 100 5) ++ Sample.store 1 (Sample.snapshot "s" 500 2) ++
    .spawn 2 (.process 1) :: Sample.steps 2 12 ++ .spawn 3 (.process 2) :: Sample.steps 3 12 ++
    .spawn 4 (.purge 0) :: Sample.ticks 4 5 10 ++
    Sample.store 5 (Sample.snapshot "s" 500 2) ++ .spawn 6 (.process 3) :: Sample.steps 6 12
  obtain ⟨w, reached, shown⟩ := Sample.service.reaches_test .any (.init Db.empty) schedule
    (fun w => w.db.events.map (fun row => (row.id, row.idempotencyKey, row.status)) =
      [(1, "c", .succeeded), (3, "s", .succeeded)] ∧ w.db.purged = [2] ∧
      w.db.accounts.map (·.balanceMinor) = [100])
    (fun action _ => Scope.any_permits action) (by decide +kernel)
  simp only [decide_eq_true_eq] at shown
  exact ⟨w, reached, shown.1, shown.2.1, shown.2.2, fun entry member called =>
    ((retention_is_safe Sample.service rfl reached).1 entry member called).1⟩

end WebhookReceiver
