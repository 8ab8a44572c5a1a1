import WebhookReceiver.Acceptance
import WebhookReceiver.Api.Authenticity
import WebhookReceiver.Custody
import WebhookReceiver.Propagation
import WebhookReceiver.Txn.Phases

/-!
Where the rows come from.

The endpoint is the one way into the inbox (`webhooks.py::ingest` is all that calls
`ingest_event`), and it opens its transaction after the signature has held. `vetted`
follows a delivery to its commit: by then the call has read the time, and the request
authenticates at it. `signed_origins` carries this through the runs: every event is what
a signed request carried, every account was named by such an event, and every posting is
what the handlers make of one.
-/

namespace WebhookReceiver

open Txn (Prog)

/-! ## What a delivery has checked when it commits -/

def Call.isIngest : Call → Bool
  | .ingest _ => true
  | _ => false

/-- Everything that a deployment runs. Events come in through the endpoint only. -/
def Scope.served : Scope := ⟨fun call => call.isIngest = false, fun _ => True⟩

/-- What a delivery commits, it commits after its request has been authenticated. -/
def Vetted (svc : Service) (call : Call) (trace : Trace) (_writes : List Write) : Prop :=
  ∀ request, call = .deliver request → svc.authenticates request trace

/-- What a delivery answers once the signature has held, it answers to an authenticated
request. -/
def Admitted (svc : Service) (call : Call) (result : Except Exc Outcome) (trace : Trace) : Prop :=
  ∀ request response, call = .deliver request → result = .ok (.answered response) →
    response ≠ .payloadTooLarge → response ≠ .unauthorized → svc.authenticates request trace

theorem clock_append {trace more : Trace} {now : Time} (read : trace.clock = some now) :
    Trace.clock (trace ++ more) = some now := by
  rw [Trace.clock] at read
  rw [Trace.clock, List.findSome?_append, read]
  rfl

theorem only_ingestEvent (event : IncomingEvent) : (ingestEvent event).Only fun _ => True := by
  refine Prog.only_bind (Prog.only_perform trivial) fun inserted => ?_
  cases inserted with
  | some id => exact trivial
  | none => exact Prog.only_bind (Prog.only_perform trivial) fun _ => trivial

section Deliver

variable {svc : Service} {scope : Scope} {request : Request}

/-- The transaction that stores the event begins and ends with the time known. -/
theorem vetted_store {event : IncomingEvent} {trace : Trace} {now : Time} (read : trace.clock = some now)
    (authentic : ∀ trace : Trace, trace.clock = some now → svc.authenticates request trace) :
    (svc.discipline scope).along (Vetted svc (.deliver request)) (sessionScope (ingestEvent event)) [] trace
      (Txn.Discipline.Gives fun _ _ trace => Trace.clock trace = some now) := by
  refine Txn.Discipline.along_mono (fun r writes trace given => ?_)
    (Txn.Discipline.along_only (P := fun _ => True)
    (K := fun _ => True) (I := fun trace => Trace.clock trace = some now)
    (only_sessionScope (only_ingestEvent event)) ?_ ?_ ?_ (by simp) read)
  · cases r with
    | ok result => exact given.2
    | error e => exact trivial
  · exact fun _ _ _ _ _ _ _ => trivial
  · exact fun trace ev _ read => clock_append read
  · rintro trace writes - known other ⟨⟩
    exact authentic trace known

theorem vetted_ingest : (svc.discipline scope).along (Vetted svc (.deliver request)) (svc.ingest request) [] []
    (Txn.Discipline.Gives fun response _ trace =>
      response = .payloadTooLarge ∨ response = .unauthorized ∨ svc.authenticates request trace) := by
  unfold Service.ingest
  by_cases large : svc.settings.maxPayloadBytes < request.rawBody.length
  · rw [if_pos large]
    exact Or.inl rfl
  rw [if_neg large]
  cases configured : svc.settings.secretForSource request.source with
  | none => exact Or.inr (Or.inl rfl)
  | some secret =>
    refine Txn.Discipline.along_bind (P := fun now writes trace => writes = [] ∧ Trace.clock trace = some now)
      (Txn.Discipline.along_perform fun now lesson taught => ?_) ?_
    · have silent : lesson.writes = [] := congrArg (·.writes) taught
      exact ⟨silent, rfl⟩
    · rintro now writes trace ⟨rfl, read⟩
      cases signature : Signature.verifySignature svc.hmac secret request.rawBody
          (request.headers.get? Signature.header) now svc.settings.signatureTimestampToleranceSeconds with
      | error exc =>
        dsimp only
        split
        · exact Or.inr (Or.inl rfl)
        · exact trivial
      | ok done =>
        have authentic : ∀ trace : Trace, trace.clock = some now → svc.authenticates request trace :=
          fun trace known => ⟨Nat.not_lt.mp large, secret, now, configured, known, signature⟩
        cases routed : svc.route request with
        | error exc =>
          dsimp only
          split
          · exact Or.inr (Or.inr (authentic trace read))
          · exact trivial
        | ok routed =>
          exact Txn.Discipline.along_bind (vetted_store read authentic) fun result writes trace read =>
            Or.inr (Or.inr (authentic trace read))

theorem vetted_program (svc : Service) (scope : Scope) (call : Call) :
    (svc.discipline scope).along (Vetted svc call) (svc.program call) [] [] fun r _ trace =>
      Admitted svc call r trace := by
  cases call with
  | deliver request =>
    refine Txn.Discipline.along_mono ?_ (Txn.Discipline.along_bind (Q := fun outcome _ trace => ∀ response,
      outcome = .answered response → response = .payloadTooLarge ∨ response = .unauthorized ∨
        svc.authenticates request trace) vetted_ingest ?_)
    · rintro (e | outcome) writes trace given
      · rintro _ response ⟨⟩ ⟨⟩
      · rintro _ response ⟨⟩ ⟨⟩ large unauthorized
        exact ((given response rfl).resolve_left large).resolve_left unauthorized
    · rintro response writes trace given _ ⟨⟩
      exact given
  | _ =>
    refine Txn.Discipline.along_mono ?_ (Txn.Discipline.along_trivial (by rintro trace writes request ⟨⟩))
    rintro r writes trace - request response ⟨⟩

end Deliver

theorem vetted (svc : Service) (scope : Scope) :
    ((svc.discipline scope).phased (Vetted svc) (Admitted svc)).Verified :=
  (verified svc scope).phased fun call _ => vetted_program svc scope call

section Runs

variable {svc : Service} {scope : Scope} {w : World}

theorem vetted_reach (reached : svc.Reaches scope (.init Db.empty) w) : Txn.Reach svc.system
    (fun _ action => ((svc.discipline scope).phased (Vetted svc) (Admitted svc)).Permits action)
    (.init Db.empty) w := by
  refine reached.mono fun w action allowed => ?_
  cases action <;> exact allowed

theorem answers_admitted (reached : svc.Reaches scope (.init Db.empty) w) {t : Nat}
    {th : Txn.Thread Write Call Stmt Stmt.Answer Exc Outcome} (here : w.threads t = some th)
    {result : Except Exc Outcome} (ended : th.prog = .done result) : Admitted svc th.call result th.trace :=
  ((vetted svc scope).returned wf_empty (vetted_reach reached) here ended).2

end Runs

/-! ## Sources -/

/-- At this time, the header of the request offers the digest of its body and of a
timestamp that is current, under the secret of its source. -/
def Service.SignedAt (svc : Service) (request : Request) (now : Time) : Prop :=
  ∃ secret header timestamp offered, svc.settings.secretForSource request.source = some secret ∧
    request.headers.get? Signature.header = some header ∧
    Signature.parseHeader header = .ok (timestamp, offered) ∧
    Signature.Current timestamp now svc.settings.signatureTimestampToleranceSeconds ∧
    Signature.expectedSignature svc.hmac secret timestamp request.rawBody ∈ offered

/-- The transaction stored the event for a signed request, as the request carried it. -/
def Service.Stores (svc : Service) (entry : Commit) (id : Nat) (event : IncomingEvent) : Prop :=
  ∃ request routed row now, entry.call = .deliver request ∧ Trace.clock entry.trace = some now ∧
    svc.SignedAt request now ∧ svc.route request = .ok routed ∧ event = request.event routed ∧
    entry.writes = [.insertEvent row] ∧ row.id = id ∧ row.toIncomingEvent = event

def Service.Sourced (svc : Service) (log : List Commit) (id : Nat) (event : IncomingEvent) : Prop :=
  ∃ entry ∈ log, svc.Stores entry id event

/-- A stored event, as a handler sees it: its payload has been through `jsonb`. -/
def IncomingEvent.stored (event : IncomingEvent) (id attemptCount : Nat) : StoredEvent where
  id := id
  source := event.source
  eventType := event.eventType
  entityType := event.entityType
  entityId := event.entityId
  payload := rereadFields event.payload
  occurredAt := event.occurredAt
  providerSequence := event.providerSequence
  attemptCount := attemptCount

/-- The handlers make this effect of the event of a signed request. -/
def Service.Orders (svc : Service) (log : List Commit) (id : Nat) (effect : Effect) : Prop :=
  ∃ event attemptCount, svc.Sourced log id event ∧
    svc.registry.dispatch (event.stored id attemptCount) = .ok effect

/-- A posting is to the account that such an effect names. A credit is posted in full. -/
def Service.Posts (svc : Service) (log : List Commit) (db : Db) (posting : LedgerEntry) : Prop :=
  ∃ effect, svc.Orders log posting.eventId effect ∧
    (∃ account ∈ db.accounts, account.id = posting.accountId ∧ account.externalRef = effect.accountRef) ∧
    ∀ credit, effect = .credit credit → posting.amountMinor = credit.amountMinor

/-- Everything in the inbox and in the books goes back to signed requests. -/
structure Traced (svc : Service) (log : List Commit) (db : Db) : Prop where
  events : ∀ event ∈ db.events, svc.Sourced log event.id event.toIncomingEvent
  accounts : ∀ account ∈ db.accounts, ∃ id effect, svc.Orders log id effect ∧
    effect.accountRef = account.externalRef
  ledger : ∀ posting ∈ db.ledger, svc.Posts log db posting

section Steps

variable {svc : Service} {scope : Scope} {log : List Commit} {entry : Commit} {id : Nat}
  {event : IncomingEvent} {effect : Effect} {db : Db}

theorem Service.authenticates.signedAt {request : Request} {trace : Trace}
    (authentic : svc.authenticates request trace) :
    ∃ now, trace.clock = some now ∧ svc.SignedAt request now := by
  obtain ⟨-, secret, now, configured, read, accepted⟩ := authentic
  refine ⟨now, read, ?_⟩
  cases offers : request.headers.get? Signature.header with
  | none =>
    rw [offers] at accepted
    cases accepted
  | some header =>
    rw [offers] at accepted
    cases parsed : Signature.parseHeader header with
    | error e =>
      simp only [Signature.verifySignature, parsed, bind, Except.bind] at accepted
      cases accepted
    | ok fields =>
      obtain ⟨timestamp, offered⟩ := fields
      refine ⟨secret, header, timestamp, offered, configured, offers, parsed, ?_,
        Signature.mem_of_accepted parsed accepted⟩
      rcases Signature.checkTimestamp_cases timestamp now
        svc.settings.signatureTimestampToleranceSeconds with ⟨-, current, -⟩ | ⟨e, refused, -⟩
      · exact current
      · rw [Signature.verifySignature_parsed parsed, refused] at accepted
        cases accepted

theorem Service.Sourced.later (sourced : svc.Sourced log id event) : svc.Sourced (log ++ [entry]) id event := by
  obtain ⟨other, member, stores⟩ := sourced
  exact ⟨other, List.mem_append_left _ member, stores⟩

theorem Service.Orders.later (orders : svc.Orders log id effect) : svc.Orders (log ++ [entry]) id effect := by
  obtain ⟨event, attemptCount, sourced, dispatched⟩ := orders
  exact ⟨event, attemptCount, sourced.later, dispatched⟩

/-- Accounts may come and change their state, but they keep their names. -/
theorem Service.Posts.later {db' : Db} {posting : LedgerEntry} (posts : svc.Posts log db posting)
    (kept : ∀ account ∈ db.accounts, ∃ account' ∈ db'.accounts, account'.id = account.id ∧
      account'.externalRef = account.externalRef) : svc.Posts (log ++ [entry]) db' posting := by
  obtain ⟨effect, orders, ⟨account, member, owner, named⟩, whole⟩ := posts
  obtain ⟨account', member', same, called⟩ := kept account member
  exact ⟨effect, orders.later, ⟨account', member', same.trans owner, called.trans named⟩, whole⟩

/-- A delivery that stored a new event is its source. -/
theorem stores_inserted (called : entry.call.isIngest = false)
    (described : Describes svc scope entry.call entry.trace entry.before entry.writes)
    (checked : Vetted svc entry.call entry.trace entry.writes) {row : EventRow}
    (delivered : entry.call.stores svc row.toIncomingEvent) (absent : row ∉ entry.before.events)
    (after : row ∈ (entry.before.after entry.writes).events) :
    svc.Stores entry row.id row.toIncomingEvent := by
  obtain ⟨tid, call, trace, before, writes⟩ := entry
  cases call with
  | ingest event => cases called
  | deliver request =>
    obtain ⟨routed, result, known, -, done⟩ := described
    obtain ⟨now, read, signed⟩ := (checked request rfl).signedAt
    cases done with
    | duplicate there storable => exact absurd after absent
    | @inserted id at' storable fresh unused first =>
      rcases List.mem_append.mp after with old | new
      · exact absurd old absent
      · rw [List.mem_singleton] at new
        subst new
        exact ⟨request, routed, _, now, rfl, read, signed, known, rfl, rfl, rfl, rfl⟩
  | _ => exact delivered.elim

theorem Traced.eventsStep (traced : Traced svc log entry.before)
    (still : Wf (entry.before.after entry.writes)) (called : entry.call.isIngest = false)
    (described : Describes svc scope entry.call entry.trace entry.before entry.writes)
    (checked : Vetted svc entry.call entry.trace entry.writes) :
    ∀ row ∈ (entry.before.after entry.writes).events,
      svc.Sourced (log ++ [entry]) row.id row.toIncomingEvent := by
  intro row there
  have after := event?_of_mem still there
  have kept : ∀ before, entry.before.event? row.id = some before →
    row.toIncomingEvent = before.toIncomingEvent →
      svc.Sourced (log ++ [entry]) row.id row.toIncomingEvent := by
    intro before found same
    have sourced : svc.Sourced (log ++ [entry]) before.id before.toIncomingEvent :=
      (traced.events before (mem_of_event? found)).later
    rw [event?_id found] at sourced
    exact same ▸ sourced
  cases (Describes.cases described).eventStep after with
  | same before => exact kept row before rfl
  | dealt found same => exact kept _ found same
  | failed found same => exact kept _ found same
  | requeued found same => exact kept _ found same
  | stored absent unused status count spared delivered =>
    refine ⟨entry, List.mem_append_right _ (List.mem_singleton_self _), ?_⟩
    refine stores_inserted called described checked delivered (fun old => ?_) there
    rw [Db.event?, List.find?_eq_none] at absent
    exact absent row old (by simp)

/-! ## Money -/

theorem AccountFor.names {externalRef : String} {row : AccountRow} {created : List Write}
    (account : AccountFor db externalRef row created) :
    ∀ other ∈ (db.after created).accounts, other ∈ db.accounts ∨ other.externalRef = externalRef := by
  intro other member
  cases account with
  | existing => exact Or.inl member
  | created =>
    simp only [Db.after_cons, Db.after_nil, Write.apply, List.mem_append, List.mem_singleton] at member
    rcases member with old | rfl
    · exact Or.inl old
    · exact Or.inr rfl

theorem AccountFor.keeps {externalRef : String} {row : AccountRow} {created : List Write}
    (account : AccountFor db externalRef row created) :
    ∀ other ∈ db.accounts, other ∈ (db.after created).accounts := by
  intro other member
  cases account with
  | existing => exact member
  | created => exact List.mem_append_left _ member

/-- What an effect makes of the books: its account is there under its name, with at most one
posting to it, and nothing else is new. -/
structure Booked (db : Db) (event : StoredEvent) (effect : Effect) (db' : Db) : Prop where
  kept : ∀ account ∈ db.accounts, ∃ account' ∈ db'.accounts, account'.id = account.id ∧
    account'.externalRef = account.externalRef
  named : ∀ account' ∈ db'.accounts, (∃ account ∈ db.accounts, account.externalRef = account'.externalRef) ∨
    effect.accountRef = account'.externalRef
  posted : ∀ posting ∈ db'.ledger, posting ∈ db.ledger ∨ posting.eventId = event.id ∧
    (∃ account ∈ db'.accounts, account.id = posting.accountId ∧ account.externalRef = effect.accountRef) ∧
    ∀ credit, effect = .credit credit → posting.amountMinor = credit.amountMinor

theorem AccountFor.booked {event : StoredEvent} {row : AccountRow} {created : List Write}
    (account : AccountFor db effect.accountRef row created) : Booked db event effect (db.after created) where
  kept := fun other member => ⟨other, account.keeps other member, rfl, rfl⟩
  named := by
    intro other member
    rcases account.names other member with old | new
    · exact Or.inl ⟨other, old, rfl⟩
    · exact Or.inr new.symm
  posted := fun posting member => Or.inl (account.ledger ▸ member)

/-- A posting to the account, and a new state for it. -/
theorem AccountFor.posts {event : StoredEvent} {row : AccountRow} {created : List Write}
    (account : AccountFor db effect.accountRef row created) {posting : Nat} {amountMinor : Int}
    {state : AccountState} (whole : ∀ credit, effect = .credit credit → amountMinor = credit.amountMinor) :
    Booked db event effect (db.after (created ++
      [Write.insertLedger ⟨posting, row.id, event.id, amountMinor⟩, .updateAccount row.id state])) := by
  obtain ⟨there, called⟩ := account.mem
  let update (other : AccountRow) : AccountRow :=
    if other.id = row.id then { other with toAccountState := state } else other
  have same : ∀ other, (update other).id = other.id ∧ (update other).externalRef = other.externalRef := by
    intro other
    by_cases hit : other.id = row.id <;> simp [update, hit]
  have accounts : (db.after (created ++ [Write.insertLedger ⟨posting, row.id, event.id, amountMinor⟩,
      .updateAccount row.id state])).accounts = (db.after created).accounts.map update := by
    rw [Db.after_append]
    rfl
  have ledger : (db.after (created ++ [Write.insertLedger ⟨posting, row.id, event.id, amountMinor⟩,
      .updateAccount row.id state])).ledger = db.ledger ++ [⟨posting, row.id, event.id, amountMinor⟩] := by
    rw [Db.after_append, ← account.ledger]
    rfl
  constructor
  · intro other member
    rw [accounts]
    exact ⟨update other, List.mem_map_of_mem (account.keeps other member), same other⟩
  · intro other member
    rw [accounts] at member
    obtain ⟨before, known, rfl⟩ := List.mem_map.mp member
    rcases account.names before known with old | new
    · exact Or.inl ⟨before, old, (same before).2.symm⟩
    · exact Or.inr (new.symm.trans (same before).2.symm)
  · intro other member
    rw [ledger, List.mem_append, List.mem_singleton] at member
    rw [accounts]
    rcases member with old | rfl
    · exact Or.inl old
    · exact Or.inr ⟨rfl, ⟨update row, List.mem_map_of_mem there, (same row).1, (same row).2.trans
        called⟩, whole⟩

theorem Applied.booked {strict : Prop} {event : StoredEvent} {result : EffectResult} {writes : List Write}
    (applied : Applied strict db event effect result writes) : Booked db event effect (db.after writes) := by
  cases applied with
  | credit account => exact account.posts (by rintro _ ⟨⟩; rfl)
  | creditAgain account => exact account.booked
  | superseded account => exact account.booked
  | snapshot account => exact account.posts (by rintro _ ⟨⟩)
  | snapshotAgain account => exact account.booked

/-- A pass books the effect that the handlers make of its event. -/
theorem Dealt.booked {eventId : Nat} {result : EffectResult} {writes : List Write}
    (done : Dealt svc eventId db result writes) :
    ∃ event effect, event ∈ db.events ∧ svc.registry.dispatch event.toDomain = .ok effect ∧
      Booked db event.toDomain effect (db.after writes) := by
  cases done with
  | @mk event effect result business attempt found pending due dispatched applied next outcome =>
    have booked := applied.booked
    refine ⟨event, effect, mem_of_event? found, dispatched, ?_⟩
    rw [Db.after_append]
    exact ⟨booked.kept, booked.named, booked.posted⟩

theorem Traced.moneyStep (traced : Traced svc log entry.before)
    (committed : Committed svc scope entry.call entry.trace entry.before entry.writes) :
    (∀ account ∈ (entry.before.after entry.writes).accounts, ∃ id effect, svc.Orders (log ++ [entry])
      id effect ∧
      effect.accountRef = account.externalRef) ∧
    ∀ posting ∈ (entry.before.after entry.writes).ledger,
      svc.Posts (log ++ [entry]) (entry.before.after entry.writes) posting := by
  rcases committed.money with clerical | ⟨eventId, result, -, done⟩
  · obtain ⟨accounts, ledger⟩ := Db.after_clerical clerical entry.before
    constructor
    · intro account member
      rw [accounts] at member
      obtain ⟨id, effect, orders, named⟩ := traced.accounts account member
      exact ⟨id, effect, orders.later, named⟩
    · intro posting member
      rw [ledger] at member
      exact (traced.ledger posting member).later fun account there => ⟨account, accounts.symm ▸ there, rfl, rfl⟩
  · obtain ⟨event, effect, member, dispatched, booked⟩ := done.booked
    have orders : svc.Orders (log ++ [entry]) event.id effect :=
      ⟨event.toIncomingEvent, event.attemptCount, (traced.events event member).later, dispatched⟩
    constructor
    · intro account there
      rcases booked.named account there with ⟨before, known, same⟩ | named
      · obtain ⟨id, effect, orders, named⟩ := traced.accounts before known
        exact ⟨id, effect, orders.later, named.trans same⟩
      · exact ⟨event.id, effect, orders, named⟩
    · intro posting there
      rcases booked.posted posting there with old | ⟨about, account, whole⟩
      · exact (traced.ledger posting old).later booked.kept
      · exact ⟨effect, about ▸ orders, account, whole⟩

end Steps

/-! ## Every run -/

/-- Whatever runs at once and whatever fails: what is in the inbox was carried by a request
whose signature held when it was stored, and all accounts and postings are what the handlers
make of such events. -/
theorem signed_origins (svc : Service) {w : World} (reached : svc.Reaches .served (.init Db.empty) w) :
    Traced svc w.log w.db := by
  obtain ⟨-, past⟩ := (vetted svc .served).history wf_empty (vetted_reach reached)
  refine past.along (P := Traced svc) ?_ ?_ ?_
  · constructor <;> simp [Db.empty]
  · intro log db write good licence traced
    rcases instant_cases licence with ⟨table, rfl⟩ | ⟨purging, ids, rfl⟩
    · exact ⟨traced.events, traced.accounts, traced.ledger⟩
    · exact ⟨traced.events, traced.accounts, traced.ledger⟩
  · rintro log entry good still called ⟨described, checked⟩ traced
    obtain ⟨accounts, ledger⟩ := traced.moneyStep (Describes.cases described)
    exact ⟨traced.eventsStep still called described checked, accounts, ledger⟩

/-- A signed credit, delivered and processed. -/
theorem signed_origins_sample : ∃ w, (Sample.signed 1 Sample.digestOne).Reaches .served (.init Db.empty) w ∧
    w.db.events.length = 1 ∧ w.db.ledger.map (·.amountMinor) = [100] ∧
    Traced (Sample.signed 1 Sample.digestOne) w.log w.db := by
  obtain ⟨w, reached, shown⟩ := (Sample.signed 1 Sample.digestOne).reaches_test .served (.init Db.empty)
    (Sample.deliver 1 Sample.digestOne 3 ++ .spawn 1 (.process 1) :: Sample.steps 1 12)
    (fun w => w.db.events.length = 1 ∧ w.db.ledger.map (·.amountMinor) = [100])
    (by simp [Sample.deliver, Sample.steps, Scope.permits, Scope.served, Call.isIngest])
    (by decide +kernel)
  simp only [decide_eq_true_eq] at shown
  exact ⟨w, reached, shown.1, shown.2, signed_origins _ reached⟩

end WebhookReceiver
