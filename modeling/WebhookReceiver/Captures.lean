import WebhookReceiver.Acceptance

/-!
A captured delivery that is sent again.

The signature covers the timestamp and the body. The identity of a delivery is its
source and its idempotency key, and the key may come from a header that nothing
signs. Whoever sends a capture again under another `Idempotency-Key` is taken for
somebody new (`captured_under_another_key`). With the same header, or with none as in the
capture, the key is the same whatever the other headers say (`Service.route_congr`), and
it stays one event (`captured_at_most_once`).
-/

namespace WebhookReceiver

/-- The call is a request to the source with this signature header and this body. -/
def Call.captures (source signature : String) (body : Bytes) : Call → Bool
  | .deliver request =>
    request.source = source ∧ request.headers.get? Signature.header = some signature ∧
      request.rawBody = body
  | _ => false

/-- The call is a request with this `Idempotency-Key`, or with none. -/
def Call.keyedBy (value : Option String) : Call → Bool
  | .deliver request => request.headers.get? Schemas.idempotencyKeyHeader = value
  | _ => false

def Write.inserts? : Write → Option Nat
  | .insertEvent row => some row.id
  | _ => none

/-- The events that a transaction stores. -/
def insertedIn (writes : List Write) : List Nat := writes.filterMap Write.inserts?

/-- The transactions of some calls that store an event. -/
def storing (calls : Call → Bool) (log : List Commit) : List Commit :=
  log.filter fun entry => calls entry.call && insertedIn entry.writes ≠ []

/-- The ledger entries of the events that these transactions stored. -/
def postedFor (stored : List Commit) (db : Db) : List LedgerEntry :=
  db.ledger.filter fun posted => stored.any fun entry => posted.eventId ∈ insertedIn entry.writes

theorem insertedIn_length {purging : Prop} {event : IncomingEvent} {db : Db} {result : IngestResult}
    {writes : List Write} (done : IngestTx purging event db result writes) :
    (insertedIn writes).length ≤ 1 ∧ (insertedIn writes ≠ [] → result.duplicate = false) := by
  cases done with
  | inserted storable fresh unused first => exact ⟨Nat.le_refl _, fun _ => rfl⟩
  | duplicate known => exact ⟨Nat.zero_le _, fun some => absurd rfl some⟩

theorem eq_of_length_le_one {α : Type} {l : List α} (few : l.length ≤ 1) {a b : α} (first : a ∈ l)
    (second : b ∈ l) : a = b := by
  obtain ⟨i, low, rfl⟩ := List.mem_iff_getElem.mp first
  obtain ⟨j, low', rfl⟩ := List.mem_iff_getElem.mp second
  have same : i = j := by omega
  subst same
  rfl

/-! ## What decides the key -/

/-- The key is resolved from the signed body and one header, and from nothing else. -/
theorem Service.route_congr (svc : Service) {request request' : Request}
    (body : request.rawBody = request'.rawBody)
    (key : request.headers.get? Schemas.idempotencyKeyHeader =
      request'.headers.get? Schemas.idempotencyKeyHeader) : svc.route request = svc.route request' := by
  simp only [Service.route, body, key]

/-- Captures that agree on that header are deliveries of one key. -/
theorem captures_carries {svc : Service} {source signature key : String} {value : Option String}
    {body : Bytes} {call call' : Call}
    (captured : (call.captures source signature body && call.keyedBy value) = true)
    (captured' : (call'.captures source signature body && call'.keyedBy value) = true)
    (carried : call.carries svc source key = true) : call'.carries svc source key = true := by
  cases call with
  | deliver request =>
    cases call' with
    | deliver request' =>
      simp only [Call.captures, Call.keyedBy, Bool.and_eq_true, decide_eq_true_eq] at captured captured'
      obtain ⟨⟨named, -, bytes⟩, header⟩ := captured
      obtain ⟨⟨named', -, bytes'⟩, header'⟩ := captured'
      obtain ⟨event, ⟨routed, found, rfl⟩, -, keyed⟩ := carries_iff.mp carried
      rw [svc.route_congr (bytes.trans bytes'.symm) (header.trans header'.symm)] at found
      exact carries_iff.mpr ⟨_, ⟨routed, found, rfl⟩, named', keyed⟩
    | _ => cases captured'
  | _ => cases captured

/-- A request that has committed anything has been routed. -/
theorem Committed.routed {svc : Service} {scope : Scope} {request : Request} {trace : Trace} {db : Db}
    {writes : List Write} (committed : Committed svc scope (.deliver request) trace db writes) :
    ∃ routed, svc.route request = .ok routed := by
  cases committed with
  | stored stores answered done =>
    obtain ⟨routed, found, -⟩ := stores
    exact ⟨routed, found⟩
  | idle passing => cases passing
  | dealt passing done => cases passing
  | failed passing done => cases passing
  | started replay done => cases replay
  | finished replay done => cases replay
  | moved triage named done => cases triage
  | purged purge done => cases purge

section Runs

variable {svc : Service} {faults : Exc → Prop} {w : World} {source key : String} {calls : Call → Bool}

/-- What stores an event of a key is its first delivery. -/
theorem storing_first (reached : svc.Reaches (.delivering faults) (.init Db.empty) w)
    (carry : ∀ call, calls call = true → call.carries svc source key = true) {entry : Commit}
    (member : entry ∈ storing calls w.log) :
    entry ∈ w.log.filter (isFirst svc source key) ∧ (insertedIn entry.writes).length ≤ 1 := by
  obtain ⟨-, past⟩ := reaches_history wf_empty reached
  obtain ⟨listed, chosen⟩ := List.mem_filter.mp member
  rw [Bool.and_eq_true, decide_eq_true_eq] at chosen
  obtain ⟨_, _, -, -, -, -, described, -⟩ := past.at listed
  have carried := carry entry.call chosen.1
  obtain ⟨event, result, -, -, answered, done⟩ := described.cases.delivery carried
  obtain ⟨one, new⟩ := insertedIn_length done
  refine ⟨List.mem_filter.mpr ⟨listed, ?_⟩, one⟩
  simp [isFirst, carried, answered, new chosen.2]

/-- Deliveries of one key store one event at most. -/
theorem storing_length (reached : svc.Reaches (.delivering faults) (.init Db.empty) w)
    (carry : ∀ call, calls call = true → call.carries svc source key = true) :
    (storing calls w.log).length ≤ 1 := by
  obtain ⟨-, past⟩ := reaches_history wf_empty reached
  have deduplicated : Deduplicated svc source key w.log w.db := past.deduplicated (by simp [Db.empty])
  have firsts : (w.log.filter (isFirst svc source key)).length ≤ 1 := by
    cases deduplicated with
    | unseen absent nobody =>
      have none : w.log.filter (isFirst svc source key) = [] :=
        List.filter_eq_nil_iff.mpr fun entry member => by simp [isFirst, nobody entry member]
      simp [none]
    | seen member keyed committed answers one => exact one.le
  have within : (storing calls w.log).Sublist (w.log.filter (isFirst svc source key)) := by
    have kept : storing calls w.log = (storing calls w.log).filter (isFirst svc source key) :=
      (List.filter_eq_self.mpr fun entry member =>
        (List.mem_filter.mp (storing_first reached carry member).1).2).symm
    rw [kept]
    exact List.filter_sublist.filter _
  exact within.length_le.trans firsts

/-- What few transactions stored, few ledger entries post. -/
theorem postedFor_length (good : Wf w.db) {stored : List Commit} (one : stored.length ≤ 1)
    (each : ∀ entry ∈ stored, (insertedIn entry.writes).length ≤ 1) :
    (postedFor stored w.db).length ≤ 1 := by
  have apart : w.db.ledger.Pairwise fun earlier later => earlier.eventId ≠ later.eventId :=
    List.pairwise_map.mp good.ledgerEvents
  refine filter_length_le_one (apart.imp fun {earlier later} differ chosen => ?_)
  refine Bool.eq_false_of_not_eq_true fun also => differ ?_
  obtain ⟨entry, member, posts⟩ := List.any_eq_true.mp chosen
  obtain ⟨entry', member', posts'⟩ := List.any_eq_true.mp also
  rw [decide_eq_true_eq] at posts posts'
  rw [eq_of_length_le_one one member member'] at posts
  exact eq_of_length_le_one (each entry' member') posts posts'

end Runs

/-! ## A capture, sent twice -/

theorem lower_allowed {name : String} (member : name ∈ Schemas.headerAllowlist) : lower name = name := by
  refine lower_eq ?_
  have all : ∀ name ∈ Schemas.headerAllowlist, name.toList.map Char.toLower = name.toList := by decide
  exact all name member

/-- What is left of a delivery that is to be stored. -/
def Service.storing (event : IncomingEvent) : Program Outcome := do
  let stored : Program Response := do
    let result ← sessionScope (ingestEvent event)
    return .accepted result
  let response ← stored
  return .answered response

/-- A request that authenticates and can be routed goes on to store its event. -/
theorem Service.deliver_routed (svc : Service) {request : Request} {secret : String} {now : Time}
    {routed : WebhookEnvelope × String}
    (short : ¬ svc.settings.maxPayloadBytes < request.rawBody.length)
    (known : svc.settings.secretForSource request.source = some secret)
    (verified : Signature.verifySignature svc.hmac secret request.rawBody
      (request.headers.get? Signature.header) now svc.settings.signatureTimestampToleranceSeconds = .ok ())
    (route : svc.route request = .ok routed) :
    ∃ rest, svc.program (.deliver request) = .stmt .now rest ∧
      rest (.ok now) = Service.storing (request.event routed) := by
  simp only [Service.program, Service.ingest, if_neg short, known, execute, Txn.Prog.perform,
    Txn.Prog.bind_eq, Txn.Prog.andThen]
  refine ⟨_, rfl, ?_⟩
  simp only [Txn.Prog.onValue_ok, verified, route]
  rfl

/-- The first steps of a call that begins by reading the clock. -/
theorem Service.runFrom_now (svc : Service) {call : Call} {rest : Except Exc Time → Program Outcome}
    {w : World} {t : Txn.Tid} (input : Input) (free : w.threads t = none)
    (program : svc.program call = .stmt .now rest) (later : List Action) :
    svc.runFrom w (.spawn t call :: .run t input :: later) = svc.runFrom
      (w.setThread t (some ⟨call, rest (.ok input.now), [], [.stmt .now (.ok input.now)]⟩)) later := by
  have spawned : Txn.step svc.system w (.spawn t call) =
      some (w.setThread t (some ⟨call, .stmt .now rest, [], []⟩)) := by
    rw [← program]
    simp only [Txn.step, free]
    rfl
  have read : Txn.step svc.system (w.setThread t (some ⟨call, .stmt .now rest, [], []⟩)) (.run t input) =
      some (w.setThread t (some ⟨call, rest (.ok input.now), [], [.stmt .now (.ok input.now)]⟩)) := by
    simp only [Txn.step, Txn.World.setThread, Function.update_self]
    have again (first second : Option (Txn.Thread Write Call Stmt Stmt.Answer Exc Outcome)) :
        Function.update (Function.update w.threads t first) t second = Function.update w.threads t second :=
      Function.update_idem ..
    show some (Txn.World.mk w.db w.held (Function.update (Function.update w.threads t _) t _) w.log) = _
    rw [again]
    rfl
  simp only [Service.runFrom, Txn.run, spawned, read, Option.bind_some]

namespace Sample

/-- What the signed credit is stored as, with this key and these headers. -/
def arrived (key : String) (headers : JsonObject) : IncomingEvent :=
  Schemas.toIncomingEvent "acme" (envelope 1) (envelope 1).data headers key true

theorem delivered {headers : Headers} {key : String} {kept : JsonObject}
    (route : (signed 1 digestOne).route (delivery 1 digestOne headers) = .ok (envelope 1, key))
    (redacted : Schemas.redactHeaders (delivery 1 digestOne headers).headers = kept) :
    ∃ rest, (signed 1 digestOne).program (.deliver (delivery 1 digestOne headers)) = .stmt .now rest ∧
      rest (.ok 0) = Service.storing (arrived key kept) := by
  have verified : Signature.verifySignature (signed 1 digestOne).hmac "secret" (body 1)
      (some ("t=0,v1=" ++ digestOne)) 0 300 = .ok () := by decide +kernel
  have short : ¬ 1048576 < (body 1).length := by decide +kernel
  subst redacted
  exact @Service.deliver_routed _ (delivery 1 digestOne headers) _ _ _ short rfl
    (by simpa [Headers.get?, delivery, Signature.header, signed, service] using verified) route

/-- A request is sent, and sent again with other headers, up to what each is about to do. -/
def resend (first second : Headers) (later : List Action) : List Action :=
  .spawn 0 (.deliver (delivery 1 digestOne first)) :: .run 0 (clock 0) ::
    .spawn 1 (.deliver (delivery 1 digestOne second)) :: .run 1 (clock 0) :: later

/-- The state after these actions. -/
def resent (first second : Headers) (one other : IncomingEvent) : World :=
  let seen : Trace := [.stmt .now (.ok 0)]
  ((Txn.World.init Db.empty).setThread 0
      (some ⟨.deliver (delivery 1 digestOne first), Service.storing one, [], seen⟩)).setThread 1
    (some ⟨.deliver (delivery 1 digestOne second), Service.storing other, [], seen⟩)

theorem resend_runs {first second : Headers} {key key' : String} {kept kept' : JsonObject}
    (route : (signed 1 digestOne).route (delivery 1 digestOne first) = .ok (envelope 1, key))
    (redacted : Schemas.redactHeaders (delivery 1 digestOne first).headers = kept)
    (route' : (signed 1 digestOne).route (delivery 1 digestOne second) = .ok (envelope 1, key'))
    (redacted' : Schemas.redactHeaders (delivery 1 digestOne second).headers = kept')
    (later : List Action) :
    (signed 1 digestOne).runFrom (.init Db.empty) (resend first second later) =
      (signed 1 digestOne).runFrom (resent first second (arrived key kept) (arrived key' kept')) later := by
  obtain ⟨rest, program, next⟩ := delivered route redacted
  obtain ⟨rest', program', next'⟩ := delivered route' redacted'
  rw [resend, (signed 1 digestOne).runFrom_now (clock 0) rfl program,
    (signed 1 digestOne).runFrom_now (clock 0) rfl program']
  show (signed 1 digestOne).runFrom (((Txn.World.init Db.empty).setThread 0
    (some ⟨_, rest (.ok 0), _, _⟩)).setThread 1 (some ⟨_, rest' (.ok 0), _, _⟩)) later = _
  rw [next, next']
  rfl

theorem routes {headers : Headers} {value : Option String} {key : String}
    (sent : (delivery 1 digestOne headers).headers.get? Schemas.idempotencyKeyHeader = value)
    (resolved : Schemas.resolveIdempotencyKey (envelope 1) value = .ok key) :
    (signed 1 digestOne).route (delivery 1 digestOne headers) = .ok (envelope 1, key) := by
  subst sent
  simp only [Service.route, Schemas.parseEnvelope, signed, delivery, if_true, bind, Except.bind] at resolved ⊢
  rw [resolved]
  rfl

theorem lower_signature : lower "X-Webhook-Signature" = "x-webhook-signature" := lower_eq (by decide)

theorem lower_key : lower "Idempotency-Key" = "idempotency-key" := lower_eq (by decide)

theorem lower_requestId : lower "X-Request-Id" = "x-request-id" := lower_eq (by decide)

theorem redactHeaders_eq (headers : Headers) : Schemas.redactHeaders headers =
    Schemas.headerAllowlist.filterMap fun name =>
      (headers.find? fun entry => lower entry.1 = name).map
        fun entry => (PyStr.ofString name, .str (PyStr.ofString entry.2)) := by
  refine List.filterMap_congr fun name member => ?_
  rw [Headers.get?, lower_allowed member]
  cases headers.find? fun entry => lower entry.1 = name <;> rfl

theorem redacted : Schemas.redactHeaders (delivery 1 digestOne []).headers = [] := by
  rw [redactHeaders_eq]
  simp [delivery, lower_signature, Schemas.headerAllowlist]

theorem redacted_key : Schemas.redactHeaders (delivery 1 digestOne [("Idempotency-Key", "mine")]).headers =
    ([("idempotency-key", .str "mine")] : JsonObject) := by
  rw [redactHeaders_eq]
  simp [delivery, lower_signature, lower_key, Schemas.headerAllowlist, List.find?_cons]

theorem redacted_requestId : Schemas.redactHeaders (delivery 1 digestOne [("X-Request-Id", "again")]).headers =
    ([("x-request-id", .str "again")] : JsonObject) := by
  rw [redactHeaders_eq]
  simp [delivery, lower_signature, lower_requestId, Schemas.headerAllowlist, List.find?_cons]

theorem routed : (signed 1 digestOne).route (delivery 1 digestOne []) = .ok (envelope 1, "evt_1") := by
  refine @routes [] none _ ?_ rfl
  simp [delivery, Headers.get?, Schemas.idempotencyKeyHeader, lower_signature, lower_key]

theorem routed_requestId : (signed 1 digestOne).route
    (delivery 1 digestOne [("X-Request-Id", "again")]) = .ok (envelope 1, "evt_1") := by
  refine @routes _ none _ ?_ rfl
  simp [delivery, Headers.get?, Schemas.idempotencyKeyHeader, lower_signature, lower_key, lower_requestId]

theorem routed_key : (signed 1 digestOne).route
    (delivery 1 digestOne [("Idempotency-Key", "mine")]) = .ok (envelope 1, "mine") := by
  refine @routes _ (some "mine") _ ?_ (by decide +kernel)
  simp [delivery, Headers.get?, Schemas.idempotencyKeyHeader, lower_signature, lower_key]

end Sample

/-- However often they are sent, with whatever other headers: the requests with one
signature header, one body and the same `Idempotency-Key` header, or all without one,
store one event at most, and post one ledger entry. -/
theorem captured_at_most_once (svc : Service) (faults : Exc → Prop) {w : World}
    (reached : svc.Reaches (.delivering faults) (.init Db.empty) w) (source signature : String)
    (body : Bytes) (value : Option String) :
    let stored := storing (fun call => call.captures source signature body && call.keyedBy value) w.log
    stored.length ≤ 1 ∧ (postedFor stored w.db).length ≤ 1 := by
  let calls : Call → Bool := fun call => call.captures source signature body && call.keyedBy value
  obtain ⟨good, past⟩ := reaches_history wf_empty reached
  show (storing calls w.log).length ≤ 1 ∧ (postedFor (storing calls w.log) w.db).length ≤ 1
  cases empty : storing calls w.log with
  | nil => exact ⟨Nat.zero_le 1, postedFor_length good (Nat.zero_le 1) fun _ none => (by cases none)⟩
  | cons entry others =>
    -- one of them decides the key of all
    obtain ⟨listed, chosen⟩ := List.mem_filter.mp (empty ▸ List.mem_cons_self : entry ∈ storing calls w.log)
    have captured : calls entry.call = true := (Bool.and_eq_true_iff.mp chosen).1
    obtain ⟨_, _, -, -, -, -, described, -⟩ := past.at listed
    have committed := described.cases
    have carries : ∃ key, entry.call.carries svc source key = true := by
      cases called : entry.call with
      | deliver request =>
        rw [called] at captured committed
        obtain ⟨routed, found⟩ := committed.routed
        have named : request.source = source := by
          simp only [calls, Call.captures, Bool.and_eq_true, decide_eq_true_eq] at captured
          exact captured.1.1
        exact ⟨_, carries_iff.mpr ⟨_, ⟨routed, found, rfl⟩, named, rfl⟩⟩
      | _ =>
        rw [called] at captured
        cases captured
    obtain ⟨key, carried⟩ := carries
    have carry : ∀ call, calls call = true → call.carries svc source key = true :=
      fun call also => captures_carries captured also carried
    rw [← empty]
    have one := storing_length reached carry
    exact ⟨one, postedFor_length good one fun other member => (storing_first reached carry member).2⟩

/-- A capture is sent again under another request id: it is a duplicate, and the event
is processed once. -/
theorem captured_at_most_once_sample : ∃ w,
    (Sample.signed 1 Sample.digestOne).Reaches (.delivering fun _ => False) (.init Db.empty) w ∧
    (w.log.filter fun entry => entry.call.captures "acme" ("t=0,v1=" ++ Sample.digestOne)
      (Sample.body 1)).length = 2 ∧
    w.db.ledger.length = 1 ∧
    let stored := storing (fun call => call.captures "acme" ("t=0,v1=" ++ Sample.digestOne)
      (Sample.body 1) && call.keyedBy none) w.log
    stored.length ≤ 1 ∧ (postedFor stored w.db).length ≤ 1 := by
  let later : List Action :=
    Sample.steps 0 2 ++ Sample.steps 1 3 ++ .spawn 2 (.process 1) :: Sample.steps 2 12
  obtain ⟨w, reached, shown⟩ := (Sample.signed 1 Sample.digestOne).reaches_test
    (.delivering fun _ => False) (.init Db.empty) (Sample.resend [] [("X-Request-Id", "again")] later)
    (fun w => (w.log.filter fun entry => entry.call.captures "acme" ("t=0,v1=" ++ Sample.digestOne)
      (Sample.body 1)).length = 2 ∧ w.db.ledger.length = 1)
    (by simp [later, Sample.resend, Sample.steps, Scope.permits, Scope.delivering, Call.isPurge])
    (by rw [Sample.resend_runs Sample.routed Sample.redacted Sample.routed_requestId
          Sample.redacted_requestId]
        decide +kernel)
  simp only [decide_eq_true_eq] at shown
  exact ⟨w, reached, shown.1, shown.2, captured_at_most_once _ _ reached _ _ _ _⟩

/-- A capture is sent again with an `Idempotency-Key` of the sender's own: a second
event. -/
theorem captured_under_another_key : ¬ ∀ w,
    (Sample.signed 1 Sample.digestOne).Reaches (.delivering fun _ => False) (.init Db.empty) w →
    let stored := storing (fun call => call.captures "acme" ("t=0,v1=" ++ Sample.digestOne)
      (Sample.body 1)) w.log
    stored.length ≤ 1 ∧ (postedFor stored w.db).length ≤ 1 := by
  let stored (w : World) : List Commit := storing (fun call => call.captures "acme"
    ("t=0,v1=" ++ Sample.digestOne) (Sample.body 1)) w.log
  obtain ⟨w, reached, shown⟩ := (Sample.signed 1 Sample.digestOne).reaches_test
    (.delivering fun _ => False) (.init Db.empty)
    (Sample.resend [] [("Idempotency-Key", "mine")] (Sample.steps 0 2 ++ Sample.steps 1 2))
    (fun w => (stored w).length = 2)
    (by simp [Sample.resend, Sample.steps, Scope.permits, Scope.delivering, Call.isPurge])
    (by rw [Sample.resend_runs Sample.routed Sample.redacted Sample.routed_key Sample.redacted_key]
        decide +kernel)
  simp only [decide_eq_true_eq] at shown
  intro once
  have one := (once w reached).1
  change (stored w).length ≤ 1 at one
  omega

end WebhookReceiver
