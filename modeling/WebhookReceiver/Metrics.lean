import WebhookReceiver.Runs

/-!
Metrics (`obs/metrics.py`): which label values a process ever uses.

The programs of the service once more, with the places at which they touch a
counter or a histogram. Without these they are the programs of `Services`
(`erase_metered`). The label `event_type` goes through `known_event_type` wherever it
is used. The label `source` is used before the source is looked up, so it is
bounded by the configuration only as far as the callers keep to the configured
sources (`labels_bounded_iff`).
-/

namespace WebhookReceiver

open Txn (Prog)

inductive Metric where
  | eventsIngested | eventsRejected | eventsProcessed | eventsRetried | eventsDeadLettered
  | eventsReplayed | ingestLatency | processLatency
  deriving DecidableEq

/-- `metric.labels(name=value, ...)`. -/
structure LabelUse where
  metric : Metric
  labels : List (String × String)

def unknownEventType : String := "unknown"

/-- `metrics.py::known_event_type`. -/
def knownEventType (eventType : String) (known : List String) : String :=
  if eventType ∈ known then eventType else unknownEventType

/-- The values of `AttemptOutcome`. -/
def AttemptOutcome.value : AttemptOutcome → String
  | .succeeded => "succeeded"
  | .superseded => "superseded"
  | .retryableError => "retryable_error"
  | .nonRetryableError => "non_retryable_error"

/-! ## Metered programs -/

/-- A statement, or a use of a metric. -/
inductive Act where
  | store (s : Stmt)
  | label (use : LabelUse)

abbrev Act.Answer : Act → Type
  | .store s => s.Answer
  | .label _ => Unit

abbrev Metered (α : Type) := Prog Act Act.Answer Exc α

/-- A program that uses no metric. -/
def plain {α : Type} : Program α → Metered α
  | .done result => .done result
  | .stmt s next => .stmt (.store s) fun answer => plain (next answer)
  | .commit next => .commit fun answer => plain (next answer)
  | .rollback next => .rollback fun answer => plain (next answer)

def labels (metric : Metric) (values : List (String × String)) : Metered Unit :=
  Prog.perform (Act.label ⟨metric, values⟩)

/-- A metered program without its metrics. -/
def erase {α : Type} : Metered α → Program α
  | .done result => .done result
  | .stmt (.store s) next => .stmt s fun answer => erase (next answer)
  | .stmt (.label _) next => erase (next (.ok ()))
  | .commit next => .commit fun answer => erase (next answer)
  | .rollback next => .rollback fun answer => erase (next answer)

/-- `session_scope`. -/
def meteredScope {α : Type} (body : Metered α) : Metered α :=
  body.andThen fun
    | .ok value => .commit fun
      | .ok () => .done (.ok value)
      | .error e => .done (.error e)
    | .error e => .rollback fun
      | .ok () => .done (.error e)
      | .error e' => .done (.error e')

section Erase

variable {α β : Type}

@[simp] theorem erase_plain (program : Program α) : erase (plain program) = program := by
  induction program with
  | done result => rfl
  | stmt s next ih => simp only [plain, erase, ih]
  | commit next ih => simp only [plain, erase, ih]
  | rollback next ih => simp only [plain, erase, ih]

theorem erase_andThen (first : Metered α) (next : Except Exc α → Metered β) :
    erase (first.andThen next) = (erase first).andThen fun result => erase (next result) := by
  induction first with
  | done result => rfl
  | stmt act rest ih =>
    cases act with
    | store s => simp only [Prog.andThen, erase, ih]
    | label use => exact ih (.ok ())
  | commit rest ih => simp only [Prog.andThen, erase, ih]
  | rollback rest ih => simp only [Prog.andThen, erase, ih]

@[simp] theorem erase_bind (first : Metered α) (next : α → Metered β) :
    erase (first >>= next) = erase first >>= fun value => erase (next value) := by
  rw [Prog.bind_eq, Prog.bind_eq, erase_andThen]
  congr 1
  funext result
  cases result <;> rfl

@[simp] theorem erase_labels (metric : Metric) (values : List (String × String)) :
    erase (labels metric values) = pure () := rfl

@[simp] theorem pure_then (value : α) (next : α → Program β) : (pure value >>= next) = next value := rfl

@[simp] theorem erase_pure (value : α) : erase (pure value : Metered α) = pure value := rfl

@[simp] theorem erase_throw (e : Exc) : erase (throw e : Metered α) = throw e := rfl

@[simp] theorem erase_tryCatch (body : Metered α) (handler : Exc → Metered α) :
    erase (tryCatch body handler) = tryCatch (erase body) fun e => erase (handler e) := by
  rw [Prog.tryCatch_eq, Prog.tryCatch_eq, erase_andThen]
  congr 1
  funext result
  cases result <;> rfl

@[simp] theorem erase_meteredScope (body : Metered α) :
    erase (meteredScope body) = sessionScope (erase body) := by
  rw [meteredScope, sessionScope, erase_andThen]
  congr 1
  funext result
  cases result with
  | ok value =>
    simp only [erase]
    congr 1
    funext answer
    cases answer <;> rfl
  | error e =>
    simp only [erase]
    congr 1
    funext answer
    cases answer <;> rfl

end Erase

/-! ## The services, metered -/

namespace Service

variable (svc : Service)

/-- `webhooks.py::ingest`. -/
def meteredIngest (request : Request) : Metered Response := do
  labels .ingestLatency [("source", request.source)]
  if svc.settings.maxPayloadBytes < request.rawBody.length then
    labels .eventsRejected [("source", request.source), ("reason", "payload_too_large")]
    return .payloadTooLarge
  else match svc.settings.secretForSource request.source with
  | none =>
    labels .eventsRejected [("source", request.source), ("reason", "unauthorized")]
    return .unauthorized
  | some secret => do
    let now ← plain (execute .now)
    match Signature.verifySignature svc.hmac secret request.rawBody
        (request.headers.get? Signature.header) now
        svc.settings.signatureTimestampToleranceSeconds with
    | .error exc =>
      if exc.kind = .signature then
        labels .eventsRejected [("source", request.source), ("reason", "unauthorized")]
        return .unauthorized
      else throw exc
    | .ok () =>
      match svc.route request with
      | .error exc =>
        if exc.kind = .malformedPayload then
          labels .eventsRejected [("source", request.source), ("reason", "malformed")]
          return .badRequest exc.message
        else throw exc
      | .ok routed =>
        let result ← plain (sessionScope (ingestEvent (request.event routed)))
        labels .eventsIngested
          [("source", request.source), ("duplicate", if result.duplicate then "true" else "false")]
        return .accepted result

/-- `process.py::_apply`. -/
def meteredApply (event : StoredEvent) (startedAt : Time) : Metered ProcessResult := do
  let attemptNumber ← plain (Queue.nextAttemptNumber event.id)
  let attemptsUsed := event.attemptCount + 1
  plain (lockEntity svc.advisoryLockKey event.entityType event.entityId
    svc.settings.advisoryLockTimeoutSeconds)
  let effect ← plain (Prog.ofExcept (svc.registry.dispatch event))
  let result ← plain (Ledger.applyEffect event effect)
  let outcome := successOutcome result
  let finishedAt ← plain (execute .now)
  plain (Queue.recordAttempt event.id attemptNumber startedAt finishedAt outcome none none)
  plain (Queue.markSucceeded event.id attemptsUsed finishedAt)
  let label := knownEventType event.eventType svc.registry.eventTypes
  labels .eventsProcessed [("event_type", label), ("outcome", outcome.value)]
  labels .processLatency [("event_type", label)]
  return ⟨some outcome, some result⟩

/-- `process.py::_record_failure`, the part under the row lock. -/
def meteredFailureOf (eventId : Nat) (event : StoredEvent) (exc : Exc) (startedAt : Time) :
    Metered ProcessResult := do
  let retryable := isRetryable exc
  let outcome := if retryable then AttemptOutcome.retryableError else .nonRetryableError
  let detail := redactedDetail exc
  let attemptNumber ← plain (Queue.nextAttemptNumber eventId)
  let attemptsUsed := event.attemptCount + 1
  let finishedAt ← plain (execute .now)
  let label := knownEventType event.eventType svc.registry.eventTypes
  plain (Queue.recordAttempt eventId attemptNumber startedAt finishedAt outcome (some exc.cls) (some detail))
  let exhausted := svc.settings.maxAttempts ≤ attemptsUsed
  if retryable ∧ ¬ exhausted then
    let nextAttemptAt ← plain (svc.nextAttemptAt attemptNumber finishedAt)
    plain (Queue.reschedule eventId attemptsUsed nextAttemptAt detail)
    labels .eventsRetried [("event_type", label), ("error_class", exc.cls)]
    return ⟨some outcome, none⟩
  let reason := if retryable then "attempts exhausted" else "non-retryable failure"
  labels .eventsDeadLettered [("event_type", label), ("reason", reason)]
  plain (Queue.deadLetter eventId attemptsUsed (reason ++ " (" ++ exc.cls ++ "): " ++ detail))
  return ⟨some outcome, none⟩

/-- `process.py::_record_failure`. -/
def meteredFailure (eventId : Nat) (exc : Exc) (startedAt : Time) : Metered ProcessResult :=
  meteredScope do
    match ← plain (Queue.loadForUpdate eventId) with
    | none => return notClaimed
    | some event => svc.meteredFailureOf eventId event exc startedAt

/-- `process.py::process_event`. -/
def meteredProcess (eventId : Nat) : Metered ProcessResult := do
  let startedAt ← plain (execute .now)
  try
    meteredScope do
      match ← plain (Queue.claim eventId startedAt) with
      | none => return notClaimed
      | some event => svc.meteredApply event startedAt
  catch exc =>
    if exc.isException then svc.meteredFailure eventId exc startedAt else throw exc

/-- `replay.py::replay_event`. -/
def meteredReplay (eventId : Nat) (requestedBy : String) (reason : Option String) :
    Metered ReplayResult := do
  let now ← plain (execute .now)
  plain (startReplay eventId now)
  let result ← svc.meteredProcess eventId
  plain (finishReplay eventId requestedBy reason now (outcomeOf result).1)
  labels .eventsReplayed [("outcome", (outcomeOf result).1.value)]
  return ⟨eventId, (outcomeOf result).1, (outcomeOf result).2⟩

/-- The calls with their metrics; the others use none. -/
def meteredProgram : Call → Metered Outcome
  | .process eventId => do return .processed (← svc.meteredProcess eventId)
  | .replay eventId requestedBy reason => do
    return .replayed (← svc.meteredReplay eventId requestedBy reason)
  | .deliver request => do return .answered (← svc.meteredIngest request)
  | call => plain (svc.program call)

end Service

section Erased

variable (svc : Service)

theorem erase_ingest (request : Request) : erase (svc.meteredIngest request) = svc.ingest request := by
  simp only [Service.meteredIngest, Service.ingest, erase_bind, erase_labels, pure_then]
  split
  · rfl
  · cases svc.settings.secretForSource request.source with
    | none => rfl
    | some secret =>
      simp only [erase_bind, erase_plain]
      congr 1
      funext now
      cases Signature.verifySignature svc.hmac secret request.rawBody
          (request.headers.get? Signature.header) now svc.settings.signatureTimestampToleranceSeconds with
      | error exc =>
        simp only
        split <;> rfl
      | ok verified =>
        cases svc.route request with
        | error exc =>
          simp only
          split <;> rfl
        | ok routed =>
          simp only [erase_bind, erase_plain]
          rfl

theorem erase_apply (event : StoredEvent) (startedAt : Time) :
    erase (svc.meteredApply event startedAt) = svc.apply event startedAt := by
  simp only [Service.meteredApply, Service.apply, erase_bind, erase_plain, erase_labels, pure_then, erase_pure]

theorem erase_failureOf (eventId : Nat) (event : StoredEvent) (exc : Exc) (startedAt : Time) :
    erase (svc.meteredFailureOf eventId event exc startedAt) =
      svc.recordFailureOf eventId event exc startedAt := by
  simp only [Service.meteredFailureOf, Service.recordFailureOf, erase_bind, erase_plain]
  congr 1
  funext number
  congr 1
  funext finishedAt
  congr 1
  funext recorded
  split
  · simp only [erase_bind, erase_plain, erase_labels, pure_then, erase_pure]
  · simp only [erase_bind, erase_plain, erase_labels, pure_then, erase_pure]

theorem erase_failure (eventId : Nat) (exc : Exc) (startedAt : Time) :
    erase (svc.meteredFailure eventId exc startedAt) = svc.recordFailure eventId exc startedAt := by
  simp only [Service.meteredFailure, Service.recordFailure, erase_meteredScope, erase_bind, erase_plain]
  congr 2
  funext loaded
  cases loaded with
  | none => rfl
  | some event => exact erase_failureOf svc eventId event exc startedAt

theorem erase_process (eventId : Nat) : erase (svc.meteredProcess eventId) = svc.processEvent eventId := by
  simp only [Service.meteredProcess, Service.processEvent, Service.attempt, erase_bind, erase_plain,
    erase_tryCatch, erase_meteredScope]
  congr 1
  funext startedAt
  congr 1
  · congr 2
    funext claimed
    cases claimed with
    | none => rfl
    | some event => exact erase_apply svc event startedAt
  · funext exc
    split
    · exact erase_failure svc eventId exc startedAt
    · rfl

theorem erase_replay (eventId : Nat) (requestedBy : String) (reason : Option String) :
    erase (svc.meteredReplay eventId requestedBy reason) = svc.replayEvent eventId requestedBy reason := by
  simp only [Service.meteredReplay, Service.replayEvent, erase_bind, erase_plain, erase_labels,
    pure_then, erase_process, erase_pure]

/-- Without their metrics they are the calls of the service. -/
theorem erase_metered (call : Call) : erase (svc.meteredProgram call) = svc.program call := by
  cases call with
  | process eventId => simp only [Service.meteredProgram, Service.program, erase_bind, erase_process,
      erase_pure]
  | replay eventId requestedBy reason =>
    simp only [Service.meteredProgram, Service.program, erase_bind, erase_replay, erase_pure]
  | deliver request => simp only [Service.meteredProgram, Service.program, erase_bind, erase_ingest, erase_pure]
  | _ => exact erase_plain _

end Erased

/-! ## Bounded labels -/

/-- A `source` is one that has a secret, and an `event_type` has a handler or is `unknown`. -/
def Service.bounds (svc : Service) (use : LabelUse) : Prop :=
  ∀ label ∈ use.labels,
    (label.1 = "source" → label.2 ∈ svc.settings.webhookSecrets.map (·.1)) ∧
    (label.1 = "event_type" → label.2 ∈ svc.registry.eventTypes ∨ label.2 = unknownEventType)

def Act.bounded (svc : Service) : Act → Prop
  | .store _ => True
  | .label use => svc.bounds use

section Bounded

variable {svc : Service} {α β : Type}

theorem only_plain (program : Program α) : (plain program).Only (Act.bounded svc) := by
  induction program with
  | done result => trivial
  | stmt s next ih => exact ⟨trivial, ih⟩
  | commit next ih => exact ih
  | rollback next ih => exact ih

theorem only_bind {first : Metered α} {next : α → Metered β} (begins : first.Only (Act.bounded svc))
    (goesOn : ∀ value, (next value).Only (Act.bounded svc)) :
    (first >>= next).Only (Act.bounded svc) := by
  refine Prog.only_andThen begins fun result => ?_
  cases result with
  | ok value => exact goesOn value
  | error e => trivial

theorem only_tryCatch {body : Metered α} {handler : Exc → Metered α}
    (tried : body.Only (Act.bounded svc)) (caught : ∀ e, (handler e).Only (Act.bounded svc)) :
    (tryCatch body handler).Only (Act.bounded svc) := by
  refine Prog.only_andThen tried fun result => ?_
  cases result with
  | ok value => trivial
  | error e => exact caught e

theorem only_meteredScope {body : Metered α} (bounded : body.Only (Act.bounded svc)) :
    (meteredScope body).Only (Act.bounded svc) := by
  refine Prog.only_andThen bounded fun result => ?_
  cases result with
  | ok value =>
    intro answer
    cases answer <;> trivial
  | error e =>
    intro answer
    cases answer <;> trivial

theorem only_labels {metric : Metric} {values : List (String × String)}
    (bounded : svc.bounds ⟨metric, values⟩) : (labels metric values).Only (Act.bounded svc) :=
  ⟨bounded, fun _ => trivial⟩

/-- `known_event_type` bounds the label. -/
theorem bounds_eventType (metric : Metric) (eventType : String) {name value : String}
    (other : name ≠ "source" ∧ name ≠ "event_type") :
    svc.bounds ⟨metric, [("event_type", knownEventType eventType svc.registry.eventTypes), (name, value)]⟩ := by
  intro label member
  simp only [List.mem_cons, List.not_mem_nil, or_false] at member
  rcases member with rfl | rfl
  · refine ⟨fun never => by simp at never, fun _ => ?_⟩
    unfold knownEventType
    split
    · rename_i known
      exact Or.inl known
    · exact Or.inr rfl
  · exact ⟨fun named => absurd named other.1, fun named => absurd named other.2⟩

theorem bounds_source {metric : Metric} {source name value : String}
    (configured : source ∈ svc.settings.webhookSecrets.map (·.1))
    (other : name ≠ "source" ∧ name ≠ "event_type") :
    svc.bounds ⟨metric, [("source", source), (name, value)]⟩ := by
  intro label member
  simp only [List.mem_cons, List.not_mem_nil, or_false] at member
  rcases member with rfl | rfl
  · exact ⟨fun _ => configured, fun never => by simp at never⟩
  · exact ⟨fun named => absurd named other.1, fun named => absurd named other.2⟩

theorem only_ingest {request : Request}
    (configured : request.source ∈ svc.settings.webhookSecrets.map (·.1)) :
    (svc.meteredIngest request).Only (Act.bounded svc) := by
  have rejects (metric : Metric) (name value : String) (other : name ≠ "source" ∧ name ≠ "event_type") :
      (labels metric [("source", request.source), (name, value)]).Only (Act.bounded svc) :=
    only_labels (bounds_source configured other)
  have latency : (labels .ingestLatency [("source", request.source)]).Only (Act.bounded svc) := by
    refine only_labels fun label member => ?_
    obtain rfl := List.mem_singleton.mp member
    exact ⟨fun _ => configured, fun never => by simp at never⟩
  unfold Service.meteredIngest
  refine only_bind latency fun _ => ?_
  split
  · exact only_bind (rejects _ _ _ (by decide)) fun _ => trivial
  · cases svc.settings.secretForSource request.source with
    | none => exact only_bind (rejects _ _ _ (by decide)) fun _ => trivial
    | some secret =>
      refine only_bind (only_plain _) fun now => ?_
      split
      · split
        · exact only_bind (rejects _ _ _ (by decide)) fun _ => trivial
        · trivial
      · split
        · split
          · exact only_bind (rejects _ _ _ (by decide)) fun _ => trivial
          · trivial
        · refine only_bind (only_plain _) fun result => ?_
          exact only_bind (rejects _ _ _ (by decide)) fun _ => trivial

theorem only_apply (event : StoredEvent) (startedAt : Time) :
    (svc.meteredApply event startedAt).Only (Act.bounded svc) := by
  have latency : (labels .processLatency
      [("event_type", knownEventType event.eventType svc.registry.eventTypes)]).Only (Act.bounded svc) := by
    refine only_labels fun label member => ?_
    have pair : svc.bounds ⟨.processLatency, [("event_type",
        knownEventType event.eventType svc.registry.eventTypes), ("outcome", "")]⟩ :=
      bounds_eventType _ _ (by decide)
    exact pair label (List.mem_cons.mpr (Or.inl (List.mem_singleton.mp member)))
  unfold Service.meteredApply
  refine only_bind (only_plain _) fun number => only_bind (only_plain _) fun _ => ?_
  refine only_bind (only_plain _) fun effect => only_bind (only_plain _) fun result => ?_
  refine only_bind (only_plain _) fun finishedAt => only_bind (only_plain _) fun _ => ?_
  refine only_bind (only_plain _) fun _ => ?_
  exact only_bind (only_labels (bounds_eventType _ _ (by decide))) fun _ =>
    only_bind latency fun _ => trivial

theorem only_failureOf (eventId : Nat) (event : StoredEvent) (exc : Exc) (startedAt : Time) :
    (svc.meteredFailureOf eventId event exc startedAt).Only (Act.bounded svc) := by
  unfold Service.meteredFailureOf
  refine only_bind (only_plain _) fun number => only_bind (only_plain _) fun finishedAt => ?_
  refine only_bind (only_plain _) fun _ => ?_
  simp only
  split
  · refine only_bind (only_plain _) fun delay => only_bind (only_plain _) fun _ => ?_
    exact only_bind (only_labels (bounds_eventType _ _ (by decide))) fun _ => trivial
  · exact only_bind (only_labels (bounds_eventType _ _ (by decide))) fun _ =>
      only_bind (only_plain _) fun _ => trivial

theorem only_process (eventId : Nat) : (svc.meteredProcess eventId).Only (Act.bounded svc) := by
  unfold Service.meteredProcess
  refine only_bind (only_plain _) fun startedAt => only_tryCatch ?_ fun exc => ?_
  · refine only_meteredScope (only_bind (only_plain _) fun claimed => ?_)
    cases claimed with
    | none => trivial
    | some event => exact only_apply event startedAt
  · split
    · refine only_meteredScope (only_bind (only_plain _) fun loaded => ?_)
      cases loaded with
      | none => trivial
      | some event => exact only_failureOf eventId event exc startedAt
    · trivial

/-- A call keeps within the bounds unless it is a delivery from a source without a secret. -/
theorem only_program {call : Call} (configured : ∀ request, call = .deliver request →
    request.source ∈ svc.settings.webhookSecrets.map (·.1)) :
    (svc.meteredProgram call).Only (Act.bounded svc) := by
  cases call with
  | process eventId => exact only_bind (only_process eventId) fun _ => trivial
  | replay eventId requestedBy reason =>
    refine only_bind ?_ fun _ => trivial
    refine only_bind (only_plain _) fun now => only_bind (only_plain _) fun _ => ?_
    refine only_bind (only_process eventId) fun result => only_bind (only_plain _) fun _ => ?_
    refine only_bind (only_labels fun label member => ?_) fun _ => trivial
    obtain rfl := List.mem_singleton.mp member
    exact ⟨fun never => by simp at never, fun never => by simp at never⟩
  | deliver request => exact only_bind (only_ingest (configured request rfl)) fun _ => trivial
  | _ => exact only_plain _

end Bounded

/-! ## Runs with metrics -/

/-- Any number of calls at once, with their metrics. -/
def Service.metered (svc : Service) :
    Txn.System Db Write Lock Input Call Act Act.Answer Exc Outcome where
  apply := Write.apply
  exec := fun avail input view act =>
    match act with
    | .store s => s.exec avail input view
    | .label _ => some { answer := .ok () }
  program := svc.meteredProgram

/-- Some run in which only these calls are made uses a metric with these labels. -/
def Service.Uses (svc : Service) (calls : Call → Prop) (db : Db) (use : LabelUse) : Prop :=
  ∃ w, Txn.Reach svc.metered (fun _ action => ∀ t call, action = .spawn t call → calls call)
      (.init db) w ∧
    ∃ t th answer, w.threads t = some th ∧ .stmt (.label use) answer ∈ th.trace

/-- The first thing that a request does is to use its source as a label. -/
theorem uses_latency (svc : Service) {calls : Call → Prop} (db : Db) {request : Request}
    (called : calls (.deliver request)) :
    svc.Uses calls db ⟨.ingestLatency, [("source", request.source)]⟩ := by
  let use : LabelUse := ⟨.ingestLatency, [("source", request.source)]⟩
  let call : Call := .deliver request
  obtain ⟨next, begins⟩ : ∃ next, svc.metered.program call = .stmt (.label use) next := ⟨_, rfl⟩
  let spawned : Txn.World Db Write Lock Call Act Act.Answer Exc Outcome :=
    (Txn.World.init db).setThread 0 (some ⟨call, .stmt (.label use) next, [], []⟩)
  let allow (_ : Txn.World Db Write Lock Call Act Act.Answer Exc Outcome) (action : Action) : Prop :=
    ∀ t call, action = .spawn t call → calls call
  have first : Txn.step svc.metered (.init db) (.spawn 0 call) = some spawned := by
    simp only [spawned, ← begins]
    rfl
  have second : Txn.step svc.metered spawned (.run 0 (Sample.clock 0)) =
      some (spawned.answer svc.metered 0 ⟨call, .stmt (.label use) next, [], []⟩
        (.label use) next { answer := .ok () }) := by
    simp [Txn.step, spawned, Txn.World.setThread, Service.metered]
  have reached : Txn.Reach svc.metered allow (.init db) _ :=
    (Txn.Reach.start.next ?_ first).next ?_ second
  · exact ⟨_, reached, 0, _, .ok (), rfl, by simp [use]⟩
  · rintro t call ⟨⟩
    exact called
  · rintro t call ⟨⟩

/-- The labels stay within the bounds, in all runs, exactly if every request names a
configured source. -/
theorem labels_bounded_iff (svc : Service) (calls : Call → Prop) (db : Db) :
    (∀ use, svc.Uses calls db use → svc.bounds use) ↔
      ∀ request, calls (.deliver request) →
        request.source ∈ svc.settings.webhookSecrets.map (·.1) := by
  constructor
  · intro bounded request called
    exact (bounded _ (uses_latency svc db called) _ List.mem_cons_self).1 rfl
  · rintro configured use ⟨w, reached, t, th, answer, here, used⟩
    have only : w.Only (Act.bounded svc) := by
      refine reached.only (fun t th absent => by cases absent) fun w t call permitted => ?_
      refine only_program fun request same => configured request ?_
      exact same ▸ permitted t call rfl
    exact (only t th here).2 _ answer used

/-- A request to a source that nobody has configured makes a time series of its own. -/
theorem unconfigured_source_labelled : ¬ ∀ (svc : Service) (calls : Call → Prop) db use,
    svc.Uses calls db use → svc.bounds use := by
  intro bounded
  let request : Request := ⟨"paypal", [], []⟩
  have used := @uses_latency Sample.service (fun _ => True) Db.empty request trivial
  have configured := (bounded _ _ _ _ used _ List.mem_cons_self).1 rfl
  simp [Sample.service] at configured

end WebhookReceiver
