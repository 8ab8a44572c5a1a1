import WebhookReceiver.Attribution
import WebhookReceiver.Draining
import WebhookReceiver.Txn.Piece

/-!
Replay requests (`api/admin.py`, `POST /v1/admin/replay`).

A request names its events, or asks for the open dead-letter queue or for a window of time.
Its events are replayed one after the other, and the first exception ends it. With nothing
else going on, what is answered is what the store shows: one record for each result, in the
order of the results, and one ledger entry for each result that says so, none of them a
second one for its event (`replay_accounts`). When the request ends at an event that does not
exist, that holds of the events before it.
-/

namespace WebhookReceiver

open Txn (Prog)

/-! ## The request -/

/-- The settings that the route reads (`config.py`). -/
structure AdminSettings where
  adminApiKey : String
  replayMaxBatch : Nat := 100

/-- `auth.py::require_admin`: the identity of the operator, unless the request is refused. -/
def requireAdmin (admin : AdminSettings) (xAdminKey : Option String) : Except Exc (Option String) :=
  match xAdminKey with
  | none => .ok none
  | some key => do
    let same ← Signature.compareDigest key admin.adminApiKey
    return if same then some "api-key" else none

/-- `admin.py::ReplayIn`. -/
structure ReplayIn where
  eventIds : Option (List Nat) := none
  deadLettered : Bool := false
  since : Option Time := none
  until' : Option Time := none
  reason : Option String := none

/-- Why a body is refused: a field is too long, or the validator raises a `ValueError`. -/
inductive Invalid where
  | tooLong (field : String)
  | value (message : String)
  deriving DecidableEq

/-- `admin.py::ReplayIn._exactly_one_selector`. -/
def ReplayIn.exactlyOneSelector (body : ReplayIn) : Except Invalid Unit :=
  let selectors := [body.eventIds.isSome, body.deadLettered, body.since.isSome || body.until'.isSome]
  if selectors.count true ≠ 1 then
    .error (.value "choose exactly one of: event_ids, dead_lettered, or a since/until range")
  else if body.since.isNone ≠ body.until'.isNone then
    .error (.value "a time range needs both since and until")
  else match body.since, body.until' with
    | some since, some until' =>
      if until' ≤ since then .error (.value "since must be before until") else .ok ()
    | _, _ => .ok ()

/-- What pydantic checks of the body: the fields first, then the model. -/
def ReplayIn.validate (body : ReplayIn) : Except Invalid Unit :=
  if body.reason.any fun reason => 1000 < reason.length then .error (.tooLong "reason")
  else body.exactlyOneSelector

/-- `queue.py::event_ids_in_range`. What was received at the same time comes in any order. -/
def EventIdsInRange (db : Db) (since until' : Time) (limit : Nat) (ids : List Nat) : Prop :=
  ∃ rows : List EventRow, rows.Perm (db.events.filter fun row => since ≤ row.receivedAt ∧
    row.receivedAt < until') ∧
    rows.Pairwise (fun row later => row.receivedAt ≤ later.receivedAt) ∧
    ids = (rows.take limit).map (·.id)

/-- The events that a body selects. -/
inductive Selects (limit : Nat) (db : Db) (body : ReplayIn) : List Nat → Prop where
  | named {ids : List Nat} (named : body.eventIds = some ids) (few : ids.length ≤ limit) :
      Selects limit db body ids
  | deadLettered {ids : List Nat} (unnamed : body.eventIds = none) (queue : body.deadLettered = true)
      (read : DeadLetteredEventIds db limit ids) : Selects limit db body ids
  | received {ids : List Nat} {since until' : Time} (unnamed : body.eventIds = none)
      (other : body.deadLettered = false) (window : body.since = some since ∧ body.until' = some until')
      (read : EventIdsInRange db since until' limit ids) : Selects limit db body ids

/-! ## The answer -/

/-- An `EventNotFoundError`. -/
def Exc.isEventNotFound (exc : Exc) : Bool := exc.cls = "EventNotFoundError" && exc.isException

/-- What the driver raises, is none of the service's own exceptions. -/
def Strikes.foreign (strikes : Strikes) : Prop := ∀ trace e, strikes trace e → e.isEventNotFound = false

/-- What a replay has raised. -/
def replayError (w : World) : Option Exc :=
  (w.threads 0).bind fun th =>
    match th.prog with
    | .done (.error e) => some e
    | _ => none

/-- `replay.py::replay_events`: the results until an event raises an exception, and that exception. -/
inductive Service.Replaying (svc : Service) (requestedBy : String) (reason : Option String) :
    List Nat → Db → List ReplayResult → Option Exc → Db → Prop where
  | done {db : Db} : Replaying svc requestedBy reason [] db [] none db
  | returned {eventId : Nat} {ids : List Nat} {db after : Db} {w : World} {strikes : Strikes}
      {result : ReplayResult} {results : List ReplayResult} {raised : Option Exc} (foreign : strikes.foreign)
      (alone : svc.Solitary (.replay eventId requestedBy reason) strikes db w)
      (returned : replayResult w = some result)
      (rest : Replaying svc requestedBy reason ids w.db results raised after) :
      Replaying svc requestedBy reason (eventId :: ids) db (result :: results) raised after
  | raised {eventId : Nat} {ids : List Nat} {db : Db} {w : World} {strikes : Strikes} {e : Exc}
      (foreign : strikes.foreign) (alone : svc.Solitary (.replay eventId requestedBy reason) strikes db w)
      (raised : replayError w = some e) : Replaying svc requestedBy reason (eventId :: ids) db [] (some e) w.db

/-- The responses of the route, with what their bodies tell. -/
inductive ReplayAnswer where
  | unauthorized
  | unprocessable (error : Invalid)
  | badRequest (detail : String)
  | notFound (detail : String)
  | serverError
  /-- `admin.py::ReplayOut`. -/
  | replayed (requested : Nat) (results : List ReplayResult)

/-- What becomes of an exception of `replay_events`. -/
def answerOf (exc : Exc) : ReplayAnswer := if exc.isEventNotFound then .notFound exc.message else .serverError

/-- `admin.py::replay`, with nothing else going on. -/
inductive Service.AnswersReplay (svc : Service) (admin : AdminSettings) (key : Option String) (body : ReplayIn)
    (db : Db) : ReplayAnswer → Db → Prop where
  | refused (refused : requireAdmin admin key = .ok none) : AnswersReplay svc admin key body db .unauthorized db
  | broken {e : Exc} (raised : requireAdmin admin key = .error e) :
      AnswersReplay svc admin key body db .serverError db
  | invalid {operator : String} {error : Invalid} (admitted : requireAdmin admin key = .ok (some operator))
      (invalid : body.validate = .error error) : AnswersReplay svc admin key body db (.unprocessable error) db
  | tooMany {operator : String} {ids : List Nat} (admitted : requireAdmin admin key = .ok (some operator))
      (valid : body.validate = .ok ()) (named : body.eventIds = some ids)
        (many : admin.replayMaxBatch < ids.length) :
      AnswersReplay svc admin key body db (.badRequest ("asked to replay " ++ toString ids.length ++
        " events; the limit is " ++ toString admin.replayMaxBatch)) db
  | unread {operator : String} (admitted : requireAdmin admin key = .ok (some operator))
      (valid : body.validate = .ok ()) : AnswersReplay svc admin key body db .serverError db
  | replayed {operator : String} {ids : List Nat} {results : List ReplayResult} {after : Db}
      (admitted : requireAdmin admin key = .ok (some operator)) (valid : body.validate = .ok ())
      (selected : Selects admin.replayMaxBatch db body ids)
      (replaying : svc.Replaying operator body.reason ids db results none after) :
      AnswersReplay svc admin key body db (.replayed ids.length results) after
  | raised {operator : String} {ids : List Nat} {results : List ReplayResult} {e : Exc} {after : Db}
      (admitted : requireAdmin admin key = .ok (some operator)) (valid : body.validate = .ok ())
      (selected : Selects admin.replayMaxBatch db body ids)
      (replaying : svc.Replaying operator body.reason ids db results (some e) after) :
      AnswersReplay svc admin key body db (answerOf e) after

/-! ## What is answered and what is there -/

/-- The record of a replay that has been answered with this result. -/
structure Recorded (requestedBy : String) (reason : Option String) (result : ReplayResult)
    (request : ReplayRequest) : Prop where
  event : request.eventId = result.eventId
  outcome : request.outcome = result.outcome
  asked : request.requestedBy = requestedBy ∧ request.reason = reason

/-- The events whose results claim an effect. -/
def effects (results : List ReplayResult) : List Nat :=
  (results.filter fun result => result.outcome = .succeeded).map (·.eventId)

/-- The later store has these further requests, and ledger entries for these further events. -/
structure Adds (requests : List ReplayRequest) (posted : List Nat) (db after : Db) : Prop where
  replays : after.replays = db.replays ++ requests
  ledger : after.ledger.map (·.eventId) = db.ledger.map (·.eventId) ++ posted

/-- The store has a record for each result and a ledger entry for each effect, and no others. -/
def Tallies (requestedBy : String) (reason : Option String) (results : List ReplayResult)
    (db after : Db) : Prop :=
  ∃ requests, List.Forall₂ (Recorded requestedBy reason) results requests ∧
    Adds requests (effects results) db after

section Adds

variable {requests more : List ReplayRequest} {posted posted' : List Nat} {db mid after : Db}

theorem Adds.refl (db : Db) : Adds [] [] db db := ⟨by simp, by simp⟩

theorem Adds.trans (first : Adds requests posted db mid) (second : Adds more posted' mid after) :
    Adds (requests ++ more) (posted ++ posted') db after := by
  constructor
  · rw [second.replays, first.replays, List.append_assoc]
  · rw [second.ledger, first.ledger, List.append_assoc]

theorem Adds.ofSame (same : SameRows db after) : Adds [] [] db after := by
  obtain ⟨seq, rfl⟩ := same
  exact ⟨by simp [Db.reseq], by simp [Db.reseq]⟩

theorem Adds.same (adds : Adds requests posted db mid) (same : SameRows mid after) :
    Adds requests posted db after := by
  simpa using adds.trans (.ofSame same)

end Adds

/-! ## Statements -/

/-- The statement leaves the ledger and the record of the replays alone. -/
def Stmt.aside : Stmt → Prop
  | .insertLedgerEntry .. | .insertReplayRequest _ | .insertEvent _ | .purgeAttempts _ | .purgeEvent .. => False
  | _ => True

/-- The write leaves the ledger and the record of the replays alone. -/
def Write.aside : Write → Prop
  | .insertLedger _ | .insertReplay _ | .deleteEvent _ | .deleteAttempts _ => False
  | _ => True

theorem adds_aside {writes : List Write} (aside : ∀ write ∈ writes, write.aside) (db : Db) :
    Adds [] [] db (db.after writes) := by
  induction writes generalizing db with
  | nil => exact .refl db
  | cons write rest ih =>
    obtain ⟨first, others⟩ := List.forall_mem_cons.mp aside
    have one : Adds [] [] db (write.apply db) := by
      cases write with
      | insertLedger row => exact first.elim
      | insertReplay row => exact first.elim
      | deleteEvent id => exact first.elim
      | deleteAttempts ids => exact first.elim
      | _ => exact ⟨by simp [Write.apply], by simp [Write.apply]⟩
    exact one.trans (ih others _)

/-- What a statement that leaves them alone writes and raises. -/
def Mild {ρ : Type} (reply : Txn.Reply Write Lock Exc ρ) : Prop :=
  (∀ write ∈ reply.writes, write.aside) ∧ ∀ e, reply.answer = .error e → e.isEventNotFound = false

section Statements

variable {s : Stmt} {avail : Lock → Txn.Mode → Bool} {input : Input} {view : Db}

theorem mild_read {ρ : Type} {answer : ρ} {locks : List (Lock × Txn.Mode)} {reply : Txn.Reply Write Lock Exc ρ}
    (ran : read answer locks = some reply) : Mild reply := by
  cases ran
  exact ⟨by simp, by simp⟩

theorem mild_refuse {ρ : Type} {e : Exc} {reply : Txn.Reply Write Lock Exc ρ} (ran : refuse e = some reply)
    (known : e.isEventNotFound = false) : Mild reply := by
  cases ran
  refine ⟨by simp, ?_⟩
  rintro _ ⟨⟩
  exact known

theorem mild_write {ρ : Type} {answer : ρ} {write : Write} {locks : List (Lock × Txn.Mode)}
    {reply : Txn.Reply Write Lock Exc ρ}
    (ran : some { answer := .ok answer, writes := [write], locks := locks } = some reply)
    (aside : write.aside) :
    Mild reply := by
  cases ran
  exact ⟨by simpa using aside, by simp⟩

theorem mild_insertUnder {ρ : Type} {key : Lock} {table : Table} {taken : Bool} {conflict : Except Exc ρ}
    {unmet : Option Exc} {inserted : ρ} {write : Write} {locks : List (Lock × Txn.Mode)}
    {reply : Txn.Reply Write Lock Exc ρ}
    (ran : insertUnder avail key table taken conflict unmet inserted write locks = some reply)
    (aside : write.aside)
    (taken' : ∀ e, conflict = .error e → e.isEventNotFound = false)
    (unmet' : ∀ e, unmet = some e → e.isEventNotFound = false) : Mild reply := by
  rcases insertUnder_some ran with ⟨-, rfl⟩ | ⟨-, e, failed, rfl⟩ | ⟨-, -, rfl⟩
  · exact ⟨by simp, taken'⟩
  · refine ⟨by simp, ?_⟩
    rintro _ ⟨⟩
    exact unmet' e failed
  · exact ⟨by simpa using aside, by simp⟩

theorem exec_aside {reply : Txn.Reply Write Lock Exc s.Answer} (ran : s.exec avail input view = some reply)
    (aside : s.aside) : Mild reply := by
  cases s with
  | insertLedgerEntry accountId eventId amountMinor => exact aside.elim
  | insertReplayRequest request => exact aside.elim
  | insertEvent event => exact aside.elim
  | purgeAttempts cutoff => exact aside.elim
  | purgeEvent eventId cutoff => exact aside.elim
  | insertAttempt attempt =>
    refine mild_insertUnder ran trivial ?_ ?_
    · rintro _ ⟨⟩
      rfl
    · intro e failed
      simp only [Option.or_eq_some_iff, check, Option.ite_none_right_eq_some, Option.some.injEq] at failed
      rcases failed with ⟨-, rfl⟩ | ⟨-, ⟨-, rfl⟩ | ⟨-, -, rfl⟩⟩ <;> rfl
  | insertDeadLetterEntry eventId attemptsMade reason =>
    refine mild_insertUnder ran trivial (by rintro _ ⟨⟩) ?_
    intro e failed
    simp only [check, Option.ite_none_right_eq_some, Option.some.injEq] at failed
    obtain ⟨-, rfl⟩ := failed
    rfl
  | insertAccount externalRef =>
    simp only [Stmt.exec, execInsertAccount] at ran
    exact mild_insertUnder ran trivial (by rintro _ ⟨⟩) (by rintro _ ⟨⟩)
  | updateAccount accountId given values =>
    simp only [Stmt.exec, execUpdateAccount] at ran
    split at ran
    · exact mild_refuse ran rfl
    · split at ran
      · exact mild_read ran
      · split at ran
        · exact mild_refuse ran rfl
        · split at ran
          · exact mild_refuse ran rfl
          · exact mild_write ran trivial
  | updateEntry entryId values =>
    simp only [Stmt.exec, execUpdateEntry] at ran
    split at ran
    · exact mild_read ran
    · split at ran
      · exact mild_refuse ran rfl
      · exact mild_write ran trivial
  | claim eventId due =>
    simp only [Stmt.exec] at ran
    split at ran
    · exact mild_read ran
    · split at ran <;> exact mild_read ran
  | loadForUpdate eventId | eventIdOf source key | entryStatusForUpdate id | accountIdOf externalRef
  | balanceAndVersion id =>
    simp only [Stmt.exec] at ran
    split at ran <;> first | exact mild_read ran | exact mild_refuse ran rfl
  | updateEvent eventId values =>
    simp only [Stmt.exec] at ran
    split at ran
    · exact mild_read ran
    · exact mild_write ran trivial
  | _ => exact mild_read ran

end Statements

/-! ## Pieces of a replay -/

/-- A piece of a transaction that leaves them alone, and raises no `EventNotFoundError`. -/
abbrev Minor {α : Type} (piece : Program α) : Prop :=
  piece.Piece Stmt.aside fun e => e.isEventNotFound = false

section Minor

theorem minor_execute {s : Stmt} (aside : s.aside) : Minor (execute s) := Prog.piece_perform aside

theorem minor_nextAttemptNumber (eventId : Nat) : Minor (Queue.nextAttemptNumber eventId) :=
  Prog.piece_bind (minor_execute trivial) fun _ => Prog.piece_pure _

theorem minor_nextDelaySeconds (attempt : Nat) (baseSeconds capSeconds : ℚ) :
    Minor (nextDelaySeconds attempt baseSeconds capSeconds) := by
  unfold nextDelaySeconds
  split
  · exact Prog.piece_throw rfl
  · exact minor_execute trivial

theorem minor_deadLetter (eventId attemptsMade : Nat) (reason : String) :
    Minor (Queue.deadLetter eventId attemptsMade reason) :=
  Prog.piece_bind (minor_execute trivial) fun _ => minor_execute trivial

theorem minor_ensureTransition (current target : DlqStatus) :
    Minor (Prog.ofExcept (ensureTransition current target) : Program Unit) := by
  intro e refused
  unfold ensureTransition at refused
  split at refused <;> cases refused
  rfl

theorem minor_transition (entryId : Nat) (target : DlqStatus) (now : Time) (note : Option String) :
    Minor (Dlq.transition entryId target now note) := by
  refine Prog.piece_bind (minor_execute trivial) fun current => ?_
  refine Prog.piece_bind (minor_ensureTransition current target) fun _ => ?_
  refine Prog.piece_bind (minor_execute trivial) fun _ => Prog.piece_bind (minor_execute trivial)
    fun entry => ?_
  cases entry with
  | none => exact Prog.piece_throw rfl
  | some entry => exact Prog.piece_pure entry

theorem minor_nextAttemptAt (svc : Service) (attemptNumber : Nat) (finishedAt : Time) :
    Minor (svc.nextAttemptAt attemptNumber finishedAt) := by
  refine Prog.piece_bind (minor_nextDelaySeconds _ _ _) fun delay => ?_
  rcases datetimePlus_cases finishedAt delay with ⟨added, -⟩ | ⟨message, raised⟩
  · rw [added]
    exact Prog.piece_pure _
  · rw [raised]
    exact Prog.piece_throw rfl

theorem minor_recordFailureOf (svc : Service) (eventId : Nat) (event : StoredEvent) (exc : Exc)
    (startedAt : Time) :
    Minor (svc.recordFailureOf eventId event exc startedAt) := by
  refine Prog.piece_bind (minor_nextAttemptNumber _) fun number => ?_
  refine Prog.piece_bind (minor_execute trivial) fun finishedAt =>
    Prog.piece_bind (minor_execute trivial) fun _ => ?_
  dsimp only
  split
  · refine Prog.piece_bind (minor_nextAttemptAt svc _ _) fun due => ?_
    exact Prog.piece_bind (minor_execute trivial) fun _ => Prog.piece_pure _
  · exact Prog.piece_bind (minor_deadLetter _ _ _) fun _ => Prog.piece_pure _

theorem minor_markDlqReplaying (eventId : Nat) (now : Time) : Minor (markDlqReplaying eventId now) := by
  refine Prog.piece_bind (minor_execute trivial) fun entry => ?_
  cases entry with
  | none => exact Prog.piece_pure _
  | some entry =>
    dsimp only
    split
    · exact Prog.piece_pure _
    · exact Prog.piece_bind (minor_transition _ _ _ _) fun _ => Prog.piece_pure _

theorem minor_settleDlq (eventId : Nat) (outcome : ReplayOutcome) (now : Time) :
    Minor (settleDlq eventId outcome now) := by
  refine Prog.piece_bind (minor_execute trivial) fun entry => ?_
  cases entry with
  | none => exact Prog.piece_pure _
  | some entry =>
    dsimp only
    split
    · exact Prog.piece_pure _
    · split <;> exact Prog.piece_bind (minor_transition _ _ _ _) fun _ => Prog.piece_pure _

end Minor

/-! ## A replay alone -/

/-- The store as the thread sees it. -/
def Moment.view (c : Moment) : Db := c.db.after c.writes

/-- The later moment in the same transaction, with what the transaction has added. -/
structure Grows (requests : List ReplayRequest) (posted : List Nat) (c c' : Moment) : Prop where
  inside : Inside c c'
  adds : Adds requests posted (Moment.view c) (Moment.view c')

/-- The ledger entry that the result of a pass claims. -/
def claims (eventId : Nat) (result : ProcessResult) : List Nat :=
  if (outcomeOf result).1 = .succeeded then [eventId] else []

section Alone

variable {svc : Service} {call : Call} {strikes : Strikes} {c c' : Moment} {α β : Type} {eventId : Nat}
  {requests more : List ReplayRequest} {posted posted' : List Nat}

theorem Grows.refl (c : Moment) : Grows [] [] c c := ⟨.refl c, .refl _⟩

theorem Grows.trans {c₁ c₂ c₃ : Moment} (first : Grows requests posted c₁ c₂)
    (second : Grows more posted' c₂ c₃) :
    Grows (requests ++ more) (posted ++ posted') c₁ c₃ :=
  ⟨first.inside.trans second.inside, first.adds.trans second.adds⟩

theorem grows_answer {s : Stmt} {input : Input} {reply : Txn.Reply Write Lock Exc s.Answer}
    (ran : s.exec (fun _ _ => true) input (c.db.after c.writes) = some reply)
    (adds : Adds requests posted (Moment.view c) ((Moment.view c).after reply.writes)) :
    Grows requests posted c { c with
      db := c.db.after reply.instant
      writes := c.writes ++ reply.writes
      trace := c.trace ++ [.stmt s reply.answer] } := by
  refine ⟨inside_answer ran, adds.same ?_⟩
  have same := (exec_sameRows ran c.db).after (c.writes ++ reply.writes)
  rw [Db.after_append] at same
  exact same

theorem lone_minor {piece : Program α} (foreign : strikes.foreign) (minor : Minor piece)
    {Q : Except Exc α → Moment → Prop}
    (ends : ∀ r c', Grows [] [] c c' → (∀ e, r = .error e → e.isEventNotFound = false) → Q r c') :
    svc.lone call strikes piece c Q := by
  refine Txn.lone_mono (fun r c' left => ends r c' left.1 left.2)
    (Txn.lone_keeps (I := Grows [] [] c) ?_ ?_ minor (.refl c))
  · intro c₁ s input reply grown aside ran
    obtain ⟨writes, errors⟩ := exec_aside
      (show s.exec (fun _ _ => true) input (c₁.db.after c₁.writes) = _ from ran) aside
    exact ⟨grown.trans (grows_answer ran (adds_aside writes _)), errors⟩
  · intro c₁ s e grown striking
    refine ⟨grown.trans ⟨⟨.refl _, List.prefix_refl _, ⟨_, rfl, by simp⟩, rfl⟩, .refl _⟩, foreign _ _ striking⟩

/-- Such a piece and what follows it. -/
theorem lone_minor_bind {piece : Program α} {next : α → Program β} {Q : Except Exc β → Moment → Prop}
    (foreign : strikes.foreign) (minor : Minor piece)
    (raised : ∀ e c', Grows [] [] c c' → e.isEventNotFound = false → Q (.error e) c')
    (rest : ∀ value c', Grows [] [] c c' → svc.lone call strikes (next value) c' Q) :
    svc.lone call strikes (piece >>= next) c Q := by
  refine lone_bind (lone_minor foreign minor fun r c' grown errors => ?_)
  cases r with
  | ok value => exact rest value c' grown
  | error e => exact raised e c' grown (errors e rfl)

/-- A transaction leaves what it has added, or nothing. -/
theorem lone_transaction {body : Program α} {X : Exc → Prop} {R : α → Db → Prop}
    (struck : ∀ trace e, strikes trace e → X e)
    (met : svc.lone call strikes body c fun r c' => Inside c c' ∧ (∀ e, r = .error e → X e) ∧
      ∀ value, r = .ok value → R value (Moment.view c')) :
    svc.lone call strikes (sessionScope body) c fun r c' => c'.writes = [] ∧
      (∀ e, r = .error e → X e ∧ SameRows c.db c'.db) ∧ ∀ value, r = .ok value → R value c'.db := by
  refine lone_sessionScope (Txn.lone_mono ?_ met)
  rintro r c' ⟨inside, errors, values⟩
  constructor
  · intro e why
    refine ⟨rfl, ?_, by rintro value ⟨⟩⟩
    rintro _ ⟨⟩
    exact ⟨why.elim (errors e) (struck _ e), inside.db⟩
  · intro value done
    refine ⟨rfl, by rintro e ⟨⟩, ?_⟩
    rintro _ ⟨⟩
    exact values value done

/-! ### The pass -/

theorem lone_claimLedgerRow (accountId : Nat) (amountMinor : Int) :
    svc.lone call strikes (Ledger.claimLedgerRow accountId eventId amountMinor) c fun r c' => Inside c c' ∧
      ∀ claimed, r = .ok claimed → Grows [] (if claimed then [eventId] else []) c c' := by
  refine lone_execute (fun e c' inside _ => ⟨inside, by rintro _ ⟨⟩⟩) fun input reply id ran told => ?_
  have grown : Grows [] (if id.isSome then [eventId] else []) c { c with
      db := c.db.after reply.instant
      writes := c.writes ++ reply.writes
      trace := c.trace ++ [.stmt _ reply.answer] } := by
    refine grows_answer ran ?_
    simp only [Stmt.exec, execInsertLedgerEntry] at ran
    split at ran
    · cases ran
      cases told
    · rcases insertUnder_some ran with ⟨-, rfl⟩ | ⟨-, e, -, rfl⟩ | ⟨-, -, rfl⟩
      · cases told
        exact .refl _
      · cases told
      · cases told
        exact ⟨by simp [Write.apply], by simp [Write.apply]⟩
  rw [told] at grown
  refine ⟨grown.inside, ?_⟩
  rintro _ ⟨⟩
  exact grown

/-- The ledger says whether the balance moves. -/
theorem lone_moveBalance (foreign : strikes.foreign) (accountId : Nat) (amountMinor given : Int)
    (values : AccountState → AccountState) :
    svc.lone call strikes (do
      if !(← Ledger.claimLedgerRow accountId eventId amountMinor) then return EffectResult.alreadyApplied
      execute (.updateAccount accountId given values)
      return EffectResult.applied) c fun r c' => Inside c c' ∧
        ∀ result, r = .ok result → Grows [] (if result = .applied then [eventId] else []) c c' := by
  refine lone_bind (Txn.lone_mono ?_ (lone_claimLedgerRow accountId amountMinor))
  rintro (e | claimed) c₁ ⟨inside, grown₁⟩
  · exact ⟨inside, by rintro _ ⟨⟩⟩
  · have grown₁ := grown₁ claimed rfl
    cases claimed with
    | false =>
      refine ⟨inside, ?_⟩
      rintro _ ⟨⟩
      exact grown₁
    | true =>
      refine lone_minor_bind foreign (minor_execute trivial)
        (fun e c₂ grown₂ _ => ⟨inside.trans grown₂.inside, by rintro _ ⟨⟩⟩) fun _ c₂ grown₂ => ?_
      refine ⟨inside.trans grown₂.inside, ?_⟩
      rintro _ ⟨⟩
      simpa using grown₁.trans grown₂

theorem lone_applyEffect (foreign : strikes.foreign) (event : StoredEvent) (effect : Effect) :
    svc.lone call strikes (Ledger.applyEffect event effect) c fun r c' => Inside c c' ∧
      ∀ result, r = .ok result → Grows [] (if result = .applied then [event.id] else []) c c' := by
  have after : ∀ {c₁ : Moment}, Grows [] [] c c₁ → ∀ (r : Except Exc EffectResult) c',
      (Inside c₁ c' ∧ ∀ result, r = .ok result →
        Grows [] (if result = .applied then [event.id] else []) c₁ c') →
        Inside c c' ∧ ∀ result, r = .ok result →
          Grows [] (if result = .applied then [event.id] else []) c c' := by
    intro c₁ grown r c' left
    exact ⟨grown.inside.trans left.1, fun result done => by simpa using grown.trans (left.2 result done)⟩
  cases effect with
  | credit effect =>
    refine lone_minor_bind foreign (piece_accountId _ trivial trivial)
      (fun e c₁ grown _ => ⟨grown.inside, by rintro _ ⟨⟩⟩) fun account c₁ grown => ?_
    exact Txn.lone_mono (after grown) (lone_moveBalance foreign _ _ _ _)
  | setBalance effect =>
    refine lone_minor_bind foreign (piece_accountId _ trivial trivial)
      (fun e c₁ grown _ => ⟨grown.inside, by rintro _ ⟨⟩⟩) fun account c₁ grown₁ => ?_
    refine lone_minor_bind foreign (minor_execute trivial)
      (fun e c₂ grown₂ _ => ⟨(grown₁.trans grown₂).inside, by rintro _ ⟨⟩⟩) fun current c₂ grown₂ => ?_
    have grown := grown₁.trans grown₂
    dsimp only
    split
    · refine ⟨grown.inside, ?_⟩
      rintro _ ⟨⟩
      exact grown
    · exact Txn.lone_mono (after grown) (lone_moveBalance foreign _ _ _ _)

theorem claims_dealt (outcome : AttemptOutcome) (result : EffectResult) :
    claims eventId ⟨some outcome, some result⟩ = if result = .applied then [eventId] else [] := by
  simp only [claims, outcomeOf_dealt]

theorem claims_failed {result : ProcessResult} (none : result.effect = none) : claims eventId result = [] :=
  if_neg (outcomeOf_failed none)

theorem tally_apply (foreign : strikes.foreign) (event : StoredEvent) (startedAt : Time) :
    svc.lone call strikes (svc.apply event startedAt) c fun r c' => Inside c c' ∧
      ∀ result, r = .ok result → Grows [] (claims event.id result) c c' := by
  unfold Service.apply
  refine lone_minor_bind foreign (minor_nextAttemptNumber _)
    (fun e c₁ grown _ => ⟨grown.inside, by rintro _ ⟨⟩⟩) fun number c₁ grown₁ => ?_
  refine lone_minor_bind foreign
    (piece_lockEntity _ _ _ _ (fun _ => trivial) (fun _ => trivial) fun _ => rfl)
    (fun e c₂ grown _ => ⟨(grown₁.trans grown).inside, by rintro _ ⟨⟩⟩) fun _ c₂ grown₂ => ?_
  have grown₂ := grown₁.trans grown₂
  refine lone_bind ?_
  show svc.lone call strikes (Prog.onValue _ (svc.registry.dispatch event)) c₂ _
  cases svc.registry.dispatch event with
  | error e => exact ⟨grown₂.inside, by rintro _ ⟨⟩⟩
  | ok effect =>
    refine lone_bind (Txn.lone_mono ?_ (lone_applyEffect foreign event effect))
    rintro (e | result) c₃ ⟨inside, grown₃⟩
    · exact ⟨grown₂.inside.trans inside, by rintro _ ⟨⟩⟩
    · have grown₃ := grown₂.trans (grown₃ result rfl)
      refine lone_minor_bind foreign (minor_execute trivial)
        (fun e c₄ grown _ => ⟨(grown₃.trans grown).inside, by rintro _ ⟨⟩⟩) fun finishedAt c₄ grown₄ => ?_
      have grown₄ := grown₃.trans grown₄
      refine lone_minor_bind foreign (minor_execute trivial)
        (fun e c₅ grown _ => ⟨(grown₄.trans grown).inside, by rintro _ ⟨⟩⟩) fun _ c₅ grown₅ => ?_
      have grown₅ := grown₄.trans grown₅
      refine lone_minor_bind foreign (minor_execute trivial)
        (fun e c₆ grown _ => ⟨(grown₅.trans grown).inside, by rintro _ ⟨⟩⟩) fun _ c₆ grown₆ => ?_
      refine ⟨(grown₅.trans grown₆).inside, ?_⟩
      rintro _ ⟨⟩
      rw [claims_dealt]
      simpa using grown₅.trans grown₆

/-- The transaction of the pass that deals with the event. -/
theorem tally_attempt (foreign : strikes.foreign) (fresh : c.writes = []) (startedAt : Time) :
    svc.lone call strikes (svc.attempt eventId startedAt) c fun r c' => c'.writes = [] ∧
      (∀ e, r = .error e → SameRows c.db c'.db) ∧
      ∀ result, r = .ok result → Adds [] (claims eventId result) c.db c'.db := by
  have whole : Moment.view c = c.db := by rw [Moment.view, fresh, Db.after_nil]
  refine Txn.lone_mono ?_ (lone_transaction (X := fun _ => True)
    (R := fun result db => Adds [] (claims eventId result) c.db db) (fun _ _ _ => trivial)
    (lone_execute (fun e c' inside _ => ⟨inside, fun _ _ => trivial, by rintro _ ⟨⟩⟩)
      fun input reply value ran told => ?_))
  · rintro r c' ⟨idle, errors, values⟩
    exact ⟨idle, fun e failed => (errors e failed).2, values⟩
  · have grown := grows_answer ran (adds_aside (exec_aside ran trivial).1 _)
    rw [told] at grown
    cases value with
    | none =>
      refine ⟨grown.inside, fun _ _ => trivial, ?_⟩
      rintro _ ⟨⟩
      exact whole ▸ grown.adds
    | some event =>
      have about : event.id = eventId := by
        simp only [Stmt.exec] at ran
        split at ran
        · cases ran
          cases told
        · rename_i row found
          split at ran
          · cases ran
            cases told
            exact event?_id found
          · cases ran
            cases told
      refine Txn.lone_mono ?_ (tally_apply foreign event startedAt)
      rintro r c' ⟨inside, grown'⟩
      refine ⟨grown.inside.trans inside, fun _ _ => trivial, fun result done => ?_⟩
      rw [← whole, ← about]
      exact (grown.trans (grown' result done)).adds

theorem tally_recordFailure (foreign : strikes.foreign) (fresh : c.writes = []) (exc : Exc) (startedAt : Time) :
    svc.lone call strikes (svc.recordFailure eventId exc startedAt) c fun r c' => c'.writes = [] ∧
      (∀ e, r = .error e → e.isEventNotFound = false ∧ SameRows c.db c'.db) ∧
      ∀ result, r = .ok result → Adds [] (claims eventId result) c.db c'.db := by
  have whole : Moment.view c = c.db := by rw [Moment.view, fresh, Db.after_nil]
  refine lone_transaction (X := fun e => e.isEventNotFound = false)
    (R := fun result db => Adds [] (claims eventId result) c.db db) foreign
    (lone_minor_bind foreign (minor_execute trivial)
      (fun e c' grown known => ⟨grown.inside, ?_, by rintro _ ⟨⟩⟩) fun event c₁ grown₁ => ?_)
  · rintro _ ⟨⟩
    exact known
  · cases event with
    | none =>
      refine ⟨grown₁.inside, by rintro _ ⟨⟩, ?_⟩
      rintro _ ⟨⟩
      exact whole ▸ grown₁.adds
    | some event =>
      refine Txn.lone_mono ?_ (Txn.lone_and
        (lone_minor foreign (minor_recordFailureOf svc eventId event exc startedAt)
        (Q := fun r c' => Grows [] [] c₁ c' ∧ ∀ e, r = .error e → e.isEventNotFound = false)
        fun r c' grown errors => ⟨grown, errors⟩) (lone_recordFailureOf eventId event exc startedAt))
      rintro r c' ⟨⟨grown₂, errors⟩, -, recorded⟩
      have grown := grown₁.trans grown₂
      refine ⟨grown.inside, errors, fun result done => ?_⟩
      rw [claims_failed (by rw [(recorded result done).1]), ← whole]
      exact grown.adds

/-- A look at the clock between transactions. -/
theorem lone_now {next : Time → Program β} {Q : Except Exc β → Moment → Prop} (foreign : strikes.foreign)
    (raised : ∀ e c', SameRows c.db c'.db → e.isEventNotFound = false → Q (.error e) c')
    (rest : ∀ now c', c'.writes = c.writes → SameRows c.db c'.db → svc.lone call strikes (next now) c' Q) :
    svc.lone call strikes (execute .now >>= next) c Q := by
  refine lone_execute (fun e c' inside why => raised e c' inside.db ?_) fun input reply now ran told => ?_
  · rcases why with striking | ⟨input, reply, ran, told⟩
    · exact foreign _ _ striking
    · cases ran
      cases told
  · cases ran
    cases told
    exact rest _ _ (List.append_nil _) (.refl _)

theorem tally_processEvent (foreign : strikes.foreign) (fresh : c.writes = []) :
    svc.lone call strikes (svc.processEvent eventId) c fun r c' =>
      (∀ e, r = .error e → e.isEventNotFound = false ∧ SameRows c.db c'.db) ∧
      ∀ result, r = .ok result → c'.writes = [] ∧ Adds [] (claims eventId result) c.db c'.db := by
  refine lone_now foreign (fun e c₁ same known => ⟨?_, by rintro _ ⟨⟩⟩) fun startedAt c₁ idle same₁ => ?_
  · rintro _ ⟨⟩
    exact ⟨known, same⟩
  · refine Txn.lone_andThen (Txn.lone_mono ?_ (tally_attempt foreign (idle.trans fresh) startedAt))
    rintro (exc | result) c₂ ⟨fresh₂, errors, values⟩
    · have same₂ := same₁.trans _ _ _ (errors exc rfl)
      rw [Prog.onError_error]
      split
      · refine Txn.lone_mono ?_ (tally_recordFailure foreign fresh₂ exc startedAt)
        rintro r c₃ ⟨fresh₃, errors, values⟩
        refine ⟨fun e failed => ⟨(errors e failed).1, same₂.trans _ _ _ (errors e failed).2⟩,
          fun result done => ?_⟩
        exact ⟨fresh₃, by simpa using (Adds.ofSame same₂).trans (values result done)⟩
      · rename_i caught
        refine ⟨?_, by rintro _ ⟨⟩⟩
        rintro _ ⟨⟩
        exact ⟨by simp [Exc.isEventNotFound, caught], same₂⟩
    · refine ⟨by rintro _ ⟨⟩, ?_⟩
      rintro _ ⟨⟩
      exact ⟨fresh₂, by simpa using (Adds.ofSame same₁).trans (values result rfl)⟩

/-! ### Its request -/

/-- `replay.py::replay_event`: the message when there is no such event. -/
def missingEvent (eventId : Nat) : String := "event " ++ toString eventId ++ " does not exist"

/-- The exception says that the event does not exist only if that is so. -/
def Misses (eventId : Nat) (db : Db) (e : Exc) : Prop :=
  e.isEventNotFound = true → e.message = missingEvent eventId ∧ db.event? eventId = none

theorem Misses.known {db : Db} {e : Exc} (known : e.isEventNotFound = false) : Misses eventId db e := by
  intro unknown
  rw [known] at unknown
  cases unknown

theorem tally_startReplay (foreign : strikes.foreign) (fresh : c.writes = []) (now : Time) :
    svc.lone call strikes (startReplay eventId now) c fun r c' => c'.writes = [] ∧
      (∀ e, r = .error e → Misses eventId c.db e ∧ SameRows c.db c'.db) ∧
      ∀ value, r = .ok value → Adds [] [] c.db c'.db := by
  have whole : Moment.view c = c.db := by rw [Moment.view, fresh, Db.after_nil]
  refine lone_transaction (X := Misses eventId c.db) (R := fun _ db => Adds [] [] c.db db)
    (fun trace e striking => .known (foreign trace e striking))
    (lone_execute (fun e c' inside why => ⟨inside, ?_, by rintro _ ⟨⟩⟩) fun input reply event ran told => ?_)
  · rintro _ ⟨⟩
    rcases why with striking | ⟨input, reply, ran, told⟩
    · exact .known (foreign _ _ striking)
    · exact .known ((exec_aside ran trivial).2 e told)
  · have grown₁ := grows_answer ran (adds_aside (exec_aside ran trivial).1 _)
    rw [told] at grown₁
    cases event with
    | none =>
      have absent : c.db.event? eventId = none := by
        rw [fresh, Db.after_nil] at ran
        simp only [Stmt.exec] at ran
        split at ran
        · assumption
        · cases ran
          cases told
      refine ⟨grown₁.inside, ?_, by rintro _ ⟨⟩⟩
      rintro _ ⟨⟩ -
      exact ⟨rfl, absent⟩
    | some event =>
      refine lone_minor_bind foreign (minor_execute trivial)
        (fun e c₂ grown₂ known => ⟨(grown₁.trans grown₂).inside, ?_, by rintro _ ⟨⟩⟩) fun _ c₂ grown₂ => ?_
      · rintro _ ⟨⟩
        exact .known known
      · have grown₂ := grown₁.trans grown₂
        refine lone_minor foreign (minor_markDlqReplaying eventId now) fun r c₃ grown₃ errors => ?_
        have grown₃ := grown₂.trans grown₃
        exact ⟨grown₃.inside, fun e failed => .known (errors e failed), fun _ _ => whole ▸ grown₃.adds⟩

theorem tally_finishReplay (foreign : strikes.foreign) (fresh : c.writes = []) (requestedBy : String)
    (reason : Option String) (now : Time) (outcome : ReplayOutcome) :
    svc.lone call strikes (finishReplay eventId requestedBy reason now outcome) c fun r c' => c'.writes = [] ∧
      (∀ e, r = .error e → e.isEventNotFound = false ∧ SameRows c.db c'.db) ∧
      ∀ value, r = .ok value → ∃ resulting, Adds
        [⟨eventId, requestedBy, now, reason, outcome, resulting⟩] [] c.db c'.db := by
  have whole : Moment.view c = c.db := by rw [Moment.view, fresh, Db.after_nil]
  refine lone_transaction (X := fun e => e.isEventNotFound = false) (R := fun _ db => ∃ resulting,
      Adds [⟨eventId, requestedBy, now, reason, outcome, resulting⟩] [] c.db db) foreign
    (lone_minor_bind foreign (minor_execute trivial)
      (fun e c₁ grown known => ⟨grown.inside, ?_, by rintro _ ⟨⟩⟩)
      fun resulting c₁ grown₁ => lone_execute
        (fun e c₂ inside why => ⟨grown₁.inside.trans inside, ?_, by rintro _ ⟨⟩⟩)
        fun input reply _ ran told => ?_)
  · rintro _ ⟨⟩
    exact known
  · rintro _ ⟨⟩
    rcases why with striking | ⟨input, reply, ran, told⟩
    · exact foreign _ _ striking
    · simp only [Stmt.exec, execInsertReplayRequest] at ran
      split at ran
      · exact (mild_refuse ran rfl).2 e told
      · split at ran
        · exact (mild_refuse ran rfl).2 e told
        · cases ran
          cases told
  · have recorded : Adds [⟨eventId, requestedBy, now, reason, outcome, resulting⟩] [] (Moment.view c₁)
        ((Moment.view c₁).after reply.writes) := by
      simp only [Stmt.exec, execInsertReplayRequest] at ran
      split at ran
      · cases ran
        cases told
      · split at ran
        · cases ran
          cases told
        · cases ran
          exact ⟨by simp [Write.apply], by simp [Write.apply]⟩
    have grown₂ := grown₁.trans (grows_answer ran recorded)
    rw [told] at grown₂
    refine lone_minor_bind foreign (minor_execute trivial)
      (fun e c₃ grown₃ known => ⟨(grown₂.trans grown₃).inside, ?_, by rintro _ ⟨⟩⟩)
        fun settledAt c₃ grown₃ => ?_
    · rintro _ ⟨⟩
      exact known
    · have grown₃ := grown₂.trans grown₃
      refine lone_minor foreign (minor_settleDlq eventId outcome settledAt) fun r c₄ grown₄ errors => ?_
      have grown₄ := grown₃.trans grown₄
      exact ⟨grown₄.inside, errors, fun _ _ => ⟨resulting, by simpa [whole] using grown₄.adds⟩⟩

/-- A replay that returns has been recorded as it is answered, and has made the ledger entry
that it claims. One that raises has not been recorded. -/
theorem tally_replayEvent (foreign : strikes.foreign) (fresh : c.writes = []) (requestedBy : String)
    (reason : Option String) :
    svc.lone call strikes (svc.replayEvent eventId requestedBy reason) c fun r c' =>
      (∀ result, r = .ok result → result.eventId = eventId ∧ Tallies requestedBy reason [result] c.db c'.db) ∧
      ∀ e, r = .error e → (Adds [] [] c.db c'.db ∨ Adds [] [eventId] c.db c'.db) ∧
        Misses eventId c.db e ∧ (e.isEventNotFound = true → Adds [] [] c.db c'.db) := by
  have spared : ∀ {e : Exc} {c' : Moment}, e.isEventNotFound = false →
      (Adds [] [] c.db c'.db ∨ Adds [] [eventId] c.db c'.db) →
      (Adds [] [] c.db c'.db ∨ Adds [] [eventId] c.db c'.db) ∧
        Misses eventId c.db e ∧ (e.isEventNotFound = true → Adds [] [] c.db c'.db) := by
    intro e c' known added
    refine ⟨added, .known known, fun unknown => ?_⟩
    rw [known] at unknown
    cases unknown
  refine lone_now foreign (fun e c₁ same known => ⟨by rintro _ ⟨⟩, ?_⟩) fun now c₁ idle same₁ => ?_
  · rintro _ ⟨⟩
    exact spared known (Or.inl (.ofSame same))
  refine lone_bind (Txn.lone_mono ?_ (tally_startReplay foreign (idle.trans fresh) now))
  rintro (e | _) c₂ ⟨fresh₂, errors, values⟩
  · obtain ⟨misses, same₂⟩ := errors e rfl
    have same := same₁.trans _ _ _ same₂
    refine ⟨by rintro _ ⟨⟩, ?_⟩
    rintro _ ⟨⟩
    refine ⟨Or.inl (.ofSame same), fun unknown => ?_, fun _ => .ofSame same⟩
    rw [← sameRows_event? same₁]
    exact misses unknown
  have started : Adds [] [] c.db c₂.db := (Adds.ofSame same₁).trans (values _ rfl)
  refine lone_bind (Txn.lone_mono ?_ (tally_processEvent foreign fresh₂))
  rintro (e | passed) c₃ ⟨errors, values⟩
  · obtain ⟨known, same₃⟩ := errors e rfl
    refine ⟨by rintro _ ⟨⟩, ?_⟩
    rintro _ ⟨⟩
    exact spared known (Or.inl (started.same same₃))
  obtain ⟨fresh₃, dealt⟩ := values passed rfl
  have dealt : Adds [] (claims eventId passed) c.db c₃.db := started.trans dealt
  refine lone_bind (Txn.lone_mono ?_
    (tally_finishReplay foreign fresh₃ requestedBy reason now (outcomeOf passed).1))
  rintro (e | _) c₄ ⟨-, errors, values⟩
  · obtain ⟨known, same₄⟩ := errors e rfl
    refine ⟨by rintro _ ⟨⟩, ?_⟩
    rintro _ ⟨⟩
    refine spared known ?_
    have left := dealt.same same₄
    unfold claims at left
    split at left
    · exact Or.inr left
    · exact Or.inl left
  · obtain ⟨resulting, recorded⟩ := values _ rfl
    refine ⟨?_, by rintro _ ⟨⟩⟩
    rintro _ ⟨⟩
    refine ⟨rfl, [⟨eventId, requestedBy, now, reason, (outcomeOf passed).1, resulting⟩],
      .cons ⟨rfl, rfl, rfl, rfl⟩ .nil, ?_⟩
    have left := dealt.trans recorded
    rw [List.nil_append, List.append_nil] at left
    have same : effects [⟨eventId, (outcomeOf passed).1, (outcomeOf passed).2⟩] = claims eventId passed := by
      unfold effects claims
      split <;> rename_i claimed <;> simp [claimed]
    rw [same]
    exact left

end Alone

/-! ## A batch of replays -/

section Batch

variable {svc : Service} {strikes : Strikes} {requestedBy : String} {reason : Option String} {db after : Db}
  {eventId : Nat} {ids : List Nat} {results : List ReplayResult} {w : World}

theorem solitary_tally (foreign : strikes.foreign)
    (alone : svc.Solitary (.replay eventId requestedBy reason) strikes db w) :
    (∀ result, replayResult w = some result → result.eventId = eventId ∧
      Tallies requestedBy reason [result] db w.db) ∧
      ∀ e, replayError w = some e → (Adds [] [] db w.db ∨ Adds [] [eventId] db w.db) ∧
        Misses eventId db e ∧ (e.isEventNotFound = true → Adds [] [] db w.db) := by
  have met : w.Alone svc.system 0 (.replay eventId requestedBy reason) strikes fun r c =>
      (∀ result, r = .ok (.replayed result) →
        result.eventId = eventId ∧ Tallies requestedBy reason [result] db c.db) ∧
      ∀ e, r = .error e → (Adds [] [] db c.db ∨ Adds [] [eventId] db c.db) ∧
        Misses eventId db e ∧ (e.isEventNotFound = true → Adds [] [] db c.db) := by
    refine Txn.lone_reach (lone_bind (Txn.lone_mono ?_
      (tally_replayEvent foreign (c := { db := db }) rfl requestedBy reason))) alone
    rintro (e | result) c ⟨values, errors⟩
    · refine ⟨by rintro _ ⟨⟩, ?_⟩
      rintro _ ⟨⟩
      exact errors e rfl
    · refine ⟨?_, by rintro _ ⟨⟩⟩
      rintro _ ⟨⟩
      exact values result rfl
  constructor
  · intro result returned
    simp only [replayResult, Option.bind_eq_some_iff] at returned
    obtain ⟨th, here, returned⟩ := returned
    split at returned
    · rename_i shape
      cases returned
      have ended := met.met th here
      rw [shape] at ended
      exact ended.1 _ rfl
    · cases returned
  · intro e raised
    simp only [replayError, Option.bind_eq_some_iff] at raised
    obtain ⟨th, here, raised⟩ := raised
    split at raised
    · rename_i shape
      cases raised
      have ended := met.met th here
      rw [shape] at ended
      exact ended.2 _ rfl
    · cases raised

/-- No event goes away. -/
theorem solitary_events (good : Wf db)
    (alone : svc.Solitary (.replay eventId requestedBy reason) strikes db w) :
    Wf w.db ∧ ∀ id, w.db.event? id = none → db.event? id = none := by
  obtain ⟨good', past⟩ := reaches_history good (solitary_reaches alone)
  refine ⟨good', past.keeps (P := fun later => ∀ id, later.event? id = none → db.event? id = none)
    (fun _ absent => absent) (fun _ kept => kept) (fun _ _ kept => kept) ?_⟩
  intro entry member good called committed kept id absent
  have call : entry.call = .replay eventId requestedBy reason := called
  cases found : entry.before.event? id with
  | none => exact kept id found
  | some event =>
    obtain ⟨event', there, -⟩ := committed.keeps_event (by rw [call]; rfl) found
    rw [there] at absent
    cases absent

theorem Tallies.cons {mid : Db} {result : ReplayResult} (first : Tallies requestedBy reason [result] db mid)
    (rest : Tallies requestedBy reason results mid after) :
    Tallies requestedBy reason (result :: results) db after := by
  obtain ⟨requests, recorded, added⟩ := first
  obtain ⟨more, recorded', added'⟩ := rest
  refine ⟨requests ++ more, List.rel_append recorded recorded', ?_⟩
  have whole := added.trans added'
  rwa [effects, effects, ← List.map_append, ← List.filter_append] at whole

theorem Service.Replaying.good {raised : Option Exc}
    (replaying : svc.Replaying requestedBy reason ids db results raised after)
    (good : Wf db) : Wf after := by
  induction replaying with
  | done => exact good
  | returned foreign alone returned rest ih => exact ih (solitary_events good alone).1
  | raised foreign alone raised => exact (solitary_events good alone).1

/-- A batch that is replayed to the end. -/
theorem Service.Replaying.tallies (replaying : svc.Replaying requestedBy reason ids db results none after) :
    results.map (·.eventId) = ids ∧ Tallies requestedBy reason results db after := by
  generalize ended : (none : Option Exc) = raised at replaying
  induction replaying with
  | done => exact ⟨rfl, [], .nil, .refl _⟩
  | returned foreign alone returned rest ih =>
    obtain ⟨named, tallied⟩ := (solitary_tally foreign alone).1 _ returned
    obtain ⟨names, others⟩ := ih ended
    refine ⟨?_, tallied.cons others⟩
    rw [List.map_cons, named, names]
  | raised => cases ended

/-- A batch that an exception ends at an event. -/
theorem Service.Replaying.stops {e : Exc} (good : Wf db)
    (replaying : svc.Replaying requestedBy reason ids db results (some e) after) :
    ∃ stopped rest mid, ids = results.map (·.eventId) ++ stopped :: rest ∧
      Tallies requestedBy reason results db mid ∧
      (Adds [] [] mid after ∨ Adds [] [stopped] mid after) ∧ Misses stopped db e ∧
      (e.isEventNotFound = true → Adds [] [] mid after) := by
  generalize ended : some e = raised at replaying
  induction replaying with
  | done => cases ended
  | @returned eventId ids db after w strikes result results raised foreign alone returned rest ih =>
    obtain ⟨named, tallied⟩ := (solitary_tally foreign alone).1 _ returned
    obtain ⟨good', kept⟩ := solitary_events good alone
    obtain ⟨stopped, rest, mid, names, others, left, misses, quiet⟩ := ih good' ended
    refine ⟨stopped, rest, mid, ?_, tallied.cons others, left, fun unknown => ?_, quiet⟩
    · rw [List.map_cons, named, names, List.cons_append]
    · exact ⟨(misses unknown).1, kept _ (misses unknown).2⟩
  | @raised eventId ids db w strikes e' foreign alone raised =>
    cases ended
    obtain ⟨left, misses, quiet⟩ := (solitary_tally foreign alone).2 _ raised
    exact ⟨eventId, ids, db, rfl, ⟨[], .nil, .refl _⟩, left, misses, quiet⟩

end Batch

/-! ## The route -/

/-- What the answer to a request accounts for. -/
def Accounts (limit : Nat) (body : ReplayIn) (db : Db) : ReplayAnswer → Db → Prop
  | .unauthorized, after | .unprocessable _, after | .badRequest _, after => after = db
  | .replayed requested results, after => Selects limit db body (results.map (·.eventId)) ∧
      requested = results.length ∧ Tallies "api-key" body.reason results db after ∧
        (db.ledger.map (·.eventId) ++ effects results).Nodup
  | .notFound detail, after => ∃ results missing rest,
      body.eventIds = some (results.map (·.eventId) ++ missing :: rest) ∧ db.event? missing = none ∧
        detail = missingEvent missing ∧ Tallies "api-key" body.reason results db after
  | .serverError, after => after = db ∨ ∃ results stopped rest mid,
      Selects limit db body (results.map (·.eventId) ++ stopped :: rest) ∧
        Tallies "api-key" body.reason results db mid ∧ (Adds [] [] mid after ∨ Adds [] [stopped] mid after)

theorem requireAdmin_operator {admin : AdminSettings} {key : Option String} {operator : String}
    (admitted : requireAdmin admin key = .ok (some operator)) : operator = "api-key" := by
  unfold requireAdmin at admitted
  split at admitted
  · cases admitted
  · rename_i key
    cases compared : Signature.compareDigest key admin.adminApiKey with
    | error e => simp [compared, bind, Except.bind] at admitted
    | ok same =>
      cases same with
      | true => simpa [compared, bind, Except.bind, pure, Except.pure, eq_comm] using admitted
      | false => simp [compared, bind, Except.bind, pure, Except.pure] at admitted

/-- What is not named in the body, is there. -/
theorem Selects.present {limit : Nat} {db : Db} {body : ReplayIn} {ids : List Nat} (good : Wf db)
    (selected : Selects limit db body ids) {id : Nat} (member : id ∈ ids) (absent : db.event? id = none) :
    body.eventIds = some ids := by
  cases selected with
  | named named few => exact named
  | deadLettered unnamed queue read =>
    obtain ⟨rows, perm, -, rfl⟩ := read
    obtain ⟨row, taken, rfl⟩ := List.mem_map.mp member
    have there := (List.mem_filter.mp (perm.subset (List.mem_of_mem_take taken))).1
    obtain ⟨event, known, named⟩ := good.entryEvent row there
    rw [← named, event?_of_mem good known] at absent
    cases absent
  | received unnamed other window read =>
    obtain ⟨rows, perm, -, rfl⟩ := read
    obtain ⟨row, taken, rfl⟩ := List.mem_map.mp member
    have there := (List.mem_filter.mp (perm.subset (List.mem_of_mem_take taken))).1
    rw [event?_of_mem good there] at absent
    cases absent

/-- What a replay request is answered accounts for the records and the ledger entries it has
left, whatever exceptions the driver raises on the way. -/
theorem replay_accounts (svc : Service) (admin : AdminSettings) {w : World}
    (reached : svc.Reaches .any (.init Db.empty) w) {key : Option String} {body : ReplayIn}
    {answer : ReplayAnswer}
    {after : Db} (answered : svc.AnswersReplay admin key body w.db answer after) :
    Accounts admin.replayMaxBatch body w.db answer after := by
  have good := (reaches_history wf_empty reached).1
  cases answered with
  | refused refused => rfl
  | broken raised => exact Or.inl rfl
  | invalid admitted invalid => rfl
  | tooMany admitted valid named many => rfl
  | unread admitted valid => exact Or.inl rfl
  | replayed admitted valid selected replaying =>
    obtain rfl := requireAdmin_operator admitted
    have once := (replaying.good good).ledgerEvents
    obtain ⟨rfl, requests, recorded, added⟩ := replaying.tallies
    rw [added.ledger] at once
    exact ⟨selected, List.length_map _, ⟨requests, recorded, added⟩, once⟩
  | @raised operator ids results e after admitted valid selected replaying =>
    obtain rfl := requireAdmin_operator admitted
    obtain ⟨stopped, rest, mid, rfl, tallied, left, misses, quiet⟩ := replaying.stops good
    unfold answerOf
    split
    · rename_i unknown
      obtain ⟨message, absent⟩ := misses unknown
      obtain ⟨requests, recorded, added⟩ := tallied
      refine ⟨results, stopped, rest, selected.present good ?_ absent, absent, message, requests, recorded, ?_⟩
      · exact List.mem_append_right _ List.mem_cons_self
      · simpa using added.trans (quiet unknown)
    · exact Or.inr ⟨results, stopped, rest, mid, selected, tallied, left⟩

private def undisturbed (db : Db) (eventId steps : Nat) : Option World :=
  Txn.runLonely Sample.service.system 0 (fun _ => false)
    (Txn.World.begin Sample.service.system db 0 (.replay eventId "api-key" none)) (Sample.steps 0 steps)

private theorem undisturbed_alone {db : Db} {eventId steps : Nat} {w : World}
    (ran : undisturbed db eventId steps = some w) :
    Sample.service.Solitary (.replay eventId "api-key" none) (fun _ _ => False) db w :=
  (Txn.reach_of_lonely ran).mono fun _ action lonely => by
    cases action with
    | fault t e => simp [Txn.Lonely] at lonely
    | _ => exact lonely

/-- The first event of the request is replayed, and the second one does not exist. -/
theorem replay_accounts_sample : ∃ w after, Sample.service.Reaches .any (.init Db.empty) w ∧
    Sample.service.AnswersReplay ⟨"key", 100⟩ (some "key") { eventIds := some [1, 7] } w.db
      (.notFound (missingEvent 7)) after ∧
    Accounts 100 { eventIds := some [1, 7] } w.db (.notFound (missingEvent 7)) after := by
  have passed : ((Sample.service.runFrom (.init Db.empty)
      (Sample.store 0 (Sample.credit "c" 100 1))).any fun w =>
      (undisturbed w.db 1 22).any fun w₁ => (replayResult w₁).isSome &&
        (undisturbed w₁.db 7 3).any fun w₂ =>
          decide (replayError w₂ = some (eventNotFoundError (missingEvent 7)))) = true := by
    decide +kernel
  obtain ⟨w, ran, shown⟩ := (Option.any_eq_true _ _).mp passed
  obtain ⟨w₁, ran₁, shown₁⟩ := (Option.any_eq_true _ _).mp shown
  obtain ⟨returned, shown₂⟩ := Bool.and_eq_true_iff.mp shown₁
  obtain ⟨w₂, ran₂, raised⟩ := (Option.any_eq_true _ _).mp shown₂
  obtain ⟨result, returned⟩ := Option.isSome_iff_exists.mp returned
  have reached : Sample.service.Reaches .any (.init Db.empty) w :=
    Service.reaches_runFrom (fun action _ => Scope.any_permits action) ran
  have foreign : Strikes.foreign fun _ _ => False := fun _ _ struck => struck.elim
  have answered : Sample.service.AnswersReplay ⟨"key", 100⟩ (some "key") { eventIds := some [1, 7] } w.db
      (.notFound (missingEvent 7)) w₂.db :=
    .raised (by rfl) (by rfl) (.named rfl (by decide))
      (.returned foreign (undisturbed_alone ran₁) returned
        (.raised foreign (undisturbed_alone ran₂) (of_decide_eq_true raised)))
  exact ⟨w, w₂.db, reached, answered, replay_accounts Sample.service ⟨"key", 100⟩ reached answered⟩

end WebhookReceiver
