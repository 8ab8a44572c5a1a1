import WebhookReceiver.Txn.Lone
import WebhookReceiver.Propagation
import WebhookReceiver.Undisturbed
import WebhookReceiver.Versions

/-!
A pass with the store to itself, and exceptions.

`Undisturbed` follows a pass that succeeds. Here exceptions may strike at any statement
and at the commit, and the process may die. What the transactions write is known from
`Runs`; what the lemmas here add is which of the two transactions of `process_event`
committed, and that it told its caller so (`solitary_fate`).
-/

namespace WebhookReceiver

open Txn (Prog)

/-! ## Stores with the same rows -/

/-- The stores differ in their sequences only. -/
def SameRows (db db' : Db) : Prop := ∃ seq, db' = db.reseq seq

theorem SameRows.refl (db : Db) : SameRows db db := ⟨db.seq, rfl⟩

theorem SameRows.trans (a b c : Db) (first : SameRows a b) (second : SameRows b c) : SameRows a c := by
  obtain ⟨seq, rfl⟩ := first
  obtain ⟨seq', rfl⟩ := second
  exact ⟨seq', rfl⟩

theorem SameRows.after {db db' : Db} (same : SameRows db db') (writes : List Write) :
    SameRows (db.after writes) (db'.after writes) := by
  obtain ⟨seq, rfl⟩ := same
  exact after_reseq writes db seq

theorem insertUnder_shape {ρ : Type} {avail : Lock → Txn.Mode → Bool} {key : Lock} {table : Table}
    {taken : Bool} {conflict : Except Exc ρ} {unmet : Option Exc} {inserted : ρ} {write : Write}
    {locks : List (Lock × Txn.Mode)} {reply : Txn.Reply Write Lock Exc ρ}
    (ran : insertUnder avail key table taken conflict unmet inserted write locks = some reply) :
    reply.instant = [.draw table] ∧ ∀ other ∈ reply.writes, other = write := by
  rcases insertUnder_some ran with ⟨-, rfl⟩ | ⟨-, e, -, rfl⟩ | ⟨-, -, rfl⟩ <;> simp

/-- At once a statement does nothing but draw identity values, and only an insert of an
attempt records one. -/
theorem exec_shape {s : Stmt} {avail : Lock → Txn.Mode → Bool} {input : Input} {view : Db}
    {reply : Txn.Reply Write Lock Exc s.Answer} (ran : s.exec avail input view = some reply) :
    (reply.instant = [] ∨ ∃ table, reply.instant = [.draw table]) ∧
      ∀ row, .insertAttempt row ∈ reply.writes → ∃ attempt, s = .insertAttempt attempt ∧
        row.toAttempt = attempt := by
  have quiet : ∀ {ρ} {answer : Except Exc ρ} {writes : List Write} {locks : List (Lock × Txn.Mode)}
      {reply : Txn.Reply Write Lock Exc ρ}, (∀ row, .insertAttempt row ∉ writes) →
      some { answer := answer, writes := writes, locks := locks } = some reply →
      (reply.instant = [] ∨ ∃ table, reply.instant = [.draw table]) ∧
        ∀ row, .insertAttempt row ∈ reply.writes → ∃ attempt, s = .insertAttempt attempt ∧
          row.toAttempt = attempt := by
    rintro _ _ _ _ _ none ⟨⟩
    exact ⟨Or.inl rfl, fun row member => absurd member (none row)⟩
  have under : ∀ {ρ} {key : Lock} {table : Table} {taken : Bool} {conflict : Except Exc ρ}
      {unmet : Option Exc} {inserted : ρ} {write : Write} {locks : List (Lock × Txn.Mode)}
      {reply : Txn.Reply Write Lock Exc ρ}, (∀ row, .insertAttempt row ≠ write) →
      insertUnder avail key table taken conflict unmet inserted write locks = some reply →
      (reply.instant = [] ∨ ∃ table, reply.instant = [.draw table]) ∧
        ∀ row, .insertAttempt row ∈ reply.writes → ∃ attempt, s = .insertAttempt attempt ∧
          row.toAttempt = attempt := by
    intro _ _ _ _ _ _ _ _ _ _ other ran
    obtain ⟨instant, writes⟩ := insertUnder_shape ran
    exact ⟨Or.inr ⟨_, instant⟩, fun row member => absurd (writes _ member) (other row)⟩
  cases s with
  | insertAttempt attempt =>
    obtain ⟨instant, writes⟩ := insertUnder_shape ran
    refine ⟨Or.inr ⟨_, instant⟩, fun row member => ⟨attempt, rfl, ?_⟩⟩
    obtain rfl := Write.insertAttempt.inj (writes _ member)
    rfl
  | insertDeadLetterEntry eventId made reason => exact under (by simp) ran
  | insertAccount externalRef =>
    simp only [Stmt.exec, execInsertAccount] at ran
    exact under (by simp) ran
  | insertLedgerEntry accountId eventId amountMinor =>
    simp only [Stmt.exec, execInsertLedgerEntry] at ran
    split at ran
    · exact quiet (by simp) ran
    · exact under (by simp) ran
  | insertEvent event =>
    simp only [Stmt.exec, execInsertEvent] at ran
    split at ran
    · exact quiet (by simp) ran
    · exact under (by simp) ran
  | insertReplayRequest request =>
    simp only [Stmt.exec, execInsertReplayRequest] at ran
    split at ran
    · exact quiet (by simp) ran
    · split at ran <;> exact quiet (by simp) ran
  | updateAccount accountId given values =>
    simp only [Stmt.exec, execUpdateAccount] at ran
    split at ran
    · exact quiet (by simp) ran
    · split at ran
      · exact quiet (by simp) ran
      · split at ran
        · exact quiet (by simp) ran
        · split at ran <;> exact quiet (by simp) ran
  | updateEntry entryId values =>
    simp only [Stmt.exec, execUpdateEntry] at ran
    split at ran
    · exact quiet (by simp) ran
    · split at ran <;> exact quiet (by simp) ran
  | purgeEvent eventId cutoff =>
    simp only [Stmt.exec, execPurgeEvent] at ran
    split at ran
    · exact quiet (by simp) ran
    · split at ran <;> exact quiet (by simp) ran
  | claim eventId now =>
    simp only [Stmt.exec] at ran
    split at ran
    · exact quiet (by simp) ran
    · split at ran <;> exact quiet (by simp) ran
  | loadForUpdate eventId | updateEvent eventId values | entryStatusForUpdate eventId
  | accountIdOf externalRef | balanceAndVersion accountId | eventIdOf source key =>
    simp only [Stmt.exec] at ran
    split at ran <;> exact quiet (by simp) ran
  | _ => exact quiet (by simp) ran

/-- The attempt that an insert leaves pending has the next id of the sequence. -/
theorem exec_insertAttempt {attempt : Attempt} {avail : Lock → Txn.Mode → Bool} {input : Input}
    {view : Db} {reply : Txn.Reply Write Lock Exc Unit}
    (ran : (Stmt.insertAttempt attempt).exec avail input view = some reply) (inserted : reply.answer = .ok ()) :
    reply.writes = [.insertAttempt { attempt with id := view.seq .attempt }] := by
  rcases insertUnder_some ran with ⟨-, rfl⟩ | ⟨-, e, -, rfl⟩ | ⟨-, -, rfl⟩
  · cases inserted
  · cases inserted
  · rfl

theorem exec_sameRows {s : Stmt} {avail : Lock → Txn.Mode → Bool} {input : Input} {view : Db}
    {reply : Txn.Reply Write Lock Exc s.Answer} (ran : s.exec avail input view = some reply) (db : Db) :
    SameRows db (db.after reply.instant) := by
  rcases (exec_shape ran).1 with none | ⟨table, one⟩
  · rw [none]
    exact .refl db
  · rw [one]
    exact ⟨db.drawn table, rfl⟩

/-! ## Rules -/

/-- Where a call stands that has the store to itself. -/
abbrev Moment := Txn.Lone Db Write Call Stmt Stmt.Answer Exc

/-- Where exceptions may strike, by what the call has seen. -/
abbrev Strikes := Trace → Exc → Prop

/-- The condition of a piece of a call that has the store to itself. -/
def Service.lone {α : Type} (svc : Service) (call : Call) (strikes : Strikes) (program : Program α)
    (c : Moment) (Q : Except Exc α → Moment → Prop) : Prop :=
  svc.system.lone 0 call strikes program c Q

/-- The later moment, in the same transaction. -/
abbrev Inside (c c' : Moment) : Prop := Txn.Lone.Inside SameRows c c'

/-- A transaction at its end. -/
def Moment.commit (call : Call) (c : Moment) : Moment where
  db := c.db.after c.writes
  trace := c.trace ++ [.committed c.writes]
  log := c.log ++ [⟨0, call, c.trace, c.db, c.writes⟩]

def Moment.rollback (c : Moment) : Moment :=
  { c with writes := [], trace := c.trace ++ [.rolledBack] }

section Rules

variable {svc : Service} {call : Call} {strikes : Strikes} {c c' : Moment} {α β : Type}

theorem Inside.refl (c : Moment) : Inside c c :=
  ⟨.refl _, List.prefix_refl _, ⟨[], by simp, by simp⟩, rfl⟩

theorem Inside.trans {c₁ c₂ c₃ : Moment} (first : Inside c₁ c₂) (second : Inside c₂ c₃) : Inside c₁ c₃ :=
  Txn.Lone.Inside.trans SameRows.trans first second

theorem lone_bind {first : Program α} {next : α → Program β} {Q : Except Exc β → Moment → Prop}
    (met : svc.lone call strikes first c fun r c' => svc.lone call strikes (Prog.onValue next r) c' Q) :
    svc.lone call strikes (first >>= next) c Q :=
  Txn.lone_andThen met

/-- A piece of a transaction that is worth no closer look. -/
theorem lone_piece {piece : Program α} (inner : piece.Inner) {Q : Except Exc α → Moment → Prop}
    (ends : ∀ r c', Inside c c' → Q r c') : svc.lone call strikes piece c Q := by
  refine Txn.lone_inner SameRows.trans SameRows.refl ?_ inner ends
  intro input view s reply ran
  exact exec_sameRows (show s.exec (fun _ _ => true) input view = some reply from ran)

/-- Such a piece and what follows it. -/
theorem lone_after {piece : Program α} {next : α → Program β} {Q : Except Exc β → Moment → Prop}
    (inner : piece.Inner) (raised : ∀ e c', Inside c c' → Q (.error e) c')
    (rest : ∀ value c', Inside c c' → svc.lone call strikes (next value) c' Q) :
    svc.lone call strikes (piece >>= next) c Q := by
  refine lone_bind (lone_piece inner fun r c' inside => ?_)
  cases r with
  | ok value => exact rest value c' inside
  | error e => exact raised e c' inside

/-- What the thread sees of a statement that answers. -/
theorem inside_answer {s : Stmt} {input : Input} {reply : Txn.Reply Write Lock Exc s.Answer}
    (ran : s.exec (fun _ _ => true) input (c.db.after c.writes) = some reply) :
    Inside c { c with
      db := c.db.after reply.instant
      writes := c.writes ++ reply.writes
      trace := c.trace ++ [.stmt s reply.answer] } :=
  ⟨exec_sameRows ran c.db, List.prefix_append _ _, ⟨_, rfl, by simp⟩, rfl⟩

/-- A statement whose answer matters. -/
theorem lone_execute {s : Stmt} {next : s.Answer → Program β} {Q : Except Exc β → Moment → Prop}
    (raised : ∀ e c', Inside c c' → strikes c.trace e ∨ (∃ input reply,
      s.exec (fun _ _ => true) input (c.db.after c.writes) = some reply ∧ reply.answer = .error e) →
      Q (.error e) c')
    (answered : ∀ input reply value, s.exec (fun _ _ => true) input (c.db.after c.writes) = some reply →
      reply.answer = .ok value → svc.lone call strikes (next value) { c with
        db := c.db.after reply.instant
        writes := c.writes ++ reply.writes
        trace := c.trace ++ [.stmt s (.ok value)] } Q) :
    svc.lone call strikes (execute s >>= next) c Q := by
  constructor
  · intro input reply ran
    have inside := inside_answer (show s.exec (fun _ _ => true) input (c.db.after c.writes) = some
      reply from ran)
    cases told : reply.answer with
    | ok value => exact answered input reply value ran told
    | error e => exact raised e _ (told ▸ inside) (Or.inr ⟨input, reply, ran, told⟩)
  · intro e struck
    exact raised e _ ⟨.refl _, List.prefix_refl _, ⟨_, rfl, by simp⟩, rfl⟩ (Or.inl struck)

/-- A transaction. It commits what its body wrote, or comes to nothing. -/
theorem lone_sessionScope {body : Program α} {Q : Except Exc α → Moment → Prop}
    (met : svc.lone call strikes body c fun r c' =>
      (∀ e, r = .error e ∨ strikes c'.trace e → Q (.error e) (Moment.rollback c')) ∧
      ∀ value, r = .ok value → Q (.ok value) (Moment.commit call c')) :
    svc.lone call strikes (sessionScope body) c Q := by
  refine Txn.lone_andThen (Txn.lone_mono ?_ met)
  rintro r c' ⟨failed, succeeded⟩
  cases r with
  | ok value => exact ⟨succeeded value rfl, fun e struck => failed e (Or.inr struck)⟩
  | error e =>
    rintro (e' | u) struck
    · exact failed e' (Or.inr (struck e' rfl))
    · exact failed e (Or.inl rfl)

end Rules

/-! ## Pieces of a pass -/

section Pieces

/-- The transaction records an attempt with this outcome. -/
def Records (writes : List Write) (outcome : AttemptOutcome) : Prop :=
  ∃ attempt, .insertAttempt attempt ∈ writes ∧ attempt.outcome = outcome

theorem Records.mono {writes more : List Write} {outcome : AttemptOutcome} (kept : writes <+: more)
    (records : Records writes outcome) : Records more outcome := by
  obtain ⟨attempt, member, same⟩ := records
  exact ⟨attempt, kept.subset member, same⟩

/-- `services/process.py`: what `_record_failure` makes of an exception. -/
def failureOutcome (exc : Exc) : AttemptOutcome :=
  if isRetryable exc then .retryableError else .nonRetryableError

variable {svc : Service} {call : Call} {strikes : Strikes} {c : Moment} {α : Type}

theorem lone_recordAttempt {eventId number : Nat} {startedAt finishedAt : Time}
    {outcome : AttemptOutcome} {errorClass errorDetail : Option String} {next : Unit → Program α}
    {Q : Except Exc α → Moment → Prop} (raised : ∀ e c', Inside c c' → Q (.error e) c')
    (rest : ∀ c', Inside c c' → Records c'.writes outcome → svc.lone call strikes (next ()) c' Q) :
    svc.lone call strikes
      (Queue.recordAttempt eventId number startedAt finishedAt outcome errorClass errorDetail >>= next)
      c Q := by
  refine lone_execute (fun e c' inside _ => raised e c' inside) fun input reply _ ran told => ?_
  have wrote := exec_insertAttempt ran told
  exact rest _ (told ▸ inside_answer ran)
    ⟨_, List.mem_append_right _ (wrote ▸ List.mem_singleton_self _), rfl⟩

theorem lone_apply (event : StoredEvent) (startedAt : Time) :
    svc.lone call strikes (svc.apply event startedAt) c fun r c' => Inside c c' ∧
      ∀ result, r = .ok result → ∃ effect, result = ⟨some (successOutcome effect), some effect⟩ ∧
        Records c'.writes (successOutcome effect) := by
  have raised : ∀ {c' c'' : Moment} {e : Exc}, Inside c c' → Inside c' c'' →
      Inside c c'' ∧ ∀ result, (.error e : Except Exc ProcessResult) = .ok result →
        ∃ effect, result = ⟨some (successOutcome effect), some effect⟩ ∧
          Records c''.writes (successOutcome effect) :=
    fun first second => ⟨first.trans second, by rintro result ⟨⟩⟩
  unfold Service.apply
  refine lone_after (throws_nextAttemptNumber _).inner (fun e _ inside => raised (.refl c) inside)
    fun number c₁ inside₁ => ?_
  refine lone_after (throws_lockEntity _ _ _ _).inner (fun e _ inside => raised inside₁ inside)
    fun _ c₂ inside₂ => ?_
  refine lone_after (show (Prog.ofExcept _ : Program Effect).Inner from trivial)
    (fun e _ inside => raised (inside₁.trans inside₂) inside)
    fun effect c₃ inside₃ => ?_
  have so₃ := (inside₁.trans inside₂).trans inside₃
  refine lone_after (throws_applyEffect _ _).inner (fun e _ inside => raised so₃ inside)
    fun result c₄ inside₄ => ?_
  refine lone_after (throws_execute _).inner (fun e _ inside => raised (so₃.trans inside₄) inside)
    fun finishedAt c₅ inside₅ => ?_
  have so₅ := (so₃.trans inside₄).trans inside₅
  refine lone_recordAttempt (fun e _ inside => raised so₅ inside) fun c₆ inside₆ records => ?_
  refine lone_after (throws_execute _).inner (fun e _ inside => raised (so₅.trans inside₆) inside)
    fun _ c₇ inside₇ => ?_
  refine ⟨(so₅.trans inside₆).trans inside₇, ?_⟩
  rintro _ ⟨⟩
  exact ⟨result, rfl, records.mono inside₇.writes⟩

theorem lone_recordFailureOf (eventId : Nat) (event : StoredEvent) (exc : Exc) (startedAt : Time) :
    svc.lone call strikes (svc.recordFailureOf eventId event exc startedAt) c fun r c' => Inside c c' ∧
      ∀ result, r = .ok result → result = ⟨some (failureOutcome exc), none⟩ ∧
        Records c'.writes (failureOutcome exc) := by
  have raised : ∀ {c' c'' : Moment} {e : Exc}, Inside c c' → Inside c' c'' →
      Inside c c'' ∧ ∀ result, (.error e : Except Exc ProcessResult) = .ok result →
        result = ⟨some (failureOutcome exc), none⟩ ∧ Records c''.writes (failureOutcome exc) :=
    fun first second => ⟨first.trans second, by rintro result ⟨⟩⟩
  unfold Service.recordFailureOf
  refine lone_after (throws_nextAttemptNumber _).inner (fun e _ inside => raised (.refl c) inside)
    fun number c₁ inside₁ => ?_
  refine lone_after (throws_execute _).inner (fun e _ inside => raised inside₁ inside)
    fun finishedAt c₂ inside₂ => ?_
  have so₂ := inside₁.trans inside₂
  refine lone_recordAttempt (fun e _ inside => raised so₂ inside) fun c₃ inside₃ records => ?_
  have so₃ := so₂.trans inside₃
  by_cases again : isRetryable exc = true ∧ ¬ svc.settings.maxAttempts ≤ event.attemptCount + 1
  · simp only [if_pos again]
    refine lone_after (throws_nextAttemptAt svc _ _).inner (fun e _ inside => raised so₃ inside)
      fun due c₄ inside₄ => ?_
    refine lone_after (throws_execute _).inner (fun e _ inside => raised (so₃.trans inside₄) inside)
      fun _ c₅ inside₅ => ?_
    refine ⟨(so₃.trans inside₄).trans inside₅, ?_⟩
    rintro _ ⟨⟩
    exact ⟨rfl, records.mono (inside₄.trans inside₅).writes⟩
  · simp only [if_neg again]
    refine lone_after (throws_deadLetter _ _ _).inner (fun e _ inside => raised so₃ inside)
      fun _ c₄ inside₄ => ?_
    refine ⟨so₃.trans inside₄, ?_⟩
    rintro _ ⟨⟩
    exact ⟨rfl, records.mono inside₄.writes⟩

end Pieces

/-! ## A pass -/

/-- The event is there to be claimed. -/
def Due (db : Db) (eventId : Nat) (now : Time) : Prop :=
  ∃ event, db.event? eventId = some event ∧ event.status = .pending ∧ event.nextAttemptAt ≤ now

/-- Exceptions may strike a pass before it has claimed the event. -/
def Strikes.early (strikes : Strikes) (eventId : Nat) : Prop :=
  ∃ seen e, strikes seen e ∧ ∀ now event, .stmt (.claim eventId now) (.ok (some event)) ∉ seen

/-- How a pass over an event that exists ends: what it returns, by what it has seen
when its last transaction commits, and what that writes. -/
inductive Ended (strikes : Strikes) (eventId : Nat) (db : Db) (now : Time) :
    ProcessResult → Trace → List Write → Prop where
  | unclaimed {trace : Trace} (idle : ¬ Due db eventId now) (smooth : .rolledBack ∉ trace) :
      Ended strikes eventId db now notClaimed trace []
  | dealt {effect : EffectResult} {trace : Trace} {writes : List Write} (due : Due db eventId now)
      (smooth : .rolledBack ∉ trace) (records : Records writes (successOutcome effect)) :
      Ended strikes eventId db now ⟨some (successOutcome effect), some effect⟩ trace writes
  | failed {exc : Exc} {trace : Trace} {writes : List Write}
      (due : Due db eventId now ∨ strikes.early eventId) (rolled : .rolledBack ∈ trace)
      (records : Records writes (failureOutcome exc)) :
      Ended strikes eventId db now ⟨some (failureOutcome exc), none⟩ trace writes

/-- A pass that has returned, having committed one transaction. -/
structure Returned (strikes : Strikes) (eventId : Nat) (db : Db) (result : ProcessResult) (c : Moment)
    (entry : Commit) : Prop where
  log : c.log = [entry]
  before : SameRows db entry.before
  after : c.db = entry.before.after entry.writes
  trace : c.trace = entry.trace ++ [.committed entry.writes]
  ended : ∃ now, Trace.clock entry.trace = some now ∧
    Ended strikes eventId db now result entry.trace entry.writes

section Pass

variable {svc : Service} {call : Call} {strikes : Strikes} {eventId : Nat} {db : Db}

theorem sameRows_event? {db' : Db} (same : SameRows db db') (id : Nat) : db'.event? id = db.event? id := by
  obtain ⟨seq, rfl⟩ := same
  rfl

/-- The processing transaction has come to nothing. -/
structure Abandoned (strikes : Strikes) (eventId : Nat) (db : Db) (now : Time) (c : Moment) : Prop where
  same : SameRows db c.db
  fresh : c.writes = []
  clear : c.log = []
  clock : Trace.clock c.trace = some now
  rolled : .rolledBack ∈ c.trace
  due : Due db eventId now ∨ strikes.early eventId

theorem abandoned {now : Time} {c c' : Moment} (same : SameRows db c.db) (clear : c.log = [])
    (clock : Trace.clock c.trace = some now) (inside : Inside c c')
    (due : Due db eventId now ∨ strikes.early eventId) :
    Abandoned strikes eventId db now (Moment.rollback c') where
  same := same.trans _ _ _ inside.db
  fresh := rfl
  clear := inside.log.trans clear
  clock := by
    obtain ⟨seen, grown, -⟩ := inside.trace
    exact Trace.clock_mono ⟨seen ++ [.rolledBack], by simp [Moment.rollback, grown]⟩ clock
  rolled := by simp [Moment.rollback]
  due := due

/-- The failure transaction, once the first one has come to nothing. -/
theorem lone_recordFailure {event : EventRow} (found : db.event? eventId = some event) {exc : Exc}
    {now : Time} {c : Moment} (start : Abandoned strikes eventId db now c) :
    svc.lone call strikes (svc.recordFailure eventId exc now) c fun r c' =>
      ∀ result, r = .ok result → ∃ entry, Returned strikes eventId db result c' entry := by
  refine lone_sessionScope (lone_execute (fun e c' inside _ => ?_) fun input reply value ran told => ?_)
  · exact ⟨fun _ _ result done => by (cases done), fun result done => by cases done⟩
  · -- the row is still there
    have view : (c.db.after c.writes).event? eventId = some event := by
      rw [start.fresh, Db.after_nil, sameRows_event? start.same, found]
    simp only [Stmt.exec, view] at ran
    cases ran
    cases told
    refine Txn.lone_mono ?_ (lone_recordFailureOf eventId event.toDomain exc now)
    rintro r c' ⟨inside, recorded⟩
    refine ⟨fun e _ result done => by (cases done), fun value done result returned => ?_⟩
    cases returned
    obtain ⟨rfl, records⟩ := recorded value done
    have clear : c'.log = [] := inside.log.trans start.clear
    obtain ⟨seen, grown, -⟩ := inside.trace
    refine ⟨⟨0, call, c'.trace, c'.db, c'.writes⟩, ?_, ?_, rfl, rfl, now, ?_, .failed start.due ?_ records⟩
    · simp [Moment.commit, clear]
    · exact start.same.trans _ _ _ inside.db
    · exact Trace.clock_mono ⟨_, by rw [grown, List.append_assoc]⟩ start.clock
    · rw [grown]
      exact List.mem_append_left _ (List.mem_append_left _ start.rolled)

/-- The processing transaction. When it comes to nothing the event was due, unless the
exception came before the claim. -/
theorem lone_attempt {now : Time} :
    svc.lone call strikes (svc.attempt eventId now) { db := db, trace := [.stmt .now (.ok now)] }
      fun r c' => (∀ result, r = .ok result → ∃ entry, Returned strikes eventId db result c' entry) ∧
        ∀ e, r = .error e → Abandoned strikes eventId db now c' := by
  have clock : Trace.clock [.stmt .now (.ok now)] = some now := rfl
  refine lone_sessionScope (lone_execute (fun e c' inside why => ?_) fun input reply value ran told => ?_)
  · have early : strikes.early eventId := by
      rcases why with struck | ⟨input, reply, ran, told⟩
      · exact ⟨_, e, struck, by simp⟩
      · -- the claim itself refuses nothing
        simp only [Stmt.exec] at ran
        split at ran
        · cases ran
          cases told
        · split at ran <;>
          · cases ran
            cases told
    refine ⟨fun e' _ => ⟨fun result done => by (cases done), fun e'' _ => ?_⟩, fun value done => by cases done⟩
    exact abandoned (.refl db) rfl clock inside (Or.inr early)
  · have claims : reply = { answer := .ok value, locks := reply.locks } ∧
        (value = none → ¬ Due db eventId now) ∧ (value ≠ none → Due db eventId now) := by
      simp only [Stmt.exec, Db.after_nil] at ran
      split at ran
      · rename_i missing
        cases ran
        cases told
        refine ⟨rfl, fun _ due => ?_, fun some => absurd rfl some⟩
        obtain ⟨event, found, -⟩ := due
        rw [missing] at found
        cases found
      · rename_i event found
        split at ran
        · rename_i free
          cases ran
          cases told
          exact ⟨rfl, fun none => (by cases none), fun _ => ⟨event, found, free.1, free.2.1⟩⟩
        · rename_i taken
          cases ran
          cases told
          refine ⟨rfl, fun _ due => ?_, fun some => absurd rfl some⟩
          obtain ⟨event', found', pending, due⟩ := due
          rw [found, Option.some.injEq] at found'
          subst found'
          exact taken ⟨pending, due, trivial⟩
    obtain ⟨same, idle, due⟩ := claims
    rw [same]
    cases value with
    | none =>
      have early : ∀ e, strikes [.stmt .now (.ok now), .stmt (.claim eventId now) (.ok none)] e →
          strikes.early eventId := fun e struck => ⟨_, e, struck, by simp⟩
      refine ⟨fun e failed => ⟨fun result done => by (cases done), fun e' _ => ?_⟩, ?_⟩
      · have struck := failed.resolve_left (by rintro ⟨⟩)
        exact abandoned (.refl db) rfl rfl (Inside.refl _) (Or.inr (early e struck))
      · rintro _ ⟨⟩
        refine ⟨?_, fun e done => by cases done⟩
        rintro _ ⟨⟩
        exact ⟨_, rfl, .refl db, rfl, rfl, now, rfl, .unclaimed (idle rfl) (by simp)⟩
    | some event =>
      have due := due (by simp)
      refine Txn.lone_mono ?_ (lone_apply event now)
      rintro r c' ⟨inside, recorded⟩
      obtain ⟨seen, grown, stmts⟩ := inside.trace
      refine ⟨fun e _ => ⟨fun result done => by (cases done), fun e' _ => ?_⟩, ?_⟩
      · exact abandoned (.refl db) rfl (Trace.clock_mono (List.prefix_append [_] [_]) clock) inside (Or.inl due)
      · intro value done
        refine ⟨?_, fun e done => by cases done⟩
        rintro _ ⟨⟩
        obtain ⟨effect, rfl, records⟩ := recorded value done
        have clear : c'.log = [] := inside.log
        refine ⟨⟨0, call, c'.trace, c'.db, c'.writes⟩, ?_, inside.db, rfl, rfl, now, ?_, .dealt due ?_ records⟩
        · simp [Moment.commit, clear]
        · exact Trace.clock_mono ⟨_, grown.symm⟩ (Trace.clock_mono (List.prefix_append [_] [_]) clock)
        · rw [grown]
          intro rolled
          rcases List.mem_append.mp rolled with first | later
          · simp at first
          · obtain ⟨s, answer, same⟩ := stmts _ later
            cases same

/-- A pass over an event that exists. -/
theorem lone_processEvent {event : EventRow} (found : db.event? eventId = some event) :
    svc.lone call strikes (svc.processEvent eventId) { db := db } fun r c =>
      ∀ result, r = .ok result → ∃ entry, Returned strikes eventId db result c entry := by
  refine lone_execute (fun e c' _ _ result done => by cases done) fun input reply now ran told => ?_
  cases ran
  cases told
  refine Txn.lone_andThen (Txn.lone_mono ?_ lone_attempt)
  rintro r c ⟨succeeded, failed⟩
  cases r with
  | ok result => exact succeeded
  | error exc =>
    rw [Prog.onError_error]
    split
    · exact lone_recordFailure found (failed exc rfl)
    · exact fun result done => by cases done

end Pass

/-! ## Runs of one call -/

/-- Only this call, and any exceptions. -/
def Scope.only (call : Call) : Scope := ⟨fun other => other = call, fun _ => True⟩

/-- A moment in the run of a call that has the store to itself, and no commit of which takes
effect while it is reported failed. -/
def Service.Solitary (svc : Service) (call : Call) (strikes : Strikes) (db : Db) (w : World) : Prop :=
  Txn.Reach svc.system (Txn.Lonely 0 strikes) (Txn.World.begin svc.system db 0 call) w

section Runs

variable {svc : Service} {call : Call} {strikes : Strikes} {eventId : Nat} {db : Db} {w : World}

/-- What the pass has returned. -/
def passResult (w : World) : Option ProcessResult :=
  (w.threads 0).bind fun th =>
    match th.prog with
    | .done (.ok (.processed result)) => some result
    | _ => none

theorem passResult_some {result : ProcessResult} (returned : passResult w = some result) :
    ∃ th, w.threads 0 = some th ∧ th.prog = .done (.ok (.processed result)) := by
  simp only [passResult, Option.bind_eq_some_iff] at returned
  obtain ⟨th, here, returned⟩ := returned
  refine ⟨th, here, ?_⟩
  split at returned
  · rename_i shape
    cases returned
    exact shape
  · cases returned

/-- A schedule that runs to a world which passes a test. -/
theorem solitary_test (svc : Service) (call : Call) (db : Db) (mayStrike : Trace → Bool)
    (schedule : List Action) (test : World → Bool)
    (passed : (Txn.runLonely svc.system 0 mayStrike (Txn.World.begin svc.system db 0 call) schedule).any
      test = true) :
    ∃ w, svc.Solitary call (fun trace _ => mayStrike trace = true) db w ∧ test w = true := by
  simp only [Option.any_eq_true] at passed
  obtain ⟨w, ran, shown⟩ := passed
  exact ⟨w, Txn.reach_of_lonely ran, shown⟩

theorem solitary_reaches (solitary : svc.Solitary call strikes db w) :
    svc.Reaches (.only call) (.init db) w := by
  have begun : svc.Reaches (.only call) (.init db) (Txn.World.begin svc.system db 0 call) :=
    Txn.Reach.start.next (show (Scope.only call).permits (.spawn 0 call) from rfl) rfl
  refine begun.trans (solitary.mono fun _ action lonely => ?_)
  cases action with
  | spawn t call => exact lonely.elim
  | _ => exact trivial

/-- A store on which no transaction has committed keeps its rows. -/
theorem Service.History.sameRows {scope : Scope} (spared : ¬ scope.purging) {last : Db} {log : List Commit}
    (past : svc.History scope db last log) (none : log = []) : SameRows db last := by
  let Same (log : List Commit) (last : Db) : Prop := log = [] → SameRows db last
  refine past.along (P := Same) (fun _ => .refl db) ?_ ?_ ?_ none
  · exact fun table same none => (same none).trans _ _ _ ⟨_, rfl⟩
  · exact fun ids purging => absurd purging spared
  · intro log entry _ _ _ _ _ none
    simp at none

theorem only_not_purging (eventId : Nat) : ¬ (Scope.only (.process eventId)).purging := by
  rintro ⟨olderThan, called⟩
  cases called

theorem solitary_quiet (good : Wf db) (solitary : svc.Solitary (.process eventId) strikes db w)
    (none : w.log = []) : SameRows db w.db :=
  (reaches_history good (solitary_reaches solitary)).2.sameRows (only_not_purging eventId) none

theorem solitary_alone {event : EventRow} (found : db.event? eventId = some event)
    (solitary : svc.Solitary (.process eventId) strikes db w) :
    w.Alone svc.system 0 (.process eventId) strikes fun r c => ∀ result, r = .ok (.processed result) →
      ∃ entry, Returned strikes eventId db result c entry := by
  refine Txn.lone_reach (lone_bind (Txn.lone_mono ?_ (lone_processEvent found))) solitary
  intro r c ended
  cases r with
  | ok result =>
    rintro _ ⟨⟩
    exact ended result rfl
  | error e => exact fun result done => by cases done

/-- A pass that has returned has committed one transaction, and nothing else. -/
theorem solitary_returned {event : EventRow} (found : db.event? eventId = some event)
    (solitary : svc.Solitary (.process eventId) strikes db w)
    {th : Txn.Thread Write Call Stmt Stmt.Answer Exc Outcome} (here : w.threads 0 = some th)
    {result : ProcessResult} (returned : th.prog = .done (.ok (.processed result))) :
    ∃ entry, Returned strikes eventId db result ⟨w.db, th.writes, th.trace, w.log⟩ entry := by
  have met := (solitary_alone found solitary).met th here
  rw [returned] at met
  exact met result rfl

/-- What that transaction is. -/
inductive Fate (svc : Service) (strikes : Strikes) (eventId : Nat) (db : Db) (now : Time) (entry : Commit) :
    ProcessResult → Prop where
  | unclaimed (idle : ¬ Due db eventId now) (smooth : .rolledBack ∉ entry.trace)
      (wrote : entry.writes = []) : Fate svc strikes eventId db now entry notClaimed
  | dealt {effect result : EffectResult} (due : Due db eventId now) (smooth : .rolledBack ∉ entry.trace)
      (done : Dealt svc eventId entry.before result entry.writes)
      (same : successOutcome result = successOutcome effect) :
      Fate svc strikes eventId db now entry ⟨some (successOutcome effect), some effect⟩
  | failed {exc : Exc} {attempt : AttemptRow} (due : Due db eventId now ∨ strikes.early eventId)
      (rolled : .rolledBack ∈ entry.trace) (done : Failed svc eventId entry.before entry.writes)
      (recorded : attemptsIn entry.writes = [attempt] ∧ attempt.outcome = failureOutcome exc) :
      Fate svc strikes eventId db now entry ⟨some (failureOutcome exc), none⟩

theorem dealtWith_failureOutcome (exc : Exc) : (failureOutcome exc).dealtWith = false := by
  unfold failureOutcome
  split <;> rfl

theorem Records.attempt {writes : List Write} {outcome : AttemptOutcome} {attempt : AttemptRow}
    (records : Records writes outcome) (only : attemptsIn writes = [attempt]) : attempt.outcome = outcome := by
  obtain ⟨other, member, same⟩ := records
  have listed : other ∈ attemptsIn writes := List.mem_filterMap.mpr ⟨_, member, rfl⟩
  rw [only, List.mem_singleton] at listed
  rw [← listed, same]

theorem Ended.fate {now : Time} {result : ProcessResult} {entry : Commit}
    (passed : PassTx svc eventId entry.before entry.writes)
    (ended : Ended strikes eventId db now result entry.trace entry.writes) :
    Fate svc strikes eventId db now entry result := by
  obtain ⟨tid, called, trace, before, writes⟩ := entry
  dsimp only at passed ended
  cases ended with
  | unclaimed idle smooth => exact .unclaimed idle smooth rfl
  | dealt due smooth records =>
    cases passed with
    | idle =>
      obtain ⟨attempt, member, -⟩ := records
      cases member
    | dealt done =>
      obtain ⟨attempt, only, -, outcome⟩ := done.outcome
      exact .dealt due smooth done (outcome.symm.trans (records.attempt only))
    | failed done =>
      obtain ⟨attempt, only, -, failed, -⟩ := done.attempt
      rw [records.attempt only, dealtWith_successOutcome] at failed
      cases failed
  | failed due rolled records =>
    cases passed with
    | idle =>
      obtain ⟨attempt, member, -⟩ := records
      cases member
    | dealt done =>
      obtain ⟨attempt, only, -, dealt, -⟩ := done.attempt
      rw [records.attempt only, dealtWith_failureOutcome] at dealt
      cases dealt
    | failed done =>
      obtain ⟨attempt, only, -⟩ := done.attempt
      exact .failed due rolled done ⟨only, records.attempt only⟩

/-- The transaction of a pass that has returned, by what it returned. -/
theorem solitary_fate {event : EventRow} (good : Wf db) (found : db.event? eventId = some event)
    (solitary : svc.Solitary (.process eventId) strikes db w)
    {th : Txn.Thread Write Call Stmt Stmt.Answer Exc Outcome} (here : w.threads 0 = some th)
    {result : ProcessResult} (returned : th.prog = .done (.ok (.processed result))) :
    ∃ entry now, Trace.clock entry.trace = some now ∧ w.log = [entry] ∧ SameRows db entry.before ∧
      w.db = entry.before.after entry.writes ∧ th.trace = entry.trace ++ [.committed entry.writes] ∧
      Fate svc strikes eventId db now entry result := by
  obtain ⟨entry, log, before, after, trace, now, clock, ended⟩ := solitary_returned found solitary here returned
  refine ⟨entry, now, clock, log, before, after, trace, ?_⟩
  obtain ⟨-, past⟩ := reaches_history good (solitary_reaches solitary)
  have log : w.log = [entry] := log
  obtain ⟨_, _, -, -, -, called, described, -⟩ := past.at (log ▸ List.mem_singleton_self entry)
  have passed : PassTx svc eventId entry.before entry.writes := by
    have described : Describes svc _ entry.call entry.trace entry.before entry.writes := described
    rw [show entry.call = .process eventId from called] at described
    exact described.1
  exact ended.fate passed

end Runs

end WebhookReceiver
