import Mathlib.Data.Finset.Card
import WebhookReceiver.DeadLetters
import WebhookReceiver.Entries
import WebhookReceiver.Escapes
import WebhookReceiver.Solitude
import WebhookReceiver.Txn.Phases

/-!
The record that a replay leaves.

A replay requeues its event in one transaction and records itself in another, and its
pass lies between. `Audit.phases` says in which order they come: nothing is recorded
that was not requeued, and no replay returns before it has recorded. So what is
requeued and not recorded is exactly what the replays in progress owe (`Accounted.step`),
as long as none of them is cut off in between. `cutsOff` says which steps do that, by what
is there before them, and `paths_program` that a replay which meets none of them ends with
its record.
-/

namespace WebhookReceiver

open Txn (Prog)

/-! ## What a replay owes -/

def Write.records? : Write → Option Nat
  | .insertReplay request => some request.eventId
  | _ => none

/-- The events of which a transaction records a replay. -/
def recordsIn (writes : List Write) : List Nat := writes.filterMap Write.records?

/-- The call replays the event. -/
def Call.replays : Call → Nat → Bool
  | .replay id _ _, eventId => id = eventId
  | _, _ => false

/-- The call has committed writes of a kind. -/
def Trace.hasCommitted (kind : List Write → Bool) (trace : Trace) : Bool :=
  trace.any fun
    | .committed writes => kind writes
    | _ => false

def Trace.requeued (id : Nat) : Trace → Bool := Trace.hasCommitted fun writes => id ∈ requeuesIn writes

def Trace.recorded (id : Nat) : Trace → Bool := Trace.hasCommitted fun writes => id ∈ recordsIn writes

/-- How far a replay of the event is. -/
def Stands (id : Nat) (requeued recorded : Bool) (trace : Trace) : Prop :=
  Trace.requeued id trace = requeued ∧ Trace.recorded id trace = recorded

/-- A replay of the event has requeued it and not recorded that. -/
def Owes (id : Nat) (th : Thread) : Prop := th.call.replays id = true ∧ Stands id true false th.trace

instance (id : Nat) (requeued recorded : Bool) (trace : Trace) :
    Decidable (Stands id requeued recorded trace) := inferInstanceAs (Decidable (_ ∧ _))

instance (id : Nat) (th : Thread) : Decidable (Owes id th) := inferInstanceAs (Decidable (_ ∧ _))

section Traces

variable {kind : List Write → Bool} {trace : Trace}

@[simp] theorem hasCommitted_nil : Trace.hasCommitted kind [] = false := rfl

@[simp] theorem hasCommitted_append {more : Trace} :
    Trace.hasCommitted kind (trace ++ more) = (Trace.hasCommitted kind trace || Trace.hasCommitted kind more) :=
  List.any_append

@[simp] theorem hasCommitted_stmt {s : Stmt} {answer : Except Exc s.Answer} :
    Trace.hasCommitted kind [.stmt s answer] = false := rfl

@[simp] theorem hasCommitted_rolledBack : Trace.hasCommitted kind [.rolledBack] = false := rfl

@[simp] theorem hasCommitted_committed {writes : List Write} :
    Trace.hasCommitted kind [.committed writes] = kind writes := Bool.or_false _

end Traces

/-! ## The phases of a replay -/

/-- The write neither requeues an event nor records a replay. -/
def Write.routine (write : Write) : Prop := write.requeues? = none ∧ write.records? = none

/-- The statement never writes anything else. -/
def Stmt.routine : Stmt → Prop
  | .updateEvent _ values => ∀ queue, (values queue).attemptCount ≠ 0
  | .insertReplayRequest _ => False
  | _ => True

/-- What a statement can leave pending. -/
inductive Makes : Stmt → Write → Prop where
  | updateEvent {id : Nat} {values : EventQueue → EventQueue} {queue : EventQueue} :
      Makes (.updateEvent id values) (.updateEvent id (values queue))
  | insertAttempt {attempt : Attempt} {id : Nat} :
      Makes (.insertAttempt attempt) (.insertAttempt { attempt with id := id })
  | insertReplay {request : ReplayRequest} : Makes (.insertReplayRequest request) (.insertReplay request)
  | insertEntry {eventId attemptsMade : Nat} {reason : String} {row : EntryRow} :
      Makes (.insertDeadLetterEntry eventId attemptsMade reason) (.insertEntry row)
  | updateEntry {id : Nat} {values : EntryTriage → EntryTriage} {triage : EntryTriage} :
      Makes (.updateEntry id values) (.updateEntry id (values triage))
  | insertAccount {externalRef : String} {row : AccountRow} :
      Makes (.insertAccount externalRef) (.insertAccount row)
  | insertLedger {id accountId eventId : Nat} {amountMinor : Int} :
      Makes (.insertLedgerEntry accountId eventId amountMinor)
        (.insertLedger ⟨id, accountId, eventId, amountMinor⟩)
  | updateAccount {id : Nat} {given : Int} {values : AccountState → AccountState} {state : AccountState} :
      Makes (.updateAccount id given values) (.updateAccount id (values state))
  | insertEvent {event : IncomingEvent} {row : EventRow} : Makes (.insertEvent event) (.insertEvent row)
  | deleteAttempts {cutoff : Time} {ids : List Nat} : Makes (.purgeAttempts cutoff) (.deleteAttempts ids)
  | deleteEvent {id : Nat} {cutoff : Time} : Makes (.purgeEvent id cutoff) (.deleteEvent id)

/-- What is left pending comes from the statement, whatever the store is. -/
theorem came_makes {s : Stmt} {answer : Except Exc s.Answer} {more : List Write} (came : Came s answer more) :
    ∀ write ∈ more, Makes s write := by
  cases came with
  | struck e => simp
  | @ran avail input view reply ran =>
    have quiet : ∀ {ρ : Type} {answer : Except Exc ρ} {locks : List (Lock × Txn.Mode)}
        {reply : Txn.Reply Write Lock Exc ρ}, some { answer := answer, locks := locks } = some reply →
        ∀ write ∈ reply.writes, Makes s write := by
      rintro ρ answer locks _ ⟨⟩
      simp
    have one : ∀ {ρ : Type} {answer : Except Exc ρ} {write : Write} {locks : List (Lock × Txn.Mode)}
        {reply : Txn.Reply Write Lock Exc ρ}, Makes s write →
        some { answer := answer, writes := [write], locks := locks } = some reply →
        ∀ write ∈ reply.writes, Makes s write := by
      rintro ρ answer write locks _ kind ⟨⟩
      simpa using kind
    have under : ∀ {ρ : Type} {key : Lock} {table : Table} {taken : Bool} {conflict : Except Exc ρ}
        {unmet : Option Exc} {inserted : ρ} {write : Write} {locks : List (Lock × Txn.Mode)}
        {reply : Txn.Reply Write Lock Exc ρ}, Makes s write →
        insertUnder avail key table taken conflict unmet inserted write locks = some reply →
        ∀ write ∈ reply.writes, Makes s write := by
      intro ρ key table taken conflict unmet inserted write locks reply kind ran
      rcases insertUnder_some ran with ⟨-, rfl⟩ | ⟨-, e, -, rfl⟩ | ⟨-, -, rfl⟩
      · simp
      · simp
      · simpa using kind
    cases s with
    | updateEvent id values =>
      simp only [Stmt.exec] at ran
      split at ran
      · exact quiet ran
      · exact one .updateEvent ran
    | insertAttempt attempt => exact under .insertAttempt ran
    | insertDeadLetterEntry eventId made reason => exact under .insertEntry ran
    | insertAccount externalRef =>
      simp only [Stmt.exec, execInsertAccount] at ran
      exact under .insertAccount ran
    | insertReplayRequest request =>
      simp only [Stmt.exec, execInsertReplayRequest] at ran
      split at ran
      · exact quiet ran
      · split at ran
        · exact quiet ran
        · exact one .insertReplay ran
    | insertLedgerEntry accountId eventId amountMinor =>
      simp only [Stmt.exec, execInsertLedgerEntry] at ran
      split at ran
      · exact quiet ran
      · exact under .insertLedger ran
    | insertEvent event =>
      simp only [Stmt.exec, execInsertEvent] at ran
      split at ran
      · exact quiet ran
      · exact under .insertEvent ran
    | updateAccount id given values =>
      simp only [Stmt.exec, execUpdateAccount] at ran
      split at ran
      · exact quiet ran
      · split at ran
        · exact quiet ran
        · split at ran
          · exact quiet ran
          · split at ran
            · exact quiet ran
            · exact one .updateAccount ran
    | updateEntry id values =>
      simp only [Stmt.exec, execUpdateEntry] at ran
      split at ran
      · exact quiet ran
      · split at ran
        · exact quiet ran
        · exact one .updateEntry ran
    | purgeAttempts cutoff => exact one .deleteAttempts ran
    | purgeEvent id cutoff =>
      simp only [Stmt.exec, execPurgeEvent] at ran
      split at ran
      · exact quiet ran
      · split at ran
        · exact one .deleteEvent ran
        · exact quiet ran
    | claim id due =>
      simp only [Stmt.exec] at ran
      split at ran
      · exact quiet ran
      · split at ran <;> exact quiet ran
    | loadForUpdate id | eventIdOf source key | entryStatusForUpdate id | accountIdOf externalRef
    | balanceAndVersion id =>
      simp only [Stmt.exec] at ran
      split at ran <;> exact quiet ran
    | _ => exact quiet ran

theorem teaches_makes {s : Stmt} {a : s.Answer} {lesson : Lesson} (taught : Teaches s a lesson) :
    ∀ write ∈ lesson.writes, Makes s write := by
  have silent : ∀ {lesson : Lesson}, lesson.writes = [] → ∀ write ∈ lesson.writes, Makes s write := by
    intro lesson none write member
    simp [none] at member
  have one : ∀ {lesson : Lesson} {write : Write}, lesson.writes = [write] → Makes s write →
      ∀ write ∈ lesson.writes, Makes s write := by
    intro lesson write only kind other member
    rw [only, List.mem_singleton] at member
    exact member ▸ kind
  cases s with
  | updateEvent id values =>
    obtain ⟨row, rfl⟩ := taught
    exact one rfl .updateEvent
  | insertReplayRequest request =>
    obtain ⟨event, locks, rfl⟩ := taught
    exact one rfl .insertReplay
  | claim id due =>
    cases a with
    | none => exact silent (congrArg (·.writes) taught)
    | some event =>
      obtain ⟨row, -, -, -, -, rfl⟩ := taught
      exact silent rfl
  | loadForUpdate id =>
    cases a with
    | none => exact silent (congrArg (·.writes) taught)
    | some event =>
      obtain ⟨row, -, -, rfl⟩ := taught
      exact silent rfl
  | insertAttempt attempt =>
    obtain ⟨-, id, event, rfl⟩ := taught
    exact one rfl .insertAttempt
  | insertDeadLetterEntry eventId made reason =>
    rcases taught with ⟨id, at', event, rfl⟩ | ⟨id, rfl⟩
    · exact one rfl .insertEntry
    · exact silent rfl
  | entryForEvent eventId => cases a <;> exact silent (congrArg (·.writes) taught)
  | getEntry id => cases a <;> exact silent (congrArg (·.writes) taught)
  | entryStatusForUpdate id =>
    obtain ⟨row, -, rfl⟩ := taught
    exact silent rfl
  | updateEntry id values =>
    obtain ⟨row, -, rfl⟩ := taught
    exact one rfl .updateEntry
  | insertAccount externalRef =>
    cases a with
    | none =>
      obtain ⟨id, rfl⟩ := taught
      exact silent rfl
    | some id => exact one (congrArg (·.writes) taught) .insertAccount
  | balanceAndVersion id =>
    obtain ⟨row, -, -, rfl⟩ := taught
    exact silent rfl
  | insertLedgerEntry accountId eventId amountMinor =>
    cases a with
    | none => exact silent (congrArg (·.writes) taught.2)
    | some id =>
      obtain ⟨-, event, externalRef, rfl⟩ := taught
      exact one rfl .insertLedger
  | updateAccount id given values =>
    obtain ⟨row, -, -, -, rfl⟩ := taught
    exact one rfl .updateAccount
  | insertEvent event =>
    cases a with
    | none =>
      obtain ⟨-, id, rfl⟩ := taught
      exact silent rfl
    | some id =>
      obtain ⟨-, at', rfl⟩ := taught
      exact one rfl .insertEvent
  | purgeAttempts cutoff =>
    obtain ⟨ids, locks, rfl⟩ := taught
    exact one rfl .deleteAttempts
  | purgeEvent id cutoff =>
    cases a with
    | false => exact silent (congrArg (·.writes) taught)
    | true =>
      obtain ⟨row, ids, locks, -, -, -, rfl⟩ := taught
      exact one rfl .deleteEvent
  | uniform low high => exact silent (congrArg (·.writes) taught.1)
  | _ => exact silent (congrArg (·.writes) taught)

theorem Makes.routine {s : Stmt} {write : Write} (makes : Makes s write) (routine : s.routine) :
    write.routine := by
  cases makes with
  | @updateEvent id values queue => exact ⟨if_neg (routine queue), rfl⟩
  | insertReplay => exact routine.elim
  | _ => exact ⟨rfl, rfl⟩

theorem routine_writes {s : Stmt} {a : s.Answer} {lesson : Lesson} (routine : s.routine)
    (taught : Teaches s a lesson) : ∀ write ∈ lesson.writes, write.routine :=
  fun write member => (teaches_makes taught write member).routine routine

/-! ### A pass writes nothing else -/

theorem routine_of_onEntry {s : Stmt} (entry : s.onEntry) : s.routine := by
  cases s with
  | updateEvent id values => exact entry.elim
  | insertReplayRequest request => exact entry.elim
  | _ => exact trivial

theorem routine_of_ofFailure {outcome : AttemptOutcome} {s : Stmt} (failure : s.ofFailure outcome) :
    s.routine := by
  cases s with
  | updateEvent id values => exact failure
  | insertReplayRequest request => exact failure
  | _ => exact trivial

/-- The statements with which a pass takes its lock and finds its account. -/
def Stmt.prepares : Stmt → Prop
  | .setLockTimeout _ | .advisoryXactLock _ | .insertAccount _ | .accountIdOf _ => True
  | _ => False

theorem routine_of_prepares {s : Stmt} (prepares : s.prepares) : s.routine := by
  cases s with
  | updateEvent id values => exact prepares.elim
  | insertReplayRequest request => exact prepares.elim
  | _ => exact trivial

theorem only_lockEntity (key : String → String → Int) (entityType entityId : String) (timeout : Seconds) :
    (lockEntity key entityType entityId timeout).Only Stmt.prepares := by
  refine Prog.only_bind (Prog.only_perform trivial) fun _ => ?_
  refine Prog.only_andThen (Prog.only_perform trivial) fun result => ?_
  cases result with
  | ok done => exact trivial
  | error e =>
    rw [Prog.onError_error]
    split <;> exact trivial

theorem only_accountId (externalRef : String) : (Ledger.accountId externalRef).Only Stmt.prepares := by
  refine Prog.only_bind (Prog.only_perform trivial) fun inserted => ?_
  cases inserted with
  | none => exact Prog.only_perform trivial
  | some id => exact trivial

theorem routine_applyEffect (event : StoredEvent) (effect : Effect) :
    (Ledger.applyEffect event effect).Only Stmt.routine := by
  have posted : ∀ (account : Nat) (amount given : Int) (values : AccountState → AccountState),
    Prog.Only Stmt.routine
      (do if !(← Ledger.claimLedgerRow account event.id amount) then return .alreadyApplied
          execute (.updateAccount account given values)
          return EffectResult.applied : Program EffectResult) := by
    intro account amount given values
    refine Prog.only_bind (Prog.only_bind (Prog.only_perform trivial) fun _ => trivial) fun fresh => ?_
    cases fresh with
    | false => exact trivial
    | true => exact Prog.only_bind (Prog.only_perform trivial) fun _ => trivial
  cases effect with
  | credit effect =>
    exact Prog.only_bind ((only_accountId _).mono fun _ => routine_of_prepares) fun account => posted _ _ _ _
  | setBalance effect =>
    refine Prog.only_bind ((only_accountId _).mono fun _ => routine_of_prepares) fun account => ?_
    refine Prog.only_bind (Prog.only_perform trivial) fun current => ?_
    dsimp only
    split
    · exact trivial
    · exact posted _ _ _ _

variable (svc : Service)

theorem routine_apply (event : StoredEvent) (startedAt : Time) :
    (svc.apply event startedAt).Only Stmt.routine := by
  refine Prog.only_bind (Prog.only_bind (Prog.only_perform trivial) fun _ => trivial) fun number => ?_
  refine Prog.only_bind ((only_lockEntity _ _ _ _).mono fun _ => routine_of_prepares) fun _ => ?_
  refine Prog.only_bind trivial fun effect => ?_
  refine Prog.only_bind (routine_applyEffect _ _) fun result => ?_
  refine Prog.only_bind (Prog.only_perform trivial) fun finishedAt => ?_
  refine Prog.only_bind (Prog.only_perform trivial) fun _ => Prog.only_bind ?_ fun _ => trivial
  exact Prog.only_perform fun _ => Nat.succ_ne_zero _

/-- No statement of a pass requeues the event or records a replay. -/
theorem routine_processEvent (eventId : Nat) : (svc.processEvent eventId).Only Stmt.routine := by
  refine Prog.only_bind (Prog.only_perform trivial) fun startedAt => Prog.only_andThen ?_ fun result => ?_
  · refine only_sessionScope (Prog.only_bind (Prog.only_perform trivial) fun event => ?_)
    cases event with
    | none => exact trivial
    | some event => exact routine_apply svc _ _
  · cases result with
    | ok result => exact trivial
    | error e =>
      rw [Prog.onError_error]
      split
      · exact (only_recordFailure svc eventId rfl startedAt).mono fun _ => routine_of_ofFailure
      · exact trivial

/-! ### The order of the transactions -/

/-- A replay requeues before anything else and once, and it records itself after that and
once. -/
def Ordered (call : Call) (trace : Trace) (writes : List Write) : Prop :=
  ∀ id, call.replays id = true →
    (id ∈ requeuesIn writes → Stands id false false trace) ∧
    (id ∈ recordsIn writes → Stands id true false trace)

/-- A replay that returns has recorded itself. -/
def Rests (call : Call) (result : Except Exc Outcome) (trace : Trace) : Prop :=
  ∀ outcome, result = .ok outcome → ∀ id, call.replays id = true → Trace.recorded id trace = true

section Phases

variable {svc : Service} {scope : Scope} {eventId : Nat} {requestedBy : String} {reason : Option String}
  {trace : Trace} {writes : List Write} {requeued recorded : Bool} {α β : Type}

theorem Stands.stmt {s : Stmt} {answer : Except Exc s.Answer}
    (stands : Stands eventId requeued recorded trace) :
    Stands eventId requeued recorded (trace ++ [.stmt s answer]) := by
  simpa [Stands, Trace.requeued, Trace.recorded] using stands

theorem Stands.committed (writes : List Write) (stands : Stands eventId requeued recorded trace) :
    Stands eventId (requeued || decide (eventId ∈ requeuesIn writes))
      (recorded || decide (eventId ∈ recordsIn writes)) (trace ++ [.committed writes]) := by
  obtain ⟨rfl, rfl⟩ := stands
  simp [Stands, Trace.requeued, Trace.recorded]

theorem routine_silent (routine : ∀ write ∈ writes, write.routine) :
    requeuesIn writes = [] ∧ recordsIn writes = [] :=
  ⟨List.filterMap_eq_nil_iff.mpr fun write member => (routine write member).1,
    List.filterMap_eq_nil_iff.mpr fun write member => (routine write member).2⟩

/-- What the paths of a replay go through. -/
abbrev Service.along {α : Type} (svc : Service) (scope : Scope) (call : Call) (program : Program α)
    (writes : List Write) (trace : Trace) (P : α → List Write → Trace → Prop) : Prop :=
  (svc.discipline scope).along (Ordered call) program writes trace (Txn.Discipline.Gives P)

theorem along_sessionScope {call : Call} {body : Program α} {P Q : α → List Write → Trace → Prop}
    (met : svc.along scope call body writes trace P)
    (commits : ∀ value writes trace, P value writes trace →
      Ordered call trace writes ∧ Q value [] (trace ++ [.committed writes])) :
    svc.along scope call (sessionScope body) writes trace Q := by
  refine Txn.Discipline.along_andThen (Txn.Discipline.along_mono (fun r writes trace given => ?_) met)
  cases r with
  | error e =>
    intro told
    cases told <;> exact trivial
  | ok value =>
    obtain ⟨ordered, after⟩ := commits value writes trace given
    refine ⟨ordered, fun told => ?_, fun e => trivial⟩
    cases told with
    | ok done => exact after
    | error e => exact trivial

/-- A piece of a transaction that leaves the phase as it is. -/
theorem along_routine {call : Call} {body : Program α} (throws : body.Throws Retryable)
    (only : body.Only Stmt.routine) (stands : Stands eventId requeued recorded trace) :
    svc.along scope call body writes trace fun _ writes' trace =>
      (requeuesIn writes' = requeuesIn writes ∧ recordsIn writes' = recordsIn writes) ∧
        Stands eventId requeued recorded trace := by
  refine Txn.Discipline.along_mono ?_ (Txn.Discipline.along_piece (I := Stands eventId requeued recorded)
    throws only (fun s a lesson routine taught => routine_writes routine taught)
    (fun trace s answer => Stands.stmt) stands)
  rintro (e | value) writes' trace' ⟨⟨more, rfl, routine⟩, stands⟩
  · exact trivial
  · obtain ⟨none, none'⟩ := routine_silent routine
    refine ⟨?_, stands⟩
    simp only [requeuesIn, recordsIn, List.filterMap_append] at none none' ⊢
    simp [none, none']

theorem routine_markDlqReplaying (now : Time) : (markDlqReplaying eventId now).Only Stmt.routine := by
  refine Prog.only_bind (Prog.only_perform trivial) fun entry => ?_
  cases entry with
  | none => exact trivial
  | some entry =>
    dsimp only
    split
    · exact trivial
    · refine Prog.only_bind ?_ fun _ => trivial
      exact (only_transition _ _ _ _).mono fun _ => routine_of_onEntry

/-- The first transaction requeues the event. -/
theorem along_startReplay (now : Time) (stands : Stands eventId false false trace) :
    svc.along scope (.replay eventId requestedBy reason) (startReplay eventId now) [] trace
      fun _ writes trace => writes = [] ∧ Stands eventId true false trace := by
  refine along_sessionScope (P := fun _ writes trace =>
    (eventId ∈ requeuesIn writes ∧ recordsIn writes = []) ∧ Stands eventId false false trace) ?_ ?_
  · refine Txn.Discipline.along_bind (along_routine (throws_execute _) ⟨trivial, fun _ => trivial⟩ stands) ?_
    rintro (_ | event) writes trace ⟨⟨none, none'⟩, stands⟩
    · exact trivial
    · refine Txn.Discipline.along_bind (P := fun _ writes trace =>
        (eventId ∈ requeuesIn writes ∧ recordsIn writes = []) ∧ Stands eventId false false trace)
        (Txn.Discipline.along_perform ?_) ?_
      · rintro a lesson ⟨row, rfl⟩
        refine ⟨?_, stands.stmt⟩
        simp only [requeuesIn, recordsIn, List.filterMap_append, List.filterMap_nil] at none none' ⊢
        simp [none, none', Write.requeues?, Write.records?]
      · rintro _ writes trace ⟨⟨requeues, records⟩, stands⟩
        refine Txn.Discipline.along_mono ?_ (along_routine (throws_markDlqReplaying _ _)
          (routine_markDlqReplaying _) stands)
        rintro (e | value) writes' trace' given
        · exact trivial
        · obtain ⟨⟨same, same'⟩, stands⟩ := given
          exact ⟨⟨same ▸ requeues, same'.trans records⟩, stands⟩
  · rintro _ writes trace ⟨⟨requeues, records⟩, stands⟩
    constructor
    · intro id replays
      obtain rfl : eventId = id := of_decide_eq_true replays
      exact ⟨fun _ => stands, by simp [records]⟩
    · refine ⟨rfl, ?_⟩
      simpa [requeues, records] using stands.committed writes

/-- The pass leaves the replay where it is. -/
theorem along_processEvent (stands : Stands eventId true false trace) :
    svc.along scope (.replay eventId requestedBy reason) (svc.processEvent eventId) [] trace
      fun _ writes trace => (∀ write ∈ writes, write.routine) ∧ Stands eventId true false trace := by
  refine Txn.Discipline.along_mono (fun r writes trace given => ?_) (Txn.Discipline.along_only
    (I := Stands eventId true false) (routine_processEvent svc eventId)
    (fun s a lesson routine taught => routine_writes routine taught) ?_ ?_ (by simp) stands)
  · cases r with
    | ok result => exact given
    | error e => exact trivial
  · intro trace ev routine stands
    cases ev with
    | stmt s answer => exact stands.stmt
    | committed writes =>
      obtain ⟨none, none'⟩ := routine_silent (routine writes rfl)
      simpa [none, none'] using stands.committed writes
    | rolledBack => simpa [Stands, Trace.requeued, Trace.recorded] using stands
  · intro trace writes routine _ id _
    obtain ⟨none, none'⟩ := routine_silent routine
    simp [none, none']

/-- The last transaction records the replay. -/
theorem along_finishReplay (now : Time) (outcome : ReplayOutcome) (stands : Stands eventId true false trace)
    (routine : ∀ write ∈ writes, write.routine) :
    svc.along scope (.replay eventId requestedBy reason)
      (finishReplay eventId requestedBy reason now outcome) writes trace
      fun _ _ trace => Stands eventId true true trace := by
  obtain ⟨unqueued, unrecorded⟩ := routine_silent routine
  refine along_sessionScope (P := fun _ writes trace =>
    (requeuesIn writes = [] ∧ eventId ∈ recordsIn writes) ∧ Stands eventId true false trace) ?_ ?_
  · refine Txn.Discipline.along_bind (along_routine (throws_execute _) ⟨trivial, fun _ => trivial⟩ stands) ?_
    rintro resulting writes trace ⟨⟨none, none'⟩, stands⟩
    rw [unqueued] at none
    rw [unrecorded] at none'
    refine Txn.Discipline.along_bind (P := fun _ writes trace =>
      (requeuesIn writes = [] ∧ eventId ∈ recordsIn writes) ∧ Stands eventId true false trace)
      (Txn.Discipline.along_perform ?_) ?_
    · rintro a lesson ⟨event, locks, rfl⟩
      refine ⟨?_, stands.stmt⟩
      simp only [requeuesIn, recordsIn, List.filterMap_append] at none none' ⊢
      simp [none, none', Write.requeues?, Write.records?]
    · rintro _ writes trace ⟨⟨requeues, records⟩, stands⟩
      refine Txn.Discipline.along_mono ?_
        (along_routine (Prog.throws_bind (throws_execute .now) fun settledAt =>
        throws_settleDlq eventId outcome settledAt) (Prog.only_bind (Prog.only_perform trivial) fun settledAt =>
        (only_settleDlq _ _ _).mono fun _ => routine_of_onEntry) stands)
      rintro (e | value) writes' trace' given
      · exact trivial
      · obtain ⟨⟨same, same'⟩, stands⟩ := given
        exact ⟨⟨same.trans requeues, same' ▸ records⟩, stands⟩
  · rintro _ writes trace ⟨⟨requeues, records⟩, stands⟩
    constructor
    · intro id replays
      obtain rfl : eventId = id := of_decide_eq_true replays
      exact ⟨by simp [requeues], fun _ => stands⟩
    · simpa [requeues, records] using stands.committed writes

variable (svc scope) in
/-- Every replay keeps the order, and it records itself before it returns. -/
theorem along_program (call : Call) : (svc.discipline scope).along (Ordered call) (svc.program call) [] []
    fun result _ trace => Rests call result trace := by
  cases call with
  | replay eventId requestedBy reason =>
    have whole : svc.along scope (.replay eventId requestedBy reason)
        (svc.replayEvent eventId requestedBy reason) [] [] fun _ _ trace => Stands eventId true true trace := by
      refine Txn.Discipline.along_bind (P := fun _ writes trace =>
        writes = [] ∧ Stands eventId false false trace) (Txn.Discipline.along_perform ?_) ?_
      · rintro now lesson rfl
        exact ⟨rfl, Stands.stmt ⟨rfl, rfl⟩⟩
      · rintro now _ trace ⟨rfl, stands⟩
        refine Txn.Discipline.along_bind (along_startReplay now stands) ?_
        rintro _ _ trace ⟨rfl, stands⟩
        refine Txn.Discipline.along_bind (along_processEvent stands) ?_
        rintro result writes trace ⟨routine, stands⟩
        refine Txn.Discipline.along_bind (along_finishReplay _ _ stands routine) ?_
        exact fun _ writes trace stands => stands
    refine Txn.Discipline.along_andThen (Txn.Discipline.along_mono (fun r writes trace given => ?_) whole)
    cases r with
    | ok result =>
      intro outcome _ id replays
      obtain rfl : eventId = id := of_decide_eq_true replays
      exact given.2
    | error e =>
      intro outcome returned
      cases returned
  | _ =>
    refine Txn.Discipline.along_mono ?_ (Txn.Discipline.along_trivial ?_)
    · intro result writes trace _ outcome _ id replays
      cases replays
    · intro trace writes id replays
      cases replays

end Phases

/-! ## What cuts a replay off -/

/-- Where the last transaction of a replay moves the entry. -/
def ReplayOutcome.settles (outcome : ReplayOutcome) : DlqStatus :=
  if outcome = .failed then .needsReview else .resolved

/-- Somebody has moved the entry that a replay is about to settle, or it has gone. -/
def overtaken (writes : List Write) : Turn → Bool
  | .answer (.entryStatusForUpdate _) (.ok status) _ => writes.any fun
    | .insertReplay request => (ensureTransition status request.outcome.settles).toOption.isNone
    | _ => false
  | .answer (.getEntry _) (.ok none) _ => true
  | _ => false

/-- The turn cuts a replay of the event off between its requeue and its record. The processing
transaction, the second of the call, is where exceptions are caught; one that comes with the last
commit comes too late. -/
def cuts (id : Nat) (writes : List Write) (trace : Trace) : Turn → Bool
  | .commit told => told.toOption.isNone && (decide (id ∈ requeuesIn writes) ||
      decide (Stands id true false trace) && decide (id ∉ recordsIn writes) &&
        (raises? (.commit told)).any fun e => !(Trace.within 1 trace && e.isException))
  | turn => decide (Stands id true false trace) && (undated writes turn || overtaken writes turn ||
      (raises? turn).any fun e => !(Trace.within 1 trace && e.isException))

/-- The step cuts a replay of the event off. -/
def cutsOff (svc : Service) (id : Nat) (w : World) : Action → Bool
  | .kill t => (w.threads t).any fun th => Owes id th
  | action => (w.threads action.tid).any fun th => th.call.replays id &&
      (svc.system.turn? w th action).any (cuts id th.writes th.trace)

/-- The turns of a replay that is not cut off. -/
def Uncut (id : Nat) : Admission := fun writes trace turn => cuts id writes trace turn = false ∧
  ∀ s answer more, turn = .answer s answer more → Came s answer more

section Uncut

variable {svc : Service} {id : Nat} {writes : List Write} {trace : Trace} {turn : Turn} {α : Type}

theorem Uncut.statement (uncut : Uncut id writes trace turn) (owes : Stands id true false trace)
    (goesOn : ∀ told, turn ≠ .commit told) : undated writes turn = false ∧ overtaken writes turn = false ∧
      ∀ e, raises? turn = some e → Trace.within 1 trace = true ∧ e.isException = true := by
  have spared := uncut.1
  cases turn with
  | commit told => exact absurd rfl (goesOn told)
  | answer s answer more | abort e | rollback told =>
    simp only [cuts, owes, decide_true, Bool.true_and, Bool.or_eq_false_iff] at spared
    refine ⟨spared.1.1, spared.1.2, fun e raised => ?_⟩
    simpa [raised] using spared.2

theorem Uncut.commit {e : Exc} (uncut : Uncut id writes trace (.commit (.error e))) :
    id ∉ requeuesIn writes ∧ (Stands id true false trace → id ∉ recordsIn writes →
      Trace.within 1 trace = true ∧ e.isException = true) := by
  have spared := uncut.1
  simp only [cuts, Except.toOption, Option.isNone_none, Bool.true_and, Bool.or_eq_false_iff,
    decide_eq_false_iff_not] at spared
  refine ⟨spared.1, fun owes unrecorded => ?_⟩
  simpa [owes, unrecorded, raises?] using spared.2

/-! ### The pass -/

/-- As long as a replay owes its record and records nothing, its turns are harmless to its pass. -/
theorem harmless_uncut : Harmless (fun writes trace turn =>
    ((∀ write ∈ writes, write.routine) ∧ Stands id true false trace) ∧ Uncut id writes trace turn) 1
      fun _ => False where
  raises := by
    rintro writes trace turn e ⟨⟨routine, owes⟩, uncut⟩ raised
    cases turn with
    | commit told =>
      cases told with
      | ok done => cases raised
      | error e' =>
        cases raised
        exact Or.inl (uncut.commit.2 owes (by simp [(routine_silent routine).2]))
    | answer s answer more => exact Or.inl ((uncut.statement owes nofun).2.2 e raised)
    | abort e' => exact Or.inl ((uncut.statement owes nofun).2.2 e raised)
    | rollback told => exact Or.inl ((uncut.statement owes nofun).2.2 e raised)
  dated := by
    rintro writes trace turn ⟨⟨routine, owes⟩, uncut⟩
    cases turn with
    | commit told => rfl
    | answer s answer more => exact (uncut.statement owes nofun).1
    | abort e => rfl
    | rollback told => rfl
  came := fun admitted => admitted.2.2 _ _ _ rfl

theorem Stands.routine (owes : Stands id true false trace) (routine : ∀ write ∈ writes, write.routine) :
    Stands id true false (trace ++ [.committed writes]) := by
  obtain ⟨none, none'⟩ := routine_silent routine
  simpa [none, none'] using owes.committed writes

/-- The pass of a replay that is not cut off returns. -/
theorem paths_pass (shipped : svc.registry = Balance.registry) {eventId : Nat}
    (owes : Stands id true false trace)
    (count : Trace.ends trace = 1) (outside : Trace.within 1 trace = false) :
    (svc.processEvent eventId).paths (Uncut id) [] trace (Txn.Comes
      (fun _ writes trace => writes = [] ∧ 1 < Trace.ends trace ∧ Stands id true false trace)
        fun _ _ => False) := by
  refine Txn.paths_mono (fun r writes trace left => ?_) (Txn.paths_only
    (I := fun writes trace => (∀ write ∈ writes, write.routine) ∧ Stands id true false trace)
    (routine_processEvent svc eventId) ?_ ?_ ?_ ⟨by simp, owes⟩
    (paths_processEvent shipped harmless_uncut (fun _ none => none.elim) count outside))
  · obtain ⟨⟨-, owes⟩, came⟩ := left
    cases r with
    | ok result => exact ⟨came.1, came.2, owes⟩
    | error e => exact came
  · rintro writes trace s answer more ⟨pending, owes⟩ routine uncut
    refine ⟨fun write member => ?_, owes.stmt⟩
    rcases List.mem_append.mp member with old | new
    · exact pending write old
    · exact (came_makes (uncut.2 _ _ _ rfl) write new).routine routine
  · rintro writes trace ⟨pending, owes⟩
    exact ⟨by simp, owes.routine pending⟩
  · rintro writes trace ⟨-, owes⟩
    exact ⟨by simp, by simpa [Stands, Trace.requeued, Trace.recorded] using owes⟩

/-! ### The last transaction -/

/-- A replay that owes its record, after its processing transaction. -/
def Late (id : Nat) (trace : Trace) : Prop := Stands id true false trace ∧ 1 < Trace.ends trace

theorem Late.stmt {s : Stmt} {answer : Except Exc s.Answer} (late : Late id trace) :
    Late id (trace ++ [.stmt s answer]) := ⟨late.1.stmt, by simpa using late.2⟩

theorem Late.calm {e : Exc} (late : Late id trace) (uncut : Uncut id writes trace turn)
    (goesOn : ∀ told, turn ≠ .commit told) : raises? turn ≠ some e := by
  intro raised
  have within := ((uncut.statement late.1 goesOn).2.2 e raised).1
  rw [not_within_of_later late.2] at within
  cases within

/-- A statement of the last transaction, and what follows its answer. -/
theorem Late.next {s : Stmt} {next : s.Answer → Program α} {P : α → List Write → Trace → Prop}
    (late : Late id trace) (rest : ∀ a more, Uncut id writes trace (.answer s (.ok a) more) →
      (next a).paths (Uncut id) (writes ++ more) (trace ++ [.stmt s (.ok a)]) (Txn.Comes P fun _ _ => False)) :
    (execute s >>= next).paths (Uncut id) writes trace (Txn.Comes P fun _ _ => False) :=
  Txn.paths_next (fun _ _ uncut => late.calm uncut nofun rfl) rest

theorem paths_transition (late : Late id trace) {request : ReplayRequest}
    (waits : .insertReplay request ∈ writes)
    (entryId : Nat) (now : Time) (note : Option String) :
    (Dlq.transition entryId request.outcome.settles now note).paths (Uncut id) writes trace (Txn.Comes
      (fun _ writes trace => .insertReplay request ∈ writes ∧ Late id trace) fun _ _ => False) := by
  refine late.next fun status more uncut => ?_
  have legal := (uncut.statement late.1 (by rintro _ ⟨⟩)).2.1
  simp only [overtaken, List.any_eq_false] at legal
  cases ruled : ensureTransition status request.outcome.settles with
  | error e => exact absurd (legal _ waits) (by simp [ruled, Except.toOption])
  | ok done =>
    have still : .insertReplay request ∈ writes ++ more := List.mem_append_left _ waits
    refine late.stmt.next fun _ more _ => late.stmt.stmt.next fun entry more uncut => ?_
    cases entry with
    | none => exact absurd (uncut.statement late.stmt.stmt.1 (by rintro _ ⟨⟩)).2.1 (by simp [overtaken])
    | some entry => exact ⟨List.mem_append_left _ (List.mem_append_left _ still), late.stmt.stmt.stmt⟩

theorem paths_settleDlq (late : Late id trace) {request : ReplayRequest}
    (waits : .insertReplay request ∈ writes)
    (now : Time) : (settleDlq id request.outcome now).paths (Uncut id) writes trace (Txn.Comes
      (fun _ writes trace => .insertReplay request ∈ writes ∧ Late id trace) fun _ _ => False) := by
  refine late.next fun entry more _ => ?_
  have still : .insertReplay request ∈ writes ++ more := List.mem_append_left _ waits
  cases entry with
  | none => exact ⟨still, late.stmt⟩
  | some entry =>
    dsimp only
    split
    · exact ⟨still, late.stmt⟩
    · split
      · rename_i failed
        have target : request.outcome.settles = .needsReview := if_pos failed
        exact Txn.paths_bind (target ▸ paths_transition late.stmt still entry.id now _) fun _ _ _ left => left
      · rename_i done
        have target : request.outcome.settles = .resolved := if_neg done
        exact Txn.paths_bind (target ▸ paths_transition late.stmt still entry.id now _) fun _ _ _ left => left

/-- The last transaction of a replay that is not cut off commits its record. -/
theorem paths_finishReplay (late : Late id trace) (requestedBy : String) (reason : Option String) (now : Time)
    (outcome : ReplayOutcome) : (finishReplay id requestedBy reason now outcome).paths (Uncut id) writes trace
      (Txn.Comes (fun _ _ _ => True) fun _ trace => ¬ Stands id true false trace) := by
  have recorded : ∀ {writes : List Write} {trace : Trace} {request : ReplayRequest}, request.eventId = id →
      .insertReplay request ∈ writes → id ∈ recordsIn writes ∧
        ¬ Stands id true false (trace ++ [.committed writes]) := by
    intro writes trace request about waits
    have member : id ∈ recordsIn writes := List.mem_filterMap.mpr ⟨_, waits, congrArg some about⟩
    exact ⟨member, fun owes => by simpa [Trace.recorded, member] using owes.2⟩
  refine paths_sessionScope (E := fun _ _ => False) (P := fun _ writes trace =>
    (∃ request, request.eventId = id ∧ .insertReplay request ∈ writes) ∧ Late id trace) ?_ ?_ ?_ ?_ ?_ ?_
  · refine late.next fun resulting more _ => late.stmt.next fun _ more uncut => ?_
    have waits : .insertReplay ⟨id, requestedBy, now, reason, outcome, resulting⟩ ∈ more :=
      came_insertReplay (uncut.2 _ _ _ rfl)
    refine late.stmt.stmt.next fun settledAt more _ => ?_
    refine Txn.paths_mono (fun r writes trace left => ?_) (paths_settleDlq late.stmt.stmt.stmt
      (List.mem_append_left _ (List.mem_append_right _ waits)) settledAt)
    cases r with
    | ok done => exact ⟨⟨_, rfl, left.1⟩, left.2⟩
    | error e => exact left
  · exact fun _ _ _ _ => trivial
  · rintro _ writes trace e ⟨⟨request, about, waits⟩, -⟩ -
    exact (recorded about waits).2
  · rintro _ writes trace e ⟨-, late⟩ uncut
    exact (late.calm uncut nofun rfl).elim
  · exact fun _ _ none => none.elim
  · exact fun _ _ _ _ none _ => none.elim

/-! ### The whole call -/

/-- The statement requeues nothing. -/
def Stmt.spares : Stmt → Prop
  | .updateEvent _ values => ∀ queue, (values queue).attemptCount ≠ 0
  | _ => True

theorem spares_of_routine {s : Stmt} (routine : s.routine) : s.spares := by
  cases s with
  | updateEvent id values => exact routine
  | _ => exact trivial

theorem spares_finishReplay (eventId : Nat) (requestedBy : String) (reason : Option String) (now : Time)
    (outcome : ReplayOutcome) : (finishReplay eventId requestedBy reason now outcome).Only Stmt.spares := by
  refine only_sessionScope (Prog.only_bind (Prog.only_perform trivial) fun resulting => ?_)
  refine Prog.only_bind (Prog.only_perform trivial) fun _ =>
    Prog.only_bind (Prog.only_perform trivial) fun _ => ?_
  exact (only_settleDlq _ _ _).mono fun _ entry => spares_of_routine (routine_of_onEntry entry)

theorem requeuesIn_append (first rest : List Write) :
    requeuesIn (first ++ rest) = requeuesIn first ++ requeuesIn rest := List.filterMap_append

/-- A replay that has requeued nothing so far owes nothing in the end. -/
theorem paths_spares {program : Program α} (only : program.Only Stmt.spares) (pending : requeuesIn writes = [])
    (none : Trace.requeued id trace = false) :
    program.paths (Uncut id) writes trace fun _ _ trace => ¬ Stands id true false trace := by
  refine Txn.paths_mono (fun r writes trace left owes => ?_) (Txn.paths_only (Q := fun _ _ _ => True)
    (I := fun writes trace => requeuesIn writes = [] ∧ Trace.requeued id trace = false) only ?_ ?_ ?_
      ⟨pending, none⟩
    (Txn.paths_trivial fun _ _ _ => trivial))
  · rw [owes.1] at left
    cases left.1.2
  · rintro writes trace s answer more ⟨pending, none⟩ spares uncut
    refine ⟨?_, by simpa [Trace.requeued] using none⟩
    rw [requeuesIn_append, pending, List.nil_append]
    refine List.filterMap_eq_nil_iff.mpr fun write member => ?_
    cases came_makes (uncut.2 _ _ _ rfl) write member with
    | @updateEvent id values queue => exact if_neg (spares queue)
    | _ => rfl
  · rintro writes trace ⟨pending, none⟩
    exact ⟨rfl, by simpa [Trace.requeued, pending] using none⟩
  · rintro writes trace ⟨-, none⟩
    exact ⟨rfl, by simpa [Trace.requeued] using none⟩

/-- The statement records no replay. -/
def Stmt.unrecorded : Stmt → Prop
  | .insertReplayRequest _ => False
  | _ => True

theorem unrecorded_of_routine {s : Stmt} (routine : s.routine) : s.unrecorded := by
  cases s with
  | insertReplayRequest request => exact routine
  | _ => exact trivial

/-- The first transaction requeues the event, if it commits anything. -/
theorem paths_startReplay {trace : Trace} (begun : Stands id false false trace) (count : Trace.ends trace = 0)
    (pending : recordsIn writes = []) (now : Time) :
    (startReplay id now).paths (Uncut id) writes trace (Txn.Comes (fun _ writes trace => writes = [] ∧
      (Trace.requeued id trace = false ∨ Stands id true false trace ∧ Trace.ends trace = 1 ∧
        Trace.within 1 trace = false)) fun _ trace => ¬ Stands id true false trace) := by
  let I (writes : List Write) (trace : Trace) : Prop :=
    recordsIn writes = [] ∧ Stands id false false trace ∧ Trace.ends trace = 0
  have fresh : ∀ {trace : Trace}, Stands id false false trace →
      ¬ Stands id true false (trace ++ [Txn.Ev.rolledBack]) := by
    rintro trace ⟨none, -⟩ owes
    have same : Trace.requeued id (trace ++ [Txn.Ev.rolledBack]) = false := by simpa [Trace.requeued] using none
    cases same.symm.trans owes.1
  refine paths_sessionScope (P := fun _ => I) (E := fun _ trace => Stands id false false trace) ?_ ?_
    ?_ ?_ ?_ ?_
  · refine Txn.paths_mono (fun r writes trace left => ?_) (Txn.paths_piece (I := I)
      (Prog.piece_of_only ?_ ?_ : Prog.Piece Stmt.unrecorded _ _) ?_ ⟨pending, begun, count⟩)
    · cases r with
      | ok done => exact left.1
      | error e => exact left.1.2.1
    · refine (Prog.throws_bind (throws_execute _) fun event => ?_ : Prog.Throws Retryable _).inner
      cases event with
      | none => exact trivial
      | some event => exact Prog.throws_bind (throws_execute _) fun _ => throws_markDlqReplaying _ _
    · refine Prog.only_bind (Prog.only_perform trivial) fun event => ?_
      cases event with
      | none => exact trivial
      | some event =>
        exact Prog.only_bind (Prog.only_perform trivial) fun _ =>
          (routine_markDlqReplaying now).mono fun _ => unrecorded_of_routine
    · rintro writes trace s answer more ⟨pending, begun, count⟩ unrecorded uncut
      refine ⟨⟨?_, begun.stmt, by simpa using count⟩, fun _ _ => trivial⟩
      rw [recordsIn, List.filterMap_append, ← recordsIn, pending, List.nil_append]
      refine List.filterMap_eq_nil_iff.mpr fun write member => ?_
      cases came_makes (uncut.2 _ _ _ rfl) write member with
      | insertReplay => exact unrecorded.elim
      | _ => rfl
  · rintro _ writes trace ⟨pending, begun, count⟩
    have after := begun.committed writes
    simp only [pending, List.not_mem_nil, decide_false, Bool.or_false, Bool.false_or] at after
    refine ⟨rfl, ?_⟩
    by_cases requeues : id ∈ requeuesIn writes
    · exact Or.inr ⟨by simpa [requeues] using after, by simp [count], by simp [Trace.within]⟩
    · exact Or.inl (by simpa [requeues] using after.1)
  · rintro _ writes trace e ⟨pending, begun, -⟩ uncut owes
    have after := (begun.committed writes).1
    simp only [uncut.commit.1, decide_false, Bool.or_false] at after
    cases after.symm.trans owes.1
  · exact fun _ writes trace e kept _ => fresh kept.2.1
  · exact fun e trace begun => fresh begun
  · exact fun e e' writes trace begun _ => fresh begun

/-- A replay that is not cut off owes nothing when it has ended. -/
theorem paths_replayEvent (shipped : svc.registry = Balance.registry) (requestedBy : String)
    (reason : Option String) : (svc.replayEvent id requestedBy reason).paths (Uncut id) [] []
      (Txn.Comes (fun _ _ _ => True) fun _ trace => ¬ Stands id true false trace) := by
  refine Txn.paths_next (fun e more _ owes => ?_) fun now more uncut => ?_
  · cases owes.1
  have pending : recordsIn ([] ++ more) = [] := by
    refine List.filterMap_eq_nil_iff.mpr fun write member => ?_
    cases came_makes (uncut.2 _ _ _ rfl) write member
  refine Txn.paths_bind (paths_startReplay ⟨rfl, rfl⟩ rfl pending now) ?_
  rintro _ _ trace ⟨rfl, unqueued | ⟨owes, count, outside⟩⟩
  · refine Txn.paths_mono (fun r writes trace left => ?_) (paths_spares ?_ rfl unqueued)
    · cases r with
      | ok done => exact trivial
      | error e => exact left
    · refine Prog.only_bind ((routine_processEvent svc id).mono fun _ => spares_of_routine) fun result => ?_
      exact Prog.only_bind (spares_finishReplay _ _ _ _ _) fun _ => trivial
  · refine Txn.paths_bind (M := fun _ writes trace => writes = [] ∧ Late id trace)
      (Txn.paths_mono (fun r writes trace left => ?_) (paths_pass shipped owes count outside)) ?_
    · cases r with
      | ok result => exact ⟨left.1, left.2.2, left.2.1⟩
      | error e => exact left.elim
    · rintro result _ trace ⟨rfl, owes, later⟩
      exact Txn.paths_bind (paths_finishReplay ⟨owes, later⟩ requestedBy reason now _) fun _ _ _ _ => trivial

theorem paths_program (shipped : svc.registry = Balance.registry) (id : Nat) (call : Call) :
    (svc.program call).paths (fun writes trace turn => call.replays id = true →
      Uncut id writes trace turn) [] []
      fun r _ trace => call.replays id = true → ∀ e, r = .error e → ¬ Stands id true false trace := by
  by_cases replays : call.replays id = true
  · cases call with
    | replay eventId requestedBy reason =>
      obtain rfl : eventId = id := of_decide_eq_true replays
      refine Txn.paths_fewer (fun writes trace turn uncut => uncut replays) ?_
      refine Txn.paths_andThen (Txn.paths_mono (fun r writes trace left => ?_)
        (paths_replayEvent shipped requestedBy reason))
      cases r with
      | ok result =>
        rintro - e ⟨⟩
      | error e => exact fun _ _ _ => left
    | process | triage | ingest | deliver | purge => cases replays
  · exact Txn.paths_trivial fun _ _ _ replays' => absurd replays' replays

end Uncut

/-! ## What a transaction does for the record -/

/-- The committed requeues of an event. -/
def requeuesOf (id : Nat) (log : List Commit) : Nat :=
  (log.filter fun entry => id ∈ requeuesIn entry.writes).length

/-- The `replay_request` rows of an event. -/
def recordsOf (id : Nat) (db : Db) : Nat := (db.replays.filter fun request => request.eventId = id).length

section Steps

variable {svc : Service} {scope : Scope} {call : Call} {trace : Trace} {db : Db} {writes : List Write}
  {id : Nat}

def Write.onReplays : Write → Bool
  | .insertReplay _ | .deleteEvent _ | .deleteAttempts _ => true
  | _ => false

theorem replays_after (silent : ∀ write ∈ writes, write.onReplays = false) (db : Db) :
    recordsIn writes = [] ∧ (db.after writes).replays = db.replays := by
  induction writes generalizing db with
  | nil => exact ⟨rfl, rfl⟩
  | cons write rest ih =>
    obtain ⟨first, others⟩ := List.forall_mem_cons.mp silent
    obtain ⟨none, same⟩ := ih others (write.apply db)
    rw [Db.after_cons, same]
    cases write with
    | insertReplay request => cases first
    | deleteEvent id => cases first
    | deleteAttempts ids => cases first
    | _ => exact ⟨none, rfl⟩

theorem Moves.offReplays {target : DlqStatus} {row : EntryRow} (moves : Moves db target row writes) :
    ∀ write ∈ writes, write.onReplays = false := by
  cases moves with
  | move member legal => simp [Write.onReplays]

theorem StartTx.offReplays {eventId : Nat} (started : StartTx eventId db writes) :
    ∀ write ∈ writes, write.onReplays = false := by
  cases started with
  | requeued found marks =>
    refine List.forall_mem_cons.mpr ⟨rfl, ?_⟩
    rcases marks with rfl | ⟨row, about, moves⟩
    · simp
    · exact moves.offReplays

/-- Only the last transaction of a replay adds to the record. -/
theorem Committed.onReplays (called : call.isPurge = false)
    (committed : Committed svc scope call trace db writes) :
    (∀ write ∈ writes, write.onReplays = false) ∨
      ∃ request settled, writes = .insertReplay request :: settled ∧ call.replays request.eventId = true ∧
        FinishTx scope.purging request.eventId trace db writes ∧
        ∀ write ∈ settled, write.onReplays = false := by
  cases committed with
  | idle => exact Or.inl (by simp)
  | dealt passing done =>
    cases done with
    | mk found pending due dispatched applied next outcome =>
      refine Or.inl fun write member => ?_
      rcases List.mem_append.mp member with old | new
      · have business := applied.business write old
        cases write with
        | insertAccount row => rfl
        | updateAccount id state => rfl
        | insertLedger row => rfl
        | _ => cases business
      · simp only [List.mem_cons, List.not_mem_nil, or_false] at new
        rcases new with rfl | rfl <;> rfl
  | failed passing done =>
    cases done with
    | mk found next outcome recorded judged =>
      refine Or.inl (List.forall_mem_cons.mpr ⟨rfl, ?_⟩)
      cases judged with
      | rescheduled retryable left start cap => simp [Write.onReplays]
      | deadLettered spent filing =>
        rcases filing with ⟨-, rfl⟩ | ⟨-, id, at', rfl⟩ <;> simp [Write.onReplays]
  | started replay done => exact Or.inl done.offReplays
  | finished replay done =>
    have whole := done
    cases done with
    | finished about honest settles =>
      refine Or.inr ⟨_, _, rfl, by simp [replay, Call.replays, about], about ▸ whole, ?_⟩
      rcases settles with rfl | ⟨row, named, ⟨-, moves⟩ | ⟨-, moves⟩⟩
      · simp
      · exact moves.offReplays
      · exact moves.offReplays
  | moved triage named done => exact Or.inl done.offReplays
  | stored stores answered done => cases done <;> exact Or.inl (by simp [Write.onReplays])
  | purged purge done => simp [purge, Call.isPurge] at called

theorem Committed.record (called : call.isPurge = false)
    (committed : Committed svc scope call trace db writes) (member : id ∈ recordsIn writes) :
    call.replays id = true ∧ FinishTx scope.purging id trace db writes := by
  rcases committed.onReplays called with silent | ⟨request, settled, rfl, replays, done, silent⟩
  · simp [(replays_after silent db).1] at member
  · have none := (replays_after silent db).1
    simp only [recordsIn, List.filterMap_cons, Write.records?] at member none
    rw [none, List.mem_singleton] at member
    exact member ▸ ⟨replays, done⟩

/-- The record grows by what the transaction records. -/
theorem Committed.recordsOf (called : call.isPurge = false)
    (committed : Committed svc scope call trace db writes) (id : Nat) :
    recordsOf id (db.after writes) = recordsOf id db + if id ∈ recordsIn writes then 1 else 0 := by
  rcases committed.onReplays called with silent | ⟨request, settled, rfl, replays, done, silent⟩
  · obtain ⟨none, same⟩ := replays_after silent db
    simp [WebhookReceiver.recordsOf, none, same]
  · obtain ⟨none, same⟩ := replays_after silent (Write.apply (.insertReplay request) db)
    have only : recordsIn (.insertReplay request :: settled) = [request.eventId] := by
      simp only [recordsIn, List.filterMap_cons, Write.records?] at none ⊢
      rw [none]
    rw [Db.after_cons, WebhookReceiver.recordsOf, same, only]
    by_cases about : request.eventId = id
    · simp [WebhookReceiver.recordsOf, Write.apply, about]
    · simp [WebhookReceiver.recordsOf, Write.apply, about, Ne.symm about]

/-- A requeue and a record are never committed at once. -/
theorem Committed.requeue_alone (called : call.isPurge = false)
    (committed : Committed svc scope call trace db writes) (requeued : id ∈ requeuesIn writes) :
    call.replays id = true ∧ recordsIn writes = [] := by
  obtain ⟨⟨requestedBy, reason, rfl⟩, started, -⟩ := committed.requeue requeued
  exact ⟨decide_eq_true rfl, (replays_after started.offReplays db).1⟩

/-- A move is about the one entry that its event has. -/
theorem Moves.about {target : DlqStatus} {moved row : EntryRow} (good : Wf db)
    (moves : Moves db target moved writes) (same : moved.eventId = row.eventId) (member : row ∈ db.entries) :
    (row.id, target) ∈ movesIn writes := by
  cases moves with
  | move there legal =>
    obtain rfl := List.inj_on_of_nodup_map good.entryEvents there member same
    exact List.mem_singleton_self _

/-- Only a requeue puts an entry in replay, and after a record none is. -/
theorem Committed.replaying (good : Wf db) (called : call.isPurge = false)
    (committed : Committed svc scope call trace db writes)
    {row : EntryRow} (after : row ∈ (db.after writes).entries) (replaying : row.status = .replaying) :
    row.eventId ∈ requeuesIn writes ∨ (row ∈ db.entries ∧ row.eventId ∉ recordsIn writes) := by
  cases committed.entryStep good after with
  | same before unmoved =>
    refine Or.inr ⟨before, fun recorded => ?_⟩
    obtain ⟨-, done⟩ := committed.record called recorded
    cases done with
    | finished about honest settles unsettled =>
      rcases settles with rfl | ⟨moved, same, ⟨-, moves⟩ | ⟨-, moves⟩⟩
      · exact unsettled rfl row before rfl replaying
      · exact unmoved .needsReview (by simpa [movesIn, Write.move?] using moves.about good same before)
      · exact unmoved .resolved (by simpa [movesIn, Write.move?] using moves.about good same before)
  | filed absent status unresolved failed => simp [status] at replaying
  | @moved before target now note member legal triaged wrote mover =>
    subst triaged
    obtain rfl : target = .replaying := replaying
    rcases mover with ⟨-, started⟩ | ⟨other, -⟩ | terminal
    · left
      simp [started.requeues]
    · cases other
    · cases terminal

end Steps

/-! ## Runs -/

/-- No replay of the event is in progress. -/
def Quiet (id : Nat) (w : World) : Prop :=
  ∀ t th, w.threads t = some th → th.call.replays id = true → th.prog.isDone = true

/-- Some thread is a replay that owes the record of its requeue. -/
def Owing (id : Nat) (w : World) (t : Txn.Tid) : Prop := ∃ th, w.threads t = some th ∧ Owes id th

/-- What is requeued is recorded, or owed by a replay in progress; and an entry is in
replay only as long as some replay owes the record. -/
structure Accounted (id : Nat) (w : World) : Prop where
  balance : ∃ owing : Finset Txn.Tid, (∀ t, t ∈ owing ↔ Owing id w t) ∧
    requeuesOf id w.log = recordsOf id w.db + owing.card
  marked : ∀ row ∈ w.db.entries, row.eventId = id → row.status = .replaying → ∃ t, Owing id w t

section Runs

variable {svc : Service} {id : Nat} {w w' : World} {action : Action}

theorem owing_update {t : Txn.Tid} {thread : Option Thread} {db : Db} {held : Txn.LockTable Lock}
    {log : List Commit} (u : Txn.Tid) :
    Owing id ⟨db, held, Function.update w.threads t thread, log⟩ u ↔
      if u = t then ∃ th, thread = some th ∧ Owes id th else Owing id w u := by
  by_cases same : u = t
  · subst same
    simp [Owing]
  · simp [Owing, same]

/-- A thread goes on that owes what it owed, and neither log nor record tells of the event. -/
theorem Accounted.goesOn (accounted : Accounted id w) {t : Txn.Tid} {thread : Option Thread} {db : Db}
    {held : Txn.LockTable Lock} {log : List Commit}
    (owes : (∃ th, thread = some th ∧ Owes id th) ↔ Owing id w t)
    (requeues : requeuesOf id log = requeuesOf id w.log) (records : recordsOf id db = recordsOf id w.db)
    (entries : ∀ row ∈ db.entries, row.eventId = id → row.status = .replaying → row ∈ w.db.entries) :
    Accounted id ⟨db, held, Function.update w.threads t thread, log⟩ := by
  have still : ∀ u, Owing id ⟨db, held, Function.update w.threads t thread, log⟩ u ↔ Owing id w u := by
    intro u
    rw [owing_update]
    by_cases same : u = t
    · rw [if_pos same, owes, same]
    · rw [if_neg same]
  obtain ⟨owing, exactly, balance⟩ := accounted.balance
  refine ⟨⟨owing, fun u => (exactly u).trans (still u).symm, ?_⟩, ?_⟩
  · show requeuesOf id log = recordsOf id db + owing.card
    rw [requeues, records, balance]
  · intro row member about replaying
    obtain ⟨u, owes⟩ := accounted.marked row (entries row member about replaying) about replaying
    exact ⟨u, (still u).mpr owes⟩

/-- A thread that owed nothing and has requeued the event owes its record. -/
theorem Accounted.requeue (accounted : Accounted id w) {t : Txn.Tid} {th : Thread} {db : Db}
    {held : Txn.LockTable Lock} {log : List Commit} (before : ¬ Owing id w t) (after : Owes id th)
    (requeues : requeuesOf id log = requeuesOf id w.log + 1) (records : recordsOf id db = recordsOf id w.db) :
    Accounted id ⟨db, held, Function.update w.threads t (some th), log⟩ := by
  obtain ⟨owing, exactly, balance⟩ := accounted.balance
  refine ⟨⟨insert t owing, fun u => ?_, ?_⟩, fun row _ _ _ => ⟨t, (owing_update t).mpr ?_⟩⟩
  · rw [owing_update, Finset.mem_insert, exactly]
    by_cases same : u = t <;> simp [same, after]
  · show requeuesOf id log = recordsOf id db + (insert t owing).card
    rw [requeues, records, balance, Finset.card_insert_of_notMem fun member => before ((exactly t).mp member)]
    omega
  · rw [if_pos rfl]
    exact ⟨th, rfl, after⟩

/-- A thread that owed the record has made it. -/
theorem Accounted.record (accounted : Accounted id w) {t : Txn.Tid} {th : Thread} {db : Db}
    {held : Txn.LockTable Lock} {log : List Commit} (before : Owing id w t) (after : ¬ Owes id th)
    (requeues : requeuesOf id log = requeuesOf id w.log) (records : recordsOf id db = recordsOf id w.db + 1)
    (entries : ∀ row ∈ db.entries, row.eventId = id → row.status ≠ .replaying) :
    Accounted id ⟨db, held, Function.update w.threads t (some th), log⟩ := by
  obtain ⟨owing, exactly, balance⟩ := accounted.balance
  refine ⟨⟨owing.erase t, fun u => ?_, ?_⟩, fun row member about replaying => ?_⟩
  · rw [owing_update, Finset.mem_erase, exactly]
    by_cases same : u = t <;> simp [same, after]
  · have one := Finset.card_erase_add_one ((exactly t).mpr before)
    show requeuesOf id log = recordsOf id db + (owing.erase t).card
    omega
  · exact absurd replaying (entries row member about)

/-- A transaction that commits. -/
theorem Accounted.conclude (accounted : Accounted id w) {t : Txn.Tid} {th : Thread}
    (here : w.threads t = some th) {prog : Program Outcome} (good : Wf w.db)
    (called : th.call.isPurge = false)
    (committed : Committed svc .withoutPurge th.call th.trace w.db th.writes)
    (ordered : Ordered th.call th.trace th.writes) :
    Accounted id (w.conclude svc.system t th prog) := by
  have grown : requeuesOf id (w.log ++ [⟨t, th.call, th.trace, w.db, th.writes⟩]) =
      requeuesOf id w.log + if id ∈ requeuesIn th.writes then 1 else 0 := by
    by_cases requeued : id ∈ requeuesIn th.writes <;> simp [requeuesOf, requeued]
  have records : recordsOf id (svc.system.applyAll th.writes w.db) = _ := committed.recordsOf called id
  have mine : Owing id w t ↔ Owes id th := by simp [Owing, here]
  by_cases requeued : id ∈ requeuesIn th.writes
  · obtain ⟨replays, alone⟩ := committed.requeue_alone called requeued
    have stands := (ordered id replays).1 requeued
    refine accounted.requeue (mine.not.mpr fun owes => ?_) ⟨replays, ?_⟩ ?_ ?_
    · simpa [stands.1] using owes.2.1
    · simpa [requeued, alone] using stands.committed th.writes
    · simpa [requeued] using grown
    · simpa [alone] using records
  by_cases recorded : id ∈ recordsIn th.writes
  · obtain ⟨replays, -⟩ := committed.record called recorded
    have stands := (ordered id replays).2 recorded
    refine accounted.record (mine.mpr ⟨replays, stands⟩) (fun owes => ?_) ?_ ?_ ?_
    · have after := owes.2.2
      simp [Trace.recorded, recorded] at after
    · simpa [requeued] using grown
    · simpa [recorded] using records
    · intro row after about replaying
      rcases committed.replaying good called after replaying with requeue | ⟨-, unrecorded⟩
      · exact requeued (about ▸ requeue)
      · exact unrecorded (about ▸ recorded)
  · refine accounted.goesOn ?_ ?_ ?_ ?_
    · rw [mine]
      simp [Owes, Stands, Trace.requeued, Trace.recorded, requeued, recorded]
    · simpa [requeued] using grown
    · simpa [recorded] using records
    · intro row after about replaying
      rcases committed.replaying good called after replaying with requeue | ⟨before, -⟩
      · exact absurd (about ▸ requeue) requeued
      · exact before

/-- What a step keeps, given what a transaction that it commits is. -/
theorem Accounted.step (accounted : Accounted id w) (stepped : Txn.step svc.system w action = some w')
    (spared : cutsOff svc id w action = false)
    (described : ∀ entry ∈ w'.log, Wf entry.before ∧ entry.call.isPurge = false ∧
      Committed svc .withoutPurge entry.call entry.trace entry.before entry.writes ∧
      Ordered entry.call entry.trace entry.writes) : Accounted id w' := by
  cases Txn.step_cases stepped with
  | @spawned t call =>
    have absent : w.threads t = none := by
      cases here : w.threads t with
      | none => rfl
      | some th => simp [Txn.step, here] at stepped
    refine accounted.goesOn ?_ rfl rfl fun row member _ _ => member
    simp [Owing, absent, Owes, Stands, Trace.requeued]
  | @answered t input th s next reply here shape ran free =>
    obtain ⟨seq, same⟩ := exec_sameRows ran w.db
    have drawn : svc.system.applyAll reply.instant w.db = { w.db with seq := seq } := same
    refine accounted.goesOn ?_ rfl (by rw [drawn]; rfl) fun row member _ _ => ?_
    · simp [Owing, here, Owes, Stands, Trace.requeued, Trace.recorded]
    · rw [drawn] at member
      exact member
  | @refused t e th s next here shape =>
    refine accounted.goesOn ?_ rfl rfl fun row member _ _ => member
    simp [Owing, here, Owes, Stands, Trace.requeued, Trace.recorded]
  | @concluded action t th next told here shape how =>
    obtain ⟨good, called, committed, ordered⟩ :=
      described ⟨t, th.call, th.trace, w.db, th.writes⟩ (List.mem_append_right _ (List.mem_singleton_self _))
    exact accounted.conclude here good called committed ordered
  | @rolledBack action t th next told here shape how =>
    refine accounted.goesOn ?_ rfl rfl fun row member _ _ => member
    simp [Owing, here, Owes, Stands, Trace.requeued, Trace.recorded]
  | @uncommitted t e th next here shape =>
    refine accounted.goesOn ?_ rfl rfl fun row member _ _ => member
    simp [Owing, here, Owes, Stands, Trace.requeued, Trace.recorded]
  | @killed t =>
    refine accounted.goesOn ?_ rfl rfl fun row member _ _ => member
    constructor
    · rintro ⟨th, none, -⟩
      cases none
    · rintro ⟨th, here, owes⟩
      simp [cutsOff, here, owes] at spared

/-- The runs without retention in which no replay of the event is cut off. -/
def Service.Unbroken (svc : Service) (id : Nat) : World → Prop :=
  Txn.Reach svc.system (fun w action => Scope.withoutPurge.permits action ∧ cutsOff svc id w action = false)
    (.init Db.empty)

theorem phases (svc : Service) (scope : Scope) : ((svc.discipline scope).phased Ordered Rests).Verified :=
  (verified svc scope).phased fun call _ => along_program svc scope call

theorem Service.Unbroken.permitted (unbroken : svc.Unbroken id w) : Txn.Reach svc.system
    (fun _ action => ((svc.discipline .withoutPurge).phased Ordered Rests).Permits action)
    (.init Db.empty) w := by
  refine unbroken.mono fun w action allowed => ?_
  cases action <;> exact allowed.1

theorem Service.Unbroken.described (unbroken : svc.Unbroken id w) : ∀ entry ∈ w.log,
    Wf entry.before ∧ entry.call.isPurge = false ∧
      Committed svc .withoutPurge entry.call entry.trace entry.before entry.writes ∧
      Ordered entry.call entry.trace entry.writes := by
  intro entry member
  obtain ⟨-, past⟩ := (phases svc .withoutPurge).history wf_empty unbroken.permitted
  obtain ⟨_, _, -, -, good, called, ⟨described, ordered⟩, -⟩ := past.at member
  exact ⟨good, called, Describes.cases described, ordered⟩

theorem accounted_unbroken (unbroken : svc.Unbroken id w) : Accounted id w := by
  induction unbroken with
  | start =>
    refine ⟨⟨∅, fun t => ?_, rfl⟩, by simp [Txn.World.init, Db.empty]⟩
    simp [Owing, Txn.World.init]
  | next before allowed stepped ih =>
    exact ih.step stepped allowed.2 (Service.Unbroken.described (before.next allowed stepped))

/-- Who has ended with an exception owes nothing. -/
theorem Service.Unbroken.raised (unbroken : svc.Unbroken id w) (shipped : svc.registry = Balance.registry)
    {t : Txn.Tid} {th : Thread} (here : w.threads t = some th) {e : Exc} (ended : th.prog = .done (.error e)) :
    ¬ Owes id th := by
  rintro ⟨replays, owes⟩
  have onPath := Txn.paths_reach (t := t) (paths_program shipped id)
    (fun w action th turn allowed here mine took => ?_)
    rfl unbroken th here
  · rw [ended] at onPath
    exact onPath replays e rfl owes
  · subst mine
    refine fun replays => ⟨?_, fun s answer more same => came_of_turn (same ▸ took)⟩
    have spared := allowed.2
    cases action with
    | kill t => cases took
    | spawn t call => cases took
    | run t input | fault t e | lost t e =>
      have here : w.threads t = some th := here
      simpa [cutsOff, Txn.Action.tid, here, replays, took] using spared

/-- In every run in which no replay of the event is cut off between its requeue and its
record, once no replay of it is in progress, every requeue is on record and no entry of
the event is in replay. -/
theorem replays_leave_their_record (svc : Service) (shipped : svc.registry = Balance.registry) (id : Nat)
    {w : World} (unbroken : svc.Unbroken id w) (quiet : Quiet id w) :
    recordsOf id w.db = requeuesOf id w.log ∧
      ∀ row ∈ w.db.entries, row.eventId = id → row.status ≠ .replaying := by
  have settled : ∀ t, ¬ Owing id w t := by
    rintro t ⟨th, here, owes⟩
    obtain ⟨result, ended⟩ := Prog.isDone_iff.mp (quiet t th here owes.1)
    cases result with
    | error e => exact unbroken.raised shipped here ended owes
    | ok outcome =>
      obtain ⟨-, rests⟩ := (phases svc .withoutPurge).returned wf_empty unbroken.permitted here ended
      exact absurd (owes.2.2.symm.trans (rests outcome rfl id owes.1)) (by simp)
  have accounted := accounted_unbroken unbroken
  obtain ⟨owing, exactly, balance⟩ := accounted.balance
  obtain rfl : owing = ∅ := Finset.eq_empty_of_forall_notMem fun t member => settled t ((exactly t).mp member)
  refine ⟨balance.symm, fun row member about replaying => ?_⟩
  obtain ⟨t, owes⟩ := accounted.marked row member about replaying
  exact settled t owes

/-! ## Schedules -/

def Service.runUnbroken (svc : Service) (id : Nat) (w : World) : List Action → Option World
  | [] => some w
  | action :: rest =>
    if cutsOff svc id w action then none
    else (Txn.step svc.system w action).bind fun w' => svc.runUnbroken id w' rest

theorem unbroken_of_run {schedule : List Action} (unbroken : svc.Unbroken id w)
    (permitted : ∀ action ∈ schedule, Scope.withoutPurge.permits action)
    (ran : svc.runUnbroken id w schedule = some w') : svc.Unbroken id w' := by
  induction schedule generalizing w with
  | nil =>
    cases ran
    exact unbroken
  | cons action rest ih =>
    obtain ⟨allowed, others⟩ := List.forall_mem_cons.mp permitted
    simp only [Service.runUnbroken] at ran
    split at ran
    · cases ran
    · rename_i spares
      obtain ⟨middle, stepped, ran⟩ := Option.bind_eq_some_iff.mp ran
      exact ih (unbroken.next ⟨allowed, Bool.eq_false_of_not_eq_true spares⟩ stepped) others ran

theorem run_of_runUnbroken {schedule : List Action} (ran : svc.runUnbroken id w schedule = some w') :
    svc.runFrom w schedule = some w' := by
  induction schedule generalizing w with
  | nil => exact ran
  | cons action rest ih =>
    simp only [Service.runUnbroken] at ran
    split at ran
    · cases ran
    · obtain ⟨middle, stepped, ran⟩ := Option.bind_eq_some_iff.mp ran
      simp only [Service.runFrom, Txn.run, stepped, Option.bind_some]
      exact ih ran

/-- Every call among the first few is done. -/
def doneBelow (count : Nat) (w : World) : Bool :=
  (List.range count).all fun t => (w.threads t).all fun th => th.prog.isDone

theorem quiet_of_doneBelow {count : Nat} {schedule : List Action}
    (ran : svc.runFrom (.init Db.empty) schedule = some w)
    (few : ∀ action ∈ schedule, action.tid < count) (done : doneBelow count w = true) :
    Quiet id w := by
  intro t th here _
  by_cases low : t < count
  · have ended := List.all_eq_true.mp done t (List.mem_range.mpr low)
    simpa [here] using ended
  · have absent := Txn.absent_of_run ran (t := t) rfl fun call member => low (few _ member)
    rw [absent] at here
    cases here

end Runs

/-- A dead-lettered event fails again in its replay. -/
theorem replays_leave_their_record_sample : ∃ w, Sample.service.Unbroken 1 w ∧
    requeuesOf 1 w.log = 1 ∧ recordsOf 1 w.db = requeuesOf 1 w.log ∧
    ∀ row ∈ w.db.entries, row.eventId = 1 → row.status ≠ .replaying := by
  let schedule : List Action :=
    Sample.deadLettered ++ .spawn 2 (.replay 1 "operator" none) :: Sample.steps 2 8 ++
    Sample.failingPass 2 ++ Sample.steps 2 8
  have passed : (Sample.service.runUnbroken 1 (.init Db.empty) schedule).any
      (fun w => doneBelow 3 w ∧ requeuesOf 1 w.log = 1) = true := by decide +kernel
  obtain ⟨w, ran, shown⟩ := (Option.any_eq_true _ _).mp passed
  simp only [decide_eq_true_eq] at shown
  have unbroken : Sample.service.Unbroken 1 w := by
    refine unbroken_of_run .start ?_ ran
    simp [schedule, Sample.deadLettered, Sample.failingPass, Sample.store, Sample.steps, Scope.permits,
      Scope.withoutPurge, Call.isPurge]
  have quiet : Quiet 1 w := by
    refine quiet_of_doneBelow (run_of_runUnbroken ran) ?_ shown.1
    simp [schedule, Sample.deadLettered, Sample.failingPass, Sample.store, Sample.steps, Txn.Action.tid]
  exact ⟨w, unbroken, shown.2, replays_leave_their_record Sample.service rfl 1 unbroken quiet⟩

/-- Two replays of a dead-lettered event overlap. Both find its entry REPLAYING; the one
that claimed nothing resolves it, and for the other, which failed, the way back to review
is closed: it raises, and its record is rolled back. And a replay whose process dies after
its first transaction leaves the entry REPLAYING. -/
theorem replay_leaves_no_record :
    ¬ (∀ id w, Sample.service.Reaches .withoutPurge (.init Db.empty) w → Quiet id w →
      recordsOf id w.db = requeuesOf id w.log) ∧
    ¬ ∀ id w, Sample.service.Reaches .withoutPurge (.init Db.empty) w → Quiet id w →
      ∀ row ∈ w.db.entries, row.eventId = id → row.status ≠ .replaying := by
  constructor
  · let schedule : List Action :=
      Sample.deadLettered ++ .spawn 2 (.replay 1 "operator" none) :: Sample.steps 2 8 ++
      .spawn 3 (.replay 1 "operator" none) :: Sample.steps 3 5 ++ Sample.failingPass 2 ++
      Sample.steps 3 3 ++ Sample.steps 2 4 ++ Sample.steps 3 8 ++ Sample.steps 2 2
    have passed : (Sample.service.runFrom (.init Db.empty) schedule).any
        (fun w => doneBelow 4 w ∧ recordsOf 1 w.db = 1 ∧ requeuesOf 1 w.log = 2) = true := by decide +kernel
    obtain ⟨w, ran, shown⟩ := (Option.any_eq_true _ _).mp passed
    simp only [decide_eq_true_eq] at shown
    have reached : Sample.service.Reaches .withoutPurge (.init Db.empty) w := by
      refine Service.reaches_runFrom ?_ ran
      simp [schedule, Sample.deadLettered, Sample.failingPass, Sample.store, Sample.steps, Scope.permits,
        Scope.withoutPurge, Call.isPurge]
    have quiet : Quiet 1 w := by
      refine quiet_of_doneBelow ran ?_ shown.1
      simp [schedule, Sample.deadLettered, Sample.failingPass, Sample.store, Sample.steps, Txn.Action.tid]
    intro recorded
    have equal := recorded 1 w reached quiet
    omega
  · let schedule : List Action :=
      Sample.deadLettered ++ .spawn 2 (.replay 1 "operator" none) :: Sample.steps 2 8 ++ [.kill 2]
    have passed : (Sample.service.runFrom (.init Db.empty) schedule).any (fun w => doneBelow 3 w ∧
        w.db.entries.any fun row => row.eventId = 1 ∧ row.status = .replaying) = true := by decide +kernel
    obtain ⟨w, ran, shown⟩ := (Option.any_eq_true _ _).mp passed
    simp only [decide_eq_true_eq, List.any_eq_true] at shown
    have reached : Sample.service.Reaches .withoutPurge (.init Db.empty) w := by
      refine Service.reaches_runFrom ?_ ran
      simp [schedule, Sample.deadLettered, Sample.failingPass, Sample.store, Sample.steps, Scope.permits,
        Scope.withoutPurge, Call.isPurge]
    have quiet : Quiet 1 w := by
      refine quiet_of_doneBelow ran ?_ shown.1
      simp [schedule, Sample.deadLettered, Sample.failingPass, Sample.store, Sample.steps, Txn.Action.tid]
    obtain ⟨row, member, about, replaying⟩ := shown.2
    exact fun settled => settled 1 w reached quiet row member about replaying

end WebhookReceiver
