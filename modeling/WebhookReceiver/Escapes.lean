import WebhookReceiver.Txn.Turns
import WebhookReceiver.Propagation
import WebhookReceiver.Store.Teaching

/-!
What escapes a pass.

`process_event` catches what its processing transaction raises, and hands it to
`_record_failure`. What is raised before that transaction or after it escapes, and so does
an exception that is no `Exception`, and a retry date off the calendar. Nothing else does:
a pass returns if it takes no turn of these (`paths_processEvent`).
-/

namespace WebhookReceiver

open Txn (Prog)

/-! ## Turns -/

abbrev Turn := Txn.Turn Write Stmt Stmt.Answer Exc

abbrev Admission := Txn.Admission Write Stmt Stmt.Answer Exc

abbrev Thread := Txn.Thread Write Call Stmt Stmt.Answer Exc Outcome

/-- The transactions whose end the call has seen. -/
def Trace.ends (trace : Trace) : Nat :=
  trace.countP fun
    | .stmt .. => false
    | _ => true

/-- The call is at work on the transaction after so many, and has begun it. -/
def Trace.within (ends : Nat) (trace : Trace) : Bool :=
  decide (trace.ends = ends) && match trace.getLast? with
    | some (.stmt ..) => true
    | _ => false

/-- The exception that the call is told of. -/
def raises? : Turn → Option Exc
  | .answer _ (.error e) _ => some e
  | .commit (.error e) => some e
  | .abort e => some e
  | .rollback (.error e) => some e
  | _ => none

/-- The delay that is drawn takes the attempt that waits off the calendar. -/
def undated (writes : List Write) : Turn → Bool
  | .answer (.uniform _ _) (.ok delay) _ => writes.any fun
    | .insertAttempt row => (datetimePlus row.finishedAt delay).toOption.isNone
    | _ => false
  | _ => false

/-- Where an answer with its writes comes from: the statement ran, or something struck it. -/
inductive Came (s : Stmt) : Except Exc s.Answer → List Write → Prop where
  | ran {avail : Lock → Txn.Mode → Bool} {input : Input} {view : Db}
      {reply : Txn.Reply Write Lock Exc s.Answer} (ran : s.exec avail input view = some reply) :
      Came s reply.answer reply.writes
  | struck (e : Exc) : Came s (.error e) []

/-- Of these turns, none makes a pass that begins after `ends` transactions raise anything but
what is `T`. -/
structure Harmless (A : Admission) (ends : Nat) (T : Exc → Prop) : Prop where
  raises : ∀ {writes trace turn e}, A writes trace turn → raises? turn = some e →
    Trace.within ends trace = true ∧ e.isException = true ∨ T e
  dated : ∀ {writes trace turn}, A writes trace turn → undated writes turn = false
  came : ∀ {writes trace s answer more}, A writes trace (.answer s answer more) → Came s answer more

section Turns

variable {trace : Trace} {ends : Nat}

@[simp] theorem ends_nil : Trace.ends [] = 0 := rfl

@[simp] theorem ends_stmt {s : Stmt} {answer : Except Exc s.Answer} :
    Trace.ends (trace ++ [.stmt s answer]) = trace.ends := by
  simp [Trace.ends]

@[simp] theorem ends_committed {writes : List Write} :
    Trace.ends (trace ++ [.committed writes]) = trace.ends + 1 := by
  simp [Trace.ends]

@[simp] theorem ends_rolledBack : Trace.ends (trace ++ [.rolledBack]) = trace.ends + 1 := by
  simp [Trace.ends]

theorem later_stmt {s : Stmt} {answer : Except Exc s.Answer} (later : ends < trace.ends) :
    ends < Trace.ends (trace ++ [.stmt s answer]) := by rwa [ends_stmt]

@[simp] theorem within_stmt {s : Stmt} {answer : Except Exc s.Answer} :
    Trace.within ends (trace ++ [.stmt s answer]) = decide (trace.ends = ends) := by
  simp [Trace.within]

theorem not_within_of_later (later : ends < trace.ends) : Trace.within ends trace = false := by
  simp [Trace.within, Nat.ne_of_gt later]

theorem came_insertReplay {request : ReplayRequest} {more : List Write}
    (came : Came (.insertReplayRequest request) (.ok ()) more) : .insertReplay request ∈ more := by
  generalize told : (.ok () : Except Exc (Stmt.insertReplayRequest request).Answer) = answer at came
  cases came with
  | struck e => cases told
  | ran ran =>
    simp only [Stmt.exec, execInsertReplayRequest] at ran
    split at ran
    · cases ran
      cases told
    · split at ran
      · cases ran
        cases told
      · cases ran
        exact List.mem_singleton_self _

theorem came_insertAttempt {attempt : Attempt} {more : List Write}
    (came : Came (.insertAttempt attempt) (.ok ()) more) :
    ∃ id, more = [.insertAttempt { attempt with id := id }] := by
  generalize told : (.ok () : Except Exc (Stmt.insertAttempt attempt).Answer) = answer at came
  cases came with
  | struck e => cases told
  | ran ran =>
    simp only [Stmt.exec, execInsertAttempt] at ran
    rcases insertUnder_some ran with ⟨-, rfl⟩ | ⟨-, e, -, rfl⟩ | ⟨-, -, rfl⟩
    · cases told
    · cases told
    · exact ⟨_, rfl⟩

/-- Each answer that a run gives comes from somewhere. -/
theorem came_of_turn {svc : Service} {w : World} {th : Thread} {action : Action} {s : Stmt}
    {answer : Except Exc s.Answer}
    {more : List Write} (took : svc.system.turn? w th action = some (.answer s answer more)) :
    Came s answer more := by
  cases action with
  | run t input =>
    simp only [Txn.System.turn?] at took
    split at took
    · cases took
    · simp only [Option.map_eq_some_iff] at took
      obtain ⟨reply, ran, same⟩ := took
      cases same
      exact .ran ran
    · cases took
    · cases took
  | fault t e =>
    simp only [Txn.System.turn?] at took
    split at took
    · cases took
    · cases took
      exact .struck e
    · cases took
    · cases took
  | lost t e =>
    simp only [Txn.System.turn?] at took
    split at took <;> cases took
  | spawn t call => cases took
  | kill t => cases took

end Turns

/-! ## Pieces of a pass -/

/-- A piece of a transaction that raises nothing but Exceptions, if it is told of no others. -/
abbrev Caught {α : Type} (piece : Program α) : Prop :=
  piece.Piece (fun _ => True) fun e => e.isException = true

theorem caught_execute (s : Stmt) : Caught (execute s) := Prog.piece_perform trivial

theorem caught_applyEffect (event : StoredEvent) (effect : Effect) :
    Caught (Ledger.applyEffect event effect) := by
  have posted : ∀ (account : Nat) (amount given : Int) (values : AccountState → AccountState), Caught
      (do if !(← Ledger.claimLedgerRow account event.id amount) then return .alreadyApplied
          execute (.updateAccount account given values)
          return EffectResult.applied : Program EffectResult) := by
    intro account amount given values
    refine Prog.piece_bind (Prog.piece_bind (caught_execute _) fun _ => Prog.piece_pure _) fun fresh => ?_
    cases fresh with
    | false => exact Prog.piece_pure _
    | true => exact Prog.piece_bind (caught_execute _) fun _ => Prog.piece_pure _
  cases effect with
  | credit effect => exact Prog.piece_bind (piece_accountId _ trivial trivial) fun account => posted _ _ _ _
  | setBalance effect =>
    refine Prog.piece_bind (piece_accountId _ trivial trivial) fun account =>
      Prog.piece_bind (caught_execute _) fun current => ?_
    dsimp only
    split
    · exact Prog.piece_pure _
    · exact posted _ _ _ _

variable {svc : Service} {α : Type}

theorem caught_apply (shipped : svc.registry = Balance.registry) (event : StoredEvent) (startedAt : Time) :
    Caught (svc.apply event startedAt) := by
  refine Prog.piece_bind (Prog.piece_bind (caught_execute _) fun _ => Prog.piece_pure _) fun number => ?_
  refine Prog.piece_bind (piece_lockEntity _ _ _ _ (fun _ => trivial) (fun _ => trivial) fun _ => rfl) fun _ =>
    Prog.piece_bind ?_ fun effect => ?_
  · intro e refused
    rw [shipped] at refused
    simp [Exc.isException, Balance.dispatch_error refused]
  · refine Prog.piece_bind (caught_applyEffect _ _) fun result => Prog.piece_bind (caught_execute _) fun _ => ?_
    refine Prog.piece_bind (caught_execute _) fun _ => Prog.piece_bind (caught_execute _) fun _ => ?_
    exact Prog.piece_pure _

/-! ## Transactions -/

section Paths

variable {A : Admission} {ends : Nat} {T : Exc → Prop} {writes : List Write} {trace : Trace} {eventId : Nat}

/-- A transaction commits what its body comes to, or hands on what its body, the commit or the
rollback raises. -/
theorem paths_sessionScope {body : Program α} {P Q : α → List Write → Trace → Prop} {E E' : Exc → Trace → Prop}
    (met : body.paths A writes trace (Txn.Comes P E))
    (returns : ∀ value writes trace, P value writes trace → Q value [] (trace ++ [Txn.Ev.committed writes]))
    (lost : ∀ value writes trace e, P value writes trace → A writes trace (.commit (.error e)) →
      E' e (trace ++ [Txn.Ev.committed writes]))
    (aborted : ∀ value writes trace e, P value writes trace → A writes trace (.abort e) →
      E' e (trace ++ [Txn.Ev.rolledBack]))
    (raised : ∀ e trace, E e trace → E' e (trace ++ [Txn.Ev.rolledBack]))
    (unraised : ∀ e e' writes trace, E e trace → A writes trace (.rollback (.error e')) →
      E' e' (trace ++ [Txn.Ev.rolledBack])) :
    (sessionScope body).paths A writes trace (Txn.Comes Q E') := by
  refine Txn.paths_andThen (Txn.paths_mono (fun r writes trace came => ?_) met)
  cases r with
  | ok value =>
    refine ⟨fun told admitted => ?_, fun e admitted => aborted value writes trace e came admitted⟩
    cases told with
    | ok done => exact returns value writes trace came
    | error e => exact lost value writes trace e came admitted
  | error e =>
    intro told admitted
    cases told with
    | ok done => exact raised e trace came
    | error e' => exact unraised e e' writes trace came admitted

/-- After the processing transaction everything escapes. -/
theorem Harmless.late (harmless : Harmless A ends T) {turn : Turn} {e : Exc} (later : ends < trace.ends)
    (admitted : A writes trace turn) (raised : raises? turn = some e) : T e := by
  rcases harmless.raises admitted raised with ⟨within, -⟩ | kind
  · rw [not_within_of_later later] at within
    cases within
  · exact kind

/-- A statement of a later transaction, and what follows its answer. -/
theorem Harmless.next {s : Stmt} {next : s.Answer → Program α} {P : α → List Write → Trace → Prop}
    (harmless : Harmless A ends T) (later : ends < trace.ends)
    (rest : ∀ a more, A writes trace (.answer s (.ok a) more) →
      (next a).paths A (writes ++ more) (trace ++ [.stmt s (.ok a)])
        (Txn.Comes P fun e trace => T e ∧ ends < Trace.ends trace)) :
    (execute s >>= next).paths A writes trace (Txn.Comes P fun e trace => T e ∧ ends < Trace.ends trace) :=
  Txn.paths_next (fun _ _ admitted => ⟨harmless.late later admitted rfl, later_stmt later⟩) rest

/-- The last statement of a later transaction. -/
theorem Harmless.last {s : Stmt} (harmless : Harmless A ends T) (later : ends < trace.ends) :
    (execute s).paths A writes trace (Txn.Comes (fun _ _ trace => ends < Trace.ends trace)
      fun e trace => T e ∧ ends < Trace.ends trace) :=
  Txn.paths_perform (fun _ _ _ => later_stmt later)
    fun _ _ admitted => ⟨harmless.late later admitted rfl, later_stmt later⟩

/-- The date of a retry is one that the attempt which waits has room for. -/
theorem paths_nextAttemptAt (harmless : Harmless A ends T) (later : ends < trace.ends) {number : Nat}
    (positive : 0 < number) (row : AttemptRow) (waits : .insertAttempt row ∈ writes) :
    (svc.nextAttemptAt number row.finishedAt).paths A writes trace
      (Txn.Comes (fun _ _ trace => ends < Trace.ends trace) fun e trace => T e ∧ ends < Trace.ends trace) := by
  unfold Service.nextAttemptAt nextDelaySeconds
  rw [if_neg (by omega)]
  refine harmless.next later fun delay more admitted => ?_
  have room := harmless.dated admitted
  simp only [undated, List.any_eq_false] at room
  cases added : datetimePlus row.finishedAt delay with
  | ok due => exact later_stmt later
  | error e => exact absurd (room _ waits) (by simp [added, Except.toOption])

theorem paths_recordFailureOf (harmless : Harmless A ends T) (later : ends < trace.ends) (event : StoredEvent)
    (exc : Exc) (startedAt : Time) :
    (svc.recordFailureOf eventId event exc startedAt).paths A writes trace
      (Txn.Comes (fun _ _ trace => ends < Trace.ends trace) fun e trace => T e ∧ ends < Trace.ends trace) := by
  unfold Service.recordFailureOf
  refine Txn.paths_bind (M := fun number _ trace => 0 < number ∧ ends < Trace.ends trace) ?_ ?_
  · refine harmless.next later fun highest more _ => ?_
    exact ⟨Nat.succ_pos _, later_stmt later⟩
  rintro number writes trace ⟨positive, later⟩
  refine harmless.next later fun finishedAt more _ => ?_
  refine harmless.next (later_stmt later) fun _ more' admitted => ?_
  obtain ⟨id, rfl⟩ := came_insertAttempt (harmless.came admitted)
  dsimp only
  split
  · refine Txn.paths_bind (M := fun _ _ trace => ends < Trace.ends trace)
      (paths_nextAttemptAt harmless (later_stmt (later_stmt later)) positive
        ⟨⟨eventId, number, startedAt, finishedAt, _, _, _, _⟩, id⟩
        (List.mem_append_right _ (List.mem_singleton_self _))) fun due writes trace later => ?_
    exact harmless.next later fun _ _ _ => later_stmt later
  · refine Txn.paths_bind (M := fun _ _ trace => ends < Trace.ends trace) ?_ fun _ _ _ later => later
    refine harmless.next (later_stmt (later_stmt later)) fun _ _ _ => ?_
    exact harmless.last (later_stmt (later_stmt (later_stmt later)))

/-- The failure transaction raises nothing but what is `T`. -/
theorem paths_recordFailure (harmless : Harmless A ends T) (later : ends < trace.ends) (exc : Exc)
    (startedAt : Time) :
    (svc.recordFailure eventId exc startedAt).paths A writes trace
      (Txn.Comes (fun _ writes trace => writes = [] ∧ ends < Trace.ends trace) fun e _ => T e) := by
  refine paths_sessionScope (P := fun _ _ trace => ends < Trace.ends trace)
    (E := fun e trace => T e ∧ ends < Trace.ends trace) ?_ ?_ ?_ ?_ ?_ ?_
  · refine harmless.next later fun event more _ => ?_
    cases event with
    | none => exact later_stmt later
    | some event => exact paths_recordFailureOf harmless (later_stmt later) event exc startedAt
  · exact fun _ writes trace later => ⟨rfl, by simp only [ends_committed]; omega⟩
  · exact fun _ writes trace e later admitted => harmless.late later admitted rfl
  · exact fun _ writes trace e later admitted => harmless.late later admitted rfl
  · exact fun e trace raised => raised.1
  · exact fun e e' writes trace raised admitted => harmless.late raised.2 admitted rfl

/-- What the processing transaction raises is caught. -/
theorem paths_attempt (shipped : svc.registry = Balance.registry) (harmless : Harmless A ends T)
    (mild : ∀ e, T e → e.isException = true) (within : Trace.within ends trace = true) (startedAt : Time) :
    (svc.attempt eventId startedAt).paths A writes trace
      (Txn.Comes (fun _ writes trace => writes = [] ∧ ends < Trace.ends trace)
        fun e trace => e.isException = true ∧ ends < Trace.ends trace) := by
  have told : ∀ {writes : List Write} {trace : Trace} {turn : Turn} {e : Exc}, A writes trace turn →
      raises? turn = some e → e.isException = true := by
    intro writes trace turn e admitted raised
    rcases harmless.raises admitted raised with ⟨-, known⟩ | kind
    · exact known
    · exact mild e kind
  have count : Trace.ends trace = ends := by
    simp only [Trace.within, Bool.and_eq_true, decide_eq_true_eq] at within
    exact within.1
  refine paths_sessionScope (P := fun _ _ trace => Trace.ends trace = ends)
    (E := fun e trace => e.isException = true ∧ Trace.ends trace = ends) ?_ ?_ ?_ ?_ ?_ ?_
  · refine Txn.paths_mono (fun r writes trace left => ?_) (Txn.paths_piece (I := fun _ trace =>
      Trace.ends trace = ends) (K := fun _ => True) (T := fun e => e.isException = true) ?_
        (fun writes trace s answer more count _ admitted => ⟨by simpa using count, ?_⟩) count)
    · cases r with
      | ok value => exact left.1
      | error e => exact ⟨left.2 e rfl, left.1⟩
    · refine Prog.piece_bind (caught_execute _) fun event => ?_
      cases event with
      | none => exact Prog.piece_pure _
      | some event => exact caught_apply shipped event startedAt
    · rintro e rfl
      exact told admitted rfl
  · exact fun _ writes trace count => ⟨rfl, by simp [count]⟩
  · exact fun _ writes trace e count admitted => ⟨told admitted rfl, by simp [count]⟩
  · exact fun _ writes trace e count admitted => ⟨told admitted rfl, by simp [count]⟩
  · exact fun e trace raised => ⟨raised.1, by simp [raised.2]⟩
  · exact fun e e' writes trace raised admitted => ⟨told admitted rfl, by simp [raised.2]⟩

/-- A pass that takes harmless turns only returns, or raises what is `T`. -/
theorem paths_processEvent (shipped : svc.registry = Balance.registry) (harmless : Harmless A ends T)
    (mild : ∀ e, T e → e.isException = true) (count : trace.ends = ends)
    (outside : Trace.within ends trace = false) :
    (svc.processEvent eventId).paths A writes trace
      (Txn.Comes (fun _ writes trace => writes = [] ∧ ends < Trace.ends trace) fun e _ => T e) := by
  refine Txn.paths_next (fun e more admitted => ?_) fun startedAt more _ => ?_
  · rcases harmless.raises admitted rfl with ⟨within, -⟩ | kind
    · rw [outside] at within
      cases within
    · exact kind
  refine Txn.paths_andThen (Txn.paths_mono (fun r writes trace came => ?_)
    (paths_attempt shipped harmless mild (by simp [count]) startedAt))
  cases r with
  | ok result => exact came
  | error e =>
    obtain ⟨caught, later⟩ := came
    rw [Prog.onError_error, if_pos caught]
    exact paths_recordFailure harmless later e startedAt

end Paths

end WebhookReceiver
