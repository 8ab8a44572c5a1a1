import WebhookReceiver.AttemptLog
import WebhookReceiver.Audit
import WebhookReceiver.Txn.Terms

/-!
What a replay says of its own pass.

The record of a replay is made in a transaction of its own. Its outcome is what the pass
returned. The attempt that it names is looked up: the newest of the event, whoever made
it. So the outcome is the pass's own as long as the commit of the pass is not lost on the
replay, and the attempt is as long as the event has no newer one when the replay asks, and
none at all if its pass recorded none (`Distorts`).
-/

namespace WebhookReceiver

open Txn (Prog)

/-! ## What a replay has committed -/

/-- Everything that the call has committed. -/
def Trace.written (trace : Trace) : List Write :=
  trace.flatMap fun
    | .committed writes => writes
    | _ => []

/-- The call has asked for the newest attempt of an event. -/
def Trace.looked (trace : Trace) : Bool :=
  trace.any fun
    | .stmt (.latestAttemptId _) _ => true
    | _ => false

/-- The record says what the call has done until then. It names a success exactly if the call has
made the ledger entry of the event, and it points to the attempt that the call has recorded. -/
def Attributed (id : Nat) (request : ReplayRequest) (trace : Trace) : Prop :=
  (request.outcome = .succeeded ↔ id ∈ postedIn (Trace.written trace)) ∧
    (attemptsIn (Trace.written trace)).map (·.id) = request.resultingAttemptId.toList

section Traces

variable {trace : Trace} {writes more : List Write}

@[simp] theorem written_stmt {s : Stmt} {answer : Except Exc s.Answer} :
    Trace.written (trace ++ [.stmt s answer]) = Trace.written trace := by
  simp [Trace.written]

@[simp] theorem written_rolledBack : Trace.written (trace ++ [.rolledBack]) = Trace.written trace := by
  simp [Trace.written]

@[simp] theorem written_committed :
    Trace.written (trace ++ [.committed writes]) = Trace.written trace ++ writes := by
  simp [Trace.written]

theorem attemptsIn_append : attemptsIn (writes ++ more) = attemptsIn writes ++ attemptsIn more :=
  List.filterMap_append

theorem postedIn_append : postedIn (writes ++ more) = postedIn writes ++ postedIn more :=
  List.filterMap_append

end Traces

/-- A replay has made a ledger entry of the event or not, and has recorded so many attempts. It has
not asked for the newest one yet. -/
structure Standing (id : Nat) (posted : Prop) (attempts : Nat) (trace : Trace) : Prop where
  unasked : Trace.looked trace = false
  posted : id ∈ postedIn (Trace.written trace) ↔ posted
  attempts : (attemptsIn (Trace.written trace)).length = attempts

/-- What the open transaction of a pass is about to commit: a ledger entry of the event or not, and
attempts with these error classes. -/
structure Waiting (id : Nat) (posted : Prop) (classes : List (Option String)) (writes : List Write) : Prop where
  posted : id ∈ postedIn writes ↔ posted
  classes : (attemptsIn writes).map (·.errorClass) = classes
  unrecorded : recordsIn writes = []

section Standings

variable {id attempts : Nat} {posted posted' : Prop} {classes classes' : List (Option String)} {trace : Trace}
  {writes more : List Write}

theorem Standing.start : Standing id False 0 [] := ⟨rfl, by simp [Trace.written, postedIn], rfl⟩

theorem Standing.stmt {s : Stmt} {answer : Except Exc s.Answer} (standing : Standing id posted attempts trace)
    (other : ∀ eventId, s ≠ .latestAttemptId eventId) :
    Standing id posted attempts (trace ++ [.stmt s answer]) := by
  refine ⟨?_, by simpa using standing.posted, by simpa using standing.attempts⟩
  have unasked := standing.unasked
  simp only [Trace.looked, List.any_append, Bool.or_eq_false_iff] at unasked ⊢
  refine ⟨unasked, ?_⟩
  cases s with
  | latestAttemptId eventId => exact absurd rfl (other eventId)
  | _ => rfl

theorem Standing.rolledBack (standing : Standing id posted attempts trace) :
    Standing id posted attempts (trace ++ [.rolledBack]) := by
  refine ⟨?_, by simpa using standing.posted, by simpa using standing.attempts⟩
  simpa [Trace.looked] using standing.unasked

theorem Standing.committed (standing : Standing id posted attempts trace)
    (waiting : Waiting id posted' classes writes) :
    Standing id (posted ∨ posted') (attempts + classes.length) (trace ++ [.committed writes]) := by
  refine ⟨by simpa [Trace.looked] using standing.unasked, ?_, ?_⟩
  · rw [written_committed, postedIn_append, List.mem_append, standing.posted, waiting.posted]
  · rw [written_committed, attemptsIn_append, List.length_append, standing.attempts,
      ← waiting.classes, List.length_map]

theorem Waiting.none : Waiting id False [] [] := ⟨by simp [postedIn], rfl, rfl⟩

theorem Waiting.append (waiting : Waiting id posted classes writes)
    (waiting' : Waiting id posted' classes' more) :
    Waiting id (posted ∨ posted') (classes ++ classes') (writes ++ more) := by
  refine ⟨?_, ?_, ?_⟩
  · rw [postedIn_append, List.mem_append, waiting.posted, waiting'.posted]
  · rw [attemptsIn_append, List.map_append, waiting.classes, waiting'.classes]
  · have none := waiting.unrecorded
    have none' := waiting'.unrecorded
    simp only [recordsIn, List.filterMap_append] at none none' ⊢
    rw [none, none', List.append_nil]

end Standings

/-! ## Statements -/

/-- The statement makes no ledger entry, records neither an attempt nor a replay, and does not ask
for the newest attempt. -/
def Stmt.quiet : Stmt → Prop
  | .insertLedgerEntry .. | .insertAttempt _ | .insertReplayRequest _ | .latestAttemptId _ => False
  | _ => True

theorem Stmt.quiet.other {s : Stmt} (quiet : s.quiet) (eventId : Nat) : s ≠ .latestAttemptId eventId := by
  rintro rfl
  exact quiet

section Quiet

variable {s : Stmt} {a : s.Answer} {lesson : Lesson} {id : Nat} {posted : Prop} {classes : List (Option String)}
  {writes : List Write}

/-- What such a statement leaves pending is of no account here. -/
theorem quiet_writes (quiet : s.quiet) (taught : Teaches s a lesson) : Waiting id False [] lesson.writes := by
  have made := teaches_makes taught
  have unposted : postedIn lesson.writes = [] := List.filterMap_eq_nil_iff.mpr fun write member => by
    cases made write member with
    | insertLedger => exact quiet.elim
    | _ => rfl
  have unattempted : attemptsIn lesson.writes = [] := List.filterMap_eq_nil_iff.mpr fun write member => by
    cases made write member with
    | insertAttempt => exact quiet.elim
    | _ => rfl
  have unrecorded : recordsIn lesson.writes = [] := List.filterMap_eq_nil_iff.mpr fun write member => by
    cases made write member with
    | insertReplay => exact quiet.elim
    | _ => rfl
  exact ⟨by simp [unposted], by simp [unattempted], unrecorded⟩

theorem Waiting.quiet (waiting : Waiting id posted classes writes) (quiet : s.quiet)
    (taught : Teaches s a lesson) :
    Waiting id posted classes (writes ++ lesson.writes) := by
  simpa using waiting.append (quiet_writes quiet taught)

theorem quiet_of_prepares (prepares : s.prepares) : s.quiet := by
  cases s with
  | insertLedgerEntry => exact prepares.elim
  | insertAttempt attempt => exact prepares.elim
  | insertReplayRequest request => exact prepares.elim
  | latestAttemptId eventId => exact prepares.elim
  | _ => exact trivial

theorem quiet_of_onEntry (entry : s.onEntry) : s.quiet := by
  cases s with
  | insertLedgerEntry => exact entry.elim
  | insertAttempt attempt => exact entry.elim
  | insertReplayRequest request => exact entry.elim
  | latestAttemptId eventId => exact entry.elim
  | _ => exact trivial

end Quiet

/-! ## Terms -/

/-- What a replay of the event relies on: that the newest attempt of the event is the one of its own
pass, and that it is told of the commit of a pass that has dealt with the event. -/
def replayTerms (id : Nat) (call : Call) : Txn.Terms Write Stmt Stmt.Answer Exc where
  tells trace writes s a := call.replays id = true → match s, a with
    | .latestAttemptId eventId, resulting => eventId = id → writes = [] → Trace.looked trace = false →
      (attemptsIn (Trace.written trace)).length ≤ 1 →
      (attemptsIn (Trace.written trace)).map (·.id) = resulting.toList
    | _, _ => True
  loses _ writes := call.replays id = true → ∀ row ∈ attemptsIn writes, row.errorClass ≠ none

/-- What a replay is held to: it records no more than one attempt, and its record is truthful. -/
def Attributes (id : Nat) (call : Call) (trace : Trace) (writes : List Write) : Prop :=
  call.replays id = true →
    (attemptsIn (Trace.written trace ++ writes)).length ≤ 1 ∧
      ∀ request, .insertReplay request ∈ writes → Attributed id request trace

/-! ## Programs -/

section Programs

variable {svc : Service} {scope : Scope} {call : Call} {id attempts : Nat} {posted posted' : Prop}
  {classes : List (Option String)} {trace : Trace} {writes : List Write} {α β : Type}

/-- What the paths of a replay go through on its terms. -/
abbrev Service.under {α : Type} (svc : Service) (scope : Scope) (id : Nat) (call : Call) (program : Program α)
    (writes : List Write) (trace : Trace) (X : List Write → Trace → Prop) (P : α → List Write → Trace → Prop) :
    Prop :=
  (svc.discipline scope).under (replayTerms id call) (Attributes id call) program writes trace
    (Txn.Discipline.Leaves X P)

theorem under_sessionScope {body : Program α} {X Y : Trace → Prop} {P Q : α → List Write → Trace → Prop}
    (met : svc.under scope id call body writes trace (fun _ => X) P)
    (rolled : ∀ trace, X trace → Y (trace ++ [Txn.Ev.rolledBack]))
    (commits : ∀ value writes trace, P value writes trace →
      Attributes id call trace writes ∧ Q value [] (trace ++ [Txn.Ev.committed writes]) ∧
        ((replayTerms id call).loses trace writes → Y (trace ++ [Txn.Ev.committed writes])) ∧
        Y (trace ++ [Txn.Ev.rolledBack])) :
    svc.under scope id call (sessionScope body) writes trace (fun writes trace => writes = [] ∧ Y trace) Q := by
  refine Txn.Discipline.under_andThen (Txn.Discipline.under_mono (fun r writes trace left => ?_) met)
  cases r with
  | error e =>
    intro told
    cases told <;> exact ⟨rfl, rolled trace left⟩
  | ok value =>
    obtain ⟨ready, committed, lost, failed⟩ := commits value writes trace left
    exact ⟨ready, committed, fun loses _ => ⟨rfl, lost loses⟩, fun _ => ⟨rfl, failed⟩⟩

/-- The exceptions do not matter. -/
theorem under_anyhow {program : Program α} {X : List Write → Trace → Prop} {P : α → List Write → Trace → Prop}
    (met : svc.under scope id call program writes trace X P) :
    svc.under scope id call program writes trace (fun _ _ => True) P := by
  refine Txn.Discipline.under_mono ?_ met
  rintro (e | value) writes trace left
  · exact trivial
  · exact left

/-- A piece of a transaction that says nothing of the pass. -/
theorem under_quiet {body : Program α} (inner : body.Inner) (only : body.Only Stmt.quiet)
    (waiting : Waiting id posted classes writes) (standing : Standing id posted' attempts trace) :
    svc.under scope id call body writes trace (fun _ => Standing id posted' attempts) fun _ writes trace =>
      Waiting id posted classes writes ∧ Standing id posted' attempts trace :=
  Txn.Discipline.under_piece inner only (fun _ _ _ _ quiet taught waiting => waiting.quiet quiet taught)
    (fun _ _ _ quiet standing => standing.stmt quiet.other) waiting standing

theorem under_recordAttempt {eventId number : Nat} {startedAt finishedAt : Time} {outcome : AttemptOutcome}
    {errorClass errorDetail : Option String} (waiting : Waiting id posted [] writes)
    (standing : Standing id posted' attempts trace) :
    svc.under scope id call
      (Queue.recordAttempt eventId number startedAt finishedAt outcome errorClass errorDetail) writes trace
      (fun _ => Standing id posted' attempts) fun _ writes trace =>
      Waiting id posted [errorClass] writes ∧ Standing id posted' attempts trace := by
  refine Txn.Discipline.under_perform (fun e => standing.stmt (by simp)) ?_
  rintro a lesson ⟨-, attemptId, event, rfl⟩ -
  have recorded : Waiting id False [errorClass]
    [.insertAttempt ⟨⟨eventId, number, startedAt, finishedAt, outcome,
      errorClass, errorDetail, Queue.durationMs startedAt finishedAt⟩, attemptId⟩] :=
    ⟨by simp [postedIn], rfl, rfl⟩
  exact ⟨by simpa using waiting.append recorded, standing.stmt (by simp)⟩

/-! ### A pass -/

theorem quiet_nextAttemptNumber (eventId : Nat) : (Queue.nextAttemptNumber eventId).Only Stmt.quiet :=
  Prog.only_bind (Prog.only_perform trivial) fun _ => trivial

/-- The ledger row that a pass claims is its event's. -/
theorem under_claimLedgerRow {event : StoredEvent} (about : event.id = id) (account : Nat) (amount : Int)
    (waiting : Waiting id False [] writes) (standing : Standing id posted' attempts trace) :
    svc.under scope id call (Ledger.claimLedgerRow account event.id amount) writes trace
      (fun _ => Standing id posted' attempts) fun fresh writes trace =>
      Waiting id (fresh = true) [] writes ∧ Standing id posted' attempts trace := by
  refine Txn.Discipline.under_bind (P := fun ledgerId writes trace =>
    Waiting id (ledgerId.isSome = true) [] writes ∧ Standing id posted' attempts trace)
    (Txn.Discipline.under_perform (fun e => standing.stmt (by simp)) ?_) ?_
  · rintro (_ | ledgerId) lesson taught -
    · obtain ⟨-, rfl⟩ := taught
      exact ⟨by simpa using waiting, standing.stmt (by simp)⟩
    · obtain ⟨-, stored, externalRef, rfl⟩ := taught
      have claimed : Waiting id True [] [.insertLedger ⟨ledgerId, account, event.id, amount⟩] :=
        ⟨by simp [postedIn, about], rfl, rfl⟩
      exact ⟨by simpa using waiting.append claimed, standing.stmt (by simp)⟩
  · rintro ledgerId writes trace ⟨waiting, standing⟩
    exact ⟨waiting, standing⟩

theorem under_applyEffect {event : StoredEvent} (effect : Effect) (about : event.id = id)
    (waiting : Waiting id False [] writes) (standing : Standing id posted' attempts trace) :
    svc.under scope id call (Ledger.applyEffect event effect) writes trace
      (fun _ => Standing id posted' attempts)
      fun result writes trace =>
      Waiting id (result = .applied) [] writes ∧ Standing id posted' attempts trace := by
  have claimed : ∀ (account : Nat) (amount given : Int) (values : AccountState → AccountState)
      {writes : List Write} {trace : Trace}, Waiting id False [] writes → Standing id posted' attempts trace →
      svc.under scope id call
        (do if !(← Ledger.claimLedgerRow account event.id amount) then return .alreadyApplied
            execute (.updateAccount account given values)
            return EffectResult.applied) writes trace (fun _ => Standing id posted' attempts)
        fun result writes trace =>
        Waiting id (result = .applied) [] writes ∧ Standing id posted' attempts trace := by
    intro account amount given values writes trace waiting standing
    refine Txn.Discipline.under_bind (under_claimLedgerRow about account amount waiting standing) ?_
    rintro (_ | _) writes trace ⟨waiting, standing⟩
    · exact ⟨by simpa using waiting, standing⟩
    · refine Txn.Discipline.under_bind
        (under_quiet (fun _ => trivial) ⟨trivial, fun _ => trivial⟩ waiting standing) ?_
      rintro done writes trace ⟨waiting, standing⟩
      exact ⟨by simpa using waiting, standing⟩
  have account : ∀ externalRef, svc.under scope id call (Ledger.accountId externalRef) writes trace
      (fun _ => Standing id posted' attempts) fun _ writes trace =>
      Waiting id False [] writes ∧ Standing id posted' attempts trace := fun externalRef =>
    under_quiet (throws_accountId externalRef).inner
      ((only_accountId externalRef).mono fun _ => quiet_of_prepares)
      waiting standing
  cases effect with
  | credit effect =>
    refine Txn.Discipline.under_bind (account _) ?_
    exact fun account writes trace ⟨waiting, standing⟩ => claimed _ _ _ _ waiting standing
  | setBalance effect =>
    refine Txn.Discipline.under_bind (account _) ?_
    rintro account writes trace ⟨waiting, standing⟩
    refine Txn.Discipline.under_bind
      (under_quiet (fun _ => trivial) ⟨trivial, fun _ => trivial⟩ waiting standing) ?_
    rintro current writes trace ⟨waiting, standing⟩
    dsimp only
    split
    · exact ⟨by simpa using waiting, standing⟩
    · exact claimed _ _ _ _ waiting standing

/-- The replay answers that it succeeded exactly if the pass answered that it applied the effect. -/
theorem outcomeOf_dealt (outcome : AttemptOutcome) (result : EffectResult) :
    (outcomeOf ⟨some outcome, some result⟩).1 = .succeeded ↔ result = .applied := by
  cases result <;> simp [outcomeOf, ProcessResult.claimed]

theorem outcomeOf_failed {result : ProcessResult} (none : result.effect = none) :
    (outcomeOf result).1 ≠ .succeeded := by
  unfold outcomeOf
  split
  · simp
  · simp [none]

theorem under_apply {event : StoredEvent} (startedAt : Time) (about : event.id = id)
    (waiting : Waiting id False [] writes) (standing : Standing id posted' attempts trace) :
    svc.under scope id call (svc.apply event startedAt) writes trace (fun _ => Standing id posted' attempts)
      fun result writes trace =>
      Waiting id ((outcomeOf result).1 = .succeeded) [none] writes ∧ Standing id posted' attempts trace := by
  refine Txn.Discipline.under_bind (under_quiet (throws_nextAttemptNumber _).inner
    (quiet_nextAttemptNumber _) waiting standing) ?_
  rintro number writes trace ⟨waiting, standing⟩
  refine Txn.Discipline.under_bind (under_quiet (throws_lockEntity _ _ _ _).inner
    ((only_lockEntity _ _ _ _).mono fun _ => quiet_of_prepares) waiting standing) ?_
  rintro _ writes trace ⟨waiting, standing⟩
  refine Txn.Discipline.under_bind (under_quiet (Prog.throws_ofExcept (T := Retryable) _).inner trivial
    waiting standing) ?_
  rintro effect writes trace ⟨waiting, standing⟩
  refine Txn.Discipline.under_bind (under_applyEffect effect about waiting standing) ?_
  rintro result writes trace ⟨waiting, standing⟩
  refine Txn.Discipline.under_bind
    (under_quiet (fun _ => trivial) ⟨trivial, fun _ => trivial⟩ waiting standing) ?_
  rintro finishedAt writes trace ⟨waiting, standing⟩
  refine Txn.Discipline.under_bind (under_recordAttempt waiting standing) ?_
  rintro _ writes trace ⟨waiting, standing⟩
  refine Txn.Discipline.under_bind
    (under_quiet (fun _ => trivial) ⟨trivial, fun _ => trivial⟩ waiting standing) ?_
  rintro _ writes trace ⟨waiting, standing⟩
  exact ⟨⟨waiting.posted.trans (outcomeOf_dealt _ result).symm, waiting.classes, waiting.unrecorded⟩, standing⟩

theorem under_recordFailureOf (eventId : Nat) (event : StoredEvent) (exc : Exc) (startedAt : Time)
    (waiting : Waiting id False [] writes) (standing : Standing id posted' attempts trace) :
    svc.under scope id call (svc.recordFailureOf eventId event exc startedAt) writes trace
      (fun _ => Standing id posted' attempts) fun result writes trace =>
      result.effect = none ∧ Waiting id False [some exc.cls] writes ∧ Standing id posted' attempts trace := by
  refine Txn.Discipline.under_bind (under_quiet (throws_nextAttemptNumber _).inner
    (quiet_nextAttemptNumber _) waiting standing) ?_
  rintro number writes trace ⟨waiting, standing⟩
  refine Txn.Discipline.under_bind
    (under_quiet (fun _ => trivial) ⟨trivial, fun _ => trivial⟩ waiting standing) ?_
  rintro finishedAt writes trace ⟨waiting, standing⟩
  refine Txn.Discipline.under_bind (under_recordAttempt waiting standing) ?_
  rintro _ writes trace ⟨waiting, standing⟩
  dsimp only
  split
  · have dated := only_nextAttemptAt svc (P := Stmt.quiet) (fun _ _ => trivial) number finishedAt
    refine Txn.Discipline.under_bind
      (under_quiet (throws_nextAttemptAt svc _ _).inner dated waiting standing) ?_
    rintro due writes trace ⟨waiting, standing⟩
    refine Txn.Discipline.under_bind
      (under_quiet (fun _ => trivial) ⟨trivial, fun _ => trivial⟩ waiting standing) ?_
    exact fun _ writes trace left => ⟨rfl, left⟩
  · refine Txn.Discipline.under_bind (under_quiet (throws_deadLetter _ _ _).inner
      (Prog.only_bind (Prog.only_perform trivial) fun _ => Prog.only_perform trivial) waiting standing) ?_
    exact fun _ writes trace left => ⟨rfl, left⟩

theorem not_mem_of_unrecorded (unrecorded : recordsIn writes = []) (request : ReplayRequest) :
    .insertReplay request ∉ writes := by
  intro member
  have recorded : request.eventId ∈ recordsIn writes := List.mem_filterMap.mpr ⟨_, member, rfl⟩
  simp [unrecorded] at recorded

theorem attributes_of_waiting (standing : Standing id posted' attempts trace)
    (waiting : Waiting id posted classes writes)
    (few : attempts + classes.length ≤ 1) : Attributes id call trace writes := by
  intro _
  constructor
  · rw [attemptsIn_append, List.length_append, standing.attempts]
    rw [← waiting.classes, List.length_map] at few
    exact few
  · exact fun request member => absurd member (not_mem_of_unrecorded waiting.unrecorded request)

/-- The pass has ended with this result, and it has recorded no more than one attempt. -/
def HasPassed (id : Nat) (result : ProcessResult) (writes : List Write) (trace : Trace) : Prop :=
  writes = [] ∧ ∃ attempts ≤ 1, Standing id ((outcomeOf result).1 = .succeeded) attempts trace

theorem Standing.failed {result : ProcessResult} (standing : Standing id False attempts trace)
    (none : result.effect = none) :
    Standing id ((outcomeOf result).1 = .succeeded) attempts trace :=
  ⟨standing.unasked, standing.posted.trans (iff_of_false not_false (outcomeOf_failed none)), standing.attempts⟩

theorem under_recordFailure (exc : Exc) (startedAt : Time) (standing : Standing id False 0 trace) :
    svc.under scope id call (svc.recordFailure id exc startedAt) [] trace (fun _ _ => True) (HasPassed id) := by
  refine under_anyhow (under_sessionScope (X := Standing id False 0) (Y := fun _ => True)
    (P := fun result writes trace => result.effect = none ∧
      (∃ classes, classes.length ≤ 1 ∧ Waiting id False classes writes) ∧ Standing id False 0 trace) ?_ ?_ ?_)
  · refine Txn.Discipline.under_bind
      (under_quiet (fun _ => trivial) ⟨trivial, fun _ => trivial⟩ .none standing) ?_
    rintro (_ | event) writes trace ⟨waiting, standing⟩
    · exact ⟨rfl, ⟨[], Nat.zero_le _, waiting⟩, standing⟩
    · refine Txn.Discipline.under_mono ?_ (under_recordFailureOf id event exc startedAt waiting standing)
      rintro (e | result) writes trace left
      · exact left
      · exact ⟨left.1, ⟨_, Nat.le_refl _, left.2.1⟩, left.2.2⟩
  · exact fun _ _ => trivial
  · rintro result writes trace ⟨none, ⟨classes, few, waiting⟩, standing⟩
    have committed : Standing id False classes.length (trace ++ [.committed writes]) := by
      simpa using standing.committed waiting
    exact ⟨attributes_of_waiting standing waiting (by omega), ⟨rfl, _, few, committed.failed none⟩,
      fun _ => trivial, trivial⟩

/-- The transaction that deals with the event. When the call is told that it failed, it has
committed nothing. -/
theorem under_attempt (replays : call.replays id = true) (startedAt : Time)
    (standing : Standing id False 0 trace) :
    svc.under scope id call (svc.attempt id startedAt) [] trace
      (fun writes trace => writes = [] ∧ Standing id False 0 trace) (HasPassed id) := by
  refine under_sessionScope (X := Standing id False 0) (P := fun result writes trace =>
    (result = notClaimed ∧ Waiting id False [] writes ∨
      Waiting id ((outcomeOf result).1 = .succeeded) [none] writes) ∧ Standing id False 0 trace) ?_ ?_ ?_
  · refine Txn.Discipline.under_bind
      (P := fun event writes trace => (∀ found, event = some found → found.id = id) ∧
      Waiting id False [] writes ∧ Standing id False 0 trace)
      (Txn.Discipline.under_perform (fun e => standing.stmt (by simp)) ?_) ?_
    · intro event lesson taught _
      have waiting : Waiting id False [] ([] ++ lesson.writes) :=
        Waiting.none.quiet (s := .claim id startedAt) trivial taught
      refine ⟨?_, waiting, standing.stmt (by simp)⟩
      rintro found rfl
      obtain ⟨row, rfl, about, -⟩ := taught
      exact about
    · rintro (_ | event) writes trace ⟨about, waiting, standing⟩
      · exact ⟨Or.inl ⟨rfl, waiting⟩, standing⟩
      · refine Txn.Discipline.under_mono ?_ (under_apply startedAt (about event rfl) waiting standing)
        rintro (e | result) writes trace left
        · exact left
        · exact ⟨Or.inr left.1, left.2⟩
  · exact fun trace standing => standing.rolledBack
  · rintro result writes trace ⟨⟨rfl, waiting⟩ | waiting, standing⟩
    · have committed : Standing id False 0 (trace ++ [.committed writes]) := by
        simpa using standing.committed waiting
      exact ⟨attributes_of_waiting standing waiting (by simp), ⟨rfl, 0, Nat.zero_le _, committed.failed rfl⟩,
        fun _ => committed, standing.rolledBack⟩
    · have committed := standing.committed waiting
      refine ⟨attributes_of_waiting standing waiting (by simp),
        ⟨rfl, 1, Nat.le_refl _, by simpa using committed⟩, ?_,
        standing.rolledBack⟩
      intro loses
      obtain ⟨row, member, dealt⟩ := List.mem_map.mp (waiting.classes ▸ List.mem_singleton_self none)
      exact absurd dealt (loses replays row member)

theorem under_processEvent (replays : call.replays id = true) (standing : Standing id False 0 trace) :
    svc.under scope id call (svc.processEvent id) [] trace (fun _ _ => True) (HasPassed id) := by
  refine Txn.Discipline.under_bind (P := fun _ writes trace => writes = [] ∧ Standing id False 0 trace)
    (Txn.Discipline.under_perform (fun e => trivial) ?_) ?_
  · rintro now lesson rfl -
    exact ⟨rfl, standing.stmt (by simp)⟩
  · rintro startedAt _ trace ⟨rfl, standing⟩
    refine Txn.Discipline.under_andThen
      (Txn.Discipline.under_mono ?_ (under_attempt replays startedAt standing))
    rintro (e | result) writes trace left
    · obtain ⟨rfl, standing⟩ := left
      rw [Prog.onError_error]
      split
      · exact under_recordFailure e startedAt standing
      · exact trivial
    · exact left

/-! ### A replay -/

theorem quiet_markDlqReplaying (now : Time) : (markDlqReplaying id now).Only Stmt.quiet := by
  refine Prog.only_bind (Prog.only_perform trivial) fun entry => ?_
  cases entry with
  | none => exact trivial
  | some entry =>
    dsimp only
    split
    · exact trivial
    · exact Prog.only_bind ((only_transition _ _ _ _).mono fun _ => quiet_of_onEntry) fun _ => trivial

theorem under_startReplay (now : Time) (standing : Standing id False 0 trace) :
    svc.under scope id call (startReplay id now) [] trace (fun _ _ => True)
      fun _ writes trace => writes = [] ∧ Standing id False 0 trace := by
  refine under_anyhow (under_sessionScope (X := Standing id False 0) (Y := fun _ => True)
    (P := fun _ writes trace => Waiting id False [] writes ∧ Standing id False 0 trace) ?_ ?_ ?_)
  · refine Txn.Discipline.under_bind
      (under_quiet (fun _ => trivial) ⟨trivial, fun _ => trivial⟩ .none standing) ?_
    rintro (_ | event) writes trace ⟨waiting, standing⟩
    · exact standing
    · refine Txn.Discipline.under_bind
        (under_quiet (fun _ => trivial) ⟨trivial, fun _ => trivial⟩ waiting standing) ?_
      rintro _ writes trace ⟨waiting, standing⟩
      exact under_quiet (throws_markDlqReplaying _ _).inner (quiet_markDlqReplaying now) waiting standing
  · exact fun _ _ => trivial
  · rintro _ writes trace ⟨waiting, standing⟩
    exact ⟨attributes_of_waiting standing waiting (by simp), ⟨rfl, by simpa using standing.committed waiting⟩,
      fun _ => trivial, trivial⟩

/-- The open transaction records the replay by this request, and no attempt. -/
def RecordsOnly (request : ReplayRequest) (writes : List Write) : Prop :=
  attemptsIn writes = [] ∧ ∀ other, .insertReplay other ∈ writes → other = request

/-- The last transaction records what the pass has returned and what the replay is answered. -/
theorem under_finishReplay (replays : call.replays id = true) {result : ProcessResult}
    (passed : HasPassed id result writes trace) (requestedBy : String) (reason : Option String) (now : Time) :
    svc.under scope id call (finishReplay id requestedBy reason now (outcomeOf result).1) writes trace
      (fun _ _ => True) fun _ _ _ => True := by
  obtain ⟨rfl, attempts, few, standing⟩ := passed
  let request (resulting : Option Nat) : ReplayRequest :=
    ⟨id, requestedBy, now, reason, (outcomeOf result).1, resulting⟩
  let known (resulting : Option Nat) (trace : Trace) : Prop :=
    (attemptsIn (Trace.written trace)).length ≤ 1 ∧ Attributed id (request resulting) trace
  have seen : ∀ {resulting : Option Nat} {trace : Trace} {s : Stmt} {answer : Except Exc s.Answer},
      known resulting trace → known resulting (trace ++ [.stmt s answer]) := by
    rintro resulting trace s answer ⟨few, attributed⟩
    simpa only [known, Attributed, written_stmt] using And.intro few attributed
  refine under_anyhow (under_sessionScope (X := fun _ => True) (Y := fun _ => True)
    (P := fun _ writes trace => ∃ resulting, RecordsOnly (request resulting) writes ∧
      known resulting trace) ?_ ?_ ?_)
  · refine Txn.Discipline.under_bind (P := fun resulting writes trace => writes = [] ∧ known resulting trace)
      (Txn.Discipline.under_perform (fun e => trivial) ?_) ?_
    · rintro resulting lesson rfl told
      have few : (attemptsIn (Trace.written trace)).length ≤ 1 := standing.attempts ▸ few
      exact ⟨rfl, seen ⟨few, standing.posted.symm, told replays rfl rfl standing.unasked few⟩⟩
    · rintro resulting _ trace ⟨rfl, holds⟩
      refine Txn.Discipline.under_bind (P := fun _ writes trace =>
        RecordsOnly (request resulting) writes ∧ known resulting trace)
        (Txn.Discipline.under_perform (fun e => trivial) ?_) ?_
      · rintro _ lesson ⟨event, locks, rfl⟩ -
        exact ⟨⟨rfl, by simp [request]⟩, seen holds⟩
      · rintro _ writes trace ⟨records, holds⟩
        have settles : (do settleDlq id (outcomeOf result).1 (← execute .now) : Program Unit).Only Stmt.quiet :=
          Prog.only_bind (Prog.only_perform trivial) fun now =>
            (only_settleDlq _ _ _).mono fun _ => quiet_of_onEntry
        have inner : (do settleDlq id (outcomeOf result).1 (← execute .now) : Program Unit).Inner :=
          (Prog.throws_bind (throws_execute .now) fun now => throws_settleDlq _ _ _).inner
        refine Txn.Discipline.under_mono ?_ (Txn.Discipline.under_piece (J := RecordsOnly (request resulting))
          (I := known resulting) inner settles ?_ (fun _ _ _ _ => seen) records holds)
        · rintro (e | done) writes trace left
          · exact trivial
          · exact ⟨resulting, left⟩
        · rintro writes s a lesson quiet taught ⟨unattempted, only⟩
          have more : Waiting id False [] lesson.writes := quiet_writes quiet taught
          refine ⟨?_, fun other member => ?_⟩
          · rw [attemptsIn_append, unattempted, List.map_eq_nil_iff.mp more.classes, List.append_nil]
          · rcases List.mem_append.mp member with old | new
            · exact only other old
            · exact absurd new (not_mem_of_unrecorded more.unrecorded other)
  · exact fun _ _ => trivial
  · rintro _ writes trace ⟨resulting, ⟨unattempted, only⟩, few, attributed⟩
    refine ⟨fun _ => ⟨?_, fun other member => only other member ▸ attributed⟩, trivial,
      fun _ => trivial, trivial⟩
    rw [attemptsIn_append, unattempted, List.append_nil]
    exact few

variable (svc scope id) in
/-- On its terms every replay of the event attributes to itself what it has done. -/
theorem under_program (call : Call) : (svc.discipline scope).under (replayTerms id call) (Attributes id call)
    (svc.program call) [] [] fun _ _ _ => True := by
  by_cases replays : call.replays id = true
  · cases call with
    | replay eventId requestedBy reason =>
      obtain rfl : eventId = id := of_decide_eq_true replays
      have whole : svc.under scope eventId (.replay eventId requestedBy reason)
          (svc.replayEvent eventId requestedBy reason) [] [] (fun _ _ => True) fun _ _ _ => True := by
        refine Txn.Discipline.under_bind (P := fun _ writes trace => writes = [] ∧
          Standing eventId False 0 trace)
          (Txn.Discipline.under_perform (fun e => trivial) ?_) ?_
        · rintro now lesson rfl -
          exact ⟨rfl, Standing.start.stmt (by simp)⟩
        · rintro now _ trace ⟨rfl, standing⟩
          refine Txn.Discipline.under_bind (under_startReplay now standing) ?_
          rintro _ _ trace ⟨rfl, standing⟩
          refine Txn.Discipline.under_bind (under_processEvent replays standing) ?_
          rintro result writes trace passed
          refine Txn.Discipline.under_bind (under_finishReplay replays passed requestedBy reason now) ?_
          exact fun _ _ _ _ => trivial
      refine Txn.Discipline.under_andThen (Txn.Discipline.under_mono ?_ whole)
      rintro (e | result) writes trace - <;> exact trivial
    | _ => cases replays
  · exact Txn.Discipline.under_free fun trace writes own => absurd own replays

end Programs

/-! ## Runs -/

/-- The pass of the replay has recorded an attempt, and the replay has yet to ask for the newest. -/
def Awaits (id : Nat) (th : Thread) : Prop :=
  th.call.replays id = true ∧ th.prog.isDone = false ∧ Trace.looked th.trace = false ∧
    attemptsIn (Trace.written th.trace) ≠ []

instance (id : Nat) (th : Thread) : Decidable (Awaits id th) := inferInstanceAs (Decidable (_ ∧ _))

/-- A step that makes the record of a replay of the event say something else than what its pass did. -/
inductive Distorts (id : Nat) (w : World) : Action → Prop where
  /-- Its pass deals with the event, and the replay is told that the commit failed. -/
  | unacknowledged {t : Txn.Tid} {e : Exc} {th : Thread} {row : AttemptRow} (here : w.threads t = some th)
      (replay : th.call.replays id = true) (recorded : row ∈ attemptsIn th.writes)
      (dealt : row.errorClass = none) : Distorts id w (.lost t e)
  /-- Between its pass and its question another call records an attempt of the event. -/
  | overtaken {action : Action} {t u : Txn.Tid} {th other : Thread} {next : Except Exc Unit → Program Outcome}
      {row : AttemptRow} (takesEffect : (∃ input, action = .run u input) ∨ ∃ e, action = .lost u e)
      (here : w.threads u = some th) (commits : th.prog = .commit next) (recorded : row ∈ attemptsIn th.writes)
      (about : row.eventId = id) (apart : t ≠ u) (there : w.threads t = some other) (awaits : Awaits id other) :
      Distorts id w action
  /-- Its pass has recorded nothing, and the event has an attempt when the replay asks. -/
  | foreign {t : Txn.Tid} {input : Input} {th : Thread}
      {next : Except Exc (Option Nat) → Program Outcome} {row : AttemptRow} (here : w.threads t = some th)
      (replay : th.call.replays id = true) (asks : th.prog = .stmt (.latestAttemptId id) next)
      (unasked : Trace.looked th.trace = false) (none : attemptsIn (Trace.written th.trace) = [])
      (member : row ∈ w.db.attempts) (about : row.eventId = id) : Distorts id w (.run t input)

/-- The runs without retention in which no step distorts the record of a replay of the event. -/
def Service.Undistorted (svc : Service) (id : Nat) : World → Prop :=
  Txn.Reach svc.system (fun w action => Scope.withoutPurge.permits action ∧ ¬ Distorts id w action)
    (.init Db.empty)

/-- What is known of the newest attempts. -/
structure Newest (id : Nat) (w : World) : Prop where
  /-- An attempt that waits to be committed is newer than those of its event that are there. -/
  pending : ∀ t th row, w.threads t = some th → row ∈ attemptsIn th.writes →
    ∀ other ∈ w.db.attempts, other.eventId = row.eventId → other.id < row.id
  /-- The attempt of a replay stays the newest of the event until the replay has asked. -/
  leading : ∀ t th row, w.threads t = some th → th.call.replays id = true → th.prog.isDone = false →
    Trace.looked th.trace = false → row ∈ attemptsIn (Trace.written th.trace) →
      row.eventId = id ∧ row ∈ w.db.attempts ∧ ∀ other ∈ w.db.attempts, other.eventId = id → other.id ≤ row.id

section Runs

variable {svc : Service} {id : Nat} {w w' : World} {action : Action}

theorem Service.Undistorted.reaches (undistorted : svc.Undistorted id w) :
    svc.Reaches .withoutPurge (.init Db.empty) w :=
  undistorted.mono fun _ _ allowed => allowed.1

theorem Service.Undistorted.permitted (undistorted : svc.Undistorted id w) :
    Txn.Reach svc.system (fun _ action => (svc.discipline .withoutPurge).Permits action)
      (.init Db.empty) w := by
  refine undistorted.mono fun w action allowed => ?_
  cases action <;> exact allowed.1

theorem looked_mono {trace : Trace} {ev : Txn.Ev Write Stmt Stmt.Answer Exc}
    (unasked : Trace.looked (trace ++ [ev]) = false) : Trace.looked trace = false := by
  simp only [Trace.looked, List.any_append, Bool.or_eq_false_iff] at unasked
  exact unasked.1

/-- One thread goes on without a commit, and the attempts stay. -/
theorem Newest.moved (newest : Newest id w) {t : Txn.Tid} {thread : Option Thread} {db : Db}
    {held : Txn.LockTable Lock} {log : List Commit} (same : db.attempts = w.db.attempts)
    (pending : ∀ th row, thread = some th → row ∈ attemptsIn th.writes → ∀ other ∈ w.db.attempts,
      other.eventId = row.eventId → other.id < row.id)
    (leading : ∀ th, thread = some th → (∃ old, w.threads t = some old ∧ th.call = old.call ∧
      old.prog.isDone = false ∧ (Trace.looked th.trace = false → Trace.looked old.trace = false) ∧
      Trace.written th.trace = Trace.written old.trace) ∨ Trace.written th.trace = []) :
    Newest id ⟨db, held, Function.update w.threads t thread, log⟩ := by
  constructor
  · intro u th row here waits other member about
    rw [same] at member
    by_cases own : u = t
    · subst own
      exact pending th row (by simpa using here) waits other member about
    · exact newest.pending u th row (by simpa [own] using here) waits other member about
  · intro u th row here replays going unasked recorded
    rw [same]
    by_cases own : u = t
    · subst own
      rcases leading th (by simpa using here) with ⟨old, there, call, went, asked, written⟩ | none
      · exact newest.leading u old row there (call ▸ replays) went (asked unasked) (written ▸ recorded)
      · simp [none, attemptsIn] at recorded
    · exact newest.leading u th row (by simpa [own] using here) replays going unasked recorded

/-- An attempt gets the next id of the sequence. -/
theorem exec_attemptId {s : Stmt} {avail : Lock → Txn.Mode → Bool} {input : Input} {view : Db}
    {reply : Txn.Reply Write Lock Exc s.Answer} (ran : s.exec avail input view = some reply) {row : AttemptRow}
    (recorded : row ∈ attemptsIn reply.writes) : row.id = view.seq .attempt := by
  obtain ⟨write, member, same⟩ := List.mem_filterMap.mp recorded
  obtain rfl : write = .insertAttempt row := by
    cases write with
    | insertAttempt other => exact congrArg _ (Option.some.inj same)
    | _ => cases same
  obtain ⟨attempt, rfl, -⟩ := (exec_shape ran).2 row member
  rcases insertUnder_some ran with ⟨-, rfl⟩ | ⟨-, e, -, rfl⟩ | ⟨-, -, rfl⟩
  · cases member
  · cases member
  · cases List.mem_singleton.mp member
    rfl

/-- Who records an attempt makes a pass over its event, and writes the event as well. -/
theorem Committed.attempt_of {call : Call} {trace : Trace} {db : Db} {writes : List Write} {scope : Scope}
    (committed : Committed svc scope call trace db writes) {row : AttemptRow}
    (recorded : row ∈ attemptsIn writes) :
    call.passesOver row.eventId = true ∧ ∃ queue, .updateEvent row.eventId queue ∈ writes := by
  have silent : attemptsIn writes = [] → call.passesOver row.eventId = true ∧
      ∃ queue, .updateEvent row.eventId queue ∈ writes := by
    intro none
    simp [none] at recorded
  cases committed with
  | idle => exact silent rfl
  | dealt passing done =>
    obtain ⟨attempt, only, about, -⟩ := done.attempt
    rw [only, List.mem_singleton] at recorded
    subst recorded
    subst about
    refine ⟨passing, ?_⟩
    cases done with
    | mk => exact ⟨_, List.mem_append_right _ (List.mem_cons_of_mem _ (List.mem_singleton_self _))⟩
  | failed passing done =>
    obtain ⟨attempt, only, about, -⟩ := done.attempt
    rw [only, List.mem_singleton] at recorded
    subst recorded
    subst about
    refine ⟨passing, ?_⟩
    cases done with
    | mk found next outcome recorded judged =>
      rw [← event?_id found]
      cases judged <;> exact ⟨_, List.mem_cons_of_mem _ List.mem_cons_self⟩
  | started replay done => exact silent done.silent.1
  | finished replay done => exact silent done.silent.1
  | moved triage named done => exact silent done.silent.1
  | stored stores answered done => cases done <;> exact silent rfl
  | purged purge done => exact silent (purges_silent done)

theorem passesOver_of_replays {call : Call} (replays : call.replays id = true) : call.passesOver id = true := by
  cases call with
  | replay eventId requestedBy reason => exact replays
  | _ => cases replays

/-- Two transactions in progress that record attempts of one event are the same. -/
theorem attempts_apart (undistorted : svc.Undistorted id w) {t u : Txn.Tid} {th other : Thread}
    (here : w.threads t = some th) (there : w.threads u = some other) {row row' : AttemptRow}
    {queue : EventQueue}
    (updates : .updateEvent row.eventId queue ∈ th.writes) (recorded : row' ∈ attemptsIn other.writes)
    (same : row'.eventId = row.eventId) : u = t := by
  have permitted := undistorted.permitted
  obtain ⟨locks, owned, licence⟩ := (verified svc .withoutPurge).holding wf_empty permitted here
  obtain ⟨locks', owned', licence'⟩ := (verified svc .withoutPurge).holding wf_empty permitted there
  obtain ⟨db, excl⟩ := licence.mem updates
  obtain ⟨write, member, found⟩ := List.mem_filterMap.mp recorded
  obtain rfl : write = .insertAttempt row' := by
    cases write with
    | insertAttempt attempt => exact congrArg _ (Option.some.inj found)
    | _ => cases found
  obtain ⟨db', ⟨mode, held⟩, -⟩ := licence'.mem member
  exact (verified svc .withoutPurge).exclusive wf_empty permitted _ _ _ _ (owned _ _ excl)
    (owned' _ _ (same ▸ held))

/-- A transaction that commits. -/
theorem Newest.conclude (newest : Newest id w) (undistorted : svc.Undistorted id w)
    (spared : ¬ Distorts id w action) {t : Txn.Tid} {th : Thread} (here : w.threads t = some th)
    {next : Except Exc Unit → Program Outcome} (shape : th.prog = .commit next) {told : Except Exc Unit}
    (takesEffect : (∃ input, action = .run t input) ∨ ∃ e, action = .lost t e)
    (called : th.call.isPurge = false)
    (committed : Committed svc .withoutPurge th.call th.trace w.db th.writes)
    (attributes : Attributes id th.call th.trace th.writes) :
    Newest id (w.conclude svc.system t th (next told)) := by
  have grown : (svc.system.applyAll th.writes w.db).attempts = w.db.attempts ++ attemptsIn th.writes :=
    committed.attempts_eq called
  constructor
  · intro u other row there waits late member about
    by_cases own : u = t
    · subst own
      simp only [Txn.World.conclude, Function.update_self, Option.some.injEq] at there
      subst there
      cases waits
    · have before : w.threads u = some other := (Function.update_of_ne own _ _).symm.trans there
      rcases List.mem_append.mp (grown ▸ member) with old | new
      · exact newest.pending u other row before waits late old about
      · obtain ⟨-, queue, updates⟩ := committed.attempt_of new
        exact absurd (attempts_apart undistorted here before updates waits about.symm) own
  · intro u other row there replays going unasked recorded
    show row.eventId = id ∧ row ∈ (svc.system.applyAll th.writes w.db).attempts ∧
      ∀ late ∈ (svc.system.applyAll th.writes w.db).attempts, late.eventId = id → late.id ≤ row.id
    rw [grown]
    by_cases own : u = t
    · subst own
      simp only [Txn.World.conclude, Function.update_self, Option.some.injEq] at there
      subst there
      have few := (attributes replays).1
      rw [attemptsIn_append, List.length_append] at few
      rw [written_committed, attemptsIn_append] at recorded
      rcases List.mem_append.mp recorded with old | new
      · have none : attemptsIn th.writes = [] := by
          apply List.length_eq_zero_iff.mp
          have one := List.length_pos_of_mem old
          omega
        rw [none, List.append_nil]
        exact newest.leading u th row here replays (by rw [shape]; rfl) (looked_mono unasked) old
      · obtain ⟨passing, -⟩ := committed.attempt_of new
        have about : row.eventId = id := passesOver_unique passing (passesOver_of_replays replays)
        refine ⟨about, List.mem_append_right _ new, fun other member same => ?_⟩
        rcases List.mem_append.mp member with old | newer
        · exact (newest.pending u th row here new other old (same.trans about.symm)).le
        · rcases committed.attempts with ⟨silent, -⟩ | ⟨attempt, only, -⟩
          · simp [silent] at new
          · rw [only, List.mem_singleton] at new newer
            rw [new, newer]
    · have before : w.threads u = some other := (Function.update_of_ne own _ _).symm.trans there
      obtain ⟨about, member, first⟩ := newest.leading u other row before replays going unasked recorded
      refine ⟨about, List.mem_append_left _ member, fun late member about => ?_⟩
      rcases List.mem_append.mp member with old | new
      · exact first late old about
      · have some : attemptsIn (Trace.written other.trace) ≠ [] := List.ne_nil_of_mem recorded
        exact absurd (.overtaken takesEffect here shape new about own before
          ⟨replays, going, unasked, some⟩) spared

theorem Newest.step (newest : Newest id w) (undistorted : svc.Undistorted id w)
    (spared : ¬ Distorts id w action) (stepped : Txn.step svc.system w action = some w')
    (described : ∀ entry ∈ w'.log, entry.call.isPurge = false ∧
      Committed svc .withoutPurge entry.call entry.trace entry.before entry.writes ∧
      Attributes id entry.call entry.trace entry.writes) : Newest id w' := by
  cases Txn.step_cases stepped with
  | @spawned t call =>
    refine newest.moved rfl ?_ ?_
    · rintro _ row ⟨⟩ waits
      cases waits
    · rintro _ ⟨⟩
      exact Or.inr rfl
  | @answered t input th s next reply here shape ran free =>
    obtain ⟨seq, drawn⟩ := exec_sameRows ran w.db
    have same : (svc.system.applyAll reply.instant w.db).attempts = w.db.attempts :=
      congrArg (·.attempts) (show svc.system.applyAll reply.instant w.db = { w.db with seq := seq } from drawn)
    refine newest.moved same ?_ ?_
    · rintro _ row ⟨⟩ waits other member about
      rcases List.mem_append.mp (attemptsIn_append ▸ waits) with old | new
      · exact newest.pending t th row here old other member about
      · have good := (reaches_history wf_empty undistorted.reaches).1
        rw [exec_attemptId ran new]
        exact (good.attemptDrawn other member).trans_le (seq_le_after th.writes w.db .attempt)
    · rintro _ ⟨⟩
      exact Or.inl ⟨th, here, rfl, by rw [shape]; rfl, looked_mono, written_stmt⟩
  | @refused t e th s next here shape =>
    refine newest.moved rfl ?_ ?_
    · rintro _ row ⟨⟩ waits other member about
      exact newest.pending t th row here waits other member about
    · rintro _ ⟨⟩
      exact Or.inl ⟨th, here, rfl, by rw [shape]; rfl, looked_mono, written_stmt⟩
  | @concluded action t th next told here shape how =>
    obtain ⟨called, committed, attributes⟩ :=
      described ⟨t, th.call, th.trace, w.db, th.writes⟩ (List.mem_append_right _ (List.mem_singleton_self _))
    refine newest.conclude undistorted spared here shape ?_ called committed attributes
    exact how.imp (·.1) fun ⟨e, lost, _⟩ => ⟨e, lost⟩
  | @rolledBack action t th next told here shape how =>
    refine newest.moved rfl ?_ ?_
    · rintro _ row ⟨⟩ waits
      cases waits
    · rintro _ ⟨⟩
      exact Or.inl ⟨th, here, rfl, by rw [shape]; rfl, looked_mono, written_rolledBack⟩
  | @uncommitted t e th next here shape =>
    refine newest.moved rfl ?_ ?_
    · rintro _ row ⟨⟩ waits
      cases waits
    · rintro _ ⟨⟩
      exact Or.inl ⟨th, here, rfl, by rw [shape]; rfl, looked_mono, written_rolledBack⟩
  | killed =>
    refine newest.moved rfl ?_ ?_
    · rintro _ row ⟨⟩
    · rintro _ ⟨⟩

/-- What does not distort the record keeps the terms of the replay. -/
theorem keeps_of_spared (newest : Newest id w) (spared : ¬ Distorts id w action) :
    Txn.Discipline.Keeps svc.system (replayTerms id) w action := by
  cases action with
  | run t input =>
    intro th s next reply a here shape ran answered replays
    cases s with
    | latestAttemptId eventId =>
      rintro rfl none unasked few
      have told : ((w.db.attemptsOf eventId).map (·.id)).max? = a := by
        rw [none] at ran
        cases ran
        exact Except.ok.inj answered
      cases own : attemptsIn (Trace.written th.trace) with
      | nil =>
        have absent : w.db.attemptsOf eventId = [] := List.filter_eq_nil_iff.mpr fun row member about =>
          spared (.foreign here replays shape unasked own member (of_decide_eq_true about))
        simp [absent] at told
        simp [← told]
      | cons row rest =>
        obtain rfl : rest = [] := List.length_eq_zero_iff.mp (by simp [own] at few; simp [few])
        obtain ⟨about, member, first⟩ := newest.leading t th row here replays (by rw [shape]; rfl)
          unasked (by simp [own])
        have highest : ((w.db.attemptsOf eventId).map (·.id)).max? = some row.id := by
          refine List.max?_eq_some_iff.mpr ⟨List.mem_map_of_mem ?_, ?_⟩
          · exact List.mem_filter.mpr ⟨member, decide_eq_true about⟩
          · rintro _ found
            obtain ⟨other, kept, rfl⟩ := List.mem_map.mp found
            obtain ⟨old, same⟩ := List.mem_filter.mp kept
            exact first other old (of_decide_eq_true same)
        rw [← told, highest]
        rfl
    | _ => exact trivial
  | lost t e =>
    intro th here replays row recorded dealt
    exact spared (.unacknowledged here replays recorded dealt)
  | _ => exact trivial

variable (svc id) in
/-- What is known of every state that such a run reaches. -/
theorem undistorted_known (undistorted : svc.Undistorted id w) :
    Newest id w ∧ (svc.discipline .withoutPurge).Bound (replayTerms id) (Attributes id) w := by
  induction undistorted with
  | start =>
    refine ⟨⟨?_, ?_⟩, ⟨?_, ?_⟩⟩ <;> simp [Txn.World.init]
  | @next w w' action before allowed stepped ih =>
    obtain ⟨newest, bound⟩ := ih
    have undistorted : svc.Undistorted id w := before
    have bound' := bound.step (verified svc .withoutPurge) wf_empty undistorted.permitted
      (under_program svc .withoutPurge id) (keeps_of_spared newest allowed.2) stepped
    refine ⟨newest.step undistorted allowed.2 stepped fun entry member => ?_, bound'⟩
    have after : svc.Undistorted id w' := before.next allowed stepped
    obtain ⟨-, past⟩ := reaches_history wf_empty after.reaches
    obtain ⟨_, _, -, -, -, called, described, -⟩ := past.at member
    exact ⟨called, described.cases, bound'.log entry member⟩

/-- Every record in the table was made by the last transaction of a replay of its event. -/
theorem recorded_in_log (reached : svc.Reaches .withoutPurge (.init Db.empty) w) :
    ∀ request ∈ w.db.replays, ∃ entry ∈ w.log,
      entry.call.replays request.eventId = true ∧ Write.insertReplay request ∈ entry.writes := by
  obtain ⟨-, past⟩ := reaches_history wf_empty reached
  refine past.along (P := fun log db => ∀ request ∈ db.replays, ∃ entry ∈ log,
    entry.call.replays request.eventId = true ∧ Write.insertReplay request ∈ entry.writes) (by simp [Db.empty])
    (fun _ holds => holds) ?_ ?_
  · rintro log db ids ⟨olderThan, called⟩
    cases called
  · intro log entry _ _ called committed known request member
    have earlier : request ∈ entry.before.replays → ∃ other ∈ log ++ [entry],
        other.call.replays request.eventId = true ∧ Write.insertReplay request ∈ other.writes := by
      intro old
      obtain ⟨other, before, made⟩ := known request old
      exact ⟨other, List.mem_append_left _ before, made⟩
    rcases committed.onReplays called with silent | ⟨made, settled, writes, replays, -, silent⟩
    · exact earlier ((replays_after silent entry.before).2 ▸ member)
    · rw [writes, Db.after_cons, (replays_after silent _).2] at member
      rcases List.mem_append.mp member with old | new
      · exact earlier old
      · rw [List.mem_singleton.mp new]
        exact ⟨entry, List.mem_append_right _ (List.mem_singleton_self _), replays, writes ▸ List.mem_cons_self⟩

/-- In every run in which the commit of a pass is not lost on its replay, nobody else records an
attempt of the event between the pass of a replay and its question for the newest one, and no
replay whose pass has recorded nothing asks while the event has an attempt, every record of a
replay of the event says what that replay did. -/
theorem replay_records_truthful (svc : Service) (id : Nat) {w : World} (undistorted : svc.Undistorted id w) :
    ∀ request ∈ w.db.replays, request.eventId = id → ∃ entry ∈ w.log, entry.call.replays id = true ∧
      Write.insertReplay request ∈ entry.writes ∧ Attributed id request entry.trace := by
  rintro request member rfl
  obtain ⟨entry, committed, replays, made⟩ := recorded_in_log undistorted.reaches request member
  obtain ⟨-, bound⟩ := undistorted_known svc request.eventId undistorted
  exact ⟨entry, committed, replays, made, (bound.log entry committed replays).2 request made⟩

/-! ## Schedules -/

instance (id : Nat) (request : ReplayRequest) (trace : Trace) : Decidable (Attributed id request trace) :=
  inferInstanceAs (Decidable (_ ∧ _))

/-- The thread is about to record an attempt of the event, and some replay has yet to ask. -/
def overtakes (count id : Nat) (w : World) (u : Txn.Tid) : Bool :=
  (w.threads u).any (fun th => (attemptsIn th.writes).any fun row => row.eventId = id) &&
    (List.range count).any fun t => (w.threads t).any fun other => Awaits id other

/-- The thread is a replay that has recorded nothing, and the event has an attempt. -/
def borrows (id : Nat) (w : World) (t : Txn.Tid) : Bool :=
  (w.threads t).any (fun th => th.call.replays id && (attemptsIn (Trace.written th.trace)).isEmpty &&
    match th.prog with
    | .stmt (.latestAttemptId _) _ => true
    | _ => false) && w.db.attempts.any fun row => row.eventId = id

/-- No commit is lost, nobody is overtaken and nothing is borrowed. -/
def spares (count id : Nat) (w : World) : Action → Bool
  | .run t _ => !overtakes count id w t && !borrows id w t
  | .lost _ _ => false
  | _ => true

/-- Run a schedule, as long as each of its steps spares the record. -/
def Service.runUndistorted (svc : Service) (count id : Nat) (w : World) : List Action → Option World
  | [] => some w
  | action :: rest =>
    if spares count id w action then
      (Txn.step svc.system w action).bind fun w' => svc.runUndistorted count id w' rest
    else none

theorem not_distorts {count : Nat} (absent : ∀ t, count ≤ t → w.threads t = none)
    (sparing : spares count id w action = true) : ¬ Distorts id w action := by
  intro distorts
  cases distorts with
  | unacknowledged => cases sparing
  | @overtaken action t u th other next row takesEffect here commits recorded about apart there awaits =>
    obtain ⟨input, rfl⟩ | ⟨e, rfl⟩ := takesEffect
    · have few : t < count := by
        by_contra high
        rw [absent t (not_lt.mp high)] at there
        cases there
      have hit : overtakes count id w u = true := by
        simp only [overtakes, here, Option.any_some, Bool.and_eq_true, List.any_eq_true]
        exact ⟨⟨row, recorded, decide_eq_true about⟩, t, List.mem_range.mpr few, by simp [there, awaits]⟩
      simp [spares, hit] at sparing
    · cases sparing
  | @foreign t input th next row here replay asks unasked none member about =>
    have hit : borrows id w t = true := by
      simp only [borrows, here, Option.any_some, asks, none, Bool.and_eq_true, List.any_eq_true]
      exact ⟨⟨⟨replay, rfl⟩, trivial⟩, row, member, decide_eq_true about⟩
    simp [spares, hit] at sparing

/-- With threads below `count` only. -/
theorem undistorted_of_run {count : Nat} {schedule : List Action} (undistorted : svc.Undistorted id w)
    (absent : ∀ t, count ≤ t → w.threads t = none)
    (permitted : ∀ action ∈ schedule, Scope.withoutPurge.permits action ∧ action.tid < count)
    (ran : svc.runUndistorted count id w schedule = some w') : svc.Undistorted id w' := by
  induction schedule generalizing w with
  | nil =>
    cases ran
    exact undistorted
  | cons action rest ih =>
    obtain ⟨⟨allowed, low⟩, others⟩ := List.forall_mem_cons.mp permitted
    simp only [Service.runUndistorted] at ran
    split at ran
    · rename_i sparing
      simp only [Option.bind_eq_some_iff] at ran
      obtain ⟨middle, stepped, ran⟩ := ran
      have spared := not_distorts absent sparing
      refine ih (undistorted.next ⟨allowed, spared⟩ stepped) (fun t high => ?_) others ran
      refine (Txn.step_cases stepped).absent (absent t high) fun call same => ?_
      subst same
      exact absurd low (not_lt.mpr high)
    · cases ran

end Runs

/-- A replay applies a credit; a second one finds it applied, and records an attempt of its own. -/
theorem replay_records_truthful_sample : ∃ w, Sample.service.Undistorted 1 w ∧
    w.db.replays.map (fun request => (request.outcome, request.resultingAttemptId)) =
      [(.succeeded, some 1), (.skippedAlreadyProcessed, some 2)] ∧
    ∀ request ∈ w.db.replays, request.eventId = 1 → ∃ entry ∈ w.log, entry.call.replays 1 = true ∧
      Write.insertReplay request ∈ entry.writes ∧ Attributed 1 request entry.trace := by
  let schedule : List Action :=
    Sample.store 0 (Sample.credit "c" 100 5) ++ .spawn 1 (.replay 1 "operator" none) :: Sample.steps 1 22 ++
    .spawn 2 (.replay 1 "operator" none) :: Sample.steps 2 22
  have passed : (Sample.service.runUndistorted 3 1 (.init Db.empty) schedule).any (fun w =>
      w.db.replays.map (fun request => (request.outcome, request.resultingAttemptId)) =
        [(.succeeded, some 1), (.skippedAlreadyProcessed, some 2)]) = true := by decide +kernel
  obtain ⟨w, ran, shown⟩ := (Option.any_eq_true _ _).mp passed
  simp only [decide_eq_true_eq] at shown
  have undistorted : Sample.service.Undistorted 1 w := by
    refine undistorted_of_run .start (fun _ _ => rfl) ?_ ran
    simp [schedule, Sample.store, Sample.steps, Scope.permits, Scope.withoutPurge, Call.isPurge, Txn.Action.tid]
  exact ⟨w, undistorted, shown, replay_records_truthful Sample.service 1 undistorted⟩

/-- A worker deals with the event between the requeue of a replay and its pass. The replay has done
nothing, and its record points to the attempt of the worker. -/
theorem replay_record_borrows : ¬ ∀ w, Sample.service.Reaches .withoutPurge (.init Db.empty) w →
    ∀ request ∈ w.db.replays, ∃ entry ∈ w.log, entry.call.replays request.eventId = true ∧
      Write.insertReplay request ∈ entry.writes ∧ Attributed request.eventId request entry.trace := by
  intro truthful
  let schedule : List Action :=
    Sample.store 0 (Sample.credit "c" 100 5) ++ .spawn 1 (.replay 1 "operator" none) :: Sample.steps 1 5 ++
    .spawn 2 (.process 1) :: Sample.steps 2 12 ++ Sample.steps 1 8
  obtain ⟨w, reached, shown⟩ := Sample.service.reaches_test .withoutPurge (.init Db.empty) schedule
    (fun w => w.db.replays.any fun request => request.resultingAttemptId = some 1 ∧ request.eventId = 1 ∧
      w.log.all fun entry => 1 ∉ recordsIn entry.writes ∨ ¬ Attributed 1 request entry.trace)
    (by simp [schedule, Sample.store, Sample.steps, Scope.permits, Scope.withoutPurge, Call.isPurge])
    (by decide +kernel)
  obtain ⟨request, member, holds⟩ := List.any_eq_true.mp shown
  simp only [decide_eq_true_eq] at holds
  obtain ⟨-, about, none⟩ := holds
  obtain ⟨entry, logged, -, made, attributed⟩ := truthful w reached request member
  rcases of_decide_eq_true (List.all_eq_true.mp none entry logged) with silent | false
  · exact silent (about ▸ List.mem_filterMap.mpr ⟨_, made, rfl⟩)
  · exact false (about ▸ attributed)

end WebhookReceiver
