import WebhookReceiver.Worker
import WebhookReceiver.Solitude
import WebhookReceiver.Escapes
import WebhookReceiver.Backoff

/-!
Transient failures of the database.

The driver reports a SQLSTATE either through SQLAlchemy, as the `orig` of a `DBAPIError`,
or bare, when the failure comes while a connection is being opened. `is_retryable` reads
the code of the first kind only. So an outage is waited out by passes, by the wait for
the schema and by the poll loop exactly when it is reported through SQLAlchemy
(`outage_waited_out`).
-/

namespace WebhookReceiver

/-- The ways in which the driver reports a SQLSTATE. -/
inductive Reported (sqlstate : String) : Exc → Prop where
  | wrapped (cls message : String) (connectionInvalidated : Bool) :
      Reported sqlstate ⟨cls, message, .dbapi connectionInvalidated (some sqlstate)⟩
  | bare (cls message : String) : Reported sqlstate ⟨cls, message, .other (some sqlstate)⟩

/-- A failure that `RETRYABLE_SQLSTATES` lists. -/
def Transient (exc : Exc) : Prop := ∃ sqlstate ∈ retryableSqlstates, Reported sqlstate exc

/-- The failure came through SQLAlchemy. -/
def Exc.throughSqlalchemy (exc : Exc) : Bool :=
  match exc.kind with
  | .dbapi _ _ => true
  | _ => false

/-- Outside the processing transaction of a pass, the turn tells of nothing but the failure,
and it draws no delay that takes a retry off the calendar. -/
def Struck (exc : Exc) : Admission := fun writes trace turn =>
  undated writes turn = false ∧
    ∀ e, raises? turn = some e → Trace.within 0 trace = true ∧ e.isException = true ∨ e = exc

/-- What a pass that nothing worse strikes can come to, in whatever run. -/
inductive Service.PassComesTo (svc : Service) (exc : Exc) (eventId : Nat) : Except Exc ProcessResult →
    Prop where
  | ended {db : Db} {w : World} {t : Nat} {th : Thread}
      {outcome : Except Exc ProcessResult}
      (reached : Txn.Reach svc.system (fun w action => ∀ th turn, w.threads t = some th → action.tid = t →
        svc.system.turn? w th action = some turn → Struck exc th.writes th.trace turn) (.init db) w)
      (here : w.threads t = some th) (pass : th.call = .process eventId)
      (ended : th.prog = .done (outcome.map .processed)) : PassComesTo svc exc eventId outcome

/-- The failure is never mistaken for a permanent one. -/
structure WaitedOut (exc : Exc) : Prop where
  /-- Wherever it strikes a pass, in whatever run: unless something else strikes it too, the
  pass gives no event up that has attempts left. -/
  passes : ∀ (svc : Service) (db : Db) (w w' last : World) (t eventId : Nat) (action : Action), Wf db →
    svc.Reaches .any (.init db) w → (∀ th, w.threads t = some th → th.call.passesOver eventId = true) →
    action = .fault t exc ∨ action = .lost t exc → Txn.step svc.system w action = some w' →
    Txn.Reach svc.system (fun _ => Txn.Spares (fun e => e = exc) t) w' last →
    ∀ entry ∈ last.log.drop w'.log.length, entry.tid = t →
    ∀ id before after, entry.before.event? id = some before →
      (entry.before.after entry.writes).event? id = some after →
      before.status ≠ .deadLettered → after.status = .deadLettered →
      svc.settings.maxAttempts ≤ before.attemptCount + 1
  /-- `await_schema` waits on, until its deadline. -/
  schema : ∀ (settings : WorkerSettings) (startedAt deadline : Time) (probes : List Probe),
    schemaDeadline settings startedAt = .ok deadline →
    (∀ probe ∈ probes, probe.shutdown = false ∧ probe.now < deadline ∧
      (probe.found = .ok false ∨ probe.found = .error exc)) →
    awaitSchema settings startedAt probes = .waiting probes.length
  /-- The poll loop goes on, until a shutdown is requested: the failure may strike the query for
  due events, and the pass over each event that the round comes to. -/
  polls : ∀ (svc : Service) (settings : WorkerSettings) (polls : List Poll), svc.registry = Balance.registry →
    (∀ poll ∈ polls, poll.shutdown = false ∧ (∀ e, poll.due = .error e → e = exc) ∧
      ∀ earlier id later, poll.due = .ok (earlier ++ id :: later) →
        (∀ before ∈ earlier, ∃ result, poll.process before = .ok result) →
        svc.PassComesTo exc id (poll.process id)) →
    ∃ failures wait, pollLoop settings polls = .polling failures wait

/-! ## Recognition -/

theorem retryable_of_throughSqlalchemy {exc : Exc} (transient : Transient exc)
    (wrapped : exc.throughSqlalchemy = true) : Retryable exc := by
  obtain ⟨sqlstate, listed, reported⟩ := transient
  cases reported with
  | wrapped cls message invalidated =>
    cases invalidated with
    | true => rfl
    | false => simpa [Retryable, isRetryable] using listed
  | bare cls message => cases wrapped

theorem bare_not_waitedOut {exc : Exc} (transient : Transient exc) (bare : exc.throughSqlalchemy = false) :
    waitedOut exc = false := by
  obtain ⟨sqlstate, listed, reported⟩ := transient
  cases reported with
  | wrapped cls message invalidated => cases bare
  | bare cls message => simp [waitedOut, isRetryable]

/-! ## Passes -/

section Passes

variable {svc : Service} {scope : Scope} {call : Call} {trace : Trace} {db : Db} {writes : List Write}

/-- Nothing that recovers from a retryable failure gives up an event with attempts left. -/
theorem Committed.gives_up_spent (committed : Committed svc scope call trace db writes)
    (retries : ∀ attempt ∈ attemptsIn writes, attempt.outcome = .retryableError) {id : Nat}
    {before after : EventRow} (found : db.event? id = some before)
    (lookup : (db.after writes).event? id = some after) (alive : before.status ≠ .deadLettered)
    (ended : after.status = .deadLettered) : svc.settings.maxAttempts ≤ before.attemptCount + 1 := by
  cases committed.eventStep lookup with
  | same before' =>
    obtain rfl : before = after := Option.some.inj (found.symm.trans before')
    exact absurd ended alive
  | dealt found' kept pending status =>
    rw [status] at ended
    cases ended
  | failed found' kept status count recorded =>
    obtain ⟨attempt, member, about⟩ := List.mem_map.mp recorded
    obtain ⟨member, -⟩ := List.mem_filter.mp member
    obtain ⟨before', after', found'', lookup', fate⟩ := committed.retries
      (fun _ _ _ => backoffCeiling_le_cap svc.settings _) attempt member about (retries attempt member)
    obtain rfl : before = before' := Option.some.inj (found.symm.trans found'')
    obtain rfl : after = after' := Option.some.inj (lookup.symm.trans lookup')
    rcases fate with ⟨spent, -⟩ | ⟨-, pending, -⟩
    · exact spent
    · rw [pending] at ended
      cases ended
  | requeued found' kept replay status =>
    rw [status] at ended
    cases ended
  | stored absent =>
    rw [absent] at found
    cases found

/-- A program that a failure strikes within a pass, or within a replay. -/
theorem recovers_passing {call : Call} {eventId : Nat} (passes : call.passesOver eventId = true) :
    (svc.program call).Recovers Retryable Stmt.retries fun _ => True := by
  cases call with
  | process id => exact recovers_process svc id
  | replay id requestedBy reason => exact recovers_replay svc id requestedBy reason
  | triage | ingest | deliver | purge => cases passes

/-- Statements that record retryable failures only write such attempts. -/
theorem writes_retries {s : Stmt} {avail : Lock → Txn.Mode → Bool} {input : Input} {view : Db}
    {reply : Txn.Reply Write Lock Exc s.Answer} (kind : s.retries)
    (ran : s.exec avail input view = some reply) :
    ∀ write ∈ reply.writes, ∀ row, write = .insertAttempt row → row.outcome = .retryableError := by
  rintro _ member row rfl
  obtain ⟨attempt, rfl, rfl⟩ := (exec_shape ran).2 row member
  exact kind

/-- In every run, what a pass commits after a retryable failure gives nothing up that has
attempts left. -/
theorem pass_outlives_failure (svc : Service) {exc : Exc} (retryable : Retryable exc) {db : Db}
    {w w' last : World} {t eventId : Nat} {action : Action}
    (reached : svc.Reaches .any (.init db) w)
    (passes : ∀ th, w.threads t = some th → th.call.passesOver eventId = true)
    (struck : action = .fault t exc ∨ action = .lost t exc)
    (stepped : Txn.step svc.system w action = some w')
    (goesOn : Txn.Reach svc.system (fun _ => Txn.Spares (fun e => e = exc) t) w' last) :
    ∀ entry ∈ last.log.drop w'.log.length, entry.tid = t →
      ∀ attempt ∈ attemptsIn entry.writes, attempt.outcome = .retryableError := by
  obtain ⟨th, here⟩ : ∃ th, w.threads t = some th := by
    cases here : w.threads t with
    | some th => exact ⟨th, rfl⟩
    | none => rcases struck with rfl | rfl <;> simp [Txn.step, here] at stepped
  let Recovers (call : Call) (program : Program Outcome) : Prop :=
    (∃ eventId, call.passesOver eventId = true) → program.Recovers Retryable Stmt.retries fun _ => True
  have programs : w.Programs Recovers := by
    refine reached.programs (fun call => Txn.hereditary_recovers) ?_ fun t th none => by cases none
    rintro call ⟨eventId, passing⟩
    exact recovers_passing passing
  let Retries (write : Write) : Prop := ∀ row, write = .insertAttempt row → row.outcome = .retryableError
  have recovering : Txn.Recovering Retryable Stmt.retries Retries t w'.log last := by
    refine Txn.recovering_reach ?_ (fun s avail input db reply kind ran => writes_retries kind ran) ?_ goesOn
    · exact Txn.recovering_of_strike here (programs t th here ⟨eventId, passes th here⟩) retryable
        struck stepped
    · intro w action spared
      cases action with
      | fault u e => exact fun same => (spared same) ▸ retryable
      | lost u e => exact fun same => (spared same) ▸ retryable
      | kill u => exact spared
      | spawn | run => trivial
  obtain ⟨more, log, kept⟩ := recovering.log
  intro entry member mine attempt recorded
  rw [log, List.drop_left] at member
  obtain ⟨write, there, same⟩ := List.mem_filterMap.mp recorded
  refine kept entry member mine write there attempt ?_
  cases write with
  | insertAttempt row => rw [Option.some.inj same]
  | _ => cases same

end Passes

/-! ## The worker's loops -/

section Loops

variable {settings : WorkerSettings} {exc : Exc}

/-- A pass that nothing worse strikes raises nothing but the failure. -/
theorem Service.PassComesTo.raised {svc : Service} {id : Nat} {e : Exc}
    (passed : svc.PassComesTo exc id (.error e))
    (shipped : svc.registry = Balance.registry) (known : exc.isException = true) : e = exc := by
  generalize came : (.error e : Except Exc ProcessResult) = outcome at passed
  cases passed with
  | @ended db w t th outcome reached here pass ended =>
    subst came
    let told (writes : List Write) (trace : Trace) (turn : Turn) : Prop :=
      Struck exc writes trace turn ∧ ∀ s answer more, turn = .answer s answer more → Came s answer more
    have harmless : Harmless told 0 fun e => e = exc :=
      ⟨fun admitted raised => admitted.1.2 _ raised, fun admitted => admitted.1.1,
        fun admitted => admitted.2 _ _ _ rfl⟩
    have begun : ∀ call, (svc.program call).paths told [] [] fun r _ _ =>
        call = .process id → ∀ e, r = .error e → e = exc := by
      intro call
      by_cases same : call = .process id
      · subst same
        refine Txn.paths_andThen (Txn.paths_mono (fun r writes trace left => ?_)
          (paths_processEvent shipped harmless (fun e same => same ▸ known) rfl rfl))
        cases r with
        | ok result =>
          rintro - e ⟨⟩
        | error e' =>
          rintro - e ⟨⟩
          exact left
      · exact Txn.paths_trivial fun _ _ _ same' => absurd same' same
    have onPath := Txn.paths_reach begun (fun w action th turn struck here mine took =>
      ⟨struck th turn here mine took, fun s answer more same => came_of_turn (same ▸ took)⟩) rfl reached th here
    rw [ended] at onPath
    exact onPath pass e rfl

theorem forM_error {process : Nat → Except Exc ProcessResult} {e : Exc} {ids : List Nat}
    (failed : (ids.forM fun id => discard (process id)) = .error e) :
    ∃ earlier id later, ids = earlier ++ id :: later ∧
      (∀ before ∈ earlier, ∃ result, process before = .ok result) ∧
      process id = .error e := by
  induction ids with
  | nil => cases failed
  | cons id ids ih =>
    change (discard (process id) >>= fun _ => ids.forM fun id => discard (process id)) = .error e at failed
    cases outcome : process id with
    | error e' =>
      rw [outcome] at failed
      cases failed
      exact ⟨[], id, ids, rfl, nofun, outcome⟩
    | ok result =>
      rw [outcome] at failed
      obtain ⟨earlier, id', later, rfl, returned, raised⟩ := ih failed
      refine ⟨id :: earlier, id', later, rfl, fun before member => ?_, raised⟩
      rcases List.mem_cons.mp member with rfl | member
      · exact ⟨result, outcome⟩
      · exact returned before member

/-- A batch fails as its query does, or the first of its passes that fails. -/
theorem pollOnce_error {due : Except Exc (List Nat)} {process : Nat → Except Exc ProcessResult} {e : Exc}
    (failed : pollOnce due process = .error e) : due = .error e ∨
      ∃ earlier id later, due = .ok (earlier ++ id :: later) ∧
        (∀ before ∈ earlier, ∃ result, process before = .ok result) ∧ process id = .error e := by
  cases due with
  | error e' =>
    cases failed
    exact Or.inl rfl
  | ok ids =>
    cases outcome : ids.forM fun id => discard (process id) with
    | error e' =>
      simp only [pollOnce, bind, Except.bind, outcome] at failed
      cases failed
      obtain ⟨earlier, id, later, rfl, returned, raised⟩ := forM_error outcome
      exact Or.inr ⟨earlier, id, later, rfl, returned, raised⟩
    | ok done =>
      simp only [pollOnce, bind, Except.bind, outcome] at failed
      cases failed

theorem awaitFrom_waits (recognised : waitedOut exc = true) (deadline : Time) (attempt : Nat)
    (probes : List Probe)
    (met : ∀ probe ∈ probes, probe.shutdown = false ∧ probe.now < deadline ∧
      (probe.found = .ok false ∨ probe.found = .error exc)) :
    awaitFrom settings deadline attempt probes = .waiting (attempt + probes.length) := by
  induction probes generalizing attempt with
  | nil => rfl
  | cons probe probes ih =>
    obtain ⟨running, early, found⟩ := met probe List.mem_cons_self
    have undue : ¬ deadline ≤ probe.now := not_le.mpr early
    have again : awaitRound settings deadline attempt probe = .waiting (attempt + 1) := by
      rcases found with absent | failed
      · simp [awaitRound, running, absent, undue]
      · simp [awaitRound, running, failed, undue, recognised]
    have rest := ih (attempt + 1) fun probe member => met probe (List.mem_cons_of_mem _ member)
    rw [awaitFrom, again, List.length_cons]
    show awaitFrom settings deadline (attempt + 1) probes = _
    rw [rest, Nat.add_right_comm, Nat.add_assoc]

theorem pollFrom_polls (recognised : waitedOut exc = true) (failures : Nat) (wait : ℚ) (polls : List Poll)
    (met : ∀ poll ∈ polls, poll.shutdown = false ∧ ∀ e, pollOnce poll.due poll.process = .error e → e = exc) :
    ∃ failures' wait', pollFrom settings failures wait polls = .polling failures' wait' := by
  induction polls generalizing failures wait with
  | nil => exact ⟨failures, wait, rfl⟩
  | cons poll polls ih =>
    obtain ⟨running, fails⟩ := met poll List.mem_cons_self
    have again : ∃ failures' wait', pollRound settings failures poll = .polling failures' wait' := by
      cases outcome : pollOnce poll.due poll.process with
      | ok processed =>
        exact ⟨0, if processed = 0 then settings.pollIntervalSeconds else 0,
          by simp [pollRound, running, outcome]⟩
      | error e =>
        rw [fails e outcome] at outcome
        let ceiling := backoffCeiling (failures + 1) settings.backoffBaseSeconds settings.backoffCapSeconds
        exact ⟨failures + 1, 0 + (ceiling - 0) * poll.draw,
          by simp [pollRound, running, outcome, recognised, ceiling]⟩
    obtain ⟨failures', wait', again⟩ := again
    rw [pollFrom, again]
    exact ih failures' wait' fun poll member => met poll (List.mem_cons_of_mem _ member)

end Loops

/-- A transient failure of the database is waited out exactly when SQLAlchemy reports it. -/
theorem outage_waited_out (exc : Exc) (transient : Transient exc) :
    WaitedOut exc ↔ exc.throughSqlalchemy = true := by
  constructor
  · intro waits
    by_contra bare
    rw [Bool.not_eq_true] at bare
    have dated : schemaDeadline {} 0 = .ok 180000000 := by decide +kernel
    have raised := waits.schema {} 0 180000000 [⟨false, .error exc, 0⟩] dated fun probe member => by
      rw [List.mem_singleton.mp member]
      exact ⟨rfl, (by decide : (0 : Time) < 180000000), Or.inr rfl⟩
    rw [awaitSchema_dated _ dated] at raised
    simp [awaitFrom, awaitRound, bare_not_waitedOut transient bare] at raised
  · intro wrapped
    have retryable := retryable_of_throughSqlalchemy transient wrapped
    have recognised : waitedOut exc = true := by
      rw [waitedOut, isException_of_retryable retryable, Bool.true_and]
      exact retryable
    constructor
    · intro svc db w w' last t eventId action good reached passes struck stepped goesOn entry member mine
        id before after found lookup alive ended
      have retries := pass_outlives_failure svc retryable reached passes struck stepped goesOn entry
        member mine
      have whole : svc.Reaches .any (.init db) last :=
        (reached.next (Scope.any_permits action) stepped).trans
          (goesOn.mono fun _ action _ => Scope.any_permits action)
      obtain ⟨-, past⟩ := reaches_history good whole
      obtain ⟨_, _, -, -, -, -, described, -⟩ := past.at (List.mem_of_mem_drop member)
      exact described.cases.gives_up_spent retries found lookup alive ended
    · intro settings startedAt deadline probes dated met
      rw [awaitSchema_dated _ dated]
      exact (awaitFrom_waits recognised deadline 0 probes met).trans (by rw [Nat.zero_add])
    · intro svc settings polls shipped met
      refine pollFrom_polls recognised 0 0 polls fun poll member => ?_
      obtain ⟨running, due, passed⟩ := met poll member
      refine ⟨running, fun e failed => ?_⟩
      rcases pollOnce_error failed with failed | ⟨earlier, id, later, found, returned, raised⟩
      · exact due e failed
      · exact (raised ▸ passed earlier id later found returned).raised shipped
          (isException_of_retryable retryable)

/-- A failover, as SQLAlchemy reports it. -/
theorem outage_waited_out_sample :
    WaitedOut ⟨"DBAPIError", "terminating connection due to administrator command", .dbapi false
      (some "57P01")⟩ :=
  (outage_waited_out _ ⟨"57P01", by decide, .wrapped ..⟩).mpr rfl

/-- The server is still starting up and refuses the connection for the claim; the next one
is opened, and the event is dead-lettered after one attempt of five. -/
theorem bare_failure_dead_letters : ¬ ∀ exc, Transient exc → WaitedOut exc := by
  let exc : Exc := ⟨"CannotConnectNowError", "the database system is starting up", .other (some "57P03")⟩
  let schedule : List Action :=
    Sample.store 0 (Sample.credit "c" 100 1) ++ .spawn 1 (.process 1) :: Sample.steps 1 1
  obtain ⟨w, reached, shown⟩ := Sample.service.reaches_test .any (.init Db.empty) schedule
    (fun w => (w.threads 1).any (fun th => th.call.passesOver 1) ∧
      (Txn.step Sample.service.system w (.fault 1 exc)).any fun w' =>
        (Sample.service.runFrom w' (Sample.steps 1 8)).any fun last =>
          (last.log.drop w'.log.length).any fun entry => entry.tid = 1 ∧
            (entry.before.event? 1).any (fun before => before.status = .pending ∧ before.attemptCount = 0) ∧
            ((entry.before.after entry.writes).event? 1).any fun after => after.status = .deadLettered)
    (fun action _ => Scope.any_permits action) (by decide +kernel)
  simp only [decide_eq_true_eq, Option.any_eq_true, List.any_eq_true] at shown
  obtain ⟨⟨th, here, passes⟩, w', stepped, last, ran, entry, member, mine, ⟨before, found, pending, fresh⟩,
    after, lookup, ended⟩ := shown
  intro waited
  have transient : Transient exc := ⟨"57P03", by decide, .bare ..⟩
  have passing : ∀ th, w.threads 1 = some th → th.call.passesOver 1 = true := by
    intro th' here'
    obtain rfl : th = th' := Option.some.inj (here.symm.trans here')
    exact passes
  have goesOn : Txn.Reach Sample.service.system (fun _ => Txn.Spares (fun e => e = exc) 1) w' last := by
    refine Txn.reach_of_run (fun _ action member => ?_) ran
    rw [Sample.steps, List.mem_replicate] at member
    rw [member.2]
    trivial
  have alive : before.status ≠ .deadLettered := by
    rw [pending]
    decide
  have spent := (waited exc transient).passes Sample.service Db.empty w w' last 1 1 _ wf_empty reached passing
    (Or.inl rfl) stepped goesOn entry member mine 1 before after found lookup alive ended
  rw [fresh] at spent
  exact absurd spent (by decide)

end WebhookReceiver
