import WebhookReceiver.Txn.History
import WebhookReceiver.Verified

/-!
Runs of the service as histories.

`reaches_history` turns a run into the list of its committed transactions, and
`Describes.cases` says once for all calls what such a transaction can be. Theorems
about runs split a history at a transaction, or carry an invariant through it, with
one case for each `Committed`.
-/

namespace WebhookReceiver

open Txn (Mode)

/-- The history of a run within a scope. -/
abbrev Service.History (svc : Service) (scope : Scope) (start last : Db) (log : List Commit) : Prop :=
  (svc.discipline scope).History start last log

section Runs

variable {svc : Service} {scope : Scope} {start : Db} {w w' : World}

private theorem permits_iff (action : Action) :
    (svc.discipline scope).Permits action ↔ scope.permits action := by
  cases action <;> exact Iff.rfl

private theorem reaches_iff :
    svc.Reaches scope w w' ↔
      Txn.Reach svc.system (fun _ action => (svc.discipline scope).Permits action) w w' :=
  ⟨fun reached => reached.mono fun _ action => (permits_iff action).mpr,
    fun reached => reached.mono fun _ action => (permits_iff action).mp⟩

theorem reaches_history (good : Wf start) (reached : svc.Reaches scope (.init start) w) :
    Wf w.db ∧ svc.History scope start w.db w.log :=
  (verified svc scope).history good (reaches_iff.mp reached)

/-- A later stretch of a run is a history from where it begins. -/
theorem reaches_stretch (good : Wf start) (reached : svc.Reaches scope (.init start) w)
    (later : svc.Reaches scope w w') :
    ∃ log, w'.log = w.log ++ log ∧ svc.History scope w.db w'.db log :=
  (verified svc scope).stretch good (reaches_iff.mp reached) (reaches_iff.mp later)

/-- What a finished call returned. -/
theorem reaches_returned (good : Wf start) (reached : svc.Reaches scope (.init start) w)
    {t : Nat} {th : Txn.Thread Write Call Stmt Stmt.Answer Exc Outcome} (here : w.threads t = some th)
    {result : Except Exc Outcome} (ended : th.prog = .done result) :
    Returns svc scope th.call result th.trace :=
  (verified svc scope).returned good (reaches_iff.mp reached) here ended

/-- What a thread owes before its next statement, it has paid. -/
theorem reaches_obeyed (good : Wf start) (reached : svc.Reaches scope (.init start) w)
    {t : Nat} {th : Txn.Thread Write Call Stmt Stmt.Answer Exc Outcome} (here : w.threads t = some th)
    {s : Stmt} {next : Except Exc s.Answer → Program Outcome} (shape : th.prog = .stmt s next) :
    Wf (w.db.after th.writes) ∧ ∃ locks, Obeys (svc.regime scope) locks (w.db.after th.writes) s :=
  (verified svc scope).obeyed good (reaches_iff.mp reached) here shape

/-- Without locks a transaction draws identity values, and retention forgets attempts. -/
theorem instant_cases {regime : Regime} {db : Db} {write : Write}
    (licence : Licensed regime [] db write) :
    (∃ table, write = .draw table) ∨ (regime.purging ∧ ∃ ids, write = .deleteAttempts ids) := by
  cases write with
  | insertEvent row => exact absurd licence.1 (by simp)
  | updateEvent id queue => exact absurd licence (by simp [Licensed])
  | deleteEvent id => exact absurd licence.2.1 (by simp)
  | insertAttempt row => exact absurd licence.1 (by simp [Locks.onEvent])
  | deleteAttempts ids => exact Or.inr ⟨licence, ids, rfl⟩
  | insertEntry row => exact absurd licence.1 (by simp)
  | updateEntry id triage => exact absurd licence (by simp [Licensed])
  | insertReplay row => exact absurd licence.1 (by simp [Locks.onEvent])
  | insertAccount row => exact absurd licence.1 (by simp)
  | updateAccount id state => exact absurd licence.1 (by simp)
  | insertLedger row => exact absurd licence.1 (by simp [Locks.onEvent])
  | draw table => exact Or.inl ⟨table, rfl⟩

end Runs

theorem not_purging {scope : Scope} (calls : ∀ call, scope.calls call → call.isPurge = false) :
    ¬ scope.purging := by
  rintro ⟨olderThan, called⟩
  cases calls _ called

/-! ## What a transaction can be -/

/-- The calls that make passes over an event. -/
def Call.passesOver : Call → Nat → Bool
  | .process id, eventId => id = eventId
  | .replay id _ _, eventId => id = eventId
  | _, _ => false

theorem passesOver_unique {call : Call} {first second : Nat} (one : call.passesOver first = true)
    (other : call.passesOver second = true) : first = second := by
  cases call with
  | process id => exact (of_decide_eq_true one).symm.trans (of_decide_eq_true other)
  | replay id requestedBy reason => exact (of_decide_eq_true one).symm.trans (of_decide_eq_true other)
  | _ => cases one

/-- The event that a delivery would store. -/
def Call.stores (svc : Service) : Call → IncomingEvent → Prop
  | .ingest event, stored => stored = event
  | .deliver request, stored => ∃ routed, svc.route request = .ok routed ∧ stored = request.event routed
  | _, _ => False

/-- A committed transaction, whatever call made it. -/
inductive Committed (svc : Service) (scope : Scope) (call : Call) (trace : Trace) (db : Db) :
    List Write → Prop where
  | idle {eventId : Nat} (passing : call.passesOver eventId = true) : Committed svc scope call trace db []
  | dealt {eventId : Nat} {result : EffectResult} {writes : List Write}
      (passing : call.passesOver eventId = true) (done : Dealt svc eventId db result writes)
      (numbered : Numbered scope.purging db writes) : Committed svc scope call trace db writes
  | failed {eventId : Nat} {writes : List Write} (passing : call.passesOver eventId = true)
      (done : Failed svc eventId db writes) (numbered : Numbered scope.purging db writes) :
      Committed svc scope call trace db writes
  | started {eventId : Nat} {requestedBy : String} {reason : Option String} {writes : List Write}
      (replay : call = .replay eventId requestedBy reason) (done : StartTx eventId db writes)
      (clocked : Clocked eventId trace writes) : Committed svc scope call trace db writes
  | finished {eventId : Nat} {requestedBy : String} {reason : Option String} {writes : List Write}
      (replay : call = .replay eventId requestedBy reason)
      (done : FinishTx scope.purging eventId trace db writes) : Committed svc scope call trace db writes
  | moved {entryId : Nat} {action : TriageAction} {note : Option String} {row : EntryRow}
      {writes : List Write} (triage : call = .triage entryId action note) (named : row.id = entryId)
      (done : Moves db action.target row writes) : Committed svc scope call trace db writes
  | stored {event : IncomingEvent} {result : IngestResult} {writes : List Write}
      (stores : call.stores svc event) (answered : trace.ingestAnswer = some result)
      (done : IngestTx scope.purging event db result writes) : Committed svc scope call trace db writes
  | purged {olderThan : Int} {writes : List Write} (purge : call = .purge olderThan)
      (done : ∀ write ∈ writes, Purges db write) : Committed svc scope call trace db writes

theorem PassTx.committed {svc : Service} {scope : Scope} {call : Call} {trace : Trace} {db : Db}
    {writes : List Write} {eventId : Nat} (passing : call.passesOver eventId = true)
    (pass : PassTx svc eventId db writes) (numbered : Numbered scope.purging db writes) :
    Committed svc scope call trace db writes := by
  cases pass with
  | idle => exact .idle passing
  | dealt done => exact .dealt passing done numbered
  | failed done => exact .failed passing done numbered

theorem Describes.cases {svc : Service} {scope : Scope} {call : Call} {trace : Trace} {db : Db}
    {writes : List Write} (described : Describes svc scope call trace db writes) :
    Committed svc scope call trace db writes := by
  cases call with
  | process eventId => exact PassTx.committed (by simp [Call.passesOver]) described.1 described.2
  | replay eventId requestedBy reason =>
    rcases described with ⟨started, clocked⟩ | ⟨pass, numbered⟩ | finished
    · exact .started rfl started clocked
    · exact pass.committed (by simp [Call.passesOver]) numbered
    · exact .finished rfl finished
  | triage entryId action note =>
    obtain ⟨row, named, moved⟩ := described
    exact .moved rfl named moved
  | ingest event =>
    obtain ⟨result, answered, stored⟩ := described
    exact .stored rfl answered stored
  | deliver request =>
    obtain ⟨routed, result, known, answered, stored⟩ := described
    exact .stored ⟨routed, known, rfl⟩ answered stored
  | purge olderThan => exact .purged rfl described

/-- A property of the store that every transaction and everything between the
transactions keeps. -/
theorem Service.History.keeps {svc : Service} {scope : Scope} {start last : Db} {log : List Commit}
    {P : Db → Prop} (past : svc.History scope start last log) (begin : P start)
    (drawn : ∀ {db} table, P db → P ((Write.draw table).apply db))
    (forgotten : ∀ {db} ids, scope.purging → P db → P ((Write.deleteAttempts ids).apply db))
    (kept : ∀ entry ∈ log, Wf entry.before → scope.calls entry.call →
      Committed svc scope entry.call entry.trace entry.before entry.writes → P entry.before →
      P (entry.before.after entry.writes)) : P last := by
  refine past.invariant begin ?_ ?_
  · intro db write _ licence holds
    rcases instant_cases licence with ⟨table, rfl⟩ | ⟨purging, ids, rfl⟩
    · exact drawn table holds
    · exact forgotten ids purging holds
  · intro entry member good called described holds
    exact kept entry member good called described.cases holds

/-- The same with the transactions committed so far in view. -/
theorem Service.History.along {svc : Service} {scope : Scope} {start last : Db} {log : List Commit}
    {P : List Commit → Db → Prop} (past : svc.History scope start last log) (begin : P [] start)
    (drawn : ∀ {log db} table, P log db → P log ((Write.draw table).apply db))
    (forgotten : ∀ {log db} ids, scope.purging → P log db → P log ((Write.deleteAttempts ids).apply db))
    (kept : ∀ (log : List Commit) (entry : Commit), Wf entry.before →
      Wf (entry.before.after entry.writes) → scope.calls entry.call → Committed svc scope entry.call entry.trace entry.before entry.writes →
      P log entry.before → P (log ++ [entry]) (entry.before.after entry.writes)) : P log last := by
  refine Txn.Discipline.History.along past begin ?_ ?_
  · intro log db write _ licence holds
    rcases instant_cases licence with ⟨table, rfl⟩ | ⟨purging, ids, rfl⟩
    · exact drawn table holds
    · exact forgotten ids purging holds
  · intro log entry good still called described holds
    exact kept log entry good still called described.cases holds

/-- The same from some transactions on. -/
theorem Service.History.since {svc : Service} {scope : Scope} {start last : Db} {log : List Commit}
    {P : Db → Prop} {begins : Commit → Prop} (past : svc.History scope start last log)
    (begun : ∀ entry ∈ log, Wf entry.before →
      Committed svc scope entry.call entry.trace entry.before entry.writes → begins entry →
      P (entry.before.after entry.writes))
    (drawn : ∀ {db} table, P db → P ((Write.draw table).apply db))
    (forgotten : ∀ {db} ids, scope.purging → P db → P ((Write.deleteAttempts ids).apply db))
    (kept : ∀ entry ∈ log, Wf entry.before → scope.calls entry.call →
      Committed svc scope entry.call entry.trace entry.before entry.writes → P entry.before →
      P (entry.before.after entry.writes)) :
    (log.Pairwise fun earlier later => begins earlier → P later.before) ∧
      ((∃ entry ∈ log, begins entry) → P last) := by
  refine Txn.Discipline.History.since past ?_ ?_ ?_
  · intro entry member good _ described started
    exact begun entry member good described.cases started
  · intro db write _ licence holds
    rcases instant_cases licence with ⟨table, rfl⟩ | ⟨purging, ids, rfl⟩
    · exact drawn table holds
    · exact forgotten ids purging holds
  · intro entry member good called described holds
    exact kept entry member good called described.cases holds

/-- Of transactions that exclude each other a history has at most one. -/
theorem filter_length_le_one {α : Type} {chosen : α → Bool} {log : List α}
    (apart : log.Pairwise fun earlier later => chosen earlier = true → chosen later = false) :
    (log.filter chosen).length ≤ 1 := by
  have pairs := apart.filter chosen
  have all : ∀ entry ∈ log.filter chosen, chosen entry = true := fun entry member =>
    (List.mem_filter.mp member).2
  generalize log.filter chosen = found at pairs all
  cases found with
  | nil => simp
  | cons first rest =>
    cases rest with
    | nil => simp
    | cons second rest =>
      have refused := (List.pairwise_cons.mp pairs).1 second (by simp) (all first (by simp))
      rw [all second (by simp)] at refused
      cases refused

/-! ## Schedules -/

/-- The state that a schedule leads to, if each of its actions is possible. -/
def Service.runFrom (svc : Service) (w : World) (schedule : List Action) : Option World :=
  Txn.run svc.system w schedule

theorem Service.reaches_runFrom {svc : Service} {scope : Scope} {w w' : World} {schedule : List Action}
    (permitted : ∀ action ∈ schedule, scope.permits action)
    (ran : svc.runFrom w schedule = some w') : svc.Reaches scope w w' :=
  Txn.reach_of_run (fun _ action member => permitted action member) ran

theorem Scope.any_permits (action : Action) : Scope.any.permits action := by
  cases action <;> exact trivial

/-- A schedule whose outcome passes a test reaches a state that passes it, with no
threads but those that it starts. -/
theorem Service.reaches_quiet (svc : Service) (scope : Scope) (w : World) (schedule : List Action)
    (test : World → Bool) (permitted : ∀ action ∈ schedule, scope.permits action)
    (passed : (svc.runFrom w schedule).any test = true) :
    ∃ w', svc.Reaches scope w w' ∧ test w' = true ∧
      ∀ t, w.threads t = none → (∀ call, .spawn t call ∉ schedule) → w'.threads t = none := by
  cases ran : svc.runFrom w schedule with
  | none => simp [ran] at passed
  | some w' =>
    exact ⟨w', Service.reaches_runFrom permitted ran, by simpa [ran] using passed,
      fun t absent other => Txn.absent_of_run ran absent other⟩

theorem Service.reaches_test (svc : Service) (scope : Scope) (w : World) (schedule : List Action)
    (test : World → Bool) (permitted : ∀ action ∈ schedule, scope.permits action)
    (passed : (svc.runFrom w schedule).any test = true) :
    ∃ w', svc.Reaches scope w w' ∧ test w' = true := by
  obtain ⟨w', reached, shown, -⟩ := svc.reaches_quiet scope w schedule test permitted passed
  exact ⟨w', reached, shown⟩

/-- The same with a stop on the way. -/
theorem Service.reaches_test₂ (svc : Service) (scope : Scope) (w : World) (first second : List Action)
    (test : World → World → Bool) (permitted : ∀ action ∈ first ++ second, scope.permits action)
    (passed : ((svc.runFrom w first).any fun middle =>
      (svc.runFrom middle second).any (test middle)) = true) :
    ∃ middle last, svc.Reaches scope w middle ∧ svc.Reaches scope middle last ∧
      test middle last = true := by
  obtain ⟨middle, before, there⟩ := svc.reaches_test scope w first _
    (fun action member => permitted action (List.mem_append_left _ member)) passed
  obtain ⟨last, after, shown⟩ := svc.reaches_test scope middle second _
    (fun action member => permitted action (List.mem_append_right _ member)) there
  exact ⟨middle, last, before, after, shown⟩

/-! ## A deployment to look at -/

namespace Sample

/-- The shipped handlers and configuration, one advisory lock for everything, and no
way in through the API. -/
def service : Service where
  registry := Balance.registry
  settings := {}
  advisoryLockKey := fun _ _ => 0
  hmac := fun _ _ => ""
  wire := { loads := fun _ => .error (valueError ""), modelValidate := fun _ => .error [] }

/-- Both clocks at `now`, in seconds. -/
def clock (now : Int) : Input := ⟨now * 1000000, now * 1000000, ⟨0, by decide +kernel⟩⟩

/-- There is no draw above one. -/
theorem draw_one : 0 ≤ (1 : ℚ) ∧ (1 : ℚ) ≤ 1 := by decide +kernel

/-- A delivery about account `A`. -/
def event (key eventType field : String) (value sequence : Int) : IncomingEvent where
  source := "acme"
  externalId := key
  idempotencyKey := key
  eventType := eventType
  entityType := Balance.accountEntityType
  entityId := "A"
  payload := [(field, .int value)]
  headers := []
  signatureVerified := true
  occurredAt := 0
  providerSequence := some sequence

def credit (key : String) (amount sequence : Int) : IncomingEvent :=
  event key Balance.credited "amount" amount sequence

def snapshot (key : String) (balance sequence : Int) : IncomingEvent :=
  event key Balance.snapshot "balance" balance sequence

/-- An event type without a handler: every pass over it fails for good. -/
def unknown (key : String) : IncomingEvent := event key "balance.frozen" "amount" 0 1

/-- `n` steps of a thread. -/
def steps (t n : Nat) : List Action := List.replicate n (.run t (clock 0))

/-- `n` steps of a thread at a time, in seconds. -/
def ticks (t n : Nat) (now : Int) : List Action := List.replicate n (.run t (clock now))

/-- Store an event: one insert and the commit. -/
def store (t : Nat) (event : IncomingEvent) : List Action := .spawn t (.ingest event) :: steps t 2

end Sample

end WebhookReceiver
