import WebhookReceiver.Commits
import WebhookReceiver.Store.Teaching

/-!
The service as a discipline of transactions, and the proof rules for its programs.

`Service.discipline` instantiates the program logic with the tables, the locks and
the statements of the service. The rules below it are the ones the proofs about
programs use: one for a statement, one for a transaction.
-/

namespace WebhookReceiver

open Txn (Mode Prog Discipline)

/-- What all transactions of a run are held to. -/
def Service.regime (svc : Service) (scope : Scope) : Regime where
  purging := scope.purging
  strict := svc.registry.OwnsEntity
  advisoryLockKey := svc.advisoryLockKey

theorem Service.applyAll_eq (svc : Service) (writes : List Write) (db : Db) :
    svc.system.applyAll writes db = db.after writes := rfl

section Carried

variable {regime : Regime} {view : Db} {s : Stmt} {reply : Txn.Reply Write Lock Exc s.Answer}

theorem Carried.instant (carried : Carried regime view s reply) :
    reply.instant = [] ∨ ∃ table, reply.instant = [.draw table] := by
  cases carried with
  | refused raised draws => exact draws
  | answered facts taught hold draws => exact draws

theorem Carried.error (carried : Carried regime view s reply) {e : Exc}
    (refused : reply.answer = .error e) : reply.writes = [] ∧ Raises regime s e := by
  cases carried with
  | refused raised draws =>
    cases refused
    exact ⟨rfl, raised⟩
  | answered facts taught hold draws => cases refused

theorem Carried.ok (carried : Carried regime view s reply) {a : s.Answer}
    (answered : reply.answer = .ok a) :
    ∃ facts, Teaches s a ⟨reply.writes, reply.locks, facts⟩ ∧
      ∀ f ∈ facts, f.holds (view.after reply.instant) := by
  cases carried with
  | refused raised draws => cases answered
  | answered facts taught hold draws =>
    cases answered
    exact ⟨facts, taught, hold⟩

end Carried

/-- Drawing identity values first or last makes no difference. -/
theorem after_instant {instant : List Write}
    (draws : instant = [] ∨ ∃ table, instant = [.draw table]) (writes : List Write) (db : Db) :
    (db.after instant).after writes = (db.after writes).after instant := by
  rcases draws with rfl | ⟨table, rfl⟩
  · rfl
  · exact after_draw writes table db

/-- The discipline that the service keeps in a scope. -/
def Service.discipline (svc : Service) (scope : Scope) : Discipline svc.system Fact where
  wf := Wf
  licensed := Licensed (svc.regime scope)
  holds := Fact.holds
  guarded := Guarded (svc.regime scope)
  teaches := Teaches
  obeys := Obeys (svc.regime scope)
  raises := Raises (svc.regime scope)
  calls := scope.calls
  faults := scope.faults
  commits := Describes svc scope
  returns := Returns svc scope
  licensed_mono := licensed_mono
  guarded_mono := guarded_mono
  wf_apply := wf_apply
  stable := fun writes _ apart licence guard known => fact_stable writes apart licence guard known
  exec_instant := by
    intro avail inp view s reply locks good obeyed ran db
    rcases (carried good obeyed ran).instant with none | ⟨table, drawn⟩
    · rw [none]
      trivial
    · rw [drawn]
      exact ⟨trivial, trivial⟩
  exec_error := fun good obeyed ran refused => (carried good obeyed ran).error refused
  exec_teaches := by
    intro avail inp s reply a locks writes db _ good obeyed ran answered
    have done := carried good obeyed ran
    obtain ⟨facts, taught, hold⟩ := done.ok answered
    refine ⟨facts, taught, fun f member _ => ?_⟩
    have held := hold f member
    rw [Service.applyAll_eq, ← after_instant done.instant] at held
    exact held
  teaches_licensed := by
    intro s a lesson view locks _ taught obeyed known
    rcases teaches_licensed taught obeyed known with none | ⟨w, one, licence⟩
    · rw [none]
      trivial
    · rw [one]
      exact ⟨licence, trivial⟩

/-! ## Rules -/

/-- Where a program of the service stands in its transaction. -/
abbrev Ctx := Txn.Ctx Db Write Lock Stmt Stmt.Answer Exc

/-- The verification condition of a program of the service. -/
abbrev Service.wp (svc : Service) (scope : Scope) {α : Type} (call : Call) (prog : Program α) (c : Ctx)
    (Q : Except Exc α → Ctx → Prop) : Prop :=
  (svc.discipline scope).wp call prog c Q

/-- A piece of a transaction on `db` raises within `X`, or yields a value and
leaves pending writes, locks and a trace that meet `P`. -/
def Yields {α : Type} (db : Db) (X : Exc → Trace → Prop)
    (P : α → List Write → Locks → Trace → Prop) : Except Exc α → Ctx → Prop
  | .ok value, c => c.db = db ∧ P value c.writes c.locks c.trace
  | .error e, c => X e c.trace

section Rules

variable {svc : Service} {scope : Scope} {call : Call} {α β : Type} {c : Ctx} {db : Db}
  {X : Exc → Trace → Prop}

theorem wp_bind {first : Program α} {next : α → Program β} {Q : Except Exc β → Ctx → Prop}
    (met : svc.wp scope call first c fun r c => svc.wp scope call (Prog.onValue next r) c Q) :
    svc.wp scope call (first >>= next) c Q :=
  Discipline.wp_andThen met

/-- One piece of a transaction after the other. -/
theorem wp_seq {first : Program α} {next : α → Program β}
    {P : α → List Write → Locks → Trace → Prop} {P' : β → List Write → Locks → Trace → Prop}
    (met : svc.wp scope call first c (Yields db X P))
    (rest : ∀ value writes locks trace, P value writes locks trace →
      svc.wp scope call (next value) ⟨db, writes, locks, trace⟩ (Yields db X P')) :
    svc.wp scope call (first >>= next) c (Yields db X P') := by
  refine wp_bind (Discipline.wp_mono ?_ met)
  intro r c yielded
  cases r with
  | error e => exact yielded
  | ok value =>
    obtain ⟨rfl, holds⟩ := yielded
    exact rest value c.writes c.locks c.trace holds

/-- A weaker description of a piece. -/
theorem wp_weaken {prog : Program α} {P P' : α → List Write → Locks → Trace → Prop}
    (met : svc.wp scope call prog c (Yields db X P))
    (weaker : ∀ value writes locks trace, P value writes locks trace → P' value writes locks trace) :
    svc.wp scope call prog c (Yields db X P') := by
  refine Discipline.wp_mono ?_ met
  intro r c yielded
  cases r with
  | error e => exact yielded
  | ok value => exact ⟨yielded.1, weaker _ _ _ _ yielded.2⟩

/-- A piece that may raise anything. -/
theorem wp_anyhow {prog : Program α} {P : α → List Write → Locks → Trace → Prop}
    (met : svc.wp scope call prog c (Yields db X P)) :
    svc.wp scope call prog c (Yields db (fun _ _ => True) P) := by
  refine Discipline.wp_mono ?_ met
  intro r c yielded
  cases r with
  | error e => trivial
  | ok value => exact yielded

/-- A statement, and what follows it in the transaction. -/
theorem wp_execute {s : Stmt} {next : s.Answer → Program β}
    {P : β → List Write → Locks → Trace → Prop} {writes : List Write} {locks : Locks} {trace : Trace}
    (obeyed : Obeys (svc.regime scope) locks (db.after writes) s)
    (failed : ∀ e, scope.faults e ∨ Raises (svc.regime scope) s e →
      X e (trace ++ [Txn.Ev.stmt s (.error e)]))
    (answered : ∀ a lesson, Teaches s a lesson →
      (∀ f ∈ lesson.facts, Guarded (svc.regime scope) (locks ++ lesson.locks) f →
        f.holds (db.after writes)) →
      svc.wp scope call (next a)
        ⟨db, writes ++ lesson.writes, locks ++ lesson.locks, trace ++ [Txn.Ev.stmt s (.ok a)]⟩
        (Yields db X P)) :
    svc.wp scope call (execute s >>= next) ⟨db, writes, locks, trace⟩ (Yields db X P) :=
  ⟨obeyed, fun e raised => failed e raised, answered⟩

/-- A statement at the end of a piece. -/
theorem wp_execute_last {s : Stmt} {P : s.Answer → List Write → Locks → Trace → Prop}
    {writes : List Write} {locks : Locks} {trace : Trace}
    (obeyed : Obeys (svc.regime scope) locks (db.after writes) s)
    (failed : ∀ e, scope.faults e ∨ Raises (svc.regime scope) s e →
      X e (trace ++ [Txn.Ev.stmt s (.error e)]))
    (answered : ∀ a lesson, Teaches s a lesson →
      (∀ f ∈ lesson.facts, Guarded (svc.regime scope) (locks ++ lesson.locks) f →
        f.holds (db.after writes)) →
      P a (writes ++ lesson.writes) (locks ++ lesson.locks) (trace ++ [Txn.Ev.stmt s (.ok a)])) :
    svc.wp scope call (execute s) ⟨db, writes, locks, trace⟩ (Yields db X P) :=
  ⟨obeyed, fun e raised => failed e raised, fun a l taught known => ⟨rfl, answered a l taught known⟩⟩

/-- A statement whose answer teaches nothing. -/
theorem wp_look {s : Stmt} {next : s.Answer → Program β}
    {P : β → List Write → Locks → Trace → Prop} {writes : List Write} {locks : Locks} {trace : Trace}
    (obeyed : Obeys (svc.regime scope) locks (db.after writes) s)
    (failed : ∀ e, scope.faults e ∨ Raises (svc.regime scope) s e →
      X e (trace ++ [Txn.Ev.stmt s (.error e)]))
    (silent : ∀ a lesson, Teaches s a lesson → lesson = {})
    (answered : ∀ a, svc.wp scope call (next a) ⟨db, writes, locks, trace ++ [Txn.Ev.stmt s (.ok a)]⟩
      (Yields db X P)) :
    svc.wp scope call (execute s >>= next) ⟨db, writes, locks, trace⟩ (Yields db X P) := by
  refine wp_execute obeyed failed fun a lesson taught _ => ?_
  cases silent a lesson taught
  simpa using answered a

/-- The clock, read outside any transaction. -/
theorem wp_now {next : Time → Program β} {trace : Trace} {Q : Except Exc β → Ctx → Prop}
    (failed : ∀ e trace, scope.faults e → Q (.error e) ⟨db, [], [], trace⟩)
    (answered : ∀ now, svc.wp scope call (next now)
      ⟨db, [], [], trace ++ [.stmt .now (.ok now)]⟩ Q) :
    svc.wp scope call (execute .now >>= next) ⟨db, [], [], trace⟩ Q := by
  refine ⟨trivial, fun e raised => failed e _ (raised.resolve_right False.elim), ?_⟩
  rintro now lesson rfl _
  exact answered now

/-- A transaction: its body, what it commits, and what can go wrong. -/
theorem wp_sessionScope {body : Program α} {P : α → List Write → Locks → Trace → Prop}
    {trace : Trace} {Q : Except Exc α → Ctx → Prop}
    (met : svc.wp scope call body ⟨db, [], [], trace⟩ (Yields db X P))
    (committed : ∀ value writes locks trace, P value writes locks trace →
      Describes svc scope call trace db writes ∧
      ∃ keep : List Fact,
        (∀ f ∈ keep, Guarded (svc.regime scope) [] f ∧ f.holds (db.after writes)) ∧
        ∀ db, Wf db → (∀ f ∈ keep, f.holds db) →
          Q (.ok value) ⟨db, [], [], trace ++ [.committed writes]⟩)
    (raised : ∀ e db trace, (∃ seen, trace = seen ++ [.rolledBack] ∧ X e seen) ∨ scope.faults e →
      Wf db → Q (.error e) ⟨db, [], [], trace⟩) :
    svc.wp scope call (sessionScope body) ⟨db, [], [], trace⟩ Q := by
  refine Discipline.wp_andThen (Discipline.wp_mono ?_ met)
  intro r c yielded
  cases r with
  | error e =>
    rintro answer (rfl | ⟨e', faulted, rfl⟩) db' good
    · exact raised e db' _ (Or.inl ⟨c.trace, rfl, yielded⟩) good
    · exact raised e' db' _ (Or.inr faulted) good
  | ok value =>
    obtain ⟨rfl, holds⟩ := yielded
    obtain ⟨described, keep, kept, after⟩ := committed value c.writes c.locks c.trace holds
    refine ⟨described, ⟨keep, kept, ?_⟩, fun e faulted db' good => raised e db' _ (Or.inr faulted) good⟩
    rintro answer (rfl | ⟨e, faulted, rfl⟩) db' good facts
    · exact after db' good facts
    · exact raised e db' _ (Or.inr faulted) good

end Rules

end WebhookReceiver
