import Mathlib.Logic.Function.Basic
import WebhookReceiver.Txn.Program

/-!
Transactions over one store at READ COMMITTED, interleaved statement by
statement.

1. **Locks.**  A lock is held in a mode, by a thread, until the end of its
   transaction. `Exclusive` says an exclusive lock has no other holder; it is
   all the store promises about locks.

2. **The world.**  A thread runs a `Prog`. A statement reads the committed
   store with the thread's own uncommitted writes laid over it, and its writes
   wait in the thread until `commit` applies them all at once: an aborted
   transaction leaves nothing behind except what a statement did at `instant`s,
   which is how sequences behave. A statement that needs a lock another thread
   holds cannot run yet.

3. **The environment.**  `Action` is everything that may happen next: a call
   starts, a thread takes a step, a statement fails with any exception, the
   answer to a commit is lost after the commit took effect, a process dies.

`World.log` keeps the transactions that committed, in commit order, each with
the store it committed on. It is never read by `step`.
-/

namespace Txn

/-! ## Locks -/

inductive Mode where
  | share
  | excl
  deriving DecidableEq

abbrev Tid := Nat

/-- Who holds each lock, and how. -/
abbrev LockTable (Lock : Type) := Lock → List (Tid × Mode)

namespace LockTable

variable {Lock : Type} {table : LockTable Lock} {t u : Tid} {lock : Lock} {mode : Mode}

/-- A thread can have a lock now: nobody else holds it in a conflicting mode. -/
def available (table : LockTable Lock) (t : Tid) (lock : Lock) : Mode → Bool
  | .excl => (table lock).all fun holder => decide (holder.1 = t)
  | .share => (table lock).all fun holder => decide (holder.1 = t) || decide (holder.2 = .share)

def grant [DecidableEq Lock] (table : LockTable Lock) (t : Tid) (locks : List (Lock × Mode)) :
    LockTable Lock :=
  fun lock => ((locks.filter fun wanted => wanted.1 = lock).map fun wanted => (t, wanted.2)) ++
    table lock

def release (table : LockTable Lock) (t : Tid) : LockTable Lock :=
  fun lock => (table lock).filter fun holder => decide (holder.1 ≠ t)

/-- No lock is held exclusively by one thread and at all by another. -/
def Exclusive (table : LockTable Lock) : Prop :=
  ∀ lock t u mode, (t, .excl) ∈ table lock → (u, mode) ∈ table lock → u = t

theorem mem_grant [DecidableEq Lock] {locks : List (Lock × Mode)} :
    (u, mode) ∈ table.grant t locks lock ↔ (u = t ∧ (lock, mode) ∈ locks) ∨ (u, mode) ∈ table lock := by
  simp only [grant, List.mem_append, List.mem_map, List.mem_filter, decide_eq_true_eq, Prod.mk.injEq]
  constructor
  · rintro (⟨⟨found, how⟩, ⟨member, rfl⟩, rfl, rfl⟩ | old)
    · exact Or.inl ⟨rfl, member⟩
    · exact Or.inr old
  · rintro (⟨rfl, member⟩ | old)
    · exact Or.inl ⟨(lock, mode), ⟨member, rfl⟩, rfl, rfl⟩
    · exact Or.inr old

theorem mem_release : (u, mode) ∈ table.release t lock ↔ (u, mode) ∈ table lock ∧ u ≠ t := by
  simp [release]

theorem exclusive_none : Exclusive (fun _ : Lock => []) := by
  intro lock t u mode held
  cases held

theorem available_excl (free : table.available t lock .excl = true) (held : (u, mode) ∈ table lock) :
    u = t := by
  simp only [available, List.all_eq_true, decide_eq_true_eq] at free
  exact free _ held

theorem available_not_excl (free : table.available t lock mode = true)
    (held : (u, .excl) ∈ table lock) : u = t := by
  cases mode with
  | excl => exact available_excl free held
  | share =>
    simp only [available, List.all_eq_true, Bool.or_eq_true, decide_eq_true_eq] at free
    rcases free _ held with same | shared
    · exact same
    · cases shared

theorem Exclusive.grant [DecidableEq Lock] {locks : List (Lock × Mode)} (alone : Exclusive table)
    (free : ∀ wanted ∈ locks, table.available t wanted.1 wanted.2 = true) :
    Exclusive (table.grant t locks) := by
  intro lock a b mode first second
  rw [mem_grant] at first second
  rcases first with ⟨rfl, wanted⟩ | first <;> rcases second with ⟨rfl, wanted'⟩ | second
  · rfl
  · exact available_excl (free _ wanted) second
  · exact (available_not_excl (free _ wanted') first).symm
  · exact alone lock a b mode first second

theorem Exclusive.release (alone : Exclusive table) : Exclusive (table.release t) := by
  intro lock a b mode first second
  exact alone lock a b mode (mem_release.mp first).1 (mem_release.mp second).1

end LockTable

/-! ## Statements and programs over a store -/

/-- What a statement does when it runs: its answer, the writes its transaction
will make, the writes it makes at once and for good, and the locks it takes. -/
structure Reply (W Lock ε ρ : Type) where
  answer : Except ε ρ
  writes : List W := []
  instant : List W := []
  locks : List (Lock × Mode) := []

/-- A store: its row writes, its statements and the calls that run on it. A
statement is given which locks are free to its thread, an input from outside
(the clock, the random numbers) and the store as its transaction sees it, and
answers `none` when it has to wait. -/
structure System (Db W Lock Inp Call S : Type) (R : S → Type) (ε α : Type) where
  apply : W → Db → Db
  exec : (Lock → Mode → Bool) → Inp → Db → (s : S) → Option (Reply W Lock ε (R s))
  program : Call → Prog S R ε α

/-- What a thread has seen: a statement with its answer, or the end of a
transaction. -/
inductive Ev (W S : Type) (R : S → Type) (ε : Type) where
  | stmt (s : S) (answer : Except ε (R s))
  | committed (writes : List W)
  | rolledBack

variable {Db W Lock Inp Call S : Type} {R : S → Type} {ε α : Type}

/-- Apply writes in order, oldest first. -/
def System.applyAll (σ : System Db W Lock Inp Call S R ε α) (writes : List W) (db : Db) : Db :=
  writes.foldl (fun db write => σ.apply write db) db

@[simp] theorem System.applyAll_nil (σ : System Db W Lock Inp Call S R ε α) (db : Db) :
    σ.applyAll [] db = db := rfl

@[simp] theorem System.applyAll_cons (σ : System Db W Lock Inp Call S R ε α) (write : W)
    (writes : List W) (db : Db) :
    σ.applyAll (write :: writes) db = σ.applyAll writes (σ.apply write db) := rfl

/-! ## The world -/

/-- A call in progress: what is left of its program, the writes of its open
transaction and what it has seen so far. -/
structure Thread (W Call S : Type) (R : S → Type) (ε α : Type) where
  call : Call
  prog : Prog S R ε α
  writes : List W
  trace : List (Ev W S R ε)

/-- A transaction that committed, with the store it committed on. -/
structure Entry (Db W Call S : Type) (R : S → Type) (ε : Type) where
  tid : Tid
  call : Call
  trace : List (Ev W S R ε)
  before : Db
  writes : List W

structure World (Db W Lock Call S : Type) (R : S → Type) (ε α : Type) where
  db : Db
  held : LockTable Lock
  threads : Tid → Option (Thread W Call S R ε α)
  log : List (Entry Db W Call S R ε)

/-- A store with nobody at work on it. -/
def World.init (db : Db) : World Db W Lock Call S R ε α where
  db := db
  held := fun _ => []
  threads := fun _ => none
  log := []

inductive Action (Inp Call ε : Type) where
  /-- A new call starts. -/
  | spawn (t : Tid) (call : Call)
  /-- A thread runs its next statement, or ends its transaction. -/
  | run (t : Tid) (input : Inp)
  /-- A thread's next statement, commit or rollback fails; the transaction it ends has no effect. -/
  | fault (t : Tid) (e : ε)
  /-- A commit takes effect, but its thread is told it failed. -/
  | lost (t : Tid) (e : ε)
  /-- A process dies; its open transaction is rolled back. -/
  | kill (t : Tid)

namespace World

variable (w : World Db W Lock Call S R ε α)

/-- Replace one thread. -/
def setThread (t : Tid) (thread : Option (Thread W Call S R ε α)) : World Db W Lock Call S R ε α :=
  { w with threads := Function.update w.threads t thread }

/-- End a thread's transaction without effect. -/
def abandon (t : Tid) (th : Thread W Call S R ε α) (prog : Prog S R ε α) : World Db W Lock Call S R ε α :=
  { w with
    held := w.held.release t
    threads := Function.update w.threads t
      (some { th with prog := prog, writes := [], trace := th.trace ++ [.rolledBack] }) }

/-- End a thread's transaction by applying its writes. -/
def conclude (σ : System Db W Lock Inp Call S R ε α) (t : Tid) (th : Thread W Call S R ε α)
    (prog : Prog S R ε α) : World Db W Lock Call S R ε α where
  db := σ.applyAll th.writes w.db
  held := w.held.release t
  threads := Function.update w.threads t
    (some { th with prog := prog, writes := [], trace := th.trace ++ [.committed th.writes] })
  log := w.log ++ [⟨t, th.call, th.trace, w.db, th.writes⟩]

/-- Carry a statement out. -/
def answer [DecidableEq Lock] (σ : System Db W Lock Inp Call S R ε α) (t : Tid)
    (th : Thread W Call S R ε α) (s : S) (next : Except ε (R s) → Prog S R ε α)
    (reply : Reply W Lock ε (R s)) : World Db W Lock Call S R ε α where
  db := σ.applyAll reply.instant w.db
  held := w.held.grant t reply.locks
  threads := Function.update w.threads t
    (some { th with
      prog := next reply.answer
      writes := th.writes ++ reply.writes
      trace := th.trace ++ [.stmt s reply.answer] })
  log := w.log

/-- A statement fails before it does anything. -/
def refuse (t : Tid) (th : Thread W Call S R ε α) (s : S) (next : Except ε (R s) → Prog S R ε α)
    (e : ε) : World Db W Lock Call S R ε α :=
  w.setThread t (some { th with prog := next (.error e), trace := th.trace ++ [.stmt s (.error e)] })

end World

/-- One step of the world, or `none` when the action is not possible now. -/
def step [DecidableEq Lock] (σ : System Db W Lock Inp Call S R ε α) (w : World Db W Lock Call S R ε α) :
    Action Inp Call ε → Option (World Db W Lock Call S R ε α)
  | .spawn t call =>
    match w.threads t with
    | some _ => none
    | none => some (w.setThread t (some ⟨call, σ.program call, [], []⟩))
  | .run t input =>
    match w.threads t with
    | none => none
    | some th =>
      match th.prog with
      | .done _ => none
      | .rollback next => some (w.abandon t th (next (.ok ())))
      | .commit next => some (w.conclude σ t th (next (.ok ())))
      | .stmt s next =>
        match σ.exec (w.held.available t) input (σ.applyAll th.writes w.db) s with
        | none => none
        | some reply =>
          if reply.locks.all fun wanted => w.held.available t wanted.1 wanted.2 then
            some (w.answer σ t th s next reply)
          else none
  | .fault t e =>
    match w.threads t with
    | none => none
    | some th =>
      match th.prog with
      | .stmt s next => some (w.refuse t th s next e)
      | .commit next => some (w.abandon t th (next (.error e)))
      | .rollback next => some (w.abandon t th (next (.error e)))
      | .done _ => none
  | .lost t e =>
    match w.threads t with
    | none => none
    | some th =>
      match th.prog with
      | .commit next => some (w.conclude σ t th (next (.error e)))
      | _ => none
  | .kill t => some { w with held := w.held.release t, threads := Function.update w.threads t none }

/-- What one step can be. -/
inductive Stepped [DecidableEq Lock] (σ : System Db W Lock Inp Call S R ε α)
    (w : World Db W Lock Call S R ε α) : Action Inp Call ε → World Db W Lock Call S R ε α → Prop where
  | spawned {t : Tid} {call : Call} :
      Stepped σ w (.spawn t call) (w.setThread t (some ⟨call, σ.program call, [], []⟩))
  | answered {t : Tid} {input : Inp} {th : Thread W Call S R ε α} {s : S}
      {next : Except ε (R s) → Prog S R ε α} {reply : Reply W Lock ε (R s)}
      (here : w.threads t = some th) (shape : th.prog = .stmt s next)
      (ran : σ.exec (w.held.available t) input (σ.applyAll th.writes w.db) s = some reply)
      (free : ∀ wanted ∈ reply.locks, w.held.available t wanted.1 wanted.2 = true) :
      Stepped σ w (.run t input) (w.answer σ t th s next reply)
  | refused {t : Tid} {e : ε} {th : Thread W Call S R ε α} {s : S}
      {next : Except ε (R s) → Prog S R ε α} (here : w.threads t = some th)
      (shape : th.prog = .stmt s next) : Stepped σ w (.fault t e) (w.refuse t th s next e)
  /-- A commit takes effect, whatever its thread is told. -/
  | concluded {action : Action Inp Call ε} {t : Tid} {th : Thread W Call S R ε α}
      {next : Except ε Unit → Prog S R ε α} {told : Except ε Unit} (here : w.threads t = some th)
      (shape : th.prog = .commit next)
      (how : (∃ input, action = .run t input) ∧ told = .ok () ∨ ∃ e, action = .lost t e ∧ told = .error e) :
      Stepped σ w action (w.conclude σ t th (next told))
  | rolledBack {action : Action Inp Call ε} {t : Tid} {th : Thread W Call S R ε α}
      {next : Except ε Unit → Prog S R ε α} {told : Except ε Unit} (here : w.threads t = some th)
      (shape : th.prog = .rollback next)
      (how : (∃ input, action = .run t input) ∧ told = .ok () ∨ ∃ e, action = .fault t e ∧ told = .error e) :
      Stepped σ w action (w.abandon t th (next told))
  | uncommitted {t : Tid} {e : ε} {th : Thread W Call S R ε α} {next : Except ε Unit → Prog S R ε α}
      (here : w.threads t = some th) (shape : th.prog = .commit next) :
      Stepped σ w (.fault t e) (w.abandon t th (next (.error e)))
  | killed {t : Tid} : Stepped σ w (.kill t)
      { w with held := w.held.release t, threads := Function.update w.threads t none }

theorem step_cases [DecidableEq Lock] {σ : System Db W Lock Inp Call S R ε α}
    {w w' : World Db W Lock Call S R ε α} {action : Action Inp Call ε}
    (stepped : step σ w action = some w') : Stepped σ w action w' := by
  cases action with
  | spawn t call =>
    simp only [step] at stepped
    split at stepped
    · cases stepped
    · cases stepped
      exact .spawned
  | run t input =>
    simp only [step] at stepped
    cases here : w.threads t with
    | none => simp [here] at stepped
    | some th =>
      cases shape : th.prog with
      | done result => simp [here, shape] at stepped
      | stmt s next =>
        simp only [here, shape] at stepped
        split at stepped
        · cases stepped
        · rename_i reply ran
          split at stepped
          · rename_i free
            cases stepped
            exact .answered here shape ran (by simpa using free)
          · cases stepped
      | commit next =>
        simp only [here, shape, Option.some.injEq] at stepped
        subst stepped
        exact .concluded here shape (Or.inl ⟨⟨input, rfl⟩, rfl⟩)
      | rollback next =>
        simp only [here, shape, Option.some.injEq] at stepped
        subst stepped
        exact .rolledBack here shape (Or.inl ⟨⟨input, rfl⟩, rfl⟩)
  | fault t e =>
    simp only [step] at stepped
    cases here : w.threads t with
    | none => simp [here] at stepped
    | some th =>
      cases shape : th.prog with
      | done result => simp [here, shape] at stepped
      | stmt s next =>
        simp only [here, shape, Option.some.injEq] at stepped
        subst stepped
        exact .refused here shape
      | commit next =>
        simp only [here, shape, Option.some.injEq] at stepped
        subst stepped
        exact .uncommitted here shape
      | rollback next =>
        simp only [here, shape, Option.some.injEq] at stepped
        subst stepped
        exact .rolledBack here shape (Or.inr ⟨e, rfl, rfl⟩)
  | lost t e =>
    simp only [step] at stepped
    cases here : w.threads t with
    | none => simp [here] at stepped
    | some th =>
      cases shape : th.prog with
      | commit next =>
        simp only [here, shape, Option.some.injEq] at stepped
        subst stepped
        exact .concluded here shape (Or.inr ⟨e, rfl, rfl⟩)
      | _ => simp [here, shape] at stepped
  | kill t =>
    simp only [step, Option.some.injEq] at stepped
    subst stepped
    exact .killed

/-- Run a schedule. -/
def run [DecidableEq Lock] (σ : System Db W Lock Inp Call S R ε α) (w : World Db W Lock Call S R ε α) :
    List (Action Inp Call ε) → Option (World Db W Lock Call S R ε α)
  | [] => some w
  | action :: rest => (step σ w action).bind fun w' => run σ w' rest

/-- The worlds that steps within `allow` lead to. -/
inductive Reach [DecidableEq Lock] (σ : System Db W Lock Inp Call S R ε α)
    (allow : World Db W Lock Call S R ε α → Action Inp Call ε → Prop)
    (start : World Db W Lock Call S R ε α) : World Db W Lock Call S R ε α → Prop where
  | start : Reach σ allow start start
  | next {w w' : World Db W Lock Call S R ε α} {action : Action Inp Call ε} :
      Reach σ allow start w → allow w action → step σ w action = some w' → Reach σ allow start w'

section Reach

variable [DecidableEq Lock] {σ : System Db W Lock Inp Call S R ε α}
  {allow allow' : World Db W Lock Call S R ε α → Action Inp Call ε → Prop}
  {first w w' : World Db W Lock Call S R ε α}

theorem Reach.trans (before : Reach σ allow first w) (after : Reach σ allow w w') :
    Reach σ allow first w' := by
  induction after with
  | start => exact before
  | next _ permitted stepped ih => exact ih.next permitted stepped

theorem Reach.mono (reached : Reach σ allow first w) (weaker : ∀ w a, allow w a → allow' w a) :
    Reach σ allow' first w := by
  induction reached with
  | start => exact .start
  | next _ permitted stepped ih => exact ih.next (weaker _ _ permitted) stepped

/-- A schedule all of whose actions are allowed reaches what it runs to. -/
theorem reach_of_run {actions : List (Action Inp Call ε)} (permitted : ∀ w, ∀ a ∈ actions, allow w a)
    (ran : run σ first actions = some w) : Reach σ allow first w := by
  induction actions generalizing first with
  | nil =>
    cases ran
    exact .start
  | cons action rest ih =>
    simp only [run, Option.bind_eq_some_iff] at ran
    obtain ⟨middle, stepped, ran⟩ := ran
    have tail := ih (fun w a member => permitted w a (List.mem_cons_of_mem _ member)) ran
    exact (Reach.start.next (permitted _ _ List.mem_cons_self) stepped).trans tail

/-- No thread comes from nowhere. -/
theorem Stepped.absent {action : Action Inp Call ε} (stepped : Stepped σ w action w') {t : Tid}
    (absent : w.threads t = none) (other : ∀ call, action ≠ .spawn t call) : w'.threads t = none := by
  have apart : ∀ {u th}, w.threads u = some th → t ≠ u := by
    rintro u th here rfl
    rw [absent] at here
    cases here
  cases stepped with
  | @spawned u call => exact (Function.update_of_ne (fun same => other call (by rw [same])) _ _).trans absent
  | answered here => exact (Function.update_of_ne (apart here) _ _).trans absent
  | refused here => exact (Function.update_of_ne (apart here) _ _).trans absent
  | concluded here => exact (Function.update_of_ne (apart here) _ _).trans absent
  | rolledBack here => exact (Function.update_of_ne (apart here) _ _).trans absent
  | uncommitted here => exact (Function.update_of_ne (apart here) _ _).trans absent
  | @killed u =>
    by_cases same : t = u
    · subst same
      exact Function.update_self ..
    · exact (Function.update_of_ne same _ _).trans absent

/-- The thread that an action is about. -/
def Action.tid : Action Inp Call ε → Tid
  | .spawn t _ | .run t _ | .fault t _ | .lost t _ | .kill t => t

/-- A step leaves the other threads as they are. -/
theorem Stepped.others {action : Action Inp Call ε} (stepped : Stepped σ w action w') {t : Tid}
    (other : t ≠ action.tid) : w'.threads t = w.threads t := by
  cases stepped with
  | spawned => exact Function.update_of_ne other _ _
  | answered => exact Function.update_of_ne other _ _
  | refused => exact Function.update_of_ne other _ _
  | concluded here shape how =>
    rcases how with ⟨⟨input, rfl⟩, -⟩ | ⟨e, rfl, -⟩ <;> exact Function.update_of_ne other _ _
  | rolledBack here shape how =>
    rcases how with ⟨⟨input, rfl⟩, -⟩ | ⟨e, rfl, -⟩ <;> exact Function.update_of_ne other _ _
  | uncommitted => exact Function.update_of_ne other _ _
  | killed => exact Function.update_of_ne other _ _

theorem absent_of_run {actions : List (Action Inp Call ε)} (ran : run σ first actions = some w) {t : Tid}
    (absent : first.threads t = none) (other : ∀ call, .spawn t call ∉ actions) : w.threads t = none := by
  induction actions generalizing first with
  | nil =>
    cases ran
    exact absent
  | cons action rest ih =>
    simp only [run, Option.bind_eq_some_iff] at ran
    obtain ⟨middle, stepped, ran⟩ := ran
    refine ih ran ((step_cases stepped).absent absent fun call same => ?_)
      fun call member => other call (List.mem_cons_of_mem _ member)
    exact other call (same ▸ List.mem_cons_self)

/-- Every statement that the threads have run or can come to is of a kind. -/
def World.Only (w : World Db W Lock Call S R ε α) (P : S → Prop) : Prop :=
  ∀ t th, w.threads t = some th →
    th.prog.Only P ∧ ∀ s answer, Ev.stmt s answer ∈ th.trace → P s

omit [DecidableEq Lock] in
theorem World.Only.update {P : S → Prop} (only : w.Only P) {t : Tid} {db : Db} {held : LockTable Lock}
    {thread : Option (Thread W Call S R ε α)} {log : List (Entry Db W Call S R ε)}
    (own : ∀ th, thread = some th → th.prog.Only P ∧ ∀ s answer, Ev.stmt s answer ∈ th.trace → P s) :
    World.Only ⟨db, held, Function.update w.threads t thread, log⟩ P := by
  intro u th here
  by_cases same : u = t
  · subst same
    have there : Function.update w.threads u thread u = some th := here
    rw [Function.update_self] at there
    exact own th there
  · have there : Function.update w.threads t thread u = some th := here
    rw [Function.update_of_ne same] at there
    exact only u th there

/-- A step runs what a program says. -/
theorem Stepped.only {P : S → Prop} {action : Action Inp Call ε} (stepped : Stepped σ w action w')
    (spawned : ∀ t call, action = .spawn t call → (σ.program call).Only P) (only : w.Only P) :
    w'.Only P := by
  cases stepped with
  | @spawned t call =>
    refine only.update ?_
    rintro _ ⟨⟩
    exact ⟨spawned t call rfl, fun s answer member => (by cases member)⟩
  | @answered t input th s next reply here shape =>
    obtain ⟨program, seen⟩ := only t th here
    rw [shape] at program
    refine only.update ?_
    rintro _ ⟨⟩
    refine ⟨program.2 _, fun s' answer member => ?_⟩
    rcases List.mem_append.mp member with old | new
    · exact seen s' answer old
    · cases List.mem_singleton.mp new
      exact program.1
  | @refused t e th s next here shape =>
    obtain ⟨program, seen⟩ := only t th here
    rw [shape] at program
    refine only.update ?_
    rintro _ ⟨⟩
    refine ⟨program.2 _, fun s' answer member => ?_⟩
    rcases List.mem_append.mp member with old | new
    · exact seen s' answer old
    · cases List.mem_singleton.mp new
      exact program.1
  | @concluded _ t th next told here shape =>
    obtain ⟨program, seen⟩ := only t th here
    rw [shape] at program
    refine only.update ?_
    rintro _ ⟨⟩
    exact ⟨program _, fun s answer member => seen s answer (by simpa using member)⟩
  | @rolledBack _ t th next told here shape =>
    obtain ⟨program, seen⟩ := only t th here
    rw [shape] at program
    refine only.update ?_
    rintro _ ⟨⟩
    exact ⟨program _, fun s answer member => seen s answer (by simpa using member)⟩
  | @uncommitted t e th next here shape =>
    obtain ⟨program, seen⟩ := only t th here
    rw [shape] at program
    refine only.update ?_
    rintro _ ⟨⟩
    exact ⟨program _, fun s answer member => seen s answer (by simpa using member)⟩
  | killed =>
    refine only.update ?_
    rintro _ ⟨⟩

theorem Reach.only {P : S → Prop} (reached : Reach σ allow first w) (only : first.Only P)
    (spawned : ∀ w t call, allow w (.spawn t call) → (σ.program call).Only P) : w.Only P := by
  induction reached with
  | start => exact only
  | next _ permitted stepped ih =>
    refine (step_cases stepped).only ?_ ih
    rintro t call rfl
    exact spawned _ t call permitted

end Reach

end Txn
