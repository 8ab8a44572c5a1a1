import Mathlib.Data.DFinsupp.WellFounded
import Mathlib.Logic.Relation
import Mathlib.Tactic.Push
import WebhookReceiver.Txn.World

/-!
Who waits for whom.

A thread waits for another while the other holds a lock that the thread's next
statement wants. Nobody waits for ever, and no two wait for each other, if locks are
taken in an order: whoever waits for a lock holds only locks of a lower rank
(`World.Climbs`). Then a chain of waiting threads climbs the ranks, and it ends at a
thread that can take its next step (`World.Climbs.runs`).

The second half is how one learns what a thread holds. `Locking` says what statements
acquire and what a program owes before it issues one; `keeps` is the condition of a
program, and `World.Accounted` the invariant that it gives.

Where every thread that has not come to its end waits at most for one that can run,
the calls in progress can all be brought to their ends (`World.all_end`): every step
leaves less to do.
-/

namespace Txn

variable {Db W Lock Inp Call S : Type} {R : S → Type} {ε α β γ : Type}

/-- Two threads cannot hold one lock in these modes. -/
def Mode.clashes : Mode → Mode → Bool
  | .share, .share => false
  | _, _ => true

theorem LockTable.available_iff {table : LockTable Lock} {t : Tid} {lock : Lock} {mode : Mode} :
    table.available t lock mode = true ↔
      ∀ u mode', (u, mode') ∈ table lock → mode.clashes mode' = true → u = t := by
  cases mode with
  | excl => simp [available, Mode.clashes]
  | share =>
    simp only [available, List.all_eq_true, Bool.or_eq_true, decide_eq_true_eq]
    constructor
    · intro free u mode' held clash
      rcases free _ held with same | shared
      · exact same
      · subst shared
        cases clash
    · rintro free ⟨u, mode'⟩ held
      cases mode' with
      | share => exact Or.inr rfl
      | excl => exact Or.inl (free u .excl held rfl)

/-! ## Waiting -/

/-- What a statement has to wait for, on the store as its transaction sees it. -/
structure Wanting [DecidableEq Lock] (σ : System Db W Lock Inp Call S R ε α) where
  wants : Db → S → List (Lock × Mode)
  /-- With all of it free, the statement runs and gets the locks it takes. -/
  runs : ∀ {table : LockTable Lock} {t : Tid} {view : Db} {s : S} (input : Inp),
    (∀ wanted ∈ wants view s, table.available t wanted.1 wanted.2 = true) →
    ∃ reply, σ.exec (table.available t) input view s = some reply ∧
      ∀ wanted ∈ reply.locks, table.available t wanted.1 wanted.2 = true
  /-- It does not run without. -/
  waits : ∀ {table : LockTable Lock} {t : Tid} {view : Db} {s : S} {input : Inp} {reply : Reply W Lock ε (R s)},
    σ.exec (table.available t) input view s = some reply →
    (∀ wanted ∈ reply.locks, table.available t wanted.1 wanted.2 = true) →
    ∀ wanted ∈ wants view s, table.available t wanted.1 wanted.2 = true

section Waiting

variable [DecidableEq Lock] {σ : System Db W Lock Inp Call S R ε α} (wanting : Wanting σ)
  (w : World Db W Lock Call S R ε α)

/-- The thread's next statement wants the lock, in this mode. -/
def Wanting.Wants (t : Tid) (lock : Lock) (mode : Mode) : Prop :=
  ∃ th s next, w.threads t = some th ∧ th.prog = .stmt s next ∧
    (lock, mode) ∈ wanting.wants (σ.applyAll th.writes w.db) s

/-- The next statement of `t` wants a lock that `u` holds. -/
def Wanting.WaitsFor (t u : Tid) : Prop :=
  u ≠ t ∧ ∃ lock mode mode', wanting.Wants w t lock mode ∧ (u, mode') ∈ w.held lock ∧ mode.clashes mode' = true

/-- The thread is there, and has not come to its result. -/
def World.Busy (t : Tid) : Prop := ∃ th, w.threads t = some th ∧ th.prog.isDone = false

/-- The thread can take its next step, whatever the outside supplies to it. -/
def World.CanRun (σ : System Db W Lock Inp Call S R ε α) (w : World Db W Lock Call S R ε α) (t : Tid) : Prop :=
  ∀ input, ∃ w', step σ w (.run t input) = some w'

variable {wanting w} {t u : Tid}

/-- A thread that is not at its end runs, or waits for another. -/
theorem Wanting.runs_or_waits (busy : w.Busy t) : w.CanRun σ t ∨ ∃ u, wanting.WaitsFor w t u := by
  obtain ⟨th, here, going⟩ := busy
  cases shape : th.prog with
  | done result => simp [shape, Prog.isDone] at going
  | commit next => exact Or.inl fun input => ⟨w.conclude σ t th (next (.ok ())), by simp [step, here, shape]⟩
  | rollback next => exact Or.inl fun input => ⟨w.abandon t th (next (.ok ())), by simp [step, here, shape]⟩
  | stmt s next =>
    by_cases free : ∀ wanted ∈ wanting.wants (σ.applyAll th.writes w.db) s,
        w.held.available t wanted.1 wanted.2 = true
    · refine Or.inl fun input => ?_
      obtain ⟨reply, ran, got⟩ := wanting.runs input free
      have all : (reply.locks.all fun wanted => w.held.available t wanted.1 wanted.2) = true :=
        List.all_eq_true.mpr got
      refine ⟨w.answer σ t th s next reply, ?_⟩
      simp only [step, here, shape, ran]
      exact if_pos all
    · push Not at free
      obtain ⟨⟨lock, mode⟩, wanted, taken⟩ := free
      have held : ¬ ∀ u mode', (u, mode') ∈ w.held lock → mode.clashes mode' = true → u = t :=
        fun none => taken (LockTable.available_iff.mpr none)
      push Not at held
      obtain ⟨u, mode', held, clash, other⟩ := held
      exact Or.inr ⟨u, other, lock, mode, mode', ⟨th, s, next, here, shape, wanted⟩, held, clash⟩

/-- A thread that waits for another cannot take its next step. -/
theorem Wanting.WaitsFor.stuck (waits : wanting.WaitsFor w t u) (input : Inp) :
    step σ w (.run t input) = none := by
  obtain ⟨other, lock, mode, mode', ⟨th, s, next, here, shape, wanted⟩, held, clash⟩ := waits
  simp only [step, here, shape]
  cases ran : σ.exec (w.held.available t) input (σ.applyAll th.writes w.db) s with
  | none => rfl
  | some reply =>
    refine if_neg fun all => other ?_
    have free := wanting.waits ran (List.all_eq_true.mp all) _ wanted
    exact LockTable.available_iff.mp free u mode' held clash

/-! ## Ranks -/

/-- Locks are held by threads that are not at their end, and a thread that waits for a
lock holds only locks of a lower rank. -/
structure World.Climbs (wanting : Wanting σ) (rank : Lock → Nat) (w : World Db W Lock Call S R ε α) : Prop where
  busy : ∀ {t lock mode}, (t, mode) ∈ w.held lock → w.Busy t
  climbs : ∀ {t u lock mode mode'}, u ≠ t → wanting.Wants w t lock mode → (u, mode') ∈ w.held lock →
    mode.clashes mode' = true → ∀ own mode'', (t, mode'') ∈ w.held own → rank own < rank lock

namespace World.Climbs

variable {rank : Lock → Nat} (climbs : w.Climbs wanting rank)
include climbs

/-- Along the chain some lock of the thread waited for outranks all of the one that waits. -/
theorem outranked (chain : Relation.TransGen (wanting.WaitsFor w) t u) {own : Lock} {mode : Mode}
    (held : (t, mode) ∈ w.held own) : ∃ lock mode', (u, mode') ∈ w.held lock ∧ rank own < rank lock := by
  induction chain with
  | single waits =>
    obtain ⟨other, lock, mode', mode'', wants, theirs, clash⟩ := waits
    exact ⟨lock, mode'', theirs, climbs.climbs other wants theirs clash own mode held⟩
  | tail _ waits ih =>
    obtain ⟨between, mode', ours, less⟩ := ih
    obtain ⟨other, lock, _, mode'', wants, theirs, clash⟩ := waits
    exact ⟨lock, mode'', theirs, Nat.lt_trans less (climbs.climbs other wants theirs clash between mode' ours)⟩

/-- No thread waits for itself, through however many others. -/
theorem acyclic {bound : Nat} (bounded : ∀ lock, rank lock ≤ bound) :
    ¬ Relation.TransGen (wanting.WaitsFor w) t t := by
  intro cycle
  -- a lock of `t` of any rank is outranked by another of its own
  have none : ∀ n lock mode, bound - rank lock ≤ n → (t, mode) ∉ w.held lock := by
    intro n
    induction n with
    | zero =>
      intro lock mode low held
      obtain ⟨above, _, _, less⟩ := climbs.outranked cycle held
      have top := bounded above
      omega
    | succ n ih =>
      intro lock mode low held
      obtain ⟨above, mode', theirs, less⟩ := climbs.outranked cycle held
      have top := bounded above
      exact ih above mode' (by omega) theirs
  obtain ⟨last, -, waits⟩ := Relation.TransGen.tail'_iff.mp cycle
  obtain ⟨-, lock, _, mode, -, held, -⟩ := waits
  exact none _ lock mode (Nat.le_refl _) held

/-- Whoever waits, waits in the end for a thread that can run. -/
theorem runs {bound : Nat} (bounded : ∀ lock, rank lock ≤ bound) (busy : w.Busy t) :
    ∃ u, Relation.ReflTransGen (wanting.WaitsFor w) t u ∧ w.CanRun σ u := by
  -- by how far the locks of a thread are from the highest rank
  have holder : ∀ n u lock mode, (u, mode) ∈ w.held lock → bound - rank lock ≤ n →
      ∃ last, Relation.ReflTransGen (wanting.WaitsFor w) u last ∧ w.CanRun σ last := by
    intro n
    induction n with
    | zero =>
      intro u lock mode held low
      rcases wanting.runs_or_waits (climbs.busy held) with can | ⟨v, waits⟩
      · exact ⟨u, .refl, can⟩
      · obtain ⟨above, _, _, less⟩ := climbs.outranked (.single waits) held
        have top := bounded above
        omega
    | succ n ih =>
      intro u lock mode held low
      rcases wanting.runs_or_waits (climbs.busy held) with can | ⟨v, waits⟩
      · exact ⟨u, .refl, can⟩
      · obtain ⟨above, mode', theirs, less⟩ := climbs.outranked (.single waits) held
        have top := bounded above
        obtain ⟨last, chain, can⟩ := ih v above mode' theirs (by omega)
        exact ⟨last, .head waits chain, can⟩
  rcases wanting.runs_or_waits busy with can | ⟨u, waits⟩
  · exact ⟨t, .refl, can⟩
  · obtain ⟨-, lock, _, mode, -, held, -⟩ := id waits
    obtain ⟨last, chain, can⟩ := holder _ u lock mode held (Nat.le_refl _)
    exact ⟨last, .head waits chain, can⟩

end World.Climbs

end Waiting

/-! ## What a thread holds -/

/-- How statements come by locks, and what a program owes before it issues one. -/
structure Locking (σ : System Db W Lock Inp Call S R ε α) where
  acquires : (s : S) → R s → List (Lock × Mode) → Prop
  owes : List (Lock × Mode) → S → Prop
  /-- A lock that is never taken without another. -/
  guardian : Lock → Option Lock
  acquired : ∀ {avail inp view s reply} {locks : List (Lock × Mode)}, owes locks s →
    σ.exec avail inp view s = some reply →
    (∀ e, reply.answer = .error e → reply.locks = []) ∧ ∀ a, reply.answer = .ok a → acquires s a reply.locks
  guarded : ∀ {s a taken} {lock guard : Lock} {mode : Mode}, acquires s a taken → (lock, mode) ∈ taken →
    guardian lock = some guard → ∃ mode', (guard, mode') ∈ taken

namespace Locking

variable {σ : System Db W Lock Inp Call S R ε α} (locking : Locking σ)

/-- The program pays what it owes, and ends with locks that meet `Q`. -/
def keeps (Q : Except ε β → List (Lock × Mode) → Prop) : Prog S R ε β → List (Lock × Mode) → Prop
  | .done result, locks => Q result locks
  | .stmt s next, locks =>
    locking.owes locks s ∧ (∀ e, keeps Q (next (.error e)) locks) ∧
      ∀ a taken, locking.acquires s a taken → keeps Q (next (.ok a)) (locks ++ taken)
  | .commit next, _ => ∀ told, keeps Q (next told) []
  | .rollback next, _ => ∀ told, keeps Q (next told) []

/-- What a value leaves meets `P`; an exception leaves anything. -/
def Gets (P : β → List (Lock × Mode) → Prop) : Except ε β → List (Lock × Mode) → Prop
  | .ok value, locks => P value locks
  | .error _, _ => True

variable {locking} {locks : List (Lock × Mode)}

theorem keeps_mono {prog : Prog S R ε β} {Q Q' : Except ε β → List (Lock × Mode) → Prop}
    (weaker : ∀ r locks, Q r locks → Q' r locks) (kept : locking.keeps Q prog locks) :
    locking.keeps Q' prog locks := by
  induction prog generalizing locks with
  | done result => exact weaker _ _ kept
  | stmt s next ih =>
    obtain ⟨owed, failed, answered⟩ := kept
    exact ⟨owed, fun e => ih _ (failed e), fun a taken acquired => ih _ (answered a taken acquired)⟩
  | commit next ih => exact fun told => ih _ (kept told)
  | rollback next ih => exact fun told => ih _ (kept told)

theorem keeps_andThen {first : Prog S R ε γ} {next : Except ε γ → Prog S R ε β}
    {Q : Except ε β → List (Lock × Mode) → Prop}
    (kept : locking.keeps (fun r locks => locking.keeps Q (next r) locks) first locks) :
    locking.keeps Q (first.andThen next) locks := by
  induction first generalizing locks with
  | done result => exact kept
  | stmt s rest ih =>
    obtain ⟨owed, failed, answered⟩ := kept
    exact ⟨owed, fun e => ih _ (failed e), fun a taken acquired => ih _ (answered a taken acquired)⟩
  | commit rest ih => exact fun told => ih _ (kept told)
  | rollback rest ih => exact fun told => ih _ (kept told)

theorem keeps_bind {first : Prog S R ε γ} {next : γ → Prog S R ε β}
    {P : γ → List (Lock × Mode) → Prop} {P' : β → List (Lock × Mode) → Prop}
    (kept : locking.keeps (Gets P) first locks)
    (rest : ∀ value locks, P value locks → locking.keeps (Gets P') (next value) locks) :
    locking.keeps (Gets P') (first >>= next) locks := by
  refine keeps_andThen (keeps_mono (fun r locks got => ?_) kept)
  cases r with
  | ok value => exact rest value locks got
  | error e => exact trivial

theorem keeps_perform {s : S} {P : R s → List (Lock × Mode) → Prop} (owed : locking.owes locks s)
    (answered : ∀ a taken, locking.acquires s a taken → P a (locks ++ taken)) :
    locking.keeps (Gets P) (Prog.perform s) locks :=
  ⟨owed, fun _ => trivial, answered⟩

end Locking

/-! ## Runs -/

section Runs

variable [DecidableEq Lock] {σ : System Db W Lock Inp Call S R ε α} {locking : Locking σ}
  {w w' : World Db W Lock Call S R ε α} {action : Action Inp Call ε} {t : Tid}

/-- What a thread holds, its program has acquired; a guarded lock is held with its guard. -/
structure World.Accounted (locking : Locking σ) (w : World Db W Lock Call S R ε α) : Prop where
  holds : ∀ {t th}, w.threads t = some th →
    ∃ locks, (∀ lock mode, (t, mode) ∈ w.held lock ↔ (lock, mode) ∈ locks) ∧
    locking.keeps (fun _ locks => locks = []) th.prog locks
  absent : ∀ {t lock mode}, w.threads t = none → (t, mode) ∉ w.held lock
  guarded : ∀ {t lock mode guard}, (t, mode) ∈ w.held lock → locking.guardian lock = some guard →
    ∃ mode', (t, mode') ∈ w.held guard

namespace World.Accounted

omit [DecidableEq Lock] in
theorem init (db : Db) : (World.init db : World Db W Lock Call S R ε α).Accounted locking where
  holds here := by cases here
  absent _ := List.not_mem_nil
  guarded held := by cases held

variable (accounted : w.Accounted locking)
include accounted

omit [DecidableEq Lock] in
/-- A step of one thread leaves the account of the others alone. -/
theorem change (others : ∀ u, u ≠ t → w'.threads u = w.threads u ∧
      ∀ lock mode, (u, mode) ∈ w'.held lock ↔ (u, mode) ∈ w.held lock)
    (own : ∀ th, w'.threads t = some th → ∃ locks,
      (∀ lock mode, (t, mode) ∈ w'.held lock ↔ (lock, mode) ∈ locks) ∧
      locking.keeps (fun _ locks => locks = []) th.prog locks)
    (gone : w'.threads t = none → ∀ lock mode, (t, mode) ∉ w'.held lock)
    (guard : ∀ lock mode guard, (t, mode) ∈ w'.held lock → locking.guardian lock = some guard →
      ∃ mode', (t, mode') ∈ w'.held guard) : w'.Accounted locking where
  holds := by
    intro u th here
    by_cases same : u = t
    · subst same
      exact own th here
    · obtain ⟨kept, held⟩ := others u same
      obtain ⟨locks, account, keeps⟩ := accounted.holds (kept ▸ here)
      exact ⟨locks, fun lock mode => (held lock mode).trans (account lock mode), keeps⟩
  absent := by
    intro u lock mode none
    by_cases same : u = t
    · subst same
      exact gone none lock mode
    · obtain ⟨kept, held⟩ := others u same
      exact fun holding => accounted.absent (kept ▸ none) ((held lock mode).mp holding)
  guarded := by
    intro u lock mode guardLock held guardian
    by_cases same : u = t
    · subst same
      exact guard lock mode guardLock held guardian
    · obtain ⟨-, keeps⟩ := others u same
      obtain ⟨mode', holding⟩ := accounted.guarded ((keeps lock mode).mp held) guardian
      exact ⟨mode', (keeps guardLock mode').mpr holding⟩

omit [DecidableEq Lock] in
/-- The same where the thread lets go of all its locks. -/
theorem released {db : Db} {log : List (Entry Db W Call S R ε)} {thread : Option (Thread W Call S R ε α)}
    (own : ∀ th, thread = some th → locking.keeps (fun _ locks => locks = []) th.prog []) :
    (World.mk db (w.held.release t) (Function.update w.threads t thread) log).Accounted locking := by
  have free : ∀ lock mode, (t, mode) ∉ w.held.release t lock := fun lock mode held =>
    (LockTable.mem_release.mp held).2 rfl
  refine accounted.change (t := t) (fun u other => ⟨Function.update_of_ne other _ _, fun lock mode => ?_⟩) ?_
    (fun _ => free) fun lock mode guard held => absurd held (free lock mode)
  · exact ⟨fun held => (LockTable.mem_release.mp held).1, fun held => LockTable.mem_release.mpr ⟨held, other⟩⟩
  · intro th here
    have same : thread = some th := (Function.update_self t thread w.threads).symm.trans here
    exact ⟨[], fun lock mode => by simp [free lock mode], own th same⟩

theorem step (spawned : ∀ t call, action = .spawn t call →
      locking.keeps (fun _ locks => locks = []) (σ.program call) [])
    (stepped : Txn.step σ w action = some w') : w'.Accounted locking := by
  cases step_cases stepped with
  | @spawned t call =>
    have absent : w.threads t = none := by
      cases here : w.threads t with
      | none => rfl
      | some th => simp [Txn.step, here] at stepped
    refine accounted.change (t := t)
      (fun u other => ⟨Function.update_of_ne other _ _, fun _ _ => Iff.rfl⟩) ?_ ?_ ?_
    · intro th here
      have same := (Function.update_self t _ w.threads).symm.trans here
      cases same
      exact ⟨[], fun lock mode => iff_of_false (accounted.absent absent) List.not_mem_nil, spawned t call rfl⟩
    · exact fun _ lock mode => accounted.absent absent
    · exact fun lock mode guard held => absurd held (accounted.absent absent)
  | @answered t input th s next reply here shape ran free =>
    obtain ⟨locks, account, keeps⟩ := accounted.holds here
    rw [shape] at keeps
    obtain ⟨owed, failed, answered⟩ := keeps
    obtain ⟨refused, acquired⟩ := locking.acquired owed ran
    refine accounted.change (t := t)
      (fun u other => ⟨Function.update_of_ne other _ _, fun lock mode => ?_⟩) ?_ ?_ ?_
    · exact LockTable.mem_grant.trans ⟨fun held => held.resolve_left fun own => other own.1, Or.inr⟩
    · intro th' here'
      have same := (Function.update_self t _ w.threads).symm.trans here'
      cases same
      refine ⟨locks ++ reply.locks, fun lock mode => ?_, ?_⟩
      · refine LockTable.mem_grant.trans ?_
        rw [List.mem_append, ← account, or_comm]
        simp
      · cases told : reply.answer with
        | error e =>
          rw [refused e told, List.append_nil]
          exact failed e
        | ok a => exact answered a _ (acquired a told)
    · intro none
      have same := (Function.update_self t _ w.threads).symm.trans none
      cases same
    · intro lock mode guard held guardian
      rcases LockTable.mem_grant.mp held with ⟨-, taken⟩ | before
      · cases told : reply.answer with
        | error e =>
          rw [refused e told] at taken
          cases taken
        | ok a =>
          obtain ⟨mode', also⟩ := locking.guarded (acquired a told) taken guardian
          exact ⟨mode', LockTable.mem_grant.mpr (Or.inl ⟨rfl, also⟩)⟩
      · obtain ⟨mode', also⟩ := accounted.guarded before guardian
        exact ⟨mode', LockTable.mem_grant.mpr (Or.inr also)⟩
  | @refused t e th s next here shape =>
    obtain ⟨locks, account, keeps⟩ := accounted.holds here
    rw [shape] at keeps
    refine accounted.change (t := t)
      (fun u other => ⟨Function.update_of_ne other _ _, fun _ _ => Iff.rfl⟩) ?_ ?_
      fun lock mode guard => accounted.guarded
    · intro th' here'
      have same := (Function.update_self t _ w.threads).symm.trans here'
      cases same
      exact ⟨locks, account, keeps.2.1 e⟩
    · intro none
      have same := (Function.update_self t _ w.threads).symm.trans none
      cases same
  | concluded here shape =>
    obtain ⟨locks, -, keeps⟩ := accounted.holds here
    rw [shape] at keeps
    exact accounted.released fun th same => by cases same; exact keeps _
  | rolledBack here shape =>
    obtain ⟨locks, -, keeps⟩ := accounted.holds here
    rw [shape] at keeps
    exact accounted.released fun th same => by cases same; exact keeps _
  | uncommitted here shape =>
    obtain ⟨locks, -, keeps⟩ := accounted.holds here
    rw [shape] at keeps
    exact accounted.released fun th same => by cases same; exact keeps _
  | killed => exact accounted.released fun th none => by cases none

omit [DecidableEq Lock] in
/-- A thread that holds a lock is not at its end. -/
theorem busy {lock : Lock} {mode : Mode} (held : (t, mode) ∈ w.held lock) : w.Busy t := by
  cases here : w.threads t with
  | none => exact absurd held (accounted.absent here)
  | some th =>
    refine ⟨th, here, ?_⟩
    obtain ⟨locks, account, keeps⟩ := accounted.holds here
    cases shape : th.prog with
    | done result =>
      rw [shape] at keeps
      have none : locks = [] := keeps
      have member := (account lock mode).mp held
      rw [none] at member
      cases member
    | _ => rfl

end World.Accounted

theorem Reach.accounted {allow : World Db W Lock Call S R ε α → Action Inp Call ε → Prop} {start : Db}
    (spawned : ∀ w t call, allow w (.spawn t call) →
      locking.keeps (fun _ locks => locks = []) (σ.program call) [])
    (reached : Reach σ allow (World.init start) w) : w.Accounted locking := by
  induction reached with
  | start => exact World.Accounted.init start
  | next _ permitted stepped ih =>
    refine ih.step (fun t call same => ?_) stepped
    subst same
    exact spawned _ t call permitted

/-- Exclusive locks are exclusive, whatever happens. -/
theorem Reach.exclusive {allow : World Db W Lock Call S R ε α → Action Inp Call ε → Prop} {start : Db}
    (reached : Reach σ allow (World.init start) w) : w.held.Exclusive := by
  induction reached with
  | start => exact LockTable.exclusive_none
  | next _ permitted stepped ih =>
    cases step_cases stepped with
    | spawned => exact ih
    | answered here shape ran free => exact ih.grant free
    | refused => exact ih
    | concluded => exact ih.release
    | rolledBack => exact ih.release
    | uncommitted => exact ih.release
    | killed => exact ih.release

end Runs

/-! ## Rest -/

/-- What a program is after one step. -/
inductive Prog.After : Prog S R ε α → Prog S R ε α → Prop where
  | stmt {s : S} {next : Except ε (R s) → Prog S R ε α} (answer : Except ε (R s)) :
      After (next answer) (.stmt s next)
  | commit {next : Except ε Unit → Prog S R ε α} (told : Except ε Unit) : After (next told) (.commit next)
  | rollback {next : Except ε Unit → Prog S R ε α} (told : Except ε Unit) : After (next told) (.rollback next)

theorem Prog.after_wellFounded : WellFounded (Prog.After (S := S) (R := R) (ε := ε) (α := α)) := by
  constructor
  intro prog
  induction prog with
  | done result =>
    constructor
    intro before after
    cases after
  | stmt s next ih =>
    constructor
    intro before after
    cases after with
    | stmt answer => exact ih answer
  | commit next ih =>
    constructor
    intro before after
    cases after with
    | commit told => exact ih told
  | rollback next ih =>
    constructor
    intro before after
    cases after with
    | rollback told => exact ih told

section Rest

variable [DecidableEq Lock] {σ : System Db W Lock Inp Call S R ε α} {w w' : World Db W Lock Call S R ε α}
  {t : Tid}

/-- Nobody has a number this high. -/
def World.Few (w : World Db W Lock Call S R ε α) (count : Nat) : Prop := ∀ t, count ≤ t → w.threads t = none

theorem Reach.few {allow : World Db W Lock Call S R ε α → Action Inp Call ε → Prop} {start : Db}
    (reached : Reach σ allow (World.init start) w) : ∃ count, w.Few count := by
  induction reached with
  | start => exact ⟨0, fun _ _ => rfl⟩
  | @next before after action _ permitted stepped ih =>
    obtain ⟨count, few⟩ := ih
    refine ⟨max count (action.tid + 1), fun t high => ?_⟩
    have other : t ≠ action.tid := Nat.ne_of_gt ((Nat.le_max_right count (action.tid + 1)).trans high)
    rw [(step_cases stepped).others other]
    exact few t ((Nat.le_max_left ..).trans high)

/-- What is left of the programs of the threads. -/
def World.left (w : World Db W Lock Call S R ε α) (count : Nat) : Fin count → Option (Prog S R ε α) :=
  fun t => (w.threads t).map (·.prog)

/-- A thread has less to do. -/
inductive Less : Option (Prog S R ε α) → Option (Prog S R ε α) → Prop where
  | after {prog prog' : Prog S R ε α} (after : prog'.After prog) : Less (some prog') (some prog)

theorem less_wellFounded : WellFounded (Less (S := S) (R := R) (ε := ε) (α := α)) := by
  have started : ∀ prog : Prog S R ε α, Acc Less (some prog) := by
    intro prog
    induction prog using Prog.after_wellFounded.induction with
    | _ prog ih =>
      constructor
      intro before less
      cases less with
      | after after => exact ih _ after
  constructor
  intro thread
  cases thread with
  | some prog => exact started prog
  | none =>
    constructor
    intro before less
    cases less

theorem Stepped.after {input : Inp} (stepped : Stepped σ w (.run t input) w') :
    ∃ th th', w.threads t = some th ∧ w'.threads t = some th' ∧ th'.prog.After th.prog := by
  generalize same : Action.run t input = action at stepped
  cases stepped with
  | spawned => cases same
  | answered here shape =>
    cases same
    exact ⟨_, _, here, Function.update_self .., shape ▸ .stmt _⟩
  | refused => cases same
  | concluded here shape how =>
    rcases how with ⟨⟨_, rfl⟩, rfl⟩ | ⟨_, rfl, -⟩ <;> cases same
    exact ⟨_, _, here, Function.update_self .., shape ▸ .commit _⟩
  | rolledBack here shape how =>
    rcases how with ⟨⟨_, rfl⟩, rfl⟩ | ⟨_, rfl, -⟩ <;> cases same
    exact ⟨_, _, here, Function.update_self .., shape ▸ .rollback _⟩
  | uncommitted => cases same
  | killed => cases same

/-- Where somebody can run while anybody has something to do, all calls can come to
their ends, whatever the outside supplies. -/
theorem World.all_end {P : World Db W Lock Call S R ε α → Prop}
    (inputs : World Db W Lock Call S R ε α → Tid → Inp)
    (kept : ∀ {w w' t}, P w → step σ w (.run t (inputs w t)) = some w' → P w')
    (moves : ∀ {w t}, P w → w.Busy t → ∃ u, w.CanRun σ u) {count : Nat} (few : w.Few count) (starts : P w) :
    ∃ w', Reach σ (fun w action => ∃ t, action = .run t (inputs w t)) w w' ∧ P w' ∧ ∀ t, ¬ w'.Busy t := by
  have descends := InvImage.wf (World.left · count : World Db W Lock Call S R ε α → _)
    (Pi.Lex.wellFounded (· < ·) fun _ : Fin count => less_wellFounded)
  induction w using descends.induction with
  | _ w ih =>
    by_cases busy : ∃ t, w.Busy t
    · obtain ⟨t, busy⟩ := busy
      obtain ⟨u, can⟩ := moves starts busy
      obtain ⟨w', stepped⟩ := can (inputs w u)
      obtain ⟨th, th', here, here', after⟩ := (step_cases stepped).after
      have low : u < count := by
        by_contra high
        rw [few u (Nat.le_of_not_lt high)] at here
        cases here
      have less : InvImage (Pi.Lex (· < ·) fun {_} => Less) (World.left · count) w' w := by
        refine ⟨⟨u, low⟩, fun v before => ?_, ?_⟩
        · have other : v.val ≠ u := Nat.ne_of_lt before
          simp only [World.left, (step_cases stepped).others other]
        · simp only [World.left, here, here', Option.map_some]
          exact .after after
      have few' : w'.Few count := by
        intro v high
        have other : v ≠ u := Nat.ne_of_gt (Nat.lt_of_lt_of_le low high)
        rw [(step_cases stepped).others other]
        exact few v high
      obtain ⟨last, reached, well, rest⟩ := ih w' less few' (kept starts stepped)
      exact ⟨last, (Reach.start.next ⟨u, rfl⟩ stepped).trans reached, well, rest⟩
    · exact ⟨w, .start, starts, fun t working => busy ⟨t, working⟩⟩

end Rest

end Txn
