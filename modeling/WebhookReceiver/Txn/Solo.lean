import WebhookReceiver.Txn.World

/-!
Calls with the store to themselves, one after the other.

`solo` runs a program to its end with every lock free. `serially` runs calls one by
one, each on the store the last one left, and `serially_run` says that this is what
the world does when it is given one call at a time.
-/

namespace Txn

variable {Db W Lock Inp Call S : Type} {R : S → Type} {ε α β : Type}

section Solo

variable (σ : System Db W Lock Inp Call S R ε α) (input : Inp)

/-- Run a program with nobody else at work: its result, the writes that it left
pending, and the store. `none` when a statement waits although every lock is free. -/
def System.solo : Prog S R ε β → List W → Db → Option (Except ε β × List W × Db)
  | .done result, writes, db => some (result, writes, db)
  | .stmt s next, writes, db =>
    match σ.exec (fun _ _ => true) input (σ.applyAll writes db) s with
    | none => none
    | some reply =>
      System.solo (next reply.answer) (writes ++ reply.writes) (σ.applyAll reply.instant db)
  | .commit next, writes, db => System.solo (next (.ok ())) [] (σ.applyAll writes db)
  | .rollback next, _, db => System.solo (next (.ok ())) [] db

/-- The store after a call that ran alone. -/
def System.alone (db : Db) (call : Call) : Option Db :=
  (σ.solo input (σ.program call) [] db).map fun ended => ended.2.2

/-- The store after calls that ran one at a time. -/
def System.serially (db : Db) (calls : List Call) : Option Db := calls.foldlM (σ.alone input) db

variable {σ input} {db : Db} {writes : List W}

theorem System.solo_andThen {γ : Type} (first : Prog S R ε γ) (next : Except ε γ → Prog S R ε β) :
    σ.solo input (first.andThen next) writes db =
      (σ.solo input first writes db).bind fun ended =>
        σ.solo input (next ended.1) ended.2.1 ended.2.2 := by
  induction first generalizing writes db with
  | done result => rfl
  | stmt s rest ih =>
    simp only [Prog.andThen, System.solo]
    cases σ.exec (fun _ _ => true) input (σ.applyAll writes db) s with
    | none => rfl
    | some reply => exact ih reply.answer
  | commit rest ih => exact ih (.ok ())
  | rollback rest ih => exact ih (.ok ())

end Solo

/-! ## As runs of the world -/

section Runs

variable [DecidableEq Lock] {σ : System Db W Lock Inp Call S R ε α} {input : Inp}

/-- Nobody but the thread holds a lock or is at work. -/
structure World.OnlyThread (w : World Db W Lock Call S R ε α) (t : Tid) : Prop where
  locks : ∀ lock, ∀ holder ∈ w.held lock, holder.1 = t
  threads : ∀ u, u ≠ t → w.threads u = none

section OnlyThread

variable {w : World Db W Lock Call S R ε α} {t : Tid} {th : Thread W Call S R ε α}

omit [DecidableEq Lock] in
theorem World.OnlyThread.available (only : w.OnlyThread t) : w.held.available t = fun _ _ => true := by
  funext lock mode
  have own := only.locks lock
  cases mode with
  | excl => simpa [LockTable.available] using own
  | share =>
    simp only [LockTable.available, List.all_eq_true, Bool.or_eq_true, decide_eq_true_eq]
    exact fun holder member => Or.inl (own holder member)

omit [DecidableEq Lock] in
theorem World.OnlyThread.update (only : w.OnlyThread t) {db : Db} {held : LockTable Lock}
    {thread : Option (Thread W Call S R ε α)} {log : List (Entry Db W Call S R ε)}
    (own : ∀ lock, ∀ holder ∈ held lock, holder ∈ w.held lock ∨ holder.1 = t) :
    World.OnlyThread ⟨db, held, Function.update w.threads t thread, log⟩ t := by
  constructor
  · intro lock holder member
    rcases own lock holder member with old | new
    · exact only.locks lock holder old
    · exact new
  · intro u other
    exact (Function.update_of_ne other ..).trans (only.threads u other)

omit [DecidableEq Lock] in
theorem release_own (lock : Lock) :
    ∀ holder ∈ w.held.release t lock, holder ∈ w.held lock ∨ holder.1 = t :=
  fun _ member => Or.inl (LockTable.mem_release.mp member).1

theorem grant_own (locks : List (Lock × Mode)) (lock : Lock) :
    ∀ holder ∈ w.held.grant t locks lock, holder ∈ w.held lock ∨ holder.1 = t := by
  rintro ⟨u, mode⟩ member
  rcases LockTable.mem_grant.mp member with ⟨same, -⟩ | old
  · exact Or.inr same
  · exact Or.inl old

/-- A thread that is alone does what `solo` says. -/
theorem solo_run {prog : Prog S R ε α} {call : Call} {pending : List W} {trace : List (Ev W S R ε)}
    (only : w.OnlyThread t) (here : w.threads t = some ⟨call, prog, pending, trace⟩)
    {result : Except ε α} {writes : List W} {db : Db}
    (ran : σ.solo input prog pending w.db = some (result, writes, db)) :
    ∃ n w', run σ w (List.replicate n (.run t input)) = some w' ∧ w'.OnlyThread t ∧ w'.db = db := by
  induction prog generalizing w pending trace with
  | done value =>
    cases ran
    exact ⟨0, w, rfl, only, rfl⟩
  | stmt s next ih =>
    simp only [System.solo] at ran
    split at ran
    · cases ran
    · rename_i reply executed
      let w₁ := w.answer σ t ⟨call, .stmt s next, pending, trace⟩ s next reply
      have stepped : step σ w (.run t input) = some w₁ := by
        simp [step, here, only.available, executed, w₁]
      have only₁ : w₁.OnlyThread t := only.update (grant_own reply.locks)
      have here₁ : w₁.threads t = some ⟨call, next reply.answer, pending ++ reply.writes,
          trace ++ [Ev.stmt s reply.answer]⟩ := Function.update_self ..
      obtain ⟨n, w', went, there⟩ := ih reply.answer only₁ here₁ ran
      refine ⟨n + 1, w', ?_, there⟩
      rw [List.replicate_succ, run, stepped]
      exact went
  | commit next ih =>
    let w₁ := w.conclude σ t ⟨call, .commit next, pending, trace⟩ (next (.ok ()))
    have stepped : step σ w (.run t input) = some w₁ := by
      simp [step, here, w₁]
    have only₁ : w₁.OnlyThread t := only.update release_own
    have here₁ : w₁.threads t = some ⟨call, next (.ok ()), [], trace ++ [Ev.committed pending]⟩ :=
      Function.update_self ..
    obtain ⟨n, w', went, there⟩ := ih (.ok ()) only₁ here₁ ran
    refine ⟨n + 1, w', ?_, there⟩
    rw [List.replicate_succ, run, stepped]
    exact went
  | rollback next ih =>
    let w₁ := w.abandon t ⟨call, .rollback next, pending, trace⟩ (next (.ok ()))
    have stepped : step σ w (.run t input) = some w₁ := by
      simp [step, here, w₁]
    have only₁ : w₁.OnlyThread t := only.update release_own
    have here₁ : w₁.threads t = some ⟨call, next (.ok ()), [], trace ++ [Ev.rolledBack]⟩ :=
      Function.update_self ..
    obtain ⟨n, w', went, there⟩ := ih (.ok ()) only₁ here₁ ran
    refine ⟨n + 1, w', ?_, there⟩
    rw [List.replicate_succ, run, stepped]
    exact went

end OnlyThread

theorem run_append (w : World Db W Lock Call S R ε α) (first rest : List (Action Inp Call ε)) :
    run σ w (first ++ rest) = (run σ w first).bind fun middle => run σ middle rest := by
  induction first generalizing w with
  | nil => rfl
  | cons action first ih =>
    simp only [List.cons_append, run]
    cases step σ w action with
    | none => rfl
    | some w' => exact ih w'

/-- A call alone, from start to end: its process then goes away. -/
theorem alone_run {db db' : Db} {call : Call} (log : List (Entry Db W Call S R ε))
    (ran : σ.alone input db call = some db') :
    ∃ n log', run σ ⟨db, fun _ => [], fun _ => none, log⟩
      (Action.spawn 0 call :: List.replicate n (Action.run 0 input) ++ [Action.kill 0]) =
        some ⟨db', fun _ => [], fun _ => none, log'⟩ := by
  simp only [System.alone, Option.map_eq_some_iff] at ran
  obtain ⟨⟨result, writes, last⟩, ran, rfl⟩ := ran
  let thread : Thread W Call S R ε α := ⟨call, σ.program call, [], []⟩
  let nobody : Tid → Option (Thread W Call S R ε α) := fun _ => none
  let begun : World Db W Lock Call S R ε α :=
    ⟨db, fun _ => [], Function.update nobody 0 (some thread), log⟩
  have alone : begun.OnlyThread 0 := by
    constructor
    · intro lock holder member
      cases member
    · intro u other
      exact Function.update_of_ne other (some thread) nobody
  have here : begun.threads 0 = some thread := by simp [begun]
  obtain ⟨n, w', went, only, rfl⟩ := solo_run alone here ran
  have locks : w'.held.release 0 = fun _ => [] := by
    funext lock
    simp only [LockTable.release, List.filter_eq_nil_iff, decide_eq_true_eq, ne_eq, not_not]
    exact only.locks lock
  have threads : Function.update w'.threads 0 none = fun _ => none := by
    funext u
    by_cases same : u = 0
    · rw [same, Function.update_self]
    · rw [Function.update_of_ne same, only.threads u same]
  refine ⟨n, w'.log, ?_⟩
  have spawned : step σ ⟨db, fun _ => [], nobody, log⟩ (.spawn 0 call) = some begun := rfl
  rw [List.cons_append, run, spawned, Option.bind_some, run_append, went, Option.bind_some, run, step,
    locks, threads]
  rfl

/-- Calls one at a time are a run of the world, in which nothing else happens. -/
theorem serially_run {db db' : Db} {calls : List Call} (log : List (Entry Db W Call S R ε))
    (ran : σ.serially input db calls = some db') :
    ∃ schedule log', run σ ⟨db, fun _ => [], fun _ => none, log⟩ schedule =
        some ⟨db', fun _ => [], fun _ => none, log'⟩ ∧
      ∀ action ∈ schedule, action = .run 0 input ∨ action = .kill 0 ∨
        ∃ call ∈ calls, action = .spawn 0 call := by
  induction calls generalizing db log with
  | nil =>
    cases ran
    exact ⟨[], log, rfl, by simp⟩
  | cons call rest ih =>
    simp only [System.serially, List.foldlM_cons, Option.bind_eq_bind, Option.bind_eq_some_iff] at ran
    obtain ⟨middle, first, ran⟩ := ran
    obtain ⟨n, log₁, went⟩ := alone_run log first
    obtain ⟨schedule, log₂, went', kinds⟩ := ih log₁ ran
    refine ⟨(Action.spawn 0 call :: List.replicate n (Action.run 0 input) ++ [Action.kill 0]) ++ schedule, log₂, ?_, ?_⟩
    · rw [run_append, went]
      exact went'
    · intro action member
      rcases List.mem_append.mp member with own | later
      · simp only [List.cons_append, List.mem_cons, List.mem_append, List.mem_replicate,
          List.not_mem_nil, or_false] at own
        rcases own with rfl | ⟨-, rfl⟩ | rfl
        · exact Or.inr (Or.inr ⟨call, List.mem_cons_self, rfl⟩)
        · exact Or.inl rfl
        · exact Or.inr (Or.inl rfl)
      · refine (kinds action later).imp_right fun other => other.imp_right ?_
        exact fun ⟨call', there, same⟩ => ⟨call', List.mem_cons_of_mem _ there, same⟩

end Runs

end Txn
