import WebhookReceiver.Txn.World

/-!
What a program does after a failure.

`Within` bounds everything that a program can still do, as long as only failures of a
kind strike its commits and rollbacks. `Recovers` says that wherever such a failure
strikes, the open transaction is rolled back first and the rest stays within bounds.
`recovering_reach` carries this through every run of the world: what the thread commits
after the failure has only writes of a kind. A piece of a transaction has no say in this
if it passes on every failure at once (`Throws`).
-/

namespace Txn

variable {Db W Lock Inp Call S : Type} {R : S → Type} {ε α β : Type}

/-! ## Programs -/

section Programs

variable {T : ε → Prop} {P : S → Prop}

/-- The end of a transaction is told nothing worse than a failure of the kind. -/
def Told (T : ε → Prop) (told : Except ε Unit) : Prop := ∀ e, told = .error e → T e

/-- Every statement that is still to come is of a kind, and so is the result. -/
def Prog.Within (T : ε → Prop) (P : S → Prop) (Q : Except ε α → Prop) : Prog S R ε α → Prop
  | .done result => Q result
  | .stmt s next => P s ∧ ∀ answer, (next answer).Within T P Q
  | .commit next => ∀ told, Told T told → (next told).Within T P Q
  | .rollback next => ∀ told, Told T told → (next told).Within T P Q

/-- Nothing of the open transaction can be committed. -/
def Prog.rollsBack : Prog S R ε α → Bool
  | .done _ => true
  | .rollback _ => true
  | _ => false

/-- A failure of the kind, wherever it strikes, has the open transaction rolled back, and
what comes then stays within bounds. -/
def Prog.Recovers (T : ε → Prop) (P : S → Prop) (Q : Except ε α → Prop) : Prog S R ε α → Prop
  | .done _ => True
  | .stmt _ next => (∀ e, T e → (next (.error e)).rollsBack = true ∧ (next (.error e)).Within T P Q) ∧
      ∀ answer, (next answer).Recovers T P Q
  | .commit next => (∀ e, T e → (next (.error e)).Within T P Q) ∧ ∀ told, (next told).Recovers T P Q
  | .rollback next => (∀ e, T e → (next (.error e)).Within T P Q) ∧ ∀ told, (next told).Recovers T P Q

/-- A piece of a transaction that passes on every failure of the kind at once. -/
def Prog.Throws (T : ε → Prop) : Prog S R ε α → Prop
  | .done _ => True
  | .stmt _ next => (∀ e, T e → ∃ e', next (.error e) = .done (.error e') ∧ T e') ∧
      ∀ answer, (next answer).Throws T
  | .commit _ => False
  | .rollback _ => False

theorem Prog.Within.mono {Q Q' : Except ε α → Prop} {prog : Prog S R ε α} (weaker : ∀ r, Q r → Q' r)
    (within : prog.Within T P Q) : prog.Within T P Q' := by
  induction prog with
  | done result => exact weaker result within
  | stmt s next ih => exact ⟨within.1, fun answer => ih answer (within.2 answer)⟩
  | commit next ih => exact fun told mild => ih told (within told mild)
  | rollback next ih => exact fun told mild => ih told (within told mild)

/-- A program all of whose statements are of the kind, whatever strikes it. -/
theorem Prog.Only.within {prog : Prog S R ε α} (only : prog.Only P) : prog.Within T P fun _ => True := by
  induction prog with
  | done result => exact trivial
  | stmt s next ih => exact ⟨only.1, fun answer => ih answer (only.2 answer)⟩
  | commit next ih => exact fun told _ => ih told (only told)
  | rollback next ih => exact fun told _ => ih told (only told)

theorem Prog.only_bind {first : Prog S R ε α} {next : α → Prog S R ε β} (begins : first.Only P)
    (goesOn : ∀ value, (next value).Only P) : (first >>= next).Only P := by
  refine only_andThen begins fun result => ?_
  cases result with
  | ok value => exact goesOn value
  | error e => exact trivial

theorem Prog.only_perform {s : S} (kind : P s) : (Prog.perform s : Prog S R ε (R s)).Only P :=
  ⟨kind, fun _ => trivial⟩

theorem Prog.andThen_assoc {γ : Type} (first : Prog S R ε α) (next : Except ε α → Prog S R ε β)
    (last : Except ε β → Prog S R ε γ) :
    (first.andThen next).andThen last = first.andThen fun r => (next r).andThen last := by
  induction first with
  | done result => rfl
  | stmt s rest ih => exact congrArg (Prog.stmt s) (funext ih)
  | commit rest ih => exact congrArg Prog.commit (funext ih)
  | rollback rest ih => exact congrArg Prog.rollback (funext ih)

theorem Prog.throws_perform (s : S) : (Prog.perform s : Prog S R ε (R s)).Throws T :=
  ⟨fun e failed => ⟨e, rfl, failed⟩, fun _ => trivial⟩

theorem Prog.throws_ofExcept (result : Except ε α) : (Prog.ofExcept result : Prog S R ε α).Throws T := trivial

theorem Prog.throws_bind {first : Prog S R ε α} {next : α → Prog S R ε β} (begins : first.Throws T)
    (goesOn : ∀ value, (next value).Throws T) : (first >>= next).Throws T := by
  show (first.andThen (onValue next)).Throws T
  induction first with
  | done result =>
    cases result with
    | ok value => exact goesOn value
    | error e => exact trivial
  | stmt s rest ih =>
    refine ⟨fun e failed => ?_, fun answer => ih answer (begins.2 answer)⟩
    obtain ⟨e', raised, kind⟩ := begins.1 e failed
    refine ⟨e', ?_, kind⟩
    show (rest (.error e)).andThen _ = _
    rw [raised]
    rfl
  | commit rest ih => exact begins.elim
  | rollback rest ih => exact begins.elim

/-- A handler that passes every failure of the kind on, perhaps under another name. -/
theorem Prog.throws_tryCatch {body : Prog S R ε α} {handler : ε → Prog S R ε α} (tried : body.Throws T)
    (renames : ∀ e, T e → ∃ e', handler e = .done (.error e') ∧ T e')
    (caught : ∀ e, (handler e).Throws T) : (tryCatch body handler).Throws T := by
  show (body.andThen (onError handler)).Throws T
  induction body with
  | done result =>
    cases result with
    | ok value => exact trivial
    | error e => exact caught e
  | stmt s rest ih =>
    refine ⟨fun e failed => ?_, fun answer => ih answer (tried.2 answer)⟩
    obtain ⟨e', raised, kind⟩ := tried.1 e failed
    obtain ⟨e'', renamed, kind'⟩ := renames e' kind
    refine ⟨e'', ?_, kind'⟩
    show (rest (.error e)).andThen _ = _
    rw [raised]
    exact renamed
  | commit rest ih => exact tried.elim
  | rollback rest ih => exact tried.elim

/-- What follows a piece of a transaction deals with its failures. -/
theorem Prog.recovers_piece {Q : Except ε β → Prop} {first : Prog S R ε α}
    {next : Except ε α → Prog S R ε β} (throws : first.Throws T)
    (raised : ∀ e, T e → (next (.error e)).rollsBack = true ∧ (next (.error e)).Within T P Q)
    (goesOn : ∀ r, (next r).Recovers T P Q) : (first.andThen next).Recovers T P Q := by
  induction first with
  | done result => exact goesOn result
  | stmt s rest ih =>
    refine ⟨fun e failed => ?_, fun answer => ih answer (throws.2 answer)⟩
    obtain ⟨e', thrown, kind⟩ := throws.1 e failed
    show ((rest (.error e)).andThen next).rollsBack = true ∧ ((rest (.error e)).andThen next).Within T P Q
    rw [thrown]
    exact raised e' kind
  | commit rest ih => exact throws.elim
  | rollback rest ih => exact throws.elim

end Programs

/-! ## Runs -/

section Runs

variable [DecidableEq Lock] {σ : System Db W Lock Inp Call S R ε α} {w w' : World Db W Lock Call S R ε α}
  {t : Tid} {T : ε → Prop} {P : S → Prop} {K : W → Prop} {before : List (Entry Db W Call S R ε)}
  {action : Action Inp Call ε}

/-- Every thread has something in common with the program of its call. -/
def World.Programs (w : World Db W Lock Call S R ε α) (C : Call → Prog S R ε α → Prop) : Prop :=
  ∀ t th, w.threads t = some th → C th.call th.prog

omit [DecidableEq Lock] in
theorem World.Programs.update {C : Call → Prog S R ε α → Prop} (programs : w.Programs C) {db : Db}
    {held : LockTable Lock} {thread : Option (Thread W Call S R ε α)}
    {log : List (Entry Db W Call S R ε)} (own : ∀ th, thread = some th → C th.call th.prog) :
    World.Programs ⟨db, held, Function.update w.threads t thread, log⟩ C := by
  intro u th here
  by_cases same : u = t
  · subst same
    have there : Function.update w.threads u thread u = some th := here
    rw [Function.update_self] at there
    exact own th there
  · have there : Function.update w.threads t thread u = some th := here
    rw [Function.update_of_ne same] at there
    exact programs u th there

/-- A property that a program leaves to whatever is left of it. -/
structure Hereditary (C : Prog S R ε α → Prop) : Prop where
  stmt : ∀ {s next}, C (.stmt s next) → ∀ answer, C (next answer)
  commit : ∀ {next}, C (.commit next) → ∀ told, C (next told)
  rollback : ∀ {next}, C (.rollback next) → ∀ told, C (next told)

/-- Whatever strikes a program that recovers under a condition, what is left recovers too. -/
theorem hereditary_recovers {C : Prop} {Q : Except ε α → Prop} :
    Hereditary fun prog : Prog S R ε α => C → prog.Recovers T P Q where
  stmt recovers answer given := (recovers given).2 answer
  commit recovers told given := (recovers given).2 told
  rollback recovers told given := (recovers given).2 told

theorem Reach.programs {allow : World Db W Lock Call S R ε α → Action Inp Call ε → Prop}
    {C : Call → Prog S R ε α → Prop} (hereditary : ∀ call, Hereditary (C call))
    (spawned : ∀ call, C call (σ.program call)) (begun : w.Programs C) (reached : Reach σ allow w w') :
    w'.Programs C := by
  induction reached with
  | start => exact begun
  | @next w w' action _ _ stepped ih =>
    cases step_cases stepped with
    | spawned => exact ih.update fun th same => by cases same; exact spawned _
    | @answered _ _ th _ _ _ here shape =>
      exact ih.update fun th' same => by
        cases same
        exact (hereditary th.call).stmt (shape ▸ ih _ th here) _
    | @refused _ _ th _ _ here shape =>
      exact ih.update fun th' same => by
        cases same
        exact (hereditary th.call).stmt (shape ▸ ih _ th here) _
    | @concluded _ _ th _ _ here shape =>
      exact ih.update fun th' same => by
        cases same
        exact (hereditary th.call).commit (shape ▸ ih _ th here) _
    | @rolledBack _ _ th _ _ here shape =>
      exact ih.update fun th' same => by
        cases same
        exact (hereditary th.call).rollback (shape ▸ ih _ th here) _
    | @uncommitted _ _ th _ here shape =>
      exact ih.update fun th' same => by
        cases same
        exact (hereditary th.call).commit (shape ▸ ih _ th here) _
    | killed => exact ih.update fun th none => by cases none

/-- The thread lives on, and nothing but failures of the kind strikes it. -/
def Spares (T : ε → Prop) (t : Tid) : Action Inp Call ε → Prop
  | .kill u => u ≠ t
  | .fault u e => u = t → T e
  | .lost u e => u = t → T e
  | _ => True

/-- The thread, struck when the log was `before`, is within bounds, and so is all that it has
committed since. -/
structure Recovering (T : ε → Prop) (P : S → Prop) (K : W → Prop) (t : Tid)
    (before : List (Entry Db W Call S R ε)) (w : World Db W Lock Call S R ε α) : Prop where
  thread : ∃ th, w.threads t = some th ∧ (th.prog.Within T P fun _ => True) ∧
    (th.prog.rollsBack = true ∨ ∀ write ∈ th.writes, K write)
  log : ∃ more, w.log = before ++ more ∧ ∀ entry ∈ more, entry.tid = t → ∀ write ∈ entry.writes, K write

/-- A failure of the kind has struck. -/
theorem recovering_of_strike {th : Thread W Call S R ε α} (here : w.threads t = some th)
    (recovers : th.prog.Recovers T P fun _ => True) {e : ε} (kind : T e)
    (struck : action = .fault t e ∨ action = .lost t e) (stepped : step σ w action = some w') :
    Recovering T P K t w'.log w' := by
  have log : ∃ more, w'.log = w'.log ++ more ∧ ∀ entry ∈ more, entry.tid = t →
      ∀ write ∈ entry.writes, K write := ⟨[], by simp⟩
  refine ⟨?_, log⟩
  cases step_cases stepped with
  | spawned => rcases struck with same | same <;> cases same
  | answered => rcases struck with same | same <;> cases same
  | killed => rcases struck with same | same <;> cases same
  | @refused u e' th' s next there shape =>
    obtain ⟨rfl, rfl⟩ : u = t ∧ e' = e := by
      rcases struck with same | same
      · cases same
        exact ⟨rfl, rfl⟩
      · cases same
    obtain rfl : th = th' := Option.some.inj (here.symm.trans there)
    rw [shape] at recovers
    obtain ⟨back, within⟩ := recovers.1 _ kind
    exact ⟨_, Function.update_self .., within, Or.inl back⟩
  | @concluded action u th' next told there shape how =>
    obtain ⟨rfl, rfl⟩ : u = t ∧ told = .error e := by
      rcases how with ⟨⟨input, rfl⟩, -⟩ | ⟨e', rfl, rfl⟩
      · rcases struck with same | same <;> cases same
      · rcases struck with same | same <;> cases same
        exact ⟨rfl, rfl⟩
    obtain rfl : th = th' := Option.some.inj (here.symm.trans there)
    rw [shape] at recovers
    exact ⟨_, Function.update_self .., recovers.1 _ kind, Or.inr (by simp)⟩
  | @rolledBack action u th' next told there shape how =>
    obtain ⟨rfl, rfl⟩ : u = t ∧ told = .error e := by
      rcases how with ⟨⟨input, rfl⟩, -⟩ | ⟨e', rfl, rfl⟩
      · rcases struck with same | same <;> cases same
      · rcases struck with same | same <;> cases same
        exact ⟨rfl, rfl⟩
    obtain rfl : th = th' := Option.some.inj (here.symm.trans there)
    rw [shape] at recovers
    exact ⟨_, Function.update_self .., recovers.1 _ kind, Or.inr (by simp)⟩
  | @uncommitted u e' th' next there shape =>
    obtain ⟨rfl, rfl⟩ : u = t ∧ e' = e := by
      rcases struck with same | same <;> cases same
      exact ⟨rfl, rfl⟩
    obtain rfl : th = th' := Option.some.inj (here.symm.trans there)
    rw [shape] at recovers
    exact ⟨_, Function.update_self .., recovers.1 _ kind, Or.inr (by simp)⟩

omit [DecidableEq Lock] in
/-- Another thread is at work. -/
private theorem Recovering.other (recovering : Recovering T P K t before w) {u : Tid} (other : u ≠ t)
    {db : Db} {held : LockTable Lock} {thread : Option (Thread W Call S R ε α)}
    {log : List (Entry Db W Call S R ε)}
    (grown : ∃ more, log = w.log ++ more ∧ ∀ entry ∈ more, entry.tid = u) :
    Recovering T P K t before ⟨db, held, Function.update w.threads u thread, log⟩ := by
  obtain ⟨th, here, kept⟩ := recovering.thread
  obtain ⟨since, same, clean⟩ := recovering.log
  obtain ⟨more, rfl, foreign⟩ := grown
  refine ⟨⟨th, (Function.update_of_ne (Ne.symm other) ..).trans here, kept⟩, since ++ more, ?_, ?_⟩
  · show w.log ++ more = _
    rw [same, List.append_assoc]
  · intro entry member mine
    rcases List.mem_append.mp member with old | new
    · exact clean entry old mine
    · exact absurd ((foreign entry new).symm.trans mine) other

omit [DecidableEq Lock] in
/-- The thread goes on. -/
private theorem Recovering.own (recovering : Recovering T P K t before w) {db : Db}
    {held : LockTable Lock} {th : Thread W Call S R ε α} {log : List (Entry Db W Call S R ε)}
    (within : th.prog.Within T P fun _ => True)
    (pending : th.prog.rollsBack = true ∨ ∀ write ∈ th.writes, K write)
    (grown : ∃ more, log = w.log ++ more ∧ ∀ entry ∈ more, ∀ write ∈ entry.writes, K write) :
    Recovering T P K t before ⟨db, held, Function.update w.threads t (some th), log⟩ := by
  obtain ⟨since, same, clean⟩ := recovering.log
  obtain ⟨more, rfl, committed⟩ := grown
  refine ⟨⟨th, Function.update_self .., within, pending⟩, since ++ more, ?_, ?_⟩
  · show w.log ++ more = _
    rw [same, List.append_assoc]
  · intro entry member mine
    rcases List.mem_append.mp member with old | new
    · exact clean entry old mine
    · exact committed entry new

/-- One step, of the thread or of another. -/
theorem Recovering.step (recovering : Recovering T P K t before w)
    (kinds : ∀ s avail input db reply, P s → σ.exec avail input db s = some reply →
      ∀ write ∈ reply.writes, K write)
    (spared : Spares T t action) (stepped : step σ w action = some w') :
    Recovering T P K t before w' := by
  obtain ⟨mine, here, within, pending⟩ := recovering.thread
  have free : ∀ call, action ≠ .spawn t call := by
    rintro call rfl
    simp [Txn.step, here] at stepped
  have quiet : ∃ more, w.log = w.log ++ more ∧ ∀ entry ∈ more, ∀ write ∈ entry.writes, K write :=
    ⟨[], by simp⟩
  have still : ∀ u, ∃ more, w.log = w.log ++ more ∧ ∀ entry ∈ more, entry.tid = u := fun u => ⟨[], by simp⟩
  cases step_cases stepped with
  | @spawned u call => exact recovering.other (fun same => free call (same ▸ rfl)) (still u)
  | @killed u => exact recovering.other spared (still u)
  | @answered u input th s next reply there shape ran =>
    by_cases same : u = t
    · subst same
      obtain rfl : th = mine := Option.some.inj (there.symm.trans here)
      rw [shape] at within pending
      refine recovering.own (within.2 _) (Or.inr fun write member => ?_) quiet
      rcases List.mem_append.mp member with old | new
      · exact pending.resolve_left (by simp [Prog.rollsBack]) write old
      · exact kinds _ _ _ _ _ within.1 ran write new
    · exact recovering.other same (still u)
  | @refused u e th s next there shape =>
    by_cases same : u = t
    · subst same
      obtain rfl : th = mine := Option.some.inj (there.symm.trans here)
      rw [shape] at within pending
      exact recovering.own (within.2 _) (Or.inr (pending.resolve_left (by simp [Prog.rollsBack]))) quiet
    · exact recovering.other same (still u)
  | @concluded _ u th next told there shape how =>
    by_cases same : u = t
    · subst same
      obtain rfl : th = mine := Option.some.inj (there.symm.trans here)
      rw [shape] at within pending
      have mild : Told T told := by
        rintro e rfl
        rcases how with ⟨-, done⟩ | ⟨e', rfl, raised⟩
        · cases done
        · cases raised
          exact spared rfl
      have kept := pending.resolve_left (by simp [Prog.rollsBack])
      exact recovering.own (within told mild) (Or.inr (by simp)) ⟨_, rfl, by simpa using kept⟩
    · exact recovering.other same ⟨_, rfl, by simp⟩
  | @rolledBack _ u th next told there shape how =>
    by_cases same : u = t
    · subst same
      obtain rfl : th = mine := Option.some.inj (there.symm.trans here)
      rw [shape] at within
      have mild : Told T told := by
        rintro e rfl
        rcases how with ⟨-, done⟩ | ⟨e', rfl, raised⟩
        · cases done
        · cases raised
          exact spared rfl
      exact recovering.own (within told mild) (Or.inr (by simp)) quiet
    · exact recovering.other same (still u)
  | @uncommitted u e th next there shape =>
    by_cases same : u = t
    · subst same
      obtain rfl : th = mine := Option.some.inj (there.symm.trans here)
      rw [shape] at within
      have mild : Told T (.error e) := by
        rintro e' ⟨⟩
        exact spared rfl
      exact recovering.own (within _ mild) (Or.inr (by simp)) quiet
    · exact recovering.other same (still u)

theorem recovering_reach {allow : World Db W Lock Call S R ε α → Action Inp Call ε → Prop}
    (recovering : Recovering T P K t before w)
    (kinds : ∀ s avail input db reply, P s → σ.exec avail input db s = some reply →
      ∀ write ∈ reply.writes, K write)
    (spared : ∀ w action, allow w action → Spares T t action) (reached : Reach σ allow w w') :
    Recovering T P K t before w' := by
  induction reached with
  | start => exact recovering
  | next _ permitted stepped ih => exact ih.step kinds (spared _ _ permitted) stepped

end Runs

end Txn
