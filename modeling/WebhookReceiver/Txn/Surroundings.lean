import WebhookReceiver.Txn.World

/-!
One call in its surroundings.

A `Happening` is what a call meets while it runs: it takes a step, something strikes it,
others change the store. `attend` takes a program through a list of them, so that two runs
can be compared which meet the same. `reach_attends` says that this is what every thread
of the world does: the others are to it changes of the store, and locks that are free or
are not.
-/

namespace Txn

variable {Db W Lock Inp Call S : Type} {R : S → Type} {ε α β γ : Type}

inductive Happening (W Lock Inp ε : Type) where
  /-- Others write to the store. -/
  | others (writes : List W)
  /-- The call runs its next statement, or ends its transaction. -/
  | run (avail : Lock → Mode → Bool) (input : Inp)
  /-- What the call does next fails; the transaction it ends has no effect. -/
  | fault (e : ε)
  /-- A commit takes effect, but the call is told it failed. -/
  | lost (e : ε)

/-- Whether a step of the call is struck. -/
def Happening.struck? : Happening W Lock Inp ε → Option Bool
  | .others _ => none
  | .run _ _ => some false
  | .fault _ | .lost _ => some true

/-- The steps of a call, struck or not. -/
def strikes (happenings : List (Happening W Lock Inp ε)) : List Bool :=
  happenings.filterMap Happening.struck?

theorem strikes_append (before after : List (Happening W Lock Inp ε)) :
    strikes (before ++ after) = strikes before ++ strikes after :=
  List.filterMap_append ..

/-- Where a call stands: the committed store, and what its thread has. -/
structure Local (Db W S : Type) (R : S → Type) (ε β : Type) where
  db : Db
  prog : Prog S R ε β
  writes : List W
  trace : List (Ev W S R ε)

namespace Local

def start (db : Db) (prog : Prog S R ε β) : Local Db W S R ε β := ⟨db, prog, [], []⟩

/-- The call goes on with another program once its own has come to an end. -/
def andThen (l : Local Db W S R ε β) (next : Except ε β → Prog S R ε γ) : Local Db W S R ε γ :=
  ⟨l.db, l.prog.andThen next, l.writes, l.trace⟩

end Local

section Meet

variable (σ : System Db W Lock Inp Call S R ε α)

/-- What becomes of a call by what it meets, or `none` when that is not possible now. -/
def System.meet (l : Local Db W S R ε β) : Happening W Lock Inp ε → Option (Local Db W S R ε β)
  | .others writes => some { l with db := σ.applyAll writes l.db }
  | .run avail input =>
    match l.prog with
    | .done _ => none
    | .stmt s next => (σ.exec avail input (σ.applyAll l.writes l.db) s).map fun reply =>
      ⟨σ.applyAll reply.instant l.db, next reply.answer, l.writes ++ reply.writes,
        l.trace ++ [.stmt s reply.answer]⟩
    | .commit next =>
      some ⟨σ.applyAll l.writes l.db, next (.ok ()), [], l.trace ++ [.committed l.writes]⟩
    | .rollback next => some ⟨l.db, next (.ok ()), [], l.trace ++ [.rolledBack]⟩
  | .fault e =>
    match l.prog with
    | .done _ => none
    | .stmt s next => some ⟨l.db, next (.error e), l.writes, l.trace ++ [.stmt s (.error e)]⟩
    | .commit next | .rollback next => some ⟨l.db, next (.error e), [], l.trace ++ [.rolledBack]⟩
  | .lost e =>
    match l.prog with
    | .commit next =>
      some ⟨σ.applyAll l.writes l.db, next (.error e), [], l.trace ++ [.committed l.writes]⟩
    | _ => none

/-- Where a call stands after a list of happenings, oldest first. -/
def System.attend (l : Local Db W S R ε β) :
    List (Happening W Lock Inp ε) → Option (Local Db W S R ε β)
  | [] => some l
  | happening :: rest => (σ.meet l happening).bind fun m => System.attend m rest

/-- What meeting something can be. -/
inductive Met (l : Local Db W S R ε β) : Happening W Lock Inp ε → Local Db W S R ε β → Prop where
  | others {writes : List W} : Met l (.others writes) { l with db := σ.applyAll writes l.db }
  | answered {avail : Lock → Mode → Bool} {input : Inp} {s : S} {next : Except ε (R s) → Prog S R ε β}
      {reply : Reply W Lock ε (R s)} (shape : l.prog = .stmt s next)
      (ran : σ.exec avail input (σ.applyAll l.writes l.db) s = some reply) :
      Met l (.run avail input) ⟨σ.applyAll reply.instant l.db, next reply.answer, l.writes ++ reply.writes,
        l.trace ++ [.stmt s reply.answer]⟩
  | refused {e : ε} {s : S} {next : Except ε (R s) → Prog S R ε β} (shape : l.prog = .stmt s next) :
      Met l (.fault e) ⟨l.db, next (.error e), l.writes, l.trace ++ [.stmt s (.error e)]⟩
  /-- A commit takes effect, whatever the call is told. -/
  | concluded {happening : Happening W Lock Inp ε} {next : Except ε Unit → Prog S R ε β}
      {told : Except ε Unit} (shape : l.prog = .commit next)
      (how : (∃ avail input, happening = .run avail input) ∧ told = .ok () ∨
        ∃ e, happening = .lost e ∧ told = .error e) :
      Met l happening ⟨σ.applyAll l.writes l.db, next told, [], l.trace ++ [.committed l.writes]⟩
  | rolledBack {happening : Happening W Lock Inp ε} {next : Except ε Unit → Prog S R ε β}
      {told : Except ε Unit} (shape : l.prog = .rollback next)
      (how : (∃ avail input, happening = .run avail input) ∧ told = .ok () ∨
        ∃ e, happening = .fault e ∧ told = .error e) :
      Met l happening ⟨l.db, next told, [], l.trace ++ [.rolledBack]⟩
  | uncommitted {e : ε} {next : Except ε Unit → Prog S R ε β} (shape : l.prog = .commit next) :
      Met l (.fault e) ⟨l.db, next (.error e), [], l.trace ++ [.rolledBack]⟩

variable {σ} {l m : Local Db W S R ε β} {happening : Happening W Lock Inp ε}

theorem meet_cases (met : σ.meet l happening = some m) : Met σ l happening m := by
  cases happening with
  | others writes =>
    cases met
    exact .others
  | run avail input =>
    cases shape : l.prog with
    | done result => simp [System.meet, shape] at met
    | stmt s next =>
      simp only [System.meet, shape, Option.map_eq_some_iff] at met
      obtain ⟨reply, ran, rfl⟩ := met
      exact .answered shape ran
    | commit next =>
      simp only [System.meet, shape, Option.some.injEq] at met
      subst met
      exact .concluded shape (Or.inl ⟨⟨avail, input, rfl⟩, rfl⟩)
    | rollback next =>
      simp only [System.meet, shape, Option.some.injEq] at met
      subst met
      exact .rolledBack shape (Or.inl ⟨⟨avail, input, rfl⟩, rfl⟩)
  | fault e =>
    cases shape : l.prog with
    | done result => simp [System.meet, shape] at met
    | stmt s next =>
      simp only [System.meet, shape, Option.some.injEq] at met
      subst met
      exact .refused shape
    | commit next =>
      simp only [System.meet, shape, Option.some.injEq] at met
      subst met
      exact .uncommitted shape
    | rollback next =>
      simp only [System.meet, shape, Option.some.injEq] at met
      subst met
      exact .rolledBack shape (Or.inr ⟨e, rfl, rfl⟩)
  | lost e =>
    cases shape : l.prog with
    | commit next =>
      simp only [System.meet, shape, Option.some.injEq] at met
      subst met
      exact .concluded shape (Or.inr ⟨e, rfl, rfl⟩)
    | _ => simp [System.meet, shape] at met

/-- A call that has come to its end takes no more steps. -/
theorem meet_done {result : Except ε β} (ended : l.prog = .done result) (met : σ.meet l happening = some m) :
    m.prog = .done result := by
  cases meet_cases met with
  | others => exact ended
  | answered shape | refused shape | concluded shape | rolledBack shape | uncommitted shape =>
    rw [ended] at shape
    cases shape

theorem meet_trace (met : σ.meet l happening = some m) : ∃ more, m.trace = l.trace ++ more := by
  cases meet_cases met with
  | others => exact ⟨[], (List.append_nil _).symm⟩
  | answered | refused | concluded | rolledBack | uncommitted => exact ⟨_, rfl⟩

/-- What a call meets before its end, a longer one meets as well. -/
theorem meet_andThen {next : Except ε β → Prog S R ε γ} (met : σ.meet l happening = some m) :
    σ.meet (l.andThen next) happening = some (m.andThen next) := by
  cases meet_cases met with
  | others => rfl
  | answered shape ran => simp [System.meet, Local.andThen, shape, Prog.andThen, ran]
  | refused shape => simp [System.meet, Local.andThen, shape, Prog.andThen]
  | concluded shape how =>
    rcases how with ⟨⟨avail, input, rfl⟩, rfl⟩ | ⟨e, rfl, rfl⟩ <;>
      simp [System.meet, Local.andThen, shape, Prog.andThen]
  | rolledBack shape how =>
    rcases how with ⟨⟨avail, input, rfl⟩, rfl⟩ | ⟨e, rfl, rfl⟩ <;>
      simp [System.meet, Local.andThen, shape, Prog.andThen]
  | uncommitted shape => simp [System.meet, Local.andThen, shape, Prog.andThen]

end Meet

/-! ## Lists of happenings -/

section Attend

variable {σ : System Db W Lock Inp Call S R ε α} {l m : Local Db W S R ε β}
  {happenings before after : List (Happening W Lock Inp ε)}

theorem attend_append : σ.attend l (before ++ after) = (σ.attend l before).bind fun m => σ.attend m after := by
  induction before generalizing l with
  | nil => rfl
  | cons happening rest ih =>
    simp only [List.cons_append, System.attend, Option.bind_assoc]
    exact congrArg _ (funext fun m => ih)

theorem attend_split (met : σ.attend l (before ++ after) = some m) :
    ∃ middle, σ.attend l before = some middle ∧ σ.attend middle after = some m := by
  rw [attend_append] at met
  exact Option.bind_eq_some_iff.mp met

theorem attend_done {result : Except ε β} (ended : l.prog = .done result)
    (met : σ.attend l happenings = some m) : m.prog = .done result := by
  induction happenings generalizing l with
  | nil =>
    cases met
    exact ended
  | cons happening rest ih =>
    obtain ⟨middle, first, others⟩ := Option.bind_eq_some_iff.mp met
    exact ih (meet_done ended first) others

theorem attend_trace (met : σ.attend l happenings = some m) : ∃ more, m.trace = l.trace ++ more := by
  induction happenings generalizing l with
  | nil =>
    cases met
    exact ⟨[], (List.append_nil _).symm⟩
  | cons happening rest ih =>
    obtain ⟨middle, first, others⟩ := Option.bind_eq_some_iff.mp met
    obtain ⟨one, extended⟩ := meet_trace first
    obtain ⟨more, longer⟩ := ih others
    exact ⟨one ++ more, by rw [longer, extended, List.append_assoc]⟩

theorem attend_andThen {next : Except ε β → Prog S R ε γ} (met : σ.attend l happenings = some m) :
    σ.attend (l.andThen next) happenings = some (m.andThen next) := by
  induction happenings generalizing l with
  | nil =>
    cases met
    rfl
  | cons happening rest ih =>
    obtain ⟨middle, first, others⟩ := Option.bind_eq_some_iff.mp met
    exact Option.bind_eq_some_iff.mpr ⟨_, meet_andThen first, ih others⟩

end Attend

/-! ## In the world -/

section World

variable [DecidableEq Lock] {σ : System Db W Lock Inp Call S R ε α}
  {allow : World Db W Lock Call S R ε α → Action Inp Call ε → Prop}
  {first w w' : World Db W Lock Call S R ε α} {action : Action Inp Call ε}

/-- Whatever happens, the store changes by writes. -/
theorem Stepped.shifts (stepped : Stepped σ w action w') : ∃ writes, w'.db = σ.applyAll writes w.db := by
  cases stepped with
  | answered => exact ⟨_, rfl⟩
  | concluded => exact ⟨_, rfl⟩
  | spawned | refused | rolledBack | uncommitted | killed => exact ⟨[], rfl⟩

/-- What a thread has of the world. -/
def World.localOf (w : World Db W Lock Call S R ε α) (th : Thread W Call S R ε α) : Local Db W S R ε α :=
  ⟨w.db, th.prog, th.writes, th.trace⟩

/-- To every thread, a step of the world is its own start or something that it meets. -/
theorem Stepped.meets (stepped : Stepped σ w action w') {t : Tid} {th' : Thread W Call S R ε α}
    (there : w'.threads t = some th') :
    (th' = ⟨th'.call, σ.program th'.call, [], []⟩ ∧ w'.db = w.db) ∨
    ∃ th happening, w.threads t = some th ∧ th.call = th'.call ∧
      σ.meet (w.localOf th) happening = some (w'.localOf th') := by
  by_cases own : t = action.tid
  · cases stepped with
    | spawned =>
      subst own
      cases (Function.update_self ..).symm.trans there
      exact Or.inl ⟨rfl, rfl⟩
    | @answered u input th s next reply here shape ran =>
      subst own
      cases (Function.update_self ..).symm.trans there
      exact Or.inr ⟨th, .run (w.held.available t) input, here, rfl, by
        simp [System.meet, World.localOf, shape, ran, World.answer]⟩
    | @refused u e th s next here shape =>
      subst own
      cases (Function.update_self ..).symm.trans there
      exact Or.inr ⟨th, .fault e, here, rfl, by
        simp [System.meet, World.localOf, shape, World.refuse, World.setThread]⟩
    | @concluded _ u th next told here shape how =>
      rcases how with ⟨⟨input, rfl⟩, rfl⟩ | ⟨e, rfl, rfl⟩
      · subst own
        cases (Function.update_self ..).symm.trans there
        exact Or.inr ⟨th, .run (w.held.available t) input, here, rfl, by
          simp [System.meet, World.localOf, shape, World.conclude]⟩
      · subst own
        cases (Function.update_self ..).symm.trans there
        exact Or.inr ⟨th, .lost e, here, rfl, by simp [System.meet, World.localOf, shape, World.conclude]⟩
    | @rolledBack _ u th next told here shape how =>
      rcases how with ⟨⟨input, rfl⟩, rfl⟩ | ⟨e, rfl, rfl⟩
      · subst own
        cases (Function.update_self ..).symm.trans there
        exact Or.inr ⟨th, .run (w.held.available t) input, here, rfl, by
          simp [System.meet, World.localOf, shape, World.abandon]⟩
      · subst own
        cases (Function.update_self ..).symm.trans there
        exact Or.inr ⟨th, .fault e, here, rfl, by simp [System.meet, World.localOf, shape, World.abandon]⟩
    | @uncommitted u e th next here shape =>
      subst own
      cases (Function.update_self ..).symm.trans there
      exact Or.inr ⟨th, .fault e, here, rfl, by simp [System.meet, World.localOf, shape, World.abandon]⟩
    | killed =>
      subst own
      cases (Function.update_self ..).symm.trans there
  · obtain ⟨writes, shifted⟩ := stepped.shifts
    rw [stepped.others own] at there
    exact Or.inr ⟨th', .others writes, there, rfl, by simp [System.meet, World.localOf, shifted]⟩

/-- A thread of the world attends to a list of happenings, from the store at its start. -/
theorem reach_attends (reached : Reach σ allow first w) (fresh : ∀ t, first.threads t = none) {t : Tid}
    {th : Thread W Call S R ε α} (here : w.threads t = some th) :
    ∃ before happenings, Reach σ allow first before ∧
      σ.attend (.start before.db (σ.program th.call)) happenings = some (w.localOf th) := by
  induction reached generalizing th with
  | start =>
    rw [fresh t] at here
    cases here
  | @next middle after action reached permitted stepped ih =>
    rcases (step_cases stepped).meets here with ⟨began, same⟩ | ⟨past, happening, there, call, met⟩
    · refine ⟨middle, [], reached, ?_⟩
      rw [began]
      simp [System.attend, World.localOf, Local.start, same]
    · obtain ⟨before, happenings, came, attended⟩ := ih there
      refine ⟨before, happenings ++ [happening], came, ?_⟩
      rw [attend_append, ← call, attended]
      simpa [System.attend] using met

end World

end Txn
