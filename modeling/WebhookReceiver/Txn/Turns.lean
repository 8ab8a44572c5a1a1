import WebhookReceiver.Txn.Piece

/-!
The turns of a call.

A thread hears of the world at its own steps only: how a statement is answered, and how a
transaction ends. Such a step is a `Turn`, and `turn?` says from the world before it which
turn it is. `paths` is the verification condition of a program that takes admissible turns
only, whatever the store is and whoever else is at work. `paths_reach` says that a run in
which all turns of a thread are admissible keeps the condition.
-/

namespace Txn

variable {Db W Lock Inp Call S : Type} {R : S → Type} {ε α β γ : Type}

/-- What a step comes to for the thread that takes it. -/
inductive Turn (W S : Type) (R : S → Type) (ε : Type) where
  /-- The statement is answered, and leaves writes pending. -/
  | answer (s : S) (answer : Except ε (R s)) (writes : List W)
  /-- A commit takes effect, whatever the thread is told. -/
  | commit (told : Except ε Unit)
  /-- A commit fails and has no effect. -/
  | abort (e : ε)
  | rollback (told : Except ε Unit)

/-- Which turns may be taken, by the pending writes and what the thread has seen. -/
abbrev Admission (W S : Type) (R : S → Type) (ε : Type) := List W → List (Ev W S R ε) → Turn W S R ε → Prop

section Condition

/-- On every path of admissible turns, from some pending writes and a trace on, the end
meets `Q`. -/
def Prog.paths (A : Admission W S R ε) : Prog S R ε β → List W → List (Ev W S R ε) →
    (Except ε β → List W → List (Ev W S R ε) → Prop) → Prop
  | .done result, writes, trace, Q => Q result writes trace
  | .stmt s next, writes, trace, Q => ∀ answer more, A writes trace (.answer s answer more) →
      Prog.paths A (next answer) (writes ++ more) (trace ++ [.stmt s answer]) Q
  | .commit next, writes, trace, Q =>
    (∀ told, A writes trace (.commit told) → Prog.paths A (next told) [] (trace ++ [.committed writes]) Q) ∧
    ∀ e, A writes trace (.abort e) → Prog.paths A (next (.error e)) [] (trace ++ [.rolledBack]) Q
  | .rollback next, writes, trace, Q =>
    ∀ told, A writes trace (.rollback told) → Prog.paths A (next told) [] (trace ++ [.rolledBack]) Q

variable {A : Admission W S R ε} {writes : List W} {trace : List (Ev W S R ε)}

/-! ## Rules -/

theorem paths_mono {prog : Prog S R ε β} {Q Q' : Except ε β → List W → List (Ev W S R ε) → Prop}
    (weaker : ∀ r writes trace, Q r writes trace → Q' r writes trace) (met : prog.paths A writes trace Q) :
    prog.paths A writes trace Q' := by
  induction prog generalizing writes trace with
  | done result => exact weaker _ _ _ met
  | stmt s next ih => exact fun answer more admitted => ih _ (met answer more admitted)
  | commit next ih =>
    exact ⟨fun told admitted => ih _ (met.1 told admitted), fun e admitted => ih _ (met.2 e admitted)⟩
  | rollback next ih => exact fun told admitted => ih _ (met told admitted)

/-- Fewer turns leave fewer paths. -/
theorem paths_fewer {A' : Admission W S R ε} {prog : Prog S R ε β}
    {Q : Except ε β → List W → List (Ev W S R ε) → Prop}
    (fewer : ∀ writes trace turn, A' writes trace turn → A writes trace turn)
    (met : prog.paths A writes trace Q) :
    prog.paths A' writes trace Q := by
  induction prog generalizing writes trace with
  | done result => exact met
  | stmt s next ih => exact fun answer more admitted => ih _ (met answer more (fewer _ _ _ admitted))
  | commit next ih =>
    exact ⟨fun told admitted => ih _ (met.1 told (fewer _ _ _ admitted)),
      fun e admitted => ih _ (met.2 e (fewer _ _ _ admitted))⟩
  | rollback next ih => exact fun told admitted => ih _ (met told (fewer _ _ _ admitted))

theorem paths_andThen {first : Prog S R ε γ} {next : Except ε γ → Prog S R ε β}
    {Q : Except ε β → List W → List (Ev W S R ε) → Prop}
    (met : first.paths A writes trace fun r writes trace => (next r).paths A writes trace Q) :
    (first.andThen next).paths A writes trace Q := by
  induction first generalizing writes trace with
  | done result => exact met
  | stmt s rest ih => exact fun answer more admitted => ih _ (met answer more admitted)
  | commit rest ih =>
    exact ⟨fun told admitted => ih _ (met.1 told admitted), fun e admitted => ih _ (met.2 e admitted)⟩
  | rollback rest ih => exact fun told admitted => ih _ (met told admitted)

/-- A value leaves what meets `P`, an exception what meets `E`. -/
def Comes (P : β → List W → List (Ev W S R ε) → Prop) (E : ε → List (Ev W S R ε) → Prop) :
    Except ε β → List W → List (Ev W S R ε) → Prop
  | .ok value, writes, trace => P value writes trace
  | .error e, _, trace => E e trace

variable {P : β → List W → List (Ev W S R ε) → Prop} {E : ε → List (Ev W S R ε) → Prop}

theorem paths_bind {first : Prog S R ε γ} {next : γ → Prog S R ε β}
    {M : γ → List W → List (Ev W S R ε) → Prop} (met : first.paths A writes trace (Comes M E))
    (rest : ∀ value writes trace, M value writes trace → (next value).paths A writes trace (Comes P E)) :
    (first >>= next).paths A writes trace (Comes P E) := by
  refine paths_andThen (paths_mono (fun r writes trace came => ?_) met)
  cases r with
  | ok value => exact rest value writes trace came
  | error e => exact came

theorem paths_perform {s : S} {P : R s → List W → List (Ev W S R ε) → Prop}
    (answered : ∀ a more, A writes trace (.answer s (.ok a) more) →
      P a (writes ++ more) (trace ++ [Ev.stmt s (.ok a)]))
    (failed : ∀ e more, A writes trace (.answer s (.error e) more) → E e (trace ++ [Ev.stmt s (.error e)])) :
    (Prog.perform s : Prog S R ε (R s)).paths A writes trace (Comes P E) := by
  intro answer more admitted
  cases answer with
  | ok a => exact answered a more admitted
  | error e => exact failed e more admitted

/-- A statement and what follows its answer. -/
theorem paths_next {s : S} {next : R s → Prog S R ε β}
    (failed : ∀ e more, A writes trace (.answer s (.error e) more) → E e (trace ++ [Ev.stmt s (.error e)]))
    (rest : ∀ a more, A writes trace (.answer s (.ok a) more) →
      (next a).paths A (writes ++ more) (trace ++ [Ev.stmt s (.ok a)]) (Comes P E)) :
    (Prog.perform s >>= next : Prog S R ε β).paths A writes trace (Comes P E) := by
  intro answer more admitted
  cases answer with
  | ok a => exact rest a more admitted
  | error e => exact failed e more admitted

theorem paths_trivial {prog : Prog S R ε β} {Q : Except ε β → List W → List (Ev W S R ε) → Prop}
    (free : ∀ r writes trace, Q r writes trace) : prog.paths A writes trace Q := by
  induction prog generalizing writes trace with
  | done result => exact free result writes trace
  | stmt s next ih => exact fun answer more _ => ih _
  | commit next ih => exact ⟨fun told _ => ih _, fun e _ => ih _⟩
  | rollback next ih => exact fun told _ => ih _

section Kinds

variable {K : S → Prop} {T : ε → Prop} {I : List W → List (Ev W S R ε) → Prop}

/-- A piece of a transaction keeps what each of its statements keeps. -/
theorem paths_piece {prog : Prog S R ε β} (piece : prog.Piece K T)
    (kept : ∀ writes trace s answer more, I writes trace → K s → A writes trace (.answer s answer more) →
      I (writes ++ more) (trace ++ [.stmt s answer]) ∧ ∀ e, answer = .error e → T e)
    (begun : I writes trace) :
    prog.paths A writes trace fun r writes trace => I writes trace ∧ ∀ e, r = .error e → T e := by
  induction prog generalizing writes trace with
  | done result => exact ⟨begun, piece⟩
  | stmt s next ih =>
    intro answer more admitted
    obtain ⟨kind, values, errors⟩ := piece
    obtain ⟨goesOn, raised⟩ := kept writes trace s answer more begun kind admitted
    cases answer with
    | ok a => exact ih _ (values a) goesOn
    | error e => exact ih _ (errors e (raised e rfl)) goesOn
  | commit next ih => exact piece.elim
  | rollback next ih => exact piece.elim

/-- What the statements of a program and the ends of its transactions keep, may be used to
admit its turns, and is kept to its end. -/
theorem paths_only {prog : Prog S R ε β} {Q : Except ε β → List W → List (Ev W S R ε) → Prop}
    (only : prog.Only K)
    (answered : ∀ writes trace s answer more, I writes trace → K s → A writes trace (.answer s answer more) →
      I (writes ++ more) (trace ++ [Ev.stmt s answer]))
    (committed : ∀ writes trace, I writes trace → I [] (trace ++ [Ev.committed writes]))
    (rolledBack : ∀ writes trace, I writes trace → I [] (trace ++ [Ev.rolledBack])) (begun : I writes trace)
    (met : prog.paths (fun writes trace turn => I writes trace ∧ A writes trace turn) writes trace Q) :
    prog.paths A writes trace fun r writes trace => I writes trace ∧ Q r writes trace := by
  induction prog generalizing writes trace with
  | done result => exact ⟨begun, met⟩
  | stmt s next ih =>
    exact fun answer more admitted => ih _ (only.2 _) (answered _ _ _ _ _ begun only.1 admitted)
      (met answer more ⟨begun, admitted⟩)
  | commit next ih =>
    exact ⟨fun told admitted => ih _ (only _) (committed _ _ begun) (met.1 told ⟨begun, admitted⟩),
      fun e admitted => ih _ (only _) (rolledBack _ _ begun) (met.2 e ⟨begun, admitted⟩)⟩
  | rollback next ih =>
    exact fun told admitted => ih _ (only _) (rolledBack _ _ begun) (met told ⟨begun, admitted⟩)

end Kinds

end Condition

/-! ## Runs -/

section Runs

variable [DecidableEq Lock] {σ : System Db W Lock Inp Call S R ε α} {first w w' : World Db W Lock Call S R ε α}
  {t : Tid} {action : Action Inp Call ε}

/-- The turn that the thread takes by the action. -/
def System.turn? (σ : System Db W Lock Inp Call S R ε α) (w : World Db W Lock Call S R ε α)
    (th : Thread W Call S R ε α) : Action Inp Call ε → Option (Turn W S R ε)
  | .run t input =>
    match th.prog with
    | .done _ => none
    | .stmt s _ => (σ.exec (w.held.available t) input (σ.applyAll th.writes w.db) s).map fun reply =>
      .answer s reply.answer reply.writes
    | .commit _ => some (.commit (.ok ()))
    | .rollback _ => some (.rollback (.ok ()))
  | .fault _ e =>
    match th.prog with
    | .done _ => none
    | .stmt s _ => some (.answer s (.error e) [])
    | .commit _ => some (.abort e)
    | .rollback _ => some (.rollback (.error e))
  | .lost _ e =>
    match th.prog with
    | .commit _ => some (.commit (.error e))
    | _ => none
  | .spawn _ _ | .kill _ => none

/-- The thread has come along a path of its program. -/
def World.OnPath (w : World Db W Lock Call S R ε α) (t : Tid) (A : Call → Admission W S R ε)
    (Q : Call → Except ε α → List W → List (Ev W S R ε) → Prop) : Prop :=
  ∀ th, w.threads t = some th → th.prog.paths (A th.call) th.writes th.trace (Q th.call)

variable {A : Call → Admission W S R ε} {Q : Call → Except ε α → List W → List (Ev W S R ε) → Prop}

omit [DecidableEq Lock] in
theorem World.OnPath.moved {db : Db} {held : LockTable Lock} {log : List (Entry Db W Call S R ε)}
    {thread : Option (Thread W Call S R ε α)}
    (own : ∀ th, thread = some th → th.prog.paths (A th.call) th.writes th.trace (Q th.call)) :
    World.OnPath ⟨db, held, Function.update w.threads t thread, log⟩ t A Q := by
  intro th there
  exact own th ((Function.update_self t thread w.threads).symm.trans there)

/-- Another thread's step leaves the thread where it is, and its own is an admissible turn. -/
theorem World.OnPath.step (onPath : w.OnPath t A Q)
    (begun : ∀ call, (σ.program call).paths (A call) [] [] (Q call))
    (admitted : ∀ th turn, w.threads t = some th → action.tid = t → σ.turn? w th action = some turn →
      A th.call th.writes th.trace turn)
    (stepped : step σ w action = some w') : w'.OnPath t A Q := by
  by_cases mine : t = action.tid
  · subst mine
    cases step_cases stepped with
    | @spawned t call =>
      exact .moved fun th same => by
        cases same
        exact begun call
    | @answered t input th s next reply here shape ran free =>
      have met := onPath th here
      rw [shape] at met
      exact .moved fun th' same => by
        cases same
        exact met _ _ (admitted th _ here rfl (by simp [System.turn?, shape, ran]))
    | @refused t e th s next here shape =>
      have met := onPath th here
      rw [shape] at met
      have after := met (.error e) [] (admitted th _ here rfl (by simp [System.turn?, shape]))
      rw [List.append_nil] at after
      exact .moved fun th' same => by
        cases same
        exact after
    | @concluded action t th next told here shape how =>
      have met := onPath th
      rcases how with ⟨⟨input, rfl⟩, rfl⟩ | ⟨e, rfl, rfl⟩
      · have met := met here
        rw [shape] at met
        exact .moved fun th' same => by
          cases same
          exact met.1 _ (admitted th _ here rfl (by simp [System.turn?, shape]))
      · have met := met here
        rw [shape] at met
        exact .moved fun th' same => by
          cases same
          exact met.1 _ (admitted th _ here rfl (by simp [System.turn?, shape]))
    | @rolledBack action t th next told here shape how =>
      have met := onPath th
      rcases how with ⟨⟨input, rfl⟩, rfl⟩ | ⟨e, rfl, rfl⟩
      · have met := met here
        rw [shape] at met
        exact .moved fun th' same => by
          cases same
          exact met _ (admitted th _ here rfl (by simp [System.turn?, shape]))
      · have met := met here
        rw [shape] at met
        exact .moved fun th' same => by
          cases same
          exact met _ (admitted th _ here rfl (by simp [System.turn?, shape]))
    | @uncommitted t e th next here shape =>
      have met := onPath th here
      rw [shape] at met
      exact .moved fun th' same => by
        cases same
        exact met.2 _ (admitted th _ here rfl (by simp [System.turn?, shape]))
    | killed => exact .moved fun th none => by cases none
  · intro th there
    rw [(step_cases stepped).others mine] at there
    exact onPath th there

/-- A thread whose turns are all admissible stays on a path of its program. -/
theorem paths_reach {allow : World Db W Lock Call S R ε α → Action Inp Call ε → Prop}
    (begun : ∀ call, (σ.program call).paths (A call) [] [] (Q call))
    (admitted : ∀ w action th turn, allow w action → w.threads t = some th → action.tid = t →
      σ.turn? w th action = some turn → A th.call th.writes th.trace turn)
    (fresh : first.threads t = none) (reached : Reach σ allow first w) : w.OnPath t A Q := by
  induction reached with
  | start =>
    intro th here
    rw [fresh] at here
    cases here
  | next _ permitted stepped ih =>
    exact ih.step begun (fun th turn here mine took => admitted _ _ th turn permitted here mine took) stepped

end Runs

end Txn
