import WebhookReceiver.Txn.Logic
import WebhookReceiver.Txn.Lone

/-!
What a transaction commits, on terms about the rest of the world.

A call has `Terms`: what it may rely on the answers to its statements to tell, and which of its
commits may take effect without its being told. `under` is the condition of a program on
such terms. `Bound.step` carries the condition over a step of the world that keeps them
(`System.Keeps`), so terms may be argued from anything that is known of the world.
-/

namespace Txn

variable {Db W Lock Inp Call S Fact : Type} {R : S → Type} {ε α β γ : Type}

/-- What a call relies on. -/
structure Terms (W S : Type) (R : S → Type) (ε : Type) where
  /-- After this trace, with these writes waiting, the statement can be answered so. -/
  tells : List (Ev W S R ε) → List W → (s : S) → R s → Prop
  /-- A commit of these writes can take effect while the call is told that it failed. -/
  loses : List (Ev W S R ε) → List W → Prop

namespace Discipline

variable {σ : System Db W Lock Inp Call S R ε α} (D : Discipline σ Fact)

/-- On every path of a program on which the terms are kept: what is committed meets `Φ`,
and the end meets `Q`. -/
def under (terms : Terms W S R ε) (Φ : List (Ev W S R ε) → List W → Prop) : Prog S R ε β → List W →
    List (Ev W S R ε) → (Except ε β → List W → List (Ev W S R ε) → Prop) → Prop
  | .done result, writes, trace, Q => Q result writes trace
  | .stmt s next, writes, trace, Q =>
    (∀ e, under terms Φ (next (.error e)) writes (trace ++ [.stmt s (.error e)]) Q) ∧
    ∀ a lesson, D.teaches s a lesson → terms.tells trace writes s a →
      under terms Φ (next (.ok a)) (writes ++ lesson.writes) (trace ++ [.stmt s (.ok a)]) Q
  | .commit next, writes, trace, Q =>
    Φ trace writes ∧ under terms Φ (next (.ok ())) [] (trace ++ [.committed writes]) Q ∧
    (terms.loses trace writes → ∀ e, under terms Φ (next (.error e)) [] (trace ++ [.committed writes]) Q) ∧
    ∀ e, under terms Φ (next (.error e)) [] (trace ++ [.rolledBack]) Q
  | .rollback next, _, trace, Q => ∀ told, under terms Φ (next told) [] (trace ++ [.rolledBack]) Q

variable {D} {terms : Terms W S R ε} {Φ : List (Ev W S R ε) → List W → Prop} {writes : List W}
  {trace : List (Ev W S R ε)}

/-! ## Rules -/

theorem under_mono {prog : Prog S R ε β} {Q Q' : Except ε β → List W → List (Ev W S R ε) → Prop}
    (weaker : ∀ r writes trace, Q r writes trace → Q' r writes trace)
    (met : D.under terms Φ prog writes trace Q) : D.under terms Φ prog writes trace Q' := by
  induction prog generalizing writes trace with
  | done result => exact weaker _ _ _ met
  | stmt s next ih =>
    exact ⟨fun e => ih _ (met.1 e), fun a lesson taught told => ih _ (met.2 a lesson taught told)⟩
  | commit next ih =>
    obtain ⟨ready, committed, lost, failed⟩ := met
    exact ⟨ready, ih _ committed, fun loses e => ih _ (lost loses e), fun e => ih _ (failed e)⟩
  | rollback next ih => exact fun told => ih _ (met told)

theorem under_andThen {first : Prog S R ε γ} {next : Except ε γ → Prog S R ε β}
    {Q : Except ε β → List W → List (Ev W S R ε) → Prop}
    (met : D.under terms Φ first writes trace fun r writes trace => D.under terms Φ (next r) writes trace Q) :
    D.under terms Φ (first.andThen next) writes trace Q := by
  induction first generalizing writes trace with
  | done result => exact met
  | stmt s rest ih =>
    exact ⟨fun e => ih _ (met.1 e), fun a lesson taught told => ih _ (met.2 a lesson taught told)⟩
  | commit rest ih =>
    obtain ⟨ready, committed, lost, failed⟩ := met
    exact ⟨ready, ih _ committed, fun loses e => ih _ (lost loses e), fun e => ih _ (failed e)⟩
  | rollback rest ih => exact fun told => ih _ (met told)

/-- What a value leaves meets `P`, what an exception leaves meets `X`. -/
def Leaves (X : List W → List (Ev W S R ε) → Prop) (P : β → List W → List (Ev W S R ε) → Prop) :
    Except ε β → List W → List (Ev W S R ε) → Prop
  | .ok value, writes, trace => P value writes trace
  | .error _, writes, trace => X writes trace

section Leaves

variable {X : List W → List (Ev W S R ε) → Prop}

theorem under_bind {first : Prog S R ε γ} {next : γ → Prog S R ε β}
    {P : γ → List W → List (Ev W S R ε) → Prop} {Q : β → List W → List (Ev W S R ε) → Prop}
    (met : D.under terms Φ first writes trace (Leaves X P))
    (rest : ∀ value writes trace, P value writes trace →
      D.under terms Φ (next value) writes trace (Leaves X Q)) :
    D.under terms Φ (first >>= next) writes trace (Leaves X Q) := by
  refine under_andThen (under_mono (fun r writes trace left => ?_) met)
  cases r with
  | ok value => exact rest value writes trace left
  | error e => exact left

theorem under_perform {s : S} {P : R s → List W → List (Ev W S R ε) → Prop}
    (raised : ∀ e, X writes (trace ++ [Ev.stmt s (.error e)]))
    (answered : ∀ a lesson, D.teaches s a lesson → terms.tells trace writes s a →
      P a (writes ++ lesson.writes) (trace ++ [Ev.stmt s (.ok a)])) :
    D.under terms Φ (Prog.perform s) writes trace (Leaves X P) :=
  ⟨raised, answered⟩

end Leaves

/-- A program that is held to nothing. -/
theorem under_free {prog : Prog S R ε β} (free : ∀ trace writes, Φ trace writes) :
    D.under terms Φ prog writes trace fun _ _ _ => True := by
  induction prog generalizing writes trace with
  | done result => exact trivial
  | stmt s next ih => exact ⟨fun e => ih _, fun a lesson _ _ => ih _⟩
  | commit next ih => exact ⟨free _ _, ih _, fun _ e => ih _, fun e => ih _⟩
  | rollback next ih => exact fun told => ih _

/-- A piece of a transaction whose statements keep what holds of the waiting writes and of
the trace. -/
theorem under_piece {P : S → Prop} {J : List W → Prop} {I : List (Ev W S R ε) → Prop} {prog : Prog S R ε β}
    (inner : prog.Inner) (only : prog.Only P)
    (waits : ∀ writes s a lesson, P s → D.teaches s a lesson → J writes → J (writes ++ lesson.writes))
    (seen : ∀ trace s answer, P s → I trace → I (trace ++ [.stmt s answer])) (pending : J writes)
    (begun : I trace) : D.under terms Φ prog writes trace
    (Leaves (fun _ => I) fun _ writes trace => J writes ∧ I trace) := by
  induction prog generalizing writes trace with
  | done result =>
    cases result with
    | ok value => exact ⟨pending, begun⟩
    | error e => exact begun
  | stmt s next ih =>
    constructor
    · intro e
      exact ih _ (inner _) (only.2 _) pending (seen _ _ _ only.1 begun)
    · intro a lesson taught _
      exact ih _ (inner _) (only.2 _) (waits _ _ _ _ only.1 taught pending) (seen _ _ _ only.1 begun)
  | commit next ih => exact inner.elim
  | rollback next ih => exact inner.elim

/-! ## Runs -/

section Runs

variable [DecidableEq Lock] {terms : Call → Terms W S R ε} {Φ : Call → List (Ev W S R ε) → List W → Prop}
  {start : Db} {w w' : World Db W Lock Call S R ε α} {action : Action Inp Call ε} {t : Tid}

/-- The action keeps the terms of the call that it is about. -/
def Keeps (σ : System Db W Lock Inp Call S R ε α) (terms : Call → Terms W S R ε)
    (w : World Db W Lock Call S R ε α) : Action Inp Call ε → Prop
  | .run t input => ∀ th s next reply a, w.threads t = some th → th.prog = .stmt s next →
    σ.exec (w.held.available t) input (σ.applyAll th.writes w.db) s = some reply →
    reply.answer = .ok a → (terms th.call).tells th.trace th.writes s a
  | .lost t _ => ∀ th, w.threads t = some th → (terms th.call).loses th.trace th.writes
  | _ => True

variable (D) in
/-- What is left of every call meets its condition, and what has been committed met it. -/
structure Bound (terms : Call → Terms W S R ε) (Φ : Call → List (Ev W S R ε) → List W → Prop)
    (w : World Db W Lock Call S R ε α) : Prop where
  course : ∀ t th, w.threads t = some th →
    D.under (terms th.call) (Φ th.call) th.prog th.writes th.trace fun _ _ _ => True
  log : ∀ entry ∈ w.log, Φ entry.call entry.trace entry.writes

omit [DecidableEq Lock] in
/-- One thread goes on. -/
private theorem Bound.moved (bound : D.Bound terms Φ w) {db : Db} {held : LockTable Lock}
    {thread : Option (Thread W Call S R ε α)} {log : List (Entry Db W Call S R ε)}
    (own : ∀ th, thread = some th →
      D.under (terms th.call) (Φ th.call) th.prog th.writes th.trace fun _ _ _ => True)
    (met : ∀ entry ∈ log, Φ entry.call entry.trace entry.writes) :
    D.Bound terms Φ ⟨db, held, Function.update w.threads t thread, log⟩ := by
  refine ⟨fun u th here => ?_, met⟩
  by_cases same : u = t
  · subst same
    have there : Function.update w.threads u thread u = some th := here
    rw [Function.update_self] at there
    exact own th there
  · have there : Function.update w.threads t thread u = some th := here
    rw [Function.update_of_ne same] at there
    exact bound.course u th there

theorem Bound.step (verified : D.Verified) (good : D.wf start)
    (reached : Reach σ (fun _ action => D.Permits action) (.init start) w)
    (spawned : ∀ call, D.under (terms call) (Φ call) (σ.program call) [] [] fun _ _ _ => True)
    (bound : D.Bound terms Φ w) (keeps : Keeps σ terms w action) (stepped : step σ w action = some w') :
    D.Bound terms Φ w' := by
  cases step_cases stepped with
  | @spawned t call =>
    refine bound.moved ?_ bound.log
    rintro _ ⟨⟩
    exact spawned call
  | @answered t input th s next reply here shape ran free =>
    have course := bound.course t th here
    rw [shape] at course
    obtain ⟨view, locks, obeyed⟩ := verified.obeyed good reached here shape
    refine bound.moved ?_ bound.log
    rintro _ ⟨⟩
    cases answered : reply.answer with
    | error e =>
      obtain ⟨silent, -⟩ := D.exec_error view obeyed ran answered
      simpa [silent] using course.1 e
    | ok a =>
      obtain ⟨facts, taught, -⟩ := D.exec_teaches (verified.history good reached).1 view obeyed ran answered
      exact course.2 a _ taught (keeps th s next reply a here shape ran answered)
  | @refused t e th s next here shape =>
    have course := bound.course t th here
    rw [shape] at course
    refine bound.moved ?_ bound.log
    rintro _ ⟨⟩
    exact course.1 e
  | @concluded action t th next told here shape how =>
    have course := bound.course t th here
    rw [shape] at course
    obtain ⟨ready, committed, lost, -⟩ := course
    refine bound.moved ?_ fun entry member => ?_
    · rintro _ ⟨⟩
      rcases how with ⟨-, rfl⟩ | ⟨e, rfl, rfl⟩
      · exact committed
      · exact lost (keeps th here) e
    · rcases List.mem_append.mp member with old | new
      · exact bound.log entry old
      · rw [List.mem_singleton.mp new]
        exact ready
  | @rolledBack action t th next told here shape how =>
    have course := bound.course t th here
    rw [shape] at course
    refine bound.moved ?_ bound.log
    rintro _ ⟨⟩
    exact course told
  | @uncommitted t e th next here shape =>
    have course := bound.course t th here
    rw [shape] at course
    obtain ⟨-, -, -, failed⟩ := course
    refine bound.moved ?_ bound.log
    rintro _ ⟨⟩
    exact failed e
  | killed =>
    refine bound.moved ?_ bound.log
    rintro _ ⟨⟩

end Runs

end Discipline

end Txn
