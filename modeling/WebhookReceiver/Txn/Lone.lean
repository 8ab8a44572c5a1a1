import WebhookReceiver.Txn.Solo
import WebhookReceiver.Txn.Recovery

/-!
A program logic for a thread with the store to itself.

Nobody else holds a lock, so a statement does exactly what `exec` says on the store as
it is: `System.lone` is the verification condition of a program under this reading.
Exceptions may strike from outside, where `strikes` allows them, and the process may
die at any moment. `lone_reach` says that a run of the world with one thread only keeps
the condition.

A piece of a program that ends no transaction is often worth no closer look: it changes
nothing but what its statements do at once (`lone_inner`).
-/

namespace Txn

variable {Db W Lock Inp Call S : Type} {R : S → Type} {ε α β γ : Type}

/-! ## Pieces of a transaction -/

/-- The program ends no transaction. -/
def Prog.Inner : Prog S R ε α → Prop
  | .done _ => True
  | .stmt _ next => ∀ answer, (next answer).Inner
  | .commit _ | .rollback _ => False

theorem Prog.Throws.inner {T : ε → Prop} {prog : Prog S R ε α} (throws : prog.Throws T) : prog.Inner := by
  induction prog with
  | done result => exact trivial
  | stmt s rest ih => exact fun answer => ih answer (throws.2 answer)
  | commit rest ih => exact throws
  | rollback rest ih => exact throws

/-! ## The condition -/

/-- Where a thread stands that has the store to itself. -/
structure Lone (Db W Call S : Type) (R : S → Type) (ε : Type) where
  db : Db
  writes : List W := []
  trace : List (Ev W S R ε) := []
  log : List (Entry Db W Call S R ε) := []

section Condition

variable (σ : System Db W Lock Inp Call S R ε α) (t : Tid) (call : Call)
  (strikes : List (Ev W S R ε) → ε → Prop)

/-- The verification condition of a program that runs alone. -/
def System.lone : Prog S R ε β → Lone Db W Call S R ε → (Except ε β → Lone Db W Call S R ε → Prop) → Prop
  | .done result, c, Q => Q result c
  | .stmt s next, c, Q =>
    (∀ input reply, σ.exec (fun _ _ => true) input (σ.applyAll c.writes c.db) s = some reply →
      System.lone (next reply.answer) { c with
        db := σ.applyAll reply.instant c.db
        writes := c.writes ++ reply.writes
        trace := c.trace ++ [.stmt s reply.answer] } Q) ∧
    ∀ e, strikes c.trace e →
      System.lone (next (.error e)) { c with trace := c.trace ++ [.stmt s (.error e)] } Q
  | .commit next, c, Q =>
    System.lone (next (.ok ())) {
      db := σ.applyAll c.writes c.db
      trace := c.trace ++ [.committed c.writes]
      log := c.log ++ [⟨t, call, c.trace, c.db, c.writes⟩] } Q ∧
    ∀ e, strikes c.trace e →
      System.lone (next (.error e)) { c with writes := [], trace := c.trace ++ [.rolledBack] } Q
  | .rollback next, c, Q =>
    ∀ answer, (∀ e, answer = .error e → strikes c.trace e) →
      System.lone (next answer) { c with writes := [], trace := c.trace ++ [.rolledBack] } Q

variable {σ t call strikes} {c : Lone Db W Call S R ε} {Q Q' : Except ε β → Lone Db W Call S R ε → Prop}

theorem lone_mono {prog : Prog S R ε β} (weaker : ∀ r c, Q r c → Q' r c)
    (met : σ.lone t call strikes prog c Q) : σ.lone t call strikes prog c Q' := by
  induction prog generalizing c with
  | done result => exact weaker _ _ met
  | stmt s next ih =>
    exact ⟨fun input reply ran => ih _ (met.1 input reply ran), fun e struck => ih _ (met.2 e struck)⟩
  | commit next ih => exact ⟨ih _ met.1, fun e struck => ih _ (met.2 e struck)⟩
  | rollback next ih => exact fun answer ends => ih _ (met answer ends)

theorem lone_andThen {first : Prog S R ε γ} {next : Except ε γ → Prog S R ε β}
    (met : σ.lone t call strikes first c fun r c => σ.lone t call strikes (next r) c Q) :
    σ.lone t call strikes (first.andThen next) c Q := by
  induction first generalizing c with
  | done result => exact met
  | stmt s rest ih =>
    exact ⟨fun input reply ran => ih _ (met.1 input reply ran), fun e struck => ih _ (met.2 e struck)⟩
  | commit rest ih => exact ⟨ih _ met.1, fun e struck => ih _ (met.2 e struck)⟩
  | rollback rest ih => exact fun answer ends => ih _ (met answer ends)

/-- What a piece of a transaction can have done when its statements do at once only
what leaves `Same` as it is. -/
structure Lone.Inside (Same : Db → Db → Prop) (c c' : Lone Db W Call S R ε) : Prop where
  db : Same c.db c'.db
  writes : c.writes <+: c'.writes
  trace : ∃ seen, c'.trace = c.trace ++ seen ∧ ∀ ev ∈ seen, ∃ s answer, ev = .stmt s answer
  log : c'.log = c.log

theorem Lone.Inside.trans {Same : Db → Db → Prop} (compose : ∀ a b c, Same a b → Same b c → Same a c)
    {c₁ c₂ c₃ : Lone Db W Call S R ε} (first : c₁.Inside Same c₂) (second : c₂.Inside Same c₃) :
    c₁.Inside Same c₃ := by
  refine ⟨compose _ _ _ first.db second.db, first.writes.trans second.writes, ?_, second.log.trans first.log⟩
  obtain ⟨seen, grown, stmts⟩ := first.trace
  obtain ⟨seen', grown', stmts'⟩ := second.trace
  refine ⟨seen ++ seen', by rw [grown', grown, List.append_assoc], fun ev member => ?_⟩
  exact (List.mem_append.mp member).elim (stmts ev) (stmts' ev)

theorem lone_inner {Same : Db → Db → Prop} (compose : ∀ a b c, Same a b → Same b c → Same a c)
    (refl : ∀ db, Same db db)
    (instants : ∀ {input view s reply}, σ.exec (fun _ _ => true) input view s = some reply →
      ∀ db, Same db (σ.applyAll reply.instant db))
    {prog : Prog S R ε β} (inner : prog.Inner) (ends : ∀ r c', c.Inside Same c' → Q r c') :
    σ.lone t call strikes prog c Q := by
  induction prog generalizing c with
  | done result =>
    exact ends result c ⟨refl c.db, List.prefix_refl _, ⟨[], by simp, by simp⟩, rfl⟩
  | stmt s next ih =>
    constructor
    · intro input reply ran
      refine ih _ (inner _) fun r c' inside => ends r c' (Lone.Inside.trans compose ?_ inside)
      exact ⟨instants ran c.db, List.prefix_append _ _, ⟨_, rfl, by simp⟩, rfl⟩
    · intro e struck
      refine ih _ (inner _) fun r c' inside => ends r c' (Lone.Inside.trans compose ?_ inside)
      exact ⟨refl c.db, List.prefix_refl _, ⟨_, rfl, by simp⟩, rfl⟩
  | commit next ih => exact inner.elim
  | rollback next ih => exact inner.elim

end Condition

/-! ## Runs with one thread -/

section Runs

variable [DecidableEq Lock] {σ : System Db W Lock Inp Call S R ε α} {t : Tid} {call : Call}
  {strikes : List (Ev W S R ε) → ε → Prop}

/-- What can happen to a thread that is alone. That a commit takes effect and is reported
failed is left out: of one thread it would make two attempts at the same work. -/
def Lonely (t : Tid) (strikes : List (Ev W S R ε) → ε → Prop) (w : World Db W Lock Call S R ε α) :
    Action Inp Call ε → Prop
  | .run u _ => u = t
  | .fault u e => u = t ∧ ∃ th, w.threads t = some th ∧ strikes th.trace e
  | .kill u => u = t
  | .spawn _ _ | .lost _ _ => False

/-- A store with one call at work on it, which has not begun. -/
def World.begin (σ : System Db W Lock Inp Call S R ε α) (db : Db) (t : Tid) (call : Call) :
    World Db W Lock Call S R ε α :=
  (World.init db).setThread t (some ⟨call, σ.program call, [], []⟩)

/-- A thread that is alone, and still meets its condition. -/
structure World.Alone (σ : System Db W Lock Inp Call S R ε α) (t : Tid) (call : Call)
    (strikes : List (Ev W S R ε) → ε → Prop)
    (Q : Except ε α → Lone Db W Call S R ε → Prop) (w : World Db W Lock Call S R ε α) : Prop where
  only : w.OnlyThread t
  called : ∀ th, w.threads t = some th → th.call = call
  committed : ∀ th, w.threads t = some th → w.log ≠ [] → ∃ writes, .committed writes ∈ th.trace
  met : ∀ th, w.threads t = some th →
    σ.lone t call strikes th.prog ⟨w.db, th.writes, th.trace, w.log⟩ Q

variable {Q : Except ε α → Lone Db W Call S R ε → Prop} {w w' : World Db W Lock Call S R ε α}

theorem World.Alone.step (alone : w.Alone σ t call strikes Q) {action : Action Inp Call ε}
    (lonely : Lonely t strikes w action) (stepped : step σ w action = some w') :
    w'.Alone σ t call strikes Q := by
  -- the thread has moved to `th'`, and saw no end of a transaction but what is in the log
  have moved : ∀ {db held log} {th th' : Thread W Call S R ε α}, w.threads t = some th →
      (∀ lock, ∀ holder ∈ held lock, holder ∈ w.held lock ∨ holder.1 = t) →
      th'.call = th.call → th.trace ⊆ th'.trace →
      (log = w.log ∨ ∃ writes, .committed writes ∈ th'.trace) →
      σ.lone t call strikes th'.prog ⟨db, th'.writes, th'.trace, log⟩ Q →
      World.Alone σ t call strikes Q ⟨db, held, Function.update w.threads t (some th'), log⟩ := by
    intro db held log th th' here own same grown logged met
    have self : ∀ other, Function.update w.threads t (some th') t = some other → th' = other := by
      intro other there
      simpa using there
    refine ⟨alone.only.update own, ?_, ?_, ?_⟩
    · intro other there
      obtain rfl := self other there
      exact same.trans (alone.called th here)
    · intro other there ended
      obtain rfl := self other there
      rcases logged with rfl | new
      · obtain ⟨writes, seen⟩ := alone.committed th here ended
        exact ⟨writes, grown seen⟩
      · exact new
    · intro other there
      obtain rfl := self other there
      exact met
  have grown : ∀ {trace : List (Ev W S R ε)} {ev}, trace ⊆ trace ++ [ev] :=
    fun member => List.mem_append_left _ member
  cases step_cases stepped with
  | spawned => exact lonely.elim
  | @answered u input th s next reply here shape ran free =>
    cases lonely
    have met := alone.met th here
    rw [shape] at met
    rw [alone.only.available] at ran
    exact moved here (grant_own reply.locks) rfl grown (Or.inl rfl) (met.1 input reply ran)
  | @refused u e th s next here shape =>
    obtain ⟨rfl, other, there, struck⟩ := lonely
    rw [here, Option.some.injEq] at there
    subst there
    have met := alone.met th here
    rw [shape] at met
    exact moved here (fun lock holder member => Or.inl member) rfl grown (Or.inl rfl) (met.2 e struck)
  | @concluded action u th next told here shape how =>
    rcases how with ⟨⟨input, rfl⟩, rfl⟩ | ⟨e, rfl, rfl⟩
    · cases lonely
      have met := alone.met th here
      rw [shape] at met
      refine moved here release_own rfl grown (Or.inr ⟨th.writes, by simp⟩) ?_
      rw [← alone.called th here] at met ⊢
      exact met.1
    · exact lonely.elim
  | @rolledBack action u th next told here shape how =>
    rcases how with ⟨⟨input, rfl⟩, rfl⟩ | ⟨e, rfl, rfl⟩
    · cases lonely
      have met := alone.met th here
      rw [shape] at met
      exact moved here release_own rfl grown (Or.inl rfl) (met _ (by simp))
    · obtain ⟨rfl, other, there, struck⟩ := lonely
      rw [here, Option.some.injEq] at there
      subst there
      have met := alone.met th here
      rw [shape] at met
      exact moved here release_own rfl grown (Or.inl rfl) (met _ (by rintro _ ⟨⟩; exact struck))
  | @uncommitted u e th next here shape =>
    obtain ⟨rfl, other, there, struck⟩ := lonely
    rw [here, Option.some.injEq] at there
    subst there
    have met := alone.met th here
    rw [shape] at met
    exact moved here release_own rfl grown (Or.inl rfl) (met.2 e struck)
  | killed =>
    cases lonely
    have gone : ∀ th, Function.update w.threads t none t ≠ some th := by simp
    exact ⟨alone.only.update release_own, fun th there => absurd there (gone th),
      fun th there => absurd there (gone th), fun th there => absurd there (gone th)⟩

/-- A thread that begins alone stays alone and keeps its condition. -/
theorem lone_reach {db : Db} (met : σ.lone t call strikes (σ.program call) { db := db } Q)
    (reached : Reach σ (Lonely t strikes) (World.begin σ db t call) w) :
    w.Alone σ t call strikes Q := by
  induction reached with
  | start =>
    have self : ∀ th, (World.begin σ db t call).threads t = some th →
        ⟨call, σ.program call, [], []⟩ = th := by
      intro th here
      simpa [World.begin, World.setThread] using here
    refine ⟨⟨fun lock holder member => (by cases member), fun u other => ?_⟩, ?_, ?_, ?_⟩
    · exact Function.update_of_ne other ..
    · intro th here
      obtain rfl := self th here
      rfl
    · intro th here some
      exact absurd rfl some
    · intro th here
      obtain rfl := self th here
      exact met
  | next _ lonely stepped ih => exact ih.step lonely stepped

/-- The action may happen to a thread that is alone, if exceptions strike by what it has seen. -/
def lonely (t : Tid) (mayStrike : List (Ev W S R ε) → Bool) (w : World Db W Lock Call S R ε α) :
    Action Inp Call ε → Bool
  | .run u _ => u = t
  | .fault u _ => decide (u = t) && (w.threads t).any fun th => mayStrike th.trace
  | .kill u => u = t
  | .spawn _ _ | .lost _ _ => false

omit [DecidableEq Lock] in
theorem lonely_of_check {mayStrike : List (Ev W S R ε) → Bool} {action : Action Inp Call ε}
    (checked : lonely t mayStrike w action = true) :
    Lonely t (fun trace _ => mayStrike trace = true) w action := by
  cases action with
  | run u input =>
    simp only [lonely, decide_eq_true_eq] at checked
    exact checked
  | fault u e =>
    simp only [lonely, Bool.and_eq_true, decide_eq_true_eq, Option.any_eq_true] at checked
    exact checked
  | kill u =>
    simp only [lonely, decide_eq_true_eq] at checked
    exact checked
  | spawn u call => cases checked
  | lost u e => cases checked

/-- Run a schedule of a thread that is alone. -/
def runLonely (σ : System Db W Lock Inp Call S R ε α) (t : Tid) (mayStrike : List (Ev W S R ε) → Bool)
    (w : World Db W Lock Call S R ε α) : List (Action Inp Call ε) → Option (World Db W Lock Call S R ε α)
  | [] => some w
  | action :: rest =>
    if lonely t mayStrike w action then
      (step σ w action).bind fun w' => runLonely σ t mayStrike w' rest
    else none

theorem reach_of_lonely {mayStrike : List (Ev W S R ε) → Bool} {actions : List (Action Inp Call ε)}
    (ran : runLonely σ t mayStrike w actions = some w') :
    Reach σ (Lonely t fun trace _ => mayStrike trace = true) w w' := by
  induction actions generalizing w with
  | nil =>
    cases ran
    exact .start
  | cons action rest ih =>
    simp only [runLonely, Option.ite_none_right_eq_some, Option.bind_eq_some_iff] at ran
    obtain ⟨checked, middle, stepped, ran⟩ := ran
    exact (Reach.start.next (lonely_of_check checked) stepped).trans (ih ran)

end Runs

end Txn
