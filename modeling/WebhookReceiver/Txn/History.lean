import WebhookReceiver.Txn.Logic

/-!
What a history says about states and about transactions.

`History.invariant` carries a property through a whole history, `History.since` from
a transaction on: "once this has committed, from then on". `History.split` looks at one
transaction, with the history before it and the history after it.
-/

namespace Txn

namespace Discipline

variable {Db W Lock Inp Call S Fact : Type} {R : S → Type} {ε α : Type}
  {σ : System Db W Lock Inp Call S R ε α} {D : Discipline σ Fact}
  {start last : Db} {log : List (Entry Db W Call S R ε)}

/-- What holds at the start and survives every step holds at the end. -/
theorem History.invariant {P : Db → Prop} (past : D.History start last log) (begin : P start)
    (instant : ∀ {db write}, D.wf db → D.licensed [] db write → P db → P (σ.apply write db))
    (commit : ∀ entry ∈ log, D.wf entry.before → D.calls entry.call →
      D.commits entry.call entry.trace entry.before entry.writes → P entry.before →
      P (σ.applyAll entry.writes entry.before)) : P last := by
  induction past with
  | start => exact begin
  | instant _ good licence ih => exact instant good licence (ih commit)
  | commit entry _ good licence called described ih =>
    have earlier := ih fun other member => commit other (List.mem_append_left _ member)
    exact commit entry (by simp) good called described earlier

/-- The same with the transactions committed so far in view. -/
theorem History.along {P : List (Entry Db W Call S R ε) → Db → Prop}
    (past : D.History start last log) (begin : P [] start)
    (instant : ∀ {log db write}, D.wf db → D.licensed [] db write → P log db → P log (σ.apply write db))
    (commit : ∀ (log : List (Entry Db W Call S R ε)) (entry : Entry Db W Call S R ε),
      D.wf entry.before → D.wf (σ.applyAll entry.writes entry.before) → D.calls entry.call →
      D.commits entry.call entry.trace entry.before entry.writes → P log entry.before →
      P (log ++ [entry]) (σ.applyAll entry.writes entry.before)) : P log last := by
  induction past with
  | start => exact begin
  | instant _ good licence ih => exact instant good licence ih
  | commit entry _ good licence called described ih =>
    exact commit _ entry good (wf_applyAll good licence) called described ih

theorem History.wf (past : D.History start last log) (good : D.wf start) : D.wf last := by
  induction past with
  | start => exact good
  | instant _ good licence _ => exact D.wf_apply good licence
  | commit entry _ good licence _ _ _ => exact wf_applyAll good licence

/-- A transaction in its place: the store it committed on, what came before and
what comes after. -/
theorem History.split {before after : List (Entry Db W Call S R ε)} {entry : Entry Db W Call S R ε}
    (past : D.History start last (before ++ entry :: after)) :
    D.History start entry.before before ∧ D.wf entry.before ∧ D.calls entry.call ∧
      D.commits entry.call entry.trace entry.before entry.writes ∧
      D.History (σ.applyAll entry.writes entry.before) last after := by
  generalize same : before ++ entry :: after = log at past
  induction past generalizing after with
  | start => simp at same
  | instant _ good licence ih =>
    obtain ⟨earlier, wf, called, described, later⟩ := ih same
    exact ⟨earlier, wf, called, described, later.instant good licence⟩
  | @commit log newest locks past good licence called described ih =>
    rcases List.eq_nil_or_concat after with rfl | ⟨rest, final, rfl⟩
    · obtain ⟨rfl, one⟩ := List.append_inj' same rfl
      cases one
      exact ⟨past, good, called, described, .start⟩
    · have moved : before ++ entry :: rest ++ [final] = log ++ [newest] := by
        rw [← same]
        simp
      obtain ⟨shorter, one⟩ := List.append_inj' moved rfl
      cases one
      obtain ⟨earlier, wf, called', described', later⟩ := ih shorter
      refine ⟨earlier, wf, called', described', ?_⟩
      simpa using later.commit newest good licence called described

/-- Every transaction of a history has such a place. -/
theorem History.at (past : D.History start last log) {entry : Entry Db W Call S R ε}
    (member : entry ∈ log) :
    ∃ before after, log = before ++ entry :: after ∧ D.History start entry.before before ∧
      D.wf entry.before ∧ D.calls entry.call ∧
      D.commits entry.call entry.trace entry.before entry.writes ∧
      D.History (σ.applyAll entry.writes entry.before) last after := by
  obtain ⟨before, after, rfl⟩ := List.append_of_mem member
  exact ⟨before, after, rfl, past.split⟩

/-- What a transaction brings about and every later step keeps, every later
transaction finds. -/
theorem History.since {P : Db → Prop} {begins : Entry Db W Call S R ε → Prop}
    (past : D.History start last log)
    (begun : ∀ entry ∈ log, D.wf entry.before → D.calls entry.call →
      D.commits entry.call entry.trace entry.before entry.writes → begins entry →
      P (σ.applyAll entry.writes entry.before))
    (instant : ∀ {db write}, D.wf db → D.licensed [] db write → P db → P (σ.apply write db))
    (commit : ∀ entry ∈ log, D.wf entry.before → D.calls entry.call →
      D.commits entry.call entry.trace entry.before entry.writes → P entry.before →
      P (σ.applyAll entry.writes entry.before)) :
    (log.Pairwise fun earlier later => begins earlier → P later.before) ∧
      ((∃ entry ∈ log, begins entry) → P last) := by
  induction past with
  | start => simp
  | instant _ good licence ih =>
    obtain ⟨between, upToNow⟩ := ih begun commit
    exact ⟨between, fun some => instant good licence (upToNow some)⟩
  | @commit log newest locks _ good licence called described ih =>
    obtain ⟨between, upToNow⟩ := ih (fun other member => begun other (List.mem_append_left _ member))
      (fun other member => commit other (List.mem_append_left _ member))
    have last : newest ∈ log ++ [newest] := by simp
    constructor
    · rw [List.pairwise_append]
      refine ⟨between, List.pairwise_singleton _ _, fun earlier member other here start => ?_⟩
      rw [List.mem_singleton.mp here]
      exact upToNow ⟨earlier, member, start⟩
    · rintro ⟨entry, member, start⟩
      rcases List.mem_append.mp member with old | new
      · exact commit newest last good called described (upToNow ⟨entry, old, start⟩)
      · rw [List.mem_singleton.mp new] at start
        exact begun newest last good called described start

end Discipline

/-! ## What a thread has seen of its own commits -/

section Logged

variable {Db W Lock Inp Call S : Type} {R : S → Type} {ε α : Type}
  {σ : System Db W Lock Inp Call S R ε α} {w w' : World Db W Lock Call S R ε α}

/-- Every commit in a thread's trace is in the log, with the trace up to it. -/
def World.Logged (w : World Db W Lock Call S R ε α) : Prop :=
  ∀ t th before writes after, w.threads t = some th → th.trace = before ++ .committed writes :: after →
    ∃ entry ∈ w.log, entry.tid = t ∧ entry.call = th.call ∧ entry.trace = before ∧ entry.writes = writes

/-- A thread sees one thing more. If that is a commit, it is in the log. -/
theorem World.Logged.moved (logged : w.Logged) {t : Tid} {th th' : Thread W Call S R ε α}
    {ev : Ev W S R ε} (here : w.threads t = some th)
    (updated : w'.threads = Function.update w.threads t (some th')) (same : th'.call = th.call)
    (seen : th'.trace = th.trace ++ [ev]) (kept : w.log ⊆ w'.log)
    (new : ∀ writes, ev = .committed writes →
      ∃ entry ∈ w'.log, entry.tid = t ∧ entry.call = th.call ∧ entry.trace = th.trace ∧
        entry.writes = writes) :
    w'.Logged := by
  intro u other before writes after there split
  rw [updated] at there
  by_cases own : u = t
  · subst own
    rw [Function.update_self, Option.some.injEq] at there
    subst there
    rw [seen] at split
    rcases List.eq_nil_or_concat after with rfl | ⟨rest, last, rfl⟩
    · obtain ⟨rfl, one⟩ := List.append_inj' split rfl
      rw [same]
      exact new writes (List.cons.inj one).1
    · have shorter : th.trace ++ [ev] = (before ++ .committed writes :: rest) ++ [last] := by
        rw [split]
        simp
      obtain ⟨earlier, -⟩ := List.append_inj' shorter rfl
      obtain ⟨entry, member, fits⟩ := logged u th before writes rest here earlier
      exact ⟨entry, kept member, same ▸ fits⟩
  · rw [Function.update_of_ne own] at there
    obtain ⟨entry, member, fits⟩ := logged u other before writes after there split
    exact ⟨entry, kept member, fits⟩

theorem World.Logged.step [DecidableEq Lock] (logged : w.Logged) {action : Action Inp Call ε}
    (stepped : step σ w action = some w') : w'.Logged := by
  have replaced : ∀ {t thread}, (∀ th, thread = some th → th.trace = []) →
      w'.threads = Function.update w.threads t thread → w'.log = w.log → w'.Logged := by
    intro t thread blank updated same u other before writes after there split
    rw [updated] at there
    rw [same]
    by_cases own : u = t
    · subst own
      rw [Function.update_self] at there
      simp [blank other there] at split
    · rw [Function.update_of_ne own] at there
      exact logged u other before writes after there split
  cases step_cases stepped with
  | spawned => exact replaced (by rintro _ ⟨⟩; rfl) rfl rfl
  | answered here shape ran free =>
    exact logged.moved here rfl rfl rfl (List.Subset.refl _) (by simp)
  | refused here shape => exact logged.moved here rfl rfl rfl (List.Subset.refl _) (by simp)
  | concluded here shape how =>
    refine logged.moved here rfl rfl rfl (List.subset_append_left ..) fun writes same => ?_
    cases same
    exact ⟨_, List.mem_append_right _ List.mem_cons_self, rfl, rfl, rfl, rfl⟩
  | rolledBack here shape how => exact logged.moved here rfl rfl rfl (List.Subset.refl _) (by simp)
  | uncommitted here shape => exact logged.moved here rfl rfl rfl (List.Subset.refl _) (by simp)
  | killed => exact replaced (by simp) rfl rfl

theorem Reach.logged [DecidableEq Lock] {allow : World Db W Lock Call S R ε α → Action Inp Call ε → Prop}
    {db : Db} (reached : Reach σ allow (.init db) w) : w.Logged := by
  induction reached with
  | start =>
    intro t th before writes after there
    cases there
  | next _ _ stepped ih => exact ih.step stepped

end Logged

end Txn
