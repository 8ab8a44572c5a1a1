import Mathlib.Data.List.Forall2
import WebhookReceiver.Txn.Recovery
import WebhookReceiver.Txn.Surroundings

/-!
Two calls in the same surroundings, step by step.

A `Bond` says what the stores of the two runs have in common and which writes keep that.
`Pairs` is the condition of two programs side by side: each statement of one meets a
statement of the other, and they go on with whatever the two answers are, until their
traces are apart for good, if ever. What is `apart` is up to the reader of the traces. `Linked.attend`
carries the condition over any list of happenings that both calls meet.
-/

namespace Txn

variable {Db W Lock Inp Call S : Type} {R : S → Type} {ε α β γ : Type}
  {σ : System Db W Lock Inp Call S R ε α}

/-! ## What two runs share -/

/-- What the stores of two runs have in common, and the pairs of writes that keep it. -/
structure Bond (σ : System Db W Lock Inp Call S R ε α) where
  store : Db → Db → Prop
  write : W → W → Prop
  kept : ∀ {db db' write' write''}, store db db' → write write' write'' →
    store (σ.apply write' db) (σ.apply write'' db')
  shared : ∀ {db db'} (written : W), store db db' → store (σ.apply written db) (σ.apply written db')

/-- What two runs have met so far: which of their steps were struck, and what each saw. -/
structure Past (W S : Type) (R : S → Type) (ε : Type) where
  steps : List Bool
  one : List (Ev W S R ε)
  other : List (Ev W S R ε)

def Past.add (past : Past W S R ε) (struck : Bool) (ev ev' : Ev W S R ε) : Past W S R ε :=
  ⟨past.steps ++ [struck], past.one ++ [ev], past.other ++ [ev']⟩

/-- One of the two fails. -/
def Split {ρ ρ' : Type} : Except ε ρ → Except ε ρ' → Prop
  | .ok _, .error _ => True
  | .error _, .ok _ => True
  | _, _ => False

theorem not_split_rfl {ρ : Type} (answer : Except ε ρ) : ¬ Split answer answer := by
  cases answer <;> exact id

/-- The writes of the commits that took effect. -/
def commits (trace : List (Ev W S R ε)) : List (List W) :=
  trace.filterMap fun
    | .committed writes => some writes
    | _ => none

theorem commits_append (trace more : List (Ev W S R ε)) :
    commits (trace ++ more) = commits trace ++ commits more :=
  List.filterMap_append ..

namespace Bond

variable (bond : Bond σ)

theorem keptAll {db db' : Db} {writes writes' : List W} (stores : bond.store db db')
    (alike : List.Forall₂ bond.write writes writes') :
    bond.store (σ.applyAll writes db) (σ.applyAll writes' db') := by
  induction alike generalizing db db' with
  | nil => exact stores
  | cons first _ ih => exact ih (bond.kept stores first)

theorem sharedAll {db db' : Db} (writes : List W) (stores : bond.store db db') :
    bond.store (σ.applyAll writes db) (σ.applyAll writes db') := by
  induction writes generalizing db db' with
  | nil => exact stores
  | cons write rest ih => exact ih (bond.shared write stores)

/-- Run at the same time on stores with the bond, the two statements have answers that
stand in a relation, and make pairs of writes unless only one of them fails. -/
def Answers (s s' : S) (A : Except ε (R s) → Except ε (R s') → Prop) : Prop :=
  ∀ avail input view view' reply reply', bond.store view view' →
    σ.exec avail input view s = some reply → σ.exec avail input view' s' = some reply' →
    A reply.answer reply'.answer ∧ (¬ Split reply.answer reply'.answer →
      List.Forall₂ bond.write reply.writes reply'.writes ∧ ∀ db db', bond.store db db' →
        bond.store (σ.applyAll reply.instant db) (σ.applyAll reply'.instant db'))

theorem Answers.mono {bond : Bond σ} {s s' : S} {A A' : Except ε (R s) → Except ε (R s') → Prop}
    (weaker : ∀ a a', A a a' → A' a a') (answers : bond.Answers s s' A) : bond.Answers s s' A' := by
  intro avail input view view' reply reply' stores ran ran'
  obtain ⟨answered, written⟩ := answers avail input view view' reply reply' stores ran ran'
  exact ⟨weaker _ _ answered, written⟩

/-! ## Programs side by side -/

variable (apart : List (Ev W S R ε) → List (Ev W S R ε) → Prop)

/-- On every path of two programs that meet the same: they go in step until their traces
are apart, and the ends meet `Q`. -/
inductive Pairs (Q : Except ε β → Except ε β → Past W S R ε → Prop) :
    Prog S R ε β → Prog S R ε β → Past W S R ε → Prop where
  | apart {prog prog' : Prog S R ε β} {past : Past W S R ε} (far : apart past.one past.other) :
      Pairs Q prog prog' past
  | done {r r' : Except ε β} {past : Past W S R ε} (met : Q r r' past) : Pairs Q (.done r) (.done r') past
  | stmt {s s' : S} {next : Except ε (R s) → Prog S R ε β} {next' : Except ε (R s') → Prog S R ε β}
      {past : Past W S R ε} (A : Except ε (R s) → Except ε (R s') → Prop) (answers : bond.Answers s s' A)
      (parts : ∀ a a', A a a' → Split a a' → apart (past.one ++ [.stmt s a]) (past.other ++ [.stmt s' a']))
      (struck : ∀ e, Pairs Q (next (.error e)) (next' (.error e))
        (past.add true (.stmt s (.error e)) (.stmt s' (.error e))))
      (answered : ∀ a a', A a a' → Pairs Q (next a) (next' a') (past.add false (.stmt s a) (.stmt s' a'))) :
      Pairs Q (.stmt s next) (.stmt s' next') past
  | commit {next next' : Except ε Unit → Prog S R ε β} {past : Past W S R ε}
      (committed : ∀ writes writes', Pairs Q (next (.ok ())) (next' (.ok ()))
        (past.add false (.committed writes) (.committed writes')))
      (lost : ∀ e writes writes', Pairs Q (next (.error e)) (next' (.error e))
        (past.add true (.committed writes) (.committed writes')))
      (failed : ∀ e, Pairs Q (next (.error e)) (next' (.error e)) (past.add true .rolledBack .rolledBack)) :
      Pairs Q (.commit next) (.commit next') past
  | rollback {next next' : Except ε Unit → Prog S R ε β} {past : Past W S R ε}
      (ended : Pairs Q (next (.ok ())) (next' (.ok ())) (past.add false .rolledBack .rolledBack))
      (failed : ∀ e, Pairs Q (next (.error e)) (next' (.error e)) (past.add true .rolledBack .rolledBack)) :
      Pairs Q (.rollback next) (.rollback next') past

variable {bond apart} {past : Past W S R ε}

section Rules

variable {Q Q' : Except ε β → Except ε β → Past W S R ε → Prop} {prog prog' : Prog S R ε β}

theorem pairs_andThen {Q : Except ε γ → Except ε γ → Past W S R ε → Prop}
    {next next' : Except ε β → Prog S R ε γ}
    (met : bond.Pairs apart (fun r r' past => bond.Pairs apart Q (next r) (next' r') past) prog prog' past) :
    bond.Pairs apart Q (prog.andThen next) (prog'.andThen next') past := by
  induction met with
  | apart far => exact .apart far
  | done met => exact met
  | stmt A answers parts _ _ struck answered => exact .stmt A answers parts struck answered
  | commit _ _ _ committed lost failed => exact .commit committed lost failed
  | rollback _ _ ended failed => exact .rollback ended failed

theorem pairs_mono (weaker : ∀ r r' past, Q r r' past → Q' r r' past)
    (met : bond.Pairs apart Q prog prog' past) : bond.Pairs apart Q' prog prog' past := by
  induction met with
  | apart far => exact .apart far
  | done met => exact .done (weaker _ _ _ met)
  | stmt A answers parts _ _ struck answered => exact .stmt A answers parts struck answered
  | commit _ _ _ committed lost failed => exact .commit committed lost failed
  | rollback _ _ ended failed => exact .rollback ended failed

end Rules

/-- Both ends are values that meet `P`, or both are exceptions that meet `X`. -/
def Meets (X : ε → ε → Past W S R ε → Prop) (P : β → β → Past W S R ε → Prop) :
    Except ε β → Except ε β → Past W S R ε → Prop
  | .ok value, .ok value', past => P value value' past
  | .error e, .error e', past => X e e' past
  | _, _, _ => False

section Meets

variable {X : ε → ε → Past W S R ε → Prop}

theorem pairs_bind {P : γ → γ → Past W S R ε → Prop} {Q : β → β → Past W S R ε → Prop}
    {first first' : Prog S R ε γ} {next next' : γ → Prog S R ε β}
    (met : bond.Pairs apart (Meets X P) first first' past)
    (rest : ∀ value value' past, P value value' past →
      bond.Pairs apart (Meets X Q) (next value) (next' value') past) :
    bond.Pairs apart (Meets X Q) (first >>= next) (first' >>= next') past := by
  refine pairs_andThen (pairs_mono (fun r r' past left => ?_) met)
  cases r with
  | ok value =>
    cases r' with
    | ok value' => exact rest value value' past left
    | error e' => exact left.elim
  | error e =>
    cases r' with
    | ok value' => exact left.elim
    | error e' => exact .done left

/-- The same piece of a transaction on both sides, when its statements cannot tell the two
stores apart: it ends the same, and keeps what its steps keep. -/
theorem pairs_same {P : S → Prop} {I : Past W S R ε → Prop} {prog : Prog S R ε β}
    (throws : prog.Throws fun _ => True) (only : prog.Only P)
    (blind : ∀ s, P s → bond.Answers s s Eq)
    (goes : ∀ past b s answer, P s → I past → I (past.add b (.stmt s (.ok answer)) (.stmt s (.ok answer))))
    (raised : ∀ past b s e e', P s → I past → X e' e' (past.add b (.stmt s (.error e)) (.stmt s (.error e))))
    (thrown : ∀ past e, I past → X e e past) (begun : I past) :
    bond.Pairs apart (Meets X fun value value' past => value = value' ∧ I past) prog prog past := by
  induction prog generalizing past with
  | done r =>
    cases r with
    | ok value => exact .done ⟨rfl, begun⟩
    | error e => exact .done (thrown past e begun)
  | stmt s rest ih =>
    have fails : ∀ b e, bond.Pairs apart (Meets X fun value value' past => value = value' ∧ I past)
        (rest (.error e)) (rest (.error e)) (past.add b (.stmt s (.error e)) (.stmt s (.error e))) := by
      intro b e
      obtain ⟨e', ends, -⟩ := throws.1 e trivial
      rw [ends]
      exact .done (raised past b s e e' only.1 begun)
    refine .stmt Eq (blind s only.1) ?_ (fails true) ?_
    · rintro answer _ rfl split
      exact absurd split (not_split_rfl answer)
    rintro answer _ rfl
    cases answer with
    | ok answer => exact ih _ (throws.2 _) (only.2 _) (goes past false s answer only.1 begun)
    | error e => exact fails false e
  | commit rest ih => exact throws.elim
  | rollback rest ih => exact throws.elim

end Meets

/-! ## Runs -/

section Runs

variable {Q : Except ε β → Except ε β → Past W S R ε → Prop} {l l' m m' : Local Db W S R ε β}
  {steps : List Bool}

variable (bond apart Q) in
/-- Two calls that have met the same so far: their traces are apart, or they are in step. -/
def Linked (l l' : Local Db W S R ε β) (steps : List Bool) : Prop :=
  apart l.trace l'.trace ∨
    bond.store l.db l'.db ∧ List.Forall₂ bond.write l.writes l'.writes ∧
      List.Forall₂ (List.Forall₂ bond.write) (commits l.trace) (commits l'.trace) ∧
      bond.Pairs apart Q l.prog l'.prog ⟨steps, l.trace, l'.trace⟩

/-- Calls that are linked stay so, whatever both meet. -/
theorem Linked.meet (grows : ∀ t t' more more', apart t t' → apart (t ++ more) (t' ++ more'))
    {happening : Happening W Lock Inp ε} (linked : bond.Linked apart Q l l' steps)
    (met : σ.meet l happening = some m) (met' : σ.meet l' happening = some m') :
    bond.Linked apart Q m m' (steps ++ happening.struck?.toList) := by
  obtain ⟨db, prog, writes, trace⟩ := l
  obtain ⟨db', prog', writes', trace'⟩ := l'
  have farther : apart trace trace' → apart m.trace m'.trace := by
    intro far
    obtain ⟨more, longer⟩ := meet_trace met
    obtain ⟨more', longer'⟩ := meet_trace met'
    exact longer ▸ longer' ▸ grows _ _ more more' far
  rcases linked with far | ⟨stores, written, committed, side⟩
  · exact Or.inl (farther far)
  have ended : bond.store (σ.applyAll writes db) (σ.applyAll writes' db') := bond.keptAll stores written
  have more : List.Forall₂ (List.Forall₂ bond.write) (commits (trace ++ [Ev.committed writes]))
      (commits (trace' ++ [Ev.committed writes'])) := by
    rw [commits_append, commits_append]
    exact List.rel_append committed (.cons written .nil)
  have same : ∀ ev ev' : Ev W S R ε, commits [ev] = [] → commits [ev'] = [] →
      List.Forall₂ (List.Forall₂ bond.write) (commits (trace ++ [ev])) (commits (trace' ++ [ev'])) := by
    intro ev ev' none none'
    rw [commits_append, commits_append, none, none', List.append_nil, List.append_nil]
    exact committed
  cases happening with
  | others writes =>
    cases met
    cases met'
    refine Or.inr ⟨bond.sharedAll writes stores, written, committed, ?_⟩
    simpa [Happening.struck?] using side
  | run avail input =>
    cases side with
    | apart far => exact Or.inl (farther far)
    | done => cases met
    | stmt A answers parts struck answered =>
      obtain ⟨reply, ran, rfl⟩ := Option.map_eq_some_iff.mp met
      obtain ⟨reply', ran', rfl⟩ := Option.map_eq_some_iff.mp met'
      obtain ⟨told, wrote⟩ := answers avail input _ _ reply reply' ended ran ran'
      by_cases split : Split reply.answer reply'.answer
      · exact Or.inl (parts _ _ told split)
      · obtain ⟨wrote, instant⟩ := wrote split
        exact Or.inr ⟨instant _ _ stores, List.rel_append written wrote, same _ _ rfl rfl,
          answered _ _ told⟩
    | commit done =>
      cases met
      cases met'
      exact Or.inr ⟨ended, .nil, more, done _ _⟩
    | rollback done =>
      cases met
      cases met'
      exact Or.inr ⟨stores, .nil, same _ _ rfl rfl, done⟩
  | fault e =>
    cases side with
    | apart far => exact Or.inl (farther far)
    | done => cases met
    | stmt A answers parts struck =>
      cases met
      cases met'
      exact Or.inr ⟨stores, written, same _ _ rfl rfl, struck e⟩
    | commit done lost failed =>
      cases met
      cases met'
      exact Or.inr ⟨stores, .nil, same _ _ rfl rfl, failed e⟩
    | rollback done failed =>
      cases met
      cases met'
      exact Or.inr ⟨stores, .nil, same _ _ rfl rfl, failed e⟩
  | lost e =>
    cases side with
    | apart far => exact Or.inl (farther far)
    | commit done lost =>
      cases met
      cases met'
      exact Or.inr ⟨ended, .nil, more, lost e _ _⟩
    | done => cases met
    | stmt => cases met
    | rollback => cases met

theorem Linked.attend (grows : ∀ t t' more more', apart t t' → apart (t ++ more) (t' ++ more'))
    {happenings : List (Happening W Lock Inp ε)} (linked : bond.Linked apart Q l l' steps)
    (met : σ.attend l happenings = some m) (met' : σ.attend l' happenings = some m') :
    bond.Linked apart Q m m' (steps ++ strikes happenings) := by
  induction happenings generalizing l l' steps with
  | nil =>
    cases met
    cases met'
    simpa [strikes] using linked
  | cons happening rest ih =>
    obtain ⟨middle, first, others⟩ := Option.bind_eq_some_iff.mp met
    obtain ⟨middle', first', others'⟩ := Option.bind_eq_some_iff.mp met'
    have later := ih (linked.meet grows first first') others others'
    have step : strikes (happening :: rest) = happening.struck?.toList ++ strikes rest := by
      cases happening <;> rfl
    rw [step, ← List.append_assoc]
    exact later

/-- One of two programs in step has come to an end, and so has the other. -/
theorem pairs_ended {prog prog' : Prog S R ε β} {past : Past W S R ε}
    (side : bond.Pairs apart Q prog prog' past)
    (ended : prog.isDone = true ∨ prog'.isDone = true) :
    apart past.one past.other ∨ ∃ r r', prog = .done r ∧ prog' = .done r' ∧ Q r r' past := by
  cases side with
  | apart far => exact Or.inl far
  | done met => exact Or.inr ⟨_, _, rfl, rfl, met⟩
  | stmt => rcases ended with ended | ended <;> cases ended
  | commit => rcases ended with ended | ended <;> cases ended
  | rollback => rcases ended with ended | ended <;> cases ended

/-- Two calls that both come to an end in the same surroundings come to it together, unless
they are apart. -/
theorem Linked.ends (grows : ∀ t t' more more', apart t t' → apart (t ++ more) (t' ++ more'))
    (linked : bond.Linked apart Q l l' steps) {before after before' after' : List (Happening W Lock Inp ε)}
    (same : before ++ after = before' ++ after') {r r' : Except ε β} (met : σ.attend l before = some m)
    (ended : m.prog = .done r) (met' : σ.attend l' before' = some m') (ended' : m'.prog = .done r') :
    ∃ both rest k k', both ++ rest = before ++ after ∧ σ.attend l both = some k ∧ σ.attend l' both = some k' ∧
      (apart k.trace k'.trace ∨
        k.prog = .done r ∧ k'.prog = .done r' ∧ bond.store k.db k'.db ∧
          List.Forall₂ bond.write k.writes k'.writes ∧
          List.Forall₂ (List.Forall₂ bond.write) (commits k.trace) (commits k'.trace) ∧
          Q r r' ⟨steps ++ strikes both, k.trace, k'.trace⟩) := by
  rcases List.append_eq_append_iff.mp same with ⟨more, rfl, rfl⟩ | ⟨more, rfl, rfl⟩
  · obtain ⟨k', middle, later⟩ := attend_split met'
    refine ⟨before, more ++ after', m, k', rfl, met, middle, ?_⟩
    rcases linked.attend grows met middle with far | ⟨stores, writes, committed, side⟩
    · exact Or.inl far
    · rcases pairs_ended side (Or.inl (by rw [ended]; rfl)) with far | ⟨x, x', there, there', close⟩
      · exact Or.inl far
      · obtain rfl : r = x := Prog.done.inj (ended.symm.trans there)
        obtain rfl : r' = x' := Prog.done.inj (ended'.symm.trans (attend_done there' later))
        exact Or.inr ⟨there, there', stores, writes, committed, close⟩
  · obtain ⟨k, middle, later⟩ := attend_split met
    refine ⟨before', more ++ after, k, m', (List.append_assoc ..).symm, middle, met', ?_⟩
    rcases linked.attend grows middle met' with far | ⟨stores, writes, committed, side⟩
    · exact Or.inl far
    · rcases pairs_ended side (Or.inr (by rw [ended']; rfl)) with far | ⟨x, x', there, there', close⟩
      · exact Or.inl far
      · obtain rfl : r = x := Prog.done.inj (ended.symm.trans (attend_done there later))
        obtain rfl : r' = x' := Prog.done.inj (ended'.symm.trans there')
        exact Or.inr ⟨there, there', stores, writes, committed, close⟩

/-- Two calls at their start. -/
theorem linked_start {db db' : Db} {prog prog' : Prog S R ε β} (stores : bond.store db db')
    (side : bond.Pairs apart Q prog prog' ⟨[], [], []⟩) :
    bond.Linked apart Q (.start db prog) (.start db' prog') [] :=
  Or.inr ⟨stores, .nil, .nil, side⟩

end Runs

end Bond

end Txn
