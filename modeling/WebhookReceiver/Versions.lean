import Mathlib.Order.Bounds.Basic
import WebhookReceiver.Register
import WebhookReceiver.Serializability

/-!
The version of an account is the highest sequence it has seen.

Two paths write it: a credit takes the maximum, a snapshot assigns its own sequence
after it has found it to be higher. On the books both say the same (`Marked`): the
version is the maximum of 0 and the sequences of the events that have posted to the
account. A snapshot that is applied is therefore newer than all that were applied
before, and one that is superseded is not newer than the version.
-/

namespace WebhookReceiver

/-! ## Postings and the events behind them -/

/-- Every posting is to the account that its event is about. -/
def Placed (db : Db) : Prop :=
  ∀ id event externalRef amount, db.event? id = some event →
    db.books.posted id = some (externalRef, amount) → externalRef = event.entityId

/-- The sequences of the events that have posted to an account. -/
def Db.sequences (db : Db) (externalRef : String) : Set Int :=
  {sequence | ∃ id event amount, db.books.posted id = some (externalRef, amount) ∧
    db.event? id = some event ∧ event.providerSequence = some sequence}

/-- Every version is the maximum of 0 and the sequences of what was posted. -/
def Marked (db : Db) : Prop :=
  ∀ externalRef, IsGreatest (insert 0 (db.sequences externalRef)) (db.books.state externalRef).version

/-! ## An account is a register -/

/-- The effect sets a balance. -/
def Effect.isSnapshot : Effect → Bool
  | .credit _ => false
  | .setBalance _ => true

/-- What an effect does to the register of its account. -/
def Effect.op (sequence : Option Int) : Effect → Register.Op Int Int
  | .credit effect => .add effect.amountMinor (sequence.getD 0)
  | .setBalance effect => .set effect.balanceMinor effect.sequence

def AccountState.register (state : AccountState) : Register.State Int Int :=
  ⟨state.balanceMinor, state.version⟩

section Process

variable {books : Books} {id : Nat} {sequence : Option Int} {effect : Effect}

theorem Books.state_opened {name externalRef : String} :
    (books.opened name).state externalRef = books.state externalRef := by
  by_cases same : externalRef = name
  · subst same
    simp [Books.state, Books.opened]
  · simp [Books.state, Books.opened, Function.update_of_ne same]

theorem Books.state_post {name externalRef : String} {amount : Int} {state : AccountState} :
    (books.post id name amount state).state externalRef =
      if name = externalRef then state else books.state externalRef := by
  by_cases same : externalRef = name
  · subst same
    simp [Books.state, Books.post]
  · simp [Books.state, Books.post, Function.update_of_ne same, Ne.symm same]

/-- A pass leaves balances, versions and postings alone, or it posts for an event that
had not posted yet. To the register of the account an event that had not posted is one
operation. -/
theorem Books.process_cases (books : Books) (id : Nat) (sequence : Option Int) (effect : Effect) :
    ((books.process id sequence effect).2.posted = books.posted ∧
        (∀ externalRef, (books.process id sequence effect).2.state externalRef = books.state externalRef) ∧
        (books.posted id = none → Register.step (books.state effect.accountRef).register
          (effect.op sequence) = (books.state effect.accountRef).register)) ∨
      books.posted id = none ∧ ∃ amount state,
        (books.process id sequence effect).2 = books.post id effect.accountRef amount state ∧
        state.register =
          Register.step (books.state effect.accountRef).register (effect.op sequence) := by
  cases effect with
  | credit effect =>
    simp only [Books.process]
    split
    · rename_i again
      refine Or.inl ⟨rfl, fun _ => Books.state_opened, fun first => ?_⟩
      rw [first] at again
      cases again
    · rename_i first
      exact Or.inr ⟨by simpa using first, _, _, rfl, rfl⟩
  | setBalance effect =>
    simp only [Books.process]
    split
    · rename_i stale
      exact Or.inl ⟨rfl, fun _ => Books.state_opened, fun _ => if_pos stale⟩
    · rename_i newer
      split
      · rename_i again
        refine Or.inl ⟨rfl, fun _ => Books.state_opened, fun first => ?_⟩
        rw [first] at again
        cases again
      · rename_i first
        exact Or.inr ⟨by simpa using first, _, _, rfl, (if_neg newer).symm⟩

end Process

/-! ## Step by step -/

section Steps

variable {svc : Service} {scope : Scope} {call : Call} {trace : Trace} {db : Db} {writes : List Write}

/-- A stored event was stored before, as it was delivered, or it is new. -/
theorem Committed.origin {id : Nat} {event : EventRow}
    (committed : Committed svc scope call trace db writes)
    (after : (db.after writes).event? id = some event) :
    (∃ before, db.event? id = some before ∧ event.toIncomingEvent = before.toIncomingEvent) ∨
      db.event? id = none := by
  cases committed.eventStep after with
  | same before spared => exact Or.inl ⟨event, before, rfl⟩
  | dealt found kept pending status count recorded => exact Or.inl ⟨_, found, kept⟩
  | failed found kept status count recorded => exact Or.inl ⟨_, found, kept⟩
  | requeued found kept replay status spared => exact Or.inl ⟨_, found, kept⟩
  | stored absent unused status count spared delivered => exact Or.inr absent

/-- What has posted is an event. -/
theorem posted_event {id : Nat} (good : Wf db) (posted : (db.books.posted id).isSome = true) :
    ∃ event, db.event? id = some event := by
  obtain ⟨entry, member, rfl⟩ := (books_posted good).mp posted
  obtain ⟨event, known, same⟩ := good.ledgerEvent entry member
  exact ⟨event, same ▸ event?_of_mem good known⟩

/-- What has posted was delivered, before the transaction and after it. -/
theorem Committed.posted_event {id : Nat} (good : Wf db) (still : Wf (db.after writes))
    (committed : Committed svc scope call trace db writes) (posted : (db.books.posted id).isSome = true)
    (kept : (db.after writes).books.posted id = db.books.posted id) :
    ∃ before after, db.event? id = some before ∧ (db.after writes).event? id = some after ∧
      after.toIncomingEvent = before.toIncomingEvent := by
  obtain ⟨before, found⟩ := WebhookReceiver.posted_event good posted
  obtain ⟨after, there⟩ := WebhookReceiver.posted_event still (kept ▸ posted)
  rcases committed.origin there with ⟨before', found', same⟩ | absent
  · rw [found] at found'
    cases found'
    exact ⟨before, after, found, there, same⟩
  · rw [found] at absent
    cases absent

/-- Sequences are those of the events that had posted, and of the one that posts now. -/
theorem Committed.sequences (good : Wf db) (still : Wf (db.after writes))
    (committed : Committed svc scope call trace db writes) (fresh : Option Nat)
    (kept : ∀ id, some id ≠ fresh → (db.after writes).books.posted id = db.books.posted id)
    (first : ∀ id, fresh = some id → db.books.posted id = none) (externalRef : String) :
    (db.after writes).sequences externalRef = db.sequences externalRef ∪
      {sequence | ∃ id event amount, fresh = some id ∧
        (db.after writes).books.posted id = some (externalRef, amount) ∧
        (db.after writes).event? id = some event ∧ event.providerSequence = some sequence} := by
  ext sequence
  constructor
  · rintro ⟨id, event, amount, posted, found, ordered⟩
    by_cases new : some id = fresh
    · exact Or.inr ⟨id, event, amount, new.symm, posted, found, ordered⟩
    · have same := kept id new
      obtain ⟨before, after, was, is, alike⟩ :=
        committed.posted_event good still (by rw [← same, posted]; rfl) same
      rw [found] at is
      cases is
      exact Or.inl ⟨id, before, amount, same ▸ posted, was, by rw [← alike]; exact ordered⟩
  · rintro (⟨id, event, amount, posted, found, ordered⟩ | ⟨id, event, amount, -, posted, found, ordered⟩)
    · have old : some id ≠ fresh := by
        rintro rfl
        rw [first id rfl] at posted
        cases posted
      have same := kept id old
      obtain ⟨before, after, was, is, alike⟩ :=
        committed.posted_event good still (by rw [posted]; rfl) same
      rw [found] at was
      cases was
      exact ⟨id, after, amount, same.trans posted, is, by rw [alike]; exact ordered⟩
    · exact ⟨id, event, amount, posted, found, ordered⟩

/-- The maximum with one sequence more, if there is one. -/
theorem isGreatest_insert_sequence {sequences : Set Int} {version : Int} {sequence : Option Int}
    (greatest : IsGreatest (insert 0 sequences) version) :
    IsGreatest (insert 0 (sequences ∪ {other | sequence = some other}))
      (max version (sequence.getD 0)) := by
  cases sequence with
  | none =>
    have positive : 0 ≤ version := greatest.2 (Set.mem_insert 0 _)
    simpa [max_eq_left positive] using greatest
  | some sequence =>
    have added := greatest.insert sequence
    have same : insert sequence sequences = sequences ∪ {other | some sequence = some other} := by
      ext other
      simp [eq_comm]
    rw [Set.insert_comm, max_comm, same] at added
    exact added

variable (shipped : svc.registry = Balance.registry)
include shipped

theorem Committed.marked (good : Wf db) (still : Wf (db.after writes))
    (committed : Committed svc scope call trace db writes) (marked : Marked db) :
    Marked (db.after writes) := by
  have strict : svc.registry.OwnsEntity := shipped ▸ Balance.registry_ownsEntity
  have unmoved : (db.after writes).books.posted = db.books.posted →
      (∀ externalRef, (db.after writes).books.state externalRef = db.books.state externalRef) →
      Marked (db.after writes) := by
    intro posted state externalRef
    have same := committed.sequences good still none (fun id _ => congrFun posted id)
      (fun id new => by cases new) externalRef
    rw [same, state externalRef]
    simpa using marked externalRef
  rcases committed.dealt_or_clerical with ⟨-, clerical⟩ | ⟨id, result, passing, done⟩
  · rw [books_clerical clerical] at unmoved
    exact unmoved rfl fun _ => rfl
  · obtain ⟨event, effect, found, dispatched, clean⟩ := done.books strict good
    have after : (db.after writes).books = (db.books.process id event.providerSequence effect).2 :=
      congrArg Prod.snd clean
    rcases Books.process_cases db.books id event.providerSequence effect with
      ⟨posted, state, -⟩ | ⟨first, amount, state, posts, stepped⟩
    · exact unmoved (after ▸ posted) fun externalRef => after ▸ state externalRef
    · rw [posts] at after
      have others : ∀ other, some other ≠ some id →
          (db.after writes).books.posted other = db.books.posted other := by
        intro other differ
        rw [after]
        exact Function.update_of_ne (fun same => differ (congrArg some same)) _ _
      have posted : (db.after writes).books.posted id = some (effect.accountRef, amount) := by
        simp [after, Books.post]
      have mark : (effect.op event.providerSequence).mark = event.providerSequence.getD 0 := by
        cases effect with
        | credit effect => rfl
        | setBalance effect =>
          have ordered : event.providerSequence = some effect.sequence :=
            (strict.sequence _ _ dispatched).1
          simp [Effect.op, Register.Op.mark, ordered]
      have version : state.version =
          max (db.books.state effect.accountRef).version (event.providerSequence.getD 0) := by
        rw [← mark]
        exact (congrArg Register.State.mark stepped).trans (Register.step_mark _)
      obtain ⟨later, there⟩ := WebhookReceiver.posted_event still (by rw [posted]; rfl)
      have ordered : later.providerSequence = event.providerSequence := by
        rcases committed.origin there with ⟨before, was, same⟩ | absent
        · rw [found] at was
          cases was
          rw [same]
        · rw [found] at absent
          cases absent
      intro externalRef
      rw [committed.sequences good still (some id) others (by rintro _ ⟨⟩; exact first),
        after, Books.state_post, ← after]
      by_cases same : effect.accountRef = externalRef
      · subst same
        rw [if_pos rfl, version]
        simpa [posted, there, ordered] using isGreatest_insert_sequence (marked effect.accountRef)
      · rw [if_neg same]
        simpa [posted, there, same] using marked externalRef

omit shipped in
theorem Committed.placed (strict : svc.registry.OwnsEntity) (good : Wf db)
    (still : Wf (db.after writes)) (committed : Committed svc scope call trace db writes)
    (placed : Placed db) : Placed (db.after writes) := by
  have earlier : ∀ {id event externalRef amount}, (db.after writes).event? id = some event →
      db.books.posted id = some (externalRef, amount) →
      (db.after writes).books.posted id = db.books.posted id → externalRef = event.entityId := by
    intro id event externalRef amount there posted kept
    obtain ⟨before, after, was, is, alike⟩ :=
      committed.posted_event good still (by rw [posted]; rfl) kept
    rw [there] at is
    cases is
    rw [placed id before externalRef amount was posted, alike]
  rcases committed.dealt_or_clerical with ⟨-, clerical⟩ | ⟨eventId, result, passing, done⟩
  · intro id event externalRef amount there posted
    rw [books_clerical clerical] at posted
    exact earlier there posted (by rw [books_clerical clerical])
  · obtain ⟨event, effect, found, dispatched, clean⟩ := done.books strict good
    have after : (db.after writes).books = (db.books.process eventId event.providerSequence effect).2 :=
      congrArg Prod.snd clean
    rcases Books.process_cases db.books eventId event.providerSequence effect with
      ⟨kept, -, -⟩ | ⟨first, moved, state, posts, -⟩
    · rw [← after] at kept
      intro id later externalRef amount there posted
      exact earlier there (kept ▸ posted) (congrFun kept id)
    · rw [posts] at after
      intro id later externalRef amount there posted
      by_cases same : id = eventId
      · subst same
        rw [after] at posted
        simp only [Books.post, Function.update_self, Option.some.injEq, Prod.mk.injEq] at posted
        rcases committed.origin there with ⟨before, was, alike⟩ | absent
        · rw [found] at was
          cases was
          rw [← posted.1, (strict.entity _ _ dispatched).2, alike]
          rfl
        · rw [found] at absent
          cases absent
      · have kept : (db.after writes).books.posted id = db.books.posted id := by
          rw [after]
          exact Function.update_of_ne same _ _
        exact earlier there (kept ▸ posted) kept

end Steps

theorem Books.Le.trans {books middle later : Books} (first : books.Le middle) (second : middle.Le later) :
    books.Le later := by
  refine ⟨fun externalRef state found => ?_, fun id posted => second.posted id (first.posted id posted)⟩
  obtain ⟨state₁, found₁, newer₁⟩ := first.account externalRef state found
  obtain ⟨state₂, found₂, newer₂⟩ := second.account externalRef state₁ found₁
  exact ⟨state₂, found₂, newer₁.trans newer₂⟩

theorem marked_empty : Marked Db.empty := by
  intro externalRef
  have none : Db.empty.sequences externalRef = ∅ := by
    ext sequence
    simp [Db.sequences, Db.books, Db.ledgerOf?, Db.empty]
  rw [none]
  simp [Books.state, Db.books, Db.accountOf?, Db.empty]

theorem placed_empty : Placed Db.empty := by
  intro id event externalRef amount found
  cases found

section Runs

variable {svc : Service} {scope : Scope} {start last : Db} {log : List Commit}

theorem Service.History.marked (shipped : svc.registry = Balance.registry)
    (past : svc.History scope start last log) (marked : Marked start) : Marked last :=
  past.along (P := fun _ => Marked) marked (fun _ holds => holds) (fun _ _ holds => holds)
    fun _ _ good still _ committed holds => committed.marked shipped good still holds

theorem Service.History.placed (strict : svc.registry.OwnsEntity)
    (past : svc.History scope start last log) (placed : Placed start) : Placed last :=
  past.along (P := fun _ => Placed) placed (fun _ holds => holds) (fun _ _ holds => holds)
    fun _ _ good still _ committed holds => committed.placed strict good still holds

theorem Service.History.forward (strict : svc.registry.OwnsEntity)
    (past : svc.History scope start last log) : start.books.Le last.books :=
  past.keeps (P := fun db => start.books.Le db.books) (.refl _) (fun _ holds => holds)
    (fun _ _ holds => holds)
    fun _ _ good _ committed holds => holds.trans (committed.forward strict good)

end Runs

/-! ## Snapshots in commit order -/

/-- The events that a transaction posts for. -/
def postedIn (writes : List Write) : List Nat :=
  writes.filterMap fun
    | .insertLedger row => some row.eventId
    | _ => none

/-- The transaction applied a snapshot with this sequence to the account. -/
def AppliesSnapshot (registry : HandlerRegistry) (entry : Commit) (externalRef : String)
    (sequence : Int) : Prop :=
  ∃ id ∈ postedIn entry.writes, ∃ event balance, entry.before.event? id = some event ∧
    registry.dispatch event.toDomain = .ok (.setBalance ⟨externalRef, balance, sequence⟩)

/-- The transaction recorded that a snapshot with this sequence had been superseded. -/
def SupersedesSnapshot (registry : HandlerRegistry) (entry : Commit) (externalRef : String)
    (sequence : Int) : Prop :=
  ∃ attempt ∈ attemptsIn entry.writes, attempt.outcome = .superseded ∧ ∃ event balance,
    entry.before.event? attempt.eventId = some event ∧
    registry.dispatch event.toDomain = .ok (.setBalance ⟨externalRef, balance, sequence⟩)

theorem postedIn_clerical {writes : List Write} (clerical : ∀ write ∈ writes, write.business = false) :
    postedIn writes = [] := by
  refine List.filterMap_eq_nil_iff.mpr fun write member => ?_
  have silent := clerical write member
  cases write with
  | insertLedger row => cases silent
  | _ => rfl

theorem AccountFor.silent {db : Db} {externalRef : String} {row : AccountRow} {created : List Write}
    (account : AccountFor db externalRef row created) : postedIn created = [] := by
  cases account <;> rfl

section Snapshots

variable {svc : Service} {scope : Scope} {call : Call} {trace : Trace} {db : Db} {writes : List Write}
  {id tid : Nat} {externalRef : String} {sequence : Int}

theorem Dealt.outcome {result : EffectResult} (done : Dealt svc id db result writes) :
    ∃ attempt, attemptsIn writes = [attempt] ∧ attempt.eventId = id ∧
      attempt.outcome = successOutcome result := by
  cases done with
  | @mk event effect result business attempt found pending due dispatched applied next outcome =>
    have silent := attemptsIn_business applied.business
    refine ⟨attempt, ?_, next.event, outcome⟩
    simp only [attemptsIn, List.filterMap_append] at silent ⊢
    rw [silent]
    rfl

/-- A pass posts for its event exactly if it answers that the effect was applied. -/
theorem Dealt.posts {result : EffectResult} (done : Dealt svc id db result writes) :
    postedIn writes = if result = .applied then [id] else [] := by
  cases done with
  | @mk event effect result business attempt found pending due dispatched applied next outcome =>
    have about : event.toDomain.id = id := event?_id found
    have posts : ∀ {externalRef row created ledgerId amount state},
        AccountFor db externalRef row created →
        postedIn (created ++ [Write.insertLedger ⟨ledgerId, row.id, event.toDomain.id, amount⟩,
          .updateAccount row.id state]) = [id] := by
      intro externalRef row created ledgerId amount state account
      have silent := account.silent
      simp only [postedIn, List.filterMap_append] at silent ⊢
      rw [silent, about]
      rfl
    have only : postedIn (business ++ [Write.insertAttempt attempt, .updateEvent id
        { event.toEventQueue with
          status := .succeeded, attemptCount := event.attemptCount + 1,
          processedAt := some attempt.finishedAt, lastError := none }]) = postedIn business := by
      simp [postedIn]
    rw [only]
    cases applied with
    | credit account first inRange => exact posts account
    | creditAgain account again inRange => exact account.silent
    | superseded account stale => exact account.silent
    | snapshot account first newer moved inRange => exact posts account
    | snapshotAgain account newer moved again inRange => exact account.silent

/-- Only a pass that applies its effect posts. -/
theorem Committed.posts (committed : Committed svc scope call trace db writes)
    (member : id ∈ postedIn writes) : Dealt svc id db .applied writes := by
  rcases committed.dealt_or_clerical with ⟨-, clerical⟩ | ⟨eventId, result, passing, done⟩
  · simp [postedIn_clerical clerical] at member
  · rw [done.posts] at member
    split at member
    · rename_i applied
      rw [List.mem_singleton.mp member]
      exact applied ▸ done
    · cases member

/-- A snapshot that is not newer than the account. -/
def Effect.stale (books : Books) : Effect → Bool
  | .credit _ => false
  | .setBalance effect => effect.sequence ≤ (books.state effect.accountRef).version

/-- When a pass gives which answer. -/
theorem Books.process_result {books : Books} {sequence : Option Int} {effect : Effect} :
    (books.process id sequence effect).1 =
      if effect.stale books then .superseded
      else if (books.posted id).isSome then .alreadyApplied else .applied := by
  cases effect with
  | credit effect =>
    simp only [Books.process, Effect.stale, Bool.false_eq_true, if_false]
    split <;> rfl
  | setBalance effect =>
    simp only [Books.process, Effect.stale, decide_eq_true_eq]
    split
    · rfl
    · split <;> rfl

theorem Committed.appliesSnapshot (shipped : svc.registry = Balance.registry) (good : Wf db)
    (committed : Committed svc scope call trace db writes)
    (applies : AppliesSnapshot svc.registry ⟨tid, call, trace, db, writes⟩ externalRef sequence) :
    (db.books.state externalRef).version < sequence ∧
      ∃ state, (db.after writes).books.account externalRef = some state ∧ state.version = sequence := by
  have strict : svc.registry.OwnsEntity := shipped ▸ Balance.registry_ownsEntity
  obtain ⟨id, posts, event, balance, found, dispatched⟩ := applies
  obtain ⟨event', effect, found', dispatched', clean⟩ := (committed.posts posts).books strict good
  cases found.symm.trans found'
  cases dispatched.symm.trans dispatched'
  simp only [Books.process] at clean
  split at clean
  · cases (Prod.mk.inj clean).1
  · rename_i newer
    split at clean
    · cases (Prod.mk.inj clean).1
    · refine ⟨Int.not_le.mp newer, ⟨balance, sequence⟩, ?_, rfl⟩
      rw [(Prod.mk.inj clean).2]
      simp [Books.post]

theorem Committed.supersedesSnapshot (shipped : svc.registry = Balance.registry) (good : Wf db)
    (committed : Committed svc scope call trace db writes)
    (supersedes : SupersedesSnapshot svc.registry ⟨tid, call, trace, db, writes⟩ externalRef sequence) :
    ∃ state, db.books.account externalRef = some state ∧ sequence ≤ state.version := by
  have strict : svc.registry.OwnsEntity := shipped ▸ Balance.registry_ownsEntity
  obtain ⟨attempt, recorded, superseded, event, balance, found, dispatched⟩ := supersedes
  have dealt : attempt.eventId ∈ dealtIn writes := by
    refine List.mem_map.mpr ⟨attempt, List.mem_filter.mpr ⟨recorded, ?_⟩, rfl⟩
    rw [superseded]
    rfl
  obtain ⟨-, result, done⟩ := committed.dealtWith dealt
  obtain ⟨event', effect, found', dispatched', clean⟩ := done.books strict good
  cases found.symm.trans found'
  cases dispatched.symm.trans dispatched'
  obtain ⟨attempt', only, -, outcome⟩ := done.outcome
  simp only [only, List.mem_singleton] at recorded
  rw [← recorded, superseded] at outcome
  have answer : result = .superseded := by
    cases result with
    | superseded => rfl
    | _ => cases outcome
  have stale : sequence ≤ (db.books.state externalRef).version := by
    have decided : result = (db.books.process attempt.eventId event.providerSequence
      (.setBalance ⟨externalRef, balance, sequence⟩)).1 := congrArg Prod.fst clean
    rw [Books.process_result, answer] at decided
    split at decided
    · rename_i stale
      simpa [Effect.stale] using stale
    · split at decided <;> cases decided
  have positive : 1 ≤ sequence := (strict.sequence _ _ dispatched).2
  simp only [Books.state] at stale
  cases known : db.books.account externalRef with
  | none =>
    rw [known] at stale
    exact absurd (positive.trans stale) (by decide)
  | some state =>
    rw [known] at stale
    exact ⟨state, rfl, stale⟩

end Snapshots

/-- The version of an account is the maximum of 0 and the sequences of the events that
have a ledger entry on it, and it never decreases. The snapshots applied to an account
have increasing sequences in commit order, and a snapshot is superseded only by a
version that it does not exceed. -/
theorem versions_mark_sequences (svc : Service) (shipped : svc.registry = Balance.registry) {w w' : World}
    (reached : svc.Reaches .any (.init Db.empty) w) (later : svc.Reaches .any w w') :
    (∀ account ∈ w.db.accounts, IsGreatest
      (insert 0 {sequence | ∃ entry ∈ w.db.ledger, entry.accountId = account.id ∧
        ∃ event ∈ w.db.events, event.id = entry.eventId ∧ event.providerSequence = some sequence})
      account.version) ∧
    (∀ account ∈ w.db.accounts, ∃ account' ∈ w'.db.accounts,
      account'.externalRef = account.externalRef ∧ account.version ≤ account'.version) ∧
    (∀ externalRef, w.log.Pairwise fun earlier later => ∀ sequence sequence',
      AppliesSnapshot svc.registry earlier externalRef sequence →
      AppliesSnapshot svc.registry later externalRef sequence' → sequence < sequence') ∧
    ∀ entry ∈ w.log, ∀ externalRef sequence,
      SupersedesSnapshot svc.registry entry externalRef sequence →
      ∃ account ∈ entry.before.accounts, account.externalRef = externalRef ∧
        sequence ≤ account.version := by
  have strict : svc.registry.OwnsEntity := shipped ▸ Balance.registry_ownsEntity
  obtain ⟨good, past⟩ := reaches_history wf_empty reached
  obtain ⟨good', -⟩ := reaches_history wf_empty (reached.trans later)
  obtain ⟨log, -, onward⟩ := reaches_stretch wf_empty reached later
  refine ⟨fun account member => ?_, fun account member => ?_, fun externalRef => ?_, ?_⟩
  · have named := past.marked shipped marked_empty account.externalRef
    have state := (books_account_iff good).mpr ⟨account, member, rfl, rfl⟩
    have same : w.db.sequences account.externalRef =
        {sequence | ∃ entry ∈ w.db.ledger, entry.accountId = account.id ∧
          ∃ event ∈ w.db.events, event.id = entry.eventId ∧ event.providerSequence = some sequence} := by
      ext sequence
      constructor
      · rintro ⟨id, event, amount, posted, found, ordered⟩
        obtain ⟨entry, known, rfl, -, row, owner, owned, named⟩ := (books_posted_iff good).mp posted
        rw [List.inj_on_of_nodup_map good.accountRefs owner member named] at owned
        exact ⟨entry, known, owned.symm, event, mem_of_event? found, event?_id found, ordered⟩
      · rintro ⟨entry, known, owned, event, stored, about, ordered⟩
        refine ⟨entry.eventId, event, entry.amountMinor, ?_, about ▸ event?_of_mem good stored, ordered⟩
        exact (books_posted_iff good).mpr ⟨entry, known, rfl, rfl, account, member, owned.symm, rfl⟩
    rw [same] at named
    simpa [Books.state, state] using named
  · obtain ⟨state', found', newer⟩ := (onward.forward strict).account _ _
      ((books_account_iff good).mpr ⟨account, member, rfl, rfl⟩)
    obtain ⟨account', member', named, rfl⟩ := (books_account_iff good').mp found'
    exact ⟨account', member', named, newer⟩
  · have since : ∀ sequence, w.log.Pairwise fun earlier later =>
        AppliesSnapshot svc.registry earlier externalRef sequence →
        ∃ state, later.before.books.account externalRef = some state ∧ sequence ≤ state.version := by
      intro sequence
      refine (past.since (P := fun db => ∃ state, db.books.account externalRef = some state ∧
        sequence ≤ state.version) ?_ (fun _ holds => holds) (fun _ _ holds => holds) ?_).1
      · intro entry _ good committed applies
        obtain ⟨-, state, found, same⟩ := committed.appliesSnapshot shipped good applies
        exact ⟨state, found, same.ge⟩
      · rintro entry _ good - committed ⟨state, found, reached⟩
        obtain ⟨state', found', newer⟩ := (committed.forward strict good).account _ _ found
        exact ⟨state', found', reached.trans newer⟩
    rw [List.pairwise_iff_getElem] at *
    intro i j hi hj before sequence sequence' applies applies'
    have mark := since sequence
    rw [List.pairwise_iff_getElem] at mark
    obtain ⟨state, found, reached⟩ := mark i j hi hj before applies
    obtain ⟨_, _, -, -, good, -, described, -⟩ := past.at (List.getElem_mem hj)
    obtain ⟨newer, -⟩ := described.cases.appliesSnapshot shipped good applies'
    simp only [Books.state, found, Option.getD_some] at newer
    exact lt_of_le_of_lt reached newer
  · intro entry member externalRef sequence supersedes
    obtain ⟨_, _, -, -, good, -, described, -⟩ := past.at member
    obtain ⟨state, found, reached⟩ := described.cases.supersedesSnapshot shipped good supersedes
    obtain ⟨account, known, named, rfl⟩ := (books_account_iff good).mp found
    exact ⟨account, known, named, reached⟩

/-- A credit with sequence 5 makes a snapshot with sequence 2 too late; one with
sequence 7 is applied. -/
theorem versions_mark_sequences_sample : ∃ w w', Sample.service.Reaches .any (.init Db.empty) w ∧
    Sample.service.Reaches .any w w' ∧ w.db.accounts.map (·.version) = [5] ∧
    w'.db.accounts.map (·.version) = [7] ∧
    ∀ account ∈ w.db.accounts, IsGreatest
      (insert 0 {sequence | ∃ entry ∈ w.db.ledger, entry.accountId = account.id ∧
        ∃ event ∈ w.db.events, event.id = entry.eventId ∧ event.providerSequence = some sequence})
      account.version := by
  let schedule : List Action :=
    Sample.store 0 (Sample.credit "c" 100 5) ++ Sample.store 1 (Sample.snapshot "s" 500 2) ++
    Sample.store 2 (Sample.snapshot "t" 700 7) ++
    .spawn 3 (.process 1) :: Sample.steps 3 12 ++ .spawn 4 (.process 2) :: Sample.steps 4 12
  obtain ⟨w, w', reached, later, shown⟩ := Sample.service.reaches_test₂ .any (.init Db.empty) schedule
    (.spawn 5 (.process 3) :: Sample.steps 5 14)
    (fun w w' => w.db.accounts.map (·.version) = [5] ∧ w'.db.accounts.map (·.version) = [7])
    (fun action _ => Scope.any_permits action) (by decide +kernel)
  simp only [decide_eq_true_eq] at shown
  exact ⟨w, w', reached, later, shown.1, shown.2,
    (versions_mark_sequences Sample.service rfl reached later).1⟩

end WebhookReceiver
