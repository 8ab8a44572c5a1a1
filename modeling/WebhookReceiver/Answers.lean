import WebhookReceiver.Versions

/-!
What `apply_effect` answers, and what there is in the ledger.

A credit asks the unique key of the ledger, so its answer tells whether the event had
posted. A snapshot asks the version first. By then an applied snapshot has raised the
version to its own sequence, so a second pass over it never gets to the key: it is
superseded by itself.
-/

namespace WebhookReceiver

open Txn (Prog)

/-- The event has a ledger entry. -/
def Db.hasEffect (db : Db) (eventId : Nat) : Prop := ∃ entry ∈ db.ledger, entry.eventId = eventId

/-- The answer says whether the effect was there before, has come now, or is not there. -/
structure Truthful (result : EffectResult) (eventId : Nat) (before after : Db) : Prop where
  alreadyApplied : result = .alreadyApplied ↔ before.hasEffect eventId
  applied : result = .applied ↔ ¬ before.hasEffect eventId ∧ after.hasEffect eventId
  superseded : result = .superseded ↔ ¬ before.hasEffect eventId ∧ ¬ after.hasEffect eventId

/-! ## An effect that was applied had fitted -/

section Solo

variable {svc : Service} {input : Input} {db db' : Db} {writes writes' : List Write} {α β : Type}

/-- A run that ends well has gone well from the first statement on. -/
theorem solo_bind_ok {first : Program α} {next : α → Program β} {b : β}
    (ran : svc.solo input (first >>= next) writes db = some (.ok b, writes', db')) :
    ∃ a middle there, svc.solo input first writes db = some (.ok a, middle, there) ∧
      svc.solo input (next a) middle there = some (.ok b, writes', db') := by
  rw [Prog.bind_eq, solo_andThen] at ran
  obtain ⟨⟨ended, middle, there⟩, began, went⟩ := Option.bind_eq_some_iff.mp ran
  cases ended with
  | ok a => exact ⟨a, middle, there, began, went⟩
  | error e => cases went

theorem solo_execute_ok {s : Stmt} {a : s.Answer}
    (ran : svc.solo input (execute s) writes db = some (.ok a, writes', db')) :
    ∃ reply, s.exec (fun _ _ => true) input (db.after writes) = some reply ∧ reply.answer = .ok a := by
  cases executed : s.exec (fun _ _ => true) input (db.after writes) with
  | none =>
    have none : svc.system.exec (fun _ _ => true) input (svc.system.applyAll writes db) s = none :=
      executed
    simp [Service.solo, execute, Prog.perform, Txn.System.solo, none] at ran
  | some reply =>
    rw [solo_execute executed] at ran
    exact ⟨reply, rfl, (Prod.mk.inj (Option.some.inj ran)).1⟩

theorem isBigint_of_claimed {accountId eventId : Nat} {amount : Int} {fresh : Bool}
    (ran : svc.solo input (Ledger.claimLedgerRow accountId eventId amount) writes db =
      some (.ok fresh, writes', db')) : isBigint amount = true := by
  obtain ⟨inserted, _, _, executed, -⟩ := solo_bind_ok ran
  obtain ⟨reply, ran, answered⟩ := solo_execute_ok executed
  simp only [Stmt.exec, execInsertLedgerEntry] at ran
  split at ran
  · cases ran
    cases answered
  · rename_i inside
    simpa using inside

theorem fits_of_updated {account : AccountRow} {given : Int} {values : AccountState → AccountState} {u : Unit}
    (owner : (db.after writes).account? account.id = some account)
    (ran : svc.solo input (execute (.updateAccount account.id given values)) writes db =
      some (.ok u, writes', db')) :
    isBigint (values account.toAccountState).balanceMinor = true ∧
      isBigint (values account.toAccountState).version = true ∧
      0 ≤ (values account.toAccountState).version := by
  obtain ⟨reply, ran, answered⟩ := solo_execute_ok ran
  simp only [Stmt.exec, execUpdateAccount, owner] at ran
  split at ran
  · cases ran
    cases answered
  split at ran
  · cases ran
    cases answered
  · rename_i inside
    split at ran
    · cases ran
      cases answered
    · rename_i positive
      simp only [Bool.or_eq_true, Bool.not_eq_true', not_or, Bool.not_eq_false] at inside
      exact ⟨inside.1, inside.2, Int.not_lt.mp positive⟩

/-- The ledger row was claimed, and the account updated if the row was new. -/
theorem fits_of_posted (good : Wf db) (seq : Table → Nat) {externalRef : String} {row : AccountRow}
    {created : List Write} (account : AccountFor db externalRef row created) {eventId : Nat}
    {event : EventRow} (stored : db.event? eventId = some event) {amount : Int}
    {given : Int} {values : AccountState → AccountState} {result : EffectResult}
    (ran : svc.solo input
        (do if !(← Ledger.claimLedgerRow row.id eventId amount) then return .alreadyApplied
            execute (.updateAccount row.id given values)
            return EffectResult.applied) created (db.reseq seq) = some (.ok result, writes', db')) :
    isBigint amount = true ∧ ((db.books.posted eventId).isSome ∨
      isBigint (values row.toAccountState).balanceMinor = true ∧
      isBigint (values row.toAccountState).version = true ∧
      0 ≤ (values row.toAccountState).version) := by
  obtain ⟨fresh, booked, there, claimed, rest⟩ := solo_bind_ok ran
  have inRange := isBigint_of_claimed claimed
  refine ⟨inRange, ?_⟩
  obtain ⟨seq₁, view⟩ := after_reseq created db seq
  obtain ⟨events, -, -, -⟩ := Db.after_business account.business db
  have stored' : ((db.reseq seq).after created).event? eventId = some event := by
    rw [view]
    simp only [Db.reseq, Db.event?, events]
    exact stored
  have owner : ((db.reseq seq).after created).account? row.id = some row := by
    rw [view]
    exact account.byId good
  obtain ⟨fresh', booked', seq₂, claimed', known⟩ := solo_claimLedgerRow svc input inRange stored' owner
  rw [claimed] at claimed'
  cases claimed'
  cases fresh with
  | false =>
    obtain ⟨⟨entry, member, about⟩, -⟩ := known
    rw [view] at member
    exact Or.inl ((books_posted good).mpr ⟨entry, account.ledger ▸ member, about⟩)
  | true =>
    obtain ⟨-, id, rfl⟩ := known
    obtain ⟨_, _, _, updated, -⟩ := solo_bind_ok rest
    refine Or.inr (fits_of_updated ?_ updated)
    obtain ⟨seq₃, view'⟩ := after_reseq (created ++ [.insertLedger ⟨id, row.id, eventId, amount⟩]) db seq₂
    have same : (db.reseq seq).reseq seq₂ = db.reseq seq₂ := rfl
    rw [same, view', Db.after_append]
    exact account.byId good

theorem fits_of_applied (good : Wf db) {event : StoredEvent} {effect : Effect} {row : EventRow}
    (stored : db.event? event.id = some row) {result : EffectResult}
    (ran : svc.solo input (Ledger.applyEffect event effect) [] db = some (.ok result, writes', db')) :
    effect.fits db.books event.id event.providerSequence := by
  cases effect with
  | credit effect =>
    obtain ⟨account, created, seq, opened, known⟩ := solo_accountId svc input good effect.accountRef
    simp only [Effect.fits, known.state good]
    have rest := (solo_bind opened).symm.trans ran
    exact fits_of_posted good seq known stored rest
  | setBalance effect =>
    obtain ⟨account, created, seq, opened, known⟩ := solo_accountId svc input good effect.accountRef
    simp only [Effect.fits, known.state good]
    have rest := (solo_bind opened).symm.trans ran
    obtain ⟨seq₁, view⟩ := after_reseq created db seq
    have owner : ((db.reseq seq).after created).account? account.id = some account := by
      rw [view]
      exact known.byId good
    have current : svc.solo input (execute (.balanceAndVersion account.id)) created (db.reseq seq) =
        some (.ok account.toAccountState, created, db.reseq seq) := by
      refine solo_read ⟨[], ?_⟩
      simp only [Stmt.exec, owner]
    have last := (solo_bind current).symm.trans rest
    by_cases stale : effect.sequence ≤ account.version
    · exact Or.inl stale
    · rw [if_neg stale] at last
      exact Or.inr (fits_of_posted good seq known stored last)

end Solo

/-! ## Which answer is given when -/

section Answers

variable {db db' : Db} {event : StoredEvent} {effect : Effect} {result : EffectResult}
  {writes : List Write}

/-- A snapshot that has posted has raised the version to its own sequence. -/
theorem stale_of_posted (good : Wf db) (marked : Marked db) (placed : Placed db) {row : EventRow}
    {snapshot : SetBalance} (stored : db.event? row.id = some row)
    (ordered : row.providerSequence = some snapshot.sequence) (named : snapshot.accountRef = row.entityId)
    (posted : db.hasEffect row.id) : (Effect.setBalance snapshot).stale db.books = true := by
  obtain ⟨⟨externalRef, amount⟩, there⟩ := Option.isSome_iff_exists.mp ((books_posted good).mpr posted)
  have place := placed row.id row externalRef amount stored there
  have counted : snapshot.sequence ∈ db.sequences snapshot.accountRef :=
    ⟨row.id, row, amount, by rw [named, ← place]; exact there, stored, ordered⟩
  have below := (marked snapshot.accountRef).2 (Set.mem_insert_of_mem 0 counted)
  simpa [Effect.stale] using below

/-- The answer is truthful except where a snapshot is applied to an event that has posted. -/
theorem Applied.truthful_iff (good : Wf db) (marked : Marked db) (placed : Placed db)
    (strict : Balance.registry.OwnsEntity) {row : EventRow} (stored : db.event? row.id = some row)
    (dispatched : Balance.registry.dispatch row.toDomain = .ok effect)
    (applied : Applied True db row.toDomain effect result writes)
    (same : db'.ledger = (db.after writes).ledger) :
    Truthful result row.id db db' ↔ ¬ (db.hasEffect row.id ∧ effect.isSnapshot = true) := by
  have untouched : ∀ {externalRef account created}, AccountFor db externalRef account created →
      writes = created → (db'.hasEffect row.id ↔ db.hasEffect row.id) := by
    rintro externalRef account created known rfl
    simp only [Db.hasEffect, same, known.ledger]
  have posted : ∀ {externalRef account created id amount state},
      AccountFor db externalRef account created →
      writes = created ++ [.insertLedger ⟨id, account.id, row.id, amount⟩,
        .updateAccount account.id state] → db'.hasEffect row.id := by
    rintro externalRef account created id amount state known rfl
    refine ⟨⟨id, account.id, row.id, amount⟩, ?_, rfl⟩
    rw [same, Db.after_append]
    simp [Write.apply]
  cases applied with
  | credit account first inRange =>
    have unposted : ¬ db.hasEffect row.id := by
      rintro ⟨entry, member, about⟩
      exact first entry member about
    have now := posted account rfl
    refine ⟨fun _ => by simp [Effect.isSnapshot], fun _ => ⟨?_, ?_, ?_⟩⟩ <;> simp [unposted, now]
  | creditAgain account again inRange =>
    have before : db.hasEffect row.id := again
    refine ⟨fun _ => by simp [Effect.isSnapshot], fun _ => ⟨?_, ?_, ?_⟩⟩ <;> simp [before]
  | superseded account stale =>
    have kept := untouched account rfl
    constructor
    · rintro truthful ⟨before, -⟩
      exact (truthful.superseded.mp rfl).1 before
    · intro fresh
      have unposted : ¬ db.hasEffect row.id := fun before => fresh ⟨before, rfl⟩
      exact ⟨by simp [unposted], by simp [kept, unposted], by simp [kept, unposted]⟩
  | snapshot account first newer moved inRange =>
    have unposted : ¬ db.hasEffect row.id := by
      rintro ⟨entry, member, about⟩
      exact first entry member about
    have now := posted account rfl
    refine ⟨fun _ => by simp [unposted], fun _ => ⟨?_, ?_, ?_⟩⟩ <;> simp [unposted, now]
  | @snapshotAgain effect account created delta known newer moved again inRange =>
    -- the version guard comes first, and an applied snapshot does not pass it
    have ordered : row.providerSequence = some effect.sequence := (strict.sequence _ _ dispatched).1
    have stale := stale_of_posted good marked placed stored ordered (strict.entity _ _ dispatched).2 again
    simp only [Effect.stale, decide_eq_true_eq, known.state good] at stale
    exact absurd (newer trivial) (Int.not_lt.mpr stale)

end Answers

/-- The failures of a pass aside, `apply_effect` answers truthfully on a reachable store
exactly if the event has no ledger entry or its effect is not a snapshot; and a recorded
pass over an event with a ledger entry is recorded as superseded exactly if the effect is
a snapshot. -/
theorem answers_truthful_iff (svc : Service) (shipped : svc.registry = Balance.registry) {w : World}
    (reached : svc.Reaches .any (.init Db.empty) w) :
    (∀ event ∈ w.db.events, ∀ effect, svc.registry.dispatch event.toDomain = .ok effect →
      ∀ input result writes db,
        svc.solo input (Ledger.applyEffect event.toDomain effect) [] w.db = some (.ok result, writes, db) →
        (Truthful result event.id w.db (db.after writes) ↔
          ¬ (w.db.hasEffect event.id ∧ effect.isSnapshot = true))) ∧
    ∀ entry ∈ w.log, ∀ attempt ∈ attemptsIn entry.writes, attempt.outcome.dealtWith = true →
      entry.before.hasEffect attempt.eventId → (attempt.outcome = .superseded ↔
        ∃ event effect, entry.before.event? attempt.eventId = some event ∧
          svc.registry.dispatch event.toDomain = .ok effect ∧ effect.isSnapshot = true) := by
  have strict : Balance.registry.OwnsEntity := Balance.registry_ownsEntity
  obtain ⟨good, past⟩ := reaches_history wf_empty reached
  constructor
  · intro event member effect dispatched input result writes db ran
    have stored := event?_of_mem good member
    have fits := fits_of_applied good stored ran
    obtain ⟨result', writes', seq, ran', applied⟩ := solo_applyEffect svc input True good stored fits
    rw [ran] at ran'
    cases ran'
    obtain ⟨seq', same⟩ := after_reseq writes w.db seq
    rw [shipped] at dispatched
    exact applied.truthful_iff good (past.marked shipped marked_empty)
      (past.placed (shipped ▸ strict) placed_empty) strict stored dispatched (by rw [same]; rfl)
  · intro entry member attempt recorded dealt posted
    obtain ⟨before, after, -, earlier, good, -, described, -⟩ := past.at member
    have history : svc.History .any Db.empty entry.before before := earlier
    have done : attempt.eventId ∈ dealtIn entry.writes :=
      List.mem_map.mpr ⟨attempt, List.mem_filter.mpr ⟨recorded, dealt⟩, rfl⟩
    obtain ⟨-, result, done⟩ := described.cases.dealtWith done
    obtain ⟨attempt', only, -, outcome⟩ := done.outcome
    simp only [only, List.mem_singleton] at recorded
    subst recorded
    obtain ⟨event, effect, found, dispatched, clean⟩ := done.books (shipped ▸ strict) good
    have about := event?_id found
    have decided : result = (entry.before.books.process attempt.eventId event.providerSequence
      effect).1 := congrArg Prod.fst clean
    rw [Books.process_result, if_pos ((books_posted good).mpr posted)] at decided
    have answer : attempt.outcome = .superseded ↔ effect.stale entry.before.books = true := by
      rw [outcome, decided]
      split <;> simp_all [successOutcome]
    rw [answer]
    constructor
    · intro stale
      refine ⟨event, effect, found, dispatched, ?_⟩
      cases effect with
      | credit effect => cases stale
      | setBalance effect => rfl
    · rintro ⟨event', effect', found', dispatched', snapshot⟩
      cases found.symm.trans found'
      cases dispatched.symm.trans dispatched'
      cases effect with
      | credit effect => cases snapshot
      | setBalance effect =>
        rw [shipped] at dispatched
        have ordered : event.providerSequence = some effect.sequence :=
          (strict.sequence _ _ dispatched).1
        exact stale_of_posted good (history.marked shipped marked_empty)
          (history.placed (shipped ▸ strict) placed_empty) (about ▸ found) ordered
          (strict.entity _ _ dispatched).2 (about ▸ posted)

/-- A credit that has posted answers truthfully that it has. -/
theorem answers_truthful_sample : ∃ w, Sample.service.Reaches .any (.init Db.empty) w ∧
    w.db.hasEffect 1 ∧ ∀ event ∈ w.db.events, ∀ effect,
      Sample.service.registry.dispatch event.toDomain = .ok effect → ∀ input result writes db,
      Sample.service.solo input (Ledger.applyEffect event.toDomain effect) [] w.db =
        some (.ok result, writes, db) →
      (Truthful result event.id w.db (db.after writes) ↔
        ¬ (w.db.hasEffect event.id ∧ effect.isSnapshot = true)) := by
  let schedule : List Action :=
    Sample.store 0 (Sample.credit "c" 100 1) ++ .spawn 1 (.process 1) :: Sample.steps 1 12
  obtain ⟨w, reached, shown⟩ := Sample.service.reaches_test .any (.init Db.empty) schedule
    (fun w => w.db.ledger.any fun entry => entry.eventId = 1)
    (fun action _ => Scope.any_permits action) (by decide +kernel)
  simp only [List.any_eq_true, decide_eq_true_eq] at shown
  exact ⟨w, reached, shown, (answers_truthful_iff Sample.service rfl reached).1⟩

/-- A snapshot is applied and then replayed: `apply_effect` answers that it is superseded
although it has its ledger entry, and so the pass is recorded. -/
theorem replayed_snapshot_superseded : ∃ w, Sample.service.Reaches .any (.init Db.empty) w ∧
    (∃ event ∈ w.db.events, w.db.hasEffect event.id ∧ ∃ effect writes db,
      Sample.service.registry.dispatch event.toDomain = .ok effect ∧
      Sample.service.solo (Sample.clock 0) (Ledger.applyEffect event.toDomain effect) [] w.db =
        some (.ok .superseded, writes, db)) ∧
    ∃ entry ∈ w.log, ∃ attempt ∈ attemptsIn entry.writes, attempt.outcome = .superseded ∧
      entry.before.hasEffect attempt.eventId := by
  let schedule : List Action :=
    Sample.store 0 (Sample.snapshot "s" 500 2) ++ .spawn 1 (.process 1) :: Sample.steps 1 13 ++
    .spawn 2 (.replay 1 "operator" none) :: Sample.steps 2 22
  let answered (w : World) (event : EventRow) : Bool :=
    (w.db.ledger.any fun entry => entry.eventId = event.id) &&
    (Sample.service.registry.dispatch event.toDomain).toOption.any fun effect =>
      (Sample.service.solo (Sample.clock 0) (Ledger.applyEffect event.toDomain effect) [] w.db).any
        fun ended => ended.1.toOption = some .superseded
  let recorded (entry : Commit) : Bool :=
    (attemptsIn entry.writes).any fun attempt => attempt.outcome = .superseded &&
      entry.before.ledger.any fun row => row.eventId = attempt.eventId
  obtain ⟨w, reached, shown⟩ := Sample.service.reaches_test .any (.init Db.empty) schedule
    (fun w => w.db.events.any (answered w) && w.log.any recorded)
    (fun action _ => Scope.any_permits action) (by decide +kernel)
  simp only [Bool.and_eq_true, List.any_eq_true, decide_eq_true_eq, answered, recorded,
    Option.any_eq_true] at shown
  obtain ⟨⟨event, stored, posted, effect, dispatched, ⟨ended, writes, db⟩, ran, answer⟩, passed⟩ := shown
  refine ⟨w, reached, ⟨event, stored, posted, effect, writes, db, ?_, ?_⟩, passed⟩
  · cases known : Sample.service.registry.dispatch event.toDomain with
    | error e => simp [known, Except.toOption] at dispatched
    | ok other =>
      rw [known] at dispatched
      cases dispatched
      rfl
  · cases ended with
    | error e => cases answer
    | ok result =>
      cases answer
      exact ran

end WebhookReceiver
