import WebhookReceiver.Discipline

/-!
`process_event` keeps the discipline: every transaction of a pass commits what
`PassTx` describes, and the pass reports what it did.

The proofs follow the programs from the ledger outwards. On the way the facts that
the row lock and the entity lock keep true turn what a statement saw into what the
transaction commits on.
-/

namespace WebhookReceiver

open Txn (Mode Prog)

/-! ## The account of an effect -/

section AccountFor

variable {db : Db} {externalRef : String} {row : AccountRow} {created : List Write}

theorem AccountFor.business (account : AccountFor db externalRef row created) :
    ∀ write ∈ created, write.business = true := by
  cases account with
  | existing member named => simp
  | created absent fresh => simp [Write.business]

theorem AccountFor.mem (account : AccountFor db externalRef row created) :
    row ∈ (db.after created).accounts ∧ row.externalRef = externalRef := by
  cases account with
  | existing member named => exact ⟨member, named⟩
  | created absent fresh => exact ⟨by simp [Write.apply], rfl⟩

theorem AccountFor.ledger (account : AccountFor db externalRef row created) :
    (db.after created).ledger = db.ledger := by
  cases account <;> rfl

/-- The account is the only one with its id. -/
theorem AccountFor.only (account : AccountFor db externalRef row created) (good : Wf db)
    {other : AccountRow} (member : other ∈ (db.after created).accounts) (same : other.id = row.id) :
    other = row := by
  cases account with
  | existing known named => exact List.inj_on_of_nodup_map good.accountIds member known same
  | created absent fresh =>
    simp only [Db.after_cons, Db.after_nil, Write.apply, List.mem_append, List.mem_singleton] at member
    rcases member with old | new
    · exact absurd same (fresh other old)
    · exact new

end AccountFor

section Programs

variable {svc : Service} {scope : Scope} {call : Call} {db : Db} {locks : Locks} {trace : Trace}

/-- A postcondition that lets every exception through. -/
abbrev Freely {α : Type} (db : Db) (P : α → List Write → Locks → Trace → Prop) :
    Except Exc α → Ctx → Prop :=
  Yields db (fun _ _ => True) P

theorem wp_accountId {externalRef : String}
    (owned : (svc.regime scope).strict → ((svc.regime scope).entity externalRef, .excl) ∈ locks) :
    svc.wp scope call (Ledger.accountId externalRef) ⟨db, [], locks, trace⟩
      (Freely db fun id writes locks' _ =>
        locks ⊆ locks' ∧ ∃ row : AccountRow, row.id = id ∧ AccountFor db externalRef row writes) := by
  unfold Ledger.accountId
  refine wp_execute owned (fun _ _ => trivial) fun inserted lesson taught known => ?_
  cases inserted with
  | some id =>
    cases taught
    have fresh := known (.freshAccount id) (by simp) (by simp [Guarded])
    have absent := known (.noAccount externalRef) (by simp) (by simp [Guarded])
    exact ⟨rfl, List.subset_append_left .., ⟨⟨0, 0⟩, id, externalRef⟩, rfl, .created absent fresh.1⟩
  | none =>
    obtain ⟨_, rfl⟩ := taught
    refine wp_execute_last trivial (fun _ _ => trivial) fun id lesson taught known => ?_
    cases taught
    obtain ⟨row, member, same, named⟩ := known (.hasAccount id externalRef) (by simp) trivial
    exact ⟨by simp, row, same, .existing member named⟩

theorem wp_claimLedgerRow {externalRef : String} {row : AccountRow} {created : List Write}
    (account : AccountFor db externalRef row created) {eventId : Nat} {amountMinor : Int} :
    svc.wp scope call (Ledger.claimLedgerRow row.id eventId amountMinor) ⟨db, created, locks, trace⟩
      (Freely db fun fresh writes locks' _ => locks ⊆ locks' ∧
        if fresh then
          (∀ entry ∈ db.ledger, entry.eventId ≠ eventId) ∧ isBigint amountMinor = true ∧
            ∃ id, writes = created ++ [.insertLedger ⟨id, row.id, eventId, amountMinor⟩]
        else (∃ entry ∈ db.ledger, entry.eventId = eventId) ∧ isBigint amountMinor = true ∧
          writes = created) := by
  unfold Ledger.claimLedgerRow
  refine wp_execute trivial (fun _ _ => trivial) fun inserted lesson taught known => ?_
  cases inserted with
  | some id =>
    obtain ⟨inRange, event, owner, rfl⟩ := taught
    have first := known (.noLedger eventId) (by simp) (Or.inl (by simp))
    simp only [Fact.holds, account.ledger] at first
    exact ⟨rfl, List.subset_append_left .., first, inRange, id, rfl⟩
  | none =>
    obtain ⟨inRange, rfl⟩ := taught
    have again := known (.hasLedger eventId) (by simp) trivial
    simp only [Fact.holds, account.ledger] at again
    exact ⟨rfl, by simp, again, inRange, by simp⟩

/-- The update of an account that a transaction has looked up or created. -/
theorem wp_updateAccount {externalRef : String} {row : AccountRow} {created booked : List Write}
    (good : Wf db) (account : AccountFor db externalRef row created)
    (owned : (svc.regime scope).strict → ((svc.regime scope).entity externalRef, .excl) ∈ locks)
    (accounts : (db.after booked).accounts = (db.after created).accounts)
    {given : Int} {values : AccountState → AccountState} :
    svc.wp scope call (execute (.updateAccount row.id given values)) ⟨db, booked, locks, trace⟩
      (Freely db fun _ writes locks' _ => locks ⊆ locks' ∧
        isBigint (values row.toAccountState).balanceMinor = true ∧
        isBigint (values row.toAccountState).version = true ∧
        0 ≤ (values row.toAccountState).version ∧
        writes = booked ++ [.updateAccount row.id (values row.toAccountState)]) := by
  obtain ⟨member, named⟩ := account.mem
  refine wp_execute_last ⟨⟨row, accounts ▸ member, rfl⟩, ?_⟩ (fun _ _ => trivial) ?_
  · intro strict other found same
    rw [accounts] at found
    rw [account.only good found same, named]
    exact owned strict
  · rintro ⟨⟩ lesson ⟨old, balance, version, positive, rfl⟩ known
    have found := known (.account row.id (some old)) (by simp) (by simp [Guarded])
    have there : old ∈ (db.after created).accounts := accounts ▸ List.mem_of_find?_eq_some found
    obtain rfl := account.only good there (account?_id found)
    exact ⟨List.subset_append_left .., balance, version, positive, rfl⟩

theorem accounts_insertLedger {created : List Write} {entry : LedgerEntry} :
    (db.after (created ++ [.insertLedger entry])).accounts = (db.after created).accounts := by
  rw [Db.after_append]
  rfl

theorem wp_applyCredit (good : Wf db) {event : StoredEvent} {effect : Credit}
    (owned : (svc.regime scope).strict → ((svc.regime scope).entity effect.accountRef, .excl) ∈ locks) :
    svc.wp scope call (Ledger.applyCredit event effect) ⟨db, [], locks, trace⟩
      (Freely db fun result writes locks' _ => locks ⊆ locks' ∧
        Applied svc.registry.OwnsEntity db event (.credit effect) result writes) := by
  unfold Ledger.applyCredit
  refine wp_seq (wp_accountId owned) ?_
  rintro _ created locks₁ trace₁ ⟨more, row, rfl, account⟩
  refine wp_seq (wp_claimLedgerRow account) ?_
  rintro fresh writes locks₂ trace₂ ⟨more₂, claimed⟩
  cases fresh with
  | false =>
    obtain ⟨again, inRange, rfl⟩ := claimed
    exact ⟨rfl, List.Subset.trans more more₂, .creditAgain account again inRange⟩
  | true =>
    obtain ⟨first, inRange, id, rfl⟩ := claimed
    refine wp_seq (wp_updateAccount good account (fun strict => more₂ (more (owned strict)))
      accounts_insertLedger) ?_
    rintro ⟨⟩ writes locks₃ trace₃ ⟨more₃, balance, version, positive, rfl⟩
    refine ⟨rfl, List.Subset.trans more (List.Subset.trans more₂ more₃), ?_⟩
    rw [List.append_assoc]
    exact .credit account first ⟨inRange, balance, version, positive⟩

theorem wp_applySetBalance (good : Wf db) {event : StoredEvent} {effect : SetBalance}
    (owned : (svc.regime scope).strict → ((svc.regime scope).entity effect.accountRef, .excl) ∈ locks) :
    svc.wp scope call (Ledger.applySetBalance event effect) ⟨db, [], locks, trace⟩
      (Freely db fun result writes locks' _ => locks ⊆ locks' ∧
        Applied svc.registry.OwnsEntity db event (.setBalance effect) result writes) := by
  unfold Ledger.applySetBalance
  refine wp_seq (wp_accountId owned) ?_
  rintro _ created locks₁ trace₁ ⟨more, row, rfl, account⟩
  refine wp_execute trivial (fun _ _ => trivial) ?_
  rintro current lesson ⟨seen, same, rfl, rfl⟩ known
  -- under the entity lock the row that was read is the account's row still
  have still : svc.registry.OwnsEntity → seen = row := by
    intro strict
    obtain ⟨member, named⟩ := account.mem
    obtain ⟨other, there, alike, called⟩ := known (.hasAccount row.id seen.externalRef) (by simp) trivial
    have one : other = row := account.only good there alike
    have ref : seen.externalRef = effect.accountRef := by rw [← called, one, named]
    have found := known (.accountOf seen.externalRef (some seen)) (by simp)
      ⟨strict, by simpa [ref] using more (owned strict)⟩
    exact account.only good (accountOf?_mem found).1 same
  simp only [List.append_nil]
  split
  · rename_i stale
    exact ⟨rfl, more, .superseded account fun strict => still strict ▸ stale⟩
  · rename_i late
    have newer : svc.registry.OwnsEntity → row.version < effect.sequence := by
      intro strict
      rw [← still strict]
      omega
    have moved : svc.registry.OwnsEntity →
        effect.balanceMinor - seen.balanceMinor = effect.balanceMinor - row.balanceMinor :=
      fun strict => by rw [still strict]
    refine wp_seq (wp_claimLedgerRow account) ?_
    rintro fresh writes locks₂ trace₂ ⟨more₂, claimed⟩
    cases fresh with
    | false =>
      obtain ⟨again, inRange, rfl⟩ := claimed
      exact ⟨rfl, List.Subset.trans more more₂, .snapshotAgain account newer moved again inRange⟩
    | true =>
      obtain ⟨first, inRange, id, rfl⟩ := claimed
      refine wp_seq (wp_updateAccount good account (fun strict => more₂ (more (owned strict)))
        accounts_insertLedger) ?_
      rintro ⟨⟩ writes locks₃ trace₃ ⟨more₃, balance, version, positive, rfl⟩
      refine ⟨rfl, List.Subset.trans more (List.Subset.trans more₂ more₃), ?_⟩
      rw [List.append_assoc]
      exact .snapshot account first newer moved ⟨inRange, balance, version, positive⟩

theorem wp_applyEffect (good : Wf db) {event : StoredEvent} {effect : Effect}
    (owned : (svc.regime scope).strict → ((svc.regime scope).entity effect.accountRef, .excl) ∈ locks) :
    svc.wp scope call (Ledger.applyEffect event effect) ⟨db, [], locks, trace⟩
      (Freely db fun result writes locks' _ => locks ⊆ locks' ∧
        Applied svc.registry.OwnsEntity db event effect result writes) := by
  cases effect with
  | credit effect => exact wp_applyCredit good owned
  | setBalance effect => exact wp_applySetBalance good owned

/-! ## The processing transaction -/

/-- `lock_entity` takes the advisory lock of the entity; a timeout is an exception. -/
theorem wp_lockEntity {entityType entityId : String} {timeout : Seconds} :
    svc.wp scope call (lockEntity svc.advisoryLockKey entityType entityId timeout)
      ⟨db, [], locks, trace⟩
      (Freely db fun _ writes locks' _ => writes = [] ∧ locks ⊆ locks' ∧
        (.advisory (svc.advisoryLockKey entityType entityId), .excl) ∈ locks') := by
  unfold lockEntity
  refine wp_look trivial (fun _ _ => trivial) (fun _ _ taught => taught) fun _ => ?_
  refine ⟨trivial, fun e _ => ?_, ?_⟩
  · show svc.wp scope call (Prog.onError _ (.error e)) _ _
    rw [Prog.onError_error]
    split <;> exact trivial
  · rintro ⟨⟩ lesson rfl _
    exact ⟨rfl, rfl, List.subset_append_left .., by simp⟩

/-- The highest number of an event's attempts, known from both sides. -/
theorem nextAttemptNumber_eq {eventId highest : Nat}
    (upTo : (Fact.attemptsUpTo eventId highest).holds db)
    (numbered : (Fact.attemptNumbered eventId highest).holds db) :
    db.nextAttemptNumber eventId = highest + 1 := by
  unfold Db.nextAttemptNumber
  congr 1
  cases most : ((db.attemptsOf eventId).map (·.attemptNumber)).max? with
  | none =>
    have nobody : db.attemptsOf eventId = [] := by simpa using most
    rcases numbered with rfl | ⟨row, member, about, -⟩
    · rfl
    · have listed : row ∈ db.attemptsOf eventId := List.mem_filter.mpr ⟨member, by simpa using about⟩
      rw [nobody] at listed
      cases listed
  | some number =>
    obtain ⟨row, listed, rfl⟩ := List.mem_map.mp (List.max?_mem most)
    obtain ⟨member, about⟩ := List.mem_filter.mp listed
    have below := upTo row member (by simpa using about)
    have above : highest ≤ row.attemptNumber := by
      rcases numbered with rfl | ⟨other, member', about', rfl⟩
      · exact Nat.zero_le _
      · have listed' : other ∈ db.attemptsOf eventId :=
          List.mem_filter.mpr ⟨member', by simpa using about'⟩
        have atMost := List.le_max?_getD_of_mem (k := 0) (List.mem_map_of_mem (f := (·.attemptNumber)) listed')
        rwa [most] at atMost
    exact Nat.le_antisymm below above

/-- The number of the next attempt, while the event is locked. -/
theorem wp_nextAttemptNumber {eventId : Nat} {writes : List Write}
    (locked : (.eventRow eventId, .excl) ∈ locks) :
    svc.wp scope call (Queue.nextAttemptNumber eventId) ⟨db, writes, locks, trace⟩
      (Freely db fun number writes' locks' _ => writes' = writes ∧ locks' = locks ∧ 0 < number ∧
        (∀ row ∈ (db.after writes).attempts, row.eventId = eventId → row.attemptNumber < number) ∧
        (¬ scope.purging → number = (db.after writes).nextAttemptNumber eventId)) := by
  unfold Queue.nextAttemptNumber
  refine wp_execute trivial (fun _ _ => trivial) ?_
  rintro highest lesson rfl known
  have upTo := known (.attemptsUpTo eventId (highest.getD 0)) (by simp) (List.mem_append_left _ locked)
  refine ⟨rfl, by simp, by simp, Nat.succ_pos _, fun row member same => ?_, fun spared => ?_⟩
  · exact Nat.lt_succ_of_le (upTo row member same)
  · have numbered := known (.attemptNumbered eventId (highest.getD 0)) (by simp) spared
    exact (nextAttemptNumber_eq upTo numbered).symm

theorem wp_recordAttempt {eventId number : Nat} {startedAt finishedAt : Time}
    {outcome : AttemptOutcome} {errorClass errorDetail : Option String} {writes : List Write}
    (positive : 0 < number)
    (later : ∀ row ∈ (db.after writes).attempts, row.eventId = eventId → row.attemptNumber < number) :
    svc.wp scope call
      (Queue.recordAttempt eventId number startedAt finishedAt outcome errorClass errorDetail)
      ⟨db, writes, locks, trace⟩
      (Freely db fun _ writes' locks' _ => locks ⊆ locks' ∧ isInteger number = true ∧
        ∃ id, writes' = writes ++ [.insertAttempt
          ⟨⟨eventId, number, startedAt, finishedAt, outcome, errorClass, errorDetail,
            Queue.durationMs startedAt finishedAt⟩, id⟩]) := by
  refine wp_execute_last ⟨positive, later⟩ (fun _ _ => trivial) ?_
  rintro ⟨⟩ lesson ⟨inRange, id, event, rfl⟩ known
  exact ⟨List.subset_append_left .., inRange, id, rfl⟩

/-- The update of the event that the transaction has locked and not yet changed. -/
theorem wp_updateEvent {eventId : Nat} {event : EventRow} {writes : List Write}
    (found : db.event? eventId = some event) (untouched : (db.after writes).events = db.events)
    {values : EventQueue → EventQueue} :
    svc.wp scope call (execute (.updateEvent eventId values)) ⟨db, writes, locks, trace⟩
      (Freely db fun _ writes' locks' _ => locks ⊆ locks' ∧
        writes' = writes ++ [.updateEvent eventId (values event.toEventQueue)]) := by
  have there : (db.after writes).event? eventId = some event := by
    simp only [Db.event?, untouched]
    exact found
  refine wp_execute_last ⟨event, there⟩ (fun _ _ => trivial) ?_
  rintro ⟨⟩ lesson ⟨row, rfl⟩ known
  have seen := known (.event eventId (some row)) (by simp) ⟨.excl, by simp⟩
  obtain rfl : event = row := Option.some.inj (there.symm.trans seen)
  exact ⟨List.subset_append_left .., rfl⟩

theorem Applied.business {strict : Prop} {event : StoredEvent} {effect : Effect}
    {result : EffectResult} {writes : List Write}
    (applied : Applied strict db event effect result writes) :
    ∀ write ∈ writes, write.business = true := by
  have all : ∀ {externalRef row created}, AccountFor db externalRef row created → ∀ {a b : Write},
      a.business = true → b.business = true → ∀ write ∈ created ++ [a, b], write.business = true := by
    intro externalRef row created account a b first second write member
    rcases List.mem_append.mp member with old | new
    · exact account.business write old
    · simp only [List.mem_cons, List.not_mem_nil, or_false] at new
      rcases new with rfl | rfl
      · exact first
      · exact second
  cases applied with
  | credit account first inRange => exact all account rfl rfl
  | creditAgain account again inRange => exact account.business
  | superseded account stale => exact account.business
  | snapshot account first newer moved inRange => exact all account rfl rfl
  | snapshotAgain account newer moved again inRange => exact account.business

theorem dealtWith_successOutcome (result : EffectResult) :
    (successOutcome result).dealtWith = true := by
  cases result <;> rfl

/-- What a transaction of a pass leaves to be said about it. -/
def PassEnds (svc : Service) (scope : Scope) (eventId : Nat) (db : Db) (result : ProcessResult)
    (writes : List Write) (trace : Trace) : Prop :=
  (PassTx svc eventId db writes ∧ Numbered scope.purging db writes) ∧
    (result.effect.isSome → (Fact.dealtWith eventId).holds (db.after writes)) ∧
    (result.outcome = none → trace.unclaimed eventId = true)

theorem numbered_nil {purging : Prop} : Numbered purging db [] := by
  intro _ attempt member
  cases member

theorem wp_apply (good : Wf db) {event : EventRow} {startedAt : Time}
    (found : db.event? event.id = some event) (pending : event.status = .pending)
    (due : event.nextAttemptAt ≤ startedAt) (locked : (.eventRow event.id, .excl) ∈ locks) :
    svc.wp scope call (svc.apply event.toDomain startedAt) ⟨db, [], locks, trace⟩
      (Freely db fun result writes _ trace => PassEnds svc scope event.id db result writes trace) := by
  unfold Service.apply
  refine wp_seq (wp_nextAttemptNumber locked) ?_
  rintro number writes locks₁ trace₁ ⟨rfl, rfl, positive, later, exact'⟩
  refine wp_seq wp_lockEntity ?_
  rintro ⟨⟩ writes locks₂ trace₂ ⟨rfl, more, entity⟩
  refine wp_bind ?_
  cases dispatched : svc.registry.dispatch event.toDomain with
  | error e => exact trivial
  | ok effect =>
    have owned : (svc.regime scope).strict →
        ((svc.regime scope).entity effect.accountRef, .excl) ∈ locks₂ := by
      intro strict
      obtain ⟨account, named⟩ := strict.entity _ _ dispatched
      rw [account] at entity
      rw [named]
      exact entity
    refine wp_seq (wp_applyEffect good owned) ?_
    rintro result business locks₃ trace₃ ⟨more₂, applied⟩
    refine wp_look trivial (fun _ _ => trivial) (fun _ _ taught => taught) fun finishedAt => ?_
    obtain ⟨events, attempts, -, -⟩ := Db.after_business applied.business db
    refine wp_seq (wp_recordAttempt positive (attempts ▸ later)) ?_
    rintro ⟨⟩ _ locks₄ trace₄ ⟨more₃, inRange, id, rfl⟩
    have untouched : (db.after (business ++ [.insertAttempt
        ⟨⟨event.id, number, startedAt, finishedAt, successOutcome result, none, none,
          Queue.durationMs startedAt finishedAt⟩, id⟩])).events = db.events := by
      rw [Db.after_append]
      exact events
    refine wp_seq (wp_updateEvent found untouched) ?_
    rintro ⟨⟩ _ locks₅ trace₅ ⟨more₄, rfl⟩
    refine ⟨rfl, ?_, fun _ => ?_, fun none => by cases none⟩
    · rw [List.append_assoc]
      refine ⟨.dealt (.mk found pending due dispatched applied ⟨rfl, inRange, later⟩ rfl), ?_⟩
      intro spared attempt member
      rcases List.mem_append.mp member with old | new
      · exact absurd (applied.business _ old) (by simp [Write.business])
      · simp only [List.cons_append, List.nil_append, List.mem_cons, Write.insertAttempt.injEq,
          reduceCtorEq, List.not_mem_nil, or_false] at new
        rw [new]
        exact exact' spared
    · rw [Db.after_append, Db.after_append]
      exact ⟨_, List.mem_append_right _ (List.mem_singleton_self _), rfl, dealtWith_successOutcome result⟩

/-! ## The failure transaction -/

theorem wp_nextDelaySeconds {attempt : Nat} {baseSeconds capSeconds : ℚ} {writes : List Write}
    (ceiling : 0 ≤ backoffCeiling attempt baseSeconds capSeconds) :
    svc.wp scope call (nextDelaySeconds attempt baseSeconds capSeconds) ⟨db, writes, locks, trace⟩
      (Freely db fun delay writes' locks' _ => writes' = writes ∧ locks' = locks ∧
        0 ≤ delay ∧ delay ≤ backoffCeiling attempt baseSeconds capSeconds) := by
  unfold nextDelaySeconds
  split
  · exact trivial
  · refine wp_execute_last trivial (fun _ _ => trivial) ?_
    rintro delay lesson ⟨rfl, ⟨draw, positive, atMost⟩, rfl⟩ _
    refine ⟨by simp, by simp, ?_, ?_⟩
    · simpa using mul_nonneg ceiling positive
    · simpa using mul_le_of_le_one_right ceiling atMost

/-- Either the date is off the calendar and the failure transaction raises, or it is that far away. -/
theorem wp_nextAttemptAt {attemptNumber : Nat} {finishedAt : Time} {writes : List Write} :
    svc.wp scope call (svc.nextAttemptAt attemptNumber finishedAt) ⟨db, writes, locks, trace⟩
      (Freely db fun due writes' locks' _ => writes' = writes ∧ locks' = locks ∧
        ∃ delay, due = finishedAt + timedelta delay ∧ 0 ≤ delay ∧ delay ≤
          backoffCeiling attemptNumber svc.settings.backoffBaseSeconds svc.settings.backoffCapSeconds) := by
  refine wp_seq (wp_nextDelaySeconds (backoffCeiling_nonneg svc.settings attemptNumber)) ?_
  rintro delay _ _ trace₁ ⟨rfl, rfl, start, cap⟩
  rcases datetimePlus_cases finishedAt delay with ⟨added, -⟩ | ⟨message, raised⟩
  · rw [added]
    exact ⟨rfl, rfl, rfl, delay, rfl, start, cap⟩
  · rw [raised]
    exact trivial

theorem wp_deadLetter {eventId attemptsMade : Nat} {reason : String} {event : EventRow}
    {writes : List Write} (found : db.event? eventId = some event)
    (untouched : (db.after writes).events = db.events) (entries : (db.after writes).entries = db.entries)
    (locked : (.eventRow eventId, .excl) ∈ locks) :
    svc.wp scope call (Queue.deadLetter eventId attemptsMade reason) ⟨db, writes, locks, trace⟩
      (Freely db fun _ writes' _ _ => ∃ filed, writes' = writes ++ .updateEvent eventId
          { event.toEventQueue with
            status := .deadLettered, attemptCount := attemptsMade, lastError := some reason } :: filed ∧
        ((∃ row ∈ db.entries, row.eventId = eventId) ∧ filed = [] ∨
          (∀ row ∈ db.entries, row.eventId ≠ eventId) ∧ ∃ id at', filed = [.insertEntry
            ⟨⟨.needsReview, none, none⟩, id, eventId, reason, attemptsMade, at'⟩])) := by
  unfold Queue.deadLetter
  refine wp_seq (wp_updateEvent found untouched) ?_
  rintro ⟨⟩ _ locks₁ trace₁ ⟨more, rfl⟩
  have same : (db.after (writes ++ [Write.updateEvent eventId { event.toEventQueue with
      status := .deadLettered, attemptCount := attemptsMade, lastError := some reason }])).entries =
      db.entries := by
    rw [Db.after_append]
    exact entries
  refine wp_execute_last (more locked) (fun _ _ => trivial) ?_
  rintro ⟨⟩ lesson (⟨id, at', row, rfl⟩ | ⟨id, rfl⟩) known
  · have absent := known (.noEntry eventId) (by simp) (by simp [Guarded])
    simp only [Fact.holds, same] at absent
    exact ⟨_, by simp, Or.inr ⟨absent, id, at', rfl⟩⟩
  · have present := known (.entryOf eventId id) (by simp) ⟨.excl, List.mem_append_left _ (more locked)⟩
    simp only [Fact.holds, same] at present
    obtain ⟨row, member, -, named⟩ := present
    exact ⟨[], by simp, Or.inl ⟨⟨row, member, named⟩, rfl⟩⟩

theorem wp_recordFailureOf {event : EventRow} {exc : Exc} {startedAt : Time}
    (found : db.event? event.id = some event) (locked : (.eventRow event.id, .excl) ∈ locks) :
    svc.wp scope call (svc.recordFailureOf event.id event.toDomain exc startedAt)
      ⟨db, [], locks, trace⟩
      (Freely db fun result writes _ trace => PassEnds svc scope event.id db result writes trace) := by
  unfold Service.recordFailureOf
  refine wp_seq (wp_nextAttemptNumber locked) ?_
  rintro number writes locks₁ trace₁ ⟨rfl, rfl, positive, later, exact'⟩
  refine wp_look trivial (fun _ _ => trivial) (fun _ _ taught => taught) fun finishedAt => ?_
  refine wp_seq (wp_recordAttempt positive later) ?_
  rintro ⟨⟩ _ locks₂ trace₂ ⟨more, inRange, id, rfl⟩
  by_cases again : isRetryable exc = true ∧
      ¬ svc.settings.maxAttempts ≤ event.toDomain.attemptCount + 1
  · simp only [if_pos again]
    refine wp_seq wp_nextAttemptAt ?_
    rintro _ _ _ trace₃ ⟨rfl, rfl, delay, rfl, start, cap⟩
    refine wp_seq (wp_updateEvent found rfl) ?_
    rintro ⟨⟩ _ locks₄ trace₄ ⟨more₂, rfl⟩
    refine ⟨rfl, ⟨.failed (.mk found ⟨rfl, inRange, later⟩ ?_ ?_
      (.rescheduled again.1 (Nat.lt_of_not_le again.2) start cap)), ?_⟩, fun none => (by cases none),
      fun none => (by cases none)⟩
    · rfl
    · exact ⟨rfl, rfl⟩
    · intro spared attempt member
      simp only [List.nil_append, List.cons_append, List.mem_cons, Write.insertAttempt.injEq,
        reduceCtorEq, List.not_mem_nil, or_false] at member
      rw [member]
      exact exact' spared
  · simp only [if_neg again]
    refine wp_seq (wp_deadLetter found (by rfl) (by rfl) (more locked)) ?_
    rintro ⟨⟩ _ locks₃ trace₃ ⟨filed, rfl, filing⟩
    have spent : isRetryable exc = true → svc.settings.maxAttempts ≤ event.attemptCount + 1 :=
      fun retryable => Classical.byContradiction fun left => again ⟨retryable, left⟩
    refine ⟨rfl, ⟨.failed (.mk found ⟨rfl, inRange, later⟩ ?_ ?_ (.deadLettered spent filing)), ?_⟩,
      fun none => (by cases none), fun none => (by cases none)⟩
    · rfl
    · exact ⟨rfl, rfl⟩
    · intro spared attempt member
      rcases filing with ⟨-, rfl⟩ | ⟨-, entryId, at', rfl⟩ <;>
      · simp only [List.nil_append, List.cons_append, List.mem_cons, Write.insertAttempt.injEq,
          reduceCtorEq, List.not_mem_nil, or_false] at member
        rw [member]
        exact exact' spared

/-! ## A whole pass -/

/-- What a pass has to say about itself when it ends. -/
def Passed (scope : Scope) (eventId : Nat) : Except Exc ProcessResult → Ctx → Prop
  | r, c => (∃ db trace, c = ⟨db, [], [], trace⟩ ∧ Wf db) ∧ ∀ result, r = .ok result →
    (result.effect.isSome → ¬ scope.purging → (Fact.dealtWith eventId).holds c.db) ∧
      (result.outcome = none → Trace.unclaimed eventId c.trace = true)

theorem Passed.raised {eventId : Nat} {e : Exc} (good : Wf db) :
    Passed scope eventId (.error e) ⟨db, [], [], trace⟩ :=
  ⟨⟨db, trace, rfl, good⟩, fun result done => by cases done⟩

/-- The calls whose transactions are passes over the event. -/
def Passes (svc : Service) (scope : Scope) (call : Call) (eventId : Nat) : Prop :=
  ∀ trace db writes, PassTx svc eventId db writes ∧ Numbered scope.purging db writes →
    Describes svc scope call trace db writes

/-- The end of a pass's transaction. What it dealt with stays dealt with, unless
retention runs. -/
theorem Passed.committed {eventId : Nat} (passes : Passes svc scope call eventId)
    {result : ProcessResult} {writes : List Write}
    (ends : PassEnds svc scope eventId db result writes trace) :
    Describes svc scope call trace db writes ∧ ∃ keep : List Fact,
      (∀ f ∈ keep, Guarded (svc.regime scope) [] f ∧ f.holds (db.after writes)) ∧
      ∀ db, Wf db → (∀ f ∈ keep, f.holds db) →
        Passed scope eventId (.ok result) ⟨db, [], [], trace ++ [.committed writes]⟩ := by
  obtain ⟨described, dealt, unclaimed⟩ := ends
  have later : result.outcome = none →
      Trace.unclaimed eventId (trace ++ [.committed writes]) = true :=
    fun none => Trace.unclaimed_mono (List.subset_append_left _ _) (unclaimed none)
  refine ⟨passes trace db writes described, ?_⟩
  by_cases kept : result.effect.isSome ∧ ¬ scope.purging
  · refine ⟨[.dealtWith eventId], ?_, fun db' good facts => ?_⟩
    · simpa using ⟨kept.2, dealt kept.1⟩
    · refine ⟨⟨db', _, rfl, good⟩, ?_⟩
      rintro _ ⟨⟩
      exact ⟨fun _ _ => facts _ (List.mem_singleton_self _), later⟩
  · refine ⟨[], by simp, fun db' good _ => ⟨⟨db', _, rfl, good⟩, ?_⟩⟩
    rintro _ ⟨⟩
    exact ⟨fun effect spared => absurd ⟨effect, spared⟩ kept, later⟩

theorem wp_attempt (good : Wf db) {eventId : Nat} (passes : Passes svc scope call eventId)
    {startedAt : Time} :
    svc.wp scope call (svc.attempt eventId startedAt) ⟨db, [], [], trace⟩ (Passed scope eventId) := by
  refine wp_sessionScope (X := fun _ _ => True) ?_
    (fun _ _ _ _ ends => Passed.committed passes ends) fun e db trace _ good => Passed.raised good
  refine wp_execute trivial (fun _ _ => trivial) ?_
  intro claimed lesson taught known
  cases claimed with
  | none =>
    cases taught
    exact ⟨rfl, ⟨.idle, numbered_nil⟩, fun none => (by cases none),
      fun _ => by simp [Trace.unclaimed, missed]⟩
  | some event =>
    obtain ⟨row, rfl, rfl, pending, due, rfl⟩ := taught
    have found := known (.event row.id (some row)) (by simp) ⟨.excl, by simp⟩
    exact wp_apply good found pending due (by simp)

theorem wp_recordFailure {eventId : Nat} (passes : Passes svc scope call eventId) {exc : Exc}
    {startedAt : Time} :
    svc.wp scope call (svc.recordFailure eventId exc startedAt) ⟨db, [], [], trace⟩
      (Passed scope eventId) := by
  refine wp_sessionScope (X := fun _ _ => True) ?_
    (fun _ _ _ _ ends => Passed.committed passes ends) fun e db trace _ good => Passed.raised good
  refine wp_execute trivial (fun _ _ => trivial) ?_
  intro loaded lesson taught known
  cases loaded with
  | none =>
    cases taught
    exact ⟨rfl, ⟨.idle, numbered_nil⟩, fun none => (by cases none),
      fun _ => by simp [Trace.unclaimed, missed]⟩
  | some event =>
    obtain ⟨row, rfl, rfl, rfl⟩ := taught
    have found := known (.event row.id (some row)) (by simp) ⟨.excl, by simp⟩
    exact wp_recordFailureOf found (by simp)

/-- Both transactions of `process_event` are passes over the event. -/
theorem wp_processEvent (good : Wf db) {eventId : Nat} (passes : Passes svc scope call eventId) :
    svc.wp scope call (svc.processEvent eventId) ⟨db, [], [], trace⟩ (Passed scope eventId) := by
  unfold Service.processEvent
  refine wp_now (fun e trace _ => Passed.raised good) fun startedAt => ?_
  refine Txn.Discipline.wp_andThen (Txn.Discipline.wp_mono ?_ (wp_attempt good passes))
  rintro r c ⟨⟨db', trace', rfl, good'⟩, done⟩
  cases r with
  | ok result => exact ⟨⟨db', trace', rfl, good'⟩, done⟩
  | error exc =>
    rw [Prog.onError_error]
    split
    · exact wp_recordFailure passes
    · exact Passed.raised good'

end Programs

end WebhookReceiver
