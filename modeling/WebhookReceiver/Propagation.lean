import WebhookReceiver.Txn.Piece
import WebhookReceiver.Txn.Recovery
import WebhookReceiver.Services

/-!
Where a failure goes.

No statement of a transaction has its failure handled inside the transaction, but for
the entity lock, which renames a timeout. So a failure ends the transaction it strikes,
and in the processing transaction of a pass it goes to `_record_failure`
(`recovers_process`, `recovers_replay`).
-/

namespace WebhookReceiver

open Txn (Prog)

/-- The exceptions that `is_retryable` recognises. -/
def Retryable (exc : Exc) : Prop := isRetryable exc = true

section Pieces

variable {P : Stmt → Prop} {T : Exc → Prop}

/-- All that the entity lock raises of its own is its new name for a timeout. -/
theorem piece_lockEntity (key : String → String → Int) (entityType entityId : String) (timeout : Seconds)
    (limits : ∀ limit, P (.setLockTimeout limit)) (locks : ∀ id, P (.advisoryXactLock id))
    (renamed : ∀ message, T (lockContentionError message)) :
    (lockEntity key entityType entityId timeout).Piece P T := by
  refine Prog.piece_bind (Prog.piece_perform (limits _)) fun _ => ?_
  refine Prog.piece_andThen (Prog.piece_perform (locks _)) (fun _ => Prog.piece_pure _) fun e known => ?_
  rw [Prog.onError_error]
  split
  · exact Prog.piece_throw (renamed _)
  · exact Prog.piece_throw known

theorem piece_accountId (externalRef : String) (inserts : P (.insertAccount externalRef))
    (looks : P (.accountIdOf externalRef)) : (Ledger.accountId externalRef).Piece P T := by
  refine Prog.piece_bind (Prog.piece_perform inserts) fun inserted => ?_
  cases inserted with
  | some id => exact Prog.piece_pure id
  | none => exact Prog.piece_perform looks

end Pieces

/-! ## Pieces of transactions -/

theorem throws_execute (s : Stmt) : (execute s).Throws Retryable := Prog.throws_perform s

theorem throws_nextAttemptNumber (eventId : Nat) : (Queue.nextAttemptNumber eventId).Throws Retryable :=
  Prog.throws_bind (throws_execute _) fun _ => trivial

theorem throws_lockEntity (key : String → String → Int) (entityType entityId : String)
    (timeout : Seconds) : (lockEntity key entityType entityId timeout).Throws Retryable := by
  refine Prog.throws_bind (throws_execute _) fun _ => Prog.throws_tryCatch (throws_execute _) ?_ ?_
  · intro e failed
    split
    · exact ⟨_, rfl, rfl⟩
    · exact ⟨e, rfl, failed⟩
  · intro e
    split <;> exact trivial

theorem throws_accountId (externalRef : String) : (Ledger.accountId externalRef).Throws Retryable := by
  refine Prog.throws_bind (throws_execute _) fun inserted => ?_
  cases inserted with
  | none => exact throws_execute _
  | some id => exact trivial

theorem throws_claimLedgerRow (accountId eventId : Nat) (amountMinor : Int) :
    (Ledger.claimLedgerRow accountId eventId amountMinor).Throws Retryable :=
  Prog.throws_bind (throws_execute _) fun _ => trivial

theorem throws_applyEffect (event : StoredEvent) (effect : Effect) :
    (Ledger.applyEffect event effect).Throws Retryable := by
  have posted : ∀ (account : Nat) (amount given : Int) (values : AccountState → AccountState),
    Prog.Throws Retryable
      (do if !(← Ledger.claimLedgerRow account event.id amount) then return .alreadyApplied
          execute (.updateAccount account given values)
          return EffectResult.applied : Program EffectResult) := by
    intro account amount given values
    refine Prog.throws_bind (throws_claimLedgerRow _ _ _) fun fresh => ?_
    cases fresh with
    | false => exact trivial
    | true => exact Prog.throws_bind (throws_execute _) fun _ => trivial
  cases effect with
  | credit effect => exact Prog.throws_bind (throws_accountId _) fun account => posted _ _ _ _
  | setBalance effect =>
    refine Prog.throws_bind (throws_accountId _) fun account => ?_
    refine Prog.throws_bind (throws_execute _) fun current => ?_
    dsimp only
    split
    · exact trivial
    · exact posted _ _ _ _

theorem throws_nextDelaySeconds (attempt : Nat) (baseSeconds capSeconds : ℚ) :
    (nextDelaySeconds attempt baseSeconds capSeconds).Throws Retryable := by
  unfold nextDelaySeconds
  split
  · exact trivial
  · exact throws_execute _

theorem throws_deadLetter (eventId attemptsMade : Nat) (reason : String) :
    (Queue.deadLetter eventId attemptsMade reason).Throws Retryable :=
  Prog.throws_bind (throws_execute _) fun _ => throws_execute _

theorem throws_transition (entryId : Nat) (target : DlqStatus) (now : Time) (note : Option String) :
    (Dlq.transition entryId target now note).Throws Retryable := by
  refine Prog.throws_bind (throws_execute _) fun current => ?_
  refine Prog.throws_bind (Prog.throws_ofExcept _) fun _ => ?_
  refine Prog.throws_bind (throws_execute _) fun _ => Prog.throws_bind (throws_execute _) fun entry => ?_
  cases entry <;> exact trivial

variable (svc : Service)

theorem throws_nextAttemptAt (attemptNumber : Nat) (finishedAt : Time) :
    (svc.nextAttemptAt attemptNumber finishedAt).Throws Retryable :=
  Prog.throws_bind (throws_nextDelaySeconds _ _ _) fun _ => Prog.throws_ofExcept _

theorem throws_apply (event : StoredEvent) (startedAt : Time) :
    (svc.apply event startedAt).Throws Retryable := by
  refine Prog.throws_bind (throws_nextAttemptNumber _) fun number => ?_
  refine Prog.throws_bind (throws_lockEntity _ _ _ _) fun _ => ?_
  refine Prog.throws_bind (Prog.throws_ofExcept _) fun effect => ?_
  refine Prog.throws_bind (throws_applyEffect _ _) fun result => ?_
  refine Prog.throws_bind (throws_execute _) fun finishedAt => ?_
  exact Prog.throws_bind (throws_execute _) fun _ => Prog.throws_bind (throws_execute _) fun _ => trivial

theorem throws_recordFailureOf (eventId : Nat) (event : StoredEvent) (exc : Exc) (startedAt : Time) :
    (svc.recordFailureOf eventId event exc startedAt).Throws Retryable := by
  refine Prog.throws_bind (throws_nextAttemptNumber _) fun number => ?_
  refine Prog.throws_bind (throws_execute _) fun finishedAt => ?_
  refine Prog.throws_bind (throws_execute _) fun _ => ?_
  dsimp only
  split
  · refine Prog.throws_bind (throws_nextAttemptAt svc _ _) fun due => ?_
    exact Prog.throws_bind (throws_execute _) fun _ => trivial
  · exact Prog.throws_bind (throws_deadLetter _ _ _) fun _ => trivial

theorem throws_markDlqReplaying (eventId : Nat) (now : Time) :
    (markDlqReplaying eventId now).Throws Retryable := by
  refine Prog.throws_bind (throws_execute _) fun entry => ?_
  cases entry with
  | none => exact trivial
  | some entry =>
    dsimp only
    split
    · exact trivial
    · exact Prog.throws_bind (throws_transition _ _ _ _) fun _ => trivial

theorem throws_settleDlq (eventId : Nat) (outcome : ReplayOutcome) (now : Time) :
    (settleDlq eventId outcome now).Throws Retryable := by
  refine Prog.throws_bind (throws_execute _) fun entry => ?_
  cases entry with
  | none => exact trivial
  | some entry =>
    dsimp only
    split
    · exact trivial
    · split <;> exact Prog.throws_bind (throws_transition _ _ _ _) fun _ => trivial

/-! ## Whole calls -/

/-- The statement records no attempt but one of a failure to be tried again. -/
def Stmt.retries : Stmt → Prop
  | .insertAttempt attempt => attempt.outcome = .retryableError
  | _ => True

/-- The statements on dead-letter entries. -/
def Stmt.onEntry : Stmt → Prop
  | .entryForEvent _ | .getEntry _ | .entryStatusForUpdate _ | .updateEntry .. => True
  | _ => False

/-- The statements of a failure transaction: its attempt has this outcome, and its event
has used an attempt. -/
def Stmt.ofFailure (outcome : AttemptOutcome) : Stmt → Prop
  | .insertAttempt attempt => attempt.outcome = outcome
  | .updateEvent _ values => ∀ queue, (values queue).attemptCount ≠ 0
  | .insertReplayRequest _ => False
  | _ => True

theorem retries_of_onEntry {s : Stmt} (entry : s.onEntry) : s.retries := by
  cases s with
  | insertAttempt attempt => exact entry.elim
  | _ => exact trivial

theorem retries_of_ofFailure {s : Stmt} (failure : s.ofFailure .retryableError) : s.retries := by
  cases s with
  | insertAttempt attempt => exact failure
  | _ => exact trivial

theorem only_sessionScope {α : Type} {P : Stmt → Prop} {body : Program α} (only : body.Only P) :
    (sessionScope body).Only P := by
  refine Prog.only_andThen only fun result => ?_
  cases result with
  | ok value =>
    intro told
    cases told <;> exact trivial
  | error e =>
    intro told
    cases told <;> exact trivial

/-- A failure in a transaction has it rolled back and goes to what follows. -/
theorem recovers_sessionScope {α β : Type} {P : Stmt → Prop} {Q : Except Exc β → Prop} {body : Program α}
    {next : Except Exc α → Program β} (throws : body.Throws Retryable)
    (raised : ∀ e, Retryable e → (next (.error e)).Within Retryable P Q)
    (goesOn : ∀ r, (next r).Recovers Retryable P Q) :
    ((sessionScope body).andThen next).Recovers Retryable P Q := by
  rw [sessionScope, Prog.andThen_assoc]
  refine Prog.recovers_piece throws (fun e failed => ⟨rfl, fun told mild => ?_⟩) fun r => ?_
  · cases told with
    | ok done => exact raised e failed
    | error e' => exact raised e' (mild e' rfl)
  · cases r with
    | ok value =>
      refine ⟨raised, fun told => ?_⟩
      cases told <;> exact goesOn _
    | error e =>
      refine ⟨raised, fun told => ?_⟩
      cases told <;> exact goesOn _

theorem only_transition (entryId : Nat) (target : DlqStatus) (now : Time) (note : Option String) :
    (Dlq.transition entryId target now note).Only Stmt.onEntry := by
  refine Prog.only_bind (Prog.only_perform trivial) fun current => ?_
  refine Prog.only_bind trivial fun _ => ?_
  refine Prog.only_bind (Prog.only_perform trivial) fun _ => ?_
  refine Prog.only_bind (Prog.only_perform trivial) fun entry => ?_
  cases entry <;> exact trivial

theorem only_settleDlq (eventId : Nat) (outcome : ReplayOutcome) (now : Time) :
    (settleDlq eventId outcome now).Only Stmt.onEntry := by
  refine Prog.only_bind (Prog.only_perform trivial) fun entry => ?_
  cases entry with
  | none => exact trivial
  | some entry =>
    dsimp only
    split
    · exact trivial
    · split <;> exact Prog.only_bind (only_transition _ _ _ _) fun _ => trivial

theorem only_finishReplay (eventId : Nat) (requestedBy : String) (reason : Option String) (now : Time)
    (outcome : ReplayOutcome) :
    (finishReplay eventId requestedBy reason now outcome).Only Stmt.retries := by
  refine only_sessionScope (Prog.only_bind (Prog.only_perform trivial) fun resulting => ?_)
  refine Prog.only_bind (Prog.only_perform trivial) fun _ => ?_
  refine Prog.only_bind (Prog.only_perform trivial) fun settledAt => ?_
  exact (only_settleDlq _ _ _).mono fun _ => retries_of_onEntry

/-- The date of a retry takes a draw only. -/
theorem only_nextAttemptAt {P : Stmt → Prop} (drawn : ∀ low high, P (.uniform low high))
    (attemptNumber : Nat) (finishedAt : Time) : (svc.nextAttemptAt attemptNumber finishedAt).Only P := by
  refine Prog.only_bind ?_ fun delay => trivial
  unfold nextDelaySeconds
  split
  · exact trivial
  · exact Prog.only_perform (drawn _ _)

/-- A failure transaction records what `is_retryable` makes of the failure. -/
theorem only_recordFailure (eventId : Nat) {exc : Exc} {outcome : AttemptOutcome}
    (judged : (if isRetryable exc then .retryableError else .nonRetryableError) = outcome) (startedAt : Time) :
    (svc.recordFailure eventId exc startedAt).Only (Stmt.ofFailure outcome) := by
  refine only_sessionScope (Prog.only_bind (Prog.only_perform trivial) fun event => ?_)
  cases event with
  | none => exact trivial
  | some event =>
    refine Prog.only_bind (Prog.only_bind (Prog.only_perform trivial) fun _ => trivial) fun number => ?_
    refine Prog.only_bind (Prog.only_perform trivial) fun finishedAt => ?_
    refine Prog.only_bind (Prog.only_perform judged) fun _ => ?_
    dsimp only
    split
    · refine Prog.only_bind (only_nextAttemptAt svc (fun _ _ => trivial) _ _) fun due => ?_
      exact Prog.only_bind (Prog.only_perform fun _ => Nat.succ_ne_zero _) fun _ => trivial
    · refine Prog.only_bind (Prog.only_bind ?_ fun _ => ?_) fun _ => trivial
      · exact Prog.only_perform fun _ => Nat.succ_ne_zero _
      · exact Prog.only_perform trivial

theorem isException_of_retryable {exc : Exc} (retryable : Retryable exc) : exc.isException = true := by
  obtain ⟨cls, message, kind⟩ := exc
  cases kind with
  | cancelled => cases retryable
  | _ => rfl

/-- A pass, and what is done with its result: nothing of the pass is handled but by
`_record_failure`. -/
theorem recovers_processEvent {β : Type} (eventId : Nat) {next : Except Exc ProcessResult → Program β}
    (after : ∀ r, (next r).Only Stmt.retries) (raises : ∀ e, (next (.error e)).rollsBack = true)
    (goesOn : ∀ r, (next r).Recovers Retryable Stmt.retries fun _ => True) :
    ((svc.processEvent eventId).andThen next).Recovers Retryable Stmt.retries fun _ => True := by
  unfold Service.processEvent
  rw [Prog.bind_eq, Prog.andThen_assoc]
  refine Prog.recovers_piece (throws_execute _) (fun e _ => ⟨raises e, (after _).within⟩) fun started => ?_
  cases started with
  | error e => exact goesOn _
  | ok startedAt =>
    rw [Prog.onValue_ok, Prog.tryCatch_eq, Prog.andThen_assoc, Service.attempt]
    refine recovers_sessionScope ?_ (fun e failed => ?_) fun r => ?_
    · refine Prog.throws_bind (throws_execute _) fun event => ?_
      cases event with
      | none => exact trivial
      | some event => exact throws_apply svc _ _
    · rw [Prog.onError_error, if_pos (isException_of_retryable failed)]
      have retried := (only_recordFailure svc eventId (if_pos failed) startedAt).mono fun _ =>
        retries_of_ofFailure
      exact (Prog.only_andThen retried after).within
    · cases r with
      | ok result => exact goesOn _
      | error e =>
        rw [Prog.onError_error]
        split
        · rw [Service.recordFailure]
          refine recovers_sessionScope ?_ (fun e' _ => (after _).within) goesOn
          refine Prog.throws_bind (throws_execute _) fun event => ?_
          cases event with
          | none => exact trivial
          | some event => exact throws_recordFailureOf svc _ _ _ _
        · exact goesOn _

theorem recovers_process (eventId : Nat) :
    (svc.program (.process eventId)).Recovers Retryable Stmt.retries fun _ => True := by
  refine recovers_processEvent svc eventId ?_ (fun _ => rfl) ?_ <;>
  · intro r
    cases r <;> exact trivial

theorem recovers_replay (eventId : Nat) (requestedBy : String) (reason : Option String) :
    (svc.program (.replay eventId requestedBy reason)).Recovers Retryable Stmt.retries fun _ => True := by
  show ((svc.replayEvent eventId requestedBy reason).andThen _).Recovers _ _ _
  unfold Service.replayEvent
  rw [Prog.bind_eq, Prog.andThen_assoc]
  refine Prog.recovers_piece (throws_execute _) (fun e _ => ⟨rfl, trivial⟩) fun began => ?_
  cases began with
  | error e => exact trivial
  | ok now =>
    rw [Prog.onValue_ok, Prog.bind_eq, Prog.andThen_assoc, startReplay]
    refine recovers_sessionScope ?_ (fun _ _ => trivial) fun started => ?_
    · refine Prog.throws_bind (throws_execute _) fun event => ?_
      cases event with
      | none => exact trivial
      | some event => exact Prog.throws_bind (throws_execute _) fun _ => throws_markDlqReplaying _ _
    · cases started with
      | error e => exact trivial
      | ok done =>
        rw [Prog.onValue_ok, Prog.bind_eq, Prog.andThen_assoc]
        refine recovers_processEvent svc eventId (fun r => ?_) (fun _ => rfl) fun r => ?_
        · cases r with
          | error e => exact trivial
          | ok result =>
            rw [Prog.onValue_ok, Prog.bind_eq, Prog.andThen_assoc]
            refine Prog.only_andThen (only_finishReplay _ _ _ _ _) fun finished => ?_
            cases finished <;> exact trivial
        · cases r with
          | error e => exact trivial
          | ok result =>
            rw [Prog.onValue_ok, Prog.bind_eq, Prog.andThen_assoc, finishReplay]
            refine recovers_sessionScope ?_ (fun _ _ => trivial) fun finished => ?_
            · refine Prog.throws_bind (throws_execute _) fun resulting => ?_
              refine Prog.throws_bind (throws_execute _) fun _ => ?_
              exact Prog.throws_bind (throws_execute _) fun settledAt => throws_settleDlq _ _ _
            · cases finished <;> exact trivial

end WebhookReceiver
