import WebhookReceiver.Answers

/-!
Snapshots that are newer than their account (`ledger.py::_apply_set_balance`).

What the ledger stores is neither the balance of the snapshot nor that of the account
but their difference, and the difference of two `bigint`s need not be one. Exactly
where it is, a newer snapshot is applied (`newer_snapshot_applied_iff`).
-/

namespace WebhookReceiver

/-- The account stands as the snapshot says, and the ledger has the difference. -/
def AppliedAs (effect : SetBalance) (eventId : Nat) (delta : Int) (db : Db) : Prop :=
  (∃ account, db.accountOf? effect.accountRef = some account ∧
    account.balanceMinor = effect.balanceMinor ∧ account.version = effect.sequence) ∧
  ∃ entry, db.ledgerOf? eventId = some entry ∧ entry.amountMinor = delta

theorem appliedAs_of_books {db : Db} {books : Books} {effect : SetBalance} {eventId : Nat} {delta : Int}
    (posted : db.books = books.post eventId effect.accountRef delta ⟨effect.balanceMinor, effect.sequence⟩) :
    AppliedAs effect eventId delta db := by
  constructor
  · have there : db.books.account effect.accountRef = some ⟨effect.balanceMinor, effect.sequence⟩ := by
      rw [posted]
      exact Function.update_self ..
    obtain ⟨account, found, state⟩ := Option.map_eq_some_iff.mp there
    exact ⟨account, found, congrArg (·.balanceMinor) state, congrArg (·.version) state⟩
  · have there : db.books.posted eventId = some (effect.accountRef, delta) := by
      rw [posted]
      exact Function.update_self ..
    obtain ⟨entry, found, rest⟩ := Option.bind_eq_some_iff.mp there
    obtain ⟨account, -, same⟩ := Option.map_eq_some_iff.mp rest
    exact ⟨entry, found, congrArg (·.2) same⟩

/-- A snapshot that has not been applied and is newer than its account, and whose balance
and sequence fit their columns. -/
structure NewerSnapshot (db : Db) (row : EventRow) (effect : SetBalance) (account : AccountRow) : Prop where
  stored : row ∈ db.events
  handled : Balance.handleSnapshot row.toDomain = .ok (.setBalance effect)
  unapplied : ¬ db.hasEffect row.id
  owner : db.accountOf? effect.accountRef = some account
  newer : account.version < effect.sequence
  balance : isBigint effect.balanceMinor = true
  sequence : isBigint effect.sequence = true

namespace NewerSnapshot

variable {db : Db} {row : EventRow} {effect : SetBalance} {account : AccountRow}

theorem state (snapshot : NewerSnapshot db row effect account) :
    db.books.state effect.accountRef = account.toAccountState := by
  simp [Books.state, Db.books, snapshot.owner]

theorem positive (snapshot : NewerSnapshot db row effect account) : 1 ≤ effect.sequence := by
  obtain ⟨_, sequence, -, positive, -, -, same⟩ := Balance.handleSnapshot_ok snapshot.handled
  cases same
  exact positive

theorem difference_fits (snapshot : NewerSnapshot db row effect account) (good : Wf db) {svc : Service}
    {input : Input} {writes : List Write} {db' : Db}
    (ran : svc.solo input (Ledger.applySetBalance row.toDomain effect) [] db = some
      (.ok .applied, writes, db')) :
    isBigint (effect.balanceMinor - account.balanceMinor) = true := by
  have found := event?_of_mem good snapshot.stored
  have answered : svc.solo input (Ledger.applyEffect row.toDomain (.setBalance effect)) [] db =
      some (.ok .applied, writes, db') := ran
  have fits := fits_of_applied good (by exact found) answered
  simp only [Effect.fits, snapshot.state] at fits
  rcases fits with stale | ⟨inRange, -⟩
  · exact absurd snapshot.newer (Int.not_lt.mpr stale)
  · exact inRange

theorem applied (snapshot : NewerSnapshot db row effect account) (good : Wf db) (svc : Service)
    (input : Input) (inRange : isBigint (effect.balanceMinor - account.balanceMinor) = true) :
    ∃ writes db', svc.solo input (Ledger.applySetBalance row.toDomain effect) [] db =
        some (.ok .applied, writes, db') ∧
      AppliedAs effect row.id (effect.balanceMinor - account.balanceMinor) (db'.after writes) := by
  have found := event?_of_mem good snapshot.stored
  have positive := snapshot.positive
  have fits : (Effect.setBalance effect).fits db.books row.toDomain.id row.toDomain.providerSequence := by
    simp only [Effect.fits, snapshot.state]
    exact Or.inr ⟨inRange, Or.inr ⟨snapshot.balance, snapshot.sequence, by omega⟩⟩
  have unposted : ¬ (db.books.posted row.toDomain.id).isSome = true :=
    fun posted => snapshot.unapplied ((books_posted good).mp posted)
  obtain ⟨result, writes, seq, ran, applied⟩ := solo_applyEffect svc input True good found fits
  have books := applied.books good trivial
  rw [Books.process, snapshot.state, if_neg (Int.not_le.mpr snapshot.newer), if_neg unposted] at books
  obtain ⟨rfl, posted⟩ := Prod.mk.inj books
  obtain ⟨seq', same⟩ := after_reseq writes db seq
  have there : ((db.reseq seq).after writes).books = db.books.post row.id effect.accountRef
      (effect.balanceMinor - account.balanceMinor) ⟨effect.balanceMinor, effect.sequence⟩ := by
    rw [same]
    exact posted
  exact ⟨writes, db.reseq seq, ran, appliedAs_of_books there⟩

end NewerSnapshot

/-- On a reachable store, a newer snapshot is applied exactly if the difference to the
balance of its account fits the ledger. -/
theorem newer_snapshot_applied_iff (svc : Service) {w : World}
    (reached : svc.Reaches .any (.init Db.empty) w) {row : EventRow} {effect : SetBalance}
    {account : AccountRow} (snapshot : NewerSnapshot w.db row effect account) (input : Input) :
    (∃ writes db, svc.solo input (Ledger.applySetBalance row.toDomain effect) [] w.db =
        some (.ok .applied, writes, db) ∧
      AppliedAs effect row.id (effect.balanceMinor - account.balanceMinor) (db.after writes)) ↔
    isBigint (effect.balanceMinor - account.balanceMinor) = true := by
  obtain ⟨good, -⟩ := reaches_history wf_empty reached
  constructor
  · rintro ⟨writes, db, ran, -⟩
    exact snapshot.difference_fits good ran
  · exact snapshot.applied good svc input

/-! ## An overdrawn account -/

/-- A debit of one, and then a snapshot. -/
private def overdrawn (balance : Int) : List Action :=
  Sample.store 0 (Sample.event "d" Balance.debited "amount" 1 1) ++ .spawn 1 (.process 1) ::
    Sample.steps 1 12 ++ Sample.store 2 (Sample.snapshot "s" balance 2)

private def overdraft : AccountRow := ⟨⟨-1, 1⟩, 1, "A"⟩

private def awaits (balance : Int) (w : World) : Bool :=
  w.db.accountOf? "A" = some overdraft && (w.db.ledger.all fun entry => entry.eventId ≠ 2) &&
    w.db.events.any fun row => row.id = 2 &&
      (Balance.handleSnapshot row.toDomain).toOption = some (.setBalance ⟨"A", balance, 2⟩)

private theorem overdrawn_awaits (balance : Int) (inRange : isBigint balance = true)
    (passed : (Sample.service.runFrom (.init Db.empty) (overdrawn balance)).any (awaits balance) = true) :
    ∃ w, Sample.service.Reaches .any (.init Db.empty) w ∧
      ∃ row, NewerSnapshot w.db row ⟨"A", balance, 2⟩ overdraft := by
  obtain ⟨w, reached, shown⟩ := Sample.service.reaches_test .any (.init Db.empty) (overdrawn balance)
    (awaits balance) (fun action _ => Scope.any_permits action) passed
  simp only [awaits, Bool.and_eq_true, decide_eq_true_eq, List.all_eq_true, List.any_eq_true] at shown
  obtain ⟨⟨owner, unapplied⟩, row, stored, named, handled⟩ := shown
  refine ⟨w, reached, row, stored, ?_, ?_, owner, by norm_num [overdraft], inRange, by norm_num [isBigint]⟩
  · cases known : Balance.handleSnapshot row.toDomain with
    | error e =>
      rw [known] at handled
      cases handled
    | ok effect =>
      rw [known] at handled
      cases handled
      rfl
  · rintro ⟨entry, member, about⟩
    exact unapplied entry member (about.trans named)

/-- From a balance of minus one, the greatest balance but one is still reached. -/
theorem newer_snapshot_applied_sample : ∃ w row,
    Sample.service.Reaches .any (.init Db.empty) w ∧ row ∈ w.db.events ∧
    ∃ writes db, Sample.service.solo (Sample.clock 0)
        (Ledger.applySetBalance row.toDomain ⟨"A", 2 ^ 63 - 2, 2⟩) [] w.db = some (.ok .applied, writes, db) ∧
      AppliedAs ⟨"A", 2 ^ 63 - 2, 2⟩ row.id (2 ^ 63 - 1) (db.after writes) := by
  obtain ⟨w, reached, row, snapshot⟩ := overdrawn_awaits (2 ^ 63 - 2) (by decide) (by decide +kernel)
  have applied := newer_snapshot_applied_iff Sample.service reached snapshot (Sample.clock 0)
  exact ⟨w, row, reached, snapshot.stored, applied.mpr (by decide)⟩

/-- From a balance of minus one, the greatest balance there is is never reached. -/
theorem snapshot_beyond_difference : ∃ w row,
    Sample.service.Reaches .any (.init Db.empty) w ∧
    NewerSnapshot w.db row ⟨"A", 2 ^ 63 - 1, 2⟩ overdraft ∧ isBigint overdraft.balanceMinor = true ∧
    ∀ input writes db, Sample.service.solo input
      (Ledger.applySetBalance row.toDomain ⟨"A", 2 ^ 63 - 1, 2⟩) [] w.db ≠ some (.ok .applied, writes, db) := by
  obtain ⟨w, reached, row, snapshot⟩ := overdrawn_awaits (2 ^ 63 - 1) (by decide) (by decide +kernel)
  obtain ⟨good, -⟩ := reaches_history wf_empty reached
  refine ⟨w, row, reached, snapshot, by decide, fun input writes db ran => ?_⟩
  have fits := snapshot.difference_fits good ran
  exact absurd fits (by decide)

end WebhookReceiver
