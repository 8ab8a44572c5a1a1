import WebhookReceiver.Books

/-!
Every balance is the sum of its ledger entries (`v_account_reconciliation`).

A credit adds what it posts. A snapshot sets the balance and posts the difference to
the balance it read, which is the balance it replaces because the entity is locked.
Ledger entries are only ever added.
-/

namespace WebhookReceiver

/-- What the ledger says an account holds. -/
def Db.posted (db : Db) (accountId : Nat) : Int :=
  ((db.ledger.filter fun entry => entry.accountId = accountId).map (·.amountMinor)).sum

/-- Every account holds what its ledger entries sum up to. -/
def Reconciled (db : Db) : Prop :=
  ∀ account ∈ db.accounts, account.balanceMinor = db.posted account.id

theorem reconciled_congr {db db' : Db} (accounts : db'.accounts = db.accounts)
    (ledger : db'.ledger = db.ledger) (reconciled : Reconciled db) : Reconciled db' := by
  intro account member
  rw [accounts] at member
  rw [reconciled account member]
  simp only [Db.posted, ledger]

theorem posted_insertLedger (db : Db) (entry : LedgerEntry) (accountId : Nat) :
    ((Write.insertLedger entry).apply db).posted accountId =
      db.posted accountId + if entry.accountId = accountId then entry.amountMinor else 0 := by
  simp only [Db.posted, Write.apply, List.filter_append, List.map_append, List.sum_append]
  by_cases same : entry.accountId = accountId <;> simp [same]

/-- An account that nobody has posted to yet. -/
theorem posted_fresh {db : Db} (good : Wf db) {id : Nat} (fresh : ∀ row ∈ db.accounts, row.id ≠ id) :
    db.posted id = 0 := by
  have none : (db.ledger.filter fun entry => entry.accountId = id) = [] := by
    rw [List.filter_eq_nil_iff]
    intro entry member
    obtain ⟨account, known, owner⟩ := good.ledgerAccount entry member
    have differ := fresh account known
    rw [owner] at differ
    simpa using differ
  simp [Db.posted, none]

theorem AccountFor.reconciled {db : Db} {externalRef : String} {row : AccountRow} {created : List Write}
    (account : AccountFor db externalRef row created) (good : Wf db) (reconciled : Reconciled db) :
    Reconciled (db.after created) := by
  cases account with
  | existing member named => exact reconciled
  | @created id absent fresh =>
    intro other member
    simp only [Db.after_cons, Db.after_nil, Write.apply, List.mem_append, List.mem_singleton] at member
    rcases member with old | rfl
    · exact reconciled other old
    · exact (posted_fresh good fresh).symm

/-- A posting together with the same change of the balance. -/
theorem reconciled_post {db : Db} {row : AccountRow} {id eventId : Nat} {amount : Int}
    {state : AccountState} (only : ∀ other ∈ db.accounts, other.id = row.id → other = row)
    (change : state.balanceMinor = row.balanceMinor + amount) (reconciled : Reconciled db) :
    Reconciled (db.after [.insertLedger ⟨id, row.id, eventId, amount⟩, .updateAccount row.id state]) := by
  intro account member
  simp only [Db.after_cons, Db.after_nil, Write.apply] at member
  obtain ⟨old, known, rfl⟩ := List.mem_map.mp member
  have before := reconciled old known
  have total : ∀ accountId, (db.after [.insertLedger ⟨id, row.id, eventId, amount⟩,
      .updateAccount row.id state]).posted accountId =
      db.posted accountId + if row.id = accountId then amount else 0 :=
    posted_insertLedger db ⟨id, row.id, eventId, amount⟩
  by_cases hit : old.id = row.id
  · have same := only old known hit
    subst same
    rw [if_pos rfl, total]
    simp only [if_true]
    rw [change, before]
  · have other : row.id ≠ old.id := fun same => hit same.symm
    rw [if_neg hit, total, if_neg other, before]
    omega

theorem Applied.reconciled {strict : Prop} {db : Db} {event : StoredEvent} {effect : Effect}
    {result : EffectResult} {writes : List Write} (good : Wf db) (owned : strict)
    (applied : Applied strict db event effect result writes) (reconciled : Reconciled db) :
    Reconciled (db.after writes) := by
  cases applied with
  | credit account first inRange =>
    rw [Db.after_append]
    exact reconciled_post (fun _ member => account.only good member) rfl (account.reconciled good reconciled)
  | creditAgain account again inRange => exact account.reconciled good reconciled
  | superseded account stale => exact account.reconciled good reconciled
  | snapshot account first newer moved inRange =>
    rw [Db.after_append]
    refine reconciled_post (fun _ member => account.only good member) ?_ (account.reconciled good reconciled)
    have difference := moved owned
    simp only
    omega
  | snapshotAgain account newer moved again inRange => exact account.reconciled good reconciled

theorem reconciled_clerical {db : Db} {writes : List Write}
    (clerical : ∀ write ∈ writes, write.business = false) (reconciled : Reconciled db) :
    Reconciled (db.after writes) := by
  obtain ⟨accounts, ledger⟩ := Db.after_clerical clerical db
  exact reconciled_congr accounts ledger reconciled

/-- What a committed transaction leaves reconciled. -/
theorem Committed.reconciled {svc : Service} {scope : Scope} {call : Call} {trace : Trace} {db : Db}
    {writes : List Write} (strict : svc.registry.OwnsEntity) (good : Wf db)
    (committed : Committed svc scope call trace db writes) (reconciled : Reconciled db) :
    Reconciled (db.after writes) := by
  rcases committed.money with clerical | ⟨eventId, result, passing, dealt⟩
  · exact reconciled_clerical clerical reconciled
  · cases dealt with
    | mk found pending due dispatched applied next outcome =>
      rw [Db.after_append]
      exact reconciled_clerical (by simp [Write.business]) (applied.reconciled good strict reconciled)

theorem Service.History.reconciled {svc : Service} {scope : Scope} {start last : Db} {log : List Commit}
    (strict : svc.registry.OwnsEntity) (past : svc.History scope start last log)
    (reconciled : Reconciled start) : Reconciled last :=
  past.keeps reconciled (fun _ earlier => reconciled_congr rfl rfl earlier)
    (fun _ _ earlier => reconciled_congr rfl rfl earlier)
    (fun _ _ good _ committed earlier => committed.reconciled strict good earlier)

/-! ## The ledger only grows -/

theorem ledger_apply (write : Write) (db : Db) : db.ledger <+: (write.apply db).ledger := by
  cases write with
  | insertLedger row => exact List.prefix_append _ _
  | _ => exact List.prefix_rfl

theorem ledger_after (writes : List Write) (db : Db) : db.ledger <+: (db.after writes).ledger := by
  induction writes generalizing db with
  | nil => exact List.prefix_rfl
  | cons write rest ih => exact (ledger_apply write db).trans (ih _)

theorem Service.History.ledger {svc : Service} {scope : Scope} {start last : Db} {log : List Commit}
    (past : svc.History scope start last log) : start.ledger <+: last.ledger := by
  refine past.keeps (P := fun db => start.ledger <+: db.ledger) List.prefix_rfl ?_ ?_ ?_
  · exact fun _ earlier => earlier
  · exact fun _ _ earlier => earlier
  · exact fun entry _ _ _ _ earlier => earlier.trans (ledger_after entry.writes entry.before)

/-- In every reachable state the books balance: each account holds the sum of its
ledger entries, no event has two entries, and no entry is ever changed or removed. -/
theorem balances_reconcile (svc : Service) (shipped : svc.registry = Balance.registry) {w w' : World}
    (reached : svc.Reaches .any (.init Db.empty) w) (later : svc.Reaches .any w w') :
    (∀ account ∈ w.db.accounts, account.balanceMinor =
      ((w.db.ledger.filter fun entry => entry.accountId = account.id).map (·.amountMinor)).sum) ∧
    (∀ eventId, (w.db.ledger.filter fun entry => entry.eventId = eventId).length ≤ 1) ∧
    ∀ entry ∈ w.db.ledger, entry ∈ w'.db.ledger := by
  have strict : svc.registry.OwnsEntity := shipped ▸ Balance.registry_ownsEntity
  obtain ⟨good, past⟩ := reaches_history wf_empty reached
  obtain ⟨log, -, onward⟩ := reaches_stretch wf_empty reached later
  have balanced : Reconciled w.db := past.reconciled strict (by simp [Reconciled, Db.empty])
  refine ⟨balanced, fun eventId => ?_, fun entry member => onward.ledger.subset member⟩
  have unique : ((w.db.ledger.filter fun entry => entry.eventId = eventId).map (·.eventId)).Nodup :=
    nodup_map_filter good.ledgerEvents
  have alike : ∀ event ∈ (w.db.ledger.filter fun entry => entry.eventId = eventId).map (·.eventId),
      event = eventId := by
    intro event member
    obtain ⟨entry, known, rfl⟩ := List.mem_map.mp member
    simpa using (List.mem_filter.mp known).2
  rw [← List.length_map (·.eventId)]
  rw [List.eq_replicate_iff.mpr ⟨rfl, alike⟩] at unique
  exact List.nodup_replicate.mp unique

/-- Two workers, one of which gives up on its first try, process a credit and a
snapshot that moves the balance from 100 to 500. -/
theorem balances_reconcile_sample : ∃ w, Sample.service.Reaches .any (.init Db.empty) w ∧
    w.db.accounts.map (·.balanceMinor) = [500] ∧ w.db.ledger.map (·.amountMinor) = [100, 400] ∧
    ∀ account ∈ w.db.accounts, account.balanceMinor =
      ((w.db.ledger.filter fun entry => entry.accountId = account.id).map (·.amountMinor)).sum := by
  let schedule : List Action :=
    Sample.store 0 (Sample.credit "c" 100 1) ++ Sample.store 1 (Sample.snapshot "s" 500 2) ++
    .spawn 2 (.process 1) :: .spawn 3 (.process 2) :: Sample.steps 3 2 ++ Sample.steps 2 4 ++
    .fault 3 (integrityError "55P03" "") :: Sample.steps 2 8 ++ Sample.steps 3 8 ++
    .spawn 4 (.process 2) :: Sample.steps 4 14
  obtain ⟨w, reached, shown⟩ := Sample.service.reaches_test .any (.init Db.empty) schedule
    (fun w => w.db.accounts.map (·.balanceMinor) = [500] ∧ w.db.ledger.map (·.amountMinor) = [100, 400])
    (fun action _ => Scope.any_permits action) (by decide +kernel)
  simp only [decide_eq_true_eq] at shown
  exact ⟨w, reached, shown.1, shown.2, (balances_reconcile Sample.service rfl reached .start).1⟩

end WebhookReceiver
