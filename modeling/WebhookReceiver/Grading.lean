import Mathlib.Data.List.Dedup
import WebhookReceiver.Retention
import WebhookReceiver.Views

/-!
The grader of the load test (`scripts/verify_load.py`).

It waits until the queue is drained and then asks the database whether duplicates were
absorbed, every event was applied once, the balances agree with the ledger, and each
balance is the amount of one event times the events of its account. On a store that the
service has come to, where every event credits that amount, the grader passes exactly
if every event has succeeded (`verifyLoad_passes_iff`): it never cries wolf, and nothing
that is left undone gets past it.
-/

namespace WebhookReceiver

/-! ## The checks -/

/-- `verify_load.py::Check`. -/
structure Check where
  name : String
  passed : Bool
  detail : String

/-- A row of the last query. -/
structure WrongBalance where
  externalRef : String
  balanceMinor : Int
  expected : Int

/-- `dict(row)`, as an f-string writes it. -/
def WrongBalance.repr (row : WrongBalance) : String :=
  "\x7b'external_ref': " ++ pyRepr row.externalRef ++ ", 'balance_minor': " ++ toString row.balanceMinor ++
    ", 'expected': " ++ toString row.expected ++ "\x7d"

/-- The events of an account, as the join finds them. -/
def Db.eventsOn (db : Db) (externalRef : String) : List EventRow :=
  db.events.filter fun event => event.entityId = externalRef

/-- The accounts that have events, each with what its events should come to. -/
def Db.expectations (db : Db) (amount : Int) : List WrongBalance :=
  (db.accounts.filter fun account => !(db.eventsOn account.externalRef).isEmpty).map fun account =>
    ⟨account.externalRef, account.balanceMinor, amount * (db.eventsOn account.externalRef).length⟩

/-- The last query. An amount or a product that is no `bigint` is refused. -/
def Db.wrongBalances (db : Db) (amount : Int) : Option (List WrongBalance) :=
  if isBigint amount && (db.expectations amount).all (fun row => isBigint row.expected) then
    some ((db.expectations amount).filter fun row => row.balanceMinor ≠ row.expected)
  else none

/-- `verify_load.py::_checks`. -/
def checks (db : Db) (amount : Int) : Option (List Check) :=
  let events := db.events.length
  let distinct := (db.events.map fun row => (row.source, row.idempotencyKey)).dedup.length
  let ledgerRows := db.ledger.length
  let succeeded := db.events.countP fun row => row.status = .succeeded
  let dead := db.events.countP fun row => row.status = .deadLettered
  let drift := db.vAccountReconciliation
  let drifted := drift.filter fun row => row.drift ≠ 0
  (db.wrongBalances amount).map fun wrong => [
    ⟨"every stored event is unique", events = distinct,
      toString events ++ " rows, " ++ toString distinct ++ " distinct (source, idempotency_key)"⟩,
    ⟨"nothing was dead-lettered", dead = 0, toString dead ++ " dead-lettered"⟩,
    ⟨"every event was processed", succeeded = events,
      toString succeeded ++ " of " ++ toString events ++ " succeeded"⟩,
    ⟨"count(ledger_entry) == count(distinct events)", ledgerRows = distinct,
      toString ledgerRows ++ " ledger rows, " ++ toString distinct ++ " distinct events"⟩,
    ⟨"balance == SUM(ledger) on every account", drifted.isEmpty,
      toString drift.length ++ " accounts, " ++ toString drifted.length ++ " with drift"⟩,
    ⟨"balance == amount x distinct events, per account", wrong.isEmpty,
      match wrong with
      | [] => "every balance is exactly what arithmetic predicts"
      | first :: _ => toString wrong.length ++ " accounts wrong, e.g. " ++ first.repr⟩]

/-- `verify_load.py::_drain`: the counts of pending events that it reads in time. -/
def drain (counts : List Nat) : Bool := counts.any fun pending => pending = 0

/-- `verify_load.py::_main`: the exit code. A query that raises ends the script with 1. -/
def verifyLoad (counts : List Nat) (db : Db) (amount : Int) : Nat :=
  if !drain counts then 1
  else if db.events.length = 0 then 1
  else match checks db amount with
  | none => 1
  | some results => if results.all (·.passed) then 0 else 1

/-! ## Credits in the books -/

/-- What is posted for a credit is the credit. -/
def CreditsPosted (registry : HandlerRegistry) (db : Db) : Prop :=
  ∀ id row credit, db.event? id = some row → registry.dispatch row.toDomain = .ok (.credit credit) →
    ∀ posting, db.books.posted id = some posting → posting = (credit.accountRef, credit.amountMinor)

theorem posted_process {books : Books} {eventId : Nat} {sequence : Option Int} {effect : Effect} {id : Nat}
    {posting : String × Int} (posted : (books.process eventId sequence effect).2.posted id = some posting) :
    books.posted id = some posting ∨
      id = eventId ∧ ∀ credit, effect = .credit credit → posting = (credit.accountRef, credit.amountMinor) := by
  have updated : ∀ {externalRef amount state}, (books.post eventId externalRef amount state).posted
    id = some posting →
      books.posted id = some posting ∨ id = eventId ∧ posting = (externalRef, amount) := by
    intro externalRef amount state there
    by_cases same : id = eventId
    · subst same
      simp only [Books.post, Function.update_self, Option.some.injEq] at there
      exact Or.inr ⟨rfl, there.symm⟩
    · simp only [Books.post, Function.update_of_ne same] at there
      exact Or.inl there
  cases effect with
  | credit effect =>
    simp only [Books.process] at posted
    split at posted
    · exact Or.inl posted
    · rcases updated posted with old | ⟨same, how⟩
      · exact Or.inl old
      · refine Or.inr ⟨same, fun credit which => ?_⟩
        cases which
        exact how
  | setBalance effect =>
    simp only [Books.process] at posted
    split at posted
    · exact Or.inl posted
    · split at posted
      · exact Or.inl posted
      · rcases updated posted with old | ⟨same, how⟩
        · exact Or.inl old
        · exact Or.inr ⟨same, fun credit which => by cases which⟩

section Steps

variable {svc : Service} {scope : Scope} {call : Call} {trace : Trace} {db : Db} {writes : List Write}

theorem unposted_of_absent (good : Wf db) {id : Nat} (absent : db.event? id = none) :
    db.books.posted id = none := by
  refine books_unposted fun entry member about => ?_
  obtain ⟨row, there, same⟩ := good.ledgerEvent entry member
  have found := event?_of_mem good there
  rw [same, about, absent] at found
  cases found

theorem Committed.creditsPosted (shipped : svc.registry = Balance.registry) (good : Wf db)
    (committed : Committed svc scope call trace db writes) (known : CreditsPosted svc.registry db) :
    CreditsPosted svc.registry (db.after writes) := by
  intro id row credit after dispatched posting posted
  have strict : svc.registry.OwnsEntity := shipped ▸ Balance.registry_ownsEntity
  -- the event was there before, and said the same, or nothing can be posted for it
  have earlier : db.event? id = none ∨ ∃ before, db.event? id = some before ∧
      svc.registry.dispatch before.toDomain = .ok (.credit credit) := by
    have same : ∀ {before : EventRow}, db.event? id = some before →
      row.toIncomingEvent = before.toIncomingEvent →
        ∃ before, db.event? id = some before ∧ svc.registry.dispatch before.toDomain = .ok
          (.credit credit) := by
      intro before found kept
      rw [shipped, Balance.dispatch_delivered kept, ← shipped] at dispatched
      exact ⟨before, found, dispatched⟩
    cases committed.eventStep after with
    | same before spared => exact Or.inr (same before rfl)
    | dealt found kept => exact Or.inr (same found kept)
    | failed found kept => exact Or.inr (same found kept)
    | requeued found kept => exact Or.inr (same found kept)
    | stored absent => exact Or.inl absent
  have before : db.books.posted id = some posting → posting = (credit.accountRef, credit.amountMinor) := by
    intro there
    rcases earlier with absent | ⟨event, found, same⟩
    · rw [unposted_of_absent good absent] at there
      cases there
    · exact known id event credit found same posting there
  rcases committed.money with clerical | ⟨eventId, result, passing, done⟩
  · rw [books_clerical clerical] at posted
    exact before posted
  · obtain ⟨event, effect, found, dispatched', clean⟩ := done.books strict good
    have books := congrArg Prod.snd clean
    simp only at books
    rw [books] at posted
    rcases posted_process posted with old | ⟨rfl, new⟩
    · exact before old
    · rcases earlier with absent | ⟨event', found', same⟩
      · rw [absent] at found
        cases found
      · obtain rfl : event = event' := Option.some.inj (found.symm.trans found')
        rw [same] at dispatched'
        cases dispatched'
        exact new credit rfl

end Steps

theorem Service.History.creditsPosted {svc : Service} (shipped : svc.registry = Balance.registry)
    {scope : Scope}
    {last : Db} {log : List Commit} (past : svc.History scope Db.empty last log) :
    CreditsPosted svc.registry last := by
  refine past.keeps ?_ (fun _ known => known) (fun _ _ known => known) ?_
  · intro id row credit found
    simp [Db.event?, Db.empty] at found
  · exact fun entry member good called committed known => committed.creditsPosted shipped good known

/-! ## What the checks find -/

/-- A store on which every event is a credit of one amount. -/
structure Uniform (svc : Service) (db : Db) (amount : Int) : Prop where
  good : Wf db
  settled : Settled svc.registry db
  posted : CreditsPosted svc.registry db
  reconciled : Reconciled db
  bounded : BalancesInRange db
  credits : ∀ row ∈ db.events, svc.registry.dispatch row.toDomain = .ok (.credit ⟨row.entityId, amount⟩)

namespace Uniform

variable {svc : Service} {db : Db} {amount : Int} (uniform : Uniform svc db amount)
include uniform

/-- An event that succeeded is in the ledger. -/
theorem entered {row : EventRow} (member : row ∈ db.events) (succeeded : row.status = .succeeded) :
    ∃ entry ∈ db.ledger, entry.eventId = row.id := by
  have spent := uniform.settled row.id row (event?_of_mem uniform.good member)
    succeeded _ (uniform.credits row member)
  exact (books_posted uniform.good).mp spent.2

/-- What is in the ledger is the credit of its event, on the event's account. -/
theorem entry {entry : LedgerEntry} (member : entry ∈ db.ledger) :
    entry.amountMinor = amount ∧ ∃ row ∈ db.events, row.id = entry.eventId ∧
      ∃ account ∈ db.accounts, account.id = entry.accountId ∧ account.externalRef = row.entityId := by
  obtain ⟨row, there, about⟩ := uniform.good.ledgerEvent entry member
  obtain ⟨account, known, owner⟩ := uniform.good.ledgerAccount entry member
  have posting : db.books.posted row.id = some (account.externalRef, entry.amountMinor) := by
    have found : db.ledgerOf? entry.eventId = some entry := find?_of_nodup uniform.good.ledgerEvents member
    have named := account?_of_mem uniform.good known
    rw [owner] at named
    simp [Db.books, about, found, named]
  have credit := uniform.posted row.id row _ (event?_of_mem uniform.good there)
    (uniform.credits row there) _ posting
  simp only [Prod.mk.injEq] at credit
  exact ⟨credit.2, row, there, about, account, known, owner, credit.1⟩

/-- An account holds as many times the amount as it has entries. -/
theorem posted_eq (accountId : Nat) : db.posted accountId =
    amount * (db.ledger.filter fun entry => entry.accountId = accountId).length := by
  have alike : (db.ledger.filter fun entry => entry.accountId = accountId).map (·.amountMinor) =
      List.replicate (db.ledger.filter fun entry => entry.accountId = accountId).length amount := by
    refine List.eq_replicate_iff.mpr ⟨List.length_map _, fun value member => ?_⟩
    obtain ⟨entry, there, rfl⟩ := List.mem_map.mp member
    exact (uniform.entry (List.mem_filter.mp there).1).1
  rw [Db.posted, alike, List.sum_replicate, Int.mul_comm]
  simp

variable (all : ∀ row ∈ db.events, row.status = .succeeded)
include all

theorem ledger_length : db.ledger.length = db.events.length := by
  have same : (db.ledger.map (·.eventId)).Perm (db.events.map (·.id)) := by
    refine (List.perm_ext_iff_of_nodup uniform.good.ledgerEvents uniform.good.eventIds).mpr fun id => ?_
    constructor
    · intro entered
      obtain ⟨entry, member, rfl⟩ := List.mem_map.mp entered
      obtain ⟨-, row, there, about, -⟩ := uniform.entry member
      exact List.mem_map.mpr ⟨row, there, about⟩
    · intro stored
      obtain ⟨row, member, rfl⟩ := List.mem_map.mp stored
      obtain ⟨entry, there, about⟩ := uniform.entered member (all row member)
      exact List.mem_map.mpr ⟨entry, there, about⟩
  simpa using same.length_eq

/-- The entries of an account are its events. -/
theorem entries_length {account : AccountRow} (known : account ∈ db.accounts) :
    (db.ledger.filter fun entry => entry.accountId = account.id).length =
      (db.eventsOn account.externalRef).length := by
  have first : ((db.ledger.filter fun entry => entry.accountId = account.id).map (·.eventId)).Nodup :=
    nodup_map_filter uniform.good.ledgerEvents
  have second : ((db.eventsOn account.externalRef).map (·.id)).Nodup := nodup_map_filter uniform.good.eventIds
  have same : ((db.ledger.filter fun entry => entry.accountId = account.id).map (·.eventId)).Perm
      ((db.eventsOn account.externalRef).map (·.id)) := by
    refine (List.perm_ext_iff_of_nodup first second).mpr fun id => ?_
    constructor
    · intro entered
      obtain ⟨entry, member, rfl⟩ := List.mem_map.mp entered
      obtain ⟨there, owned⟩ := List.mem_filter.mp member
      obtain ⟨-, row, stored, about, other, known', owner, named⟩ := uniform.entry there
      have one : other = account :=
        List.inj_on_of_nodup_map uniform.good.accountIds known' known (owner.trans (of_decide_eq_true owned))
      refine List.mem_map.mpr ⟨row, List.mem_filter.mpr ⟨stored, ?_⟩, about⟩
      rw [← named, one]
      exact decide_eq_true rfl
    · intro stored
      obtain ⟨row, member, rfl⟩ := List.mem_map.mp stored
      obtain ⟨there, owned⟩ := List.mem_filter.mp member
      obtain ⟨entry, entered, about⟩ := uniform.entered there (all row there)
      obtain ⟨-, other, stored, about', named, known', owner, same⟩ := uniform.entry entered
      have event : other = row :=
        List.inj_on_of_nodup_map uniform.good.eventIds stored there (about'.trans about)
      have one : named = account := by
        refine List.inj_on_of_nodup_map uniform.good.accountRefs known' known ?_
        rw [same, event]
        exact of_decide_eq_true owned
      refine List.mem_map.mpr ⟨entry, List.mem_filter.mpr ⟨entered, ?_⟩, about⟩
      rw [← owner, one]
      exact decide_eq_true rfl
  simpa using same.length_eq

/-- Every account holds what its events should come to. -/
theorem expected {row : WrongBalance} (member : row ∈ db.expectations amount) :
    row.balanceMinor = row.expected := by
  obtain ⟨account, there, rfl⟩ := List.mem_map.mp member
  have known := (List.mem_filter.mp there).1
  simp only
  rw [uniform.reconciled account known, uniform.posted_eq, uniform.entries_length all known]

theorem expected_bounded {row : WrongBalance} (member : row ∈ db.expectations amount) :
    isBigint row.expected = true := by
  rw [← uniform.expected all member]
  obtain ⟨account, there, rfl⟩ := List.mem_map.mp member
  exact uniform.bounded account (List.mem_filter.mp there).1

/-- The amount fits where an event of it was applied. -/
theorem amount_bounded (nonempty : db.events ≠ []) : isBigint amount = true := by
  obtain ⟨row, member⟩ := List.exists_mem_of_ne_nil _ nonempty
  obtain ⟨entry, there, about⟩ := uniform.entered member (all row member)
  obtain ⟨-, other, stored, about', account, known, owner, named⟩ := uniform.entry there
  have inRange := uniform.bounded account known
  rw [uniform.reconciled account known, uniform.posted_eq] at inRange
  have entries : 0 < (db.ledger.filter fun entry => entry.accountId = account.id).length :=
    List.length_pos_of_mem (List.mem_filter.mpr ⟨there, decide_eq_true owner.symm⟩)
  simp only [isBigint, Bool.and_eq_true, decide_eq_true_eq] at inRange ⊢
  -- a product with a positive count is no nearer to zero
  rcases Int.le_total 0 amount with positive | negative
  · have further : amount * 1 ≤ amount * (db.ledger.filter fun entry => entry.accountId = account.id).length :=
      Int.mul_le_mul_of_nonneg_left (by omega) positive
    omega
  · have further : amount * (db.ledger.filter fun entry => entry.accountId = account.id).length ≤ amount * 1 :=
      Int.mul_le_mul_of_nonpos_left negative (by omega)
    omega

/-- The last query is answered, and finds nothing. -/
theorem wrongBalances (nonempty : db.events ≠ []) : db.wrongBalances amount = some [] := by
  have none : (db.expectations amount).filter (fun row => row.balanceMinor ≠ row.expected) = [] :=
    List.filter_eq_nil_iff.mpr fun row member => by simp [uniform.expected all member]
  have fits : (isBigint amount && (db.expectations amount).all fun row => isBigint row.expected) = true := by
    rw [uniform.amount_bounded all nonempty, Bool.true_and]
    exact List.all_eq_true.mpr fun row member => uniform.expected_bounded all member
  unfold Db.wrongBalances
  rw [if_pos fits, none]

/-- Every check passes. -/
theorem checks (nonempty : db.events ≠ []) :
    ∃ results, WebhookReceiver.checks db amount = some results ∧ results.all (·.passed) = true := by
  have distinct : (db.events.map fun row =>
      (row.source, row.idempotencyKey)).dedup.length = db.events.length := by
    rw [List.dedup_eq_self.mpr uniform.good.eventKeys, List.length_map]
  have dead : (db.events.countP fun row => decide (row.status = .deadLettered)) = 0 := by
    refine List.countP_eq_zero.mpr fun row member => ?_
    simp [all row member]
  have succeeded : (db.events.countP fun row => decide (row.status = .succeeded)) = db.events.length :=
    List.countP_eq_length.mpr fun row member => decide_eq_true (all row member)
  have drifted : (db.vAccountReconciliation.filter fun row => decide (row.drift ≠ 0)) = [] := by
    refine List.filter_eq_nil_iff.mpr fun row member => ?_
    obtain ⟨account, there, rfl⟩ := List.mem_map.mp member
    have same := uniform.reconciled account there
    simp [same]
  refine ⟨_, by rw [WebhookReceiver.checks, uniform.wrongBalances all nonempty]; rfl, ?_⟩
  simp only [List.all_cons, List.all_nil, distinct, dead, succeeded, drifted, uniform.ledger_length all,
    decide_true, List.isEmpty_nil, Bool.and_true]

end Uniform

theorem verifyLoad_zero {counts : List Nat} {db : Db} {amount : Int} : verifyLoad counts db amount = 0 ↔
    drain counts = true ∧ db.events ≠ [] ∧ ∃ results, checks db amount = some results ∧
      results.all (·.passed) = true := by
  unfold verifyLoad
  cases drained : drain counts with
  | false => simp
  | true =>
    by_cases empty : db.events = []
    · simp [empty]
    · cases ran : checks db amount with
      | none => simp [empty]
      | some results => simp [empty]

/-- The event credits its account with the amount. -/
def EventRow.credits (row : EventRow) (registry : HandlerRegistry) (amount : Int) : Bool :=
  match registry.dispatch row.toDomain with
  | .ok effect => effect = .credit ⟨row.entityId, amount⟩
  | .error _ => false

theorem EventRow.dispatch_of_credits {row : EventRow} {registry : HandlerRegistry} {amount : Int}
    (credits : row.credits registry amount = true) :
    registry.dispatch row.toDomain = .ok (.credit ⟨row.entityId, amount⟩) := by
  unfold EventRow.credits at credits
  split at credits
  · rename_i effect dispatched
    rw [dispatched, of_decide_eq_true credits]
  · cases credits

/-- On a store that the service has come to, where every event credits the amount, the
grader passes exactly if the queue has drained and every event has succeeded. -/
theorem verifyLoad_passes_iff (svc : Service) (shipped : svc.registry = Balance.registry) {w : World}
    (reached : svc.Reaches .any (.init Db.empty) w) (counts : List Nat) (amount : Int)
    (credits : ∀ row ∈ w.db.events, svc.registry.dispatch row.toDomain = .ok (.credit ⟨row.entityId, amount⟩)) :
    verifyLoad counts w.db amount = 0 ↔
      drain counts = true ∧ w.db.events ≠ [] ∧ ∀ row ∈ w.db.events, row.status = .succeeded := by
  have strict : svc.registry.OwnsEntity := shipped ▸ Balance.registry_ownsEntity
  obtain ⟨good, past⟩ := reaches_history wf_empty reached
  have uniform : Uniform svc w.db amount :=
    ⟨good, past.settled shipped, past.creditsPosted shipped, past.reconciled strict
      (by simp [Reconciled, Db.empty]),
      past.balancesInRange, credits⟩
  rw [verifyLoad_zero]
  refine and_congr_right fun _ => and_congr_right fun some => ?_
  constructor
  · rintro ⟨results, ran, passed⟩
    obtain ⟨wrong, -, rfl⟩ := Option.map_eq_some_iff.mp ran
    simp only [List.all_cons, Bool.and_eq_true, decide_eq_true_eq] at passed
    have counted := List.countP_eq_length.mp passed.2.2.1
    exact fun row member => of_decide_eq_true (counted row member)
  · exact fun all => uniform.checks all some

/-- Two credits of 100 to one account, before the second is processed and after. -/
theorem verifyLoad_passes_sample : ∃ begun w,
    Sample.service.Reaches .any (.init Db.empty) begun ∧ Sample.service.Reaches .any begun w ∧
    (verifyLoad [1, 0] begun.db 100 = 0 ↔ drain [1, 0] = true ∧ begun.db.events ≠ [] ∧
      ∀ row ∈ begun.db.events, row.status = .succeeded) ∧
    verifyLoad [1, 0] begun.db 100 = 1 ∧ verifyLoad [1, 0] w.db 100 = 0 := by
  let begins : List Action :=
    Sample.store 0 (Sample.credit "c" 100 1) ++ Sample.store 1 (Sample.credit "d" 100 2) ++
    .spawn 2 (.process 1) :: Sample.steps 2 12
  let ends : List Action := .spawn 3 (.process 2) :: Sample.steps 3 13
  obtain ⟨begun, w, reached, later, shown⟩ := Sample.service.reaches_test₂ .any (.init Db.empty) begins ends
    (fun begun w => (begun.db.events.all fun row => row.credits Sample.service.registry 100) &&
      verifyLoad [1, 0] begun.db 100 = 1 && verifyLoad [1, 0] w.db 100 = 0)
    (fun action _ => Scope.any_permits action) (by decide +kernel)
  simp only [Bool.and_eq_true, decide_eq_true_eq, List.all_eq_true] at shown
  have credits : ∀ row ∈ begun.db.events,
      Sample.service.registry.dispatch row.toDomain = .ok (.credit ⟨row.entityId, 100⟩) :=
    fun row member => EventRow.dispatch_of_credits (shown.1.1 row member)
  exact ⟨begun, w, reached, later, verifyLoad_passes_iff Sample.service rfl reached [1, 0] 100 credits,
    shown.1.2, shown.2⟩

end WebhookReceiver
