import Mathlib.Logic.Relation
import WebhookReceiver.Runs
import WebhookReceiver.Txn.Waiting

/-!
The order in which transactions take locks.

A pass takes the row of its event, then the advisory lock of the entity, then the key
and the row of the account; a replay takes the row of the event before its dead-letter
entry; a delivery and a triage take one thing each. What else a statement locks is either
new, or goes with a row that the transaction has to itself. So the locks have ranks
(`Lock.rank`) that every transaction climbs, and no two ever wait for each other
(`waiting_ends`). Retention takes rows of many events at once and keeps to no order.
-/

namespace WebhookReceiver

open Txn (Mode Wanting Locking)

def Lock.rank : Lock → Nat
  | .eventKey .. => 0
  | .eventRow _ => 1
  | .advisory _ => 2
  | .accountKey _ => 3
  | .ledgerKey _ | .attemptNumber .. | .dlqKey _ | .attemptRow _ => 4
  | .accountRow _ | .entryRow _ => 5

/-- The row that a transaction locks together with a key of one of its children. -/
def Lock.guardian : Lock → Option Lock
  | .ledgerKey eventId | .attemptNumber eventId _ | .dlqKey eventId => some (.eventRow eventId)
  | _ => none

theorem Lock.rank_le (lock : Lock) : lock.rank ≤ 5 := by
  cases lock <;> simp [Lock.rank]

/-! ## What a statement waits for -/

/-- The unique key whose pending insert a statement waits for. -/
def Stmt.key : Stmt → Option Lock
  | .insertAttempt attempt => some (.attemptNumber attempt.eventId attempt.attemptNumber)
  | .insertDeadLetterEntry eventId _ _ => some (.dlqKey eventId)
  | .insertAccount externalRef => some (.accountKey externalRef)
  | .insertLedgerEntry _ eventId amountMinor =>
    if isBigint amountMinor then some (.ledgerKey eventId) else none
  | .insertEvent event => if event.storable then some (.eventKey event.source event.idempotencyKey) else none
  | _ => none

/-- Every lock is free. -/
def free : Lock → Mode → Bool := fun _ _ => true

private theorem zero_draw : 0 ≤ (0 : ℚ) ∧ (0 : ℚ) ≤ 1 := by norm_num

private def idle : Input := ⟨0, 0, ⟨0, zero_draw⟩⟩

/-- What a statement locks when every lock is free. -/
def Stmt.locks (view : Db) (s : Stmt) : Locks := (s.exec free idle view).elim [] (·.locks)

/-- What a statement waits for. A claim skips a locked row. -/
def Stmt.wants (view : Db) : Stmt → Locks
  | .claim .. => []
  | s => s.key.toList.map (fun key => (key, .share)) ++ s.locks view

section Exec

variable {avail : Lock → Mode → Bool} {input : Input} {view : Db} {s : Stmt}

theorem insertUnder_eq {ρ : Type} (key : Lock) (table : Table) (taken : Bool) (conflict : Except Exc ρ)
    (unmet : Option Exc) (inserted : ρ) (write : Write) (locks : Locks) :
    insertUnder avail key table taken conflict unmet inserted write locks =
      if avail key .share then insertUnder free key table taken conflict unmet inserted write
        locks else none := by
  cases open' : avail key .share <;> simp [insertUnder, open', free]

/-- But for a claim, the locks that are not free matter to a statement only by its key. -/
theorem exec_eq (claims : ∀ id due, s ≠ .claim id due) :
    s.exec avail input view =
      if s.key.all (fun key => avail key .share) then s.exec free input view else none := by
  cases s with
  | claim id due => exact absurd rfl (claims id due)
  | insertAttempt attempt =>
    simp only [Stmt.exec, execInsertAttempt, Stmt.key, Option.all_some]
    exact insertUnder_eq ..
  | insertDeadLetterEntry eventId made reason =>
    simp only [Stmt.exec, execInsertDeadLetterEntry, Stmt.key, Option.all_some]
    exact insertUnder_eq ..
  | insertAccount externalRef =>
    simp only [Stmt.exec, execInsertAccount, Stmt.key, Option.all_some]
    exact insertUnder_eq ..
  | insertLedgerEntry accountId eventId amountMinor =>
    by_cases inRange : isBigint amountMinor = true
    · simp only [Stmt.exec, execInsertLedgerEntry, Stmt.key, inRange, Bool.not_true,
        Bool.false_eq_true, if_false,
        if_true, Option.all_some]
      exact insertUnder_eq ..
    · simp [Stmt.exec, execInsertLedgerEntry, Stmt.key, inRange]
  | insertEvent event =>
    by_cases storable : event.storable = true
    · simp only [Stmt.exec, execInsertEvent, Stmt.key, storable, Bool.not_true, Bool.false_eq_true, if_false,
        if_true, Option.all_some]
      exact insertUnder_eq ..
    · simp [Stmt.exec, execInsertEvent, Stmt.key, storable]
  | _ => simp [Stmt.key, Stmt.exec]

theorem insertUnder_free {ρ : Type} (key : Lock) (table : Table) (taken : Bool) (conflict : Except Exc ρ)
    (unmet : Option Exc) (inserted : ρ) (write write' : Write) (locks : Locks) :
    ∃ reply reply', insertUnder free key table taken conflict unmet inserted write locks = some reply ∧
      insertUnder free key table taken conflict unmet inserted write' locks = some reply' ∧
      reply.locks = reply'.locks := by
  cases taken with
  | true => exact ⟨_, _, rfl, rfl, rfl⟩
  | false =>
    cases unmet with
    | some e => exact ⟨_, _, rfl, rfl, rfl⟩
    | none => exact ⟨_, _, rfl, rfl, rfl⟩

/-- With every lock free a statement runs, and what it locks is up to the store alone. -/
theorem exec_free (input : Input) (view : Db) (s : Stmt) :
    ∃ reply, s.exec free input view = some reply ∧ reply.locks = s.locks view := by
  have both : ∃ reply reply', s.exec free input view = some reply ∧ s.exec free idle view = some reply' ∧
      reply.locks = reply'.locks := by
    have same : ∀ {ρ : Type} (found : Option (Txn.Reply Write Lock Exc ρ)), found.isSome = true →
        ∃ reply reply', found = some reply ∧ found = some reply' ∧ reply.locks = reply'.locks := by
      intro ρ found some
      obtain ⟨reply, rfl⟩ := Option.isSome_iff_exists.mp some
      exact ⟨reply, reply, rfl, rfl, rfl⟩
    cases s with
    | now | transactionNow | uniform => exact ⟨_, _, rfl, rfl, rfl⟩
    | insertAttempt attempt => exact insertUnder_free ..
    | insertDeadLetterEntry eventId made reason => exact insertUnder_free ..
    | insertAccount externalRef =>
      simp only [Stmt.exec, execInsertAccount]
      exact insertUnder_free ..
    | insertLedgerEntry accountId eventId amountMinor =>
      simp only [Stmt.exec, execInsertLedgerEntry]
      split
      · exact same _ rfl
      · exact insertUnder_free ..
    | insertEvent event =>
      simp only [Stmt.exec, execInsertEvent]
      split
      · exact same _ rfl
      · exact insertUnder_free ..
    | insertReplayRequest request =>
      refine same _ ?_
      simp only [Stmt.exec, execInsertReplayRequest]
      split <;> [rfl; (split <;> rfl)]
    | updateEntry entryId values =>
      refine same _ ?_
      simp only [Stmt.exec, execUpdateEntry]
      split <;> [rfl; (split <;> rfl)]
    | updateAccount accountId given values =>
      refine same _ ?_
      simp only [Stmt.exec, execUpdateAccount]
      split <;> [rfl; (split <;> [rfl; (split <;> [rfl; (split <;> rfl)])])]
    | purgeEvent eventId cutoff =>
      refine same _ ?_
      simp only [Stmt.exec, execPurgeEvent]
      split <;> [rfl; (split <;> rfl)]
    | claim id due | loadForUpdate id | updateEvent id values | entryStatusForUpdate id | accountIdOf id
      | balanceAndVersion id | eventIdOf id key =>
      refine same _ ?_
      simp only [Stmt.exec]
      split <;> first | rfl | (split <;> rfl)
    | _ => exact same _ rfl
  obtain ⟨reply, reply', ran, ran', locks⟩ := both
  exact ⟨reply, ran, by rw [Stmt.locks, ran', locks]; rfl⟩

end Exec

theorem wants_eq {s : Stmt} (claims : ∀ id due, s ≠ .claim id due) (view : Db) :
    s.wants view = s.key.toList.map (fun key => (key, .share)) ++ s.locks view := by
  cases s with
  | claim id due => exact absurd rfl (claims id due)
  | _ => rfl

/-- What the statements of the service wait for. -/
def Service.wanting (svc : Service) : Wanting svc.system where
  wants := Stmt.wants
  runs := by
    intro table t view s input got
    by_cases claims : ∀ id due, s ≠ .claim id due
    · rw [wants_eq claims] at got
      have key : s.key.all (fun key => table.available t key .share) = true := by
        rw [Option.all_eq_true]
        intro key keyed
        exact got (key, .share) (List.mem_append_left _ (by simp [keyed]))
      obtain ⟨reply, ran, locks⟩ := exec_free input view s
      refine ⟨reply, ?_, fun wanted member => got wanted (List.mem_append_right _ (locks ▸ member))⟩
      show s.exec _ input view = some reply
      rw [exec_eq claims, if_pos key, ran]
    · push Not at claims
      obtain ⟨id, due, rfl⟩ := claims
      show ∃ reply, Stmt.exec _ input view (.claim id due) = some reply ∧ _
      simp only [Stmt.exec]
      split
      · exact ⟨_, rfl, by simp⟩
      · split
        · rename_i claimed
          exact ⟨_, rfl, by simpa using claimed.2.2⟩
        · exact ⟨_, rfl, by simp⟩
  waits := by
    intro table t view s input reply ran got wanted wants
    have claims : ∀ id due, s ≠ .claim id due := by
      rintro id due rfl
      cases wants
    rw [wants_eq claims] at wants
    have carried : s.exec (table.available t) input view = some reply := ran
    rw [exec_eq claims] at carried
    split at carried
    · rename_i key
      obtain ⟨reply', ran', locks⟩ := exec_free input view s
      obtain rfl : reply' = reply := Option.some.inj (ran'.symm.trans carried)
      rcases List.mem_append.mp wants with keyed | locked
      · obtain ⟨name, member, rfl⟩ := List.mem_map.mp keyed
        rw [Option.all_eq_true] at key
        exact key name (Option.mem_toList.mp member)
      · exact got wanted (locks ▸ locked)
    · cases carried

/-! ## What a statement acquires, and what is owed for it -/

/-- Every lock is of a lower rank. -/
def Below (n : Nat) (locks : Locks) : Prop := ∀ held ∈ locks, held.1.rank < n

/-- The transaction has the row of the event to itself. -/
def HasRow (eventId : Nat) (locks : Locks) : Prop := (.eventRow eventId, .excl) ∈ locks

def Acquires : (s : Stmt) → s.Answer → Locks → Prop
  | .claim id _, some event, taken | .loadForUpdate id, some event, taken =>
    event.id = id ∧ taken = [(.eventRow id, .excl)]
  | .updateEvent id _, _, taken => ∀ lock ∈ taken, lock = (.eventRow id, .excl)
  | .insertAttempt attempt, _, taken => ∃ id, taken =
      [(.attemptNumber attempt.eventId attempt.attemptNumber, .excl), (.attemptRow id, .excl),
        (.eventRow attempt.eventId, .share)]
  | .insertDeadLetterEntry eventId _ _, _, taken => taken = [] ∨ ∃ id, taken =
      [(.dlqKey eventId, .excl), (.entryRow id, .excl), (.eventRow eventId, .share)]
  | .insertReplayRequest request, _, taken => ∃ ids : List Nat, taken =
      (.eventRow request.eventId, .share) :: ids.map fun id => (.attemptRow id, .share)
  | .entryStatusForUpdate id, _, taken => taken = [(.entryRow id, .excl)]
  | .updateEntry id _, _, taken => ∀ lock ∈ taken, lock = (.entryRow id, .excl)
  | .advisoryXactLock key, _, taken => taken = [(.advisory key, .excl)]
  | .insertAccount externalRef, some id, taken =>
    taken = [(.accountKey externalRef, .excl), (.accountRow id, .excl)]
  | .insertLedgerEntry _ eventId _, some _, taken =>
    taken = [(.ledgerKey eventId, .excl), (.eventRow eventId, .share)]
  | .updateAccount id _ _, _, taken => ∀ lock ∈ taken, lock = (.accountRow id, .excl)
  | .insertEvent event, some id, taken =>
    taken = [(.eventKey event.source event.idempotencyKey, .excl), (.eventRow id, .excl)]
  | .claim .., none, taken | .loadForUpdate _, none, taken | .insertAccount _, none, taken
    | .insertLedgerEntry .., none, taken | .insertEvent _, none, taken => taken = []
  | _, _, taken => taken = []

/-- What a transaction owes before it issues a statement: it climbs, or it has the row
that goes with what the statement locks. -/
def MayIssue (locks : Locks) : Stmt → Prop
  | .loadForUpdate _ | .insertReplayRequest _ => Below 1 locks
  | .insertEvent _ => Below 0 locks
  | .updateEvent id _ => HasRow id locks
  | .insertAttempt attempt => HasRow attempt.eventId locks
  | .insertDeadLetterEntry eventId _ _ => HasRow eventId locks
  | .insertLedgerEntry _ eventId _ => HasRow eventId locks
  | .advisoryXactLock _ => Below 2 locks
  | .insertAccount _ => Below 3 locks
  | .updateAccount id _ _ => (.accountRow id, .excl) ∈ locks ∨ Below 5 locks
  | .entryStatusForUpdate _ => Below 5 locks
  | .updateEntry id _ => (.entryRow id, .excl) ∈ locks
  | .purgeAttempts _ | .purgeEvent .. => False
  | _ => True

section Statements

variable {avail : Lock → Mode → Bool} {input : Input} {view : Db} {s : Stmt} {locks : Locks}
  {reply : Txn.Reply Write Lock Exc s.Answer}

/-- An insert under a key locks nothing, or inserts. -/
theorem insertUnder_locks {ρ : Type} {key : Lock} {table : Table} {taken : Bool} {conflict : Except Exc ρ}
    {unmet : Option Exc} {inserted : ρ} {write : Write} {locks : Locks} {reply : Txn.Reply Write Lock Exc ρ}
    (ran : insertUnder avail key table taken conflict unmet inserted write locks = some reply) :
    reply.locks = [] ∧ (reply.answer = conflict ∨ ∃ e, reply.answer = .error e) ∨
      reply.answer = .ok inserted ∧ reply.locks = (key, .excl) :: locks := by
  rcases insertUnder_some ran with ⟨-, rfl⟩ | ⟨-, e, -, rfl⟩ | ⟨-, -, rfl⟩
  · exact Or.inl ⟨rfl, Or.inl rfl⟩
  · exact Or.inl ⟨rfl, Or.inr ⟨e, rfl⟩⟩
  · exact Or.inr ⟨rfl, rfl⟩

/-- What a statement that ran has got: nothing, if it was refused. -/
def Got (s : Stmt) (reply : Txn.Reply Write Lock Exc s.Answer) : Prop :=
  (∀ e, reply.answer = .error e → reply.locks = []) ∧ ∀ a, reply.answer = .ok a → Acquires s a reply.locks

theorem got_ok {s : Stmt} {a : s.Answer} {writes : List Write} {locks : Locks} (acquired : Acquires s a locks) :
    Got s { answer := .ok a, writes := writes, locks := locks } :=
  ⟨fun _ told => (by cases told), fun _ told => (by cases told; exact acquired)⟩

theorem got_error {s : Stmt} {e : Exc} : Got s { answer := .error e } :=
  ⟨fun _ _ => rfl, fun _ told => by cases told⟩

theorem got_under {s : Stmt} {key : Lock} {table : Table} {taken : Bool} {conflict : Except Exc s.Answer}
    {unmet : Option Exc} {inserted : s.Answer} {write : Write} {locks : Locks}
    {reply : Txn.Reply Write Lock Exc s.Answer}
    (ran : insertUnder avail key table taken conflict unmet inserted write locks = some reply)
    (kept : ∀ a, conflict = .ok a → Acquires s a []) (made : Acquires s inserted ((key, .excl) :: locks)) :
    Got s reply := by
  rcases insertUnder_some ran with ⟨-, rfl⟩ | ⟨-, e, -, rfl⟩ | ⟨-, -, rfl⟩
  · exact ⟨fun _ _ => rfl, kept⟩
  · exact ⟨fun _ _ => rfl, fun _ told => by cases told⟩
  · exact ⟨fun _ told => (by cases told), fun _ told => (by cases told; exact made)⟩

theorem got_of_exec (owed : MayIssue locks s) (ran : s.exec avail input view = some reply) : Got s reply := by
  cases s with
  | claim id due =>
    simp only [Stmt.exec] at ran
    split at ran
    · cases ran
      exact got_ok rfl
    · rename_i row found
      split at ran
      · cases ran
        exact got_ok ⟨by simpa [EventRow.toDomain] using List.find?_some found, rfl⟩
      · cases ran
        exact got_ok rfl
  | loadForUpdate id =>
    simp only [Stmt.exec] at ran
    split at ran
    · cases ran
      exact got_ok rfl
    · rename_i row found
      cases ran
      exact got_ok ⟨by simpa [EventRow.toDomain] using List.find?_some found, rfl⟩
  | updateEvent id values =>
    simp only [Stmt.exec] at ran
    split at ran <;> (cases ran; exact got_ok (by simp [Acquires]))
  | insertAttempt attempt => exact got_under ran (fun _ told => by cases told) ⟨_, rfl⟩
  | insertDeadLetterEntry eventId made reason =>
    exact got_under ran (fun _ _ => Or.inl rfl) (Or.inr ⟨_, rfl⟩)
  | insertReplayRequest request =>
    simp only [Stmt.exec, execInsertReplayRequest] at ran
    split at ran
    · cases ran
      exact got_error
    · split at ran
      · cases ran
        exact got_error
      · cases ran
        exact got_ok ⟨request.resultingAttemptId.toList, rfl⟩
  | entryStatusForUpdate id =>
    simp only [Stmt.exec] at ran
    split at ran
    · cases ran
      exact got_error
    · cases ran
      exact got_ok rfl
  | updateEntry id values =>
    simp only [Stmt.exec, execUpdateEntry] at ran
    split at ran
    · cases ran
      exact got_ok (by simp [Acquires])
    · split at ran
      · cases ran
        exact got_error
      · cases ran
        exact got_ok (by simp [Acquires])
  | insertAccount externalRef =>
    simp only [Stmt.exec, execInsertAccount] at ran
    exact got_under ran (fun _ told => by cases told; rfl) rfl
  | insertLedgerEntry accountId eventId amountMinor =>
    simp only [Stmt.exec, execInsertLedgerEntry] at ran
    split at ran
    · cases ran
      exact got_error
    · exact got_under ran (fun _ told => by cases told; rfl) rfl
  | updateAccount accountId given values =>
    simp only [Stmt.exec, execUpdateAccount] at ran
    split at ran
    · cases ran
      exact got_error
    · split at ran
      · cases ran
        exact got_ok (by simp [Acquires])
      · split at ran
        · cases ran
          exact got_error
        · split at ran
          · cases ran
            exact got_error
          · cases ran
            exact got_ok (by simp [Acquires])
  | insertEvent event =>
    simp only [Stmt.exec, execInsertEvent] at ran
    split at ran
    · cases ran
      exact got_error
    · exact got_under ran (fun _ told => by cases told; rfl) rfl
  | accountIdOf externalRef | balanceAndVersion id =>
    simp only [Stmt.exec] at ran
    split at ran
    · cases ran
      exact got_error
    · cases ran
      exact got_ok rfl
  | eventIdOf source key =>
    simp only [Stmt.exec] at ran
    split at ran
    · cases ran
      exact got_error
    · cases ran
      exact got_ok rfl
  | purgeAttempts cutoff | purgeEvent id cutoff => exact owed.elim
  | _ =>
    cases ran
    exact got_ok rfl

end Statements

theorem acquires_guarded {s : Stmt} {a : s.Answer} {taken : Locks} {lock guard : Lock} {mode : Mode}
    (acquired : Acquires s a taken) (member : (lock, mode) ∈ taken) (guarded : lock.guardian = some guard) :
    ∃ mode', (guard, mode') ∈ taken := by
  -- but for the three inserts, no lock that a statement takes has a guardian
  have bare : (∀ held ∈ taken, held.1.guardian = none) → ∃ mode', (guard, mode') ∈ taken := by
    intro none
    rw [none _ member] at guarded
    cases guarded
  cases s with
  | insertAttempt attempt =>
    obtain ⟨id, rfl⟩ := acquired
    simp only [List.mem_cons, Prod.mk.injEq, List.not_mem_nil, or_false] at member
    rcases member with ⟨rfl, -⟩ | ⟨rfl, -⟩ | ⟨rfl, -⟩ <;> cases guarded
    exact ⟨.share, by simp⟩
  | insertDeadLetterEntry eventId made reason =>
    rcases acquired with rfl | ⟨id, rfl⟩
    · cases member
    · simp only [List.mem_cons, Prod.mk.injEq, List.not_mem_nil, or_false] at member
      rcases member with ⟨rfl, -⟩ | ⟨rfl, -⟩ | ⟨rfl, -⟩ <;> cases guarded
      exact ⟨.share, by simp⟩
  | insertLedgerEntry accountId eventId amountMinor =>
    cases a with
    | none =>
      have empty : taken = [] := acquired
      rw [empty] at member
      cases member
    | some id =>
      have both : taken = [(.ledgerKey eventId, .excl), (.eventRow eventId, .share)] := acquired
      rw [both] at member ⊢
      simp only [List.mem_cons, Prod.mk.injEq, List.not_mem_nil, or_false] at member
      rcases member with ⟨rfl, -⟩ | ⟨rfl, -⟩ <;> cases guarded
      exact ⟨.share, by simp⟩
  | claim id due | loadForUpdate id =>
    cases a with
    | none =>
      have empty : taken = [] := acquired
      exact bare (by simp [empty])
    | some event => exact bare (by simp [acquired.2, Lock.guardian])
  | insertAccount externalRef =>
    cases a with
    | none =>
      have empty : taken = [] := acquired
      exact bare (by simp [empty])
    | some id =>
      have both : taken = [(.accountKey externalRef, .excl), (.accountRow id, .excl)] := acquired
      exact bare (by simp [both, Lock.guardian])
  | insertEvent event =>
    cases a with
    | none =>
      have empty : taken = [] := acquired
      exact bare (by simp [empty])
    | some id =>
      have both : taken = [(.eventKey event.source event.idempotencyKey, .excl),
        (.eventRow id, .excl)] := acquired
      exact bare (by simp [both, Lock.guardian])
  | insertReplayRequest request =>
    obtain ⟨ids, rfl⟩ := acquired
    refine bare ?_
    intro held member
    rcases List.mem_cons.mp member with rfl | later
    · rfl
    · obtain ⟨id, -, rfl⟩ := List.mem_map.mp later
      rfl
  | updateEvent id values | updateEntry id values => exact bare fun held there => acquired held there ▸ rfl
  | updateAccount id given values => exact bare fun held there => acquired held there ▸ rfl
  | entryStatusForUpdate id =>
    have one : taken = [(.entryRow id, .excl)] := acquired
    exact bare (by simp [one, Lock.guardian])
  | advisoryXactLock key =>
    have one : taken = [(.advisory key, .excl)] := acquired
    exact bare (by simp [one, Lock.guardian])
  | _ =>
    have empty : taken = [] := acquired
    exact bare (by simp [empty])

def Service.locking (svc : Service) : Locking svc.system where
  acquires := Acquires
  owes := MayIssue
  guardian := Lock.guardian
  acquired owed ran := got_of_exec owed ran
  guarded acquired member guarded := acquires_guarded acquired member guarded

/-! ## Programs climb -/

section Programs

open Txn.Locking (Gets keeps_bind keeps_mono keeps_andThen keeps_perform)

variable {svc : Service} {α β : Type} {locks : Locks} {eventId : Nat}

theorem HasRow.append (has : HasRow eventId locks) (more : Locks) : HasRow eventId (locks ++ more) :=
  List.mem_append_left _ has

theorem Below.append {n : Nat} {more : Locks} (below : Below n locks) (added : Below n more) :
    Below n (locks ++ more) := by
  intro held member
  rcases List.mem_append.mp member with old | new
  · exact below held old
  · exact added held new

theorem Below.mono {n n' : Nat} (below : Below n locks) (le : n ≤ n') : Below n' locks :=
  fun held member => Nat.lt_of_lt_of_le (below held member) le

theorem below_nil (n : Nat) : Below n [] := fun _ member => by cases member

/-- A statement, and what follows it in the transaction. -/
theorem keeps_execute {s : Stmt} {next : s.Answer → Program β} {P : β → Locks → Prop} (owed : MayIssue locks s)
    (answered : ∀ a taken, Acquires s a taken → svc.locking.keeps (Gets P) (next a) (locks ++ taken)) :
    svc.locking.keeps (Gets P) (execute s >>= next) locks :=
  ⟨owed, fun _ => trivial, answered⟩

/-- A statement that locks nothing. -/
theorem keeps_look {s : Stmt} {next : s.Answer → Program β} {P : β → Locks → Prop} (owed : MayIssue locks s)
    (none : ∀ a taken, Acquires s a taken → taken = [])
    (answered : ∀ a, svc.locking.keeps (Gets P) (next a) locks) :
    svc.locking.keeps (Gets P) (execute s >>= next) locks := by
  refine keeps_execute owed fun a taken acquired => ?_
  rw [none a taken acquired, List.append_nil]
  exact answered a

/-- A statement at the end of a piece. -/
theorem keeps_last {s : Stmt} {P : s.Answer → Locks → Prop} (owed : MayIssue locks s)
    (answered : ∀ a taken, Acquires s a taken → P a (locks ++ taken)) :
    svc.locking.keeps (Gets P) (execute s) locks :=
  keeps_perform owed answered

theorem keeps_sessionScope {body : Program α} (kept : svc.locking.keeps (Gets fun _ _ => True) body []) :
    svc.locking.keeps (fun _ locks => locks = []) (sessionScope body) [] := by
  refine keeps_andThen (keeps_mono (fun r locks _ => ?_) kept)
  cases r with
  | ok value =>
    intro told
    cases told <;> rfl
  | error e =>
    intro told
    cases told <;> rfl

theorem keeps_lockEntity {key : String → String → Int} {entityType entityId : String} {timeout : Seconds}
    (below : Below 2 locks) :
    svc.locking.keeps (Gets fun _ after => after = locks ++ [(.advisory (key entityType entityId), .excl)])
      (lockEntity key entityType entityId timeout) locks := by
  refine keeps_look trivial (fun _ _ none => none) fun _ => ?_
  refine ⟨below, fun e => ?_, fun a taken acquired => ?_⟩
  · show svc.locking.keeps _ (if isLockTimeout e then throw _ else throw e) locks
    split <;> exact trivial
  · have one : taken = [(.advisory (key entityType entityId), .excl)] := acquired
    rw [one]
    rfl

theorem keeps_accountId {externalRef : String} (below : Below 3 locks) :
    svc.locking.keeps (Gets fun id after => (∃ more, after = locks ++ more) ∧
      ((.accountRow id, .excl) ∈ after ∨ Below 3 after)) (Ledger.accountId externalRef) locks := by
  refine keeps_execute below fun inserted taken acquired => ?_
  cases inserted with
  | some id =>
    have both : taken = [(.accountKey externalRef, .excl), (.accountRow id, .excl)] := acquired
    exact ⟨⟨_, rfl⟩, Or.inl (by simp [both])⟩
  | none =>
    have empty : taken = [] := acquired
    rw [empty, List.append_nil]
    refine keeps_last trivial fun id taken none => ?_
    have empty : taken = [] := none
    rw [empty, List.append_nil]
    exact ⟨⟨[], (List.append_nil _).symm⟩, Or.inr below⟩

theorem keeps_claimLedgerRow {accountId : Nat} {amountMinor : Int} (has : HasRow eventId locks) :
    svc.locking.keeps (Gets fun _ after => ∃ more, after = locks ++ more ∧ Below 5 more)
      (Ledger.claimLedgerRow accountId eventId amountMinor) locks := by
  refine keeps_execute has fun inserted taken acquired => ?_
  refine ⟨taken, rfl, ?_⟩
  cases inserted with
  | some id =>
    have both : taken = [(.ledgerKey eventId, .excl), (.eventRow eventId, .share)] := acquired
    simp [both, Below, Lock.rank]
  | none =>
    have empty : taken = [] := acquired
    exact empty ▸ below_nil 5

/-- An account is locked last, or is the transaction's own. -/
theorem keeps_applyEffect {event : StoredEvent} {effect : Effect} (has : HasRow event.id locks)
    (below : Below 3 locks) :
    svc.locking.keeps (Gets fun _ after => HasRow event.id after) (Ledger.applyEffect event effect) locks := by
  cases effect with
  | credit effect =>
    refine keeps_bind (keeps_accountId below) ?_
    rintro account _ ⟨⟨more, rfl⟩, owned⟩
    refine keeps_bind (keeps_claimLedgerRow (has.append more)) ?_
    rintro claimed _ ⟨more', rfl, low⟩
    cases claimed with
    | false => exact (has.append more).append more'
    | true =>
      refine keeps_execute ?_ fun _ taken _ => ((has.append more).append more').append taken
      exact owned.imp (List.mem_append_left _) fun below => (below.mono (by omega)).append low
  | setBalance effect =>
    refine keeps_bind (keeps_accountId below) ?_
    rintro account _ ⟨⟨more, rfl⟩, owned⟩
    refine keeps_look trivial (fun _ _ none => none) fun current => ?_
    show svc.locking.keeps _ (if effect.sequence ≤ current.version then _ else _) _
    split
    · exact has.append more
    · refine keeps_bind (keeps_claimLedgerRow (has.append more)) ?_
      rintro claimed _ ⟨more', rfl, low⟩
      cases claimed with
      | false => exact (has.append more).append more'
      | true =>
        refine keeps_execute ?_ fun _ taken _ => ((has.append more).append more').append taken
        exact owned.imp (List.mem_append_left _) fun below => (below.mono (by omega)).append low

theorem keeps_nextAttemptNumber {id : Nat} :
    svc.locking.keeps (Gets fun _ after => locks = after) (Queue.nextAttemptNumber id) locks :=
  keeps_look trivial (fun _ _ none => none) fun _ => rfl

theorem keeps_apply {event : StoredEvent} {startedAt : Time} (only : locks = [(.eventRow event.id, .excl)]) :
    svc.locking.keeps (Gets fun _ _ => True) (svc.apply event startedAt) locks := by
  have has : HasRow event.id locks := by simp [only, HasRow]
  have below : Below 2 locks := by simp [only, Below, Lock.rank]
  refine keeps_bind keeps_nextAttemptNumber ?_
  rintro number _ rfl
  refine keeps_bind (keeps_lockEntity below) ?_
  rintro _ _ rfl
  cases svc.registry.dispatch event with
  | error e => exact trivial
  | ok effect =>
    show svc.locking.keeps _ (Ledger.applyEffect event effect >>= _) _
    refine keeps_bind (keeps_applyEffect (has.append _) ?_) ?_
    · exact (below.mono (by omega)).append (by simp [Below, Lock.rank])
    · intro result locks has
      refine keeps_look trivial (fun _ _ none => none) fun finishedAt => ?_
      refine keeps_execute has fun _ taken _ => ?_
      exact keeps_execute (has.append taken) fun _ _ _ => trivial

theorem keeps_nextAttemptAt {attemptNumber : Nat} {finishedAt : Time} :
    svc.locking.keeps (Gets fun _ after => locks = after) (svc.nextAttemptAt attemptNumber finishedAt)
      locks := by
  refine keeps_bind (P := fun _ after => locks = after) ?_ ?_
  · unfold nextDelaySeconds
    split
    · exact trivial
    · refine keeps_last trivial fun _ taken none => ?_
      have empty : taken = [] := none
      rw [empty, List.append_nil]
  · rintro delay _ rfl
    cases datetimePlus finishedAt delay with
    | ok due => exact rfl
    | error e => exact trivial

theorem keeps_recordFailureOf {event : StoredEvent} {exc : Exc} {startedAt : Time}
    (has : HasRow eventId locks) :
    svc.locking.keeps (Gets fun _ _ => True) (svc.recordFailureOf eventId event exc startedAt) locks := by
  refine keeps_bind keeps_nextAttemptNumber ?_
  rintro number _ rfl
  refine keeps_look trivial (fun _ _ none => none) fun finishedAt => ?_
  refine keeps_execute has fun _ taken _ => ?_
  have still := has.append taken
  have buried : ∀ made reason, svc.locking.keeps (Gets fun _ _ => True) (do
      Queue.deadLetter eventId made reason
      return (⟨some (if isRetryable exc then .retryableError else .nonRetryableError), none⟩ : ProcessResult))
      (locks ++ taken) := by
    intro made reason
    refine keeps_bind (P := fun _ _ => True) ?_ fun _ _ _ => trivial
    exact keeps_execute still fun _ more _ => keeps_last (still.append more) fun _ _ _ => trivial
  dsimp only
  split
  · refine keeps_bind (P := fun _ after => locks ++ taken = after) ?_ ?_
    · exact keeps_nextAttemptAt
    · rintro due _ rfl
      exact keeps_execute still fun _ _ _ => trivial
  · exact buried _ _

/-- Transactions one after the other. -/
theorem keeps_then {first : Program α} {next : α → Program β}
    (kept : svc.locking.keeps (fun _ locks => locks = []) first [])
    (rest : ∀ value, svc.locking.keeps (fun _ locks => locks = []) (next value) []) :
    svc.locking.keeps (fun _ locks => locks = []) (first >>= next) [] := by
  refine keeps_andThen (keeps_mono (fun r locks none => ?_) kept)
  subst none
  cases r with
  | ok value => exact rest value
  | error e => rfl

/-- A time read outside any transaction. -/
theorem keeps_now {next : Time → Program β}
    (rest : ∀ now, svc.locking.keeps (fun _ locks => locks = []) (next now) []) :
    svc.locking.keeps (fun _ locks => locks = []) (execute .now >>= next) [] := by
  refine ⟨trivial, fun _ => rfl, fun now taken none => ?_⟩
  have empty : taken = [] := none
  rw [empty]
  exact rest now

theorem keeps_processEvent (id : Nat) :
    svc.locking.keeps (fun _ locks => locks = []) (svc.processEvent id) [] := by
  refine keeps_now fun startedAt => keeps_andThen (keeps_mono ?_ (keeps_sessionScope ?_))
  · rintro (e | result) locks none
    · subst none
      show svc.locking.keeps _ (if e.isException then svc.recordFailure id e startedAt else throw e) []
      split
      · refine keeps_sessionScope (keeps_execute (below_nil 1) fun loaded taken acquired => ?_)
        cases loaded with
        | none => exact trivial
        | some event =>
          obtain ⟨rfl, rfl⟩ := acquired
          exact keeps_recordFailureOf (by simp [HasRow])
      · rfl
    · exact none
  · refine keeps_execute trivial fun claimed taken acquired => ?_
    cases claimed with
    | none => exact trivial
    | some event =>
      obtain ⟨rfl, rfl⟩ := acquired
      exact keeps_apply rfl

/-- A move of an entry takes its row after whatever else the transaction has locked. -/
theorem keeps_transition {entryId : Nat} {target : DlqStatus} {now : Time} {note : Option String}
    (below : Below 5 locks) :
    svc.locking.keeps (Gets fun _ _ => True) (Dlq.transition entryId target now note) locks := by
  refine keeps_execute below fun current taken acquired => ?_
  have one : taken = [(.entryRow entryId, .excl)] := acquired
  subst one
  cases ensureTransition current target with
  | error e => exact trivial
  | ok _ =>
    refine keeps_execute (s := .updateEntry entryId _) ?_ fun _ taken _ => ?_
    · show (Lock.entryRow entryId, Mode.excl) ∈ _
      simp
    · refine keeps_execute trivial fun found _ _ => ?_
      cases found with
      | none => exact trivial
      | some entry => exact trivial

theorem keeps_startReplay (id : Nat) (now : Time) :
    svc.locking.keeps (fun _ locks => locks = []) (startReplay id now) [] := by
  refine keeps_sessionScope (keeps_execute (below_nil 1) fun loaded taken acquired => ?_)
  cases loaded with
  | none => exact trivial
  | some event =>
    obtain ⟨-, rfl⟩ := acquired
    refine keeps_execute (s := .updateEvent id _) (by show HasRow id _; simp [HasRow]) fun _ taken row => ?_
    refine keeps_look trivial (fun _ _ none => none) fun found => ?_
    cases found with
    | none => exact trivial
    | some entry =>
      show svc.locking.keeps _ (if entry.status ≠ .needsReview then _ else _) _
      split
      · exact trivial
      · refine keeps_bind (P := fun _ _ => True) (keeps_transition ?_) fun _ _ _ => trivial
        refine Below.append (by simp [Below, Lock.rank]) fun held member => ?_
        rw [row held member]
        simp [Lock.rank]

theorem keeps_settleDlq {id : Nat} {outcome : ReplayOutcome} {now : Time} (below : Below 5 locks) :
    svc.locking.keeps (Gets fun _ _ => True) (settleDlq id outcome now) locks := by
  refine keeps_look trivial (fun _ _ none => none) fun found => ?_
  cases found with
  | none => exact trivial
  | some entry =>
    show svc.locking.keeps _ (if entry.status ≠ .replaying then _ else _) _
    split
    · exact trivial
    · show svc.locking.keeps _ (if outcome = .failed then _ else _) _
      split <;> exact keeps_bind (P := fun _ _ => True) (keeps_transition below) fun _ _ _ => trivial

theorem keeps_finishReplay (id : Nat) (requestedBy : String) (reason : Option String) (now : Time)
    (outcome : ReplayOutcome) :
    svc.locking.keeps (fun _ locks => locks = []) (finishReplay id requestedBy reason now outcome) [] := by
  refine keeps_sessionScope (keeps_look trivial (fun _ _ none => none) fun resulting => ?_)
  refine keeps_execute (below_nil 1) fun _ taken acquired => ?_
  obtain ⟨ids, rfl⟩ := acquired
  refine keeps_look trivial (fun _ _ none => none) fun settledAt => keeps_settleDlq ?_
  intro held member
  rcases List.mem_cons.mp member with rfl | later
  · simp [Lock.rank]
  · obtain ⟨_, -, rfl⟩ := List.mem_map.mp later
    simp [Lock.rank]

theorem keeps_triage (entryId : Nat) (action : TriageAction) (note : Option String) :
    svc.locking.keeps (fun _ locks => locks = []) (triage entryId action note) [] := by
  refine keeps_sessionScope (keeps_look trivial (fun _ _ none => none) fun found => ?_)
  cases found with
  | none => exact trivial
  | some entry =>
    refine keeps_andThen (keeps_mono (fun r locks _ => ?_) (keeps_look trivial (fun _ _ none => none) fun now =>
      keeps_transition (below_nil 5)))
    cases r with
    | ok value => exact trivial
    | error e =>
      show svc.locking.keeps _ (if e.cls = "InvalidDlqTransitionError" then throw _ else throw e) locks
      split <;> exact trivial

theorem keeps_ingestEvent (event : IncomingEvent) :
    svc.locking.keeps (fun _ locks => locks = []) (sessionScope (ingestEvent event)) [] := by
  refine keeps_sessionScope (keeps_execute (below_nil 0) fun inserted taken _ => ?_)
  cases inserted with
  | some id => exact trivial
  | none => exact keeps_look trivial (fun _ _ none => none) fun _ => trivial

theorem keeps_ingest (request : Request) :
    svc.locking.keeps (fun _ locks => locks = []) (svc.ingest request) [] := by
  unfold Service.ingest
  split
  · rfl
  · split
    · rfl
    · refine keeps_now fun now => ?_
      split
      · split <;> rfl
      · split
        · split <;> rfl
        · exact keeps_then (keeps_ingestEvent _) fun _ => rfl

/-- Every call but a purge climbs. -/
theorem keeps_program {call : Call} (spares : call.isPurge = false) :
    svc.locking.keeps (fun _ locks => locks = []) (svc.program call) [] := by
  cases call with
  | process id => exact keeps_then (keeps_processEvent id) fun _ => rfl
  | replay id requestedBy reason =>
    refine keeps_then (keeps_now fun now => keeps_then (keeps_startReplay id now) fun _ => ?_) fun _ => rfl
    exact keeps_then (keeps_processEvent id) fun result =>
      keeps_then (keeps_finishReplay id requestedBy reason now _) fun _ => rfl
  | triage entryId action note => exact keeps_then (keeps_triage entryId action note) fun _ => rfl
  | ingest event => exact keeps_then (keeps_ingestEvent event) fun _ => rfl
  | deliver request => exact keeps_then (keeps_ingest request) fun _ => rfl
  | purge olderThan => cases spares

end Programs

/-! ## New rows -/

/-- The row has been given its id. -/
def Lock.drawn (db : Db) : Lock → Prop
  | .eventRow id => id < db.seq .event
  | .attemptRow id => id < db.seq .attempt
  | .entryRow id => id < db.seq .entry
  | .accountRow id => id < db.seq .account
  | _ => True

def Write.draws : Write → Bool
  | .draw _ => true
  | _ => false

theorem seq_after_le (writes : List Write) {db db' : Db} (le : ∀ table, db.seq table ≤ db'.seq table)
    (table : Table) : (db.after writes).seq table ≤ (db'.after writes).seq table := by
  induction writes generalizing db db' with
  | nil => exact le table
  | cons write rest ih => exact ih fun table => seq_apply_le write (le table)

/-- Pending writes draw nothing. -/
theorem seq_pending {writes : List Write} (pending : ∀ write ∈ writes, write.draws = false) (db : Db) :
    (db.after writes).seq = db.seq := by
  induction writes generalizing db with
  | nil => rfl
  | cons write rest ih =>
    obtain ⟨first, others⟩ := List.forall_mem_cons.mp pending
    rw [Db.after_cons, ih others]
    cases write with
    | draw table => cases first
    | _ => rfl

theorem Lock.drawn.mono {db db' : Db} {lock : Lock} (drawn : lock.drawn db)
    (grows : ∀ table, db.seq table ≤ db'.seq table) : lock.drawn db' := by
  cases lock with
  | eventRow id => exact Nat.lt_of_lt_of_le drawn (grows .event)
  | attemptRow id => exact Nat.lt_of_lt_of_le drawn (grows .attempt)
  | entryRow id => exact Nat.lt_of_lt_of_le drawn (grows .entry)
  | accountRow id => exact Nat.lt_of_lt_of_le drawn (grows .account)
  | _ => trivial

/-- Why a transaction that wants a lock does not wait for it out of order. -/
inductive InOrder (locks : Locks) (view : Db) (lock : Lock) : Prop where
  | climbs (below : Below lock.rank locks)
  | own (has : (lock, .excl) ∈ locks)
  | guarded {guard : Lock} (guardian : lock.guardian = some guard) (has : (guard, .excl) ∈ locks)
  | fresh (undrawn : ¬ lock.drawn view)

/-- Where a statement claims no key, it waits for what it then has. -/
theorem inOrder_acquired {locks : Locks} {view : Db} {s : Stmt} {wanted : Lock × Mode} (owed : MayIssue locks s)
    (claims : ∀ id due, s ≠ .claim id due) (wants : wanted ∈ s.wants view) (keyless : s.key = none)
    (each : ∀ a got, Acquires s a got → ∀ held ∈ got, InOrder locks view held.1) :
    InOrder locks view wanted.1 := by
  obtain ⟨reply, ran, same⟩ := exec_free idle view s
  rw [wants_eq claims, ← same, keyless] at wants
  have member : wanted ∈ reply.locks := by simpa using wants
  have got := got_of_exec owed ran
  cases told : reply.answer with
  | error e => simp [got.1 e told] at member
  | ok a => exact each a _ (got.2 a told) wanted member

/-- An insert waits for the key that it claims, and for what it locks with it. -/
theorem inOrder_under {ρ : Type} {avail : Lock → Mode → Bool} {view : Db} {key : Lock} {table : Table}
    {taken : Bool}
    {conflict : Except Exc ρ} {unmet : Option Exc} {inserted : ρ} {write : Write} {locks more : Locks}
    {reply : Txn.Reply Write Lock Exc ρ} {wanted : Lock × Mode}
    (ran : insertUnder avail key table taken conflict unmet inserted write more = some reply)
    (wants : wanted ∈ (key, .share) :: reply.locks) (claimed : InOrder locks view key)
    (each : ∀ held ∈ more, InOrder locks view held.1) : InOrder locks view wanted.1 := by
  rcases List.mem_cons.mp wants with rfl | member
  · exact claimed
  · rcases insertUnder_locks ran with ⟨none, -⟩ | ⟨-, taken⟩
    · rw [none] at member
      cases member
    · rw [taken] at member
      rcases List.mem_cons.mp member with rfl | later
      · exact claimed
      · exact each wanted later

/-- An insert: it claims a key, unless it is refused at once. -/
theorem inOrder_insert {locks : Locks} {view : Db} {s : Stmt} {wanted : Lock × Mode} (owed : MayIssue locks s)
    (inserts : s.key.isSome = true) (claims : ∀ id due, s ≠ .claim id due) (wants : wanted ∈ s.wants view) :
    InOrder locks view wanted.1 := by
  obtain ⟨reply, ran, same⟩ := exec_free idle view s
  rw [wants_eq claims, ← same] at wants
  cases s with
  | insertAttempt attempt =>
    simp only [Stmt.exec, execInsertAttempt] at ran
    refine inOrder_under ran wants (.guarded rfl owed) ?_
    simp only [List.forall_mem_cons, List.not_mem_nil, false_implies, implies_true, and_true]
    exact ⟨.fresh (Nat.lt_irrefl _), .own owed⟩
  | insertDeadLetterEntry eventId made reason =>
    simp only [Stmt.exec, execInsertDeadLetterEntry] at ran
    refine inOrder_under ran wants (.guarded rfl owed) ?_
    simp only [List.forall_mem_cons, List.not_mem_nil, false_implies, implies_true, and_true]
    exact ⟨.fresh (Nat.lt_irrefl _), .own owed⟩
  | insertAccount externalRef =>
    simp only [Stmt.exec, execInsertAccount] at ran
    refine inOrder_under ran wants (.climbs owed) ?_
    simp only [List.forall_mem_cons, List.not_mem_nil, false_implies, implies_true, and_true]
    exact .fresh (Nat.lt_irrefl _)
  | insertLedgerEntry accountId eventId amountMinor =>
    have inRange : isBigint amountMinor = true := by
      by_contra outside
      simp [Stmt.key, outside] at inserts
    simp only [Stmt.key, inRange, if_true] at wants
    simp only [Stmt.exec, execInsertLedgerEntry, inRange, Bool.not_true, Bool.false_eq_true, if_false] at ran
    refine inOrder_under ran wants (.guarded rfl owed) ?_
    simp only [List.forall_mem_cons, List.not_mem_nil, false_implies, implies_true, and_true]
    exact .own owed
  | insertEvent event =>
    have storable : event.storable = true := by
      by_contra outside
      simp [Stmt.key, outside] at inserts
    simp only [Stmt.key, storable, if_true] at wants
    simp only [Stmt.exec, execInsertEvent, storable, Bool.not_true, Bool.false_eq_true, if_false] at ran
    refine inOrder_under ran wants (.climbs owed) ?_
    simp only [List.forall_mem_cons, List.not_mem_nil, false_implies, implies_true, and_true]
    exact .fresh (Nat.lt_irrefl _)
  | _ => cases inserts

theorem wants_inOrder {locks : Locks} {view : Db} {s : Stmt} {wanted : Lock × Mode} (owed : MayIssue locks s)
    (wants : wanted ∈ s.wants view) : InOrder locks view wanted.1 := by
  have claims : ∀ id due, s ≠ .claim id due := by
    rintro id due rfl
    cases wants
  cases inserts : s.key with
  | some key => exact inOrder_insert owed (by rw [inserts]; rfl) claims wants
  | none =>
    have stored : ∀ event, s ≠ .insertEvent event := by
      -- what cannot be stored is refused at once
      rintro event rfl
      have unstorable : event.storable = false := by
        by_contra storable
        simp [Stmt.key, storable] at inserts
      simp [Stmt.wants, Stmt.key, Stmt.locks, Stmt.exec, execInsertEvent, refuse, unstorable] at wants
    refine inOrder_acquired owed claims wants inserts fun a got taken held member => ?_
    cases s with
    | claim id due => exact absurd rfl (claims id due)
    | insertAttempt | insertDeadLetterEntry | insertAccount => cases inserts
    | loadForUpdate id =>
      cases a with
      | none =>
        obtain rfl : got = [] := taken
        cases member
      | some event =>
        rw [taken.2] at member
        obtain rfl := List.mem_singleton.mp member
        exact .climbs owed
    | insertReplayRequest request =>
      obtain ⟨ids, listed⟩ := taken
      rw [listed] at member
      rcases List.mem_cons.mp member with rfl | later
      · exact .climbs owed
      · obtain ⟨id, -, rfl⟩ := List.mem_map.mp later
        exact .climbs (owed.mono (by simp [Lock.rank]))
    | updateEvent id values => exact taken held member ▸ .own owed
    | updateEntry id values => exact taken held member ▸ .own owed
    | updateAccount id given values =>
      rw [taken held member]
      rcases owed with has | below
      · exact .own has
      · exact .climbs below
    | entryStatusForUpdate id =>
      obtain rfl : got = [(.entryRow id, .excl)] := taken
      obtain rfl := List.mem_singleton.mp member
      exact .climbs owed
    | advisoryXactLock key =>
      obtain rfl : got = [(.advisory key, .excl)] := taken
      obtain rfl := List.mem_singleton.mp member
      exact .climbs owed
    | purgeAttempts cutoff | purgeEvent id cutoff => exact owed.elim
    | insertLedgerEntry accountId eventId amountMinor =>
      cases a with
      | none =>
        obtain rfl : got = [] := taken
        cases member
      | some id =>
        obtain rfl : got = [(.ledgerKey eventId, .excl), (.eventRow eventId, .share)] := taken
        simp only [List.mem_cons, List.not_mem_nil, or_false] at member
        rcases member with rfl | rfl
        · exact .guarded rfl owed
        · exact .own owed
    | insertEvent event => exact absurd rfl (stored event)
    | _ =>
      obtain rfl : got = [] := taken
      cases member

section Drawn

variable {avail : Lock → Mode → Bool} {input : Input} {view : Db}

/-- What a reply locks has an id, and what it writes draws none. -/
def Plain {ρ : Type} (view : Db) (reply : Txn.Reply Write Lock Exc ρ) : Prop :=
  (∀ held ∈ reply.locks, held.1.drawn (view.after reply.instant)) ∧ ∀ write ∈ reply.writes, write.draws = false

theorem plain_read {ρ : Type} {answer : Except Exc ρ} {writes : List Write} {locks : Locks}
    (known : ∀ held ∈ locks, held.1.drawn view) (plain : ∀ write ∈ writes, write.draws = false) :
    Plain view { answer := answer, writes := writes, locks := locks } :=
  ⟨known, plain⟩

theorem plain_under {ρ : Type} {key : Lock} {table : Table} {taken : Bool} {conflict : Except Exc ρ}
    {unmet : Option Exc} {inserted : ρ} {write : Write} {locks : Locks} {reply : Txn.Reply Write Lock Exc ρ}
    (ran : insertUnder avail key table taken conflict unmet inserted write locks = some reply)
    (plain : write.draws = false) (named : key.drawn (view.after [.draw table]))
    (known : unmet = none → ∀ held ∈ locks, held.1.drawn (view.after [.draw table])) :
    Plain view reply := by
  rcases insertUnder_some ran with ⟨-, rfl⟩ | ⟨-, e, -, rfl⟩ | ⟨-, met, rfl⟩
  · exact ⟨by simp, by simp⟩
  · exact ⟨by simp, by simp⟩
  · exact ⟨List.forall_mem_cons.mpr ⟨named, known met⟩, by simpa using plain⟩

/-- An insert uses the next identity value up. -/
theorem seq_draw (db : Db) (table : Table) : db.seq table < (db.after [.draw table]).seq table := by
  simp [Db.after, Write.apply]

variable (good : Wf view)
include good

theorem drawn_event {id : Nat} {row : EventRow} (found : view.event? id = some row) :
    (Lock.eventRow id).drawn view :=
  event?_id found ▸ good.eventDrawn row (mem_of_event? found)

theorem drawn_referenced {id : Nat} {table : Table} (found : (view.event? id).isNone = false) :
    (Lock.eventRow id).drawn (view.after [.draw table]) := by
  cases here : view.event? id with
  | none =>
    rw [here] at found
    cases found
  | some row => exact (drawn_event good here).mono (seq_le_after _ _)

theorem drawn_entry {id : Nat} {row : EntryRow} (found : view.entry? id = some row) :
    (Lock.entryRow id).drawn view := by
  obtain rfl : row.id = id := by simpa using List.find?_some found
  exact good.entryDrawn row (List.mem_of_find?_eq_some found)

theorem exec_plain {s : Stmt} {locks : Locks} {reply : Txn.Reply Write Lock Exc s.Answer}
    (owed : MayIssue locks s)
    (ran : s.exec avail input view = some reply) : Plain view reply := by
  cases s with
  | claim id due =>
    simp only [Stmt.exec] at ran
    split at ran
    · cases ran
      exact plain_read (by simp) (by simp)
    · rename_i row found
      split at ran
      · cases ran
        exact plain_read (by simpa using drawn_event good found) (by simp)
      · cases ran
        exact plain_read (by simp) (by simp)
  | loadForUpdate id | updateEvent id values =>
    simp only [Stmt.exec] at ran
    split at ran
    · cases ran
      exact plain_read (by simp) (by simp)
    · rename_i row found
      cases ran
      exact plain_read (by simpa using drawn_event good found) (by simp [Write.draws])
  | insertAttempt attempt =>
    simp only [Stmt.exec, execInsertAttempt] at ran
    refine plain_under ran rfl trivial fun met => ?_
    have referenced := check_none.mp (Option.or_eq_none_iff.mp (Option.or_eq_none_iff.mp met).2).2
    exact List.forall_mem_cons.mpr ⟨seq_draw view .attempt, by simpa using drawn_referenced good referenced⟩
  | insertDeadLetterEntry eventId made reason =>
    simp only [Stmt.exec, execInsertDeadLetterEntry] at ran
    refine plain_under ran rfl trivial fun met => ?_
    have referenced := check_none.mp met
    exact List.forall_mem_cons.mpr ⟨seq_draw view .entry, by simpa using drawn_referenced good referenced⟩
  | insertReplayRequest request =>
    simp only [Stmt.exec, execInsertReplayRequest] at ran
    split at ran
    · cases ran
      exact plain_read (by simp) (by simp)
    · rename_i referenced
      split at ran
      · cases ran
        exact plain_read (by simp) (by simp)
      · rename_i resulted
        cases ran
        refine plain_read (List.forall_mem_cons.mpr ⟨?_, fun held member => ?_⟩) (by simp [Write.draws])
        · cases here : view.event? request.eventId with
          | none => simp [here] at referenced
          | some row => exact drawn_event good here
        · obtain ⟨id, chosen, rfl⟩ := List.mem_map.mp member
          have named : request.resultingAttemptId = some id := by simpa using chosen
          simp only [named, Option.any_some, List.all_eq_true, decide_eq_true_eq, not_forall,
            not_not] at resulted
          obtain ⟨row, there, rfl⟩ := resulted
          exact good.attemptDrawn row there
  | entryStatusForUpdate id =>
    simp only [Stmt.exec] at ran
    split at ran
    · cases ran
      exact plain_read (by simp) (by simp)
    · rename_i row found
      cases ran
      exact plain_read (by simpa using drawn_entry good found) (by simp)
  | updateEntry id values =>
    simp only [Stmt.exec, execUpdateEntry] at ran
    split at ran
    · cases ran
      exact plain_read (by simp) (by simp)
    · rename_i row found
      split at ran
      · cases ran
        exact plain_read (by simp) (by simp)
      · cases ran
        exact plain_read (by simpa using drawn_entry good found) (by simp [Write.draws])
  | insertAccount externalRef =>
    simp only [Stmt.exec, execInsertAccount] at ran
    exact plain_under ran rfl trivial fun _ => List.forall_mem_singleton.mpr (seq_draw view .account)
  | insertLedgerEntry accountId eventId amountMinor =>
    simp only [Stmt.exec, execInsertLedgerEntry] at ran
    split at ran
    · cases ran
      exact plain_read (by simp) (by simp)
    · refine plain_under ran rfl trivial fun met => ?_
      have referenced := (Bool.or_eq_false_iff.mp (check_none.mp met)).2
      simpa using drawn_referenced good referenced
  | updateAccount accountId given values =>
    simp only [Stmt.exec, execUpdateAccount] at ran
    split at ran
    · cases ran
      exact plain_read (by simp) (by simp)
    · split at ran
      · cases ran
        exact plain_read (by simp) (by simp)
      · rename_i row found
        have member := good.accountDrawn row (List.mem_of_find?_eq_some found)
        rw [account?_id found] at member
        split at ran
        · cases ran
          exact plain_read (by simp) (by simp)
        · split at ran
          · cases ran
            exact plain_read (by simp) (by simp)
          · cases ran
            exact plain_read (List.forall_mem_singleton.mpr member) (by simp [Write.draws])
  | insertEvent event =>
    simp only [Stmt.exec, execInsertEvent] at ran
    split at ran
    · cases ran
      exact plain_read (by simp) (by simp)
    · exact plain_under ran rfl trivial fun _ => List.forall_mem_singleton.mpr (seq_draw view .event)
  | accountIdOf externalRef | balanceAndVersion id | eventIdOf source key =>
    simp only [Stmt.exec] at ran
    split at ran <;> (cases ran; exact plain_read (by simp) (by simp))
  | purgeAttempts cutoff | purgeEvent id cutoff => exact owed.elim
  | _ =>
    cases ran
    exact plain_read (by simp [Lock.drawn]) (by simp)

end Drawn

/-! ## Runs -/

section Runs

variable {svc : Service} {start : Db} {w : World}

theorem locking_spawned (_ : World) (t : Txn.Tid) (call : Call)
    (permitted : Scope.withoutPurge.permits (.spawn t call)) :
    svc.locking.keeps (fun _ locks => locks = []) (svc.system.program call) [] :=
  keeps_program permitted

theorem accounted (reached : svc.Reaches .withoutPurge (.init start) w) : w.Accounted svc.locking :=
  Txn.Reach.accounted locking_spawned reached

/-- Locked rows have ids, and open transactions have drawn theirs at once. -/
structure Drawn (w : World) : Prop where
  held : ∀ {t lock mode}, (t, mode) ∈ w.held lock → lock.drawn w.db
  pending : ∀ {t th}, w.threads t = some th → ∀ write ∈ th.writes, write.draws = false

theorem Drawn.released {t : Txn.Tid} {thread : Option (Txn.Thread Write Call Stmt Stmt.Answer Exc Outcome)}
    {db : Db} {log : List Commit} (drawn : Drawn w) (grows : ∀ table, w.db.seq table ≤ db.seq table)
    (none : ∀ th, thread = some th → th.writes = []) :
    Drawn ⟨db, w.held.release t, Function.update w.threads t thread, log⟩ where
  held member := (drawn.held (Txn.LockTable.mem_release.mp member).1).mono grows
  pending := by
    intro u th here
    by_cases same : u = t
    · subst same
      have own : thread = some th := (Function.update_self u thread w.threads).symm.trans here
      rw [none th own]
      simp
    · have other : w.threads u = some th := (Function.update_of_ne same _ _).symm.trans here
      exact drawn.pending other

theorem drawn (good : Wf start) (reached : svc.Reaches .withoutPurge (.init start) w) : Drawn w := by
  induction reached with
  | start => exact ⟨fun member => (by cases member), fun here => by cases here⟩
  | @next w w' action before permitted stepped ih =>
    cases Txn.step_cases stepped with
    | @spawned t call =>
      refine ⟨ih.held, fun {u th} here => ?_⟩
      by_cases same : u = t
      · subst same
        have own := (Function.update_self u _ w.threads).symm.trans here
        cases own
        simp
      · exact ih.pending ((Function.update_of_ne same _ _).symm.trans here)
    | @answered t input th s next reply here shape ran free =>
      obtain ⟨locks, -, keeps⟩ := (accounted before).holds here
      rw [shape] at keeps
      obtain ⟨well, -⟩ := reaches_obeyed good before here shape
      have plain : Plain (w.db.after th.writes) reply := exec_plain well keeps.1 ran
      have same : (w.db.after th.writes).seq = w.db.seq := seq_pending (ih.pending here) w.db
      constructor
      · intro u lock mode member
        rcases Txn.LockTable.mem_grant.mp member with ⟨-, taken⟩ | old
        · exact (plain.1 _ taken).mono (seq_after_le _ fun table => (congrFun same table).le)
        · exact (ih.held old).mono (seq_le_after _ _)
      · intro u th' here'
        by_cases own : u = t
        · subst own
          have updated := (Function.update_self u _ w.threads).symm.trans here'
          cases updated
          exact fun write member => (List.mem_append.mp member).elim (ih.pending here write) (plain.2 write)
        · exact ih.pending ((Function.update_of_ne own _ _).symm.trans here')
    | @refused t e th s next here shape =>
      refine ⟨ih.held, fun {u th'} here' => ?_⟩
      by_cases own : u = t
      · subst own
        have updated := (Function.update_self u _ w.threads).symm.trans here'
        cases updated
        exact fun write member => ih.pending here write member
      · exact ih.pending ((Function.update_of_ne own _ _).symm.trans here')
    | @concluded _ t th =>
      exact ih.released (seq_le_after th.writes w.db) fun _ same => by cases same; rfl
    | rolledBack => exact ih.released (fun _ => le_rfl) fun _ same => by cases same; rfl
    | uncommitted => exact ih.released (fun _ => le_rfl) fun _ same => by cases same; rfl
    | killed => exact ih.released (fun _ => le_rfl) fun _ none => by cases none

/-- A transaction that waits for a lock holds only locks of lower ranks. -/
theorem climbs (good : Wf start) (reached : svc.Reaches .withoutPurge (.init start) w) :
    w.Climbs svc.wanting Lock.rank where
  busy held := (accounted reached).busy held
  climbs := by
    intro t u lock mode mode' other wants held clash own mode'' ours
    obtain ⟨th, s, next, here, shape, wanted⟩ := wants
    obtain ⟨locks, account, keeps⟩ := (accounted reached).holds here
    rw [shape] at keeps
    -- what `t` has to itself, `u` does not hold
    have apart : ∀ lock mode', (lock, .excl) ∈ locks → (u, mode') ∉ w.held lock := fun lock mode' mine theirs =>
      other (Txn.Reach.exclusive reached lock t u mode' ((account lock .excl).mpr mine) theirs)
    cases wants_inOrder keeps.1 wanted with
    | climbs below => exact below (own, mode'') ((account own mode'').mp ours)
    | own has => exact absurd held (apart lock mode' has)
    | guarded guardian has =>
      obtain ⟨mode', also⟩ := (accounted reached).guarded held guardian
      exact absurd also (apart _ mode' has)
    | fresh undrawn =>
      refine absurd ((drawn good reached).held held) fun given => undrawn ?_
      exact given.mono (seq_le_after th.writes w.db)

/-- No transactions ever wait for each other in a circle, and whoever waits, waits in
the end for one that can take its next step. -/
theorem waiting_ends (svc : Service) (good : Wf start) (reached : svc.Reaches .withoutPurge (.init start) w) :
    (∀ t, ¬ Relation.TransGen (svc.wanting.WaitsFor w) t t) ∧
      ∀ t, w.Busy t → ∃ u, Relation.ReflTransGen (svc.wanting.WaitsFor w) t u ∧ w.CanRun svc.system u :=
  ⟨fun _ => (climbs good reached).acyclic Lock.rank_le, fun _ busy => (climbs good reached).runs
    Lock.rank_le busy⟩

/-- Two credits to one account: the second waits for the first. -/
theorem blocked_credits : ∃ w, Sample.service.Reaches .withoutPurge (.init Db.empty) w ∧
    Txn.step Sample.service.system w (.run 3 (Sample.clock 0)) = none ∧ w.Busy 3 := by
  let schedule : List Action :=
    Sample.store 0 (Sample.credit "c" 100 1) ++ Sample.store 1 (Sample.credit "d" 50 2) ++
    .spawn 2 (.process 1) :: Sample.steps 2 5 ++ .spawn 3 (.process 2) :: Sample.steps 3 4
  obtain ⟨w, reached, shown⟩ := Sample.service.reaches_test .withoutPurge (.init Db.empty) schedule
    (fun w => (Txn.step Sample.service.system w (.run 3 (Sample.clock 0))).isNone &&
      (w.threads 3).any fun th => !th.prog.isDone)
    (by simp [schedule, Sample.store, Sample.steps, Scope.permits, Scope.withoutPurge, Call.isPurge])
    (by decide +kernel)
  obtain ⟨stuck, working⟩ := Bool.and_eq_true_iff.mp shown
  obtain ⟨th, here, going⟩ := (Option.any_eq_true _ _).mp working
  exact ⟨w, reached, Option.isNone_iff_eq_none.mp stuck, th, here, by simpa using going⟩

/-- A credit whose pass waits for another one's account: the wait ends. -/
theorem waiting_ends_credits : ∃ w, w.Busy 3 ∧ Txn.step Sample.service.system w
    (.run 3 (Sample.clock 0)) = none ∧
    (∀ t, ¬ Relation.TransGen (Sample.service.wanting.WaitsFor w) t t) ∧
    ∃ u, Relation.ReflTransGen (Sample.service.wanting.WaitsFor w) 3 u ∧ w.CanRun Sample.service.system u := by
  obtain ⟨w, reached, stuck, busy⟩ := blocked_credits
  have ends := waiting_ends Sample.service wf_empty reached
  exact ⟨w, busy, stuck, ends.1, ends.2 3 busy⟩

/-- From whatever it has come to, the service can come to rest: with nothing but the next
steps of the calls in progress, whatever the clocks and the random numbers are, all of
them end, and nothing is left locked. -/
theorem comes_to_rest (svc : Service) (good : Wf start) (reached : svc.Reaches .withoutPurge (.init start) w)
    (inputs : World → Txn.Tid → Input) :
    ∃ w', Txn.Reach svc.system (fun w action => ∃ t, action = .run t (inputs w t)) w w' ∧
      (∀ t th, w'.threads t = some th → ∃ result, th.prog = .done result) ∧ ∀ lock, w'.held lock = [] := by
  obtain ⟨count, few⟩ := Txn.Reach.few reached
  obtain ⟨w', later, reached', rest⟩ := Txn.World.all_end
    (P := fun w => svc.Reaches .withoutPurge (.init start) w) inputs
    (fun {w _ t} reached stepped => by
      have permitted : Scope.withoutPurge.permits (.run t (inputs w t)) := trivial
      exact reached.next permitted stepped)
    (fun reached busy => by
      obtain ⟨u, -, can⟩ := (climbs good reached).runs Lock.rank_le busy
      exact ⟨u, can⟩)
    few reached
  refine ⟨w', later, fun t th here => ?_, fun lock => List.eq_nil_iff_forall_not_mem.mpr fun holder held => ?_⟩
  · cases going : th.prog.isDone with
    | true => exact Txn.Prog.isDone_iff.mp going
    | false => exact absurd ⟨th, here, going⟩ (rest t)
  · exact rest _ ((accounted reached').busy held)

/-- Both passes end. -/
theorem comes_to_rest_credits : ∃ w w', w.Busy 3 ∧
    Txn.Reach Sample.service.system (fun _ action => ∃ t, action = .run t (Sample.clock 0)) w w' ∧
    (∀ t th, w'.threads t = some th → ∃ result, th.prog = .done result) ∧ ∀ lock, w'.held lock = [] := by
  obtain ⟨w, reached, -, busy⟩ := blocked_credits
  obtain ⟨w', rest⟩ := comes_to_rest Sample.service wf_empty reached fun _ _ => Sample.clock 0
  exact ⟨w, w', busy, rest⟩

end Runs

end WebhookReceiver
