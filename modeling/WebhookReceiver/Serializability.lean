import WebhookReceiver.Undisturbed

/-!
Concurrent workers leave the money that the same passes leave one at a time.

`serially` runs `process_event` on one event after the other, alone each time, in the
order in which the workers' transactions committed. The two stores are kept in step
(`InStep`) transaction by transaction: where the workers' store commits a pass that
dealt with its event, the serial run makes the same pass over the same books. What
makes them the same is `Applied`, which reads the account on the store that the
transaction commits on; that is the work of the entity lock.
-/

namespace WebhookReceiver

/-- Workers on events of a set, and any failure. -/
def Scope.workers (events : Nat → Prop) : Scope :=
  ⟨fun call => ∃ id, call = .process id ∧ events id, fun _ => True⟩

/-- The events that the transactions dealt with, in commit order. -/
def processedIn (log : List Commit) : List Nat := log.flatMap fun entry => dealtIn entry.writes

/-- The store after passes over these events, one at a time. -/
def Service.serially (svc : Service) (input : Input) (db : Db) (order : List Nat) : Option Db :=
  svc.system.serially input db (order.map .process)

/-- The same accounts, with the same balances and versions, and the same ledger
entries. The ids of the rows come from sequences, which remember aborted transactions;
the account of an entry is compared by its name. -/
structure SameMoney (db db' : Db) : Prop where
  accounts : ∀ externalRef state,
    (∃ row ∈ db.accounts, row.externalRef = externalRef ∧ row.toAccountState = state) ↔
      ∃ row ∈ db'.accounts, row.externalRef = externalRef ∧ row.toAccountState = state
  ledger : ∀ eventId externalRef amount,
    (∃ entry ∈ db.ledger, entry.eventId = eventId ∧ entry.amountMinor = amount ∧
        ∃ row ∈ db.accounts, row.id = entry.accountId ∧ row.externalRef = externalRef) ↔
      ∃ entry ∈ db'.ledger, entry.eventId = eventId ∧ entry.amountMinor = amount ∧
        ∃ row ∈ db'.accounts, row.id = entry.accountId ∧ row.externalRef = externalRef

/-! ## The books tell the tables -/

theorem books_account_iff {db : Db} (good : Wf db) {externalRef : String} {state : AccountState} :
    db.books.account externalRef = some state ↔
      ∃ row ∈ db.accounts, row.externalRef = externalRef ∧ row.toAccountState = state := by
  simp only [Db.books, Option.map_eq_some_iff]
  constructor
  · rintro ⟨row, found, rfl⟩
    obtain ⟨member, named⟩ := accountOf?_mem found
    exact ⟨row, member, named, rfl⟩
  · rintro ⟨row, member, rfl, rfl⟩
    exact ⟨row, accountOf?_of_mem good member, rfl⟩

theorem books_posted_iff {db : Db} (good : Wf db) {eventId : Nat} {externalRef : String} {amount : Int} :
    db.books.posted eventId = some (externalRef, amount) ↔
      ∃ entry ∈ db.ledger, entry.eventId = eventId ∧ entry.amountMinor = amount ∧
        ∃ row ∈ db.accounts, row.id = entry.accountId ∧ row.externalRef = externalRef := by
  simp only [Db.books, Option.bind_eq_some_iff, Option.map_eq_some_iff, Prod.mk.injEq]
  constructor
  · rintro ⟨entry, found, row, owner, rfl, rfl⟩
    have about : entry.eventId = eventId := by simpa using List.find?_some found
    exact ⟨entry, List.mem_of_find?_eq_some found, about, rfl, row, List.mem_of_find?_eq_some owner,
      account?_id owner, rfl⟩
  · rintro ⟨entry, member, rfl, rfl, row, known, owner, rfl⟩
    have there := account?_of_mem good known
    rw [owner] at there
    exact ⟨entry, find?_of_nodup good.ledgerEvents member, row, there, rfl, rfl⟩

theorem sameMoney_of_books {db db' : Db} (good : Wf db) (good' : Wf db') (same : db.books = db'.books) :
    SameMoney db db' := by
  constructor
  · intro externalRef state
    rw [← books_account_iff good, ← books_account_iff good', same]
  · intro eventId externalRef amount
    rw [← books_posted_iff good, ← books_posted_iff good', same]

/-! ## One pass at a time is a run -/

section Serial

variable {svc : Service} {input : Input} {start serial : Db}

/-- The serial store is the store of a run in which the passes follow one another. -/
theorem serially_reaches {order : List Nat} (ran : svc.serially input start order = some serial) :
    ∃ w, svc.Reaches (.workers (· ∈ order)) (.init start) w ∧ w.db = serial := by
  obtain ⟨schedule, log, went, kinds⟩ := Txn.serially_run [] ran
  refine ⟨_, Txn.reach_of_run (fun _ action member => ?_) went, rfl⟩
  rcases kinds action member with rfl | rfl | ⟨call, there, rfl⟩
  · trivial
  · trivial
  · obtain ⟨id, listed, rfl⟩ := List.mem_map.mp there
    exact ⟨id, rfl, listed⟩

theorem alone_wf (good : Wf start) {eventId : Nat}
    (ran : svc.system.alone input start (.process eventId) = some serial) : Wf serial := by
  have serially : svc.serially input start [eventId] = some serial := by
    simp [Service.serially, Txn.System.serially, ran]
  obtain ⟨w, reached, rfl⟩ := serially_reaches serially
  exact (reaches_history good reached).1

theorem serially_append {order : List Nat} {eventId : Nat} {last : Db}
    (ran : svc.serially input start order = some serial)
    (next : svc.system.alone input serial (.process eventId) = some last) :
    svc.serially input start (order ++ [eventId]) = some last := by
  simp only [Service.serially, Txn.System.serially] at ran ⊢
  rw [List.map_append, List.foldlM_append, ran]
  simp [next]

end Serial

/-! ## The two stores in step -/

/-- An event in the workers' store and in the serial one: not processed yet, and as due
in the serial store as it was at the start; or processed in both. -/
inductive InStep (registry : HandlerRegistry) (input : Input) (id : Nat) (db serial : Db) : Prop where
  | waiting {event twin : EventRow} (found : db.event? id = some event)
      (there : serial.event? id = some twin) (same : event.toIncomingEvent = twin.toIncomingEvent)
      (pending : twin.status = .pending) (due : twin.nextAttemptAt ≤ input.now)
      (attempts : ∀ attempt ∈ serial.attempts, attempt.eventId = id → attempt ∈ db.attempts)
  | processed {twin : EventRow} (there : serial.event? id = some twin)
      (status : twin.status = .succeeded) (done : DoneWith registry id db)

structure Twins (registry : HandlerRegistry) (events : Nat → Prop) (input : Input) (db serial : Db) :
    Prop where
  good : Wf serial
  books : serial.books = db.books
  events : ∀ id, events id → InStep registry input id db serial

/-- A sequence value that the workers use up changes nothing between the stores. -/
theorem Twins.drawn {registry : HandlerRegistry} {events : Nat → Prop} {input : Input} {db serial : Db}
    (table : Table) (twins : Twins registry events input db serial) :
    Twins registry events input ((Write.draw table).apply db) serial := by
  refine ⟨twins.good, twins.books, fun id chosen => ?_⟩
  cases twins.events id chosen with
  | waiting found there same pending due attempts => exact .waiting found there same pending due attempts
  | processed there status done => exact .processed there status ⟨knows_apply _ done.1, done.2⟩

section Steps

variable {svc : Service} {events : Nat → Prop} {input : Input} {call : Call} {trace : Trace}
  {db serial : Db} {writes : List Write} (shipped : svc.registry = Balance.registry) (good : Wf db)
  (called : call.isPurge = false) (committed : Committed svc (.workers events) call trace db writes)

include shipped good called committed

/-- The workers' store moves on, the serial store stays. -/
theorem InStep.forward {id : Nat} (step : InStep svc.registry input id db serial) :
    InStep svc.registry input id (db.after writes) serial := by
  cases step with
  | waiting found there same pending due attempts =>
    obtain ⟨event', after, kept⟩ := committed.keeps_event called found
    exact .waiting after there (kept.trans same) pending due fun attempt member about =>
      committed.keeps_attempts called (attempts attempt member about)
  | processed there status done =>
    exact .processed there status (committed.keeps_doneWith shipped good done)

theorem Twins.idle (twins : Twins svc.registry events input db serial)
    (unmoved : (db.after writes).books = db.books) :
    Twins svc.registry events input (db.after writes) serial :=
  ⟨twins.good, twins.books.trans unmoved.symm,
    fun id chosen => (twins.events id chosen).forward shipped good called committed⟩

/-- The workers' store commits a pass that dealt with its event, and the serial run
makes that pass. -/
theorem Twins.dealt {eventId : Nat} {result : EffectResult} (chosen : events eventId)
    (passing : call.passesOver eventId = true) (done : Dealt svc eventId db result writes)
    (twins : Twins svc.registry events input db serial) :
    ∃ serial', svc.system.alone input serial (.process eventId) = some serial' ∧
      Twins svc.registry events input (db.after writes) serial' := by
  have strict : svc.registry.OwnsEntity := shipped ▸ Balance.registry_ownsEntity
  cases twins.events eventId chosen with
  | processed there status finished =>
    -- dealt with before: neither store moves
    obtain ⟨accounts, ledger⟩ := committed.idempotent shipped good passing finished
    refine ⟨serial, alone_idle svc input there (by simp [status]), ?_⟩
    exact twins.idle shipped good called committed (books_congr accounts ledger)
  | @waiting event twin found there same pending due attempts =>
    obtain ⟨event', effect, found', dispatched, fits, number, inRange, later⟩ := done.fits strict good
    obtain ⟨event'', effect', found'', dispatched', clean⟩ := done.books strict good
    rw [found, Option.some.injEq] at found' found''
    subst found' found''
    rw [dispatched, Except.ok.injEq] at dispatched'
    subst dispatched'
    -- the serial run makes the same pass: the same effect on the same books
    have sequence : twin.providerSequence = event.providerSequence := by rw [same]
    have dispatchedTwin : svc.registry.dispatch twin.toDomain = .ok effect := by
      rw [shipped, ← Balance.dispatch_delivered same, ← shipped]
      exact dispatched
    rw [← twins.books, ← sequence] at fits
    have inRangeTwin := isInteger_nextAttemptNumber inRange fun row member about =>
      later row (attempts row member about) about
    obtain ⟨result', writes', seq, ran, doneTwin⟩ := alone_process svc input twins.good there pending
      due dispatchedTwin fits inRangeTwin
    obtain ⟨twin', effect', there', dispatched', cleanTwin⟩ := doneTwin.books strict twins.good
    rw [there, Option.some.injEq] at there'
    subst there'
    rw [dispatchedTwin, Except.ok.injEq] at dispatched'
    subst dispatched'
    have books : (serial.after writes').books = (db.after writes).books := by
      rw [twins.books, sequence, ← clean] at cleanTwin
      exact (Prod.mk.injEq .. ▸ cleanTwin).2
    obtain ⟨before, queue, there', -, status, -, lookup⟩ := doneTwin.event?
    obtain ⟨attempt, -, mine, -, recorded⟩ := doneTwin.attempt
    refine ⟨_, ran, alone_wf twins.good ran, books, fun id listed => ?_⟩
    by_cases self : id = eventId
    · subst self
      exact .processed ((lookup id).trans (if_pos rfl)) status (done.doneWith shipped good)
    · cases (twins.events id listed).forward shipped good called committed with
      | processed thereToo status finished =>
        exact .processed ((lookup id).trans ((if_neg self).trans thereToo)) status finished
      | waiting foundToo thereToo same pending due known =>
        refine .waiting foundToo ((lookup id).trans ((if_neg self).trans thereToo)) same pending due ?_
        intro row member about
        have either : row ∈ serial.attempts ++ [attempt] := recorded ▸ member
        rcases List.mem_append.mp either with old | new
        · exact known row old about
        · rw [List.mem_singleton.mp new, mine] at about
          exact absurd about.symm self

end Steps

/-- For any lock key function and any interleaving, the money after concurrent passes
over due events is the money after the passes that committed, one at a time in commit
order. -/
theorem workers_serializable (svc : Service) (shipped : svc.registry = Balance.registry) {start : Db}
    (good : Wf start) (events : Nat → Prop) (input : Input)
    (due : ∀ id, events id → ∃ event, start.event? id = some event ∧ event.status = .pending ∧
      event.nextAttemptAt ≤ input.now) {w : World}
    (reached : svc.Reaches (.workers events) (.init start) w) :
    ∃ serial, svc.serially input start (processedIn w.log) = some serial ∧ SameMoney w.db serial := by
  obtain ⟨wf, past⟩ := reaches_history good reached
  let Together (log : List Commit) (db : Db) : Prop :=
    ∃ serial, svc.serially input start (processedIn log) = some serial ∧
      Twins svc.registry events input db serial
  have together : Together w.log w.db := by
    refine past.along (P := Together) ?_ ?_ ?_ ?_
    · refine ⟨start, rfl, good, rfl, fun id chosen => ?_⟩
      obtain ⟨event, found, pending, atOnce⟩ := due id chosen
      exact .waiting found found rfl pending atOnce fun attempt member _ => member
    · exact fun table ⟨serial, ran, twins⟩ => ⟨serial, ran, twins.drawn table⟩
    · rintro log db ids ⟨olderThan, id, called, -⟩
      cases called
    · rintro log entry good - ⟨eventId, process, chosen⟩ committed ⟨serial, ran, twins⟩
      have called : entry.call.isPurge = false := by rw [process]; rfl
      have listed : processedIn (log ++ [entry]) = processedIn log ++ dealtIn entry.writes := by
        simp [processedIn]
      rcases committed.dealt_or_clerical with ⟨silent, clerical⟩ | ⟨id, result, passing, done⟩
      · refine ⟨serial, ?_, twins.idle shipped good called committed (books_clerical clerical entry.before)⟩
        rw [listed, silent, List.append_nil]
        exact ran
      · have same : eventId = id := passesOver_unique (by simp [process, Call.passesOver]) passing
        subst same
        obtain ⟨serial', alone, twins'⟩ := twins.dealt shipped good called committed chosen passing done
        refine ⟨serial', ?_, twins'⟩
        rw [listed, done.recorded.1]
        exact serially_append ran alone
  obtain ⟨serial, ran, twins⟩ := together
  exact ⟨serial, ran, sameMoney_of_books wf twins.good twins.books.symm⟩

/-- A credit and a snapshot of one account are both claimed; the snapshot overtakes the
credit, and the serial run has them in that order. -/
theorem workers_serializable_sample : ∃ start w serial,
    Sample.service.Reaches (.workers (· ∈ [1, 2])) (.init start) w ∧ processedIn w.log = [2, 1] ∧
    w.db.accounts.map (·.balanceMinor) = [600] ∧
    Sample.service.serially (Sample.clock 0) start [2, 1] = some serial ∧ SameMoney w.db serial := by
  let deliveries : List Action :=
    Sample.store 0 (Sample.credit "c" 100 1) ++ Sample.store 1 (Sample.snapshot "s" 500 2)
  let schedule : List Action :=
    .spawn 2 (.process 1) :: .spawn 3 (.process 2) :: Sample.steps 3 2 ++ Sample.steps 2 4 ++
    Sample.steps 3 11 ++ Sample.steps 2 9
  obtain ⟨begun, stored, shown⟩ := Sample.service.reaches_test .any (.init Db.empty) deliveries
    (fun begun => (([1, 2] : List Nat).all fun id => (begun.db.event? id).any fun event =>
        event.status = .pending ∧ event.nextAttemptAt ≤ (Sample.clock 0).now) ∧
      (Sample.service.runFrom (.init begun.db) schedule).any fun w =>
        processedIn w.log = [2, 1] ∧ w.db.accounts.map (·.balanceMinor) = [600])
    (fun action _ => Scope.any_permits action) (by decide +kernel)
  simp only [decide_eq_true_eq] at shown
  obtain ⟨due, passed⟩ := shown
  obtain ⟨w, reached, shown⟩ := Sample.service.reaches_test (.workers (· ∈ [1, 2]))
    (.init begun.db) schedule _
    (by simp [schedule, Sample.steps, Scope.permits, Scope.workers]) passed
  simp only [decide_eq_true_eq] at shown
  obtain ⟨order, balance⟩ := shown
  have good := (reaches_history wf_empty stored).1
  have ready : ∀ id, id ∈ [1, 2] → ∃ event, begun.db.event? id = some event ∧ event.status = .pending ∧
      event.nextAttemptAt ≤ (Sample.clock 0).now := by
    intro id listed
    have checked := List.all_eq_true.mp due id listed
    simpa [Option.any_eq_true] using checked
  obtain ⟨serial, ran, same⟩ := workers_serializable Sample.service rfl good (· ∈ [1, 2])
    (Sample.clock 0) ready reached
  rw [order] at ran
  exact ⟨begun.db, w, serial, reached, order, balance, ran, same⟩

end WebhookReceiver
