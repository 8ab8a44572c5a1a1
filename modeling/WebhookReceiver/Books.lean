import WebhookReceiver.Runs

/-!
The books: what the accounts and the ledger say, by name instead of by row id.

`Books.process` is what processing an event means for them, one event at a time and
with nothing else going on. `Applied.books` is the refinement: a transaction that
applied an effect, committed among any others, did exactly that to the books of the
store it committed on. Nothing but such transactions changes the books
(`Committed.money`).
-/

namespace WebhookReceiver

/-! ## The books -/

/-- The state of each account by its name, and what each event posted where. -/
@[ext] structure Books where
  account : String → Option AccountState
  posted : Nat → Option (String × Int)

namespace Books

variable (books : Books)

/-- An account nobody has opened stands at nothing. -/
def state (externalRef : String) : AccountState := (books.account externalRef).getD ⟨0, 0⟩

def opened (externalRef : String) : Books :=
  { books with account := Function.update books.account externalRef (some (books.state externalRef)) }

/-- A posting of the event, and the state it leaves the account in. -/
def post (eventId : Nat) (externalRef : String) (amount : Int) (state : AccountState) : Books where
  account := Function.update books.account externalRef (some state)
  posted := Function.update books.posted eventId (some (externalRef, amount))

/-- The meaning of an effect of an event, given the event's sequence. -/
def process (eventId : Nat) (sequence : Option Int) : Effect → EffectResult × Books
  | .credit effect =>
    let current := books.state effect.accountRef
    if (books.posted eventId).isSome then (.alreadyApplied, books.opened effect.accountRef)
    else (.applied, books.post eventId effect.accountRef effect.amountMinor
      ⟨current.balanceMinor + effect.amountMinor, max current.version (sequence.getD 0)⟩)
  | .setBalance effect =>
    let current := books.state effect.accountRef
    if effect.sequence ≤ current.version then (.superseded, books.opened effect.accountRef)
    else if (books.posted eventId).isSome then (.alreadyApplied, books.opened effect.accountRef)
    else (.applied, books.post eventId effect.accountRef (effect.balanceMinor - current.balanceMinor)
      ⟨effect.balanceMinor, effect.sequence⟩)

end Books

/-- The books of a store. -/
def Db.books (db : Db) : Books where
  account := fun externalRef => (db.accountOf? externalRef).map (·.toAccountState)
  posted := fun eventId => (db.ledgerOf? eventId).bind fun entry =>
    (db.account? entry.accountId).map fun account => (account.externalRef, entry.amountMinor)

/-! ## Reading the books -/

theorem find?_unique {α : Type} {p : α → Bool} {rows : List α} {row : α} (member : row ∈ rows)
    (hit : p row = true) (only : ∀ other ∈ rows, p other = true → other = row) :
    rows.find? p = some row := by
  cases found : rows.find? p with
  | none => exact absurd hit (by simpa using List.find?_eq_none.mp found row member)
  | some other =>
    rw [only other (List.mem_of_find?_eq_some found) (List.find?_some found)]

theorem books_state {db : Db} {row : AccountRow} {externalRef : String}
    (found : db.accountOf? externalRef = some row) : db.books.state externalRef = row.toAccountState := by
  simp [Books.state, Db.books, found]

theorem books_unopened {db : Db} {externalRef : String}
    (absent : ∀ row ∈ db.accounts, row.externalRef ≠ externalRef) :
    db.accountOf? externalRef = none ∧ db.books.state externalRef = ⟨0, 0⟩ := by
  have none : db.accountOf? externalRef = none := by
    simpa [Db.accountOf?] using absent
  exact ⟨none, by simp [Books.state, Db.books, none]⟩

/-- An event has posted something exactly if it has a ledger entry. -/
theorem books_posted {db : Db} (good : Wf db) {eventId : Nat} :
    (db.books.posted eventId).isSome ↔ ∃ entry ∈ db.ledger, entry.eventId = eventId := by
  simp only [Db.books]
  constructor
  · intro posted
    cases found : db.ledgerOf? eventId with
    | none => simp [found] at posted
    | some entry => exact ⟨entry, List.mem_of_find?_eq_some found, by simpa using List.find?_some found⟩
  · rintro ⟨entry, member, rfl⟩
    have found : db.ledgerOf? entry.eventId = some entry := find?_of_nodup good.ledgerEvents member
    obtain ⟨account, known, owner⟩ := good.ledgerAccount entry member
    have named := account?_of_mem good known
    rw [owner] at named
    simp [found, named]

theorem books_unposted {db : Db} {eventId : Nat} (first : ∀ entry ∈ db.ledger, entry.eventId ≠ eventId) :
    db.books.posted eventId = none := by
  have none : db.ledgerOf? eventId = none := by
    simpa [Db.ledgerOf?] using first
  simp [Db.books, none]

/-- The books read accounts and ledger, and nothing else. -/
theorem books_congr {db db' : Db} (accounts : db'.accounts = db.accounts) (ledger : db'.ledger = db.ledger) :
    db'.books = db.books := by
  simp only [Db.books, Db.accountOf?, Db.account?, Db.ledgerOf?, accounts, ledger]

theorem books_clerical {writes : List Write} (clerical : ∀ write ∈ writes, write.business = false)
    (db : Db) : (db.after writes).books = db.books := by
  obtain ⟨accounts, ledger⟩ := Db.after_clerical clerical db
  exact books_congr accounts ledger

/-! ## Refinement -/

section Refinement

variable {db : Db} {externalRef : String} {row : AccountRow} {created : List Write}

/-- The account is the only one with its name. -/
theorem AccountFor.alone (account : AccountFor db externalRef row created) (good : Wf db)
    {other : AccountRow} (member : other ∈ (db.after created).accounts)
    (same : other.externalRef = externalRef) : other = row := by
  cases account with
  | existing known named =>
    exact List.inj_on_of_nodup_map good.accountRefs member known (same.trans named.symm)
  | created absent fresh =>
    simp only [Db.after_cons, Db.after_nil, Write.apply, List.mem_append, List.mem_singleton] at member
    rcases member with old | new
    · exact absurd same (absent other old)
    · exact new

theorem AccountFor.byId (account : AccountFor db externalRef row created) (good : Wf db) :
    (db.after created).account? row.id = some row :=
  find?_unique account.mem.1 (by simp) fun other known hit => account.only good known (by simpa using hit)

theorem AccountFor.state (account : AccountFor db externalRef row created) (good : Wf db) :
    db.books.state externalRef = row.toAccountState := by
  cases account with
  | existing member named =>
    subst named
    exact books_state (accountOf?_of_mem good member)
  | created absent fresh => exact (books_unopened absent).2

/-- Looking up an account for an effect opens it, and does no more. -/
theorem AccountFor.books (account : AccountFor db externalRef row created) (good : Wf db) :
    (db.after created).books = db.books.opened externalRef := by
  cases account with
  | existing member named =>
    subst named
    have found := accountOf?_of_mem good member
    have there : db.books.account row.externalRef = some row.toAccountState := by
      simp [Db.books, found]
    simp only [Db.after_nil, Books.opened, Books.state, there, Option.getD_some]
    rw [← there, Function.update_eq_self]
  | @created id absent fresh =>
    obtain ⟨none, state⟩ := books_unopened absent
    rw [Books.opened, state]
    ext1
    · funext name
      simp only [Db.books, Db.after_cons, Db.after_nil, accountOf?_apply, Write.onAccountOf]
      by_cases same : externalRef = name
      · subst same
        simp [none]
      · simp [same, Function.update_of_ne (Ne.symm same)]
    · funext eventId
      simp only [Db.books, Db.after_cons, Db.after_nil, account?_apply, Write.onAccount]
      have ledger : ((Write.insertAccount ⟨⟨0, 0⟩, id, externalRef⟩).apply db).ledgerOf? eventId =
          db.ledgerOf? eventId := rfl
      rw [ledger]
      cases found : db.ledgerOf? eventId with
      | none => rfl
      | some entry =>
        obtain ⟨owner, known, same⟩ := good.ledgerAccount entry (List.mem_of_find?_eq_some found)
        have there := account?_of_mem good known
        rw [same] at there
        simp [there]

theorem AccountFor.ledgerAccount (account : AccountFor db externalRef row created) (good : Wf db)
    {entry : LedgerEntry} (member : entry ∈ db.ledger) :
    ∃ owner, (db.after created).account? entry.accountId = some owner := by
  obtain ⟨owner, known, same⟩ := good.ledgerAccount entry member
  have there := account?_of_mem good known
  rw [same] at there
  cases account with
  | existing known named => exact ⟨owner, there⟩
  | created absent fresh =>
    refine ⟨owner, ?_⟩
    simp [account?_apply, Write.onAccount, there]

/-- A posting to the account that was looked up. -/
theorem AccountFor.post (account : AccountFor db externalRef row created) (good : Wf db)
    {id eventId : Nat} {amount : Int} {state : AccountState}
    (first : ∀ entry ∈ db.ledger, entry.eventId ≠ eventId) :
    (db.after (created ++ [Write.insertLedger ⟨id, row.id, eventId, amount⟩,
      .updateAccount row.id state])).books = db.books.post eventId externalRef amount state := by
  obtain ⟨member, named⟩ := account.mem
  have byName : (db.after created).accountOf? externalRef = some row :=
    find?_unique member (by simpa using named) fun other known hit =>
      account.alone good known (by simpa using hit)
  have byId := account.byId good
  have opened := account.books good
  rw [Db.after_append]
  ext1
  · funext name
    simp only [Db.books, Books.post, Db.after_cons, Db.after_nil, accountOf?_apply, Write.onAccountOf]
    by_cases same : name = externalRef
    · subst same
      simp [byName]
    · rw [Function.update_of_ne same]
      have before := congrArg (fun books => books.account name) opened
      simp only [Db.books, Books.opened, Function.update_of_ne same] at before
      rw [← before]
      cases found : (db.after created).accountOf? name with
      | none => rfl
      | some other =>
        have differ : other.id ≠ row.id := by
          intro alike
          obtain ⟨there, called⟩ := accountOf?_mem found
          rw [account.only good there alike, named] at called
          exact same called.symm
        simp [differ]
  · funext other
    have before := congrArg (fun books => books.posted other) opened
    simp only [Db.books, Books.opened] at before
    simp only [Db.books, Books.post, Db.after_cons, Db.after_nil, account?_apply, Write.onAccount]
    have ledger : ∀ view : Db, view.ledger = db.ledger → Db.ledgerOf?
        ((Write.updateAccount row.id state).apply ((Write.insertLedger ⟨id, row.id, eventId, amount⟩).apply
          view)) other = (db.ledgerOf? other).or
        (if eventId = other then some ⟨id, row.id, eventId, amount⟩ else none) := by
      intro view same
      simp only [Db.ledgerOf?, Write.apply, same]
      exact find?_insert
    rw [ledger _ account.ledger]
    by_cases same : other = eventId
    · subst same
      have none : db.ledgerOf? other = none := by simpa [Db.ledgerOf?] using first
      simp [none, byId, named]
    · rw [Function.update_of_ne same]
      have unposted : ((db.ledgerOf? other).or
          (if eventId = other then some ⟨id, row.id, eventId, amount⟩ else none)) = db.ledgerOf? other := by
        simp [Ne.symm same]
      have kept : (db.after created).ledgerOf? other = db.ledgerOf? other := by
        simp only [Db.ledgerOf?, account.ledger]
      rw [unposted, ← before, kept]
      cases found : db.ledgerOf? other with
      | none => rfl
      | some entry =>
        obtain ⟨owner, there⟩ := account.ledgerAccount good (List.mem_of_find?_eq_some found)
        simp only [Option.bind_some, there, Option.map_some, Option.some.injEq, Prod.mk.injEq, and_true]
        split <;> rfl

end Refinement

/-- A transaction that applied an effect did to the books what processing the event
alone does to them. -/
theorem Applied.books {strict : Prop} {db : Db} {event : StoredEvent} {effect : Effect}
    {result : EffectResult} {writes : List Write} (good : Wf db) (owned : strict)
    (applied : Applied strict db event effect result writes) :
    (result, (db.after writes).books) = db.books.process event.id event.providerSequence effect := by
  cases applied with
  | credit account first inRange =>
    have unposted := books_unposted first
    simp only [Books.process, unposted, Option.isSome_none, Bool.false_eq_true, if_false,
      account.state good, account.post good first]
  | creditAgain account again inRange =>
    simp only [Books.process, (books_posted good).mpr again, if_true, account.books good]
  | superseded account stale =>
    simp only [Books.process, account.state good, if_pos (stale owned), account.books good]
  | snapshot account first newer moved inRange =>
    have unposted := books_unposted first
    have late := Int.not_le.mpr (newer owned)
    simp only [Books.process, unposted, Option.isSome_none, Bool.false_eq_true, if_false,
      account.state good, if_neg late, account.post good first, moved owned]
  | snapshotAgain account newer moved again inRange =>
    have late := Int.not_le.mpr (newer owned)
    simp only [Books.process, account.state good, if_neg late, (books_posted good).mpr again, if_true,
      account.books good]

/-! ## Nothing else moves money -/

theorem Failed.clerical {svc : Service} {eventId : Nat} {db : Db} {writes : List Write}
    (failed : Failed svc eventId db writes) : ∀ write ∈ writes, write.business = false := by
  cases failed with
  | mk found next outcome recorded judged =>
    cases judged with
    | rescheduled retryable left start cap => simp [Write.business]
    | deadLettered spent filing =>
      rcases filing with ⟨-, rfl⟩ | ⟨-, id, at', rfl⟩ <;> simp [Write.business]

theorem Moves.clerical {db : Db} {target : DlqStatus} {row : EntryRow} {writes : List Write}
    (moves : Moves db target row writes) : ∀ write ∈ writes, write.business = false := by
  cases moves with
  | move member legal => simp [Write.business]

theorem StartTx.clerical {eventId : Nat} {db : Db} {writes : List Write}
    (started : StartTx eventId db writes) : ∀ write ∈ writes, write.business = false := by
  cases started with
  | requeued found marks =>
    refine List.forall_mem_cons.mpr ⟨rfl, ?_⟩
    rcases marks with rfl | ⟨row, about, moves⟩
    · simp
    · exact moves.clerical

theorem FinishTx.clerical {purging : Prop} {eventId : Nat} {trace : Trace} {db : Db}
    {writes : List Write} (finished : FinishTx purging eventId trace db writes) :
    ∀ write ∈ writes, write.business = false := by
  cases finished with
  | finished about honest settles =>
    refine List.forall_mem_cons.mpr ⟨rfl, ?_⟩
    rcases settles with rfl | ⟨row, about, ⟨-, moves⟩ | ⟨-, moves⟩⟩
    · simp
    · exact moves.clerical
    · exact moves.clerical

theorem IngestTx.clerical {purging : Prop} {event : IncomingEvent} {db : Db} {result : IngestResult}
    {writes : List Write} (ingested : IngestTx purging event db result writes) :
    ∀ write ∈ writes, write.business = false := by
  cases ingested with
  | inserted storable fresh unused first => simp [Write.business]
  | duplicate known => simp

/-- Only a pass that dealt with its event moves money. -/
theorem Committed.money {svc : Service} {scope : Scope} {call : Call} {trace : Trace} {db : Db}
    {writes : List Write} (committed : Committed svc scope call trace db writes) :
    (∀ write ∈ writes, write.business = false) ∨
      ∃ eventId result, call.passesOver eventId = true ∧ Dealt svc eventId db result writes := by
  cases committed with
  | idle => exact Or.inl (by simp)
  | dealt passing done => exact Or.inr ⟨_, _, passing, done⟩
  | failed passing done => exact Or.inl done.clerical
  | started replay done => exact Or.inl done.clerical
  | finished replay done => exact Or.inl done.clerical
  | moved triage named done => exact Or.inl done.clerical
  | stored stores answered done => exact Or.inl done.clerical
  | purged purge done => exact Or.inl fun write member => (done write member).clerical

end WebhookReceiver
