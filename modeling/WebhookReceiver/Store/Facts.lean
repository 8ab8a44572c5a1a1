import WebhookReceiver.Store.Integrity
import WebhookReceiver.Txn.Logic

/-!
Facts that locks keep true.

A `Fact` is something a transaction can know of the store while other transactions
commit. `Guarded` names the locks that protect it; some facts need none, because
nothing ever undoes them. `fact_stable` is the reason the rest of the development
may look at one store per transaction: a licensed write of another transaction
leaves a guarded fact true, also under the transaction's own pending writes.

The proof goes through `Agree`: two stores that a fact cannot tell apart. A foreign
write leads to such a store (`agree_foreign`), and own writes preserve the relation
(`agree_apply`) whatever they are.
-/

namespace WebhookReceiver

open Txn (Mode Compatible)

/-! ## Lookups under a write -/

/-- What a write does to the event that `event?` finds under `id`. -/
def Write.onEvent (id : Nat) (found : Option EventRow) : Write → Option EventRow
  | .insertEvent row => found.or (if row.id = id then some row else none)
  | .updateEvent target queue =>
    found.map fun row => if row.id = target then { row with toEventQueue := queue } else row
  | .deleteEvent target => if id = target then none else found
  | _ => found

def Write.onAccount (id : Nat) (found : Option AccountRow) : Write → Option AccountRow
  | .insertAccount row => found.or (if row.id = id then some row else none)
  | .updateAccount target state =>
    found.map fun row => if row.id = target then { row with toAccountState := state } else row
  | _ => found

def Write.onAccountOf (externalRef : String) (found : Option AccountRow) : Write → Option AccountRow
  | .insertAccount row => found.or (if row.externalRef = externalRef then some row else none)
  | .updateAccount target state =>
    found.map fun row => if row.id = target then { row with toAccountState := state } else row
  | _ => found

/-- A lookup through an update that leaves the looked-up column alone. -/
theorem find?_update {α : Type} {key p : α → Prop} [DecidablePred key] [DecidablePred p] {g : α → α}
    {rows : List α} (same : ∀ row, key (g row) ↔ key row) :
    (rows.map fun row => if p row then g row else row).find? (fun row => decide (key row)) =
      (rows.find? fun row => decide (key row)).map fun row => if p row then g row else row := by
  rw [List.find?_map]
  congr 1
  congr 1
  funext row
  by_cases hit : p row <;> simp [hit, same]

theorem find?_insert {α : Type} {key : α → Prop} [DecidablePred key] {rows : List α} {new : α} :
    (rows ++ [new]).find? (fun row => decide (key row)) =
      (rows.find? fun row => decide (key row)).or (if key new then some new else none) := by
  rw [List.find?_append]
  by_cases hit : key new <;> simp [hit]

theorem event?_apply (w : Write) (db : Db) (id : Nat) :
    (w.apply db).event? id = w.onEvent id (db.event? id) := by
  cases w with
  | insertEvent row => exact find?_insert
  | updateEvent target queue => exact find?_update fun _ => Iff.rfl
  | deleteEvent target =>
    simp only [Db.event?, Write.apply, Write.onEvent, List.find?_filter]
    by_cases same : id = target
    · subst same
      simp
    · rw [if_neg same]
      congr 1
      funext row
      by_cases hit : row.id = id
      · simp [hit, same]
      · simp [hit]
  | _ => rfl

theorem account?_apply (w : Write) (db : Db) (id : Nat) :
    (w.apply db).account? id = w.onAccount id (db.account? id) := by
  cases w with
  | insertAccount row => exact find?_insert
  | updateAccount target state => exact find?_update fun _ => Iff.rfl
  | _ => rfl

theorem accountOf?_apply (w : Write) (db : Db) (externalRef : String) :
    (w.apply db).accountOf? externalRef = w.onAccountOf externalRef (db.accountOf? externalRef) := by
  cases w with
  | insertAccount row => exact find?_insert
  | updateAccount target state => exact find?_update fun _ => Iff.rfl
  | _ => rfl

theorem event?_id {db : Db} {id : Nat} {row : EventRow} (found : db.event? id = some row) :
    row.id = id := by
  simpa using List.find?_some found

theorem account?_id {db : Db} {id : Nat} {row : AccountRow} (found : db.account? id = some row) :
    row.id = id := by
  simpa using List.find?_some found

theorem accountOf?_mem {db : Db} {externalRef : String} {row : AccountRow}
    (found : db.accountOf? externalRef = some row) :
    row ∈ db.accounts ∧ row.externalRef = externalRef :=
  ⟨List.mem_of_find?_eq_some found, by simpa using List.find?_some found⟩

/-- Under a unique column, the row a lookup finds is the row that is there. -/
theorem find?_of_nodup {α κ : Type} [DecidableEq κ] {f : α → κ} {rows : List α} {row : α}
    (unique : (rows.map f).Nodup) (member : row ∈ rows) :
    rows.find? (fun other => decide (f other = f row)) = some row := by
  cases found : rows.find? (fun other => decide (f other = f row)) with
  | none => exact absurd (List.find?_eq_none.mp found row member) (by simp)
  | some other =>
    have same : f other = f row := by simpa using List.find?_some found
    rw [List.inj_on_of_nodup_map unique (List.mem_of_find?_eq_some found) member same]

theorem accountOf?_of_mem {db : Db} (good : Wf db) {row : AccountRow} (member : row ∈ db.accounts) :
    db.accountOf? row.externalRef = some row :=
  find?_of_nodup good.accountRefs member

theorem account?_of_mem {db : Db} (good : Wf db) {row : AccountRow} (member : row ∈ db.accounts) :
    db.account? row.id = some row :=
  find?_of_nodup good.accountIds member

theorem event?_of_mem {db : Db} (good : Wf db) {row : EventRow} (member : row ∈ db.events) :
    db.event? row.id = some row :=
  find?_of_nodup good.eventIds member

theorem entryOf?_of_mem {db : Db} (good : Wf db) {row : EntryRow} (member : row ∈ db.entries) :
    db.entryOf? row.eventId = some row :=
  find?_of_nodup good.entryEvents member

theorem Db.entry?_eq_head? (db : Db) (id : Nat) :
    db.entry? id = (db.entries.filter fun row => row.id = id).head? := by
  rw [List.head?_filter]
  rfl

/-! ## Facts -/

inductive Fact where
  | event (id : Nat) (row : Option EventRow)
  | freshEvent (id : Nat)
  | noEventKey (source key : String)
  | hasEventKey (source key : String) (id : Nat)
  | attemptsUpTo (eventId number : Nat)
  | noAttempt (eventId number : Nat)
  | freshAttempt (id : Nat)
  /-- Some attempt dealt with the event. -/
  | dealtWith (eventId : Nat)
  /-- The event has an attempt with this number, unless the number is zero. -/
  | attemptNumbered (eventId number : Nat)
  | entry (id : Nat) (row : Option EntryRow)
  | freshEntry (id : Nat)
  | noEntry (eventId : Nat)
  | entryOf (eventId id : Nat)
  | entriesAmong (eventId : Nat) (ids : List Nat)
  /-- No entry of the event has this status. -/
  | noEntryIn (eventId : Nat) (status : DlqStatus)
  | account (id : Nat) (row : Option AccountRow)
  | accountOf (externalRef : String) (row : Option AccountRow)
  | freshAccount (id : Nat)
  | noAccount (externalRef : String)
  | hasAccount (id : Nat) (externalRef : String)
  | noLedger (eventId : Nat)
  | hasLedger (eventId : Nat)

def Fact.holds : Fact → Db → Prop
  | .event id row, db => db.event? id = row
  | .freshEvent id, db =>
    (∀ row ∈ db.events, row.id ≠ id) ∧ id ∉ db.purged ∧ id < db.seq .event
  | .noEventKey source key, db => ∀ row ∈ db.events, ¬ (row.source = source ∧ row.idempotencyKey = key)
  | .hasEventKey source key id, db =>
    ∃ row ∈ db.events, row.id = id ∧ row.source = source ∧ row.idempotencyKey = key
  | .attemptsUpTo eventId number, db =>
    ∀ row ∈ db.attempts, row.eventId = eventId → row.attemptNumber ≤ number
  | .noAttempt eventId number, db =>
    ∀ row ∈ db.attempts, ¬ (row.eventId = eventId ∧ row.attemptNumber = number)
  | .freshAttempt id, db => (∀ row ∈ db.attempts, row.id ≠ id) ∧ id < db.seq .attempt
  | .dealtWith eventId, db => ∃ row ∈ db.attempts, row.eventId = eventId ∧ row.outcome.dealtWith
  | .attemptNumbered eventId number, db =>
    number = 0 ∨ ∃ row ∈ db.attempts, row.eventId = eventId ∧ row.attemptNumber = number
  | .entry id row, db => db.entry? id = row
  | .freshEntry id, db => (∀ row ∈ db.entries, row.id ≠ id) ∧ id < db.seq .entry
  | .noEntry eventId, db => ∀ row ∈ db.entries, row.eventId ≠ eventId
  | .entryOf eventId id, db => ∃ row ∈ db.entries, row.id = id ∧ row.eventId = eventId
  | .entriesAmong eventId ids, db => ∀ row ∈ db.entries, row.eventId = eventId → row.id ∈ ids
  | .noEntryIn eventId status, db => ∀ row ∈ db.entries, row.eventId = eventId → row.status ≠ status
  | .account id row, db => db.account? id = row
  | .accountOf externalRef row, db => db.accountOf? externalRef = row
  | .freshAccount id, db => (∀ row ∈ db.accounts, row.id ≠ id) ∧ id < db.seq .account
  | .noAccount externalRef, db => ∀ row ∈ db.accounts, row.externalRef ≠ externalRef
  | .hasAccount id externalRef, db => ∃ row ∈ db.accounts, row.id = id ∧ row.externalRef = externalRef
  | .noLedger eventId, db => ∀ row ∈ db.ledger, row.eventId ≠ eventId
  | .hasLedger eventId, db => ∃ row ∈ db.ledger, row.eventId = eventId

/-- The locks that keep a fact true while others commit. -/
def Guarded (regime : Regime) (locks : Locks) : Fact → Prop
  | .event id _ => locks.onEvent id
  | .freshEvent id => (.eventRow id, .excl) ∈ locks
  | .noEventKey source key => (.eventKey source key, .excl) ∈ locks
  | .hasEventKey _ _ id => ¬ regime.purging ∨ locks.onEvent id
  | .attemptsUpTo eventId _ => (.eventRow eventId, .excl) ∈ locks
  | .noAttempt eventId number => (.attemptNumber eventId number, .excl) ∈ locks
  | .freshAttempt id => (.attemptRow id, .excl) ∈ locks
  | .dealtWith _ => ¬ regime.purging
  | .attemptNumbered _ _ => ¬ regime.purging
  | .entry id _ => (.entryRow id, .excl) ∈ locks
  | .freshEntry id => (.entryRow id, .excl) ∈ locks
  | .noEntry eventId => (.dlqKey eventId, .excl) ∈ locks
  | .entryOf eventId _ => locks.onEvent eventId
  | .entriesAmong eventId _ => (.eventRow eventId, .excl) ∈ locks
  | .noEntryIn eventId .needsReview => (.eventRow eventId, .excl) ∈ locks
  | .noEntryIn eventId .replaying => locks.onEvent eventId
  | .noEntryIn _ _ => False
  | .account id _ => (.accountRow id, .excl) ∈ locks
  | .accountOf externalRef _ => regime.strict ∧ (regime.entity externalRef, .excl) ∈ locks
  | .freshAccount id => (.accountRow id, .excl) ∈ locks
  | .noAccount externalRef => (.accountKey externalRef, .excl) ∈ locks
  | .hasAccount _ _ => True
  | .noLedger eventId => (.ledgerKey eventId, .excl) ∈ locks ∨ (.eventRow eventId, .excl) ∈ locks
  | .hasLedger _ => True

variable {regime : Regime} {locks more own other : Locks} {db db' : Db} {w : Write} {f : Fact}

theorem guarded_mono (guard : Guarded regime locks f) : Guarded regime (locks ++ more) f := by
  have mono : ∀ {held}, held ∈ locks → held ∈ locks ++ more := fun member =>
    List.mem_append_left _ member
  cases f with
  | event id row => exact Locks.onEvent_mono guard
  | hasEventKey source key id => exact guard.imp_right Locks.onEvent_mono
  | entryOf eventId id => exact Locks.onEvent_mono guard
  | dealtWith eventId => exact guard
  | attemptNumbered eventId number => exact guard
  | noEntryIn eventId status =>
    cases status with
    | needsReview => exact mono guard
    | replaying => exact Locks.onEvent_mono guard
    | _ => cases guard
  | accountOf externalRef row => exact ⟨guard.1, mono guard.2⟩
  | hasAccount id externalRef => trivial
  | noLedger eventId => exact guard.imp mono mono
  | hasLedger eventId => trivial
  | _ => exact mono guard

/-! ## Stability -/

/-- Every row whose key satisfies `p` is matched in the other list by a row with
the same key. -/
def Keeps {α κ : Type} (key : α → κ) (p : κ → Prop) (rows rows' : List α) : Prop :=
  ∀ row ∈ rows, p (key row) → ∃ other ∈ rows', key other = key row

section Keeps

variable {α κ : Type} {key : α → κ} {p : κ → Prop} {rows rows' : List α}

theorem keeps_refl : Keeps key p rows rows := fun row member _ => ⟨row, member, rfl⟩

theorem Keeps.insert {new : α} (keeps : Keeps key p rows rows') :
    Keeps key p (rows ++ [new]) (rows' ++ [new]) := by
  intro row member holds
  rcases List.mem_append.mp member with old | added
  · exact exists_insert (keeps row old holds)
  · exact ⟨row, List.mem_append_right _ added, rfl⟩

theorem Keeps.filter (q : κ → Bool) (keeps : Keeps key p rows rows') :
    Keeps key p (rows.filter fun row => q (key row)) (rows'.filter fun row => q (key row)) := by
  intro row member holds
  obtain ⟨known, kept⟩ := List.mem_filter.mp member
  obtain ⟨other, found, same⟩ := keeps row known holds
  exact ⟨other, List.mem_filter.mpr ⟨found, by rwa [same]⟩, same⟩

theorem Keeps.update {hit : α → Prop} [DecidablePred hit] {g : α → α}
    (same : ∀ row, key (g row) = key row) (keeps : Keeps key p rows rows') :
    Keeps key p (rows.map fun row => if hit row then g row else row)
      (rows'.map fun row => if hit row then g row else row) := by
  have alike : ∀ row, key (if hit row then g row else row) = key row := by
    intro row
    by_cases this : hit row <;> simp [this, same]
  intro row member holds
  obtain ⟨old, known, rfl⟩ := List.mem_map.mp member
  rw [alike] at holds ⊢
  obtain ⟨other, found, matched⟩ := keeps old known holds
  exact ⟨_, List.mem_map_of_mem found, (alike other).trans matched⟩

/-- A row that is no match may come on the left. -/
theorem keeps_insert_left {new : α} (apart : ¬ p (key new)) : Keeps key p (rows ++ [new]) rows := by
  intro row member holds
  rcases List.mem_append.mp member with old | added
  · exact ⟨row, old, rfl⟩
  · rw [List.mem_singleton.mp added] at holds
    exact absurd holds apart

theorem keeps_insert_right {new : α} : Keeps key p rows (rows ++ [new]) :=
  fun row member _ => ⟨row, List.mem_append_left _ member, rfl⟩

theorem keeps_filter_left {q : α → Bool} : Keeps key p (rows.filter q) rows :=
  fun row member _ => ⟨row, (List.mem_filter.mp member).1, rfl⟩

/-- The matches may stay while others go. -/
theorem keeps_filter_right {q : α → Bool} (stay : ∀ row, p (key row) → q row = true) :
    Keeps key p rows (rows.filter q) :=
  fun row member holds => ⟨row, List.mem_filter.mpr ⟨member, stay row holds⟩, rfl⟩

theorem keeps_update_left {hit : α → Prop} [DecidablePred hit] {g : α → α}
    (same : ∀ row, key (g row) = key row) :
    Keeps key p (rows.map fun row => if hit row then g row else row) rows := by
  intro row member _
  obtain ⟨old, known, rfl⟩ := List.mem_map.mp member
  refine ⟨old, known, ?_⟩
  by_cases this : hit old <;> simp [this, same]

theorem keeps_update_right {hit : α → Prop} [DecidablePred hit] {g : α → α}
    (same : ∀ row, key (g row) = key row) :
    Keeps key p rows (rows.map fun row => if hit row then g row else row) := by
  intro row member _
  refine ⟨_, List.mem_map_of_mem member, ?_⟩
  by_cases this : hit row <;> simp [this, same]

end Keeps

/-- What never changes in a row, while the row is there. -/
def EventRow.key (row : EventRow) : Nat × String × String := (row.id, row.source, row.idempotencyKey)
def EntryRow.key (row : EntryRow) : Nat × Nat := (row.id, row.eventId)
def AccountRow.key (row : AccountRow) : Nat × String := (row.id, row.externalRef)

/-- The fact cannot tell the stores apart, or `db'` only speaks more for it. -/
def Agree : Fact → Db → Db → Prop
  | .event id _, db, db' => db.event? id = db'.event? id
  | .freshEvent id, db, db' =>
    Keeps EventRow.key (fun key => key.1 = id) db'.events db.events ∧
      (id ∈ db'.purged → id ∈ db.purged) ∧ db.seq .event ≤ db'.seq .event
  | .noEventKey source key, db, db' =>
    Keeps EventRow.key (fun found => found.2 = (source, key)) db'.events db.events
  | .hasEventKey source key id, db, db' =>
    Keeps EventRow.key (fun found => found = (id, source, key)) db.events db'.events
  | .attemptsUpTo eventId _, db, db' =>
    Keeps (fun row => row) (fun row => row.eventId = eventId) db'.attempts db.attempts
  | .noAttempt eventId number, db, db' =>
    Keeps (fun row => row) (fun row => row.eventId = eventId ∧ row.attemptNumber = number)
      db'.attempts db.attempts
  | .freshAttempt id, db, db' =>
    Keeps (fun row => row) (fun row => row.id = id) db'.attempts db.attempts ∧
      db.seq .attempt ≤ db'.seq .attempt
  | .dealtWith eventId, db, db' | .attemptNumbered eventId _, db, db' =>
    Keeps (fun row => row) (fun row => row.eventId = eventId) db.attempts db'.attempts
  | .entry id _, db, db' =>
    (db.entries.filter fun row => row.id = id) = db'.entries.filter fun row => row.id = id
  | .freshEntry id, db, db' =>
    Keeps EntryRow.key (fun key => key.1 = id) db'.entries db.entries ∧
      db.seq .entry ≤ db'.seq .entry
  | .noEntry eventId, db, db' | .entriesAmong eventId _, db, db' =>
    Keeps EntryRow.key (fun key => key.2 = eventId) db'.entries db.entries
  | .entryOf eventId id, db, db' =>
    Keeps EntryRow.key (fun key => key = (id, eventId)) db.entries db'.entries
  | .noEntryIn eventId status, db, db' =>
    ∀ row ∈ db'.entries, row.eventId = eventId →
      ∃ other ∈ db.entries, other.key = row.key ∧ (row.status = status → other.status = status)
  | .account id _, db, db' => db.account? id = db'.account? id
  | .accountOf externalRef _, db, db' => db.accountOf? externalRef = db'.accountOf? externalRef
  | .freshAccount id, db, db' =>
    Keeps AccountRow.key (fun key => key.1 = id) db'.accounts db.accounts ∧
      db.seq .account ≤ db'.seq .account
  | .noAccount externalRef, db, db' =>
    Keeps AccountRow.key (fun key => key.2 = externalRef) db'.accounts db.accounts
  | .hasAccount id externalRef, db, db' =>
    Keeps AccountRow.key (fun key => key = (id, externalRef)) db.accounts db'.accounts
  | .noLedger eventId, db, db' => Keeps (fun row => row) (fun row => row.eventId = eventId) db'.ledger db.ledger
  | .hasLedger eventId, db, db' => Keeps (fun row => row) (fun row => row.eventId = eventId) db.ledger
      db'.ledger

theorem holds_of_agree (agree : Agree f db db') (known : f.holds db) : f.holds db' := by
  cases f with
  | event id row => exact agree.symm.trans known
  | freshEvent id =>
    obtain ⟨rows, live, drawn⟩ := agree
    refine ⟨fun row member same => ?_, fun gone => known.2.1 (live gone),
      Nat.lt_of_lt_of_le known.2.2 drawn⟩
    obtain ⟨old, found, alike⟩ := rows row member same
    exact known.1 old found ((congrArg Prod.fst alike).trans same)
  | noEventKey source key =>
    rintro row member ⟨same, same'⟩
    obtain ⟨old, found, alike⟩ := agree row member (Prod.ext same same')
    have matched := congrArg Prod.snd alike
    exact known old found ⟨(congrArg Prod.fst matched).trans same, (congrArg Prod.snd matched).trans same'⟩
  | hasEventKey source key id =>
    obtain ⟨row, member, rfl, rfl, rfl⟩ := known
    obtain ⟨old, found, alike⟩ := agree row member rfl
    exact ⟨old, found, congrArg Prod.fst alike, congrArg (·.2.1) alike, congrArg (·.2.2) alike⟩
  | attemptsUpTo eventId number =>
    intro row member same
    obtain ⟨old, found, rfl⟩ := agree row member same
    exact known old found same
  | noAttempt eventId number =>
    rintro row member same
    obtain ⟨old, found, rfl⟩ := agree row member same
    exact known old found same
  | freshAttempt id =>
    refine ⟨fun row member same => ?_, Nat.lt_of_lt_of_le known.2 agree.2⟩
    obtain ⟨old, found, rfl⟩ := agree.1 row member same
    exact known.1 old found same
  | dealtWith eventId =>
    obtain ⟨row, member, same, done⟩ := known
    obtain ⟨old, found, rfl⟩ := agree row member same
    exact ⟨old, found, same, done⟩
  | attemptNumbered eventId number =>
    refine known.imp_right ?_
    rintro ⟨row, member, same, numbered⟩
    obtain ⟨old, found, rfl⟩ := agree row member same
    exact ⟨old, found, same, numbered⟩
  | noEntryIn eventId status =>
    intro row member same there
    obtain ⟨old, found, alike, matched⟩ := agree row member same
    exact known old found ((congrArg Prod.snd alike).trans same) (matched there)
  | entry id row =>
    simp only [Agree] at agree
    simp only [Fact.holds, Db.entry?_eq_head?] at known ⊢
    rw [← agree, known]
  | freshEntry id =>
    refine ⟨fun row member same => ?_, Nat.lt_of_lt_of_le known.2 agree.2⟩
    obtain ⟨old, found, alike⟩ := agree.1 row member same
    exact known.1 old found ((congrArg Prod.fst alike).trans same)
  | noEntry eventId =>
    intro row member same
    obtain ⟨old, found, alike⟩ := agree row member same
    exact known old found ((congrArg Prod.snd alike).trans same)
  | entryOf eventId id =>
    obtain ⟨row, member, rfl, rfl⟩ := known
    obtain ⟨old, found, alike⟩ := agree row member rfl
    exact ⟨old, found, congrArg Prod.fst alike, congrArg Prod.snd alike⟩
  | entriesAmong eventId ids =>
    intro row member same
    obtain ⟨old, found, alike⟩ := agree row member same
    have among := known old found ((congrArg Prod.snd alike).trans same)
    have matched : old.id = row.id := congrArg Prod.fst alike
    exact matched ▸ among
  | account id row => exact agree.symm.trans known
  | accountOf externalRef row => exact agree.symm.trans known
  | freshAccount id =>
    refine ⟨fun row member same => ?_, Nat.lt_of_lt_of_le known.2 agree.2⟩
    obtain ⟨old, found, alike⟩ := agree.1 row member same
    exact known.1 old found ((congrArg Prod.fst alike).trans same)
  | noAccount externalRef =>
    intro row member same
    obtain ⟨old, found, alike⟩ := agree row member same
    exact known old found ((congrArg Prod.snd alike).trans same)
  | hasAccount id externalRef =>
    obtain ⟨row, member, rfl, rfl⟩ := known
    obtain ⟨old, found, alike⟩ := agree row member rfl
    exact ⟨old, found, congrArg Prod.fst alike, congrArg Prod.snd alike⟩
  | noLedger eventId =>
    intro row member same
    obtain ⟨old, found, rfl⟩ := agree row member same
    exact known old found same
  | hasLedger eventId =>
    obtain ⟨row, member, same⟩ := known
    obtain ⟨old, found, rfl⟩ := agree row member same
    exact ⟨old, found, same⟩

/-! ### Own writes -/

section Own

variable (w : Write)

theorem keepsEvents_apply {p : Nat × String × String → Prop}
    (keeps : Keeps EventRow.key p db.events db'.events) :
    Keeps EventRow.key p (w.apply db).events (w.apply db').events := by
  cases w with
  | insertEvent row => exact keeps.insert
  | updateEvent id queue => exact keeps.update fun _ => rfl
  | deleteEvent id => exact keeps.filter fun key => key.1 ≠ id
  | _ => exact keeps

theorem keepsAttempts_apply {p : AttemptRow → Prop}
    (keeps : Keeps (fun row => row) p db.attempts db'.attempts) :
    Keeps (fun row => row) p (w.apply db).attempts (w.apply db').attempts := by
  cases w with
  | insertAttempt row => exact keeps.insert
  | deleteAttempts ids => exact keeps.filter fun row => row.id ∉ ids
  | deleteEvent id => exact keeps.filter fun row => row.eventId ≠ id
  | _ => exact keeps

theorem keepsEntries_apply {p : Nat × Nat → Prop}
    (keeps : Keeps EntryRow.key p db.entries db'.entries) :
    Keeps EntryRow.key p (w.apply db).entries (w.apply db').entries := by
  cases w with
  | insertEntry row => exact keeps.insert
  | updateEntry id triage => exact keeps.update fun _ => rfl
  | deleteEvent id => exact keeps.filter fun key => key.2 ≠ id
  | _ => exact keeps

theorem keepsAccounts_apply {p : Nat × String → Prop}
    (keeps : Keeps AccountRow.key p db.accounts db'.accounts) :
    Keeps AccountRow.key p (w.apply db).accounts (w.apply db').accounts := by
  cases w with
  | insertAccount row => exact keeps.insert
  | updateAccount id state => exact keeps.update fun _ => rfl
  | _ => exact keeps

theorem keepsLedger_apply {p : LedgerEntry → Prop}
    (keeps : Keeps (fun row => row) p db.ledger db'.ledger) :
    Keeps (fun row => row) p (w.apply db).ledger (w.apply db').ledger := by
  cases w with
  | insertLedger row => exact keeps.insert
  | _ => exact keeps

theorem seq_apply_le {table : Table} (below : db.seq table ≤ db'.seq table) :
    (w.apply db).seq table ≤ (w.apply db').seq table := by
  cases w with
  | draw drawn =>
    simp only [Write.apply]
    by_cases same : table = drawn
    · subst same
      simpa using below
    · simpa [same] using below
  | _ => exact below

theorem purged_apply {id : Nat} (gone : id ∈ db'.purged → id ∈ db.purged) :
    id ∈ (w.apply db').purged → id ∈ (w.apply db).purged := by
  cases w with
  | deleteEvent target =>
    simp only [Write.apply, List.mem_cons]
    exact Or.imp_right gone
  | _ => exact gone

theorem filter_updateEntry {target id : Nat} {triage : EntryTriage} {rows : List EntryRow} :
    ((rows.map fun row => if row.id = target then { row with toEntryTriage := triage } else row).filter
      fun row => row.id = id) =
    (rows.filter fun row => row.id = id).map
      fun row => if row.id = target then { row with toEntryTriage := triage } else row := by
  rw [List.filter_map]
  congr 1
  refine List.filter_congr fun row _ => ?_
  by_cases hit : row.id = target <;> simp [hit]

theorem entriesOf_apply {id : Nat}
    (same : (db.entries.filter fun row => row.id = id) = db'.entries.filter fun row => row.id = id) :
    ((w.apply db).entries.filter fun row => row.id = id) =
      (w.apply db').entries.filter fun row => row.id = id := by
  cases w with
  | insertEntry row => simp only [Write.apply, List.filter_append, same]
  | updateEntry target triage =>
    simp only [Write.apply, filter_updateEntry, same]
  | deleteEvent target =>
    have through : ∀ rows : List EntryRow,
        ((rows.filter fun row => row.eventId ≠ target).filter fun row => row.id = id) =
          (rows.filter fun row => row.id = id).filter fun row => row.eventId ≠ target := by
      intro rows
      simp only [List.filter_filter, Bool.and_comm]
    simp only [Write.apply, through, same]
  | _ => exact same

theorem noEntryIn_apply {eventId : Nat} {status : DlqStatus}
    (agree : Agree (.noEntryIn eventId status) db db') :
    Agree (.noEntryIn eventId status) (w.apply db) (w.apply db') := by
  cases w with
  | insertEntry row =>
    intro found member same
    rcases List.mem_append.mp member with old | new
    · exact exists_insert (agree found old same)
    · exact ⟨found, List.mem_append_right _ new, rfl, id⟩
  | updateEntry target triage =>
    intro found member same
    obtain ⟨old, known, rfl⟩ := List.mem_map.mp member
    have about : old.eventId = eventId := by
      split at same <;> exact same
    obtain ⟨other, there, alike, matched⟩ := agree old known about
    have ids : other.id = old.id := congrArg Prod.fst alike
    refine ⟨_, List.mem_map_of_mem there, ?_⟩
    by_cases hit : old.id = target
    · rw [if_pos hit, if_pos (ids.trans hit)]
      exact ⟨alike, id⟩
    · rw [if_neg hit, if_neg fun same => hit (ids.symm.trans same)]
      exact ⟨alike, matched⟩
  | deleteEvent target =>
    intro found member same
    obtain ⟨known, kept⟩ := List.mem_filter.mp member
    obtain ⟨other, there, alike, matched⟩ := agree found known same
    have events : other.eventId = found.eventId := congrArg Prod.snd alike
    exact ⟨other, List.mem_filter.mpr ⟨there, by rwa [events]⟩, alike, matched⟩
  | _ => exact agree

theorem agree_apply (agree : Agree f db db') : Agree f (w.apply db) (w.apply db') := by
  cases f <;> simp only [Agree, event?_apply, account?_apply, accountOf?_apply] at agree ⊢
  case event => rw [agree]
  case freshEvent =>
    exact ⟨keepsEvents_apply w agree.1, purged_apply w agree.2.1, seq_apply_le w agree.2.2⟩
  case noEventKey => exact keepsEvents_apply w agree
  case hasEventKey => exact keepsEvents_apply w agree
  case attemptsUpTo => exact keepsAttempts_apply w agree
  case noAttempt => exact keepsAttempts_apply w agree
  case freshAttempt => exact ⟨keepsAttempts_apply w agree.1, seq_apply_le w agree.2⟩
  case dealtWith => exact keepsAttempts_apply w agree
  case attemptNumbered => exact keepsAttempts_apply w agree
  case noEntryIn => exact noEntryIn_apply w agree
  case entry => exact entriesOf_apply w agree
  case freshEntry => exact ⟨keepsEntries_apply w agree.1, seq_apply_le w agree.2⟩
  case noEntry => exact keepsEntries_apply w agree
  case entryOf => exact keepsEntries_apply w agree
  case entriesAmong => exact keepsEntries_apply w agree
  case account => rw [agree]
  case accountOf => rw [agree]
  case freshAccount => exact ⟨keepsAccounts_apply w agree.1, seq_apply_le w agree.2⟩
  case noAccount => exact keepsAccounts_apply w agree
  case hasAccount => exact keepsAccounts_apply w agree
  case noLedger => exact keepsLedger_apply w agree
  case hasLedger => exact keepsLedger_apply w agree

end Own

/-! ### Writes of other transactions -/

theorem seq_le_apply (w : Write) (db : Db) (table : Table) : db.seq table ≤ (w.apply db).seq table := by
  cases w with
  | draw drawn =>
    simp only [Write.apply]
    by_cases same : table = drawn
    · subst same
      simp
    · simp [same]
  | _ => exact Nat.le_refl _

/-- Sequences only move on. -/
theorem seq_le_after (writes : List Write) (db : Db) (table : Table) :
    db.seq table ≤ (db.after writes).seq table := by
  induction writes generalizing db with
  | nil => exact Nat.le_refl _
  | cons write rest ih => exact Nat.le_trans (seq_le_apply write db table) (ih _)

private theorem apart_onEvent (apart : Compatible own other) {id : Nat} (mine : own.onEvent id)
    (theirs : (Lock.eventRow id, .excl) ∈ other) : False :=
  mine.elim fun _ member => apart.symm.excl theirs member

private theorem apart_event (apart : Compatible own other) {id : Nat}
    (mine : (Lock.eventRow id, .excl) ∈ own) (theirs : other.onEvent id) : False :=
  theirs.elim fun _ member => apart.excl mine member

/-! ### What another transaction writes

What it is licensed to write, a guarded fact does not notice: one lemma for each fact. -/

private theorem event_foreign {id : Nat} {found : Option EventRow} (apart : Compatible own other)
    (licence : Licensed regime other db w) (guard : Guarded regime own (.event id found)) :
    Agree (.event id found) db (w.apply db) := by
  simp only [Agree, event?_apply, Guarded] at guard ⊢
  cases w with
  | insertEvent row =>
    have differ : row.id ≠ id := fun same => apart_onEvent apart guard (same ▸ licence.1)
    simp [Write.onEvent, differ]
  | updateEvent target queue =>
    have differ : id ≠ target := fun same => apart_onEvent apart guard (same ▸ licence)
    cases here : db.event? id with
    | none => rfl
    | some row => simp [Write.onEvent, event?_id here, differ]
  | deleteEvent target =>
    have differ : id ≠ target := fun same => apart_onEvent apart guard (same ▸ licence.2.1)
    simp [Write.onEvent, differ]
  | _ => rfl

private theorem freshEvent_foreign {id : Nat} (apart : Compatible own other)
    (licence : Licensed regime other db w) (guard : Guarded regime own (.freshEvent id)) :
    Agree (.freshEvent id) db (w.apply db) := by
  simp only [Agree, Guarded] at guard ⊢
  cases w with
  | insertEvent row =>
    have differ : row.id ≠ id := fun same => apart.excl guard (same ▸ licence.1)
    exact ⟨keeps_insert_left differ, fun gone => gone, Nat.le_refl _⟩
  | updateEvent target queue => exact ⟨keeps_update_left fun _ => rfl, fun gone => gone, Nat.le_refl _⟩
  | deleteEvent target =>
    have differ : id ≠ target := fun same => apart.excl guard (same ▸ licence.2.1)
    refine ⟨keeps_filter_left, fun gone => ?_, Nat.le_refl _⟩
    exact (List.mem_cons.mp gone).resolve_left differ
  | draw table => exact ⟨keeps_refl, fun gone => gone, seq_le_apply (.draw table) db .event⟩
  | _ => exact ⟨keeps_refl, fun gone => gone, Nat.le_refl _⟩

private theorem noEventKey_foreign {source key : String} (apart : Compatible own other)
    (licence : Licensed regime other db w) (guard : Guarded regime own (.noEventKey source key)) :
    Agree (.noEventKey source key) db (w.apply db) := by
  simp only [Agree, Guarded] at guard ⊢
  cases w with
  | insertEvent row =>
    refine keeps_insert_left fun same => ?_
    obtain ⟨rfl, rfl⟩ := Prod.mk.inj same
    exact apart.excl guard licence.2.1
  | updateEvent target queue => exact keeps_update_left fun _ => rfl
  | deleteEvent target => exact keeps_filter_left
  | _ => exact keeps_refl

private theorem hasEventKey_foreign {source key : String} {id : Nat} (apart : Compatible own other)
    (licence : Licensed regime other db w) (guard : Guarded regime own (.hasEventKey source key id)) :
    Agree (.hasEventKey source key id) db (w.apply db) := by
  simp only [Agree, Guarded] at guard ⊢
  cases w with
  | insertEvent row => exact keeps_insert_right
  | updateEvent target queue => exact keeps_update_right fun _ => rfl
  | deleteEvent target =>
    refine keeps_filter_right fun row same => ?_
    have named : row.id = id := congrArg Prod.fst same
    have differ : id ≠ target := by
      rintro rfl
      exact guard.elim (fun never => never licence.1) fun mine => apart_onEvent apart mine licence.2.1
    simpa [named] using differ
  | _ => exact keeps_refl

private theorem attemptsUpTo_foreign {eventId number : Nat} (apart : Compatible own other)
    (licence : Licensed regime other db w) (guard : Guarded regime own (.attemptsUpTo eventId number)) :
    Agree (.attemptsUpTo eventId number) db (w.apply db) := by
  simp only [Agree, Guarded] at guard ⊢
  cases w with
  | insertAttempt row => exact keeps_insert_left fun same => apart_event apart guard (same ▸ licence.1)
  | deleteAttempts ids => exact keeps_filter_left
  | deleteEvent target => exact keeps_filter_left
  | _ => exact keeps_refl

private theorem noAttempt_foreign {eventId number : Nat} (apart : Compatible own other)
    (licence : Licensed regime other db w) (guard : Guarded regime own (.noAttempt eventId number)) :
    Agree (.noAttempt eventId number) db (w.apply db) := by
  simp only [Agree, Guarded] at guard ⊢
  cases w with
  | insertAttempt row =>
    refine keeps_insert_left fun same => ?_
    obtain ⟨rfl, rfl⟩ := same
    exact apart.excl guard licence.2.2.1
  | deleteAttempts ids => exact keeps_filter_left
  | deleteEvent target => exact keeps_filter_left
  | _ => exact keeps_refl

private theorem freshAttempt_foreign {id : Nat} (apart : Compatible own other)
    (licence : Licensed regime other db w) (guard : Guarded regime own (.freshAttempt id)) :
    Agree (.freshAttempt id) db (w.apply db) := by
  simp only [Agree, Guarded] at guard ⊢
  refine ⟨?_, seq_le_apply w db .attempt⟩
  cases w with
  | insertAttempt row => exact keeps_insert_left fun same => apart.excl guard (same ▸ licence.2.1)
  | deleteAttempts ids => exact keeps_filter_left
  | deleteEvent target => exact keeps_filter_left
  | _ => exact keeps_refl

private theorem dealtWith_foreign {eventId : Nat}
    (licence : Licensed regime other db w) (guard : Guarded regime own (.dealtWith eventId)) :
    Agree (.dealtWith eventId) db (w.apply db) := by
  simp only [Agree, Guarded] at guard ⊢
  cases w with
  | insertAttempt row => exact keeps_insert_right
  | deleteAttempts ids => exact absurd licence guard
  | deleteEvent target => exact absurd licence.1 guard
  | _ => exact keeps_refl

private theorem attemptNumbered_foreign {eventId number : Nat}
    (licence : Licensed regime other db w) (guard : Guarded regime own (.attemptNumbered eventId number)) :
    Agree (.attemptNumbered eventId number) db (w.apply db) := by
  simp only [Agree, Guarded] at guard ⊢
  cases w with
  | insertAttempt row => exact keeps_insert_right
  | deleteAttempts ids => exact absurd licence guard
  | deleteEvent target => exact absurd licence.1 guard
  | _ => exact keeps_refl

private theorem noEntryIn_foreign {eventId : Nat} {status : DlqStatus} (apart : Compatible own other)
    (licence : Licensed regime other db w) (guard : Guarded regime own (.noEntryIn eventId status)) :
    Agree (.noEntryIn eventId status) db (w.apply db) := by
  simp only [Agree, Guarded] at guard ⊢
  have stay : ∀ row ∈ db.entries, row.eventId = eventId →
      ∃ other ∈ db.entries, other.key = row.key ∧ (row.status = status → other.status = status) :=
    fun row member _ => ⟨row, member, rfl, id⟩
  have held : own.onEvent eventId := by
    cases status with
    | needsReview => exact ⟨.excl, guard⟩
    | replaying => exact guard
    | _ => cases guard
  cases w with
  | insertEntry row =>
    intro found member same
    rcases List.mem_append.mp member with old | new
    · exact stay found old same
    · rw [List.mem_singleton.mp new] at same
      exact (apart_onEvent apart held (same ▸ licence.1)).elim
  | updateEntry target triage =>
    intro found member same
    obtain ⟨old, known, rfl⟩ := List.mem_map.mp member
    have about : old.eventId = eventId := by
      split at same <;> exact same
    refine ⟨old, known, by split <;> rfl, fun there => ?_⟩
    by_cases hit : old.id = target
    · rw [if_pos hit] at there
      have moved : triage.status = status := there
      obtain ⟨back, taken⟩ := licence.2 old known hit
      rw [moved, about] at back taken
      cases status with
      | needsReview => exact (apart_event apart guard (back rfl)).elim
      | replaying => exact (apart_onEvent apart guard (taken rfl)).elim
      | _ => cases guard
    · rwa [if_neg hit] at there
  | deleteEvent target => exact fun row member same => stay row (List.mem_filter.mp member).1 same
  | _ => exact stay

private theorem entry_foreign {id : Nat} {found : Option EntryRow} (apart : Compatible own other)
    (licence : Licensed regime other db w) (guard : Guarded regime own (.entry id found)) :
    Agree (.entry id found) db (w.apply db) := by
  simp only [Agree, Guarded] at guard ⊢
  cases w with
  | insertEntry row =>
    have differ : row.id ≠ id := fun same => apart.excl guard (same ▸ licence.2.1)
    simp [Write.apply, differ]
  | updateEntry target triage =>
    have differ : id ≠ target := fun same => apart.excl guard (same ▸ licence.1)
    have untouched : ∀ row ∈ db.entries.filter fun row => row.id = id,
        (if row.id = target then { row with toEntryTriage := triage } else row) = row := by
      intro row member
      have named : row.id = id := of_decide_eq_true (List.mem_filter.mp member).2
      simp [named, differ]
    simp only [Write.apply, filter_updateEntry]
    exact ((List.map_congr_left untouched).trans (List.map_id _)).symm
  | deleteEvent target =>
    simp only [Write.apply, List.filter_filter]
    refine List.filter_congr fun row member => ?_
    by_cases named : row.id = id
    · have differ : row.eventId ≠ target := fun same =>
        apart.excl guard (named ▸ licence.2.2.2.2 row member same)
      simp [named, differ]
    · simp [named]
  | _ => rfl

private theorem freshEntry_foreign {id : Nat} (apart : Compatible own other)
    (licence : Licensed regime other db w) (guard : Guarded regime own (.freshEntry id)) :
    Agree (.freshEntry id) db (w.apply db) := by
  simp only [Agree, Guarded] at guard ⊢
  refine ⟨?_, seq_le_apply w db .entry⟩
  cases w with
  | insertEntry row => exact keeps_insert_left fun (same : row.id = id) => apart.excl guard (same ▸ licence.2.1)
  | updateEntry target triage => exact keeps_update_left fun _ => rfl
  | deleteEvent target => exact keeps_filter_left
  | _ => exact keeps_refl

private theorem noEntry_foreign {eventId : Nat} (apart : Compatible own other)
    (licence : Licensed regime other db w) (guard : Guarded regime own (.noEntry eventId)) :
    Agree (.noEntry eventId) db (w.apply db) := by
  simp only [Agree, Guarded] at guard ⊢
  cases w with
  | insertEntry row =>
    exact keeps_insert_left fun (same : row.eventId = eventId) => apart.excl guard (same ▸ licence.2.2.1)
  | updateEntry target triage => exact keeps_update_left fun _ => rfl
  | deleteEvent target => exact keeps_filter_left
  | _ => exact keeps_refl

private theorem entryOf_foreign {eventId id : Nat} (apart : Compatible own other)
    (licence : Licensed regime other db w) (guard : Guarded regime own (.entryOf eventId id)) :
    Agree (.entryOf eventId id) db (w.apply db) := by
  simp only [Agree, Guarded] at guard ⊢
  cases w with
  | insertEntry row => exact keeps_insert_right
  | updateEntry target triage => exact keeps_update_right fun _ => rfl
  | deleteEvent target =>
    refine keeps_filter_right fun row same => ?_
    have named : row.eventId = eventId := congrArg Prod.snd same
    have differ : eventId ≠ target := fun same => apart_onEvent apart guard (same ▸ licence.2.1)
    simpa [named] using differ
  | _ => exact keeps_refl

private theorem entriesAmong_foreign {eventId : Nat} {ids : List Nat} (apart : Compatible own other)
    (licence : Licensed regime other db w) (guard : Guarded regime own (.entriesAmong eventId ids)) :
    Agree (.entriesAmong eventId ids) db (w.apply db) := by
  simp only [Agree, Guarded] at guard ⊢
  cases w with
  | insertEntry row =>
    exact keeps_insert_left fun (same : row.eventId = eventId) => apart.excl guard (same ▸ licence.1)
  | updateEntry target triage => exact keeps_update_left fun _ => rfl
  | deleteEvent target => exact keeps_filter_left
  | _ => exact keeps_refl

private theorem account_foreign {id : Nat} {found : Option AccountRow} (apart : Compatible own other)
    (licence : Licensed regime other db w) (guard : Guarded regime own (.account id found)) :
    Agree (.account id found) db (w.apply db) := by
  simp only [Agree, account?_apply, Guarded] at guard ⊢
  cases w with
  | insertAccount row =>
    have differ : row.id ≠ id := fun same => apart.excl guard (same ▸ licence.1)
    simp [Write.onAccount, differ]
  | updateAccount target state =>
    have differ : id ≠ target := fun same => apart.excl guard (same ▸ licence.1)
    cases here : db.account? id with
    | none => rfl
    | some row => simp [Write.onAccount, account?_id here, differ]
  | _ => rfl

private theorem accountOf_foreign {externalRef : String} {found : Option AccountRow}
    (apart : Compatible own other)
    (licence : Licensed regime other db w) (guard : Guarded regime own (.accountOf externalRef found)) :
    Agree (.accountOf externalRef found) db (w.apply db) := by
  simp only [Agree, accountOf?_apply, Guarded] at guard ⊢
  obtain ⟨strict, mine⟩ := guard
  cases w with
  | insertAccount row =>
    have differ : row.externalRef ≠ externalRef := fun same =>
      apart.excl mine (same ▸ licence.2.2.1 strict)
    simp [Write.onAccountOf, differ]
  | updateAccount target state =>
    cases here : db.accountOf? externalRef with
    | none => rfl
    | some row =>
      obtain ⟨member, named⟩ := accountOf?_mem here
      have differ : row.id ≠ target := fun same =>
        apart.excl mine (named ▸ licence.2 strict row member same)
      simp [Write.onAccountOf, differ]
  | _ => rfl

private theorem freshAccount_foreign {id : Nat} (apart : Compatible own other)
    (licence : Licensed regime other db w) (guard : Guarded regime own (.freshAccount id)) :
    Agree (.freshAccount id) db (w.apply db) := by
  simp only [Agree, Guarded] at guard ⊢
  refine ⟨?_, seq_le_apply w db .account⟩
  cases w with
  | insertAccount row => exact keeps_insert_left fun (same : row.id = id) => apart.excl guard (same ▸ licence.1)
  | updateAccount target state => exact keeps_update_left fun _ => rfl
  | _ => exact keeps_refl

private theorem noAccount_foreign {externalRef : String} (apart : Compatible own other)
    (licence : Licensed regime other db w) (guard : Guarded regime own (.noAccount externalRef)) :
    Agree (.noAccount externalRef) db (w.apply db) := by
  simp only [Agree, Guarded] at guard ⊢
  cases w with
  | insertAccount row =>
    exact keeps_insert_left fun (same : row.externalRef = externalRef) => apart.excl guard (same ▸ licence.2.1)
  | updateAccount target state => exact keeps_update_left fun _ => rfl
  | _ => exact keeps_refl

private theorem hasAccount_foreign {id : Nat} {externalRef : String}
    (licence : Licensed regime other db w) :
    Agree (.hasAccount id externalRef) db (w.apply db) := by
  simp only [Agree]
  cases w with
  | insertAccount row => exact keeps_insert_right
  | updateAccount target state => exact keeps_update_right fun _ => rfl
  | _ => exact keeps_refl

private theorem noLedger_foreign {eventId : Nat} (apart : Compatible own other)
    (licence : Licensed regime other db w) (guard : Guarded regime own (.noLedger eventId)) :
    Agree (.noLedger eventId) db (w.apply db) := by
  simp only [Agree, Guarded] at guard ⊢
  cases w with
  | insertLedger row =>
    refine keeps_insert_left fun same => ?_
    exact guard.elim (fun mine => apart.excl mine (same ▸ licence.2.1))
      fun mine => apart_event apart mine (same ▸ licence.1)
  | _ => exact keeps_refl

private theorem hasLedger_foreign {eventId : Nat}
    (licence : Licensed regime other db w) :
    Agree (.hasLedger eventId) db (w.apply db) := by
  simp only [Agree]
  cases w with
  | insertLedger row => exact keeps_insert_right
  | _ => exact keeps_refl

/-- What another transaction is licensed to write, a guarded fact does not notice. -/
theorem agree_foreign (apart : Compatible own other)
    (licence : Licensed regime other db w) (guard : Guarded regime own f) :
    Agree f db (w.apply db) := by
  cases f with
  | event id found => exact event_foreign apart licence guard
  | freshEvent id => exact freshEvent_foreign apart licence guard
  | noEventKey source key => exact noEventKey_foreign apart licence guard
  | hasEventKey source key id => exact hasEventKey_foreign apart licence guard
  | attemptsUpTo eventId number => exact attemptsUpTo_foreign apart licence guard
  | noAttempt eventId number => exact noAttempt_foreign apart licence guard
  | freshAttempt id => exact freshAttempt_foreign apart licence guard
  | dealtWith eventId => exact dealtWith_foreign licence guard
  | attemptNumbered eventId number => exact attemptNumbered_foreign licence guard
  | noEntryIn eventId status => exact noEntryIn_foreign apart licence guard
  | entry id found => exact entry_foreign apart licence guard
  | freshEntry id => exact freshEntry_foreign apart licence guard
  | noEntry eventId => exact noEntry_foreign apart licence guard
  | entryOf eventId id => exact entryOf_foreign apart licence guard
  | entriesAmong eventId ids => exact entriesAmong_foreign apart licence guard
  | account id found => exact account_foreign apart licence guard
  | accountOf externalRef found => exact accountOf_foreign apart licence guard
  | freshAccount id => exact freshAccount_foreign apart licence guard
  | noAccount externalRef => exact noAccount_foreign apart licence guard
  | hasAccount id externalRef => exact hasAccount_foreign licence
  | noLedger eventId => exact noLedger_foreign apart licence guard
  | hasLedger eventId => exact hasLedger_foreign licence

theorem agree_after (writes : List Write) (agree : Agree f db db') :
    Agree f (db.after writes) (db'.after writes) := by
  induction writes generalizing db db' with
  | nil => exact agree
  | cons write rest ih => exact ih (agree_apply write agree)

/-- A licensed write of another transaction leaves a guarded fact true, also under
the transaction's own pending writes. -/
theorem fact_stable (writes : List Write) (apart : Compatible own other)
    (licence : Licensed regime other db w) (guard : Guarded regime own f)
    (known : f.holds (db.after writes)) : f.holds ((w.apply db).after writes) :=
  holds_of_agree (agree_after writes (agree_foreign apart licence guard)) known

end WebhookReceiver
