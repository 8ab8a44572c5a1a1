import Mathlib.Data.List.Nodup
import WebhookReceiver.Store.Schema
import WebhookReceiver.Txn.World

/-!
Integrity of the store: its constraints (`Wf`), the locks a transaction needs for
each row write (`Licensed`), and that licensed writes keep the constraints
(`wf_apply`).

A `Regime` says what the transactions around are held to: whether retention may
run, and whether accounts are written only under the advisory lock of their entity,
with the key function that the workers derive it by.
-/

namespace WebhookReceiver

open Txn (Mode)

/-- The held locks of a transaction. -/
abbrev Locks := List (Lock × Mode)

structure Regime where
  purging : Prop
  strict : Prop
  advisoryLockKey : String → String → Int

/-- The advisory lock of the account that `external_ref` names. -/
def Regime.entity (regime : Regime) (externalRef : String) : Lock :=
  .advisory (regime.advisoryLockKey "account" externalRef)

/-- Some row lock on an event. -/
def Locks.onEvent (locks : Locks) (eventId : Nat) : Prop := ∃ mode, (Lock.eventRow eventId, mode) ∈ locks

/-! ## Constraints -/

/-- The primary, unique and foreign keys of the schema, and identity values that
are below their sequence. -/
structure Wf (db : Db) : Prop where
  eventIds : (db.events.map (·.id)).Nodup
  eventKeys : (db.events.map fun row => (row.source, row.idempotencyKey)).Nodup
  eventDrawn : ∀ row ∈ db.events, row.id < db.seq .event
  purgedDrawn : ∀ id ∈ db.purged, id < db.seq .event
  purgedGone : ∀ row ∈ db.events, row.id ∉ db.purged
  attemptIds : (db.attempts.map (·.id)).Nodup
  attemptNumbers : (db.attempts.map fun row => (row.eventId, row.attemptNumber)).Nodup
  attemptDrawn : ∀ row ∈ db.attempts, row.id < db.seq .attempt
  attemptEvent : ∀ row ∈ db.attempts, ∃ event ∈ db.events, event.id = row.eventId
  entryIds : (db.entries.map (·.id)).Nodup
  entryEvents : (db.entries.map (·.eventId)).Nodup
  entryDrawn : ∀ row ∈ db.entries, row.id < db.seq .entry
  entryEvent : ∀ row ∈ db.entries, ∃ event ∈ db.events, event.id = row.eventId
  replayEvent : ∀ row ∈ db.replays, ∃ event ∈ db.events, event.id = row.eventId
  accountIds : (db.accounts.map (·.id)).Nodup
  accountRefs : (db.accounts.map (·.externalRef)).Nodup
  accountDrawn : ∀ row ∈ db.accounts, row.id < db.seq .account
  ledgerEvents : (db.ledger.map (·.eventId)).Nodup
  ledgerAccount : ∀ row ∈ db.ledger, ∃ account ∈ db.accounts, account.id = row.accountId
  ledgerEvent : ∀ row ∈ db.ledger, ∃ event ∈ db.events, event.id = row.eventId

theorem wf_empty : Wf Db.empty := by
  constructor <;> simp [Db.empty]

/-- What a transaction needs to hold, and to have found, to make a row write. -/
def Licensed (regime : Regime) (locks : Locks) (db : Db) : Write → Prop
  | .insertEvent row =>
    (.eventRow row.id, .excl) ∈ locks ∧ (.eventKey row.source row.idempotencyKey, .excl) ∈ locks ∧
      (∀ other ∈ db.events, other.id ≠ row.id) ∧ row.id ∉ db.purged ∧ row.id < db.seq .event ∧
      ∀ other ∈ db.events, ¬ (other.source = row.source ∧ other.idempotencyKey = row.idempotencyKey)
  | .updateEvent id _ => (.eventRow id, .excl) ∈ locks
  | .deleteEvent id =>
    regime.purging ∧ (.eventRow id, .excl) ∈ locks ∧ (∃ row ∈ db.events, row.id = id) ∧
      (∀ row ∈ db.ledger, row.eventId ≠ id) ∧
      ∀ row ∈ db.entries, row.eventId = id → (.entryRow row.id, .excl) ∈ locks
  | .insertAttempt row =>
    locks.onEvent row.eventId ∧ (.attemptRow row.id, .excl) ∈ locks ∧
      (.attemptNumber row.eventId row.attemptNumber, .excl) ∈ locks ∧
      (∃ event ∈ db.events, event.id = row.eventId) ∧
      (∀ other ∈ db.attempts, other.id ≠ row.id) ∧ row.id < db.seq .attempt ∧
      ∀ other ∈ db.attempts, ¬ (other.eventId = row.eventId ∧ other.attemptNumber = row.attemptNumber)
  | .deleteAttempts _ => regime.purging
  | .insertEntry row =>
    (.eventRow row.eventId, .excl) ∈ locks ∧ (.entryRow row.id, .excl) ∈ locks ∧
      (.dlqKey row.eventId, .excl) ∈ locks ∧
      (∃ event ∈ db.events, event.id = row.eventId) ∧
      (∀ other ∈ db.entries, other.id ≠ row.id) ∧ row.id < db.seq .entry ∧
      ∀ other ∈ db.entries, other.eventId ≠ row.eventId
  | .updateEntry id triage =>
    (.entryRow id, .excl) ∈ locks ∧ ∀ row ∈ db.entries, row.id = id →
      (triage.status = .needsReview → locks.onEvent row.eventId) ∧
        (triage.status = .replaying → (.eventRow row.eventId, .excl) ∈ locks)
  | .insertReplay row => locks.onEvent row.eventId ∧ ∃ event ∈ db.events, event.id = row.eventId
  | .insertAccount row =>
    (.accountRow row.id, .excl) ∈ locks ∧ (.accountKey row.externalRef, .excl) ∈ locks ∧
      (regime.strict → (regime.entity row.externalRef, .excl) ∈ locks) ∧
      (∀ other ∈ db.accounts, other.id ≠ row.id) ∧ row.id < db.seq .account ∧
      ∀ other ∈ db.accounts, other.externalRef ≠ row.externalRef
  | .updateAccount id _ =>
    (.accountRow id, .excl) ∈ locks ∧
      (regime.strict → ∀ row ∈ db.accounts, row.id = id → (regime.entity row.externalRef, .excl) ∈ locks)
  | .insertLedger row =>
    locks.onEvent row.eventId ∧ (.ledgerKey row.eventId, .excl) ∈ locks ∧
      (∃ event ∈ db.events, event.id = row.eventId) ∧
      (∃ account ∈ db.accounts, account.id = row.accountId) ∧
      ∀ other ∈ db.ledger, other.eventId ≠ row.eventId
  | .draw _ => True

variable {regime : Regime} {locks more : Locks} {db : Db} {w : Write}

theorem Locks.onEvent_mono {eventId : Nat} (held : locks.onEvent eventId) :
    Locks.onEvent (locks ++ more) eventId :=
  held.imp fun _ member => List.mem_append_left _ member

theorem licensed_mono (licence : Licensed regime locks db w) : Licensed regime (locks ++ more) db w := by
  have mono : ∀ {held}, held ∈ locks → held ∈ locks ++ more := fun member =>
    List.mem_append_left _ member
  cases w with
  | insertEvent row => exact ⟨mono licence.1, mono licence.2.1, licence.2.2⟩
  | updateEvent id queue => exact mono licence
  | deleteEvent id =>
    obtain ⟨purging, row, found, free, entries⟩ := licence
    exact ⟨purging, mono row, found, free, fun entry member same => mono (entries entry member same)⟩
  | insertAttempt row =>
    exact ⟨Locks.onEvent_mono licence.1, mono licence.2.1, mono licence.2.2.1, licence.2.2.2⟩
  | deleteAttempts ids => exact licence
  | insertEntry row =>
    exact ⟨mono licence.1, mono licence.2.1, mono licence.2.2.1, licence.2.2.2⟩
  | updateEntry id triage =>
    refine ⟨mono licence.1, fun row member same => ?_⟩
    obtain ⟨back, taken⟩ := licence.2 row member same
    exact ⟨fun status => Locks.onEvent_mono (back status), fun status => mono (taken status)⟩
  | insertReplay row => exact ⟨Locks.onEvent_mono licence.1, licence.2⟩
  | insertAccount row =>
    exact ⟨mono licence.1, mono licence.2.1, fun strict => mono (licence.2.2.1 strict), licence.2.2.2⟩
  | updateAccount id state =>
    exact ⟨mono licence.1, fun strict row member same => mono (licence.2 strict row member same)⟩
  | insertLedger row => exact ⟨Locks.onEvent_mono licence.1, mono licence.2.1, licence.2.2⟩
  | draw table => trivial

/-! ## Licensed writes keep the constraints -/

/-- A key that no row has yet stays unique after the insert. -/
theorem nodup_map_insert {α κ : Type} {f : α → κ} {rows : List α} {row : α}
    (unique : (rows.map f).Nodup) (fresh : ∀ other ∈ rows, f other ≠ f row) :
    ((rows ++ [row]).map f).Nodup := by
  rw [List.map_append, List.nodup_append]
  refine ⟨unique, by simp, ?_⟩
  intro key member key' new same
  obtain ⟨other, known, rfl⟩ := List.mem_map.mp member
  simp only [List.map_cons, List.map_nil, List.mem_singleton] at new
  exact fresh other known (same.trans new)

theorem nodup_map_filter {α κ : Type} {f : α → κ} {rows : List α} {keep : α → Bool}
    (unique : (rows.map f).Nodup) : ((rows.filter keep).map f).Nodup :=
  unique.sublist (List.filter_sublist.map f)

/-- An update that leaves a column alone keeps its values unique. -/
theorem nodup_map_update {α κ : Type} {f : α → κ} {p : α → Prop} [DecidablePred p] {g : α → α}
    {rows : List α} (same : ∀ row, f (g row) = f row) (unique : (rows.map f).Nodup) :
    ((rows.map fun row => if p row then g row else row).map f).Nodup := by
  have kept : (f ∘ fun row => if p row then g row else row) = f := by
    funext row
    by_cases hit : p row <;> simp [hit, same]
  rw [List.map_map, kept]
  exact unique

theorem forall_update {α : Type} {p : α → Prop} [DecidablePred p] {g : α → α} {rows : List α}
    {Q : α → Prop} (kept : ∀ row, Q row → Q (g row)) (all : ∀ row ∈ rows, Q row) :
    ∀ row ∈ rows.map fun row => if p row then g row else row, Q row := by
  intro row member
  obtain ⟨old, known, rfl⟩ := List.mem_map.mp member
  by_cases hit : p old
  · simpa [hit] using kept old (all old known)
  · simpa [hit] using all old known

theorem exists_update {α : Type} {p : α → Prop} [DecidablePred p] {g : α → α} {rows : List α}
    {Q : α → Prop} (kept : ∀ row, Q row → Q (g row)) (found : ∃ row ∈ rows, Q row) :
    ∃ row ∈ rows.map fun row => if p row then g row else row, Q row := by
  obtain ⟨row, member, holds⟩ := found
  refine ⟨_, List.mem_map_of_mem member, ?_⟩
  by_cases hit : p row
  · simpa [hit] using kept row holds
  · simpa [hit] using holds

theorem exists_insert {α : Type} {rows : List α} {new : α} {Q : α → Prop}
    (found : ∃ row ∈ rows, Q row) : ∃ row ∈ rows ++ [new], Q row := by
  obtain ⟨row, member, holds⟩ := found
  exact ⟨row, List.mem_append_left _ member, holds⟩

theorem forall_insert {α : Type} {rows : List α} {new : α} {Q : α → Prop}
    (all : ∀ row ∈ rows, Q row) (this : Q new) : ∀ row ∈ rows ++ [new], Q row := by
  intro row member
  rcases List.mem_append.mp member with old | added
  · exact all row old
  · simpa [List.mem_singleton.mp added] using this

theorem forall_filter {α : Type} {rows : List α} {keep : α → Bool} {Q : α → Prop}
    (all : ∀ row ∈ rows, Q row) : ∀ row ∈ rows.filter keep, Q row :=
  fun row member => all row (List.mem_filter.mp member).1

/-- The event that a row refers to is still there when another event is deleted. -/
private theorem exists_other {events : List EventRow} {id eventId : Nat} (other : eventId ≠ id)
    (found : ∃ event ∈ events, event.id = eventId) :
    ∃ event ∈ events.filter fun row => row.id ≠ id, event.id = eventId := by
  obtain ⟨event, member, rfl⟩ := found
  exact ⟨event, List.mem_filter.mpr ⟨member, by simpa using other⟩, rfl⟩

theorem wf_apply (good : Wf db) (licence : Licensed regime locks db w) : Wf (w.apply db) := by
  cases w with
  | insertEvent row =>
    obtain ⟨-, -, freshId, live, drawn, freshKey⟩ := licence
    exact { good with
      eventIds := nodup_map_insert good.eventIds freshId
      eventKeys := nodup_map_insert good.eventKeys fun other member same =>
        freshKey other member (Prod.mk.inj same)
      eventDrawn := forall_insert good.eventDrawn drawn
      purgedGone := forall_insert good.purgedGone live
      attemptEvent := fun row member => exists_insert (good.attemptEvent row member)
      entryEvent := fun row member => exists_insert (good.entryEvent row member)
      replayEvent := fun row member => exists_insert (good.replayEvent row member)
      ledgerEvent := fun row member => exists_insert (good.ledgerEvent row member) }
  | updateEvent id queue =>
    exact { good with
      eventIds := nodup_map_update (fun _ => rfl) good.eventIds
      eventKeys := nodup_map_update (fun _ => rfl) good.eventKeys
      eventDrawn := forall_update (fun _ holds => holds) good.eventDrawn
      purgedGone := forall_update (fun _ holds => holds) good.purgedGone
      attemptEvent := fun row member => exists_update (fun _ holds => holds) (good.attemptEvent row member)
      entryEvent := fun row member => exists_update (fun _ holds => holds) (good.entryEvent row member)
      replayEvent := fun row member => exists_update (fun _ holds => holds) (good.replayEvent row member)
      ledgerEvent := fun row member => exists_update (fun _ holds => holds) (good.ledgerEvent row member) }
  | deleteEvent id =>
    obtain ⟨-, -, ⟨event, member, rfl⟩, free, -⟩ := licence
    exact { good with
      eventIds := nodup_map_filter good.eventIds
      eventKeys := nodup_map_filter good.eventKeys
      eventDrawn := forall_filter good.eventDrawn
      purgedDrawn := List.forall_mem_cons.mpr ⟨good.eventDrawn event member, good.purgedDrawn⟩
      purgedGone := fun row kept => List.not_mem_cons_of_ne_of_not_mem
        (of_decide_eq_true (List.mem_filter.mp kept).2)
        (good.purgedGone row (List.mem_filter.mp kept).1)
      attemptIds := nodup_map_filter good.attemptIds
      attemptNumbers := nodup_map_filter good.attemptNumbers
      attemptDrawn := forall_filter good.attemptDrawn
      attemptEvent := fun row kept =>
        exists_other (of_decide_eq_true (List.mem_filter.mp kept).2)
          (good.attemptEvent row (List.mem_filter.mp kept).1)
      entryIds := nodup_map_filter good.entryIds
      entryEvents := nodup_map_filter good.entryEvents
      entryDrawn := forall_filter good.entryDrawn
      entryEvent := fun row kept =>
        exists_other (of_decide_eq_true (List.mem_filter.mp kept).2)
          (good.entryEvent row (List.mem_filter.mp kept).1)
      replayEvent := fun row kept =>
        exists_other (of_decide_eq_true (List.mem_filter.mp kept).2)
          (good.replayEvent row (List.mem_filter.mp kept).1)
      ledgerEvent := fun row kept => exists_other (free row kept) (good.ledgerEvent row kept) }
  | insertAttempt row =>
    obtain ⟨-, -, -, event, freshId, drawn, freshNumber⟩ := licence
    exact { good with
      attemptIds := nodup_map_insert good.attemptIds freshId
      attemptNumbers := nodup_map_insert good.attemptNumbers fun other member same =>
        freshNumber other member (Prod.mk.inj same)
      attemptDrawn := forall_insert good.attemptDrawn drawn
      attemptEvent := forall_insert good.attemptEvent event }
  | deleteAttempts ids =>
    exact { good with
      attemptIds := nodup_map_filter good.attemptIds
      attemptNumbers := nodup_map_filter good.attemptNumbers
      attemptDrawn := forall_filter good.attemptDrawn
      attemptEvent := forall_filter good.attemptEvent
      replayEvent := by
        intro row member
        obtain ⟨old, known, rfl⟩ := List.mem_map.mp member
        exact good.replayEvent old known }
  | insertEntry row =>
    obtain ⟨-, -, -, event, freshId, drawn, freshEvent⟩ := licence
    exact { good with
      entryIds := nodup_map_insert good.entryIds freshId
      entryEvents := nodup_map_insert good.entryEvents freshEvent
      entryDrawn := forall_insert good.entryDrawn drawn
      entryEvent := forall_insert good.entryEvent event }
  | updateEntry id triage =>
    exact { good with
      entryIds := nodup_map_update (fun _ => rfl) good.entryIds
      entryEvents := nodup_map_update (fun _ => rfl) good.entryEvents
      entryDrawn := forall_update (fun _ holds => holds) good.entryDrawn
      entryEvent := forall_update (fun _ holds => holds) good.entryEvent }
  | insertReplay row => exact { good with replayEvent := forall_insert good.replayEvent licence.2 }
  | insertAccount row =>
    obtain ⟨-, -, -, freshId, drawn, freshRef⟩ := licence
    exact { good with
      accountIds := nodup_map_insert good.accountIds freshId
      accountRefs := nodup_map_insert good.accountRefs freshRef
      accountDrawn := forall_insert good.accountDrawn drawn
      ledgerAccount := fun row member => exists_insert (good.ledgerAccount row member) }
  | updateAccount id state =>
    exact { good with
      accountIds := nodup_map_update (fun _ => rfl) good.accountIds
      accountRefs := nodup_map_update (fun _ => rfl) good.accountRefs
      accountDrawn := forall_update (fun _ holds => holds) good.accountDrawn
      ledgerAccount := fun row member =>
        exists_update (fun _ holds => holds) (good.ledgerAccount row member) }
  | insertLedger row =>
    obtain ⟨-, -, event, account, fresh⟩ := licence
    exact { good with
      ledgerEvents := nodup_map_insert good.ledgerEvents fresh
      ledgerAccount := forall_insert good.ledgerAccount account
      ledgerEvent := forall_insert good.ledgerEvent event }
  | draw table =>
    have grown : ∀ other, db.seq other ≤ (Write.apply (.draw table) db).seq other := by
      intro other
      by_cases same : other = table
      · subst same
        simp [Write.apply]
      · simp [Write.apply, same]
    exact { good with
      eventDrawn := fun row member => Nat.lt_of_lt_of_le (good.eventDrawn row member) (grown _)
      purgedDrawn := fun id member => Nat.lt_of_lt_of_le (good.purgedDrawn id member) (grown _)
      attemptDrawn := fun row member => Nat.lt_of_lt_of_le (good.attemptDrawn row member) (grown _)
      entryDrawn := fun row member => Nat.lt_of_lt_of_le (good.entryDrawn row member) (grown _)
      accountDrawn := fun row member => Nat.lt_of_lt_of_le (good.accountDrawn row member) (grown _) }

end WebhookReceiver
