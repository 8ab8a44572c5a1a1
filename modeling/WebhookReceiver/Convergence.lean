import Mathlib.Algebra.BigOperators.Group.Finset.Basic
import Mathlib.Data.Finset.Max
import WebhookReceiver.Versions

/-!
What the order of processing does to a balance.

An account is a register (`Register`), and passes over its events are operations on
it: one for each event, at the first pass that dealt with it (`Follows`). Repeated
passes do nothing. So credits and debits add up in any order, snapshots converge to
the one with the highest sequence, and a mixture converges as far as each credit is
processed on the same side of that snapshot as its sequence puts it.
-/

namespace WebhookReceiver

/-- The balance of an account; nobody has opened it yet: nothing. -/
def Db.balance (db : Db) (externalRef : String) : Int :=
  ((db.accountOf? externalRef).map (·.balanceMinor)).getD 0

theorem balance_books (db : Db) (externalRef : String) :
    db.balance externalRef = (db.books.state externalRef).register.value := by
  simp only [Db.balance, Books.state, Db.books, AccountState.register]
  cases db.accountOf? externalRef <;> rfl

/-- The events about an account that the transactions dealt with, in commit order and
with every repetition. -/
def processedOn (externalRef : String) (log : List Commit) : List Nat :=
  log.flatMap fun entry => (dealtIn entry.writes).filter fun id =>
    (entry.before.event? id).any fun event => event.entityId = externalRef

/-! ## First occurrences -/

theorem eraseDups_append_of_mem {ids : List Nat} {id : Nat} (member : id ∈ ids) :
    (ids ++ [id]).eraseDups = ids.eraseDups := by
  simp [List.eraseDups_append, List.removeAll, member]

theorem eraseDups_append_of_not_mem {ids : List Nat} {id : Nat} (absent : id ∉ ids) :
    (ids ++ [id]).eraseDups = ids.eraseDups ++ [id] := by
  have only : [id].eraseDups = [id] := by
    rw [List.eraseDups_cons]
    simp
  simp [List.eraseDups_append, List.removeAll, absent, only]

theorem nodup_eraseDups (ids : List Nat) : ids.eraseDups.Nodup := by
  induction ids using List.reverseRecOn with
  | nil => simp
  | append_singleton ids id ih =>
    by_cases member : id ∈ ids
    · rw [eraseDups_append_of_mem member]
      exact ih
    · rw [eraseDups_append_of_not_mem member]
      refine List.nodup_append.mpr ⟨ih, List.nodup_singleton id, ?_⟩
      rintro other first _ last rfl
      rw [List.mem_singleton.mp last] at first
      exact member (List.mem_eraseDups.mp first)

/-! ## The account follows its events -/

/-- Which events are meant, with their effects. -/
structure Stock where
  events : Finset Nat
  effect : Nat → Effect
  sequence : Nat → Option Int

def Stock.op (stock : Stock) (id : Nat) : Register.Op Int Int := (stock.effect id).op (stock.sequence id)

/-- The first passes over the events of the account that had not posted before. -/
def firstPasses (already : Nat → Bool) (externalRef : String) (log : List Commit) : List Nat :=
  (processedOn externalRef log).eraseDups.filter fun id => !already id

/-- As long as only these events of the account have been dealt with: its register has
made one step for each of them that had not posted already, in the order of the first
passes, and the others have not posted. -/
structure Follows (registry : HandlerRegistry) (externalRef : String) (stock : Stock)
    (already : Nat → Bool) (start : Register.State Int Int) (log : List Commit) (db : Db) : Prop where
  register : (db.books.state externalRef).register =
    Register.run start ((firstPasses already externalRef log).map stock.op)
  spent : ∀ id ∈ processedOn externalRef log, DoneWith registry id db
  named : ∀ id ∈ processedOn externalRef log, (stock.effect id).accountRef = externalRef
  posted : ∀ id, already id = true → (db.books.posted id).isSome = true
  unposted : ∀ id event, db.event? id = some event → event.entityId = externalRef →
    id ∉ processedOn externalRef log → already id = false → db.books.posted id = none
  stored : ∀ id ∈ stock.events, db.knows id ∧ ∀ event, db.event? id = some event →
    registry.dispatch event.toDomain = .ok (stock.effect id) ∧ event.providerSequence = stock.sequence id

section Steps

variable {svc : Service} {scope : Scope} {externalRef : String} {stock : Stock} {already : Nat → Bool}
  {start : Register.State Int Int} {log : List Commit} {entry : Commit}
  (shipped : svc.registry = Balance.registry) (good : Wf entry.before)
  (still : Wf (entry.before.after entry.writes))
  (committed : Committed svc scope entry.call entry.trace entry.before entry.writes)

include shipped good committed

/-- What the transaction leaves as it was. -/
theorem Follows.kept (holds : Follows svc.registry externalRef stock already start log entry.before) :
    (∀ id ∈ processedOn externalRef log, DoneWith svc.registry id (entry.before.after entry.writes)) ∧
      (∀ id, already id = true → ((entry.before.after entry.writes).books.posted id).isSome = true) ∧
      ∀ id ∈ stock.events, (entry.before.after entry.writes).knows id ∧
        ∀ event, (entry.before.after entry.writes).event? id = some event →
          svc.registry.dispatch event.toDomain = .ok (stock.effect id) ∧
          event.providerSequence = stock.sequence id := by
  have strict : svc.registry.OwnsEntity := shipped ▸ Balance.registry_ownsEntity
  refine ⟨fun id member => committed.keeps_doneWith shipped good (holds.spent id member), ?_, ?_⟩
  · exact fun id before => (committed.forward strict good).posted id (holds.posted id before)
  intro id member
  obtain ⟨known, same⟩ := holds.stored id member
  refine ⟨knows_after entry.writes known, fun event there => ?_⟩
  have delivered : ∀ before, entry.before.event? id = some before →
      event.toIncomingEvent = before.toIncomingEvent →
      svc.registry.dispatch event.toDomain = .ok (stock.effect id) ∧
        event.providerSequence = stock.sequence id := by
    intro before found alike
    obtain ⟨dispatched, ordered⟩ := same before found
    rw [shipped, Balance.dispatch_delivered alike, ← shipped]
    exact ⟨dispatched, by rw [alike]; exact ordered⟩
  cases committed.eventStep there with
  | same before spared => exact delivered event before rfl
  | dealt found kept pending status count recorded => exact delivered _ found kept
  | failed found kept status count recorded => exact delivered _ found kept
  | requeued found kept replay status spared => exact delivered _ found kept
  | stored absent unused status count spared _ =>
    rcases known with ⟨row, found⟩ | gone
    · simp [absent] at found
    · exact absurd gone unused

include still

omit shipped in
/-- Events that have not posted still have not, unless the transaction dealt with them. -/
theorem Follows.still_unposted (holds : Follows svc.registry externalRef stock already start log entry.before)
    {id : Nat} {event : EventRow} (there : (entry.before.after entry.writes).event? id = some event)
    (named : event.entityId = externalRef) (waiting : id ∉ processedOn externalRef log)
    (new : already id = false) (spared : id ∉ dealtIn entry.writes) :
    (entry.before.after entry.writes).books.posted id = none := by
  cases posted : (entry.before.after entry.writes).books.posted id with
  | none => rfl
  | some posting =>
    obtain ⟨row, member, about⟩ := (books_posted still).mp (by rw [posted]; rfl)
    have before := (books_posted good).mpr ⟨row, committed.ledger spared member about, about⟩
    rcases committed.origin there with ⟨earlier, found, alike⟩ | absent
    · rw [holds.unposted id earlier found (by rw [← alike]; exact named) waiting new] at before
      cases before
    · obtain ⟨earlier, found⟩ := posted_event good before
      rw [absent] at found
      cases found

/-- A transaction that dealt with no event of the account. -/
theorem Follows.aside (holds : Follows svc.registry externalRef stock already start log entry.before)
    (same : processedOn externalRef (log ++ [entry]) = processedOn externalRef log)
    (state : (entry.before.after entry.writes).books.state externalRef =
      entry.before.books.state externalRef)
    (elsewhere : ∀ id event, (entry.before.after entry.writes).event? id = some event →
      event.entityId = externalRef → id ∉ processedOn externalRef log → id ∉ dealtIn entry.writes) :
    Follows svc.registry externalRef stock already start (log ++ [entry])
      (entry.before.after entry.writes) := by
  obtain ⟨spent, posted, stored⟩ := holds.kept shipped good committed
  refine ⟨?_, ?_, ?_, posted, ?_, stored⟩
  · rw [firstPasses, same, state]
    exact holds.register
  · rw [same]
    exact spent
  · rw [same]
    exact holds.named
  · intro id event there named waiting new
    rw [same] at waiting
    exact holds.still_unposted good still committed there named waiting new
      (elsewhere id event there named waiting)

theorem Follows.step (only : ∀ id ∈ processedOn externalRef (log ++ [entry]), id ∈ stock.events)
    (holds : Follows svc.registry externalRef stock already start log entry.before) :
    Follows svc.registry externalRef stock already start (log ++ [entry])
      (entry.before.after entry.writes) := by
  have strict : svc.registry.OwnsEntity := shipped ▸ Balance.registry_ownsEntity
  have listed : processedOn externalRef (log ++ [entry]) = processedOn externalRef log ++
      (dealtIn entry.writes).filter fun id =>
        (entry.before.event? id).any fun event => event.entityId = externalRef := by
    simp [processedOn]
  rcases committed.dealt_or_clerical with ⟨silent, clerical⟩ | ⟨id, result, passing, done⟩
  · refine holds.aside shipped good still committed (by simp [listed, silent])
      (by rw [books_clerical clerical]) fun _ _ _ _ _ => ?_
    simp [silent]
  · obtain ⟨event, effect, found, dispatched, clean⟩ := done.books strict good
    have after : (entry.before.after entry.writes).books =
        (entry.before.books.process id event.providerSequence effect).2 := congrArg Prod.snd clean
    obtain ⟨dealt, -⟩ := done.recorded
    have place : effect.accountRef = event.entityId := (strict.entity _ _ dispatched).2
    have cases := Books.process_cases entry.before.books id event.providerSequence effect
    rw [← after] at cases
    by_cases here : event.entityId = externalRef
    · have appended : processedOn externalRef (log ++ [entry]) = processedOn externalRef log ++ [id] := by
        simp [listed, dealt, found, here]
      have mine : id ∈ stock.events := only id (by rw [appended]; simp)
      obtain ⟨dispatched', ordered⟩ := (holds.stored id mine).2 event found
      cases dispatched.symm.trans dispatched'
      obtain ⟨spent, posted, stored⟩ := holds.kept shipped good committed
      refine ⟨?_, ?_, ?_, posted, ?_, stored⟩
      · by_cases again : id ∈ processedOn externalRef log
        · -- a repeated pass does nothing
          obtain ⟨accounts, ledger⟩ := committed.idempotent shipped good passing (holds.spent id again)
          rw [firstPasses, appended, eraseDups_append_of_mem again, books_congr accounts ledger]
          exact holds.register
        · rw [firstPasses, appended, eraseDups_append_of_not_mem again, List.filter_append]
          cases earlier : already id with
          | true =>
            -- the event posted before the run: this pass does nothing either
            have before := holds.posted id earlier
            rcases cases with ⟨-, state, -⟩ | ⟨first, -⟩
            · rw [state]
              simpa [firstPasses, earlier] using holds.register
            · rw [first] at before
              cases before
          | false =>
            -- the first pass is one operation
            have first := holds.unposted id event found here again earlier
            have stepped : ((entry.before.after entry.writes).books.state externalRef).register =
                Register.step (entry.before.books.state externalRef).register (stock.op id) := by
              rw [← here, ← place, Stock.op, ← ordered]
              rcases cases with ⟨-, state, idle⟩ | ⟨-, amount, state, posts, stepped⟩
              · rw [state]
                exact (idle first).symm
              · rw [posts, Books.state_post, if_pos rfl]
                exact stepped
            rw [stepped, holds.register, List.map_append, Register.run_append]
            simp [firstPasses, earlier]
      · rw [appended]
        intro other member
        rcases List.mem_append.mp member with old | new
        · exact spent other old
        · exact List.mem_singleton.mp new ▸ done.doneWith shipped good
      · rw [appended]
        intro other member
        rcases List.mem_append.mp member with old | new
        · exact holds.named other old
        · rw [List.mem_singleton.mp new, place, here]
      · intro other row there named waiting new
        rw [appended, List.mem_append, not_or, List.mem_singleton] at waiting
        refine holds.still_unposted good still committed there named waiting.1 new ?_
        rw [dealt, List.mem_singleton]
        exact waiting.2
    · have same : processedOn externalRef (log ++ [entry]) = processedOn externalRef log := by
        simp [listed, dealt, found, here]
      refine holds.aside shipped good still committed same ?_ ?_
      · rcases cases with ⟨-, state, -⟩ | ⟨-, amount, state, posts, -⟩
        · exact state externalRef
        · rw [posts, Books.state_post, if_neg (place ▸ here)]
      · intro other row there named _ member
        rw [dealt, List.mem_singleton] at member
        subst member
        rcases committed.origin there with ⟨earlier, was, alike⟩ | absent
        · cases found.symm.trans was
          exact here (by rw [← named, alike])
        · rw [found] at absent
          cases absent

end Steps

/-- The events are there, with these effects and sequences. -/
def Stock.given (stock : Stock) (registry : HandlerRegistry) (db : Db) : Prop :=
  ∀ id ∈ stock.events, ∃ event, db.event? id = some event ∧
    registry.dispatch event.toDomain = .ok (stock.effect id) ∧ event.providerSequence = stock.sequence id

section Runs

variable {svc : Service} {externalRef : String} {stock : Stock} {begun w : World}

/-- From any state: the register goes on from where it stands. -/
theorem reaches_follows (shipped : svc.registry = Balance.registry)
    (stored : svc.Reaches .any (.init Db.empty) begun) (already : Nat → Bool)
    (posted : ∀ id, already id = true → (begun.db.books.posted id).isSome = true)
    (unposted : ∀ id event, begun.db.event? id = some event → event.entityId = externalRef →
      already id = false → begun.db.books.posted id = none)
    (given : stock.given svc.registry begun.db) (reached : svc.Reaches .any (.init begun.db) w)
    (only : ∀ id ∈ processedOn externalRef w.log, id ∈ stock.events) :
    Follows svc.registry externalRef stock already (begun.db.books.state externalRef).register
      w.log w.db := by
  obtain ⟨good, -⟩ := reaches_history wf_empty stored
  obtain ⟨-, past⟩ := reaches_history good reached
  refine past.along (P := fun log db => (∀ id ∈ processedOn externalRef log, id ∈ stock.events) →
    Follows svc.registry externalRef stock already (begun.db.books.state externalRef).register
      log db) ?_ ?_ ?_ ?_ only
  · intro _
    refine ⟨rfl, fun id none => (by cases none), fun id none => (by cases none), posted,
      fun id event found named _ new => unposted id event found named new, ?_⟩
    intro id member
    obtain ⟨event, found, there⟩ := given id member
    refine ⟨Or.inl ⟨event, found⟩, fun other also => ?_⟩
    cases found.symm.trans also
    exact there
  · intro log db table holds only
    obtain ⟨register, spent, named, posted, unposted, kept⟩ := holds only
    exact ⟨register, fun id member => ⟨knows_apply _ (spent id member).1, (spent id member).2⟩, named,
      posted, unposted, fun id member => ⟨knows_apply _ (kept id member).1, (kept id member).2⟩⟩
  · intro log db ids _ holds only
    obtain ⟨register, spent, named, posted, unposted, kept⟩ := holds only
    exact ⟨register, fun id member => ⟨knows_apply _ (spent id member).1, (spent id member).2⟩, named,
      posted, unposted, fun id member => ⟨knows_apply _ (kept id member).1, (kept id member).2⟩⟩
  · intro log entry good still _ committed holds only
    refine (holds fun id member => only id ?_).step shipped good still committed only
    simp only [processedOn, List.flatMap_append]
    exact List.mem_append_left _ member

/-- An account nobody has opened: nothing on it has posted, and every first pass counts. -/
theorem reaches_follows_fresh (shipped : svc.registry = Balance.registry)
    (stored : svc.Reaches .any (.init Db.empty) begun)
    (fresh : ∀ row ∈ begun.db.accounts, row.externalRef ≠ externalRef)
    (given : stock.given svc.registry begun.db) (reached : svc.Reaches .any (.init begun.db) w)
    (only : ∀ id ∈ processedOn externalRef w.log, id ∈ stock.events) :
    (w.db.books.state externalRef).register =
      Register.run ⟨0, 0⟩ ((processedOn externalRef w.log).eraseDups.map stock.op) := by
  have strict : svc.registry.OwnsEntity := shipped ▸ Balance.registry_ownsEntity
  obtain ⟨good, earlier⟩ := reaches_history wf_empty stored
  have placed := earlier.placed strict placed_empty
  have nothing : ∀ id event, begun.db.event? id = some event → event.entityId = externalRef →
      begun.db.books.posted id = none := by
    intro id event found named
    cases posted : begun.db.books.posted id with
    | none => rfl
    | some posting =>
      obtain ⟨entry, -, -, -, row, member, -, called⟩ := (books_posted_iff good).mp posted
      exact absurd (called.trans ((placed id event _ _ found posted).trans named)) (fresh row member)
  have follows := reaches_follows shipped stored (fun _ => false) (fun id none => by cases none)
    (fun id event found named _ => nothing id event found named) given reached only
  have all : firstPasses (fun _ => false) externalRef w.log =
      (processedOn externalRef w.log).eraseDups := List.filter_eq_self.mpr fun _ _ => rfl
  rw [follows.register, all, (books_unopened fresh).2]
  rfl

end Runs

/-! ## Any order of credits, any order of snapshots -/

section Orders

variable {svc : Service} {externalRef : String} {stock : Stock} {begun w w' : World}

/-- A sum over the events, whatever the order. -/
theorem total_eq_sum {order : List Nat} {amount : Nat → Int} (once : order.Nodup)
    (same : ∀ id, id ∈ order ↔ id ∈ stock.events)
    (adds : ∀ id ∈ stock.events, (stock.op id).amount = amount id) :
    Register.total (order.map stock.op) = ∑ id ∈ stock.events, amount id := by
  have set : order.toFinset = stock.events := by
    ext id
    rw [List.mem_toFinset, same]
  rw [← set, List.sum_toFinset amount once, Register.total, List.map_map]
  congr 1
  exact List.map_congr_left fun id member => adds id ((same id).mp member)

/-- Passes over the same events of a fresh account, in any order, with any repetitions
and among any others, leave the same balance: the sum if all are credits and debits, and
that of the highest sequence if all are snapshots. -/
theorem processing_orders_agree (svc : Service) (shipped : svc.registry = Balance.registry)
    {begun w : World} (stored : svc.Reaches .any (.init Db.empty) begun) (externalRef : String)
    (fresh : ∀ row ∈ begun.db.accounts, row.externalRef ≠ externalRef) (stock : Stock)
    (given : stock.given svc.registry begun.db) (reached : svc.Reaches .any (.init begun.db) w)
    (processed : ∀ id, id ∈ processedOn externalRef w.log ↔ id ∈ stock.events) :
    (∀ amount : Nat → Int,
      (∀ id ∈ stock.events, stock.effect id = .credit ⟨externalRef, amount id⟩) →
      w.db.balance externalRef = ∑ id ∈ stock.events, amount id) ∧
    ∀ balance sequence : Nat → Int,
      (∀ id ∈ stock.events, stock.effect id = .setBalance ⟨externalRef, balance id, sequence id⟩) →
      Set.InjOn sequence stock.events → ∀ top ∈ stock.events,
      (∀ id ∈ stock.events, sequence id ≤ sequence top) →
      w.db.balance externalRef = balance top := by
  have strict : svc.registry.OwnsEntity := shipped ▸ Balance.registry_ownsEntity
  have follows := reaches_follows_fresh shipped stored fresh given reached fun id => (processed id).mp
  have once := nodup_eraseDups (processedOn externalRef w.log)
  have same : ∀ id, id ∈ (processedOn externalRef w.log).eraseDups ↔ id ∈ stock.events :=
    fun id => List.mem_eraseDups.trans (processed id)
  rw [balance_books, follows]
  constructor
  · intro amount credits
    have op : ∀ id ∈ stock.events, stock.op id = .add (amount id) ((stock.sequence id).getD 0) := by
      intro id member
      rw [Stock.op, credits id member]
      rfl
    have sum : Register.total ((processedOn externalRef w.log).eraseDups.map stock.op) =
        ∑ id ∈ stock.events, amount id := by
      refine total_eq_sum once same fun id member => ?_
      rw [op id member]
      rfl
    rw [Register.run_adds, sum]
    · simp
    · intro other member
      obtain ⟨id, listed, rfl⟩ := List.mem_map.mp member
      rw [op id ((same id).mp listed)]
      rfl
  · intro balance sequence snapshots distinct top member highest
    have op : ∀ id ∈ stock.events, stock.op id = .set (balance id) (sequence id) := by
      intro id member
      rw [Stock.op, snapshots id member]
      rfl
    have positive : 0 < sequence top := by
      obtain ⟨event, -, dispatched, -⟩ := given top member
      rw [snapshots top member] at dispatched
      have least := (strict.sequence _ _ dispatched).2
      simp only at least
      omega
    obtain ⟨before, after, split⟩ := List.append_of_mem ((same top).mpr member)
    rw [split] at once same ⊢
    have others : ∀ id ∈ before, id ∈ stock.events ∧ id ≠ top := by
      intro id listed
      refine ⟨(same id).mp (List.mem_append_left _ listed), ?_⟩
      rintro rfl
      exact (List.nodup_append.mp once).2.2 id listed id List.mem_cons_self rfl
    rw [List.map_append, List.map_cons, op top member, Register.run_won]
    · have nothing : Register.total (after.map stock.op) = 0 := by
        refine List.sum_eq_zero fun amount there => ?_
        simp only [List.mem_map] at there
        obtain ⟨_, ⟨id, listed, rfl⟩, rfl⟩ := there
        rw [op id ((same id).mp (List.mem_append_right _ (List.mem_cons_of_mem _ listed)))]
        rfl
      rw [nothing, add_zero]
    · exact positive
    · intro other there
      obtain ⟨id, listed, rfl⟩ := List.mem_map.mp there
      obtain ⟨mine, differ⟩ := others id listed
      rw [op id mine]
      exact lt_of_le_of_ne (highest id mine) fun equal => differ (distinct mine member equal)
    · intro other there _
      obtain ⟨id, listed, rfl⟩ := List.mem_map.mp there
      have mine := (same id).mp (List.mem_append_right _ (List.mem_cons_of_mem _ listed))
      rw [op id mine]
      exact highest id mine

end Orders

/-! ## Mixed orders -/

/-- Credits and debits come before this snapshot exactly if their sequences do. -/
def Stock.Aligned (stock : Stock) (sequence : Nat → Int) (top : Nat) (order : List Nat) : Prop :=
  order.Pairwise fun earlier later =>
    (later = top → (stock.effect earlier).isSnapshot = false → sequence earlier < sequence top) ∧
    (earlier = top → (stock.effect later).isSnapshot = false → sequence top < sequence later)

/-- In ascending order everything is aligned. -/
theorem Stock.aligned_of_ascending {stock : Stock} {sequence : Nat → Int} {top : Nat} {order : List Nat}
    (ascending : order.Pairwise fun earlier later => sequence earlier < sequence later) :
    stock.Aligned sequence top order :=
  ascending.imp fun increasing => ⟨fun last _ => last ▸ increasing, fun first _ => first ▸ increasing⟩

section Mixed

variable {svc : Service} {externalRef : String} {stock : Stock} {begun w : World}
  {sequence : Nat → Int}

theorem Stock.op_isSet (stock : Stock) (id : Nat) : (stock.op id).isSet = (stock.effect id).isSnapshot := by
  simp only [Stock.op]
  cases stock.effect id <;> rfl

theorem Stock.op_mark {db : Db} (strict : svc.registry.OwnsEntity) (given : stock.given svc.registry db)
    (sequences : ∀ id ∈ stock.events, stock.sequence id = some (sequence id)) {id : Nat}
    (member : id ∈ stock.events) : (stock.op id).mark = sequence id := by
  obtain ⟨event, -, dispatched, ordered⟩ := given id member
  rw [Stock.op]
  cases effect : stock.effect id with
  | credit effect => simp [Effect.op, Register.Op.mark, sequences id member]
  | setBalance snapshot =>
    rw [effect] at dispatched
    have own : event.providerSequence = some snapshot.sequence := (strict.sequence _ _ dispatched).1
    rw [ordered, sequences id member] at own
    exact (Option.some.inj own).symm

/-- The register after an aligned order of events with distinct sequences, if the highest
snapshot among them is above the mark. -/
theorem value_of_aligned {db : Db} (strict : svc.registry.OwnsEntity)
    (given : stock.given svc.registry db)
    (sequences : ∀ id ∈ stock.events, stock.sequence id = some (sequence id))
    (distinct : Set.InjOn sequence stock.events) {start : Register.State Int Int}
    {order : List Nat} (once : order.Nodup) (mine : ∀ id ∈ order, id ∈ stock.events) {top : Nat}
    (member : top ∈ order) {snapshot : SetBalance} (sets : stock.effect top = .setBalance snapshot)
    (newer : start.mark < sequence top)
    (highest : ∀ id ∈ stock.events, (stock.effect id).isSnapshot = true → sequence id ≤ sequence top)
    (aligned : stock.Aligned sequence top order) :
    (Register.run start (order.map stock.op)).value = snapshot.balanceMinor +
      Register.total ((order.map stock.op).filter fun op => sequence top < op.mark) := by
  have mark : ∀ id ∈ order, (stock.op id).mark = sequence id := fun id listed =>
    Stock.op_mark strict given sequences (mine id listed)
  have op : stock.op top = .set snapshot.balanceMinor (sequence top) := by
    have own := mark top member
    rw [Stock.op, sets] at own ⊢
    simp only [Effect.op, Register.Op.mark] at own ⊢
    rw [own]
  obtain ⟨before, after, split⟩ := List.append_of_mem member
  have mine' := mine top member
  rw [split] at once mine aligned mark ⊢
  obtain ⟨-, tail, across⟩ := List.pairwise_append.mp aligned
  rw [List.map_append, List.map_cons, op]
  refine Register.run_aligned newer ?_ ?_
  · intro other there
    obtain ⟨id, listed, rfl⟩ := List.mem_map.mp there
    have here := mine id (List.mem_append_left _ listed)
    rw [mark id (List.mem_append_left _ listed)]
    by_cases snapshots : (stock.effect id).isSnapshot = true
    · have differ : id ≠ top := by
        rintro rfl
        exact (List.nodup_append.mp once).2.2 id listed id List.mem_cons_self rfl
      exact lt_of_le_of_ne (highest id here snapshots) fun equal => differ (distinct here mine' equal)
    · exact (across id listed top List.mem_cons_self).1 rfl (by simpa using snapshots)
  · intro other there
    obtain ⟨id, listed, rfl⟩ := List.mem_map.mp there
    have here : id ∈ before ++ top :: after :=
      List.mem_append_right _ (List.mem_cons_of_mem _ listed)
    rw [mark id here, Stock.op_isSet]
    split
    · rename_i snapshots
      exact highest id (mine id here) snapshots
    · rename_i adds
      exact ((List.pairwise_cons.mp tail).1 id listed).2 rfl (by simpa using adds)

/-- Snapshots that do not reach the mark are dropped, in whatever order. -/
theorem value_of_late {db : Db} (strict : svc.registry.OwnsEntity) (given : stock.given svc.registry db)
    (sequences : ∀ id ∈ stock.events, stock.sequence id = some (sequence id))
    {start : Register.State Int Int} {order : List Nat} (mine : ∀ id ∈ order, id ∈ stock.events)
    (late : ∀ id ∈ stock.events, (stock.effect id).isSnapshot = true → sequence id ≤ start.mark) :
    (Register.run start (order.map stock.op)).value =
      start.value + Register.total (order.map stock.op) := by
  refine Register.run_late fun op member overwrites => ?_
  obtain ⟨id, listed, rfl⟩ := List.mem_map.mp member
  rw [Stock.op_isSet] at overwrites
  rw [Stock.op_mark strict given sequences (mine id listed)]
  exact late id (mine id listed) overwrites

/-- An event of the account that has posted is no newer than the account's version. -/
theorem posted_sequence_le {db : Db} (marked : Marked db) (placed : Placed db) {id : Nat}
    {event : EventRow} {sequence : Int} (found : db.event? id = some event)
    (named : event.entityId = externalRef) (ordered : event.providerSequence = some sequence)
    (posted : (db.books.posted id).isSome = true) :
    sequence ≤ (db.books.state externalRef).register.mark := by
  obtain ⟨posting, has⟩ := Option.isSome_iff_exists.mp posted
  refine (marked externalRef).2 (Set.mem_insert_of_mem _ ⟨id, event, posting.2, ?_, found, ordered⟩)
  rw [has, ← named, ← placed id event posting.1 posting.2 found has]

end Mixed

/-- Events of one account with distinct sequences, whatever the account's history: every
order of processing that puts each credit and debit on the same side of the highest
snapshot as its sequence does leaves the balance that the ascending order leaves. -/
theorem aligned_orders_converge (svc : Service) (shipped : svc.registry = Balance.registry)
    {begun w w' : World} (stored : svc.Reaches .any (.init Db.empty) begun) (externalRef : String)
    (stock : Stock) (given : stock.given svc.registry begun.db) (sequence : Nat → Int)
    (sequences : ∀ id ∈ stock.events, stock.sequence id = some (sequence id))
    (distinct : Set.InjOn sequence stock.events)
    (reached : svc.Reaches .any (.init begun.db) w)
    (processed : ∀ id, id ∈ processedOn externalRef w.log ↔ id ∈ stock.events)
    (reached' : svc.Reaches .any (.init begun.db) w')
    (processed' : ∀ id, id ∈ processedOn externalRef w'.log ↔ id ∈ stock.events)
    (aligned : ∀ top ∈ stock.events, (stock.effect top).isSnapshot = true →
      (∀ id ∈ stock.events, (stock.effect id).isSnapshot = true → sequence id ≤ sequence top) →
      stock.Aligned sequence top (processedOn externalRef w.log).eraseDups)
    (ascending : (processedOn externalRef w'.log).eraseDups.Pairwise
      fun earlier later => sequence earlier < sequence later) :
    w.db.balance externalRef = w'.db.balance externalRef := by
  have strict : svc.registry.OwnsEntity := shipped ▸ Balance.registry_ownsEntity
  obtain ⟨good, earlier⟩ := reaches_history wf_empty stored
  have marked := earlier.marked shipped marked_empty
  have placed := earlier.placed strict placed_empty
  let already : Nat → Bool := fun id => (begun.db.books.posted id).isSome
  have unposted : ∀ id event, begun.db.event? id = some event → event.entityId = externalRef →
      already id = false → begun.db.books.posted id = none := fun id _ _ _ new => by simpa [already] using new
  have follows := reaches_follows shipped stored already (fun _ before => before) unposted given reached
    fun id => (processed id).mp
  have follows' := reaches_follows shipped stored already (fun _ before => before) unposted given reached'
    fun id => (processed' id).mp
  have once : (firstPasses already externalRef w.log).Nodup := (nodup_eraseDups _).filter _
  have once' : (firstPasses already externalRef w'.log).Nodup := (nodup_eraseDups _).filter _
  have same : ∀ id, id ∈ firstPasses already externalRef w.log ↔ id ∈ stock.events ∧ already id = false := by
    intro id
    rw [firstPasses, List.mem_filter, List.mem_eraseDups, processed, Bool.not_eq_true']
  have same' : ∀ id, id ∈ firstPasses already externalRef w'.log ↔
      id ∈ stock.events ∧ already id = false := by
    intro id
    rw [firstPasses, List.mem_filter, List.mem_eraseDups, processed', Bool.not_eq_true']
  have shuffled : ((firstPasses already externalRef w.log).map stock.op).Perm
      ((firstPasses already externalRef w'.log).map stock.op) :=
    ((List.perm_ext_iff_of_nodup once once').mpr fun id => (same id).trans (same' id).symm).map _
  have mine := fun id listed => ((same id).mp listed).1
  have mine' := fun id listed => ((same' id).mp listed).1
  have dropped (late : ∀ id ∈ stock.events, (stock.effect id).isSnapshot = true →
      sequence id ≤ (begun.db.books.state externalRef).register.mark) :
      w.db.balance externalRef = w'.db.balance externalRef := by
    rw [balance_books, balance_books, follows.register, follows'.register,
      value_of_late strict given sequences mine late, value_of_late strict given sequences mine' late,
      Register.total_perm shuffled]
  by_cases any : ∃ id ∈ stock.events, (stock.effect id).isSnapshot = true
  · have some : (stock.events.filter fun id => (stock.effect id).isSnapshot = true).Nonempty := by
      obtain ⟨id, member, snapshots⟩ := any
      exact ⟨id, Finset.mem_filter.mpr ⟨member, snapshots⟩⟩
    obtain ⟨top, chosen, highest⟩ := Finset.exists_max_image _ sequence some
    obtain ⟨member, snapshots⟩ := Finset.mem_filter.mp chosen
    have most : ∀ id ∈ stock.events, (stock.effect id).isSnapshot = true → sequence id ≤ sequence top :=
      fun id also sets => highest id (Finset.mem_filter.mpr ⟨also, sets⟩)
    by_cases late : sequence top ≤ (begun.db.books.state externalRef).register.mark
    · -- the account is past all of these snapshots
      exact dropped fun id also sets => (most id also sets).trans late
    · -- the highest snapshot is new to the account, and decides
      have fresh : already top = false := by
        refine Bool.eq_false_iff.mpr fun before => late ?_
        obtain ⟨event, found, dispatched, ordered⟩ := given top member
        refine posted_sequence_le marked placed found ?_ (ordered.trans (sequences top member)) before
        rw [← follows.named top ((processed top).mpr member)]
        exact (strict.entity _ _ dispatched).2.symm
      have there := (same top).mpr ⟨member, fresh⟩
      have there' := (same' top).mpr ⟨member, fresh⟩
      have lined : stock.Aligned sequence top (firstPasses already externalRef w.log) :=
        (aligned top member snapshots most).filter _
      have lined' : stock.Aligned sequence top (firstPasses already externalRef w'.log) :=
        (Stock.aligned_of_ascending ascending).filter _
      rw [balance_books, balance_books, follows.register, follows'.register]
      cases sets : stock.effect top with
      | credit effect =>
        rw [sets] at snapshots
        cases snapshots
      | setBalance snapshot =>
        rw [value_of_aligned strict given sequences distinct once mine there sets (not_le.mp late) most
            lined,
          value_of_aligned strict given sequences distinct once' mine' there' sets (not_le.mp late) most
            lined',
          Register.total_perm (shuffled.filter _)]
  · exact dropped fun id member snapshots => absurd ⟨id, member, snapshots⟩ any

/-! ## Runs to look at -/

namespace Sample

/-- The events `1`, `2`, ... on account `A`, with these effects and sequences. -/
def stock (effects : List (Effect × Int)) : Stock where
  events := (List.range effects.length).map (· + 1) |>.toFinset
  effect := fun id => ((effects.map (·.1))[id - 1]?).getD (.credit ⟨"A", 0⟩)
  sequence := fun id => (effects.map (·.2))[id - 1]?

/-- Whether the events of a store have these effects and sequences. -/
def stocked (effects : List (Effect × Int)) (db : Db) : Bool :=
  ((List.range effects.length).map (· + 1)).all fun id => (db.event? id).any fun event =>
    (Balance.registry.dispatch event.toDomain).toOption = some ((stock effects).effect id) &&
      event.providerSequence = (stock effects).sequence id

theorem stock_given {effects : List (Effect × Int)} {db : Db} (shown : stocked effects db = true) :
    (stock effects).given service.registry db := by
  intro id member
  have checked := List.all_eq_true.mp shown id (List.mem_toFinset.mp member)
  simp only [Option.any_eq_true, Bool.and_eq_true, decide_eq_true_eq] at checked
  obtain ⟨event, found, dispatched, ordered⟩ := checked
  refine ⟨event, found, ?_, ordered⟩
  cases known : service.registry.dispatch event.toDomain with
  | error e =>
    have same : Balance.registry.dispatch event.toDomain = .error e := known
    simp [same, Except.toOption] at dispatched
  | ok effect =>
    have same : Balance.registry.dispatch event.toDomain = .ok effect := known
    rw [same] at dispatched
    cases dispatched
    rfl

end Sample

/-- A debit overtakes a credit and is replayed afterwards. -/
theorem processing_orders_agree_sample : ∃ begun w,
    Sample.service.Reaches .any (.init Db.empty) begun ∧
    Sample.service.Reaches .any (.init begun.db) w ∧ processedOn "A" w.log = [2, 1, 2] ∧
    w.db.balance "A" = ∑ id ∈ {1, 2}, if id = 1 then (100 : Int) else -30 := by
  let effects : List (Effect × Int) := [(.credit ⟨"A", 100⟩, 1), (.credit ⟨"A", -30⟩, 2)]
  let deliveries : List Action :=
    Sample.store 0 (Sample.credit "c" 100 1) ++
    Sample.store 1 (Sample.event "d" Balance.debited "amount" 30 2)
  let schedule : List Action :=
    .spawn 2 (.process 2) :: Sample.steps 2 12 ++ .spawn 3 (.process 1) :: Sample.steps 3 13 ++
    .spawn 4 (.replay 2 "operator" none) :: Sample.steps 4 22
  obtain ⟨begun, stored, shown⟩ := Sample.service.reaches_test .any (.init Db.empty) deliveries
    (fun begun => Sample.stocked effects begun.db && begun.db.accounts.isEmpty &&
      (Sample.service.runFrom (.init begun.db) schedule).any fun w =>
        processedOn "A" w.log = [2, 1, 2])
    (fun action _ => Scope.any_permits action) (by decide +kernel)
  simp only [Bool.and_eq_true, List.isEmpty_iff] at shown
  obtain ⟨⟨stocked, fresh⟩, passed⟩ := shown
  obtain ⟨w, reached, shown⟩ := Sample.service.reaches_test .any (.init begun.db) schedule _
    (fun action _ => Scope.any_permits action) passed
  have order : processedOn "A" w.log = [2, 1, 2] := of_decide_eq_true shown
  have events : (Sample.stock effects).events = {1, 2} := by decide
  have sum := (processing_orders_agree Sample.service rfl stored "A" (by simp [fresh])
    (Sample.stock effects) (Sample.stock_given stocked) reached
    (by rw [order, events]; simp)).1 (fun id => if id = 1 then 100 else -30)
    (by rw [events]; simp [Sample.stock, effects])
  exact ⟨begun, w, stored, reached, order, events ▸ sum⟩

/-- An account that has been credited before: two more credits change places, both before
the snapshot. -/
theorem aligned_orders_converge_sample : ∃ begun w w',
    Sample.service.Reaches .any (.init Db.empty) begun ∧ begun.db.balance "A" = 70 ∧
    Sample.service.Reaches .any (.init begun.db) w ∧ processedOn "A" w.log = [2, 1, 3] ∧
    Sample.service.Reaches .any (.init begun.db) w' ∧ processedOn "A" w'.log = [1, 2, 3] ∧
    w.db.balance "A" = w'.db.balance "A" := by
  let effects : List (Effect × Int) :=
    [(.credit ⟨"A", 100⟩, 2), (.credit ⟨"A", 50⟩, 3), (.setBalance ⟨"A", 500, 4⟩, 4)]
  let history : List Action :=
    Sample.store 0 (Sample.credit "c" 100 2) ++ Sample.store 1 (Sample.credit "d" 50 3) ++
    Sample.store 2 (Sample.snapshot "s" 500 4) ++ Sample.store 3 (Sample.credit "b" 70 1) ++
    .spawn 4 (.process 4) :: Sample.steps 4 12
  let passes (first second : Nat) : List Action :=
    .spawn 2 (.process first) :: Sample.steps 2 13 ++ .spawn 3 (.process second) ::
    Sample.steps 3 13 ++ .spawn 4 (.process 3) :: Sample.steps 4 14
  obtain ⟨begun, stored, shown⟩ := Sample.service.reaches_test .any (.init Db.empty) history
    (fun begun => Sample.stocked effects begun.db && begun.db.balance "A" = 70 &&
      ((Sample.service.runFrom (.init begun.db) (passes 2 1)).any fun w =>
        processedOn "A" w.log = [2, 1, 3]) &&
      (Sample.service.runFrom (.init begun.db) (passes 1 2)).any fun w =>
        processedOn "A" w.log = [1, 2, 3])
    (fun action _ => Scope.any_permits action) (by decide +kernel)
  simp only [Bool.and_eq_true, decide_eq_true_eq] at shown
  obtain ⟨⟨⟨stocked, before⟩, passed⟩, passed'⟩ := shown
  obtain ⟨w, reached, shown⟩ := Sample.service.reaches_test .any (.init begun.db) (passes 2 1) _
    (fun action _ => Scope.any_permits action) passed
  obtain ⟨w', reached', shown'⟩ := Sample.service.reaches_test .any (.init begun.db) (passes 1 2) _
    (fun action _ => Scope.any_permits action) passed'
  have order : processedOn "A" w.log = [2, 1, 3] := of_decide_eq_true shown
  have order' : processedOn "A" w'.log = [1, 2, 3] := of_decide_eq_true shown'
  have events : (Sample.stock effects).events = {1, 2, 3} := by decide
  refine ⟨begun, w, w', stored, before, reached, order, reached', order', ?_⟩
  refine aligned_orders_converge Sample.service rfl stored "A" (Sample.stock effects)
    (Sample.stock_given stocked) (fun id => id + 1) ?_ ?_ reached ?_ reached' ?_ ?_ ?_
  · rw [events]
    simp [Sample.stock, effects]
  · exact fun _ _ _ _ same => Int.ofNat.inj (add_right_cancel same)
  · rw [order, events]
    simp
    omega
  · rw [order', events]
    simp
  · intro top member snapshots _
    have last : top = 3 := by
      rw [events] at member
      simp only [Finset.mem_insert, Finset.mem_singleton] at member
      rcases member with rfl | rfl | rfl
      · cases snapshots
      · cases snapshots
      · rfl
    subst last
    rw [order]
    simp [Stock.Aligned, List.eraseDups_cons]
  · rw [order']
    simp [List.eraseDups_cons]

/-- A credit with sequence 1 and a snapshot with sequence 2: in ascending order the
snapshot has the last word, in the other order the credit is added to it. -/
theorem late_credit_diverges : ∃ begun w w',
    Sample.service.Reaches .any (.init Db.empty) begun ∧
    begun.db.events.map (·.providerSequence) = [some 1, some 2] ∧
    Sample.service.Reaches .any (.init begun.db) w ∧ processedOn "A" w.log = [1, 2] ∧
    Sample.service.Reaches .any (.init begun.db) w' ∧ processedOn "A" w'.log = [2, 1] ∧
    w.db.balance "A" = 500 ∧ w'.db.balance "A" = 600 := by
  let deliveries : List Action :=
    Sample.store 0 (Sample.credit "c" 100 1) ++ Sample.store 1 (Sample.snapshot "s" 500 2)
  let ascending : List Action :=
    .spawn 2 (.process 1) :: Sample.steps 2 12 ++ .spawn 3 (.process 2) :: Sample.steps 3 14
  let descending : List Action :=
    .spawn 2 (.process 2) :: Sample.steps 2 13 ++ .spawn 3 (.process 1) :: Sample.steps 3 13
  obtain ⟨begun, stored, shown⟩ := Sample.service.reaches_test .any (.init Db.empty) deliveries
    (fun begun => begun.db.events.map (·.providerSequence) = [some 1, some 2] &&
      ((Sample.service.runFrom (.init begun.db) ascending).any fun w =>
        processedOn "A" w.log = [1, 2] ∧ w.db.balance "A" = 500) &&
      (Sample.service.runFrom (.init begun.db) descending).any fun w =>
        processedOn "A" w.log = [2, 1] ∧ w.db.balance "A" = 600)
    (fun action _ => Scope.any_permits action) (by decide +kernel)
  simp only [Bool.and_eq_true, decide_eq_true_eq] at shown
  obtain ⟨⟨sequences, passed⟩, passed'⟩ := shown
  obtain ⟨w, reached, shown⟩ := Sample.service.reaches_test .any (.init begun.db) ascending _
    (fun action _ => Scope.any_permits action) passed
  obtain ⟨w', reached', shown'⟩ := Sample.service.reaches_test .any (.init begun.db) descending _
    (fun action _ => Scope.any_permits action) passed'
  simp only [decide_eq_true_eq] at shown shown'
  exact ⟨begun, w, w', stored, sequences, reached, shown.1, reached', shown'.1, shown.2, shown'.2⟩

end WebhookReceiver
