import WebhookReceiver.Lifecycle

/-!
An event moves money once.

After a pass has dealt with an event, its effect is `spent`: a credit because the
event has posted, a snapshot because it has posted or because the account's version
has reached its sequence. Nothing ever undoes that (`Books.Le`), and a pass over an
event whose effect is spent changes neither accounts nor ledger.
-/

namespace WebhookReceiver

/-! ## Books that only go forward -/

/-- No account is closed, no version goes back and no posting disappears. -/
structure Books.Le (books later : Books) : Prop where
  account : ∀ externalRef state, books.account externalRef = some state →
    ∃ state', later.account externalRef = some state' ∧ state.version ≤ state'.version
  posted : ∀ eventId, (books.posted eventId).isSome → (later.posted eventId).isSome

/-- Processing the effect of the event changes nothing any more. -/
def Effect.spent (eventId : Nat) (books : Books) : Effect → Prop
  | .credit effect => (books.account effect.accountRef).isSome ∧ (books.posted eventId).isSome
  | .setBalance effect => ∃ state, books.account effect.accountRef = some state ∧
      ((books.posted eventId).isSome ∨ effect.sequence ≤ state.version)

namespace Books

variable {books later : Books} {eventId : Nat} {sequence : Option Int}

theorem Le.refl (books : Books) : books.Le books :=
  ⟨fun _ state found => ⟨state, found, Int.le_refl _⟩, fun _ posted => posted⟩

theorem le_update {externalRef : String} {state : AccountState}
    {posted : Nat → Option (String × Int)} (newer : (books.state externalRef).version ≤ state.version)
    (kept : ∀ eventId, (books.posted eventId).isSome → (posted eventId).isSome) :
    books.Le ⟨Function.update books.account externalRef (some state), posted⟩ := by
  refine ⟨fun name before found => ?_, kept⟩
  by_cases same : name = externalRef
  · subst same
    simp only [Books.state, found, Option.getD_some] at newer
    exact ⟨state, by simp, newer⟩
  · exact ⟨before, by simp [Function.update_of_ne same, found], Int.le_refl _⟩

theorem le_opened (externalRef : String) : books.Le (books.opened externalRef) :=
  le_update (Int.le_refl _) fun _ posted => posted

theorem le_post {externalRef : String} {amount : Int} {state : AccountState}
    (newer : (books.state externalRef).version ≤ state.version) :
    books.Le (books.post eventId externalRef amount state) := by
  refine le_update newer fun other posted => ?_
  by_cases same : other = eventId
  · simp [same]
  · simpa [Function.update_of_ne same] using posted

theorem le_process (effect : Effect) : books.Le (books.process eventId sequence effect).2 := by
  cases effect with
  | credit effect =>
    simp only [process]
    split
    · exact le_opened _
    · exact le_post (Int.le_max_left _ _)
  | setBalance effect =>
    simp only [process]
    split
    · exact le_opened _
    · rename_i newer
      split
      · exact le_opened _
      · exact le_post (Int.le_of_lt (Int.not_le.mp newer))

/-- What is spent stays spent. -/
theorem spent_mono {effect : Effect} (forward : books.Le later) (spent : effect.spent eventId books) :
    effect.spent eventId later := by
  cases effect with
  | credit effect =>
    obtain ⟨opened, posted⟩ := spent
    obtain ⟨state, found⟩ := Option.isSome_iff_exists.mp opened
    obtain ⟨state', still, -⟩ := forward.account _ _ found
    exact ⟨by simp [still], forward.posted _ posted⟩
  | setBalance effect =>
    obtain ⟨state, found, done⟩ := spent
    obtain ⟨state', still, newer⟩ := forward.account _ _ found
    exact ⟨state', still, done.imp (forward.posted _) fun stale => stale.trans newer⟩

/-- Processing an effect spends it, whatever the answer. -/
theorem spent_process (effect : Effect) :
    effect.spent eventId (books.process eventId sequence effect).2 := by
  cases effect with
  | credit effect =>
    simp only [process, Effect.spent]
    split
    · rename_i posted
      exact ⟨by simp [opened], posted⟩
    · simp [post]
  | setBalance effect =>
    simp only [process, Effect.spent]
    split
    · rename_i stale
      exact ⟨books.state effect.accountRef, by simp [opened], Or.inr stale⟩
    · split
      · rename_i posted
        exact ⟨books.state effect.accountRef, by simp [opened], Or.inl posted⟩
      · exact ⟨⟨effect.balanceMinor, effect.sequence⟩, by simp [post], Or.inr (Int.le_refl _)⟩

end Books

/-! ## Passes over an event that has been dealt with -/

/-- An account that the books know is not created again. -/
theorem AccountFor.known {db : Db} {externalRef : String} {row : AccountRow} {created : List Write}
    (account : AccountFor db externalRef row created) (opened : (db.books.account externalRef).isSome) :
    created = [] := by
  cases account with
  | existing member named => rfl
  | created absent fresh => simp [Db.books, (books_unopened absent).1] at opened

theorem Applied.spent {strict : Prop} {db : Db} {event : StoredEvent} {effect : Effect}
    {result : EffectResult} {writes : List Write} (good : Wf db) (owned : strict)
    (applied : Applied strict db event effect result writes) (spent : effect.spent event.id db.books) :
    writes = [] := by
  cases applied with
  | credit account first inRange => simp [Effect.spent, books_unposted first] at spent
  | creditAgain account again inRange => exact account.known spent.1
  | superseded account stale =>
    obtain ⟨state, found, -⟩ := spent
    exact account.known (by simp [found])
  | snapshot account first newer moved inRange =>
    obtain ⟨state, found, posted | stale⟩ := spent
    · simp [books_unposted first] at posted
    · have same := account.state good
      simp only [Books.state, found, Option.getD_some] at same
      rw [same] at stale
      exact absurd (newer owned) (Int.not_lt.mpr stale)
  | snapshotAgain account newer moved again inRange =>
    obtain ⟨state, found, -⟩ := spent
    exact account.known (by simp [found])

/-- The event has been seen, and its effect is spent for as long as it is stored. -/
def DoneWith (registry : HandlerRegistry) (id : Nat) (db : Db) : Prop :=
  db.knows id ∧ ∀ event effect, db.event? id = some event →
    registry.dispatch event.toDomain = .ok effect → effect.spent id db.books

/-- The shipped handlers look at what was delivered, and not at the attempts made. -/
theorem Balance.dispatch_delivered {event before : EventRow}
    (kept : event.toIncomingEvent = before.toIncomingEvent) :
    Balance.registry.dispatch event.toDomain = Balance.registry.dispatch before.toDomain := by
  have same : event.toDomain =
      { before.toDomain with id := event.id, attemptCount := event.attemptCount } := by
    cases event
    cases before
    cases kept
    rfl
  rw [same]
  unfold HandlerRegistry.dispatch
  cases found : Balance.registry.handlers.find? fun entry => entry.1 = before.toDomain.eventType with
  | none => rfl
  | some entry =>
    have member := List.mem_of_find?_eq_some found
    simp only [Balance.registry, List.mem_cons, List.not_mem_nil, or_false] at member
    rcases member with rfl | rfl | rfl <;> rfl

section Steps

variable {svc : Service} {scope : Scope} {call : Call} {trace : Trace} {db : Db} {writes : List Write}
  {id : Nat}

/-- The books after a pass that dealt with its event. -/
theorem Dealt.books {result : EffectResult} (strict : svc.registry.OwnsEntity) (good : Wf db)
    (done : Dealt svc id db result writes) :
    ∃ event effect, db.event? id = some event ∧ svc.registry.dispatch event.toDomain = .ok effect ∧
      (result, (db.after writes).books) = db.books.process id event.providerSequence effect := by
  cases done with
  | @mk event effect result business attempt found pending due dispatched applied next outcome =>
    refine ⟨event, effect, found, dispatched, ?_⟩
    have about : event.toDomain.id = id := event?_id found
    rw [Db.after_append, books_clerical (by simp [Write.business]), applied.books good strict, about]
    rfl

theorem Committed.forward (strict : svc.registry.OwnsEntity) (good : Wf db)
    (committed : Committed svc scope call trace db writes) : db.books.Le (db.after writes).books := by
  rcases committed.money with clerical | ⟨eventId, result, passing, done⟩
  · rw [books_clerical clerical]
    exact .refl _
  · obtain ⟨event, effect, found, dispatched, clean⟩ := done.books strict good
    have after := congrArg Prod.snd clean
    simp only at after
    rw [after]
    exact Books.le_process effect

variable (shipped : svc.registry = Balance.registry)
include shipped

/-- A pass that dealt with an event is done with it. -/
theorem Dealt.doneWith {result : EffectResult} (good : Wf db) (done : Dealt svc id db result writes) :
    DoneWith svc.registry id (db.after writes) := by
  have strict : svc.registry.OwnsEntity := shipped ▸ Balance.registry_ownsEntity
  obtain ⟨event, effect, found, dispatched, clean⟩ := done.books strict good
  obtain ⟨event', queue, found', -, -, -, lookup⟩ := done.event?
  rw [found] at found'
  cases found'
  refine ⟨knows_after writes (Or.inl ⟨event, found⟩), ?_⟩
  intro later effect' there dispatched'
  rw [lookup, if_pos rfl, Option.some.injEq] at there
  have kept : later.toIncomingEvent = event.toIncomingEvent := by rw [← there]
  rw [shipped, Balance.dispatch_delivered kept, ← shipped, dispatched] at dispatched'
  cases dispatched'
  have after := congrArg Prod.snd clean
  simp only at after
  rw [after]
  exact Books.spent_process effect

theorem Committed.keeps_doneWith (good : Wf db) (committed : Committed svc scope call trace db writes)
    (holds : DoneWith svc.registry id db) : DoneWith svc.registry id (db.after writes) := by
  have strict : svc.registry.OwnsEntity := shipped ▸ Balance.registry_ownsEntity
  obtain ⟨known, spent⟩ := holds
  refine ⟨knows_after writes known, ?_⟩
  intro later effect there dispatched
  refine Books.spent_mono (committed.forward strict good) ?_
  have delivered : ∀ before, db.event? id = some before →
      later.toIncomingEvent = before.toIncomingEvent → effect.spent id db.books := by
    intro before found kept
    rw [shipped, Balance.dispatch_delivered kept, ← shipped] at dispatched
    exact spent before effect found dispatched
  cases committed.eventStep there with
  | same before spared => exact delivered later before rfl
  | dealt found kept pending status count recorded => exact delivered _ found kept
  | failed found kept status count recorded => exact delivered _ found kept
  | requeued found kept replay status spared => exact delivered _ found kept
  | stored absent unused status count spared delivered =>
    rcases known with ⟨row, found⟩ | gone
    · simp [absent] at found
    · exact absurd gone unused

/-- A pass over an event that is done with leaves accounts and ledger alone. -/
theorem Committed.idempotent (good : Wf db) (committed : Committed svc scope call trace db writes)
    (passing : call.passesOver id = true) (holds : DoneWith svc.registry id db) :
    (db.after writes).accounts = db.accounts ∧ (db.after writes).ledger = db.ledger := by
  have strict : svc.registry.OwnsEntity := shipped ▸ Balance.registry_ownsEntity
  rcases committed.money with clerical | ⟨eventId, result, also, done⟩
  · exact Db.after_clerical clerical db
  · have same : eventId = id := passesOver_unique also passing
    subst same
    cases done with
    | @mk event effect result business attempt found pending due dispatched applied next outcome =>
      have about : event.toDomain.id = eventId := event?_id found
      have spent := holds.2 event effect found dispatched
      rw [← about] at spent
      have nothing : business = [] := applied.spent good strict spent
      rw [nothing]
      exact Db.after_clerical (by simp [Write.business]) db

omit shipped in
/-- Money moves only in a transaction that dealt with its event. -/
theorem Committed.dealt_of_moves (committed : Committed svc scope call trace db writes)
    (passing : call.passesOver id = true)
    (moved : ¬ ((db.after writes).accounts = db.accounts ∧ (db.after writes).ledger = db.ledger)) :
    id ∈ dealtIn writes := by
  rcases committed.money with clerical | ⟨eventId, result, also, done⟩
  · exact absurd (Db.after_clerical clerical db) moved
  · have same : eventId = id := passesOver_unique also passing
    rw [done.recorded.1, same]
    exact List.mem_singleton.mpr rfl

end Steps

/-- The transaction changed an account or the ledger. -/
def movesMoney (entry : Commit) : Bool :=
  ¬ ((entry.before.after entry.writes).accounts = entry.before.accounts ∧
    (entry.before.after entry.writes).ledger = entry.before.ledger)

/-- Once a pass has dealt with an event, no later transaction of a pass over it, by a
worker or by a replay, changes accounts or ledger; so at most one ever does. -/
theorem processed_at_most_once (svc : Service) (shipped : svc.registry = Balance.registry) {w : World}
    (reached : svc.Reaches .any (.init Db.empty) w) (id : Nat) :
    (w.log.Pairwise fun earlier later => id ∈ dealtIn earlier.writes →
      later.call.passesOver id = true →
      (later.before.after later.writes).accounts = later.before.accounts ∧
        (later.before.after later.writes).ledger = later.before.ledger) ∧
    (w.log.filter fun entry => entry.call.passesOver id && movesMoney entry).length ≤ 1 := by
  obtain ⟨-, past⟩ := reaches_history wf_empty reached
  have since : w.log.Pairwise fun earlier later =>
      id ∈ dealtIn earlier.writes → DoneWith svc.registry id later.before := by
    refine (past.since (P := DoneWith svc.registry id) ?_ ?_ ?_ ?_).1
    · intro entry member good committed dealt
      obtain ⟨-, result, done⟩ := committed.dealtWith dealt
      exact done.doneWith shipped good
    · exact fun table holds => ⟨knows_apply _ holds.1, holds.2⟩
    · exact fun ids _ holds => ⟨knows_apply _ holds.1, holds.2⟩
    · exact fun entry member good called committed holds => committed.keeps_doneWith shipped good holds
  have once : w.log.Pairwise fun earlier later => id ∈ dealtIn earlier.writes →
      later.call.passesOver id = true →
      (later.before.after later.writes).accounts = later.before.accounts ∧
        (later.before.after later.writes).ledger = later.before.ledger := by
    refine since.imp_of_mem fun {earlier later} _ member done dealt passing => ?_
    obtain ⟨_, _, -, -, good, -, described, -⟩ := past.at member
    exact described.cases.idempotent shipped good passing (done dealt)
  refine ⟨once, filter_length_le_one (once.imp_of_mem fun {earlier later} there _ still moves => ?_)⟩
  rw [Bool.and_eq_true] at moves
  obtain ⟨_, _, -, -, -, -, described, -⟩ := past.at there
  have dealt := described.cases.dealt_of_moves moves.1 (of_decide_eq_true moves.2)
  rw [Bool.and_eq_false_iff]
  by_cases passing : later.call.passesOver id = true
  · exact Or.inr (by simp [movesMoney, still dealt passing])
  · exact Or.inl (Bool.eq_false_of_not_eq_true passing)

/-- A snapshot is superseded by a credit with a later sequence. Replayed, it is
superseded again, and the credit's money stays. -/
theorem processed_at_most_once_sample : ∃ w, Sample.service.Reaches .any (.init Db.empty) w ∧
    (w.log.filter fun entry => 2 ∈ dealtIn entry.writes).length = 2 ∧
    w.db.accounts.map (·.balanceMinor) = [100] ∧
    (w.log.filter fun entry => entry.call.passesOver 2 && movesMoney entry).length ≤ 1 := by
  let schedule : List Action :=
    Sample.store 0 (Sample.credit "c" 100 5) ++ Sample.store 1 (Sample.snapshot "s" 500 2) ++
    .spawn 2 (.process 1) :: Sample.steps 2 12 ++ .spawn 3 (.process 2) :: Sample.steps 3 12 ++
    .spawn 4 (.replay 2 "operator" none) :: Sample.steps 4 22
  obtain ⟨w, reached, shown⟩ := Sample.service.reaches_test .any (.init Db.empty) schedule
    (fun w => (w.log.filter fun entry => 2 ∈ dealtIn entry.writes).length = 2 ∧
      w.db.accounts.map (·.balanceMinor) = [100])
    (fun action _ => Scope.any_permits action) (by decide +kernel)
  simp only [decide_eq_true_eq] at shown
  exact ⟨w, reached, shown.1, shown.2, (processed_at_most_once Sample.service rfl reached 2).2⟩

end WebhookReceiver
