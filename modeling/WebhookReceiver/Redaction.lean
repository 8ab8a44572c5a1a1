import WebhookReceiver.Details

/-!
What a payload can tell an error record.

Two passes go over events that differ in their payloads only, in the same surroundings:
the same store, the same clocks, the same failures from outside, the same writes of others.
`_redacted_detail` and the handlers mean the error records to come out the same wherever
the two passes fail alike. `error_records_alike_iff` says when they do.
-/

namespace WebhookReceiver

open Txn (Prog Past Happening Local)

/-! ## Where a handler raises -/

namespace Balance

/-- The `raise` statements that `HandlerRegistry.dispatch` can come to. -/
inductive Raise where
  | unregistered | notMinorUnits | negative | noSequence | otherEntity | noEntity
  deriving DecidableEq

/-- Where `_account_ref` raises. -/
def accountRefRaises (event : StoredEvent) : Option Raise :=
  if event.entityType ≠ accountEntityType then some .otherEntity
  else if event.entityId = "" then some .noEntity
  else none

/-- The minor units in a field, if it holds some. -/
def units? (payload : JsonObject) (field : String) : Option Int :=
  match payload.get? field with
  | some (.int value) => some value
  | _ => none

/-- Where `handle_credited` and `handle_debited` raise. -/
def movementRaises (event : StoredEvent) : Option Raise :=
  match units? event.payload "amount" with
  | none => some .notMinorUnits
  | some amount => if amount < 0 then some .negative else accountRefRaises event

/-- Where `handle_snapshot` raises. -/
def snapshotRaises (event : StoredEvent) : Option Raise :=
  if event.providerSequence.any fun sequence => minSequence ≤ sequence then
    match units? event.payload "balance" with
    | none => some .notMinorUnits
    | some _ => accountRefRaises event
  else some .noSequence

/-- Where the shipped registry raises, if it does. -/
def raises (event : StoredEvent) : Option Raise :=
  if event.eventType = credited ∨ event.eventType = debited then movementRaises event
  else if event.eventType = snapshot then snapshotRaises event
  else some .unregistered

/-- Two effects of the same kind on the same account, but for the amount. -/
inductive SameEffect : Effect → Effect → Prop where
  | credit {account : String} {amount amount' : Int} :
      SameEffect (.credit ⟨account, amount⟩) (.credit ⟨account, amount'⟩)
  | setBalance {account : String} {balance balance' sequence : Int} :
      SameEffect (.setBalance ⟨account, balance, sequence⟩) (.setBalance ⟨account, balance', sequence⟩)

/-- Both handlers raise the same, or both come to an effect. -/
inductive HandledAlike : Except Exc Effect → Except Exc Effect → Prop where
  | raised {e : Exc} : HandledAlike (.error e) (.error e)
  | handled {effect effect' : Effect} (same : SameEffect effect effect') :
      HandledAlike (.ok effect) (.ok effect')

theorem dispatch_eq (event : StoredEvent) : registry.dispatch event =
    if event.eventType = credited then handleCredited event
    else if event.eventType = debited then handleDebited event
    else if event.eventType = snapshot then handleSnapshot event
    else .error (unknownEventTypeError
      ("no handler registered for event type " ++ pyRepr event.eventType)) := by
  by_cases first : event.eventType = credited
  · simp [HandlerRegistry.dispatch, registry, first]
  by_cases second : event.eventType = debited
  · have apart : credited ≠ debited := by decide
    simp [HandlerRegistry.dispatch, registry, second, apart, apart.symm]
  by_cases third : event.eventType = snapshot
  · have apart : credited ≠ snapshot := by decide
    have apart' : debited ≠ snapshot := by decide
    simp [HandlerRegistry.dispatch, registry, third, apart, apart', apart.symm, apart'.symm]
  · simp [HandlerRegistry.dispatch, registry, Ne.symm first, Ne.symm second, Ne.symm third, first,
      second, third]

theorem minorUnits_eq (payload : JsonObject) (field : String) : minorUnits payload field =
    match units? payload field with
    | some value => .ok value
    | none => .error (unprocessableEventError
        ("field " ++ pyRepr field ++ " must be an integer number of minor units")) := by
  simp only [minorUnits, units?]
  cases payload.get? field with
  | none => rfl
  | some value => cases value <;> rfl

theorem accountRefRaises_ne {event : StoredEvent} : accountRefRaises event ≠ some .notMinorUnits ∧
    accountRefRaises event ≠ some .negative := by
  simp only [accountRefRaises]
  split
  · exact ⟨nofun, nofun⟩
  · split
    · exact ⟨nofun, nofun⟩
    · exact ⟨nofun, nofun⟩

/-- Whatever is made of the account, it is made of the same one. -/
theorem accountRef_alike {event event' : StoredEvent} {effect effect' : String → Effect}
    (same : event.blank = event'.blank) (alike : ∀ account, SameEffect (effect account) (effect' account)) :
    HandledAlike (accountRef event >>= fun account => .ok (effect account))
      (accountRef event' >>= fun account => .ok (effect' account)) := by
  have kind : event.entityType = event'.entityType := congrArg (·.entityType) same
  have entity : event.entityId = event'.entityId := congrArg (·.entityId) same
  simp only [accountRef, ← kind, ← entity]
  split
  · exact .raised
  · split
    · exact .raised
    · exact .handled (alike _)

theorem handleMovement_alike {event event' : StoredEvent} (signed : Int → Int)
    (same : event.blank = event'.blank)
    (place : movementRaises event = movementRaises event') :
    HandledAlike (handleMovement signed event) (handleMovement signed event') := by
  simp only [movementRaises] at place
  simp only [handleMovement, minorUnits_eq]
  cases units : units? event.payload "amount" with
  | none =>
    cases units' : units? event'.payload "amount" with
    | none => exact .raised
    | some amount' =>
      simp only [units, units'] at place
      split at place
      · cases place
      · exact absurd place.symm accountRefRaises_ne.1
  | some amount =>
    cases units' : units? event'.payload "amount" with
    | none =>
      simp only [units, units'] at place
      split at place
      · cases place
      · exact absurd place accountRefRaises_ne.1
    | some amount' =>
      simp only [units, units'] at place
      change HandledAlike
        (nonNegative amount "amount" >>= fun amount =>
          accountRef event >>= fun account => .ok (.credit ⟨account, signed amount⟩))
        (nonNegative amount' "amount" >>= fun amount =>
          accountRef event' >>= fun account => .ok (.credit ⟨account, signed amount⟩))
      by_cases down : amount < 0
      · by_cases down' : amount' < 0
        · rw [nonNegative, nonNegative, if_pos down, if_pos down']
          exact .raised
        · rw [if_pos down, if_neg down'] at place
          exact absurd place.symm accountRefRaises_ne.2
      · by_cases down' : amount' < 0
        · rw [if_neg down, if_pos down'] at place
          exact absurd place accountRefRaises_ne.2
        · rw [nonNegative, nonNegative, if_neg down, if_neg down']
          exact accountRef_alike same fun _ => .credit

theorem handleSnapshot_alike {event event' : StoredEvent} (same : event.blank = event'.blank)
    (place : snapshotRaises event = snapshotRaises event') :
    HandledAlike (handleSnapshot event) (handleSnapshot event') := by
  have ordered : event.providerSequence = event'.providerSequence := congrArg (·.providerSequence) same
  simp only [snapshotRaises, ← ordered] at place
  simp only [handleSnapshot, ← ordered, minorUnits_eq]
  cases known : event.providerSequence with
  | none => exact .raised
  | some sequence =>
    by_cases late : sequence < minSequence
    · simp only [if_pos late]
      exact .raised
    · simp only [if_neg late]
      have enough : (some sequence).any (fun sequence => decide (minSequence ≤ sequence)) = true := by
        simpa using late
      rw [known, if_pos enough, if_pos enough] at place
      cases units : units? event.payload "balance" with
      | none =>
        cases units' : units? event'.payload "balance" with
        | none => exact .raised
        | some balance' =>
          simp only [units, units'] at place
          exact absurd place.symm accountRefRaises_ne.1
      | some balance =>
        cases units' : units? event'.payload "balance" with
        | none =>
          simp only [units, units'] at place
          exact absurd place accountRefRaises_ne.1
        | some balance' => exact accountRef_alike same fun _ => .setBalance

/-- The shipped handlers do not look at values any further than at where they raise. -/
theorem dispatch_alike {event event' : StoredEvent} (same : event.blank = event'.blank)
    (place : raises event = raises event') :
    HandledAlike (registry.dispatch event) (registry.dispatch event') := by
  have kind : event.eventType = event'.eventType := congrArg (·.eventType) same
  rw [dispatch_eq, dispatch_eq, ← kind]
  simp only [raises, ← kind] at place
  by_cases first : event.eventType = credited
  · rw [if_pos (Or.inl first), if_pos (Or.inl first)] at place
    rw [if_pos first, if_pos first]
    exact handleMovement_alike _ same place
  by_cases second : event.eventType = debited
  · rw [if_pos (Or.inr second), if_pos (Or.inr second)] at place
    rw [if_neg first, if_neg first, if_pos second, if_pos second]
    exact handleMovement_alike _ same place
  rw [if_neg first, if_neg first, if_neg second, if_neg second]
  have other : ¬ (event.eventType = credited ∨ event.eventType = debited) := not_or.mpr ⟨first, second⟩
  rw [if_neg other, if_neg other] at place
  by_cases third : event.eventType = snapshot
  · rw [if_pos third, if_pos third] at place
    rw [if_pos third, if_pos third]
    exact handleSnapshot_alike same place
  · rw [if_neg third, if_neg third]
    exact .raised

end Balance

/-! ## Where a pass fails -/

/-- What a pass sees. -/
abbrev Sight := Txn.Ev Write Stmt Stmt.Answer Exc

/-- What two passes have seen so far. -/
abbrev Course := Past Write Stmt Stmt.Answer Exc

namespace Sight

/-- A statement that was answered. -/
def served : Sight → Bool
  | .stmt _ (.ok _) => true
  | _ => false

def quotes : Sight → Option String
  | .stmt s _ => s.quotes
  | _ => none

/-- The event that was claimed. -/
def claimed : Sight → Option StoredEvent
  | .stmt (.claim ..) (.ok event) => event
  | _ => none

/-- The entity lock was taken. -/
def locked : Sight → Bool
  | .stmt (.advisoryXactLock _) (.ok _) => true
  | _ => false

end Sight

/-- How many statements were answered before the first that was not. -/
def Trace.served (trace : Trace) : Nat := (trace.takeWhile Sight.served).length

/-- The `raise` of a handler that the pass came to, if it came to the handler and that raises. -/
def Trace.raised (trace : Trace) : Option Balance.Raise :=
  if trace.any Sight.locked then (trace.findSome? Sight.claimed).bind Balance.raises else none

/-- The statement at which a pass fails: the first of its statements that is not answered,
and within the handler its `raise`. -/
def Trace.place (trace : Trace) : Nat × Option Balance.Raise := (Trace.served trace, Trace.raised trace)

/-- The first statements that two passes are not answered, struck by nothing from outside and
not followed by a failure to roll back, have arguments that the driver quotes differently. -/
def Overflows (steps : List Bool) (saw saw' : Trace) : Prop :=
  steps[Trace.served saw]? = some false ∧ steps[Trace.served saw + 1]? = some false ∧
    saw[Trace.served saw]?.bind Sight.quotes ≠ saw'[Trace.served saw]?.bind Sight.quotes

/-- Whatever the passes go on to see, they do not fail at the same statement. -/
def Apart (trace trace' : Trace) : Prop :=
  ∀ more more', Trace.place (trace ++ more) ≠ Trace.place (trace' ++ more')

theorem apart_grows (trace trace' more more' : Trace) (apart : Apart trace trace') :
    Apart (trace ++ more) (trace' ++ more') := by
  intro further further'
  rw [List.append_assoc, List.append_assoc]
  exact apart _ _

/-- Whatever the passes go on to see, their failures do not give a value away. -/
def Spared (past : Course) : Prop :=
  ∀ more seen seen', ¬ Overflows (past.steps ++ more) (past.one ++ seen) (past.other ++ seen')

/-- Whatever the passes go on to see, their failures give a value away. -/
def Overrun (past : Course) : Prop :=
  ∀ more seen seen', Overflows (past.steps ++ more) (past.one ++ seen) (past.other ++ seen')

/-- Two passes in step, with every statement answered. -/
structure Level (past : Course) : Prop where
  steps : past.steps.length = past.one.length
  even : past.other.length = past.one.length
  one : ∀ ev ∈ past.one, Sight.served ev = true
  other : ∀ ev ∈ past.other, Sight.served ev = true

/-- Two transactions of processing that ended with exceptions: they are the same and give
nothing away, or give away what the driver refused. -/
def Thrown (e e' : Exc) (past : Course) : Prop :=
  e.cls = e'.cls → (e = e' ∧ Spared past) ∨ (Clash e e' ∧ Overrun past)

/-- The same, for exceptions on their way to the rollback. -/
def Fallen (e e' : Exc) (past : Course) : Prop :=
  Thrown e e' (past.add false .rolledBack .rolledBack) ∧ Spared (past.add true .rolledBack .rolledBack)

theorem served_stop {trace : Trace} (answered : ∀ ev ∈ trace, Sight.served ev = true) {ev : Sight}
    (stops : Sight.served ev = false) (seen : Trace) : Trace.served (trace ++ ev :: seen) = trace.length := by
  rw [Trace.served, List.takeWhile_append_of_pos answered, List.takeWhile_cons_of_neg (by simp [stops]),
    List.append_nil]

namespace Level

variable {past : Course} (level : Level past)

include level

theorem add {s s' : Stmt} {b : Bool} {a : s.Answer} {a' : s'.Answer} :
    Level (past.add b (.stmt s (.ok a)) (.stmt s' (.ok a'))) where
  steps := by simpa [Past.add] using level.steps
  even := by simpa [Past.add] using level.even
  one := by
    intro ev member
    rcases List.mem_append.mp member with old | new
    · exact level.one ev old
    · rw [List.mem_singleton.mp new]
      rfl
  other := by
    intro ev member
    rcases List.mem_append.mp member with old | new
    · exact level.other ev old
    · rw [List.mem_singleton.mp new]
      rfl

/-- Two passes that stop at the same time. -/
theorem overflows_iff {ev ev' : Sight} (stops : Sight.served ev = false) {b : Bool} {more : List Bool}
    {seen seen' : Trace} : Overflows (past.steps ++ b :: more) (past.one ++ ev :: seen)
    (past.other ++ ev' :: seen') ↔
      b = false ∧ more.head? = some false ∧ Sight.quotes ev ≠ Sight.quotes ev' := by
  have first : (past.steps ++ b :: more)[past.one.length]? = some b := by
    rw [← level.steps, List.getElem?_append_right (Nat.le_refl _), Nat.sub_self]
    rfl
  have second : (past.steps ++ b :: more)[past.one.length + 1]? = more.head? := by
    rw [← level.steps, List.getElem?_append_right (Nat.le_succ _), Nat.succ_sub (Nat.le_refl _), Nat.sub_self,
      List.getElem?_cons_succ, List.head?_eq_getElem?]
  have one : (past.one ++ ev :: seen)[past.one.length]? = some ev := by
    rw [List.getElem?_append_right (Nat.le_refl _), Nat.sub_self]
    rfl
  have other : (past.other ++ ev' :: seen')[past.one.length]? = some ev' := by
    rw [← level.even, List.getElem?_append_right (Nat.le_refl _), Nat.sub_self]
    rfl
  rw [Overflows, served_stop level.one stops, first, second, one, other]
  simp

/-- Passes that stop where nothing is quoted, or quoted alike, are spared. -/
theorem spared {ev ev' : Sight} (stops : Sight.served ev = false)
    (alike : Sight.quotes ev = Sight.quotes ev') (b : Bool) :
    Spared (past.add b ev ev') := by
  intro more seen seen'
  simp only [Past.add, List.append_assoc, List.singleton_append]
  rw [level.overflows_iff stops]
  exact fun overflows => overflows.2.2 alike

/-- Two statements fail at the same time, and their transactions are rolled back. -/
theorem fall_iff {s s' : Stmt} {x x' : Exc} {b c : Bool} {more : List Bool} {seen seen' : Trace} :
    let fallen := (past.add b (.stmt s (.error x)) (.stmt s' (.error x'))).add c .rolledBack .rolledBack
    Overflows (fallen.steps ++ more) (fallen.one ++ seen) (fallen.other ++ seen') ↔
      b = false ∧ c = false ∧ s.quotes ≠ s'.quotes := by
  simp only [Past.add, List.append_assoc, List.cons_append, List.nil_append]
  rw [level.overflows_iff rfl]
  simp [Sight.quotes]

theorem raised {e : Exc} : Fallen e e past :=
  ⟨fun _ => Or.inl ⟨rfl, level.spared rfl rfl false⟩, level.spared rfl rfl true⟩

/-- Two statements that the database refuses. -/
theorem refused {s s' : Stmt} {x x' e e' : Exc} (refusals : Refusals s.quotes s'.quotes e e') :
    Fallen e e' (past.add false (.stmt s (.error x)) (.stmt s' (.error x'))) := by
  refine ⟨fun same => ?_, fun more seen seen' overflows => ?_⟩
  · have told := refusals same
    split at told
    · rename_i alike
      exact Or.inl ⟨told, fun more seen seen' overflows => (level.fall_iff.mp overflows).2.2 alike⟩
    · rename_i apart
      exact Or.inr ⟨told, fun more seen seen' => level.fall_iff.mpr ⟨rfl, rfl, apart⟩⟩
  · exact absurd (level.fall_iff.mp overflows).2.1 nofun

/-- Two statements that are struck from outside. -/
theorem struck {s s' : Stmt} {x x' e : Exc} :
    Fallen e e (past.add true (.stmt s (.error x)) (.stmt s' (.error x'))) := by
  refine ⟨fun _ => Or.inl ⟨rfl, fun more seen seen' overflows => ?_⟩, fun more seen seen' overflows => ?_⟩
  · exact absurd (level.fall_iff.mp overflows).1 nofun
  · exact absurd (level.fall_iff.mp overflows).1 nofun

/-- One statement is answered and the other is not. -/
theorem parted {s s' : Stmt} {a : Except Exc s.Answer} {a' : Except Exc s'.Answer} (split : Txn.Split a a') :
    Apart (past.one ++ [Txn.Ev.stmt s a]) (past.other ++ [Txn.Ev.stmt s' a']) := by
  have longer : ∀ {trace : Trace} {ev : Sight} {seen : Trace}, (∀ ev ∈ trace, Sight.served ev = true) →
      Sight.served ev = true → trace.length < Trace.served (trace ++ ev :: seen) := by
    intro trace ev seen answered goes
    rw [Trace.served, List.takeWhile_append_of_pos answered, List.takeWhile_cons_of_pos goes,
      List.length_append,
      List.length_cons]
    omega
  have even := level.even
  intro more more' same
  have count := congrArg Prod.fst same
  simp only [Trace.place, List.append_assoc, List.singleton_append] at count
  cases a with
  | ok value =>
    cases a' with
    | ok value' => exact split
    | error e' =>
      have before := @longer past.one (.stmt s (.ok value)) more level.one rfl
      rw [served_stop level.other rfl] at count
      omega
  | error e =>
    cases a' with
    | ok value' =>
      have before := @longer past.other (.stmt s' (.ok value')) more' level.other rfl
      rw [served_stop level.one rfl] at count
      omega
    | error e' => exact split

end Level

/-! ## The processing transaction, twice -/

open Txn.Bond (Meets)

/-- What the processing transactions of two passes have in common: nothing is said yet about
a failure. -/
abbrev quietBond (svc : Service) : Txn.Bond svc.system := textBond svc fun _ _ => False

section Processing

variable {svc : Service} {α β : Type} {past : Course}

theorem pairs_execute {s s' : Stmt} {P : s.Answer → s'.Answer → Prop} {G : β → β → Course → Prop}
    {next : s.Answer → Program β} {next' : s'.Answer → Program β}
    (answers : (quietBond svc).Answers s s' (Alike s.quotes s'.quotes P)) (level : Level past)
    (goes : ∀ a a', P a a' → (quietBond svc).Pairs Apart (Meets Fallen G) (next a) (next' a')
      (past.add false (.stmt s (.ok a)) (.stmt s' (.ok a')))) :
    (quietBond svc).Pairs Apart (Meets Fallen G) (execute s >>= next) (execute s' >>= next') past := by
  refine Txn.Bond.Pairs.stmt _ answers ?_ ?_ ?_
  · exact fun a a' _ split => level.parted split
  · exact fun e => .done level.struck
  · intro a a' alike
    cases a with
    | ok value =>
      cases a' with
      | ok value' => exact goes value value' alike
      | error e' => exact .apart (level.parted trivial)
    | error e =>
      cases a' with
      | ok value' => exact .apart (level.parted trivial)
      | error e' => exact .done (level.refused alike)

/-- The same piece on both sides, whose statements are blind. -/
theorem pairs_blind {prog : Program β} {I : Course → Prop} (throws : prog.Throws fun _ => True)
    (only : prog.Only fun s => s.blind = true) (level : ∀ past, I past → Level past)
    (goes : ∀ past b s (answer : s.Answer), I past →
      I (past.add b (.stmt s (.ok answer)) (.stmt s (.ok answer)))) (begun : I past) :
    (quietBond svc).Pairs Apart (Meets Fallen fun value value' past => value = value' ∧ I past) prog
      prog past := by
  refine Txn.Bond.pairs_same throws only (fun s blind => answers_blind blind)
    (fun past b s answer _ => goes past b s answer)
    ?_ (fun past e held => (level past held).raised) begun
  intro past b s e e' _ held
  cases b with
  | false => exact (level past held).refused refusals_rfl
  | true => exact (level past held).struck

theorem throws_any {P : Exc → Prop} (s : Stmt) : (execute s).Throws P := Prog.throws_perform s

theorem pairs_accountId (externalRef : String) (level : Level past) :
    (quietBond svc).Pairs Apart (Meets Fallen fun account account' past => account = account' ∧ Level past)
      (Ledger.accountId externalRef) (Ledger.accountId externalRef) past := by
  refine pairs_blind ?_ ?_ (fun _ => id) (fun _ _ _ _ level => level.add) level
  · refine Prog.throws_bind (throws_any _) fun inserted => ?_
    cases inserted with
    | none => exact throws_any _
    | some id => exact trivial
  · refine Prog.only_bind (Prog.only_perform rfl) fun inserted => ?_
    cases inserted with
    | none => exact Prog.only_perform rfl
    | some id => exact trivial

theorem pairs_claimLedgerRow (accountId eventId : Nat) (amount amount' : Int) (level : Level past) :
    (quietBond svc).Pairs Apart (Meets Fallen fun fresh fresh' past => fresh = fresh' ∧ Level past)
      (Ledger.claimLedgerRow accountId eventId amount) (Ledger.claimLedgerRow accountId eventId amount') past :=
  pairs_execute answers_insertLedgerEntry level fun _ _ same => .done ⟨same, level.add⟩

/-- The end of an application: the ledger row, then the account. -/
theorem pairs_posted {eventId account : Nat} {amount amount' given given' : Int}
    {values values' : AccountState → AccountState} (level : Level past)
    (alike : ∀ state state', AccountState.blank state = AccountState.blank state' →
      (values state).blank = (values' state').blank) :
    (quietBond svc).Pairs Apart (Meets Fallen fun result result' past => result = result' ∧ Level past)
      (do if !(← Ledger.claimLedgerRow account eventId amount) then return .alreadyApplied
          execute (.updateAccount account given values)
          return EffectResult.applied : Program EffectResult)
      (do if !(← Ledger.claimLedgerRow account eventId amount') then return .alreadyApplied
          execute (.updateAccount account given' values')
          return EffectResult.applied : Program EffectResult) past := by
  refine Txn.Bond.pairs_bind (pairs_claimLedgerRow account eventId amount amount' level) ?_
  rintro fresh _ past ⟨rfl, level⟩
  cases fresh with
  | false => exact .done ⟨rfl, level⟩
  | true => exact pairs_execute (answers_updateAccount alike) level fun _ _ _ => .done ⟨rfl, level.add⟩

/-- An answer that is the same on both sides, but for what payloads reach. -/
theorem alike_of_map {ρ κ : Type} {f : ρ → κ} {quotes : Option String} {a a' : Except Exc ρ}
    (same : a.map f = a'.map f) : Alike quotes quotes (fun value value' => f value = f value') a a' := by
  cases a with
  | ok value =>
    cases a' with
    | ok value' => exact Except.ok.inj same
    | error e' => cases same
  | error e =>
    cases a' with
    | ok value' => cases same
    | error e' =>
      cases same
      exact refusals_rfl

theorem pairs_applyEffect {event event' : StoredEvent} {effect effect' : Effect}
    (same : event.blank = event'.blank)
    (effects : Balance.SameEffect effect effect') (level : Level past) :
    (quietBond svc).Pairs Apart (Meets Fallen fun result result' past => result = result' ∧ Level past)
      (Ledger.applyEffect event effect) (Ledger.applyEffect event' effect') past := by
  have id : event.id = event'.id := congrArg (·.id) same
  have ordered : event.providerSequence = event'.providerSequence := congrArg (·.providerSequence) same
  cases effects with
  | credit =>
    simp only [Ledger.applyEffect, Ledger.applyCredit, ← id]
    refine Txn.Bond.pairs_bind (pairs_accountId _ level) ?_
    rintro account _ past ⟨rfl, level⟩
    refine pairs_posted level fun state state' alike => ?_
    have version : state.version = state'.version := (AccountState.mk.inj alike).2
    simp only [AccountState.blank, version, ordered]
  | setBalance =>
    simp only [Ledger.applyEffect, Ledger.applySetBalance, ← id]
    refine Txn.Bond.pairs_bind (pairs_accountId _ level) ?_
    rintro account _ past ⟨rfl, level⟩
    refine pairs_execute (answers_balanceAndVersion.mono fun _ _ => alike_of_map
      (f := AccountState.blank)) level ?_
    intro current current' alike
    have version : current.version = current'.version := (AccountState.mk.inj alike).2
    rw [← version]
    split
    · exact .done ⟨rfl, level.add⟩
    · exact pairs_posted level.add fun _ _ _ => rfl

/-- Two passes that hold their events. -/
structure Holding (event event' : StoredEvent) (past : Course) : Prop extends Level past where
  claimed : past.one.findSome? Sight.claimed = some event
  claimed' : past.other.findSome? Sight.claimed = some event'

theorem Holding.add {event event' : StoredEvent} (holding : Holding event event' past) {s s' : Stmt} {b : Bool}
    {a : s.Answer} {a' : s'.Answer} :
    Holding event event' (past.add b (.stmt s (.ok a)) (.stmt s' (.ok a'))) where
  toLevel := holding.toLevel.add
  claimed := by rw [Past.add, List.findSome?_append, holding.claimed, Option.some_or]
  claimed' := by rw [Past.add, List.findSome?_append, holding.claimed', Option.some_or]

theorem pairs_nextAttemptNumber {event event' : StoredEvent} (eventId : Nat)
    (holding : Holding event event' past) :
    (quietBond svc).Pairs Apart
      (Meets Fallen fun number number' past => number = number' ∧ Holding event event' past)
      (Queue.nextAttemptNumber eventId) (Queue.nextAttemptNumber eventId) past :=
  pairs_blind (Prog.throws_bind (throws_any _) fun _ => trivial)
    (Prog.only_bind (Prog.only_perform rfl) fun _ => trivial)
    (fun _ => Holding.toLevel) (fun _ _ _ _ held => held.add) holding

theorem pairs_lockEntity {event event' : StoredEvent} (key : String → String → Int)
    (entityType entityId : String)
    (timeout : Seconds) (holding : Holding event event' past) :
    (quietBond svc).Pairs Apart
      (Meets Fallen fun _ _ past => Holding event event' past ∧ past.one.any Sight.locked = true ∧
        past.other.any Sight.locked = true)
      (lockEntity key entityType entityId timeout) (lockEntity key entityType entityId timeout) past := by
  refine pairs_execute ((answers_blind rfl).mono fun _ _ => alike_of_eq) holding.toLevel fun _ _ _ => ?_
  refine Txn.Bond.Pairs.stmt Eq (answers_blind rfl) ?_ ?_ ?_
  · rintro answer _ rfl split
    exact absurd split (Txn.not_split_rfl answer)
  · intro e
    simp only [Prog.andThen_done, Prog.onError_error]
    split
    · exact .done holding.toLevel.add.struck
    · exact .done holding.toLevel.add.struck
  · rintro answer _ rfl
    cases answer with
    | ok => exact .done ⟨holding.add.add, by simp [Past.add, Sight.locked], by simp [Past.add, Sight.locked]⟩
    | error e =>
      simp only [Prog.andThen_done, Prog.onError_error]
      split
      · exact .done (holding.toLevel.add.refused refusals_rfl)
      · exact .done (holding.toLevel.add.refused refusals_rfl)

/-- The handlers of two events whose payloads differ, if they raise at different places, or
come to effects or exceptions. -/
theorem pairs_dispatch {event event' : StoredEvent} (same : event.blank = event'.blank)
    (holding : Holding event event' past) (locked : past.one.any Sight.locked = true)
    (locked' : past.other.any Sight.locked = true) :
    (quietBond svc).Pairs Apart (Meets Fallen fun effect effect' past => Balance.SameEffect effect
      effect' ∧ Level past)
      (Prog.ofExcept (Balance.registry.dispatch event))
        (Prog.ofExcept (Balance.registry.dispatch event')) past := by
  by_cases place : Balance.raises event = Balance.raises event'
  · have alike := Balance.dispatch_alike same place
    generalize Balance.registry.dispatch event = handled at alike ⊢
    generalize Balance.registry.dispatch event' = handled' at alike ⊢
    cases alike with
    | raised => exact .done holding.toLevel.raised
    | handled effects => exact .done ⟨effects, holding.toLevel⟩
  · refine .apart fun more more' equal => place ?_
    have raised := congrArg Prod.snd equal
    simpa [Trace.place, Trace.raised, locked, locked', holding.claimed, holding.claimed'] using raised

theorem answers_markSucceeded {eventId attemptsUsed : Nat} {now : Time} :
    (quietBond svc).Answers (.updateEvent eventId fun row =>
        { row with
          status := .succeeded, attemptCount := attemptsUsed, processedAt := some now, lastError := none })
      (.updateEvent eventId fun row =>
        { row with
          status := .succeeded, attemptCount := attemptsUsed, processedAt := some now, lastError := none })
      fun a a' => a = a' := by
  refine answers_updateEvent fun queue queue' alike => ⟨?_, .silent⟩
  have due : queue.nextAttemptAt = queue'.nextAttemptAt := congrArg (·.nextAttemptAt) alike
  simp only [EventQueue.blank, due]

theorem pairs_apply (shipped : svc.registry = Balance.registry) {event event' : StoredEvent} (startedAt : Time)
    (same : event.blank = event'.blank) (holding : Holding event event' past) :
    (quietBond svc).Pairs Apart (Meets Fallen fun _ _ past => Level past) (svc.apply event startedAt)
      (svc.apply event' startedAt) past := by
  have id : event.id = event'.id := congrArg (·.id) same
  have kind : event.entityType = event'.entityType := congrArg (·.entityType) same
  have entity : event.entityId = event'.entityId := congrArg (·.entityId) same
  have used : event.attemptCount = event'.attemptCount := congrArg (·.attemptCount) same
  simp only [Service.apply, shipped, ← id, ← kind, ← entity, ← used]
  refine Txn.Bond.pairs_bind (pairs_nextAttemptNumber event.id holding) ?_
  rintro number _ past ⟨rfl, holding⟩
  refine Txn.Bond.pairs_bind (pairs_lockEntity _ _ _ _ holding) ?_
  rintro - - past ⟨holding, locked, locked'⟩
  refine Txn.Bond.pairs_bind (pairs_dispatch same holding locked locked') ?_
  rintro effect effect' past ⟨effects, level⟩
  refine Txn.Bond.pairs_bind (pairs_applyEffect same effects level) ?_
  rintro result _ past ⟨rfl, level⟩
  refine pairs_execute ((answers_blind rfl).mono fun _ _ => alike_of_eq) level ?_
  rintro finishedAt _ rfl
  refine pairs_execute ((answers_blind rfl).mono fun _ _ => alike_of_eq) level.add fun _ _ _ => ?_
  refine pairs_execute (answers_markSucceeded.mono fun _ _ => alike_of_eq) level.add.add fun _ _ _ => ?_
  exact .done level.add.add.add

/-- A transaction on both sides, from what its body comes to. -/
theorem pairs_sessionScope {bond : Txn.Bond svc.system} {apart : Trace → Trace → Prop} {body body' : Program β}
    {X : Exc → Exc → Course → Prop} {P : β → β → Course → Prop}
    {Q : Except Exc β → Except Exc β → Course → Prop}
    (met : bond.Pairs apart (Meets X P) body body' past)
    (committed : ∀ a a' past writes writes', P a a' past →
      Q (.ok a) (.ok a') (past.add false (.committed writes) (.committed writes')))
    (uncommitted : ∀ a a' past e ev ev', P a a' past →
      (∃ writes writes', ev = .committed writes ∧ ev' = .committed writes') ∨
      ev = .rolledBack ∧ ev' = .rolledBack → Q (.error e) (.error e) (past.add true ev ev'))
    (rolledBack : ∀ e e' past, X e e' past → Q (.error e) (.error e') (past.add false .rolledBack .rolledBack) ∧
      ∀ e'', Q (.error e'') (.error e'') (past.add true .rolledBack .rolledBack)) :
    bond.Pairs apart Q (sessionScope body) (sessionScope body') past := by
  refine Txn.Bond.pairs_andThen (Txn.Bond.pairs_mono (fun r r' past left => ?_) met)
  cases r with
  | ok a =>
    cases r' with
    | ok a' =>
      refine .commit (fun writes writes' => .done (committed a a' past writes writes' left)) ?_ ?_
      · exact fun e writes writes' => .done
          (uncommitted a a' past e _ _ left (Or.inl ⟨writes, writes', rfl, rfl⟩))
      · exact fun e => .done (uncommitted a a' past e _ _ left (Or.inr ⟨rfl, rfl⟩))
    | error e' => exact left.elim
  | error e =>
    cases r' with
    | ok a' => exact left.elim
    | error e' =>
      obtain ⟨done, failed⟩ := rolledBack e e' past left
      exact .rollback (.done done) fun e'' => .done (failed e'')

theorem pairs_attempt (shipped : svc.registry = Balance.registry) (eventId : Nat) (startedAt : Time)
    (level : Level past) (fresh : past.one.findSome? Sight.claimed = none)
    (fresh' : past.other.findSome? Sight.claimed = none) :
    (quietBond svc).Pairs Apart (Meets Thrown fun _ _ _ => True) (svc.attempt eventId startedAt)
      (svc.attempt eventId startedAt) past := by
  refine pairs_sessionScope (X := Fallen) (P := fun _ _ past => Level past) ?_ ?_ ?_ ?_
  · refine pairs_execute (answers_claim.mono fun _ _ => alike_of_map
      (f := Option.map StoredEvent.blank)) level ?_
    intro event event' alike
    cases event with
    | none =>
      cases event' with
      | none => exact .done level.add
      | some event' => cases alike
    | some event =>
      cases event' with
      | none => cases alike
      | some event' =>
        refine pairs_apply shipped startedAt (Option.some.inj alike) ⟨level.add, ?_, ?_⟩
        · simp [Past.add, List.findSome?_append, fresh, Sight.claimed]
        · simp [Past.add, List.findSome?_append, fresh', Sight.claimed]
  · exact fun _ _ _ _ _ _ => trivial
  · rintro _ _ past e ev ev' level (⟨writes, writes', rfl, rfl⟩ | ⟨rfl, rfl⟩)
    · exact fun _ => Or.inl ⟨rfl, @Level.spared past level (.committed writes) (.committed writes')
        rfl rfl true⟩
    · exact fun _ => Or.inl ⟨rfl, level.spared rfl rfl true⟩
  · exact fun e e' past fallen => ⟨fallen.1, fun e'' _ => Or.inl ⟨rfl, fallen.2⟩⟩

/-- The processing transaction of a pass, with the start of the pass and what it came to. -/
def Service.processing (svc : Service) (eventId : Nat) : Program (Time × Except Exc ProcessResult) := do
  let startedAt ← execute .now
  (svc.attempt eventId startedAt).andThen fun result => .done (.ok (startedAt, result))

theorem pairs_processing (shipped : svc.registry = Balance.registry) (eventId : Nat) :
    (quietBond svc).Pairs Apart (fun r r' past => ∀ startedAt startedAt' exc exc',
        r = .ok (startedAt, .error exc) → r' = .ok (startedAt', .error exc') →
          startedAt = startedAt' ∧ Thrown exc exc' past)
      (svc.processing eventId) (svc.processing eventId) ⟨[], [], []⟩ := by
  refine .stmt Eq (answers_blind rfl) ?_ ?_ ?_
  · rintro answer _ rfl split
    exact absurd split (Txn.not_split_rfl answer)
  · exact fun e => .done (by rintro _ _ _ _ ⟨⟩)
  · rintro answer _ rfl
    cases answer with
    | error e => exact .done (by rintro _ _ _ _ ⟨⟩)
    | ok startedAt =>
      have start : Level ⟨[], [], []⟩ := ⟨rfl, rfl, by simp, by simp⟩
      change (quietBond svc).Pairs Apart _ ((svc.attempt eventId startedAt).andThen _)
        ((svc.attempt eventId startedAt).andThen _) _
      refine Txn.Bond.pairs_andThen (Txn.Bond.pairs_mono (fun r r' past left => ?_)
        (pairs_attempt shipped eventId startedAt start.add rfl rfl))
      refine .done ?_
      rintro _ _ exc exc' ⟨⟩ ⟨⟩
      exact ⟨rfl, left⟩

end Processing

/-! ## The failure transaction, twice -/

section Recording

variable {svc : Service} {said : String → String → Prop} {β : Type} {past : Course}

/-- Two passes that record their failures are in step throughout. -/
abbrev Abreast (svc : Service) (said : String → String → Prop) (prog prog' : Program β) : Prop :=
  ∀ past, (textBond svc said).Pairs (fun _ _ => False)
    (Meets (fun _ _ _ => True) fun value value' _ => value = value')
    prog prog' past

theorem abreast_bind {α : Type} {first first' : Program α} {next next' : α → Program β}
    (begins : Abreast svc said first first') (goes : ∀ value, Abreast svc said (next value) (next' value)) :
    Abreast svc said (first >>= next) (first' >>= next') := by
  refine fun past => Txn.Bond.pairs_bind (begins past) ?_
  rintro value _ past rfl
  exact goes value past

theorem abreast_pure (value : β) : Abreast svc said (pure value) (pure value) := fun _ => .done rfl

theorem abreast_blind {prog : Program β} (throws : prog.Throws fun _ => True)
    (only : prog.Only fun s => s.blind = true) :
    Abreast svc said prog prog := by
  refine fun past => Txn.Bond.pairs_mono (fun r r' past left => ?_)
    (Txn.Bond.pairs_same (X := fun _ _ _ => True) (I := fun _ => True) throws
      only (fun s blind => answers_blind blind) (fun _ _ _ _ _ _ => trivial)
      (fun _ _ _ _ _ _ _ => trivial) (fun _ _ _ => trivial) trivial)
  cases r with
  | ok value =>
    cases r' with
    | ok value' => exact left.1
    | error e' => exact left
  | error e =>
    cases r' with
    | ok value' => exact left
    | error e' => exact trivial

theorem abreast_done (e : Exc) : Abreast svc said (.done (.error e) : Program β) (.done (.error e)) :=
  fun _ => .done trivial

/-- Two statements that are told the same, when their answers are of the same kind. -/
theorem abreast_stmt {s s' : Stmt} {next : Except Exc s.Answer → Program β}
    {next' : Except Exc s'.Answer → Program β}
    {A : Except Exc s.Answer → Except Exc s'.Answer → Prop} (answers : (textBond svc said).Answers s s' A)
    (whole : ∀ a a', A a a' → ¬ Txn.Split a a')
    (struck : ∀ e, Abreast svc said (next (.error e)) (next' (.error e)))
    (goes : ∀ a a', A a a' → Abreast svc said (next a) (next' a')) :
    Abreast svc said (.stmt s next) (.stmt s' next') :=
  fun _ => .stmt A answers (fun a a' told split => whole a a' told split) (fun e => struck e _)
    fun a a' told => goes a a' told _

theorem abreast_updateEvent {eventId : Nat} {values values' : EventQueue → EventQueue}
    (alike : ∀ queue queue', queue.blank = queue'.blank → (values queue).blank = (values' queue').blank ∧
      Said said (Write.updateEvent eventId (values queue)).errorText
        (Write.updateEvent eventId (values' queue')).errorText) :
    Abreast svc said (execute (.updateEvent eventId values)) (execute (.updateEvent eventId values')) := by
  refine abreast_stmt (answers_updateEvent alike) ?_ (fun e => abreast_done e) ?_
  · rintro a _ rfl
    exact Txn.not_split_rfl a
  · rintro a _ rfl
    cases a with
    | ok value => exact abreast_pure value
    | error e => exact abreast_done e

theorem abreast_recordAttempt {eventId number : Nat} {startedAt finishedAt : Time} {outcome : AttemptOutcome}
    {errorClass : Option String} {detail detail' : String} (told : said detail detail') :
    Abreast svc said
      (Queue.recordAttempt eventId number startedAt finishedAt outcome errorClass (some detail))
      (Queue.recordAttempt eventId number startedAt finishedAt outcome errorClass (some detail')) := by
  let attempt : Attempt := ⟨eventId, number, startedAt, finishedAt, outcome, errorClass, none,
    Queue.durationMs startedAt finishedAt⟩
  have answers : (textBond svc said).Answers (.insertAttempt { attempt with errorDetail := some detail })
      (.insertAttempt { attempt with errorDetail := some detail' }) fun a a' => a = a' :=
        answers_insertAttempt told
  refine abreast_stmt answers ?_ (fun e => abreast_done e) ?_
  · rintro a _ rfl
    exact Txn.not_split_rfl a
  · rintro a _ rfl
    cases a with
    | ok value => exact abreast_pure value
    | error e => exact abreast_done e

/-- A text that ends with the detail. -/
theorem said_of_append {detail detail' : String} (told : said detail detail') (intro : String)
    (column : String → ErrorText) (injective : Function.Injective column) :
    Said said (some (column (intro ++ detail))) (some (column (intro ++ detail'))) :=
  .text (fun detail => column (intro ++ detail))
    (fun _ _ same => (String.append_right_inj intro).mp (injective same)) told

theorem abreast_deadLetter {eventId made : Nat} {intro detail detail' : String} (told : said detail detail') :
    Abreast svc said (Queue.deadLetter eventId made (intro ++ detail))
      (Queue.deadLetter eventId made (intro ++ detail')) := by
  refine abreast_bind (abreast_updateEvent fun queue queue' alike => ?_) fun _ => ?_
  · have due : queue.nextAttemptAt = queue'.nextAttemptAt := congrArg (·.nextAttemptAt) alike
    have processed : queue.processedAt = queue'.processedAt := congrArg (·.processedAt) alike
    refine ⟨?_, said_of_append told intro .lastError fun _ _ => ErrorText.lastError.inj⟩
    simp only [EventQueue.blank, due, processed]
  · have reasons := said_of_append told intro .reason fun _ _ => ErrorText.reason.inj
    refine abreast_stmt (answers_insertDeadLetterEntry reasons) ?_ (fun e => abreast_done e) ?_
    · rintro a _ rfl
      exact Txn.not_split_rfl a
    · rintro a _ rfl
      cases a with
      | ok value => exact abreast_pure value
      | error e => exact abreast_done e

/-- What `_record_failure` writes hangs on the exception only by its class, its kind and its
detail. -/
theorem abreast_recordFailureOf {event event' : StoredEvent} {exc exc' : Exc} (eventId : Nat) (startedAt : Time)
    (same : event.blank = event'.blank) (cls : exc.cls = exc'.cls)
    (retryable : isRetryable exc = isRetryable exc')
    (told : said (redactedDetail exc) (redactedDetail exc')) :
    Abreast svc said (svc.recordFailureOf eventId event exc startedAt)
      (svc.recordFailureOf eventId event' exc' startedAt) := by
  have used : event.attemptCount = event'.attemptCount := congrArg (·.attemptCount) same
  simp only [Service.recordFailureOf, ← used, ← cls, ← retryable]
  refine abreast_bind (abreast_blind (Prog.throws_bind (throws_any _) fun _ => trivial)
    (Prog.only_bind (Prog.only_perform rfl) fun _ => trivial)) fun number => ?_
  refine abreast_bind (abreast_blind (throws_any _) (Prog.only_perform rfl)) fun finishedAt => ?_
  refine abreast_bind (abreast_recordAttempt told) fun _ => ?_
  split
  · refine abreast_bind (abreast_blind (Prog.throws_bind ?_ fun _ => trivial)
      (only_nextAttemptAt svc (fun _ _ => rfl) _ _)) fun due => ?_
    · unfold nextDelaySeconds
      split
      · exact trivial
      · exact throws_any _
    · refine abreast_bind (abreast_updateEvent fun queue queue' alike => ?_) fun _ => abreast_pure _
      have processed : queue.processedAt = queue'.processedAt := congrArg (·.processedAt) alike
      refine ⟨?_, .text .lastError (fun _ _ => ErrorText.lastError.inj) told⟩
      simp only [EventQueue.blank, processed]
  · exact abreast_bind (abreast_deadLetter told) fun _ => abreast_pure _

theorem pairs_recordFailure {exc exc' : Exc} (eventId : Nat) (startedAt : Time) (cls : exc.cls = exc'.cls)
    (retryable : isRetryable exc = isRetryable exc') (told : said (redactedDetail exc) (redactedDetail exc')) :
    (textBond svc said).Pairs (fun _ _ => False) (fun _ _ _ => True) (svc.recordFailure eventId exc startedAt)
      (svc.recordFailure eventId exc' startedAt) past := by
  refine pairs_sessionScope (X := fun _ _ _ => True) (P := fun _ _ _ => True) ?_ (fun _ _ _ _ _ _ => trivial)
    (fun _ _ _ _ _ _ _ _ => trivial) fun _ _ _ _ => ⟨trivial, fun _ => trivial⟩
  refine .stmt _ answers_loadForUpdate ?_ (fun e => .done trivial) fun a a' same => ?_
  · intro a a' same split
    cases a <;> cases a' <;> first | exact split | cases same
  · cases a with
    | error e =>
      cases a' with
      | ok found' => cases same
      | error e' => exact .done trivial
    | ok found =>
      cases a' with
      | error e' => cases same
      | ok found' =>
        cases found with
        | none =>
          cases found' with
          | none => exact .done trivial
          | some event' => cases same
        | some event =>
          cases found' with
          | none => cases same
          | some event' =>
            have alike : event.blank = event'.blank := Option.some.inj (Except.ok.inj same)
            refine Txn.Bond.pairs_mono (fun r r' past left => ?_)
              (abreast_recordFailureOf eventId startedAt alike cls retryable told _)
            cases r <;> cases r' <;> first | exact trivial | exact left

end Recording

/-! ## Error records -/

/-- What is persisted by pairs of writes comes in pairs. -/
theorem errorTexts_pair {svc : Service} {said : String → String → Prop} {trace trace' : Trace}
    (commits : List.Forall₂ (List.Forall₂ (textBond svc said).write) (Txn.commits trace) (Txn.commits trace')) :
    List.Forall₂ (fun text text' => Said said (some text) (some text')) (Trace.errorTexts trace)
      (Trace.errorTexts trace') := by
  have writes := List.rel_flatten commits
  simp only [Trace.errorTexts]
  generalize (Txn.commits trace).flatten = written at writes ⊢
  generalize (Txn.commits trace').flatten = written' at writes ⊢
  induction writes with
  | nil => exact .nil
  | @cons write write' rest rest' first _ ih =>
    obtain ⟨-, told⟩ := first
    rw [List.filterMap_cons, List.filterMap_cons]
    generalize write.errorText = text at told ⊢
    generalize write'.errorText = text' at told ⊢
    cases told with
    | silent => exact ih
    | text form injective told => exact .cons (.text form injective told) ih

/-- The strings come out the same when the details are the same. -/
theorem texts_same {texts texts' : List ErrorText}
    (pairs : List.Forall₂ (fun text text' => Said (fun detail detail' => detail = detail') (some text)
      (some text'))
      texts texts') : texts = texts' := by
  induction pairs with
  | nil => rfl
  | cons first _ ih =>
    cases first with
    | text form injective told => rw [told, ih]

/-- And differ when the details differ, unless there are none. -/
theorem texts_differ {detail detail' : String} (apart : detail ≠ detail') {texts texts' : List ErrorText}
    (pairs : List.Forall₂ (fun text text' => Said (fun told told' => told = detail ∧ told' = detail')
      (some text) (some text')) texts texts') : texts = texts' ↔ texts = [] := by
  cases pairs with
  | nil => simp
  | cons first _ =>
    cases first with
    | text form injective told =>
      obtain ⟨rfl, rfl⟩ := told
      constructor
      · intro same
        exact absurd (injective (List.cons.inj same).1) apart
      · rintro ⟨⟩

/-- What surrounds a pass: the steps it takes, what strikes them, and what others write. -/
abbrev Surroundings := List (Happening Write Lock Input Exc)

namespace Service

variable (svc : Service)

/-- Where a pass over an event stands in its surroundings, from a store. -/
def passes (surroundings : Surroundings) (db : Db) (eventId : Nat) :
    Option (Local Db Write Stmt Stmt.Answer Exc Outcome) :=
  svc.system.attend (.start db (svc.program (.process eventId))) surroundings

/-- In its surroundings the processing transaction of a pass ends with the exception. -/
def Fails (surroundings : Surroundings) (db : Db) (eventId : Nat) (exc : Exc) : Prop :=
  ∃ before after startedAt ended, surroundings = before ++ after ∧
    svc.system.attend (.start db (svc.processing eventId)) before = some ended ∧
    ended.prog = .done (.ok (startedAt, .error exc))

/-- What a pass does once its processing transaction is over. -/
def afterProcessing (eventId : Nat) : Except Exc (Time × Except Exc ProcessResult) → Program Outcome
  | .ok (_, .ok result) => .done (.ok (.processed result))
  | .ok (startedAt, .error exc) => do
    let result ← if exc.isException then svc.recordFailure eventId exc startedAt else throw exc
    return .processed result
  | .error e => .done (.error e)

theorem process_eq (eventId : Nat) :
    svc.program (.process eventId) = (svc.processing eventId).andThen (svc.afterProcessing eventId) := by
  simp only [program, processEvent, processing, Prog.bind_eq, Prog.andThen_assoc]
  refine congrArg _ (funext fun r => ?_)
  cases r with
  | error e => rfl
  | ok startedAt =>
    simp only [Prog.onValue_ok, Prog.tryCatch_eq, Prog.andThen_assoc]
    refine congrArg _ (funext fun result => ?_)
    cases result with
    | ok result => rfl
    | error exc =>
      simp only [Prog.onError_error, Prog.andThen_done, afterProcessing, Prog.bind_eq]
      split <;> rfl

end Service

/-- A pass goes on from where its processing transaction ended. -/
theorem continues {svc : Service} {surroundings both rest : Surroundings} {db : Db} {id : Nat}
    {ended : Local Db Write Stmt Stmt.Answer Exc (Time × Except Exc ProcessResult)}
    {pass : Local Db Write Stmt Stmt.Answer Exc Outcome} (whole : both ++ rest = surroundings)
    (met : svc.system.attend (.start db (svc.processing id)) both = some ended)
    (went : svc.passes surroundings db id = some pass) :
    svc.system.attend (ended.andThen (svc.afterProcessing id)) rest = some pass := by
  have began : svc.system.attend (.start db (svc.program (.process id))) both =
      some (ended.andThen (svc.afterProcessing id)) := by
    rw [svc.process_eq]
    exact Txn.attend_andThen met
  rw [Service.passes, ← whole, Txn.attend_append, began] at went
  exact went

/-- From the end of their processing transactions on, two passes that failed with the same
class persist pairs of strings. -/
theorem errorTexts_after {svc : Service} {said : String → String → Prop} {rest : Surroundings} {id : Nat}
    {startedAt : Time} {exc exc' : Exc}
    {ended ended' : Local Db Write Stmt Stmt.Answer Exc (Time × Except Exc ProcessResult)}
    {pass pass' : Local Db Write Stmt Stmt.Answer Exc Outcome}
    (here : ended.prog = .done (.ok (startedAt, .error exc)))
    (here' : ended'.prog = .done (.ok (startedAt, .error exc')))
    (akin : ended.db.blank = ended'.db.blank)
    (writes : List.Forall₂ (quietBond svc).write ended.writes ended'.writes)
    (commits : List.Forall₂ (List.Forall₂ (quietBond svc).write) (Txn.commits ended.trace)
      (Txn.commits ended'.trace))
    (cls : exc.cls = exc'.cls) (caught : exc.isException = exc'.isException)
    (retryable : isRetryable exc = isRetryable exc') (told : said (redactedDetail exc) (redactedDetail exc'))
    (went : svc.system.attend (ended.andThen (svc.afterProcessing id)) rest = some pass)
    (went' : svc.system.attend (ended'.andThen (svc.afterProcessing id)) rest = some pass') :
    List.Forall₂ (fun text text' => Said said (some text) (some text')) (Trace.errorTexts pass.trace)
      (Trace.errorTexts pass'.trace) := by
  have quiet : ∀ write write', (quietBond svc).write write write' → (textBond svc said).write write write' := by
    rintro write write' ⟨blank, told⟩
    refine ⟨blank, ?_⟩
    generalize write.errorText = text at told ⊢
    generalize write'.errorText = text' at told ⊢
    cases told with
    | silent => exact .silent
    | text form injective never => exact never.elim
  have side : (textBond svc said).Pairs (fun _ _ => False) (fun _ _ _ => True)
      ((ended.andThen (svc.afterProcessing id)).prog) ((ended'.andThen (svc.afterProcessing id)).prog)
      ⟨[], ended.trace, ended'.trace⟩ := by
    simp only [Local.andThen, here, here', Prog.andThen_done, Service.afterProcessing, ← caught]
    cases exc.isException with
    | true =>
      refine Txn.Bond.pairs_andThen (Txn.Bond.pairs_mono (fun r r' past _ => ?_)
        (pairs_recordFailure id startedAt cls retryable told))
      cases r <;> cases r' <;> exact .done trivial
    | false => exact .done trivial
  have linked : (textBond svc said).Linked (fun _ _ => False) (fun _ _ _ => True)
      (ended.andThen (svc.afterProcessing id)) (ended'.andThen (svc.afterProcessing id)) [] :=
    Or.inr ⟨akin, writes.imp quiet, commits.imp fun _ _ => List.Forall₂.imp quiet, side⟩
  rcases linked.attend (fun _ _ _ _ never => never) went went' with far | ⟨-, -, pairs, -⟩
  · exact far.elim
  · exact errorTexts_pair pairs

/-- Events whose payloads differ are processed by the shipped registry from the same store and
in the same surroundings, and fail with the same class at the same statement. The strings
that are persisted about it are the same, unless the failing statements have arguments out
of the range of the driver, which it quotes differently. -/
theorem error_records_alike_iff (svc : Service) (shipped : svc.registry = Balance.registry)
    {surroundings : Surroundings} {db : Db} {id : Nat} {payload payload' : JsonObject}
    {pass pass' : Local Db Write Stmt Stmt.Answer Exc Outcome} {exc exc' : Exc}
    (went : svc.passes surroundings (db.withPayload id payload) id = some pass)
    (went' : svc.passes surroundings (db.withPayload id payload') id = some pass')
    (failed : svc.Fails surroundings (db.withPayload id payload) id exc)
    (failed' : svc.Fails surroundings (db.withPayload id payload') id exc')
    (cls : exc.cls = exc'.cls) (place : Trace.place pass.trace = Trace.place pass'.trace) :
    Trace.errorTexts pass.trace = Trace.errorTexts pass'.trace ↔
      Trace.errorTexts pass.trace = [] ∨
        ¬ Overflows (Txn.strikes surroundings) pass.trace pass'.trace := by
  obtain ⟨before, after, startedAt, ended, split, ran, result⟩ := failed
  obtain ⟨before', after', startedAt', ended', split', ran', result'⟩ := failed'
  have akin : (db.withPayload id payload).blank = (db.withPayload id payload').blank := by
    rw [withPayload_blank, withPayload_blank]
  have linked : (quietBond svc).Linked Apart _ (.start (db.withPayload id payload) (svc.processing id))
      (.start (db.withPayload id payload') (svc.processing id)) [] :=
    Txn.Bond.linked_start akin (pairs_processing shipped id)
  obtain ⟨both, rest, k, k', whole, met, met', close⟩ :=
    linked.ends apart_grows (split.symm.trans split') ran result ran' result'
  rw [← split] at whole
  have rest_met := continues whole met went
  have rest_met' := continues whole met' went'
  obtain ⟨more, longer⟩ := Txn.attend_trace rest_met
  obtain ⟨more', longer'⟩ := Txn.attend_trace rest_met'
  rcases close with far | ⟨there, there', stores, writes, commits, thrown⟩
  · rw [longer, longer'] at place
    exact absurd place (far more more')
  · obtain ⟨rfl, told⟩ := thrown _ _ _ _ rfl rfl
    rw [← whole, Txn.strikes_append, longer, longer']
    rcases told cls with ⟨rfl, spared⟩ | ⟨⟨raised, raised', retryable, apart⟩, overrun⟩
    · have pairs := errorTexts_after there there' stores writes commits rfl rfl rfl rfl rest_met rest_met'
      rw [longer, longer'] at pairs
      exact iff_of_true (texts_same pairs) (Or.inr (spared _ more more'))
    · have pairs : List.Forall₂ (fun text text' =>
            Said (fun told told' => told = redactedDetail exc ∧ told' = redactedDetail exc')
              (some text) (some text'))
          (Trace.errorTexts pass.trace) (Trace.errorTexts pass'.trace) :=
        errorTexts_after there there' stores writes commits cls (raised.trans raised'.symm) retryable ⟨rfl, rfl⟩
          rest_met rest_met'
      rw [longer, longer'] at pairs
      rw [texts_differ apart pairs]
      exact (or_iff_left (not_not.mpr (overrun _ more more'))).symm

/-! ## On a store with one delivery -/

/-- A credit is waiting. -/
def Sample.waiting : Db :=
  let row : EventRow := { Sample.credit "a" 1 1 with
    status := .pending, attemptCount := 0, nextAttemptAt := 0, processedAt := none, lastError := none, id := 1,
    receivedAt := 0 }
  { Db.empty with events := [row], seq := Function.update Db.empty.seq .event 2 }

/-- `n` steps with nobody else at work. -/
def Sample.calm (n : Nat) : Surroundings := List.replicate n (.run (fun _ _ => true) (Sample.clock 100))

/-- A pass over the waiting credit that fails after `before` steps and records it in `after`. -/
theorem Sample.failing (before after : Nat) (payload : JsonObject) (place : Nat × Option Balance.Raise)
    {startedAt : Time} {exc : Exc}
    (ended : (Sample.service.system.attend
      (.start (Sample.waiting.withPayload 1 payload) (Sample.service.processing 1))
      (Sample.calm before)).map (·.prog) = some (.done (.ok (startedAt, .error exc))))
    (shown : (Sample.service.passes (Sample.calm (before + after)) (Sample.waiting.withPayload 1 payload) 1).map
      (fun pass => (Trace.place pass.trace, (Trace.errorTexts pass.trace).head?)) =
        some (place, some (.errorDetail (redactedDetail exc)))) :
    ∃ pass, Sample.service.passes (Sample.calm (before + after))
      (Sample.waiting.withPayload 1 payload) 1 = some pass ∧
      Sample.service.Fails (Sample.calm (before + after)) (Sample.waiting.withPayload 1 payload) 1 exc ∧
      Trace.place pass.trace = place ∧ (Trace.errorTexts pass.trace).head? = some
        (.errorDetail (redactedDetail exc)) := by
  obtain ⟨l, ran, result⟩ := Option.map_eq_some_iff.mp ended
  obtain ⟨pass, went, seen⟩ := Option.map_eq_some_iff.mp shown
  obtain ⟨there, text⟩ := Prod.mk.inj seen
  exact ⟨pass, went, ⟨Sample.calm before, Sample.calm after, startedAt, l, List.replicate_add .., ran, result⟩,
    there, text⟩

/-- Two malformed amounts fail at the same `raise`. -/
theorem error_records_alike_sample :
    ∃ pass pass', Sample.service.passes (Sample.calm 13)
      (Sample.waiting.withPayload 1 [("amount", .str "many")]) 1 = some pass ∧
      Sample.service.passes (Sample.calm 13) (Sample.waiting.withPayload 1 [("amount", .bool true)])
        1 = some pass' ∧
      Trace.place pass.trace = (5, some .notMinorUnits) ∧
      (Trace.errorTexts pass.trace = Trace.errorTexts pass'.trace ↔
        Trace.errorTexts pass.trace = [] ∨
          ¬ Overflows (Txn.strikes (Sample.calm 13)) pass.trace pass'.trace) := by
  obtain ⟨pass, went, failed, place, -⟩ := Sample.failing 6 7 [("amount", .str "many")]
    (5, some .notMinorUnits) rfl (by decide +kernel)
  obtain ⟨pass', went', failed', place', -⟩ := Sample.failing 6 7 [("amount", .bool true)]
    (5, some .notMinorUnits) rfl (by decide +kernel)
  exact ⟨pass, pass', went, went', place, error_records_alike_iff Sample.service rfl went went' failed
    failed' rfl
    (place.trans place'.symm)⟩

/-- Two amounts out of the range of the driver: the ledger insert of both passes is refused, and
each error record quotes its amount. -/
theorem error_records_differ :
    ∃ (surroundings : Surroundings) (db : Db) (payload payload' : JsonObject) (pass pass' : _) (exc exc' : Exc),
      payload.map (·.1) = payload'.map (·.1) ∧
      Sample.service.passes surroundings (db.withPayload 1 payload) 1 = some pass ∧
      Sample.service.passes surroundings (db.withPayload 1 payload') 1 = some pass' ∧
      Sample.service.Fails surroundings (db.withPayload 1 payload) 1 exc ∧
      Sample.service.Fails surroundings (db.withPayload 1 payload') 1 exc' ∧ exc.cls = exc'.cls ∧
      Trace.place pass.trace = Trace.place pass'.trace ∧
      Trace.errorTexts pass.trace ≠ Trace.errorTexts pass'.trace := by
  obtain ⟨pass, went, failed, place, text⟩ := Sample.failing 8 7 [("amount", .int (2 ^ 63))] (6, none)
    rfl (by decide +kernel)
  obtain ⟨pass', went', failed', place', text'⟩ := Sample.failing 8 7 [("amount", .int (2 ^ 63 + 1))]
    (6, none) rfl (by decide +kernel)
  refine ⟨Sample.calm 15, Sample.waiting, [("amount", .int (2 ^ 63))],
    [("amount", .int (2 ^ 63 + 1))], pass, pass',
    invalidArgument 3 (2 ^ 63), invalidArgument 3 (2 ^ 63 + 1), rfl, went, went', failed, failed', rfl,
    place.trans place'.symm, fun same => ?_⟩
  rw [same, text'] at text
  have details := ErrorText.errorDetail.inj (Option.some.inj text)
  have quotes : quoted (2 ^ 63 + 1) = quoted (2 ^ 63) := quoted_of_redactedDetail (by decide) details
  have apart : quoted (2 ^ 63 + 1) ≠ quoted (2 ^ 63) := by decide
  exact apart quotes

end WebhookReceiver
