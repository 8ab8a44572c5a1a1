import WebhookReceiver.Domain.Event
import WebhookReceiver.Domain.Failure

/-!
Handlers: what an event means, as a pure function of the event.

`HandlerRegistry` is any registry that `register` can build; `balanceRegistry`
is the one the service ships. `OwnsEntity` is what the rest of the service has to
know about a registry: an effect is about the account that is the event's own
entity, which is the one the worker locks. The shipped registry has it.
-/

namespace WebhookReceiver

/-- `handlers.py::Handler`: an effect, or a refusal. -/
abbrev Handler := StoredEvent → Except Exc Effect

/-- `handlers.py::HandlerRegistry`: one handler for an event type. -/
structure HandlerRegistry where
  handlers : List (String × Handler)
  distinct : (handlers.map (·.1)).Nodup

namespace HandlerRegistry

def empty : HandlerRegistry := ⟨[], List.nodup_nil⟩

/-- `HandlerRegistry.register`: a second handler for a type is refused. -/
def register (registry : HandlerRegistry) (eventType : String) (handler : Handler) :
    Except Exc HandlerRegistry :=
  if taken : eventType ∈ registry.handlers.map (·.1) then
    .error (valueError ("a handler is already registered for event type " ++ pyRepr eventType))
  else
    .ok ⟨registry.handlers ++ [(eventType, handler)], by
      rw [List.map_append, List.nodup_append]
      refine ⟨registry.distinct, by simp, ?_⟩
      intro known member new added same
      simp only [List.map_cons, List.map_nil, List.mem_singleton] at added
      exact taken (added ▸ same ▸ member)⟩

/-- `HandlerRegistry.dispatch`. -/
def dispatch (registry : HandlerRegistry) (event : StoredEvent) : Except Exc Effect :=
  match registry.handlers.find? fun entry => entry.1 = event.eventType with
  | none => .error (unknownEventTypeError ("no handler registered for event type " ++ pyRepr event.eventType))
  | some (_, handler) => handler event

def eventTypes (registry : HandlerRegistry) : List String := registry.handlers.map (·.1)

end HandlerRegistry

/-! ## The shipped handlers (`domain/balance.py`) -/

namespace Balance

def accountEntityType : String := "account"

def credited : String := "balance.credited"
def debited : String := "balance.debited"
def snapshot : String := "balance.snapshot"

def minSequence : Int := 1

/-- `balance.py::_account_ref`. -/
def accountRef (event : StoredEvent) : Except Exc String :=
  if event.entityType ≠ accountEntityType then
    .error (unprocessableEventError ("balance handlers own " ++ pyRepr accountEntityType ++
      " entities, but this event is about " ++ pyRepr event.entityType))
  else if event.entityId = "" then
    .error (unprocessableEventError "event carries no entity_id, so there is no account to apply it to")
  else .ok event.entityId

/-- `balance.py::_minor_units`. -/
def minorUnits (payload : JsonObject) (field : String) : Except Exc Int :=
  match payload.get? field with
  | some (.int value) => .ok value
  | _ => .error (unprocessableEventError
      ("field " ++ pyRepr field ++ " must be an integer number of minor units"))

/-- `balance.py::_non_negative`. -/
def nonNegative (amount : Int) (field : String) : Except Exc Int :=
  if amount < 0 then
    .error (unprocessableEventError
      ("field " ++ pyRepr field ++ " must not be negative; the event type carries the direction"))
  else .ok amount

/-- The body that `handle_credited` and `handle_debited` share: one effect type for
both directions, and the sign comes from the event type. -/
def handleMovement (signed : Int → Int) : Handler := fun event => do
  let units ← minorUnits event.payload "amount"
  let amount ← nonNegative units "amount"
  let account ← accountRef event
  return .credit ⟨account, signed amount⟩

/-- `balance.py::handle_credited`. -/
def handleCredited : Handler := handleMovement fun amount => amount

/-- `balance.py::handle_debited`. -/
def handleDebited : Handler := handleMovement fun amount => -amount

private def needsSequence : Exc :=
  unprocessableEventError (pyRepr snapshot ++ " sets an absolute balance and needs a " ++
    "provider_sequence of at least 1 to order it; without one a stale snapshot could " ++
    "overwrite newer state")

/-- `balance.py::handle_snapshot`. -/
def handleSnapshot : Handler := fun event =>
  match event.providerSequence with
  | none => .error needsSequence
  | some sequence =>
    if sequence < minSequence then .error needsSequence
    else do
      let balance ← minorUnits event.payload "balance"
      let account ← accountRef event
      return .setBalance ⟨account, balance, sequence⟩

/-- The registry of `domain/balance.py`. -/
def registry : HandlerRegistry :=
  ⟨[(credited, handleCredited), (debited, handleDebited), (snapshot, handleSnapshot)], by decide⟩

/-- It is what the three `@registry.register` decorators build. -/
theorem registry_registered :
    (do let registry ← HandlerRegistry.empty.register credited handleCredited
        let registry ← registry.register debited handleDebited
        registry.register snapshot handleSnapshot) = .ok registry := by
  rfl

/-! ## What a handler's effect is about -/

theorem accountRef_ok {event : StoredEvent} {account : String}
    (known : accountRef event = .ok account) :
    event.entityType = accountEntityType ∧ account = event.entityId := by
  unfold accountRef at known
  split at known
  · cases known
  · rename_i owned
    split at known
    · cases known
    · cases known
      exact ⟨Decidable.not_not.mp owned, rfl⟩

theorem minorUnits_ok {payload : JsonObject} {field : String} {value : Int}
    (read : minorUnits payload field = .ok value) : payload.get? field = some (.int value) := by
  unfold minorUnits at read
  split at read
  · rename_i found
    cases read
    exact found
  · cases read

theorem nonNegative_ok {amount value : Int} {field : String}
    (read : nonNegative amount field = .ok value) : value = amount ∧ 0 ≤ amount := by
  unfold nonNegative at read
  split at read
  · cases read
  · cases read
    omega

theorem accountRef_error {event : StoredEvent} {e : Exc} (raised : accountRef event = .error e) :
    e.kind = .nonRetryable := by
  unfold accountRef at raised
  split at raised
  · cases raised
    rfl
  · split at raised <;> cases raised
    rfl

theorem minorUnits_error {payload : JsonObject} {field : String} {e : Exc}
    (raised : minorUnits payload field = .error e) : e.kind = .nonRetryable := by
  unfold minorUnits at raised
  split at raised <;> cases raised
  rfl

theorem nonNegative_error {amount : Int} {field : String} {e : Exc}
    (raised : nonNegative amount field = .error e) : e.kind = .nonRetryable := by
  unfold nonNegative at raised
  split at raised <;> cases raised
  rfl

theorem handleMovement_ok {signed : Int → Int} {event : StoredEvent} {effect : Effect}
    (handled : handleMovement signed event = .ok effect) :
    ∃ amount, 0 ≤ amount ∧ event.payload.get? "amount" = some (.int amount) ∧
      event.entityType = accountEntityType ∧ effect = .credit ⟨event.entityId, signed amount⟩ := by
  simp only [handleMovement, bind, Except.bind, pure, Except.pure] at handled
  split at handled
  · cases handled
  · rename_i units read
    split at handled
    · cases handled
    · rename_i amount checked
      split at handled
      · cases handled
      · rename_i account known
        cases handled
        obtain ⟨rfl, positive⟩ := nonNegative_ok checked
        obtain ⟨owned, rfl⟩ := accountRef_ok known
        exact ⟨amount, positive, minorUnits_ok read, owned, rfl⟩

theorem handleSnapshot_ok {event : StoredEvent} {effect : Effect}
    (handled : handleSnapshot event = .ok effect) :
    ∃ balance sequence, event.providerSequence = some sequence ∧ 1 ≤ sequence ∧
      event.payload.get? "balance" = some (.int balance) ∧
      event.entityType = accountEntityType ∧
      effect = .setBalance ⟨event.entityId, balance, sequence⟩ := by
  unfold handleSnapshot at handled
  split at handled
  · cases handled
  · rename_i sequence ordered
    split at handled
    · cases handled
    · rename_i late
      simp only [bind, Except.bind, pure, Except.pure] at handled
      split at handled
      · cases handled
      · rename_i balance read
        split at handled
        · cases handled
        · rename_i account known
          cases handled
          obtain ⟨owned, rfl⟩ := accountRef_ok known
          have positive : 1 ≤ sequence := by
            simp only [minSequence] at late
            omega
          exact ⟨balance, sequence, ordered, positive, minorUnits_ok read, owned, rfl⟩

theorem handleMovement_error {signed : Int → Int} {event : StoredEvent} {e : Exc}
    (raised : handleMovement signed event = .error e) : e.kind = .nonRetryable := by
  simp only [handleMovement, bind, Except.bind, pure, Except.pure] at raised
  split at raised
  · cases raised
    exact minorUnits_error ‹_›
  · split at raised
    · cases raised
      exact nonNegative_error ‹_›
    · split at raised
      · cases raised
        exact accountRef_error ‹_›
      · cases raised

theorem handleSnapshot_error {event : StoredEvent} {e : Exc} (raised : handleSnapshot event = .error e) :
    e.kind = .nonRetryable := by
  unfold handleSnapshot at raised
  split at raised
  · cases raised
    rfl
  · split at raised
    · cases raised
      rfl
    · simp only [bind, Except.bind, pure, Except.pure] at raised
      split at raised
      · cases raised
        exact minorUnits_error ‹_›
      · split at raised
        · cases raised
          exact accountRef_error ‹_›
        · cases raised

/-- What the shipped handlers raise is permanent. -/
theorem dispatch_error {event : StoredEvent} {e : Exc} (raised : registry.dispatch event = .error e) :
    e.kind = .nonRetryable := by
  unfold HandlerRegistry.dispatch at raised
  split at raised
  · cases raised
    rfl
  · rename_i eventType handler found
    have member := List.mem_of_find?_eq_some found
    simp only [registry, List.mem_cons, Prod.mk.injEq, List.not_mem_nil, or_false] at member
    rcases member with ⟨-, rfl⟩ | ⟨-, rfl⟩ | ⟨-, rfl⟩
    · exact handleMovement_error raised
    · exact handleMovement_error raised
    · exact handleSnapshot_error raised

end Balance

/-- Every effect is about the account that the event names as its entity, and a
snapshot carries the event's own sequence, a positive one. -/
structure HandlerRegistry.OwnsEntity (registry : HandlerRegistry) : Prop where
  entity : ∀ event effect, registry.dispatch event = .ok effect →
    event.entityType = Balance.accountEntityType ∧ effect.accountRef = event.entityId
  sequence : ∀ event effect, registry.dispatch event = .ok (.setBalance effect) →
    event.providerSequence = some effect.sequence ∧ 1 ≤ effect.sequence

namespace Balance

/-- What the shipped registry answers, by event type. -/
theorem dispatch_cases {event : StoredEvent} {effect : Effect}
    (dispatched : registry.dispatch event = .ok effect) :
    (∃ amount, 0 ≤ amount ∧ event.payload.get? "amount" = some (.int amount) ∧
      event.entityType = accountEntityType ∧
      ((event.eventType = credited ∧ effect = .credit ⟨event.entityId, amount⟩) ∨
        (event.eventType = debited ∧ effect = .credit ⟨event.entityId, -amount⟩))) ∨
    (∃ balance sequence, event.eventType = snapshot ∧ event.providerSequence = some sequence ∧
      1 ≤ sequence ∧ event.payload.get? "balance" = some (.int balance) ∧
      event.entityType = accountEntityType ∧
      effect = .setBalance ⟨event.entityId, balance, sequence⟩) := by
  unfold HandlerRegistry.dispatch at dispatched
  split at dispatched
  · cases dispatched
  · rename_i name handler found
    have named : name = event.eventType := by simpa using List.find?_some found
    have member := List.mem_of_find?_eq_some found
    simp only [registry, List.mem_cons, Prod.mk.injEq, List.not_mem_nil, or_false] at member
    subst named
    rcases member with ⟨same, rfl⟩ | ⟨same, rfl⟩ | ⟨same, rfl⟩
    · obtain ⟨amount, positive, read, owned, rfl⟩ := handleMovement_ok dispatched
      exact Or.inl ⟨amount, positive, read, owned, Or.inl ⟨same, rfl⟩⟩
    · obtain ⟨amount, positive, read, owned, rfl⟩ := handleMovement_ok dispatched
      exact Or.inl ⟨amount, positive, read, owned, Or.inr ⟨same, rfl⟩⟩
    · obtain ⟨balance, sequence, ordered, positive, read, owned, rfl⟩ := handleSnapshot_ok dispatched
      exact Or.inr ⟨balance, sequence, same, ordered, positive, read, owned, rfl⟩

/-- The shipped handlers touch no account but the event's own. -/
theorem registry_ownsEntity : registry.OwnsEntity where
  entity := by
    intro event effect dispatched
    rcases dispatch_cases dispatched with
      ⟨amount, -, -, owned, ⟨-, rfl⟩ | ⟨-, rfl⟩⟩ | ⟨balance, sequence, -, -, -, -, owned, rfl⟩
    · exact ⟨owned, rfl⟩
    · exact ⟨owned, rfl⟩
    · exact ⟨owned, rfl⟩
  sequence := by
    intro event effect dispatched
    rcases dispatch_cases dispatched with
      ⟨amount, -, -, owned, ⟨-, same⟩ | ⟨-, same⟩⟩ | ⟨balance, sequence, -, known, positive, -, -, same⟩
    · cases same
    · cases same
    · cases same
      exact ⟨known, positive⟩

end Balance

end WebhookReceiver
