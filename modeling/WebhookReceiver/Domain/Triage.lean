import WebhookReceiver.Domain.Event
import WebhookReceiver.Domain.Failure

/-!
The dead-letter queue as a state machine (`domain/dlq.py`). `resolved` and
`discarded` are terminal: no move leads out of them.
-/

namespace WebhookReceiver

/-- `dlq.py::_ALLOWED`, each row in the order of the state names. -/
def DlqStatus.allowed : DlqStatus → List DlqStatus
  | .needsReview => [.discarded, .replaying, .resolved]
  | .replaying => [.discarded, .needsReview, .resolved]
  | .resolved => []
  | .discarded => []

/-- `dlq.py::TERMINAL`. -/
def DlqStatus.terminal : DlqStatus → Bool
  | .resolved | .discarded => true
  | .needsReview | .replaying => false

/-- The entry still waits for somebody. -/
def DlqStatus.isOpen (status : DlqStatus) : Bool := !status.terminal

/-- `dlq.py::ensure_transition`. -/
def ensureTransition (current target : DlqStatus) : Except Exc Unit :=
  if target ∈ current.allowed then .ok ()
  else
    let allowed := if current.allowed = [] then "nothing"
      else ", ".intercalate (current.allowed.map DlqStatus.value)
    let wasTerminal := if current.terminal then " (it is terminal)" else ""
    .error (invalidDlqTransitionError ("cannot move a dead-letter entry from " ++
      pyRepr current.value ++ " to " ++ pyRepr target.value ++ wasTerminal ++ "; from " ++
      pyRepr current.value ++ " the legal moves are: " ++ allowed))

theorem ensureTransition_ok {current target : DlqStatus} {u : Unit}
    (moved : ensureTransition current target = .ok u) : target ∈ current.allowed := by
  unfold ensureTransition at moved
  split at moved
  · assumption
  · cases moved

theorem ensureTransition_error {current target : DlqStatus} {e : Exc}
    (refused : ensureTransition current target = .error e) :
    target ∉ current.allowed ∧ e.cls = "InvalidDlqTransitionError" := by
  unfold ensureTransition at refused
  split at refused
  · cases refused
  · rename_i illegal
    cases refused
    exact ⟨illegal, rfl⟩

/-- A terminal entry never moves. -/
theorem ensureTransition_open {current target : DlqStatus} {u : Unit}
    (moved : ensureTransition current target = .ok u) : current.terminal = false := by
  have legal := ensureTransition_ok moved
  cases current with
  | needsReview => rfl
  | replaying => rfl
  | resolved => cases legal
  | discarded => cases legal

end WebhookReceiver
