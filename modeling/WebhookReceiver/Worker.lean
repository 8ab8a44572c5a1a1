import WebhookReceiver.Services

/-!
The worker's process (`worker/main.py`): it waits for the schema, then polls.

What a round meets is given from outside: whether a shutdown has been requested, what the
transactions of the round came to, the clock and the draw. Both loops ask the same
question of an exception as a pass does: `is_retryable`.
-/

namespace WebhookReceiver

/-- `config.py::Settings`, with the fields that only the worker reads. -/
structure WorkerSettings extends Settings where
  schemaWaitTimeoutSeconds : Seconds := ⟨180, "180.0", by decide +kernel⟩
  pollIntervalSeconds : ℚ := 1
  interval_positive : 0 < pollIntervalSeconds := by decide +kernel

/-! ## Waiting for the schema -/

def schemaProbeTable : String := "webhook_event"

/-- `main.py::SchemaNotReadyError`. -/
def schemaNotReadyError (settings : WorkerSettings) : Exc :=
  ⟨"SchemaNotReadyError", "table " ++ pyRepr schemaProbeTable ++ " did not appear within " ++
    settings.schemaWaitTimeoutSeconds.text ++ "s, so the migration has not run. Check that " ++
    "`alembic upgrade head` is wired as the app's pre-deploy command, and that the app and the worker " ++
    "share one DATABASE_URL.", .other none⟩

/-- A round of `await_schema`: whether the table is there, and the clock after the probe. -/
structure Probe where
  shutdown : Bool
  found : Except Exc Bool
  now : Time

inductive Awaiting where
  | waiting (attempt : Nat)
  | returned
  | raised (exc : Exc)
  deriving DecidableEq

/-- An exception that both loops wait out: `except Exception`, and not raised again. -/
def waitedOut (exc : Exc) : Bool := exc.isException && isRetryable exc

def awaitRound (settings : WorkerSettings) (deadline : Time) (attempt : Nat) (probe : Probe) : Awaiting :=
  let again : Awaiting :=
    if deadline ≤ probe.now then .raised (schemaNotReadyError settings) else .waiting (attempt + 1)
  if probe.shutdown then .returned
  else match probe.found with
  | .ok true => .returned
  | .ok false => again
  | .error exc => if waitedOut exc then again else .raised exc

def schemaDeadline (settings : WorkerSettings) (startedAt : Time) : Except Exc Time :=
  datetimePlus startedAt settings.schemaWaitTimeoutSeconds.value

def awaitFrom (settings : WorkerSettings) (deadline : Time) (attempt : Nat) : List Probe → Awaiting
  | [] => .waiting attempt
  | probe :: probes =>
    match awaitRound settings deadline attempt probe with
    | .waiting attempt => awaitFrom settings deadline attempt probes
    | ended => ended

/-- `main.py::await_schema`, after the given rounds. -/
def awaitSchema (settings : WorkerSettings) (startedAt : Time) (probes : List Probe) : Awaiting :=
  match schemaDeadline settings startedAt with
  | .ok deadline => awaitFrom settings deadline 0 probes
  | .error exc => .raised exc

theorem awaitSchema_dated {settings : WorkerSettings} {startedAt deadline : Time} (probes : List Probe)
    (dated : schemaDeadline settings startedAt = .ok deadline) :
    awaitSchema settings startedAt probes = awaitFrom settings deadline 0 probes := by
  unfold awaitSchema
  rw [dated]

/-! ## Polling -/

/-- `main.py::poll_once`: the ids of the due events, and a pass over each. -/
def pollOnce (due : Except Exc (List Nat)) (process : Nat → Except Exc ProcessResult) : Except Exc Nat := do
  let eventIds ← due
  eventIds.forM fun eventId => discard (process eventId)
  return eventIds.length

/-- A round of the poll loop. -/
structure Poll where
  shutdown : Bool
  due : Except Exc (List Nat)
  process : Nat → Except Exc ProcessResult
  draw : {u : ℚ // 0 ≤ u ∧ u ≤ 1}

inductive Polling where
  /-- The failures in a row, and the seconds to wait before the next round. -/
  | polling (consecutiveFailures : Nat) (wait : ℚ)
  | stopped
  | raised (exc : Exc)

def pollRound (settings : WorkerSettings) (consecutiveFailures : Nat) (poll : Poll) : Polling :=
  if poll.shutdown then .stopped
  else match pollOnce poll.due poll.process with
  | .ok processed => .polling 0 (if processed = 0 then settings.pollIntervalSeconds else 0)
  | .error exc =>
    if waitedOut exc then
      let ceiling :=
        backoffCeiling (consecutiveFailures + 1) settings.backoffBaseSeconds settings.backoffCapSeconds
      .polling (consecutiveFailures + 1) (0 + (ceiling - 0) * poll.draw)
    else .raised exc

def pollFrom (settings : WorkerSettings) (consecutiveFailures : Nat) (wait : ℚ) : List Poll → Polling
  | [] => .polling consecutiveFailures wait
  | poll :: polls =>
    match pollRound settings consecutiveFailures poll with
    | .polling consecutiveFailures wait => pollFrom settings consecutiveFailures wait polls
    | ended => ended

/-- The poll loop of `main.py::run`, after the given rounds. -/
def pollLoop (settings : WorkerSettings) (polls : List Poll) : Polling := pollFrom settings 0 0 polls

end WebhookReceiver
