import WebhookReceiver.Runs
import WebhookReceiver.Worker

/-!
How `await_schema` ends.

A round either goes on waiting or ends the wait, and `awaitSchema_ended` finds the round
that did. The four exits are then read off that one round (`schema_wait_ends`). How many
rounds there can be follows from the deadline: every round that goes on has read a clock
before it.
-/

namespace WebhookReceiver

open Rounding

/-! ## The round that ends the wait -/

/-- The wait was still on when this round began. -/
def WaitsUntil (settings : WorkerSettings) (startedAt : Time) (probes : List Probe) (last : Probe) : Prop :=
  ∃ before after attempt, probes = before ++ last :: after ∧
    awaitSchema settings startedAt before = .waiting attempt

section Rounds

variable {settings : WorkerSettings} {deadline startedAt : Time} {attempt : Nat} {probes : List Probe}
  {probe : Probe}

theorem awaitFrom_append {before after : List Probe} {attempt' : Nat}
    (waiting : awaitFrom settings deadline attempt before = .waiting attempt') :
    awaitFrom settings deadline attempt (before ++ after) = awaitFrom settings deadline attempt' after := by
  induction before generalizing attempt with
  | nil =>
    cases waiting
    rfl
  | cons probe rest ih =>
    rw [List.cons_append, awaitFrom]
    rw [awaitFrom] at waiting
    cases round : awaitRound settings deadline attempt probe with
    | waiting attempt =>
      rw [round] at waiting
      exact ih waiting
    | returned =>
      rw [round] at waiting
      cases waiting
    | raised exc =>
      rw [round] at waiting
      cases waiting

theorem awaitFrom_ended {ended : Awaiting} (finished : ∀ attempt, ended ≠ .waiting attempt)
    (ends : awaitFrom settings deadline attempt probes = ended) :
    ∃ before probe after attempt', probes = before ++ probe :: after ∧
      awaitFrom settings deadline attempt before = .waiting attempt' ∧
      awaitRound settings deadline attempt' probe = ended := by
  induction probes generalizing attempt with
  | nil => exact absurd ends.symm (finished attempt)
  | cons probe rest ih =>
    rw [awaitFrom] at ends
    cases round : awaitRound settings deadline attempt probe with
    | waiting next =>
      rw [round] at ends
      obtain ⟨before, last, after, attempt', rfl, waited, ended⟩ := ih ends
      refine ⟨probe :: before, last, after, attempt', rfl, ?_, ended⟩
      rw [awaitFrom, round]
      exact waited
    | returned =>
      rw [round] at ends
      exact ⟨[], probe, rest, attempt, rfl, rfl, round.trans ends⟩
    | raised exc =>
      rw [round] at ends
      exact ⟨[], probe, rest, attempt, rfl, rfl, round.trans ends⟩

/-- A round returns because of a shutdown or the table. -/
theorem awaitRound_returned (returned : awaitRound settings deadline attempt probe = .returned) :
    probe.shutdown = true ∨ probe.found = .ok true := by
  unfold awaitRound at returned
  dsimp only at returned
  split at returned
  · exact Or.inl ‹_›
  · split at returned
    · exact Or.inr ‹_›
    · split at returned <;> cases returned
    · split at returned
      · split at returned <;> cases returned
      · cases returned

/-- A round raises what the probe raised, or finds the deadline past. -/
theorem awaitRound_raised {exc : Exc} (raised : awaitRound settings deadline attempt probe = .raised exc) :
    probe.shutdown = false ∧ (probe.found = .error exc ∧ waitedOut exc = false ∨
      exc = schemaNotReadyError settings ∧ deadline ≤ probe.now) := by
  unfold awaitRound at raised
  dsimp only at raised
  split at raised
  · cases raised
  · rename_i running
    refine ⟨Bool.eq_false_of_not_eq_true running, ?_⟩
    split at raised
    · cases raised
    · split at raised
      · rename_i late
        cases raised
        exact Or.inr ⟨rfl, late⟩
      · cases raised
    · split at raised
      · split at raised
        · rename_i late
          cases raised
          exact Or.inr ⟨rfl, late⟩
        · cases raised
      · rename_i found recognised
        cases raised
        exact Or.inl ⟨found, Bool.eq_false_of_not_eq_true recognised⟩

/-- A round that goes on has probed, and read the clock before the deadline. -/
theorem awaitRound_waiting {next : Nat} (waiting : awaitRound settings deadline attempt probe = .waiting next) :
    probe.shutdown = false ∧ probe.now < deadline := by
  unfold awaitRound at waiting
  dsimp only at waiting
  split at waiting
  · cases waiting
  · rename_i running
    refine ⟨Bool.eq_false_of_not_eq_true running, ?_⟩
    split at waiting
    · cases waiting
    · split at waiting
      · cases waiting
      · exact not_le.mp ‹_›
    · split at waiting
      · split at waiting
        · cases waiting
        · exact not_le.mp ‹_›
      · cases waiting

theorem awaitSchema_ended {ended : Awaiting} (finished : ∀ attempt, ended ≠ .waiting attempt)
    (ends : awaitSchema settings startedAt probes = ended) :
    (∃ exc, schemaDeadline settings startedAt = .error exc ∧ ended = .raised exc) ∨
    ∃ deadline last attempt, schemaDeadline settings startedAt = .ok deadline ∧
      WaitsUntil settings startedAt probes last ∧ awaitRound settings deadline attempt last = ended := by
  unfold awaitSchema at ends
  split at ends
  · rename_i deadline dated
    obtain ⟨before, last, after, attempt, same, waited, round⟩ := awaitFrom_ended finished ends
    refine Or.inr ⟨deadline, last, attempt, dated, ⟨before, after, attempt, same, ?_⟩, round⟩
    rw [awaitSchema_dated _ dated]
    exact waited
  · rename_i exc raised
    exact Or.inl ⟨exc, raised, ends.symm⟩

end Rounds

/-! ## The number of probes -/

def probesFrom (settings : WorkerSettings) (deadline : Time) (attempt : Nat) : List Probe → Nat
  | [] => 0
  | probe :: probes =>
    (if probe.shutdown then 0 else 1) +
      match awaitRound settings deadline attempt probe with
      | .waiting attempt => probesFrom settings deadline attempt probes
      | _ => 0

/-- How often `await_schema` probes. -/
def probesMade (settings : WorkerSettings) (startedAt : Time) (probes : List Probe) : Nat :=
  match schemaDeadline settings startedAt with
  | .ok deadline => probesFrom settings deadline 0 probes
  | .error _ => 0

/-- The microseconds that a round waits. -/
def WorkerSettings.pollInterval (settings : WorkerSettings) : ℚ := settings.pollIntervalSeconds * 1000000

/-- The clock never goes back before the first reading, and from then on advances by the
poll interval at least. -/
def Advances (settings : WorkerSettings) (earliest : ℚ) : List Probe → Prop
  | [] => True
  | probe :: probes =>
    earliest ≤ (probe.now : ℚ) ∧ Advances settings (probe.now + settings.pollInterval) probes

section Count

variable {settings : WorkerSettings} {probes : List Probe} {earliest : ℚ}

/-- All rounds but the last two leave the deadline a whole interval further away. -/
theorem probesFrom_within (deadline : Time) (attempt : Nat) (advances : Advances settings earliest probes) :
    probesFrom settings deadline attempt probes ≤ 1 ∨
      earliest + ((probesFrom settings deadline attempt probes : ℚ) - 2) * settings.pollInterval ≤
        (deadline : ℚ) - 1 := by
  induction probes generalizing attempt earliest with
  | nil => exact Or.inl (Nat.zero_le _)
  | cons probe rest ih =>
    obtain ⟨later, others⟩ := advances
    rw [probesFrom]
    cases round : awaitRound settings deadline attempt probe with
    | returned => exact Or.inl (by dsimp only; split <;> omega)
    | raised exc => exact Or.inl (by dsimp only; split <;> omega)
    | waiting next =>
      obtain ⟨running, early⟩ := awaitRound_waiting round
      have before : (probe.now : ℚ) ≤ (deadline : ℚ) - 1 := by
        have whole : probe.now + 1 ≤ deadline := early
        have cast : ((probe.now + 1 : Int) : ℚ) ≤ deadline := by exact_mod_cast whole
        push_cast at cast
        linarith
      simp only [running, Bool.false_eq_true, if_false]
      rcases ih next others with few | many
      · rcases Nat.le_one_iff_eq_zero_or_eq_one.mp few with none | one
        · exact Or.inl (by omega)
        · right
          rw [one]
          norm_num
          linarith
      · right
        push_cast
        linarith

/-- Between the start and the deadline there is room for so many intervals. -/
theorem probesMade_le (settings : WorkerSettings) (startedAt : Time) {probes : List Probe}
    (advances : Advances settings startedAt probes) :
    (probesMade settings startedAt probes : ℤ) ≤
      ⌈settings.schemaWaitTimeoutSeconds.value / settings.pollIntervalSeconds⌉ + 1 := by
  have interval : 0 < settings.pollIntervalSeconds := settings.interval_positive
  have positive := settings.schemaWaitTimeoutSeconds.positive
  have some : 0 < ⌈settings.schemaWaitTimeoutSeconds.value / settings.pollIntervalSeconds⌉ :=
    Int.ceil_pos.mpr (div_pos positive interval)
  have counted : probesMade settings startedAt probes ≤ 1 ∨ (startedAt : ℚ) +
      ((probesMade settings startedAt probes : ℚ) - 2) * settings.pollInterval ≤
        ((startedAt + timedelta settings.schemaWaitTimeoutSeconds.value : Int) : ℚ) - 1 := by
    unfold probesMade
    split
    · rename_i deadline dated
      rw [← datetimePlus_ok dated]
      exact probesFrom_within deadline 0 advances
    · exact Or.inl (Nat.zero_le 1)
  rcases counted with few | many
  · omega
  · have near := abs_le.mp (roundHalfEven_near (settings.schemaWaitTimeoutSeconds.value * 1000000))
    have room : ((probesMade settings startedAt probes : ℚ) - 2) * settings.pollIntervalSeconds <
        settings.schemaWaitTimeoutSeconds.value := by
      simp only [timedelta, WorkerSettings.pollInterval] at many
      push_cast at many
      linarith [near.2]
    have fewer : (probesMade settings startedAt probes : ℚ) - 2 <
        settings.schemaWaitTimeoutSeconds.value / settings.pollIntervalSeconds :=
          (lt_div_iff₀ interval).mpr room
    have below : ((probesMade settings startedAt probes : ℤ) - 2 : ℤ) <
        ⌈settings.schemaWaitTimeoutSeconds.value / settings.pollIntervalSeconds⌉ := by
      rw [Int.lt_ceil]
      push_cast
      exact fewer
    omega

end Count

/-- In every run of `await_schema`: it returns only after a round that found the table or
saw a shutdown; it raises only what the probe of its last round raised, or that the schema
is not ready, once the clock has reached the deadline, or before the first round that there
is no such deadline; what is not retryable it raises at once; and if the clock advances, the
deadline bounds the number of probes. -/
theorem schema_wait_ends (settings : WorkerSettings) (startedAt : Time) (probes : List Probe) :
    (awaitSchema settings startedAt probes = .returned → ∃ last, WaitsUntil settings startedAt probes last ∧
      (last.shutdown = true ∨ last.found = .ok true)) ∧
    (∀ exc, awaitSchema settings startedAt probes = .raised exc →
      exc.cls = "OverflowError" ∧ schemaDeadline settings startedAt = .error exc ∨
      ∃ last, WaitsUntil settings startedAt probes last ∧ last.shutdown = false ∧
        (last.found = .error exc ∧ waitedOut exc = false ∨
          exc = schemaNotReadyError settings ∧
            ∃ deadline, schemaDeadline settings startedAt = .ok deadline ∧ deadline ≤ last.now)) ∧
    (∀ last exc, WaitsUntil settings startedAt probes last → last.shutdown = false →
      last.found = .error exc → isRetryable exc = false → awaitSchema settings startedAt probes = .raised exc) ∧
    (Advances settings startedAt probes → (probesMade settings startedAt probes : ℤ) ≤
      ⌈settings.schemaWaitTimeoutSeconds.value / settings.pollIntervalSeconds⌉ + 1) ∧
    ∀ deadline, schemaDeadline settings startedAt = .ok deadline →
      |(deadline : ℚ) - (startedAt + settings.schemaWaitTimeoutSeconds.value * 1000000)| ≤ 1 / 2 := by
  refine ⟨fun returned => ?_, fun exc raised => ?_, ?_, probesMade_le settings startedAt,
    fun deadline dated => ?_⟩
  · rcases awaitSchema_ended (fun _ => by simp) returned with
      ⟨exc, -, other⟩ | ⟨deadline, last, attempt, -, waits, round⟩
    · cases other
    · exact ⟨last, waits, awaitRound_returned round⟩
  · rcases awaitSchema_ended (fun _ => by simp) raised with
      ⟨other, undated, same⟩ | ⟨deadline, last, attempt, dated, waits, round⟩
    · cases same
      exact Or.inl ⟨datetimePlus_error undated, undated⟩
    · obtain ⟨running, why⟩ := awaitRound_raised round
      exact Or.inr ⟨last, waits, running, why.imp_right fun late => ⟨late.1, deadline, dated, late.2⟩⟩
  · rintro last exc ⟨before, after, attempt, rfl, waited⟩ running failed fatal
    unfold awaitSchema at waited
    split at waited
    · rename_i deadline dated
      rw [awaitSchema_dated _ dated, awaitFrom_append waited, awaitFrom]
      have round : awaitRound settings deadline attempt last = .raised exc := by
        simp [awaitRound, running, failed, waitedOut, fatal]
      rw [round]
    · cases waited
  · have near := roundHalfEven_near (settings.schemaWaitTimeoutSeconds.value * 1000000)
    have same : (deadline : ℚ) - (startedAt + settings.schemaWaitTimeoutSeconds.value * 1000000) =
        roundHalfEven (settings.schemaWaitTimeoutSeconds.value * 1000000) -
          settings.schemaWaitTimeoutSeconds.value * 1000000 := by
      rw [datetimePlus_ok dated, timedelta]
      push_cast
      ring
    rw [same]
    exact near

private theorem default_interval : (0 : ℚ) < 1 := by decide +kernel

/-- A worker with the shipped configuration. -/
def Sample.worker : WorkerSettings :=
  { toSettings := Sample.service.settings, interval_positive := default_interval }

/-- The migration lands while the worker waits, after one probe that found no table and one
that found no server. -/
private def landing : List Probe :=
  [⟨false, .ok false, 0⟩, ⟨false, .error ⟨"OperationalError", "", .dbapi true none⟩, 1000000⟩,
    ⟨false, .ok true, 2000000⟩]

private def permissionDenied : Exc := ⟨"ProgrammingError", "", .dbapi false (some "42501")⟩

/-- The second probe is refused for good. -/
private def denied : List Probe := [⟨false, .ok false, 0⟩, ⟨false, .error permissionDenied, 1000000⟩]

/-- The first wait ends with the table, the second with the probe that is refused. -/
theorem schema_wait_ends_sample :
    (∃ last, WaitsUntil Sample.worker 0 landing last ∧ (last.shutdown = true ∨ last.found = .ok true)) ∧
    (probesMade Sample.worker 0 landing : ℤ) ≤ 181 ∧
    awaitSchema Sample.worker 0 denied = .raised permissionDenied ∧
    ∃ last, WaitsUntil Sample.worker 0 denied last ∧ last.found = .error permissionDenied := by
  have waited : WaitsUntil Sample.worker 0 denied ⟨false, .error permissionDenied, 1000000⟩ :=
    ⟨[⟨false, .ok false, 0⟩], [], 1, rfl, by decide +kernel⟩
  have advances : Advances Sample.worker (0 : Time) landing := by
    simp only [Advances, landing, WorkerSettings.pollInterval, Sample.worker]
    norm_num
  have most := (schema_wait_ends Sample.worker 0 landing).2.2.2.1 advances
  refine ⟨(schema_wait_ends Sample.worker 0 landing).1 (by decide +kernel), ?_, ?_, ?_⟩
  · norm_num [Sample.worker] at most
    exact_mod_cast most
  · exact (schema_wait_ends Sample.worker 0 denied).2.2.1 _ _ waited rfl rfl (by decide +kernel)
  · obtain ⟨last, waits, -, ended⟩ := ((schema_wait_ends Sample.worker 0 denied).2.1 permissionDenied
      (by decide +kernel)).resolve_left (fun overflow => absurd overflow.1 (by decide +kernel))
    refine ⟨last, waits, ?_⟩
    rcases ended with ⟨found, -⟩ | ⟨other, -⟩
    · exact found
    · exact absurd other (by decide +kernel)

end WebhookReceiver
