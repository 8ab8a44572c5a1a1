import WebhookReceiver.Domain.Event
import WebhookReceiver.Domain.Failure
import WebhookReceiver.Rounding

/-!
The configuration, and the retry schedule it gives (`config.py`,
`domain/backoff.py`). Durations are rational numbers of seconds: no result about the
schedule depends on where a float rounds. Where one does, the operation is rounded to a
double (`toDouble`). A duration that ends up in a message carries the text Python prints
for it.
-/

namespace WebhookReceiver

open Rounding

/-! ## Floats -/

/-- The nearest double. No result of an operation here is out of range. -/
def toDouble (q : ℚ) : ℚ := toPrecision 53 q

/-- `timedelta.total_seconds()`, and `datetime.timestamp()` counted from the epoch. -/
def totalSeconds (delta : Int) : ℚ := toDouble (delta / 1000000)

/-- `int(value)`. -/
def truncate (q : ℚ) : Int := q.num.tdiv q.den

theorem toDouble_le_int {q : ℚ} {n : Int} (digits : |n| < 2 ^ 53) (le : q ≤ n) : toDouble q ≤ n :=
  toPrecision_le (by norm_num) (representable_intCast digits) le

theorem int_le_toDouble {q : ℚ} {n : Int} (digits : |n| < 2 ^ 53) (le : n ≤ q) : n ≤ toDouble q :=
  le_toPrecision (by norm_num) (representable_intCast digits) le

theorem toDouble_intCast {n : Int} (digits : |n| < 2 ^ 53) : toDouble n = n :=
  toPrecision_of_representable (representable_intCast digits)

theorem toDouble_neg (q : ℚ) : toDouble (-q) = -toDouble q := toPrecision_neg

/-- Below `2 ^ k` a double is off by half a unit of its last place at most. -/
theorem toDouble_near {q : ℚ} {k : Nat} (below : |q| < 2 ^ k) : |toDouble q - q| ≤ 2 ^ k / 2 ^ 54 := by
  by_cases zero : q = 0
  · subst zero
    have exact : toDouble ((0 : Int) : ℚ) = ((0 : Int) : ℚ) := toDouble_intCast (by norm_num)
    rw [Int.cast_zero] at exact
    rw [exact, sub_zero, abs_zero]
    positivity
  · have unit : lastPlace 53 q ≤ 2 ^ k / 2 ^ 53 := by
      have place := lastPlace_le (p := 53) (k := k) (by rw [zpow_natCast]; exact below) zero
      rwa [zpow_sub₀ (by norm_num), zpow_natCast, zpow_natCast] at place
    refine toPrecision_near.trans ?_
    have half : (2 : ℚ) ^ k / 2 ^ 54 = 2 ^ k / 2 ^ 53 / 2 := by ring
    linarith

/-! ## Settings -/

/-- A positive duration setting, with `str` of the float it was given as. -/
structure Seconds where
  value : ℚ
  text : String
  positive : 0 < value

/-- `config.py::Settings`, the fields that the modelled code reads, with the bounds
its validators enforce. -/
structure Settings where
  webhookSecrets : List (String × String) := []
  signatureTimestampToleranceSeconds : Int := 300
  maxPayloadBytes : Nat := 1048576
  advisoryLockTimeoutSeconds : Seconds := ⟨5, "5.0", by decide +kernel⟩
  maxAttempts : Nat := 5
  backoffBaseSeconds : ℚ := 1
  backoffCapSeconds : ℚ := 300
  tolerance_positive : 0 < signatureTimestampToleranceSeconds := by decide
  payload_positive : 0 < maxPayloadBytes := by decide
  attempts_positive : 1 ≤ maxAttempts := by decide
  base_positive : 0 < backoffBaseSeconds := by decide +kernel
  cap_bounds_base : backoffBaseSeconds ≤ backoffCapSeconds := by decide +kernel

/-- `Settings.secret_for_source`. -/
def Settings.secretForSource (settings : Settings) (source : String) : Option String :=
  (settings.webhookSecrets.find? fun entry => entry.1 = source).map (·.2)

/-- `int(timeout_seconds * 1000)`. -/
def Seconds.milliseconds (seconds : Seconds) : Int := ⌊seconds.value * 1000⌋

/-! ## Backoff -/

def maxExponent : Nat := 32

/-- `min(cap_seconds, base_seconds * (2**exponent))`. -/
def backoffCeiling (attempt : Nat) (baseSeconds capSeconds : ℚ) : ℚ :=
  min capSeconds (baseSeconds * 2 ^ min attempt maxExponent)

/-- `timedelta(seconds=delay)`, in microseconds. -/
def timedelta (delay : ℚ) : Int := roundHalfEven (delay * 1000000)

theorem timedelta_mono {delay delay' : ℚ} (le : delay ≤ delay') : timedelta delay ≤ timedelta delay' :=
  roundHalfEven_mono (by linarith)

theorem timedelta_nonneg {delay : ℚ} (nonneg : 0 ≤ delay) : 0 ≤ timedelta delay := by
  have zero : timedelta 0 = 0 := by decide +kernel
  exact zero ▸ timedelta_mono nonneg

/-- `timedelta(seconds=delay)`, which holds 999999999 days at most. -/
def pyTimedelta (delay : ℚ) : Except Exc Int :=
  let days := timedelta delay / 86400000000
  if -999999999 ≤ days ∧ days ≤ 999999999 then .ok (timedelta delay)
  else if -2 ^ 31 ≤ days ∧ days < 2 ^ 31 then
    .error (overflowError ("days=" ++ toString days ++ "; must have magnitude <= 999999999"))
  else .error (overflowError "Python int too large to convert to C int")

/-- `datetime + timedelta(seconds=delay)`. -/
def datetimePlus (datetime : Time) (delay : ℚ) : Except Exc Time := do
  let delta ← pyTimedelta delay
  if datetimeMin ≤ datetime + delta ∧ datetime + delta ≤ datetimeMax then return datetime + delta
  else throw (overflowError "date value out of range")

theorem pyTimedelta_cases (delay : ℚ) : pyTimedelta delay = .ok (timedelta delay) ∨
    ∃ message, pyTimedelta delay = .error (overflowError message) := by
  unfold pyTimedelta
  dsimp only
  split
  · exact Or.inl rfl
  · split
    · exact Or.inr ⟨_, rfl⟩
    · exact Or.inr ⟨_, rfl⟩

theorem pyTimedelta_ok {delay : ℚ} (low : -999999999 * 86400000000 ≤ timedelta delay)
    (high : timedelta delay < 1000000000 * 86400000000) : pyTimedelta delay = .ok (timedelta delay) :=
  if_pos ⟨by omega, by omega⟩

theorem datetimePlus_cases (datetime : Time) (delay : ℚ) :
    datetimePlus datetime delay = .ok (datetime + timedelta delay) ∧
      datetimeMin ≤ datetime + timedelta delay ∧ datetime + timedelta delay ≤ datetimeMax ∨
    ∃ message, datetimePlus datetime delay = .error (overflowError message) := by
  unfold datetimePlus
  rcases pyTimedelta_cases delay with added | ⟨message, raised⟩
  · rw [added]
    by_cases inside : datetimeMin ≤ datetime + timedelta delay ∧ datetime + timedelta delay ≤ datetimeMax
    · exact Or.inl ⟨if_pos inside, inside⟩
    · exact Or.inr ⟨_, if_neg inside⟩
  · rw [raised]
    exact Or.inr ⟨message, rfl⟩

theorem datetimePlus_ok {datetime due : Time} {delay : ℚ} (added : datetimePlus datetime delay = .ok due) :
    due = datetime + timedelta delay := by
  rcases datetimePlus_cases datetime delay with ⟨same, -⟩ | ⟨message, raised⟩
  · exact Except.ok.inj (added.symm.trans same)
  · rw [raised] at added
    cases added

theorem datetimePlus_error {datetime : Time} {delay : ℚ} {exc : Exc}
    (raised : datetimePlus datetime delay = .error exc) : exc.cls = "OverflowError" := by
  rcases datetimePlus_cases datetime delay with ⟨added, -⟩ | ⟨message, same⟩
  · rw [added] at raised
    cases raised
  · rw [same] at raised
    cases raised
    rfl

theorem backoffCeiling_nonneg (settings : Settings) (attempt : Nat) :
    0 ≤ backoffCeiling attempt settings.backoffBaseSeconds settings.backoffCapSeconds := by
  have base := settings.base_positive
  have cap := settings.cap_bounds_base
  refine le_min (by linarith) ?_
  exact mul_nonneg base.le (pow_nonneg (by norm_num) _)

theorem backoffCeiling_le_cap (settings : Settings) (attempt : Nat) :
    backoffCeiling attempt settings.backoffBaseSeconds settings.backoffCapSeconds ≤
      settings.backoffCapSeconds :=
  min_le_left _ _

end WebhookReceiver
