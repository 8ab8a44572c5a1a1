import WebhookReceiver.Services

/-!
The time bounds that a configuration gives.

`Settings` here holds the floats the validators let through, infinity and nan
among them, and a datetime has a first and a last value. What is not exact is where
the product of a timeout rounds; at the two ends that matter it does not.
-/

namespace WebhookReceiver

open Rounding

/-! ## Python's floats and datetimes -/

/-- A float that is not negative infinity. -/
inductive PyFloat where
  | finite (value : ℚ)
  | infinity
  | nan
  deriving DecidableEq

namespace PyFloat

/-- Where rounding to a double overflows. -/
def overflow : ℚ := 2 ^ 1024 - 2 ^ 970

theorem overflow_large : (2 : ℚ) ^ 80 ≤ overflow := by
  have split : (2 : ℚ) ^ 1024 = 2 ^ 54 * 2 ^ 970 := by rw [← pow_add]
  have more : (2 : ℚ) ^ 80 ≤ 2 ^ 970 := pow_le_pow_right₀ (by norm_num) (by norm_num)
  rw [overflow, split]
  generalize (2 : ℚ) ^ 970 = unit at more ⊢
  linarith

def ofRat (value : ℚ) : PyFloat := if value < overflow then .finite value else .infinity

/-- `value * factor`, for a positive number as the factor. -/
def times (factor : ℚ) : PyFloat → PyFloat
  | finite value => ofRat (value * factor)
  | infinity => infinity
  | nan => nan

/-- `<`, which is false of nan. -/
def less : PyFloat → PyFloat → Bool
  | finite a, finite b => a < b
  | finite _, infinity => true
  | _, _ => false

/-- `min(a, b)`. -/
def least (a b : PyFloat) : PyFloat := if b.less a then b else a

/-- `value <= 0`, which the validators refuse; of nan the results hold as well. -/
def refused : PyFloat → Bool
  | finite value => value ≤ 0
  | _ => false

/-- `int(value)`. -/
def toInt : PyFloat → Except Exc Int
  | finite value => .ok (if 0 ≤ value then ⌊value⌋ else ⌈value⌉)
  | infinity => .error (overflowError "cannot convert float infinity to integer")
  | nan => .error (valueError "cannot convert float NaN to integer")

/-- `rng.uniform(0.0, ceiling)`. -/
def uniform (ceiling : PyFloat) (draw : {u : ℚ // 0 ≤ u ∧ u ≤ 1}) : PyFloat :=
  match ceiling with
  | finite value => ofRat (0 + (value - 0) * draw)
  | infinity => if draw.1 = 0 then nan else infinity
  | nan => nan

/-- `timedelta(seconds=value)`, in microseconds. -/
def toTimedelta : PyFloat → Except Exc Int
  | finite value => pyTimedelta value
  | infinity => .error (overflowError "cannot convert float infinity to integer")
  | nan => .error (valueError "cannot convert float NaN to integer")

end PyFloat

structure Datetime where
  micros : Time
  after_min : datetimeMin ≤ micros
  before_max : micros ≤ datetimeMax
  deriving DecidableEq

/-- `datetime + timedelta`. -/
def Datetime.add (datetime : Datetime) (delta : Int) : Except Exc Datetime :=
  if inside : datetimeMin ≤ datetime.micros + delta ∧ datetime.micros + delta ≤ datetimeMax then
    .ok ⟨datetime.micros + delta, inside.1, inside.2⟩
  else .error (overflowError "date value out of range")

/-! ## What is done with the settings -/

/-- `config.py::Settings`, its bounds on time as the validators leave them. -/
structure TimeSettings where
  advisoryLockTimeoutSeconds : PyFloat := .finite 5
  backoffBaseSeconds : PyFloat := .finite 1
  backoffCapSeconds : PyFloat := .finite 300
  timeout_positive : advisoryLockTimeoutSeconds.refused = false := by decide +kernel
  base_positive : backoffBaseSeconds.refused = false := by decide +kernel
  cap_positive : backoffCapSeconds.refused = false := by decide +kernel
  cap_bounds_base : backoffCapSeconds.less backoffBaseSeconds = false := by decide +kernel

namespace TimeSettings

variable (settings : TimeSettings)

/-- `int(timeout_seconds * 1000)`, which `lock_entity` makes the `lock_timeout`. -/
def lockTimeoutMs : Except Exc Int := (settings.advisoryLockTimeoutSeconds.times 1000).toInt

/-- `min(cap_seconds, base_seconds * (2**exponent))`. -/
def ceiling (exponent : Nat) : PyFloat :=
  settings.backoffCapSeconds.least (settings.backoffBaseSeconds.times (2 ^ exponent))

/-- `backoff.py::next_delay_seconds`. -/
def nextDelaySeconds (attempt : Nat) (draw : {u : ℚ // 0 ≤ u ∧ u ≤ 1}) : Except Exc PyFloat :=
  if attempt < 1 then .error (valueError ("attempt is 1-based; got " ++ toString attempt))
  else .ok ((settings.ceiling (min attempt maxExponent)).uniform draw)

/-- `finished_at + timedelta(seconds=delay)` in `process.py::_record_failure`. -/
def nextAttemptAt (attempt : Nat) (draw : {u : ℚ // 0 ≤ u ∧ u ≤ 1}) (finishedAt : Datetime) :
    Except Exc Datetime := do
  let delay ← settings.nextDelaySeconds attempt draw
  let wait ← delay.toTimedelta
  finishedAt.add wait

/-- The lock timeout is one that Postgres takes and waits out, and every delay is
finite and ends on the calendar. -/
def Usable (finishedAt : Datetime) : Prop :=
  (∃ ms, settings.lockTimeoutMs = .ok ms ∧ 1 ≤ ms ∧ ms ≤ 2 ^ 31 - 1) ∧
  ∀ attempt draw, 1 ≤ attempt → ∃ delay due,
    settings.nextDelaySeconds attempt draw = .ok (.finite delay) ∧
    settings.nextAttemptAt attempt draw finishedAt = .ok due

end TimeSettings

/-! ## The bounds that the validators leave out -/

namespace PyFloat

theorem ofRat_finite {value c : ℚ} (finite : ofRat value = .finite c) : value = c ∧ value < overflow := by
  unfold ofRat at finite
  split at finite
  · rename_i below
    exact ⟨PyFloat.finite.inj finite, below⟩
  · cases finite

theorem ofRat_of_lt {value : ℚ} (below : value < overflow) : ofRat value = .finite value :=
  if_pos below

theorem uniform_finite {ceiling : PyFloat} {draw : {u : ℚ // 0 ≤ u ∧ u ≤ 1}} {delay : ℚ}
    (drawn : ceiling.uniform draw = .finite delay) :
    ∃ c, ceiling = .finite c ∧ c * draw = delay := by
  cases ceiling with
  | finite c =>
    obtain ⟨same, -⟩ := ofRat_finite drawn
    exact ⟨c, rfl, by linarith⟩
  | infinity =>
    unfold uniform at drawn
    dsimp only at drawn
    split at drawn <;> cases drawn
  | nan => cases drawn

/-- Of a positive value: cut off, it lies between two whole numbers exactly if it does itself. -/
theorem toInt_between {value : ℚ} (positive : 0 < value) {low high : Int} :
    (∃ n, toInt (.finite value) = .ok n ∧ low ≤ n ∧ n ≤ high) ↔ (low : ℚ) ≤ value ∧ value < high + 1 := by
  have cut : toInt (.finite value) = .ok ⌊value⌋ := by
    rw [toInt, if_pos positive.le]
  constructor
  · rintro ⟨n, same, above, below⟩
    obtain rfl : ⌊value⌋ = n := Except.ok.inj (cut.symm.trans same)
    refine ⟨Int.le_floor.mp above, ?_⟩
    have next : value < ⌊value⌋ + 1 := Int.lt_floor_add_one value
    have cast : ((⌊value⌋ : Int) : ℚ) ≤ high := by exact_mod_cast below
    linarith
  · rintro ⟨above, below⟩
    refine ⟨⌊value⌋, cut, Int.le_floor.mpr above, ?_⟩
    have less : ⌊value⌋ < high + 1 := Int.floor_lt.mpr (by exact_mod_cast below)
    omega

theorem least_cases (a b : PyFloat) : b.less a = true ∧ a.least b = b ∨ b.less a = false ∧ a.least b = a := by
  unfold least
  cases b.less a
  · exact Or.inr ⟨rfl, rfl⟩
  · exact Or.inl ⟨rfl, rfl⟩

theorem less_finite {a : PyFloat} {value : ℚ} (below : a.less (.finite value) = true) :
    ∃ smaller, a = .finite smaller ∧ smaller < value := by
  cases a with
  | finite smaller => exact ⟨smaller, rfl, by simpa [less] using below⟩
  | infinity => cases below
  | nan => cases below

theorem refused_finite {value : ℚ} (passed : refused (.finite value) = false) : 0 < value := by
  simpa [refused] using passed

theorem times_finite {base : PyFloat} {factor c : ℚ} (passed : base.refused = false) (positive : 0 < factor)
    (product : base.times factor = .finite c) :
    ∃ value, base = .finite value ∧ 0 < value ∧ value * factor = c ∧ c < overflow ∧ 0 < c := by
  cases base with
  | finite value =>
    have some := refused_finite passed
    obtain ⟨same, below⟩ := ofRat_finite product
    exact ⟨value, rfl, some, same, same ▸ below, same ▸ mul_pos some positive⟩
  | infinity => cases product
  | nan => cases product

/-- With a smaller factor the least of a cap and a product is finite still, and no greater. -/
theorem least_times_finite {cap base : PyFloat} {factor factor' c : ℚ} (passed : base.refused = false)
    (capped : cap.refused = false) (positive : 0 < factor) (grows : factor ≤ factor')
    (longest : cap.least (base.times factor') = .finite c) :
    ∃ c', cap.least (base.times factor) = .finite c' ∧ 0 < c' ∧ c' ≤ c := by
  rcases least_cases cap (base.times factor') with ⟨cut, product⟩ | ⟨-, whole⟩
  · -- the larger product is below the cap, and the smaller one below it
    rw [product] at longest
    obtain ⟨value, rfl, some, same, below, -⟩ := times_finite passed (positive.trans_le grows) longest
    have less_c : value * factor ≤ c := same ▸ mul_le_mul_of_nonneg_left grows some.le
    have smaller : times factor (.finite value) = .finite (value * factor) :=
      ofRat_of_lt (less_c.trans_lt below)
    have fits : (PyFloat.finite (value * factor)).less cap = true := by
      rw [longest] at cut
      cases cap with
      | finite most =>
        have under : c < most := by simpa [less] using cut
        simpa [less] using less_c.trans_lt under
      | infinity => rfl
      | nan => cases cut
    refine ⟨value * factor, ?_, mul_pos some positive, less_c⟩
    rw [smaller, least, if_pos fits]
  · rw [whole] at longest
    subst longest
    rcases least_cases (.finite c) (base.times factor) with ⟨cut, product⟩ | ⟨-, whole⟩
    · obtain ⟨smaller, same, under⟩ := less_finite cut
      obtain ⟨_, -, -, -, -, positive⟩ := times_finite passed positive same
      exact ⟨smaller, product.trans same, positive, under.le⟩
    · exact ⟨c, whole, refused_finite capped, le_rfl⟩

end PyFloat

namespace Datetime

theorem add_ok {datetime due : Datetime} {delta : Int} (added : datetime.add delta = .ok due) :
    datetime.micros + delta ≤ datetimeMax := by
  unfold add at added
  split at added
  · rename_i inside
    exact inside.2
  · cases added

end Datetime

namespace TimeSettings

variable {settings : TimeSettings}

/-- Below a ceiling that is finite the smaller exponents have finite ones. -/
theorem ceiling_finite {c : ℚ} {exponent most : Nat} (longest : settings.ceiling most = .finite c)
    (fewer : exponent ≤ most) : ∃ c', settings.ceiling exponent = .finite c' ∧ 0 < c' ∧ c' ≤ c :=
  PyFloat.least_times_finite settings.base_positive settings.cap_positive (by positivity)
    (pow_le_pow_right₀ (by norm_num) fewer) longest

theorem lockTimeoutMs_usable (settings : TimeSettings) :
    (∃ ms, settings.lockTimeoutMs = .ok ms ∧ 1 ≤ ms ∧ ms ≤ 2 ^ 31 - 1) ↔
      ∃ t, settings.advisoryLockTimeoutSeconds = .finite t ∧ 1 / 1000 ≤ t ∧ t < 2 ^ 31 / 1000 := by
  have passed := settings.timeout_positive
  unfold lockTimeoutMs
  constructor
  · rintro ⟨ms, cut, above, below⟩
    cases product : settings.advisoryLockTimeoutSeconds.times 1000 with
    | finite c =>
      rw [product] at cut
      obtain ⟨t, same, -, rfl, -, some⟩ := PyFloat.times_finite passed (by norm_num) product
      obtain ⟨least, most⟩ := (PyFloat.toInt_between some).mp ⟨ms, cut, above, below⟩
      push_cast at least most
      exact ⟨t, same, by linarith, by linarith⟩
    | infinity =>
      rw [product] at cut
      cases cut
    | nan =>
      rw [product] at cut
      cases cut
  · rintro ⟨t, same, least, most⟩
    have large := PyFloat.overflow_large
    have product : PyFloat.times 1000 (.finite t) = .finite (t * 1000) := PyFloat.ofRat_of_lt (by linarith)
    rw [same, product]
    refine (PyFloat.toInt_between (by linarith)).mpr ⟨?_, ?_⟩
    · push_cast
      linarith
    · push_cast
      linarith

/-- The least upper bound of every delay: `min(cap, base * 2**32)`. -/
def longestDelay (settings : TimeSettings) : PyFloat := settings.ceiling maxExponent

/-- The lock timeout is at least a millisecond and below 2^31 of them, and the longest
delay is finite and ends on the calendar. -/
def WithinBounds (settings : TimeSettings) (finishedAt : Datetime) : Prop :=
  (∃ t, settings.advisoryLockTimeoutSeconds = .finite t ∧ 1 / 1000 ≤ t ∧ t < 2 ^ 31 / 1000) ∧
  ∃ longest, settings.longestDelay = .finite longest ∧ finishedAt.micros + timedelta longest ≤ datetimeMax

/-- A delay that may be drawn is finite and within the calendar if the longest is. -/
theorem nextAttemptAt_within {finishedAt : Datetime} {longest : ℚ} {attempt : Nat}
    (draw : {u : ℚ // 0 ≤ u ∧ u ≤ 1}) (bounded : settings.longestDelay = .finite longest)
    (fits : finishedAt.micros + timedelta longest ≤ datetimeMax) (counted : 1 ≤ attempt) :
    ∃ c due, settings.ceiling (min attempt maxExponent) = .finite c ∧ c < PyFloat.overflow ∧
      settings.nextDelaySeconds attempt draw = .ok (.finite (c * draw)) ∧
      settings.nextAttemptAt attempt draw finishedAt = .ok due ∧
      datetimePlus finishedAt.micros (c * draw) = .ok due.micros := by
  obtain ⟨c, ceiling, positive, below⟩ := ceiling_finite bounded (Nat.min_le_right attempt maxExponent)
  have start : 0 ≤ c * draw := mul_nonneg positive.le draw.2.1
  have most : c * draw ≤ longest := (mul_le_of_le_one_right positive.le draw.2.2).trans below
  -- what ends on the calendar is far below the overflow
  have low : 0 ≤ timedelta (c * draw) := timedelta_nonneg start
  have high : timedelta (c * draw) ≤ timedelta longest := timedelta_mono most
  have early := finishedAt.after_min
  have room : timedelta longest ≤ datetimeMax - datetimeMin := by linarith
  have small : longest < PyFloat.overflow := by
    have near := abs_le.mp (roundHalfEven_near (longest * 1000000))
    have cast : ((timedelta longest : Int) : ℚ) ≤ (datetimeMax - datetimeMin : Int) := by exact_mod_cast room
    have large := PyFloat.overflow_large
    simp only [timedelta, datetimeMax, datetimeMin] at cast
    push_cast at cast
    linarith [near.1]
  have drawn : settings.nextDelaySeconds attempt draw = .ok (.finite (c * draw)) := by
    rw [nextDelaySeconds, if_neg (by omega), ceiling, PyFloat.uniform, zero_add, sub_zero,
      PyFloat.ofRat_of_lt (most.trans_lt small)]
  have waited : pyTimedelta (c * draw) = .ok (timedelta (c * draw)) := by
    simp only [datetimeMax, datetimeMin] at room
    exact pyTimedelta_ok (by omega) (by omega)
  have added : datetimeMin ≤ finishedAt.micros + timedelta (c * draw) ∧
      finishedAt.micros + timedelta (c * draw) ≤ datetimeMax :=
    ⟨by linarith, by linarith⟩
  refine ⟨c, ⟨finishedAt.micros + timedelta (c * draw), added.1, added.2⟩, ceiling, below.trans_lt small,
    drawn, ?_, ?_⟩
  · rw [nextAttemptAt, drawn]
    show (pyTimedelta _ >>= finishedAt.add) = _
    rw [waited]
    exact dif_pos added
  · rw [datetimePlus, waited]
    exact if_pos added

/-- A configuration that the validators accept gives usable bounds exactly within these. -/
theorem usable_iff (settings : TimeSettings) (finishedAt : Datetime) :
    settings.Usable finishedAt ↔ settings.WithinBounds finishedAt := by
  refine and_congr (lockTimeoutMs_usable settings) ?_
  constructor
  · intro usable
    -- the highest draw after many attempts is the longest delay
    obtain ⟨delay, due, drawn, ended⟩ := usable maxExponent ⟨1, by norm_num⟩ (by decide)
    have drawn' : settings.longestDelay.uniform ⟨1, by norm_num⟩ = .finite delay := Except.ok.inj drawn
    obtain ⟨longest, bounded, same⟩ := PyFloat.uniform_finite drawn'
    obtain rfl : longest = delay := by linarith
    refine ⟨longest, bounded, ?_⟩
    rw [nextAttemptAt, drawn] at ended
    change (pyTimedelta _ >>= finishedAt.add) = _ at ended
    rcases pyTimedelta_cases longest with waited | ⟨message, raised⟩
    · rw [waited] at ended
      exact Datetime.add_ok ended
    · rw [raised] at ended
      cases ended
  · rintro ⟨longest, bounded, fits⟩ attempt draw counted
    obtain ⟨c, due, -, -, drawn, ended, -⟩ := nextAttemptAt_within draw bounded fits counted
    exact ⟨c * draw, due, drawn, ended⟩

end TimeSettings

/-- A configuration of finite bounds, as the rest of the service is given it. -/
def Settings.time (settings : Settings) : TimeSettings where
  advisoryLockTimeoutSeconds := .finite settings.advisoryLockTimeoutSeconds.value
  backoffBaseSeconds := .finite settings.backoffBaseSeconds
  backoffCapSeconds := .finite settings.backoffCapSeconds
  timeout_positive := by simp [PyFloat.refused, settings.advisoryLockTimeoutSeconds.positive]
  base_positive := by simp [PyFloat.refused, settings.base_positive]
  cap_positive := by simp [PyFloat.refused, settings.base_positive.trans_le settings.cap_bounds_base]
  cap_bounds_base := by simp [PyFloat.less, settings.cap_bounds_base]

theorem ceiling_modelled (settings : Settings) {exponent : Nat} {c : ℚ}
    (ceiling : settings.time.ceiling exponent = .finite c) (small : c < PyFloat.overflow) :
    c = min settings.backoffCapSeconds (settings.backoffBaseSeconds * 2 ^ exponent) := by
  unfold TimeSettings.ceiling at ceiling
  rcases PyFloat.least_cases settings.time.backoffCapSeconds
    (settings.time.backoffBaseSeconds.times (2 ^ exponent)) with ⟨cut, product⟩ | ⟨uncut, whole⟩
  · rw [product] at ceiling
    rw [ceiling] at cut
    obtain ⟨same, -⟩ := PyFloat.ofRat_finite ceiling
    have under : c < settings.backoffCapSeconds := by simpa [PyFloat.less, Settings.time] using cut
    rw [same, min_eq_right under.le]
  · rw [whole] at ceiling
    obtain rfl : settings.backoffCapSeconds = c := PyFloat.finite.inj ceiling
    refine (min_eq_left ?_).symm
    by_contra shorter
    have under := not_le.mp shorter
    -- then the product would not have overflowed, and have been the least
    have product : settings.time.backoffBaseSeconds.times (2 ^ exponent) =
        .finite (settings.backoffBaseSeconds * 2 ^ exponent) := PyFloat.ofRat_of_lt (under.trans small)
    rw [product] at uncut
    simp [PyFloat.less, Settings.time, under] at uncut

/-- Of finite settings within the bounds, what Python computes is what the service is
modelled with: the lock timeout, and the date that a failure stores. -/
theorem bounds_modelled (settings : Settings) {finishedAt : Datetime}
    (within : settings.time.WithinBounds finishedAt) :
    settings.time.lockTimeoutMs = .ok settings.advisoryLockTimeoutSeconds.milliseconds ∧
    ∀ attempt draw, 1 ≤ attempt → ∃ due, settings.time.nextAttemptAt attempt draw finishedAt = .ok due ∧
      datetimePlus finishedAt.micros (0 +
        (backoffCeiling attempt settings.backoffBaseSeconds settings.backoffCapSeconds - 0) * draw) =
          .ok due.micros := by
  obtain ⟨⟨t, same, -, most⟩, longest, bounded, fits⟩ := within
  refine ⟨?_, fun attempt draw counted => ?_⟩
  · obtain rfl : settings.advisoryLockTimeoutSeconds.value = t := PyFloat.finite.inj same
    have positive := settings.advisoryLockTimeoutSeconds.positive
    have large := PyFloat.overflow_large
    rw [TimeSettings.lockTimeoutMs, same, PyFloat.times, PyFloat.ofRat_of_lt (by linarith), PyFloat.toInt,
      if_pos (by linarith)]
    rfl
  · obtain ⟨c, due, ceiling, small, -, ended, dated⟩ :=
      TimeSettings.nextAttemptAt_within draw bounded fits counted
    have same := ceiling_modelled settings ceiling small
    refine ⟨due, ended, ?_⟩
    rw [← dated, same, backoffCeiling, zero_add, sub_zero]

private def epoch : Datetime := ⟨0, by decide, by decide⟩

/-- Half a millisecond. -/
private def hasty : TimeSettings := { advisoryLockTimeoutSeconds := .finite (1 / 2000) }

/-- A cap of some thirty thousand years. -/
private def patient : TimeSettings :=
    { backoffBaseSeconds := .finite 1000, backoffCapSeconds := .finite (10 ^ 12) }

/-- The first waits without bound, and the failure transaction of the second raises. -/
theorem accepted_bounds_fail :
    hasty.lockTimeoutMs = .ok 0 ∧ ¬ hasty.Usable epoch ∧
    patient.nextAttemptAt 32 ⟨1, by decide +kernel⟩ epoch = .error (overflowError "date value out of range") ∧
    ¬ patient.Usable epoch := by
  have none : hasty.lockTimeoutMs = .ok 0 := by decide +kernel
  have late : patient.nextAttemptAt 32 ⟨1, by decide +kernel⟩ epoch =
      .error (overflowError "date value out of range") := by decide +kernel
  refine ⟨none, ?_, late, ?_⟩
  · rintro ⟨⟨ms, set, above, -⟩, -⟩
    rw [none] at set
    cases set
    omega
  · rintro ⟨-, usable⟩
    obtain ⟨_, due, -, ended⟩ := usable 32 ⟨1, by decide +kernel⟩ (by decide)
    rw [late] at ended
    cases ended

end WebhookReceiver
