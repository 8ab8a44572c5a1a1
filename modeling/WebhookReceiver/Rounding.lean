import Mathlib.Algebra.Order.Field.Rat
import Mathlib.Data.Int.Log
import Mathlib.Data.Rat.Floor
import Mathlib.Tactic.FieldSimp
import Mathlib.Tactic.Linarith
import Mathlib.Tactic.Positivity
import Mathlib.Tactic.Ring

/-!
Rounding to nearest, ties to even.

`roundHalfEven` rounds to an integer, `toPrecision p` to `p` binary digits. Exponents
are unbounded: nothing overflows and nothing is too small, so an operation of a format
with bounds is this one as long as its result stays inside them.
-/

namespace Rounding

/-! ## Integers -/

/-- The nearest integer, and of two equally near the even one. -/
def roundHalfEven (q : ℚ) : Int :=
  let below := ⌊q⌋
  if q - below < 1 / 2 then below
  else if q - below = 1 / 2 ∧ below % 2 = 0 then below
  else below + 1

theorem roundHalfEven_mono {q q' : ℚ} (le : q ≤ q') : roundHalfEven q ≤ roundHalfEven q' := by
  have floors : ⌊q⌋ ≤ ⌊q'⌋ := Int.floor_le_floor le
  have above : roundHalfEven q ≤ ⌊q⌋ + 1 := by
    simp only [roundHalfEven]
    split_ifs <;> omega
  have below : ⌊q'⌋ ≤ roundHalfEven q' := by
    simp only [roundHalfEven]
    split_ifs <;> omega
  rcases Int.lt_or_eq_of_le floors with less | same
  · omega
  · -- on one floor the fractions decide
    have kept : ⌊q⌋ ≤ roundHalfEven q' := floors.trans below
    by_cases less : q - ⌊q⌋ < 1 / 2
    · rw [roundHalfEven, if_pos less]
      exact kept
    · by_cases half : q - ⌊q⌋ = 1 / 2 ∧ ⌊q⌋ % 2 = 0
      · rw [roundHalfEven, if_neg less, if_pos half]
        exact kept
      · rw [same] at less half
        have less' : ¬ q' - ⌊q'⌋ < 1 / 2 := by linarith
        have half' : ¬ (q' - ⌊q'⌋ = 1 / 2 ∧ ⌊q'⌋ % 2 = 0) := fun tie =>
          half ⟨le_antisymm (by linarith [tie.1]) (by linarith), tie.2⟩
        have up : roundHalfEven q' = ⌊q'⌋ + 1 := by
          rw [roundHalfEven, if_neg less', if_neg half']
        omega

/-- Rounding moves a number by half at most. -/
theorem roundHalfEven_near (q : ℚ) : |(roundHalfEven q : ℚ) - q| ≤ 1 / 2 := by
  have low := Int.floor_le q
  have high := Int.lt_floor_add_one q
  simp only [roundHalfEven]
  split_ifs with less tie
  · rw [abs_le]
    constructor <;> linarith
  · rw [abs_le]
    constructor <;> linarith [tie.1]
  · push_cast
    rw [abs_le]
    constructor <;> linarith

@[simp] theorem roundHalfEven_intCast (n : Int) : roundHalfEven n = n := by
  simp [roundHalfEven]

theorem roundHalfEven_neg (q : ℚ) : roundHalfEven (-q) = -roundHalfEven q := by
  by_cases whole : (⌊q⌋ : ℚ) = q
  · rw [← whole, ← Int.cast_neg, roundHalfEven_intCast, roundHalfEven_intCast]
  · -- the fraction of the one is the rest of the other's to 1
    have low : (⌊q⌋ : ℚ) < q := lt_of_le_of_ne (Int.floor_le q) whole
    have high := Int.lt_floor_add_one q
    have floor : ⌊-q⌋ = -⌊q⌋ - 1 := by
      rw [Int.floor_eq_iff]
      push_cast
      constructor <;> linarith
    have rest : -q - (⌊-q⌋ : ℚ) = 1 - (q - ⌊q⌋) := by
      rw [floor]
      push_cast
      ring
    simp only [roundHalfEven, rest]
    rw [floor]
    rcases lt_trichotomy (q - ⌊q⌋) (1 / 2) with less | half | more
    · have less' : ¬ 1 - (q - ⌊q⌋) < 1 / 2 := by linarith
      have half' : ¬ (1 - (q - ⌊q⌋) = 1 / 2 ∧ (-⌊q⌋ - 1) % 2 = 0) := fun tie => by linarith [tie.1]
      rw [if_pos less, if_neg less', if_neg half']
      ring
    · have half' : 1 - (q - ⌊q⌋) = 1 / 2 := by linarith
      have less : ¬ (1 / 2 : ℚ) < 1 / 2 := lt_irrefl _
      rw [half', half, if_neg less, if_neg less]
      simp only [true_and]
      split_ifs <;> omega
    · have more' : 1 - (q - ⌊q⌋) < 1 / 2 := by linarith
      have less : ¬ q - ⌊q⌋ < 1 / 2 := by linarith
      have half : ¬ (q - ⌊q⌋ = 1 / 2 ∧ ⌊q⌋ % 2 = 0) := fun tie => by linarith [tie.1]
      rw [if_pos more', if_neg less, if_neg half]
      ring

/-! ## Binary digits -/

/-- The value of the last of `p` digits. -/
def lastPlace (p : Nat) (q : ℚ) : ℚ := 2 ^ (Int.log 2 |q| + 1 - p)

/-- The nearest number of `p` digits. -/
def toPrecision (p : Nat) (q : ℚ) : ℚ := roundHalfEven (q / lastPlace p q) * lastPlace p q

/-- An integer of `p` digits, at some exponent. -/
def Representable (p : Nat) (q : ℚ) : Prop := ∃ m e : Int, |m| < 2 ^ p ∧ q = m * 2 ^ e

section Precision

variable {p : Nat} {q q' : ℚ}

theorem lastPlace_pos : 0 < lastPlace p q := by
  exact zpow_pos (by norm_num) _

theorem lastPlace_le {k : Int} (below : |q| < 2 ^ k) (nonzero : q ≠ 0) : lastPlace p q ≤ 2 ^ (k - p) := by
  have exponent : Int.log 2 |q| < k :=
    (Int.lt_zpow_iff_log_lt (by norm_num) (abs_pos.mpr nonzero)).mp (by exact_mod_cast below)
  exact zpow_le_zpow_right₀ (by norm_num) (by omega)

theorem toPrecision_near : |toPrecision p q - q| ≤ lastPlace p q / 2 := by
  have pos : 0 < lastPlace p q := lastPlace_pos
  have scaled : toPrecision p q - q =
      (roundHalfEven (q / lastPlace p q) - q / lastPlace p q) * lastPlace p q := by
    rw [sub_mul, div_mul_cancel₀ _ pos.ne', toPrecision]
  rw [scaled, abs_mul, abs_of_pos pos]
  have near := mul_le_mul_of_nonneg_right (roundHalfEven_near (q / lastPlace p q)) pos.le
  linarith

theorem toPrecision_neg : toPrecision p (-q) = -toPrecision p q := by
  have same : lastPlace p (-q) = lastPlace p q := by rw [lastPlace, abs_neg, lastPlace]
  rw [toPrecision, same, neg_div, roundHalfEven_neg, Int.cast_neg, neg_mul, toPrecision]

theorem toPrecision_of_representable (exact : Representable p q) : toPrecision p q = q := by
  obtain ⟨m, e, digits, same⟩ := exact
  by_cases zero : q = 0
  · rw [zero, toPrecision, zero_div, ← Int.cast_zero, roundHalfEven_intCast, Int.cast_zero, zero_mul]
  · have size : |q| < 2 ^ (p + e) := by
      rw [same, abs_mul, abs_of_pos (zpow_pos (by norm_num) e : (0 : ℚ) < 2 ^ e), zpow_add₀ (by norm_num)]
      refine mul_lt_mul_of_pos_right ?_ (zpow_pos (by norm_num) e)
      rw [zpow_natCast]
      exact_mod_cast digits
    have exponent : Int.log 2 |q| < p + e :=
      (Int.lt_zpow_iff_log_lt (by norm_num) (abs_pos.mpr zero)).mp (by exact_mod_cast size)
    -- the last place is no higher than that of the integer
    obtain ⟨n, shift⟩ := Int.eq_ofNat_of_zero_le (show 0 ≤ e - (Int.log 2 |q| + 1 - p) by omega)
    have whole : q / lastPlace p q = ((m * 2 ^ n : Int) : ℚ) := by
      rw [div_eq_iff lastPlace_pos.ne', lastPlace, same]
      push_cast
      rw [mul_assoc, ← zpow_natCast, ← zpow_add₀ (by norm_num), ← shift]
      congr 2
      rw [same]
      ring
    rw [toPrecision, whole, roundHalfEven_intCast, ← whole, div_mul_cancel₀ _ lastPlace_pos.ne']

/-- The power of two above a positive number bounds what it is rounded to. -/
theorem toPrecision_le_zpow (pos : 0 < q) : toPrecision p q ≤ 2 ^ (Int.log 2 q + 1) := by
  have below : q < 2 ^ (Int.log 2 q + 1) := by exact_mod_cast Int.lt_zpow_succ_log_self (by norm_num) q
  have scaled : q / lastPlace p q ≤ ((2 ^ p : Int) : ℚ) := by
    rw [div_le_iff₀ lastPlace_pos, lastPlace, abs_of_pos pos]
    push_cast
    rw [← zpow_natCast, ← zpow_add₀ (by norm_num)]
    refine below.le.trans (le_of_eq ?_)
    congr 1
    ring
  have rounded := roundHalfEven_mono scaled
  rw [roundHalfEven_intCast] at rounded
  calc toPrecision p q ≤ ((2 ^ p : Int) : ℚ) * lastPlace p q := by
        exact mul_le_mul_of_nonneg_right (by exact_mod_cast rounded) lastPlace_pos.le
    _ = 2 ^ (Int.log 2 q + 1) := by
        rw [lastPlace, abs_of_pos pos]
        push_cast
        rw [← zpow_natCast, ← zpow_add₀ (by norm_num)]
        congr 1
        ring

/-- So does the power of two below it. -/
theorem zpow_le_toPrecision (pos : 0 < q) (digits : 0 < p) : 2 ^ Int.log 2 q ≤ toPrecision p q := by
  have above : (2 : ℚ) ^ Int.log 2 q ≤ q := by exact_mod_cast Int.zpow_log_le_self (by norm_num) pos
  have unit : ((2 ^ (p - 1) : Int) : ℚ) * lastPlace p q = 2 ^ Int.log 2 q := by
    rw [lastPlace, abs_of_pos pos]
    push_cast
    rw [← zpow_natCast, ← zpow_add₀ (by norm_num)]
    congr 1
    push_cast [Nat.cast_sub (show 1 ≤ p from digits)]
    ring
  have scaled : ((2 ^ (p - 1) : Int) : ℚ) ≤ q / lastPlace p q := by
    rw [le_div_iff₀ lastPlace_pos, unit]
    exact above
  have rounded := roundHalfEven_mono scaled
  rw [roundHalfEven_intCast] at rounded
  rw [← unit]
  exact mul_le_mul_of_nonneg_right (by exact_mod_cast rounded) lastPlace_pos.le

theorem toPrecision_nonneg (nonneg : 0 ≤ q) : 0 ≤ toPrecision p q := by
  refine mul_nonneg ?_ lastPlace_pos.le
  have rounded := roundHalfEven_mono (div_nonneg nonneg (lastPlace_pos (p := p) (q := q)).le)
  rw [← Int.cast_zero, roundHalfEven_intCast] at rounded
  exact_mod_cast rounded

private theorem toPrecision_mono_pos (digits : 0 < p) (pos : 0 < q) (le : q ≤ q') :
    toPrecision p q ≤ toPrecision p q' := by
  have pos' : 0 < q' := pos.trans_le le
  rcases Int.lt_or_eq_of_le (Int.log_mono_right (b := 2) pos le) with less | same
  · -- a power of two lies between them
    calc toPrecision p q ≤ 2 ^ (Int.log 2 q + 1) := toPrecision_le_zpow pos
      _ ≤ 2 ^ Int.log 2 q' := zpow_le_zpow_right₀ (by norm_num) less
      _ ≤ toPrecision p q' := zpow_le_toPrecision pos' digits
  · have place : lastPlace p q = lastPlace p q' := by
      rw [lastPlace, lastPlace, abs_of_pos pos, abs_of_pos pos', same]
    rw [toPrecision, toPrecision, place]
    refine mul_le_mul_of_nonneg_right ?_ lastPlace_pos.le
    exact_mod_cast roundHalfEven_mono (div_le_div_of_nonneg_right le lastPlace_pos.le)

theorem toPrecision_mono (digits : 0 < p) (le : q ≤ q') : toPrecision p q ≤ toPrecision p q' := by
  rcases lt_trichotomy q 0 with negative | rfl | positive
  · rcases lt_or_ge q' 0 with negative' | nonneg'
    · have flipped := toPrecision_mono_pos digits (neg_pos.mpr negative') (neg_le_neg le)
      rw [toPrecision_neg, toPrecision_neg] at flipped
      exact neg_le_neg_iff.mp flipped
    · have below : 0 ≤ toPrecision p (-q) := toPrecision_nonneg (neg_pos.mpr negative).le
      rw [toPrecision_neg] at below
      exact (neg_nonneg.mp below).trans (toPrecision_nonneg nonneg')
  · rw [toPrecision_of_representable ⟨0, 0, by simp, by simp⟩]
    exact toPrecision_nonneg le
  · exact toPrecision_mono_pos digits positive le

theorem representable_intCast {n : Int} (digits : |n| < 2 ^ p) : Representable p n :=
  ⟨n, 0, digits, by simp⟩

/-- What is representable bounds what is rounded. -/
theorem toPrecision_le (digits : 0 < p) (exact : Representable p q') (le : q ≤ q') :
    toPrecision p q ≤ q' := by
  rw [← toPrecision_of_representable exact]
  exact toPrecision_mono digits le

theorem le_toPrecision (digits : 0 < p) (exact : Representable p q) (le : q ≤ q') :
    q ≤ toPrecision p q' := by
  rw [← toPrecision_of_representable exact]
  exact toPrecision_mono digits le

end Precision

end Rounding
