import Mathlib.Algebra.BigOperators.Group.List.Basic
import Mathlib.Algebra.Order.Group.Int
import Mathlib.Order.Lattice

/-!
A register that is added to and overwritten.

Every operation carries a mark, and the register remembers the highest mark it has
seen. An `add` moves the value and is never dropped; a `set` overwrites the value
and is dropped unless its mark is higher. So the mark is a maximum whatever the
order (`run_mark`), additions commute, overwrites converge to the one with the
highest mark, and the two kinds interfere only at the overwrite that wins
(`run_won`): what is added before it is lost in it.
-/

namespace Register

variable {α μ : Type}

inductive Op (α μ : Type) where
  | add (amount : α) (mark : μ)
  | set (value : α) (mark : μ)

structure State (α μ : Type) where
  value : α
  mark : μ

namespace Op

def mark : Op α μ → μ
  | .add _ mark | .set _ mark => mark

def isSet : Op α μ → Bool
  | .add _ _ => false
  | .set _ _ => true

/-- What the operation adds. -/
def amount [Zero α] : Op α μ → α
  | .add amount _ => amount
  | .set _ _ => 0

theorem amount_of_isSet [Zero α] {op : Op α μ} (overwrites : op.isSet = true) : op.amount = 0 := by
  cases op with
  | add amount mark => cases overwrites
  | set value mark => rfl

end Op

variable [AddCommMonoid α]

/-- What the operations add together. -/
def total (ops : List (Op α μ)) : α := (ops.map Op.amount).sum

theorem total_perm {ops ops' : List (Op α μ)} (same : ops.Perm ops') : total ops = total ops' :=
  (same.map Op.amount).sum_eq

variable [LinearOrder μ] {s : State α μ} {ops before after : List (Op α μ)}

def step (s : State α μ) : Op α μ → State α μ
  | .add amount mark => ⟨s.value + amount, max s.mark mark⟩
  | .set value mark => if mark ≤ s.mark then s else ⟨value, mark⟩

def run (s : State α μ) (ops : List (Op α μ)) : State α μ := ops.foldl step s

@[simp] theorem run_nil : run s [] = s := rfl

@[simp] theorem run_cons {op : Op α μ} : run s (op :: ops) = run (step s op) ops := rfl

theorem run_append : run s (before ++ after) = run (run s before) after := List.foldl_append ..

/-! ## The mark -/

theorem step_mark (op : Op α μ) : (step s op).mark = max s.mark op.mark := by
  cases op with
  | add amount mark => rfl
  | set value mark =>
    simp only [step, Op.mark]
    split
    · rename_i stale
      exact (max_eq_left stale).symm
    · rename_i newer
      exact (max_eq_right (le_of_lt (not_le.mp newer))).symm

/-- The mark is the highest there was, in whatever order the operations came. -/
theorem run_mark : (run s ops).mark = ops.foldl (fun mark op => max mark op.mark) s.mark := by
  induction ops generalizing s with
  | nil => rfl
  | cons op rest ih => rw [run_cons, ih, step_mark, List.foldl_cons]

theorem run_mark_lt {mark : μ} (start : s.mark < mark) (below : ∀ op ∈ ops, op.mark < mark) :
    (run s ops).mark < mark := by
  induction ops generalizing s with
  | nil => exact start
  | cons op rest ih =>
    obtain ⟨first, others⟩ := List.forall_mem_cons.mp below
    refine ih ?_ others
    rw [step_mark]
    exact max_lt start first

/-! ## The value -/

/-- Overwrites that come too late are dropped, and what remains is added up. -/
theorem run_late (late : ∀ op ∈ ops, op.isSet = true → op.mark ≤ s.mark) :
    (run s ops).value = s.value + total ops := by
  induction ops generalizing s with
  | nil => simp [total]
  | cons op rest ih =>
    obtain ⟨first, others⟩ := List.forall_mem_cons.mp late
    have onward : ∀ op' ∈ rest, op'.isSet = true → op'.mark ≤ (step s op).mark := by
      intro op' member overwrites
      rw [step_mark]
      exact le_max_of_le_left (others op' member overwrites)
    rw [run_cons, ih onward]
    cases op with
    | add amount mark => simp [step, total, Op.amount, add_assoc]
    | set value mark =>
      have stale : mark ≤ s.mark := first rfl
      simp [step, stale, total, Op.amount]

/-- Additions alone: the value moves by their sum. -/
theorem run_adds (adds : ∀ op ∈ ops, op.isSet = false) : (run s ops).value = s.value + total ops :=
  run_late fun op member overwrites => by simp [adds op member] at overwrites

/-- The overwrite with the highest mark takes effect if nothing before it has reached
its mark, and then only what is added after it counts. -/
theorem run_won {value : α} {mark : μ} (start : s.mark < mark) (first : ∀ op ∈ before, op.mark < mark)
    (last : ∀ op ∈ after, op.isSet = true → op.mark ≤ mark) :
    (run s (before ++ .set value mark :: after)).value = value + total after := by
  have newer : ¬ mark ≤ (run s before).mark := not_le.mpr (run_mark_lt start first)
  rw [run_append, run_cons, step, if_neg newer]
  exact run_late last

/-- If besides nothing with a lower mark is added after it, what counts is what carries
a higher mark, wherever it stands. -/
theorem run_aligned {value : α} {mark : μ} (start : s.mark < mark)
    (first : ∀ op ∈ before, op.mark < mark)
    (last : ∀ op ∈ after, if op.isSet then op.mark ≤ mark else mark < op.mark) :
    (run s (before ++ .set value mark :: after)).value =
      value + total ((before ++ .set value mark :: after).filter fun op => mark < op.mark) := by
  have won : (run s (before ++ .set value mark :: after)).value = value + total after :=
    run_won start first fun op member overwrites => by simpa [overwrites] using last op member
  have none : (before.filter fun op => decide (mark < op.mark)) = [] := by
    rw [List.filter_eq_nil_iff]
    intro op member
    simpa using le_of_lt (first op member)
  have added : total after = total (after.filter fun op => mark < op.mark) := by
    clear won
    induction after with
    | nil => rfl
    | cons op rest ih =>
      obtain ⟨here, others⟩ := List.forall_mem_cons.mp last
      have rest := ih others
      simp only [total, List.map_cons, List.sum_cons, List.filter_cons] at rest ⊢
      by_cases overwrites : op.isSet = true
      · have low : ¬ mark < op.mark := not_lt.mpr (by simpa [overwrites] using here)
        rw [Op.amount_of_isSet overwrites, zero_add, rest]
        simp [low]
      · have high : mark < op.mark := by simpa [overwrites] using here
        simp [high, rest]
  rw [won, added, List.filter_append, none, List.nil_append, List.filter_cons]
  simp [Op.mark]

end Register
