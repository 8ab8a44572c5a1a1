import Mathlib.Data.Finset.Card
import Mathlib.Data.Finset.Lattice.Basic
import Mathlib.Algebra.BigOperators.Group.List.Basic
import Mathlib.Order.MinMax
import Mathlib.Tactic.Linarith

/-!
Working off a backlog in rounds.

A round takes up as many of the waiting items as its limit allows and puts some of
them back. What is put back takes up room in a later round, and that is all that can
keep an item from its turn: `Rounds.covers` says how many items may be put back before
the last round. Where each round takes the oldest items, what is put back is taken up
again at once, and the bound is sharp (`Rounds.covers_iff`).
-/

namespace Backlog

variable {α : Type} [DecidableEq α]

/-- The items that a round takes up, and those of them that wait again after it. -/
structure Round (α : Type) where
  taken : Finset α
  returned : Finset α

/-- What waits after a round. -/
def Round.left (round : Round α) (waiting : Finset α) : Finset α := (waiting \ round.taken) ∪ round.returned

/-- A round that may follow: it takes what waits, as much as it can. -/
structure Round.Fits (limit : Nat) (waiting : Finset α) (round : Round α) : Prop where
  taken_waiting : round.taken ⊆ waiting
  returned_taken : round.returned ⊆ round.taken
  full : round.taken.card = min limit waiting.card

/-- Rounds one after the other. -/
def Rounds (limit : Nat) : Finset α → List (Round α) → Prop
  | _, [] => True
  | waiting, round :: rest => round.Fits limit waiting ∧ Rounds limit (round.left waiting) rest

/-- How many items the rounds but the last put back. -/
def putBack (rounds : List (Round α)) : Nat := (rounds.dropLast.map fun round => round.returned.card).sum

/-- Each item of the backlog is taken up in some round. -/
def Covers (waiting : Finset α) (rounds : List (Round α)) : Prop :=
  ∀ item ∈ waiting, ∃ round ∈ rounds, item ∈ round.taken

section Counts

variable {limit : Nat} {waiting : Finset α} {round : Round α}

theorem Round.Fits.card_left (fits : round.Fits limit waiting) :
    (round.left waiting).card + round.taken.card = waiting.card + round.returned.card := by
  have apart : Disjoint (waiting \ round.taken) round.returned :=
    Finset.disjoint_of_subset_right fits.returned_taken Finset.sdiff_disjoint
  have taken := Finset.card_le_card fits.taken_waiting
  rw [Round.left, Finset.card_union_of_disjoint apart, Finset.card_sdiff_of_subset fits.taken_waiting]
  omega

omit [DecidableEq α] in
/-- A round that can take everything does. -/
theorem Round.Fits.whole (fits : round.Fits limit waiting) (few : waiting.card ≤ limit) :
    round.taken = waiting := by
  refine Finset.eq_of_subset_of_card_le fits.taken_waiting ?_
  rw [fits.full, Nat.min_eq_right few]

omit [DecidableEq α] in
theorem putBack_cons {next : Round α} {rest : List (Round α)} :
    putBack (round :: next :: rest) = round.returned.card + putBack (next :: rest) := by
  simp [putBack]

end Counts

/-- Enough rounds, for the items and for what is put back, take up every item. -/
theorem Rounds.covers {limit : Nat} {waiting : Finset α} {rounds : List (Round α)}
    (follow : Rounds limit waiting rounds) (room : waiting.card + putBack rounds ≤ rounds.length * limit) :
    Covers waiting rounds := by
  induction rounds generalizing waiting with
  | nil =>
    intro item member
    have some := Finset.card_pos.mpr ⟨item, member⟩
    simp only [List.length_nil, Nat.zero_mul] at room
    omega
  | cons round rest ih =>
    obtain ⟨fits, follow⟩ := follow
    intro item member
    by_cases taken : item ∈ round.taken
    · exact ⟨round, List.mem_cons_self .., taken⟩
    · -- the round was full, so there is room for the rest
      have many : limit < waiting.card := by
        by_contra few
        exact taken (fits.whole (not_lt.mp few) ▸ member)
      have full : round.taken.card = limit := by
        rw [fits.full]
        exact Nat.min_eq_left many.le
      have count := fits.card_left
      cases rest with
      | nil =>
        simp only [List.length_cons, List.length_nil] at room
        omega
      | cons next rest =>
        have more : (round.left waiting).card + putBack (next :: rest) ≤ (next :: rest).length * limit := by
          rw [putBack_cons, List.length_cons, Nat.add_mul, Nat.one_mul] at room
          omega
        have waits : item ∈ round.left waiting :=
          Finset.mem_union_left _ (Finset.mem_sdiff.mpr ⟨member, taken⟩)
        obtain ⟨later, among, there⟩ := ih follow more item waits
        exact ⟨later, List.mem_cons_of_mem _ among, there⟩

/-! ## Oldest first -/

section Oldest

variable {τ : Type} [LinearOrder τ] (stamp : α → τ)

/-- No item that is taken is newer than one that is not. -/
def Round.Oldest (waiting : Finset α) (round : Round α) : Prop :=
  ∀ item ∈ round.taken, ∀ other ∈ waiting \ round.taken, stamp item ≤ stamp other

def OldestFirst : Finset α → List (Round α) → Prop
  | _, [] => True
  | waiting, round :: rest => round.Oldest stamp waiting ∧ OldestFirst (round.left waiting) rest

variable {stamp} {limit : Nat} {waiting : Finset α} {round next : Round α}

/-- With every stamp different, the oldest items are taken again if they are put back. -/
theorem Round.Fits.retaken (fits : round.Fits limit waiting) (oldest : round.Oldest stamp waiting)
    (distinct : Set.InjOn stamp waiting) (fits' : next.Fits limit (round.left waiting))
    (oldest' : next.Oldest stamp (round.left waiting)) : round.returned ⊆ next.taken := by
  intro item member
  by_contra spared
  have waits : item ∈ round.left waiting := Finset.mem_union_right _ member
  have room : round.returned.card ≤ next.taken.card := by
    have taken := Finset.card_le_card fits.returned_taken
    have back : round.returned.card ≤ (round.left waiting).card :=
      Finset.card_le_card Finset.subset_union_right
    have first := fits.full
    rw [fits'.full]
    omega
  -- whatever is taken in its place is older, hence put back as well
  have instead : next.taken ⊆ round.returned.erase item := by
    intro other there
    have older := oldest' other there item (Finset.mem_sdiff.mpr ⟨waits, spared⟩)
    rcases Finset.mem_union.mp (fits'.taken_waiting there) with fresh | back
    · have newer := oldest item (fits.returned_taken member) other fresh
      have same := distinct (fits.taken_waiting (fits.returned_taken member)) (Finset.mem_sdiff.mp fresh).1
        (le_antisymm newer older)
      exact absurd (same ▸ there) spared
    · exact Finset.mem_erase.mpr ⟨fun same => spared (same ▸ there), back⟩
  have fewer := Finset.card_le_card instead
  have some := Finset.card_pos.mpr ⟨item, member⟩
  rw [Finset.card_erase_of_mem member] at fewer
  omega

theorem Round.Fits.left_subset (fits : round.Fits limit waiting) : round.left waiting ⊆ waiting :=
  Finset.union_subset Finset.sdiff_subset (fits.returned_taken.trans fits.taken_waiting)

/-- Oldest first, rounds that take up every item have had the room for what was put back. -/
theorem Rounds.room {rounds : List (Round α)} (follow : Rounds limit waiting rounds)
    (oldest : OldestFirst stamp waiting rounds) (distinct : Set.InjOn stamp waiting)
    (covers : Covers waiting rounds) : waiting.card + putBack rounds ≤ rounds.length * limit := by
  induction rounds generalizing waiting with
  | nil =>
    have none : waiting = ∅ := by
      refine Finset.eq_empty_of_forall_notMem fun item member => ?_
      obtain ⟨round, among, -⟩ := covers item member
      cases among
    simp [none, putBack]
  | cons round rest ih =>
    obtain ⟨fits, follow⟩ := follow
    obtain ⟨first, oldest⟩ := oldest
    have most : round.taken.card ≤ limit := by
      rw [fits.full]
      exact Nat.min_le_left ..
    cases rest with
    | nil =>
      have all : waiting ⊆ round.taken := by
        intro item member
        obtain ⟨other, among, there⟩ := covers item member
        obtain rfl := List.mem_singleton.mp among
        exact there
      have count := Finset.card_le_card all
      simp only [putBack, List.dropLast_singleton, List.map_nil, List.sum_nil, List.length_cons,
        List.length_nil]
      omega
    | cons next rest =>
      have retaken := fits.retaken first distinct follow.1 oldest.1
      have covers' : Covers (round.left waiting) (next :: rest) := by
        intro item member
        rcases Finset.mem_union.mp member with fresh | back
        · obtain ⟨waits, spared⟩ := Finset.mem_sdiff.mp fresh
          obtain ⟨other, among, there⟩ := covers item waits
          rcases List.mem_cons.mp among with rfl | later
          · exact absurd there spared
          · exact ⟨other, later, there⟩
        · exact ⟨next, List.mem_cons_self .., retaken back⟩
      have rest' := ih follow oldest (distinct.mono fits.left_subset) covers'
      have count := fits.card_left
      rw [putBack_cons, List.length_cons, Nat.add_mul, Nat.one_mul]
      omega

/-- Oldest first, and with every stamp different: every item is taken up exactly if there
are rounds enough for the items and for what is put back. -/
theorem Rounds.covers_iff {rounds : List (Round α)} (follow : Rounds limit waiting rounds)
    (oldest : OldestFirst stamp waiting rounds) (distinct : Set.InjOn stamp waiting) :
    Covers waiting rounds ↔ waiting.card + putBack rounds ≤ rounds.length * limit :=
  ⟨follow.room oldest distinct, follow.covers⟩

end Oldest

end Backlog
