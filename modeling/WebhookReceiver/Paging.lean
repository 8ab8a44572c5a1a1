import Mathlib.Data.List.Perm.Subperm
import Mathlib.Data.List.Nodup

/-!
Reading a listing page by page while it grows.

A reader asks for one page after the other until a page is not full, and rows are added
between two pages, anywhere in the order. What comes in ahead of a row pushes it back, and
nothing brings it forward, so it cannot get past the reader (`Growing.finds`). It may be
read twice. The order has to tell the rows apart, for rows that it does not tell apart may
change places from one page to the next.
-/

namespace Paging

variable {α β ι S : Type} {key : α → Int} {rows listed : List α} {row : α} {limit offset : Nat}

/-! ## One page -/

/-- The rows, the greatest key first. Rows with the same key come in any order. -/
structure Ordered (key : α → Int) (rows listed : List α) : Prop where
  perm : listed.Perm rows
  sorted : listed.Pairwise fun row later => key later ≤ key row

/-- Rows that came with ever greater keys, the last one first. -/
theorem Ordered.of_rising (rising : (rows.map key).Pairwise (· ≤ ·)) : Ordered key rows rows.reverse :=
  ⟨List.reverse_perm rows, List.pairwise_reverse.mpr (List.pairwise_map.mp rising)⟩

def page (limit offset : Nat) (listed : List α) : List α := (listed.drop offset).take limit

/-- The answer to one query, with what it shows of a row. -/
def Answers (key : α → Int) (shown : α → β) (limit offset : Nat) (rows : List α) (answer : List β) : Prop :=
  ∃ listed, Ordered key rows listed ∧ answer = (page limit offset listed).map shown

/-- How many rows come before this key. -/
def rank (key : α → Int) (rows : List α) (at' : Int) : Nat := rows.countP fun row => at' < key row

/-- A row stands in the listing where its rank says. -/
theorem Ordered.split (ordered : Ordered key rows listed) (distinct : (rows.map key).Nodup)
    (member : row ∈ rows) :
    ∃ front back, listed = front ++ row :: back ∧ front.length = rank key rows (key row) := by
  obtain ⟨front, back, rfl⟩ := List.append_of_mem (ordered.perm.mem_iff.mpr member)
  refine ⟨front, back, rfl, ?_⟩
  have apart : ((front ++ row :: back).map key).Nodup := (ordered.perm.map key).nodup_iff.mpr distinct
  rw [List.map_append, List.map_cons, List.nodup_append] at apart
  obtain ⟨-, -, differ⟩ := apart
  obtain ⟨-, ends, crosses⟩ := List.pairwise_append.mp ordered.sorted
  have first : ∀ other ∈ front, key row < key other := by
    intro other there
    have below := crosses other there row List.mem_cons_self
    have unequal := differ (key other) (List.mem_map_of_mem there) (key row) List.mem_cons_self
    omega
  have last : ∀ other ∈ row :: back, ¬ key row < key other := by
    intro other there
    rcases List.mem_cons.mp there with rfl | later
    · omega
    · have below := (List.pairwise_cons.mp ends).1 other later
      omega
  rw [rank, ← ordered.perm.countP_eq, List.countP_append, List.countP_eq_length.mpr (by simpa using first),
    List.countP_eq_zero.mpr (by simpa using last), Nat.add_zero]

/-- So a page shows it if its rank falls on the page. -/
theorem Ordered.mem_page (ordered : Ordered key rows listed) (distinct : (rows.map key).Nodup)
    (member : row ∈ rows) (reached : offset ≤ rank key rows (key row))
    (inside : rank key rows (key row) < offset + limit) : row ∈ page limit offset listed := by
  obtain ⟨front, back, rfl, place⟩ := ordered.split distinct member
  have shorter : (front.drop offset).length < limit := by
    rw [List.length_drop]
    omega
  rw [page, List.drop_append_of_le_length (by omega), List.take_append,
    show limit - (front.drop offset).length = limit - (front.drop offset).length - 1 + 1 by omega,
      List.take_succ_cons]
  exact List.mem_append_right _ List.mem_cons_self

/-- A page that ends before a place in the listing is full. -/
theorem Ordered.full (ordered : Ordered key rows listed) {at' : Int}
    (beyond : offset + limit ≤ rank key rows at') :
    (page limit offset listed).length = limit := by
  have few : rank key rows at' ≤ rows.length := List.countP_le_length
  have same := ordered.perm.length_eq
  rw [page, List.length_take, List.length_drop]
  omega

/-! ## Page after page -/

/-- From one turn on, until a page is not full. -/
inductive Reads (answers : Nat → S → List β → Prop) (limit : Nat) (later : S → S → Prop) :
    Nat → S → List (List β) → S → Prop
  | last {turn : Nat} {s : S} {answer : List β} (read : answers (turn * limit) s answer)
      (short : answer.length < limit) : Reads answers limit later turn s [answer] s
  | more {turn : Nat} {s s' last : S} {answer : List β} {rest : List (List β)}
      (read : answers (turn * limit) s answer) (on : later s s')
      (reads : Reads answers limit later (turn + 1) s' rest last) :
      Reads answers limit later turn s (answer :: rest) last

/-- Rows come and stay, with their names and their keys. -/
structure Growing (rows : S → List α) (name : α → ι) (key : α → Int) (later : S → S → Prop)
    (sound : S → Prop) : Prop where
  names : ∀ s, sound s → ((rows s).map name).Nodup
  onward : ∀ s s', sound s → later s s' → sound s'
  kept : ∀ s s', sound s → later s s' →
    ∀ row ∈ rows s, ∃ row' ∈ rows s', name row' = name row ∧ key row' = key row

section Growing

variable {rows : S → List α} {name : α → ι} {later : S → S → Prop} {sound : S → Prop} {shown : α → β}
  {turn : Nat} {s s' last : S} {answers : List (List β)}

/-- Keys that are different once all the rows are there were different before. -/
theorem Growing.distinct_before (growing : Growing rows name key later sound) (good : sound s) (on : later s s')
    (distinct : ((rows s').map key).Nodup) : ((rows s).map key).Nodup := by
  have names := growing.names s good
  refine List.Nodup.map_on (fun row member other there same => ?_) names.of_map
  obtain ⟨row', member', named, keyed⟩ := growing.kept s s' good on row member
  obtain ⟨other', there', called, ranked⟩ := growing.kept s s' good on other there
  have one : row' = other' := List.inj_on_of_nodup_map distinct member' there' (by rw [keyed, ranked, same])
  exact List.inj_on_of_nodup_map names member there (by rw [← named, ← called, one])

theorem Growing.distinct_first (growing : Growing rows name key later sound)
    (reads : Reads (fun offset s => Answers key shown limit offset (rows s)) limit later turn s answers last)
    (good : sound s) (distinct : ((rows last).map key).Nodup) : ((rows s).map key).Nodup := by
  induction reads with
  | last read short => exact distinct
  | more read on reads ih => exact growing.distinct_before good on (ih (growing.onward _ _ good on) distinct)

/-- A row is pushed back by what comes in ahead of it, and never brought forward. -/
theorem Growing.rank_le (growing : Growing rows name key later sound) (good : sound s) (on : later s s')
    (distinct : ((rows s).map key).Nodup) (at' : Int) : rank key (rows s) at' ≤ rank key (rows s') at' := by
  have counted : ∀ s, rank key (rows s) at' = (((rows s).map key).filter fun k => at' < k).length := by
    intro s
    rw [rank, List.countP_eq_length_filter, List.filter_map, List.length_map]
    rfl
  rw [counted, counted]
  refine (List.subperm_of_subset (distinct.filter _) fun k member => ?_).length_le
  obtain ⟨listed, ahead⟩ := List.mem_filter.mp member
  obtain ⟨row, there, rfl⟩ := List.mem_map.mp listed
  obtain ⟨row', there', -, same⟩ := growing.kept s s' good on row there
  exact List.mem_filter.mpr ⟨same ▸ List.mem_map_of_mem there', ahead⟩

/-- No row that was there at the first page is passed over. -/
theorem Growing.finds (growing : Growing rows name key later sound)
    (reads : Reads (fun offset s => Answers key shown limit offset (rows s)) limit later turn s answers last)
    (good : sound s) (distinct : ((rows last).map key).Nodup) {row : α} (member : row ∈ rows s)
    (ahead : turn * limit ≤ rank key (rows s) (key row)) :
    ∃ found, name found = name row ∧ ∃ answer ∈ answers, shown found ∈ answer := by
  induction reads generalizing row with
  | @last turn s answer read short =>
    obtain ⟨listed, ordered, rfl⟩ := read
    rw [List.length_map] at short
    have inside : rank key (rows s) (key row) < turn * limit + limit := by
      by_contra beyond
      exact absurd (ordered.full (Nat.not_lt.mp beyond)) (Nat.ne_of_lt short)
    exact ⟨row, rfl, _, List.mem_singleton_self _, List.mem_map_of_mem
      (ordered.mem_page distinct member ahead inside)⟩
  | @more turn s s' last answer rest read on reads ih =>
    have apart := growing.distinct_first (.more read on reads) good distinct
    by_cases inside : rank key (rows s) (key row) < turn * limit + limit
    · obtain ⟨listed, ordered, rfl⟩ := read
      exact ⟨row, rfl, _, List.mem_cons_self, List.mem_map_of_mem (ordered.mem_page apart member ahead inside)⟩
    · obtain ⟨row', member', named, keyed⟩ := growing.kept s s' good on row member
      have pushed := growing.rank_le good on apart (key row)
      have ahead' : (turn + 1) * limit ≤ rank key (rows s') (key row') := by
        rw [keyed, Nat.succ_mul]
        omega
      obtain ⟨found, called, answer, there, shows⟩ := ih (growing.onward s s' good on) distinct member' ahead'
      exact ⟨found, called.trans named, answer, List.mem_cons_of_mem _ there, shows⟩

end Growing

end Paging
