import Mathlib.Data.List.DropRight
import Mathlib.Order.Defs.PartialOrder

/-!
# Bounded histories

A history of at most `cap` entries forgets its oldest entry when another one arrives at a
full history. What it holds is the end of the list of all entries that have arrived.
-/

namespace CarbonChain.Recent

variable {α : Type} {cap : Nat}

/-- The history after `entry` has arrived. -/
def record (cap : Nat) (history : List α) (entry : α) : List α :=
  (if history.length ≥ cap then history.drop 1 else history) ++ [entry]

/-- A history that holds the last entries of all that have arrived goes on to do so. -/
theorem record_rtake (positive : 0 < cap) (all : List α) (entry : α) :
    record cap (all.rtake cap) entry = (all ++ [entry]).rtake cap := by
  rcases Nat.exists_eq_add_of_lt positive with ⟨k, rfl⟩
  rw [Nat.zero_add, List.rtake_concat_succ]
  unfold record List.rtake
  rw [List.length_drop]
  by_cases full : k + 1 ≤ all.length
  · rw [if_pos (by omega), List.drop_drop]
    have next : all.length - (k + 1) + 1 = all.length - k := by omega
    rw [next]
  · have short : all.length - (k + 1) = all.length - k := by omega
    rw [if_neg (by omega), short]

theorem getLast?_rtake (positive : 0 < cap) (all : List α) :
    (all.rtake cap).getLast? = all.getLast? := by
  rcases List.eq_nil_or_concat all with rfl | ⟨earlier, last, rfl⟩
  · rw [List.rtake_nil]
  · rcases Nat.exists_eq_add_of_lt positive with ⟨k, rfl⟩
    rw [List.concat_eq_append, Nat.zero_add, List.rtake_concat_succ, List.getLast?_concat,
      List.getLast?_concat]

theorem mem_of_mem_rtake {all : List α} {entry : α} (member : entry ∈ all.rtake cap) :
    entry ∈ all :=
  List.mem_of_mem_drop member

/-- A history with room for two entries holds the previous one. -/
theorem last_mem_rtake (room : 2 ≤ cap) {all : List α} {previous entry : α}
    (last : all.getLast? = some previous) : previous ∈ (all ++ [entry]).rtake cap := by
  rcases List.getLast?_eq_some_iff.mp last with ⟨earlier, rfl⟩
  rcases Nat.exists_eq_add_of_le room with ⟨k, rfl⟩
  have split : 2 + k = (k + 1) + 1 := by omega
  rw [split, List.rtake_concat_succ, List.rtake_concat_succ]
  simp

/-- When entries have arrived in the order of their keys, a new one is the largest of the
history if and only if it is the largest of all. -/
theorem newest_iff {β : Type} [Preorder β] (key : α → β) (room : 2 ≤ cap) {all : List α}
    {entry : α} (ordered : all.Pairwise fun first second => key first ≤ key second) :
    (∀ x ∈ (all ++ [entry]).rtake cap, key x ≤ key entry) ↔ ∀ x ∈ all, key x ≤ key entry := by
  constructor
  · intro newest x listed
    rcases List.eq_nil_or_concat all with rfl | ⟨earlier, previous, rfl⟩
    · cases listed
    · rw [List.concat_eq_append] at *
      have recent := newest previous (last_mem_rtake room List.getLast?_concat)
      rcases List.mem_append.mp listed with before | last
      · have below := (List.pairwise_append.mp ordered).2.2 x before previous (by simp)
        exact le_trans below recent
      · rw [List.mem_singleton.mp last]
        exact recent
  · intro largest x member
    rcases List.mem_append.mp (mem_of_mem_rtake member) with before | last
    · exact largest x before
    · rw [List.mem_singleton.mp last]

end CarbonChain.Recent
