import Mathlib.Data.List.Nodup
import Mathlib.Data.List.Basic
import Mathlib.Data.List.TakeDrop

/-!
# Feeds read from a cursor

A feed is a list of entries that only grows, at its end, and whose positions never
decrease. A reader asks for a window: the first entries from a position on, up to a limit.
A window leaves no gap below its last position (`mem_window_of_lt`), and an entry stays in
the windows that start later but not past it (`mem_window_of_le`).
-/

namespace CarbonChain

/-- Entries in the order of their positions, which their keys tell apart. -/
structure Feed (E K : Type) (pos : E → Nat) (key : E → K) where
  entries : List E
  ordered : entries.Pairwise fun a b => pos a ≤ pos b
  distinct : (entries.map key).Nodup

namespace Feed

variable {E K : Type} {pos : E → Nat} {key : E → K} (feed : Feed E K pos key)

/-- The feed of no entries. -/
def empty : Feed E K pos key := ⟨[], .nil, .nil⟩

/-- The entry can come next: it is not before the last one, and its key is new. -/
def Accepts (e : E) : Prop :=
  (∀ x ∈ feed.entries, pos x ≤ pos e) ∧ key e ∉ feed.entries.map key

instance [DecidableEq K] (e : E) : Decidable (feed.Accepts e) :=
  inferInstanceAs (Decidable (_ ∧ _))

/-- A feed grows at its end. -/
def append (e : E) (accepts : feed.Accepts e) : Feed E K pos key where
  entries := feed.entries ++ [e]
  ordered := by
    rw [List.pairwise_append]
    refine ⟨feed.ordered, List.pairwise_singleton _ e, ?_⟩
    intro x listed y last
    rw [List.mem_singleton.mp last]
    exact accepts.1 x listed
  distinct := by
    rw [List.map_append, List.map_singleton, ← List.concat_eq_append, List.nodup_concat]
    exact ⟨accepts.2, feed.distinct⟩

/-- The first entries from the position `start` on, at most `limit` of them. -/
def window (limit start : Nat) : List E :=
  (feed.entries.filter fun e => start ≤ pos e).take limit

variable {feed} {limit start : Nat} {e : E}

@[simp] theorem mem_append (accepts : feed.Accepts e) (x : E) :
    x ∈ (feed.append e accepts).entries ↔ x ∈ feed.entries ∨ x = e := by
  simp [append]

theorem mem_of_window (h : e ∈ feed.window limit start) : e ∈ feed.entries ∧ start ≤ pos e := by
  simpa using List.mem_of_mem_take h

theorem window_distinct : ((feed.window limit start).map key).Nodup := by
  have part : (feed.window limit start).Sublist feed.entries :=
    (List.take_sublist _ _).trans List.filter_sublist
  exact feed.distinct.sublist (part.map key)

/-- A window leaves out no entry between its start and one of its positions. -/
theorem mem_window_of_lt {last : E} (read : last ∈ feed.window limit start)
    (listed : e ∈ feed.entries) (from_ : start ≤ pos e) (before : pos e < pos last) :
    e ∈ feed.window limit start := by
  have ordered := feed.ordered.sublist (List.filter_sublist (p := fun e => start ≤ pos e))
  have found : e ∈ feed.entries.filter fun e => start ≤ pos e := by simp [listed, from_]
  rw [← List.take_append_drop limit (feed.entries.filter _)] at ordered found
  rcases List.mem_append.mp found with here | later
  · exact here
  · have behind := (List.pairwise_append.mp ordered).2.2 last read e later
    omega

/-- What is among the first elements of a list with some property is among the first ones
with a narrower property, if it has it. -/
theorem mem_take_filter {list : List E} {p q : E → Bool} (narrower : ∀ x, q x = true → p x = true)
    (has : q e = true) {n : Nat} (h : e ∈ (list.filter p).take n) : e ∈ (list.filter q).take n := by
  induction list generalizing n with
  | nil => simp at h
  | cons x rest ih =>
      cases n with
      | zero => simp at h
      | succ n =>
          by_cases narrow : q x = true
          · rw [List.filter_cons_of_pos (narrower x narrow), List.take_succ_cons] at h
            rw [List.filter_cons_of_pos narrow, List.take_succ_cons]
            rcases List.mem_cons.mp h with rfl | later
            · exact List.mem_cons_self
            · exact List.mem_cons_of_mem x (ih later)
          · rw [List.filter_cons_of_neg narrow]
            have different : e ≠ x := by
              rintro rfl
              exact narrow has
            by_cases wide : p x = true
            · rw [List.filter_cons_of_pos wide, List.take_succ_cons] at h
              have later := ih ((List.mem_cons.mp h).resolve_left different)
              exact List.take_subset_take_left _ (Nat.le_succ n) later
            · rw [List.filter_cons_of_neg wide] at h
              exact ih h

/-- An entry of a window is in every window that starts later and not past it. -/
theorem mem_window_of_le {start' : Nat} (read : e ∈ feed.window limit start)
    (later : start ≤ start') (from_ : start' ≤ pos e) : e ∈ feed.window limit start' := by
  apply mem_take_filter (p := fun e => start ≤ pos e) _ _ read
  · intro x from_
    simp only [decide_eq_true_eq] at from_ ⊢
    omega
  · simpa using from_

/-- An entry of a window stays in it as the feed grows. -/
theorem mem_window_append {x : E} (accepts : feed.Accepts x) (read : e ∈ feed.window limit start) :
    e ∈ (feed.append x accepts).window limit start := by
  unfold window append at *
  rw [List.filter_append, List.take_append]
  exact List.mem_append_left _ read

end Feed

end CarbonChain
