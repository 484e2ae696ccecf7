import Mathlib.Algebra.Order.Monoid.Defs
import Mathlib.Algebra.Order.BigOperators.Group.List
import Mathlib.Algebra.Order.Group.Nat
import Mathlib.Algebra.Ring.Nat
import Mathlib.Algebra.Group.Action.Defs
import Mathlib.Data.List.Induction

/-!
# Fixed windows

Times fall into windows of one length. The first time opens a window, and so does every time
that is past the end of the window before it. A window is closed on both sides. Where no window
has more than `limit` times, no interval of that length has more than `2 * limit`, since it
meets at most two windows.
-/

namespace CarbonChain.Windows

variable {T : Type} [AddCommMonoid T] [LinearOrder T]

/-- The openings after one more time. -/
def advance (ttl : T) (openings : List T) (t : T) : List T :=
  if openings.getLast?.all fun s => s + ttl < t then openings ++ [t] else openings

/-- The times that open a window, in order. -/
def openings (ttl : T) (times : List T) : List T := times.foldl (advance ttl) []

/-- How many of the times are in the closed interval of length `ttl` from `s` on. -/
def within (ttl s : T) (times : List T) : Nat := times.countP fun t => s ≤ t ∧ t ≤ s + ttl

/-- No window has more than `limit` times. -/
def Bounded (limit : Nat) (ttl : T) (times : List T) : Prop :=
  ∀ s ∈ openings ttl times, within ttl s times ≤ limit

variable {limit : Nat} {ttl s t : T} {times : List T}

theorem openings_snoc (ttl : T) (times : List T) (t : T) :
    openings ttl (times ++ [t]) = advance ttl (openings ttl times) t := by
  simp [openings]

/-- A time past the end of the current window opens the next one. -/
theorem openings_of_past (past : ∀ s ∈ (openings ttl times).getLast?, s + ttl < t) :
    openings ttl (times ++ [t]) = openings ttl times ++ [t] := by
  rw [openings_snoc, advance, if_pos]
  cases last : (openings ttl times).getLast? with
  | none => rfl
  | some s => simpa using past s last

theorem openings_of_current (last : (openings ttl times).getLast? = some s)
    (current : t ≤ s + ttl) : openings ttl (times ++ [t]) = openings ttl times := by
  rw [openings_snoc, advance, if_neg]
  simpa [last] using current

theorem within_snoc (ttl s : T) (times : List T) (t : T) :
    within ttl s (times ++ [t]) = within ttl s times + if s ≤ t ∧ t ≤ s + ttl then 1 else 0 := by
  simp [within, List.countP_append, List.countP_singleton]

theorem openings_subset (ttl : T) (times : List T) : ∀ s ∈ openings ttl times, s ∈ times := by
  induction times using List.reverseRecOn with
  | nil => simp [openings]
  | append_singleton times t ih =>
      intro s opens
      rw [openings_snoc, advance] at opens
      split at opens
      · rcases List.mem_append.mp opens with before | now
        · exact List.mem_append_left _ (ih s before)
        · exact List.mem_append_right _ now
      · exact List.mem_append_left _ (ih s opens)

theorem eq_or_before_last {opened : List T} {c : T}
    (apart : opened.Pairwise fun s s' => s + ttl < s') (last : opened.getLast? = some c)
    (opens : s ∈ opened) : s = c ∨ s + ttl < c := by
  rcases List.getLast?_eq_some_iff.mp last with ⟨earlier, rfl⟩
  rcases List.mem_append.mp opens with before | now
  · exact .inr ((List.pairwise_append.mp apart).2.2 s before c List.mem_cons_self)
  · exact .inl (List.mem_singleton.mp now)

/-- Times that are all in one of some intervals are no more than those in the intervals. -/
theorem countP_le_of_cover {p : T → Prop} [DecidablePred p] (starts : List T)
    (cover : ∀ t ∈ times, p t → ∃ s ∈ starts, s ≤ t ∧ t ≤ s + ttl) :
    times.countP p ≤ (starts.map fun s => within ttl s times).sum := by
  induction times with
  | nil => simp
  | cons t times ih =>
      have rest := ih fun t' listed => cover t' (List.mem_cons_of_mem t listed)
      let hit : T → Nat := fun s => if s ≤ t ∧ t ≤ s + ttl then 1 else 0
      have grows : (starts.map fun s => within ttl s (t :: times)).sum =
          (starts.map fun s => within ttl s times).sum + (starts.map hit).sum := by
        simp only [within, List.countP_cons, decide_eq_true_eq, List.sum_map_add, hit]
      rw [grows, List.countP_cons]
      split
      · rename_i holds
        obtain ⟨s, listed, inside⟩ := cover t List.mem_cons_self (by simpa using holds)
        have one : hit s ≤ (starts.map hit).sum :=
          List.le_sum_of_mem (List.mem_map_of_mem listed)
        rw [show hit s = 1 from if_pos inside] at one
        omega
      · omega

section

variable [IsOrderedCancelAddMonoid T]

/-- A time past the last of some windows that are apart is past them all. -/
theorem past_of_last {opened : List T} (nonneg : 0 ≤ ttl)
    (apart : opened.Pairwise fun s s' => s + ttl < s')
    (past : ∀ s ∈ opened.getLast?, s + ttl < t) : ∀ s ∈ opened, s + ttl < t := by
  intro s opens
  obtain ⟨c, last⟩ := Option.ne_none_iff_exists'.mp
    (mt List.getLast?_eq_none_iff.mp (List.ne_nil_of_mem opens))
  rcases eq_or_before_last apart last opens with rfl | before
  · exact past s last
  · calc s + ttl < c := before
      _ ≤ c + ttl := le_add_of_nonneg_right nonneg
      _ < t := past c last

/-- The windows are apart. -/
theorem openings_apart (nonneg : 0 ≤ ttl) (times : List T) :
    (openings ttl times).Pairwise fun s s' => s + ttl < s' := by
  induction times using List.reverseRecOn with
  | nil => exact .nil
  | append_singleton times t ih =>
      rw [openings_snoc, advance]
      split
      · rename_i ended
        have past : ∀ s ∈ (openings ttl times).getLast?, s + ttl < t := by
          simpa [Option.all_eq_true] using ended
        rw [List.pairwise_append]
        refine ⟨ih, List.pairwise_singleton _ _, ?_⟩
        intro s opens t' new
        rw [List.mem_singleton.mp new]
        exact past_of_last nonneg ih past s opens
      · exact ih

/-- Every time is in a window. -/
theorem covered (nonneg : 0 ≤ ttl) (sorted : times.Pairwise (· ≤ ·)) :
    ∀ t ∈ times, ∃ s ∈ openings ttl times, s ≤ t ∧ t ≤ s + ttl := by
  induction times using List.reverseRecOn with
  | nil => simp
  | append_singleton times t ih =>
      obtain ⟨sorted, -, below⟩ := List.pairwise_append.mp sorted
      intro t' listed
      rw [openings_snoc, advance]
      rcases List.mem_append.mp listed with before | now
      · obtain ⟨s, opens, inside⟩ := ih sorted t' before
        refine ⟨s, ?_, inside⟩
        split
        · exact List.mem_append_left _ opens
        · exact opens
      · rw [List.mem_singleton.mp now]
        split
        · exact ⟨t, List.mem_concat_self, le_refl t, le_add_of_nonneg_right nonneg⟩
        · rename_i current
          cases last : (openings ttl times).getLast? with
          | none => simp [last] at current
          | some s =>
              have opens := List.mem_of_getLast? last
              refine ⟨s, opens, ?_, ?_⟩
              · exact below s (openings_subset ttl times s opens) t List.mem_cons_self
              · simpa [last] using current

/-- An interval of the length of a window meets at most two windows. -/
theorem meets_two (nonneg : 0 ≤ ttl) (times : List T) (a : T) :
    ((openings ttl times).filter fun s => a ≤ s + ttl ∧ s ≤ a + ttl).length ≤ 2 := by
  have apart := (openings_apart nonneg times).filter
    fun s => decide (a ≤ s + ttl ∧ s ≤ a + ttl)
  have near : ∀ s ∈ (openings ttl times).filter (fun s => a ≤ s + ttl ∧ s ≤ a + ttl),
      a ≤ s + ttl ∧ s ≤ a + ttl := by
    intro s listed
    simpa using (List.mem_filter.mp listed).2
  generalize (openings ttl times).filter (fun s => a ≤ s + ttl ∧ s ≤ a + ttl) = meets at apart near
  match meets with
  | [] => simp
  | [_] => simp
  | [_, _] => simp
  | s :: s' :: s'' :: _ =>
      -- the third would begin after the end of the second, which is past the interval
      simp only [List.pairwise_cons, List.forall_mem_cons] at apart near
      have late : a + ttl < s'' :=
        calc a + ttl ≤ s + ttl + ttl := by gcongr; exact near.1.1
          _ ≤ s' + ttl := by gcongr; exact le_of_lt apart.1.1
          _ < s'' := apart.2.1.1
      exact absurd near.2.2.1.2 (not_le_of_gt late)

/-- No closed interval of the length of a window has more times than two windows. -/
theorem Bounded.interval (bounded : Bounded limit ttl times) (nonneg : 0 ≤ ttl)
    (sorted : times.Pairwise (· ≤ ·)) (a : T) : within ttl a times ≤ 2 * limit := by
  let meets := (openings ttl times).filter fun s => a ≤ s + ttl ∧ s ≤ a + ttl
  have cover : ∀ t ∈ times, a ≤ t ∧ t ≤ a + ttl → ∃ s ∈ meets, s ≤ t ∧ t ≤ s + ttl := by
    intro t listed near
    obtain ⟨s, opens, inside⟩ := covered nonneg sorted t listed
    refine ⟨s, List.mem_filter.mpr ⟨opens, ?_⟩, inside⟩
    simpa using And.intro (near.1.trans inside.2) (inside.1.trans near.2)
  have each : ∀ n ∈ meets.map fun s => within ttl s times, n ≤ limit := by
    intro n listed
    obtain ⟨s, meets', rfl⟩ := List.mem_map.mp listed
    exact bounded s (List.mem_filter.mp meets').1
  calc within ttl a times
      ≤ (meets.map fun s => within ttl s times).sum := countP_le_of_cover meets cover
    _ ≤ (meets.map fun s => within ttl s times).length • limit :=
        List.sum_le_card_nsmul _ limit each
    _ ≤ 2 * limit := by
        rw [List.length_map, smul_eq_mul]
        exact Nat.mul_le_mul_right limit (meets_two nonneg times a)

/-- A time past the current window is past the windows before it. -/
theorem past_all (nonneg : 0 ≤ ttl) (past : ∀ s ∈ (openings ttl times).getLast?, s + ttl < t) :
    ∀ s ∈ openings ttl times, s + ttl < t :=
  past_of_last nonneg (openings_apart nonneg times) past

/-- A time that opens a window is the only one in it. -/
theorem within_of_past (nonneg : 0 ≤ ttl) (sorted : times.Pairwise (· ≤ ·))
    (past : ∀ s ∈ (openings ttl times).getLast?, s + ttl < t) :
    within ttl t (times ++ [t]) = 1 := by
  have earlier : within ttl t times = 0 := by
    rw [within, List.countP_eq_zero]
    intro t' listed
    obtain ⟨s, opens, inside⟩ := covered nonneg sorted t' listed
    have ended := past_all nonneg past s opens
    simpa using fun after => absurd (after.trans inside.2) (not_le_of_gt ended)
  rw [within_snoc, earlier, if_pos ⟨le_refl t, le_add_of_nonneg_right nonneg⟩]

/-- A time that opens a window keeps the windows bounded. -/
theorem Bounded.open_ (bounded : Bounded limit ttl times) (positive : 1 ≤ limit)
    (nonneg : 0 ≤ ttl) (sorted : times.Pairwise (· ≤ ·))
    (past : ∀ s ∈ (openings ttl times).getLast?, s + ttl < t) :
    Bounded limit ttl (times ++ [t]) := by
  intro s opens
  rw [openings_of_past past] at opens
  rcases List.mem_append.mp opens with before | now
  · rw [within_snoc, if_neg fun inside => not_le_of_gt (past_all nonneg past s before) inside.2]
    exact bounded s before
  · rw [List.mem_singleton.mp now, within_of_past nonneg sorted past]
    exact positive

/-- A time of the current window keeps the windows bounded if there is room for it. -/
theorem Bounded.join (bounded : Bounded limit ttl times) (nonneg : 0 ≤ ttl)
    (last : (openings ttl times).getLast? = some s) (after : s ≤ t) (current : t ≤ s + ttl)
    (room : within ttl s times < limit) : Bounded limit ttl (times ++ [t]) := by
  intro s' opens
  rw [openings_of_current last current] at opens
  rcases eq_or_before_last (openings_apart nonneg times) last opens with rfl | before
  · rw [within_snoc, if_pos ⟨after, current⟩]
    exact room
  · rw [within_snoc, if_neg fun inside => not_le_of_gt (before.trans_le after) inside.2]
    exact bounded s' opens

end

end CarbonChain.Windows
