import CarbonChain.Misc.Outcome
import Mathlib.Data.List.Infix

/-!
# Pages of a list

A page is read by a loop over unsigned 32-bit positions that traps where the position of its
end overflows. Up to there the pages partition the list.
-/

namespace CarbonChain.Paging

variable {E α : Type}

/-- `while i < stop && i < all.len() { out.push_back(all.get(i).unwrap()); i += 1; }`, from `i`
on and with `stop - i` positions to go. -/
def collect (all : List α) : (remaining i : Nat) → (out : List α) → Outcome E (List α)
  | 0, _, out => return out
  | remaining + 1, i, out =>
      if i < all.length then do
        let element ← unwrap all[i]?
        collect all remaining (i + 1) (out ++ [element])
      else return out

/-- `if page_size == 0 || page_size > 50 { 50 } else { page_size }`. -/
def clamp (pageSize : Nat) : Nat := if pageSize = 0 ∨ pageSize > 50 then 50 else pageSize

/-- The body of the paginated queries. The first test of the loop computes its end. -/
def paginate (all : List α) (page pageSize : Nat) : Outcome E (List α) := do
  let pageSize := clamp pageSize
  panicIf (page * pageSize ≥ 2 ^ 32)
  let start := page * pageSize
  let _ ← addUnsigned 32 start pageSize
  collect all pageSize start []

/-- The elements at the positions from `start` up to, and without, `stop`. -/
def slice (all : List α) (start stop : Nat) : List α := (all.take stop).drop start

theorem clamp_pos (pageSize : Nat) : 0 < clamp pageSize := by
  unfold clamp
  split <;> omega

theorem take_append_slice (all : List α) {middle stop : Nat} (le : middle ≤ stop) :
    all.take middle ++ slice all middle stop = all.take stop := by
  have whole := List.take_append_drop middle (all.take stop)
  rw [List.take_take, min_eq_left le] at whole
  exact whole

theorem slice_min (all : List α) (start stop : Nat) :
    slice all start (min all.length stop) = slice all start stop := by
  have same : all.take (min all.length stop) = all.take stop := by
    rw [List.take_eq_take_iff]
    omega
  unfold slice
  rw [same]

theorem slice_cons {all : List α} {i stop : Nat} (inside : i < all.length) (before : i < stop) :
    slice all i stop = all[i] :: slice all (i + 1) stop := by
  unfold slice
  have position : i < (all.take stop).length := by
    rw [List.length_take]
    omega
  rw [List.drop_eq_getElem_cons position, List.getElem_take]

theorem slice_nil {all : List α} {i stop : Nat} (past : min stop all.length ≤ i) :
    slice all i stop = [] := by
  unfold slice
  apply List.drop_of_length_le
  rw [List.length_take]
  exact past

/-- The loop appends the elements from `i` on. -/
theorem collect_eq (all : List α) (remaining i : Nat) (out : List α) :
    (collect all remaining i out : Outcome E (List α)) =
      .ok (out ++ slice all i (i + remaining)) := by
  induction remaining generalizing i out with
  | zero =>
      rw [slice_nil (by omega), List.append_nil]
      rfl
  | succ remaining ih =>
      rw [collect]
      by_cases inside : i < all.length
      · rw [if_pos inside, List.getElem?_eq_getElem inside]
        show collect all remaining (i + 1) (out ++ [all[i]]) = _
        have stop : i + 1 + remaining = i + (remaining + 1) := by omega
        rw [ih, slice_cons inside (by omega), List.append_assoc, List.singleton_append, stop]
      · rw [if_neg inside, slice_nil (by omega), List.append_nil]
        rfl

/-- A page is returned if and only if its end is a 32-bit position. -/
theorem paginate_eq_ok {all out : List α} {page pageSize : Nat} :
    (paginate all page pageSize : Outcome E (List α)) = .ok out ↔
      (page + 1) * clamp pageSize < 2 ^ 32 ∧
        slice all (page * clamp pageSize) ((page + 1) * clamp pageSize) = out := by
  have positive := clamp_pos pageSize
  simp only [paginate, bind_eq_ok, panicIf_eq_ok, exists_const, addUnsigned_eq_ok, collect_eq,
    List.nil_append, Except.ok.injEq, Nat.add_mul, Nat.one_mul, Nat.not_le, ge_iff_le]
  constructor
  · rintro ⟨-, _, ⟨fits, -⟩, rfl⟩
    exact ⟨fits, rfl⟩
  · rintro ⟨fits, rfl⟩
    exact ⟨by omega, _, ⟨fits, rfl⟩, rfl⟩

/-- The page that is asked for is returned, and with the pages before it, one after the other,
it makes up the list as far as it goes. -/
structure Exact (all : List α) (paginated : Nat → Nat → Outcome E (List α))
    (page pageSize : Nat) : Prop where
  returned : paginated page pageSize =
    .ok (slice all (page * clamp pageSize) (min all.length ((page + 1) * clamp pageSize)))
  together : ∃ pages, (List.range (page + 1)).mapM (fun i => paginated i pageSize) = .ok pages ∧
    pages.flatten = all.take ((page + 1) * clamp pageSize)

/-- The first pages, one after the other, make up the start of the list. -/
theorem flatMap_slice (all : List α) (size n : Nat) :
    (List.range n).flatMap (fun i => slice all (i * size) ((i + 1) * size)) =
      all.take (n * size) := by
  induction n with
  | zero => simp
  | succ n ih =>
      have next : n * size ≤ (n + 1) * size := Nat.mul_le_mul_right _ (Nat.le_succ n)
      rw [List.range_succ, List.flatMap_append, ih, List.flatMap_singleton,
        take_append_slice all next]

/-- As many pages as the quotient, rounded up, have room for all elements. -/
theorem le_ceil_mul (total : Nat) {size : Nat} (positive : 1 ≤ size) :
    total ≤ (total + size - 1) / size * size := by
  have division := Nat.div_add_mod' (total + size - 1) size
  have remainder := Nat.mod_lt (total + size - 1) positive
  omega

/-- The first pages, up to one whose end is a 32-bit position, make up the start of the list. -/
theorem pages_together (all : List α) (n pageSize : Nat) (fits : n * clamp pageSize < 2 ^ 32) :
    ∃ pages, ((List.range n).mapM fun i => (paginate all i pageSize : Outcome E (List α))) =
      .ok pages ∧ pages.flatten = all.take (n * clamp pageSize) := by
  let size := clamp pageSize
  have each : ∀ i ∈ List.range n, (paginate all i pageSize : Outcome E (List α)) =
      .ok (slice all (i * size) ((i + 1) * size)) := by
    intro i inside
    have next : (i + 1) * size ≤ n * size := Nat.mul_le_mul_right size (List.mem_range.mp inside)
    exact paginate_eq_ok.mpr ⟨Nat.lt_of_le_of_lt next fits, rfl⟩
  refine ⟨_, mapM_of_ok each, ?_⟩
  rw [← List.flatMap_def, flatMap_slice]

/-- Pagination is exact up to the last page whose end is a 32-bit position, and traps after
it. -/
theorem exact_paginate_iff (all : List α) (page pageSize : Nat) :
    Exact all (paginate (E := E) all) page pageSize ↔
      (page + 1) * clamp pageSize < 2 ^ 32 := by
  constructor
  · intro exact_
    exact (paginate_eq_ok.mp exact_.returned).1
  · intro fits
    refine ⟨paginate_eq_ok.mpr ⟨fits, ?_⟩, pages_together all (page + 1) pageSize fits⟩
    rw [slice_min]

/-! ## Pages of a growing list

A reader asks for the pages of a list one after the other, and the list grows at its end between
the requests. What is read keeps the order of the list: it has everything that the list had at the
start, nothing that the list does not come to have, and nothing twice.
-/

/-- What is read up to page `n`, where page `i` is cut out of the list of its time. -/
def readUpTo (all : Nat → List α) (size n : Nat) : List α :=
  (List.range n).flatMap fun i => slice (all i) (i * size) ((i + 1) * size)

theorem readUpTo_succ (all : Nat → List α) (size n : Nat) :
    readUpTo all size (n + 1) =
      readUpTo all size n ++ slice (all n) (n * size) ((n + 1) * size) := by
  unfold readUpTo
  rw [List.range_succ, List.flatMap_append, List.flatMap_singleton]

theorem slice_sublist {shorter longer : List α} (grown : shorter <+: longer) (start stop : Nat) :
    (slice shorter start stop).Sublist (slice longer start stop) :=
  ((grown.take stop).drop start).sublist

variable {all : Nat → List α} {size : Nat}

theorem grown (grows : ∀ n, all n <+: all (n + 1)) {m n : Nat} (le : m ≤ n) : all m <+: all n := by
  induction le with
  | refl => exact List.prefix_rfl
  | step _ ih => exact ih.trans (grows _)

/-- What is read has everything that the list had at the start, as far as the pages go, and nothing
that the list does not come to have. -/
theorem sublist_readUpTo (grows : ∀ n, all n <+: all (n + 1)) (n : Nat) :
    ((all 0).take (n * size)).Sublist (readUpTo all size n) ∧
      (readUpTo all size n).Sublist ((all n).take (n * size)) := by
  induction n with
  | zero => simp [readUpTo]
  | succ n ih =>
      have le : n * size ≤ (n + 1) * size := Nat.mul_le_mul_right size (Nat.le_succ n)
      rw [readUpTo_succ, ← take_append_slice (all 0) le, ← take_append_slice (all (n + 1)) le]
      constructor
      · exact ih.1.append (slice_sublist (grown grows (Nat.zero_le n)) _ _)
      · have before : ((all n).take (n * size)).Sublist ((all (n + 1)).take (n * size)) :=
          ((grows n).take (n * size)).sublist
        exact (ih.2.trans before).append (slice_sublist (grows n) _ _)

end CarbonChain.Paging
