import Mathlib.Data.Finmap
import Mathlib.Algebra.BigOperators.Group.Finset.Basic
import Mathlib.Algebra.BigOperators.Group.Finset.Piecewise
import Mathlib.Algebra.Order.BigOperators.Group.Finset
import Mathlib.Tactic.Abel

/-!
# Finite key-value stores

A store is a finite map. Reads after writes are one conditional, and a quantity
summed over the stored values changes, on a write, by what the write does to the
one key it touches.
-/

namespace CarbonChain

/-- A finite map from keys to values. -/
abbrev Store (K V : Type) := Finmap fun _ : K => V

namespace Store

variable {K V : Type} [DecidableEq K]

@[simp] theorem lookup_insert_ite (store : Store K V) (key other : K) (value : V) :
    (store.insert key value).lookup other =
      if other = key then some value else store.lookup other := by
  by_cases same : other = key
  · subst same
    simp
  · simp [same, Finmap.lookup_insert_of_ne]

@[simp] theorem lookup_erase_ite (store : Store K V) (key other : K) :
    (store.erase key).lookup other = if other = key then none else store.lookup other := by
  by_cases same : other = key
  · subst same
    simp
  · simp [same, Finmap.lookup_erase_ne]

theorem keys_insert (store : Store K V) (key : K) (value : V) :
    (store.insert key value).keys = insert key store.keys := by
  ext other
  simp [Finmap.mem_keys, Finmap.mem_insert]

variable {M : Type} [AddCommGroup M]

/-- The sum of `weight` over the stored values. -/
def total (weight : V → M) (store : Store K V) : M :=
  ∑ key ∈ store.keys, (store.lookup key).elim 0 weight

@[simp] theorem total_empty (weight : V → M) : total weight (∅ : Store K V) = 0 := by
  simp [total]

/-- A write replaces the weight of the old value under its key, if there is one,
by the weight of the new value. -/
theorem total_insert (weight : V → M) (store : Store K V) (key : K) (value : V) :
    total weight (store.insert key value) =
      total weight store - (store.lookup key).elim 0 weight + weight value := by
  have others : ∑ other ∈ store.keys.erase key,
      ((store.insert key value).lookup other).elim 0 weight =
        ∑ other ∈ store.keys.erase key, (store.lookup other).elim 0 weight := by
    apply Finset.sum_congr rfl
    intro other member
    simp [Finset.ne_of_mem_erase member]
  have added : total weight (store.insert key value) =
      weight value + ∑ other ∈ store.keys.erase key, (store.lookup other).elim 0 weight := by
    unfold total
    rw [keys_insert, ← Finset.insert_erase (Finset.mem_insert_self key store.keys),
      Finset.erase_insert_eq_erase, Finset.sum_insert (Finset.notMem_erase _ _), others]
    simp
  have removed : total weight store = (store.lookup key).elim 0 weight +
      ∑ other ∈ store.keys.erase key, (store.lookup other).elim 0 weight := by
    unfold total
    by_cases member : key ∈ store.keys
    · rw [← Finset.add_sum_erase _ _ member]
    · have absent : store.lookup key = none := by
        rw [Finmap.lookup_eq_none, ← Finmap.mem_keys]
        exact member
      rw [absent, Finset.erase_eq_of_notMem member]
      simp
  rw [added, removed]
  abel

/-- Values that are charged to distinct items, each within what its item allows, weigh no
more than the items allow together. -/
theorem total_le_sum {I : Type} [DecidableEq I] [PartialOrder M] [IsOrderedAddMonoid M]
    {weight : V → M} {store : Store K V} (item : V → I) {allowed : I → M} {items : Finset I}
    (within : ∀ key value, store.lookup key = some value →
      item value ∈ items ∧ weight value ≤ allowed (item value))
    (single : ∀ key key' value value', store.lookup key = some value →
      store.lookup key' = some value' → item value = item value' → key = key')
    (nonneg : ∀ i ∈ items, 0 ≤ allowed i) : total weight store ≤ ∑ i ∈ items, allowed i := by
  let charged : K → Option I := fun key => (store.lookup key).map item
  have stored : ∀ key ∈ store.keys, ∃ value, store.lookup key = some value := by
    intro key member
    exact Option.isSome_iff_exists.mp (Finmap.lookup_isSome.mpr (Finmap.mem_keys.mp member))
  have distinct : Set.InjOn charged store.keys := by
    intro key member key' member' same
    obtain ⟨value, found⟩ := stored key member
    obtain ⟨value', found'⟩ := stored key' member'
    simp only [charged, found, found', Option.map_some, Option.some.injEq] at same
    exact single key key' value value' found found' same
  have inside : store.keys.image charged ⊆ items.map Function.Embedding.some := by
    intro o member
    obtain ⟨key, listed, rfl⟩ := Finset.mem_image.mp member
    obtain ⟨value, found⟩ := stored key listed
    simpa [charged, found] using (within key value found).1
  calc total weight store
      ≤ ∑ key ∈ store.keys, (charged key).elim 0 allowed := by
        apply Finset.sum_le_sum
        intro key member
        obtain ⟨value, found⟩ := stored key member
        simpa [charged, found] using (within key value found).2
    _ = ∑ o ∈ store.keys.image charged, o.elim 0 allowed := by rw [Finset.sum_image distinct]
    _ ≤ ∑ o ∈ items.map Function.Embedding.some, o.elim 0 allowed := by
        apply Finset.sum_le_sum_of_subset_of_nonneg inside
        intro o member _
        obtain ⟨i, listed, rfl⟩ := Finset.mem_map.mp member
        exact nonneg i listed
    _ = ∑ i ∈ items, allowed i := Finset.sum_map _ _ _

/-! ## Stores that only grow

Every write goes to a key under which nothing is stored. What the store holds can be counted, and
a write adds one to the counts that the new value belongs to.
-/

/-- Whatever is stored is stored later with the same value. -/
def Extends (before after : Store K V) : Prop :=
  ∀ key value, before.lookup key = some value → after.lookup key = some value

theorem Extends.refl (store : Store K V) : Extends store store :=
  fun _ _ stored => stored

theorem Extends.trans {first second third : Store K V} (h : Extends first second)
    (h' : Extends second third) : Extends first third :=
  fun key value stored => h' key value (h key value stored)

/-- A write to a new key extends the store. -/
theorem Extends.insert {store : Store K V} {key : K} (fresh : store.lookup key = none)
    (value : V) : Extends store (store.insert key value) := by
  intro other found stored
  rw [lookup_insert_ite]
  split
  · next same =>
      rw [same, fresh] at stored
      cases stored
  · exact stored

theorem notMem_keys_of_fresh {store : Store K V} {key : K} (fresh : store.lookup key = none) :
    key ∉ store.keys := by
  rw [Finmap.mem_keys]
  exact Finmap.lookup_eq_none.mp fresh

theorem card_insert {store : Store K V} {key : K} (fresh : store.lookup key = none) (value : V) :
    (store.insert key value).keys.card = store.keys.card + 1 := by
  rw [keys_insert, Finset.card_insert_of_notMem (notMem_keys_of_fresh fresh)]

/-- How many of the stored values have the property `p`. -/
def count (p : V → Bool) (store : Store K V) : Nat :=
  (store.keys.filter fun key => (store.lookup key).any p).card

@[simp] theorem count_empty (p : V → Bool) : count p (∅ : Store K V) = 0 := by
  simp [count]

theorem count_insert {store : Store K V} {key : K} (fresh : store.lookup key = none)
    (p : V → Bool) (value : V) :
    count p (store.insert key value) = count p store + if p value then 1 else 0 := by
  have absent := notMem_keys_of_fresh fresh
  have others : (store.keys.filter fun other => ((store.insert key value).lookup other).any p) =
      store.keys.filter fun other => (store.lookup other).any p := by
    apply Finset.filter_congr
    intro other member
    have ne : other ≠ key := by
      intro same
      exact absent (same ▸ member)
    rw [lookup_insert_ite, if_neg ne]
  have here : ((store.insert key value).lookup key).any p = p value := by
    rw [lookup_insert_ite, if_pos rfl, Option.any_some]
  unfold count
  rw [keys_insert, Finset.filter_insert, others, here]
  by_cases counted : p value = true
  · rw [if_pos counted, if_pos counted, Finset.card_insert_of_notMem]
    intro member
    exact absent (Finset.mem_of_mem_filter key member)
  · rw [if_neg counted, if_neg counted, Nat.add_zero]

end Store

end CarbonChain
