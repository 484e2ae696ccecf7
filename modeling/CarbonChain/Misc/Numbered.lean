import CarbonChain.Misc.Store

/-!
# Numbered items with an index

Items are stored under consecutive ids, and an index lists the ids of the items of each key.
The counter, the store and the index are written apart from each other; an item can change
later, but not its key.
-/

namespace CarbonChain

variable {K A : Type} [DecidableEq K]

/-- The items have the ids below the count, and the index of a key lists those of its items. -/
structure Numbered (key : A → K) (items : Store Nat A) (count : Nat) (index : K → List Nat) :
    Prop where
  stored : ∀ id, items.lookup id ≠ none ↔ id < count
  listed : ∀ k, index k = (List.range count).filter fun id => (items.lookup id).map key = some k

namespace Numbered

variable {key : A → K} {items items' : Store Nat A} {count : Nat} {index index' : K → List Nat}

theorem empty (key : A → K) : Numbered key ∅ 0 fun _ => [] := by
  refine ⟨?_, fun _ => rfl⟩
  intro id
  simp

theorem exists_iff (numbered : Numbered key items count index) (id : Nat) :
    (∃ item, items.lookup id = some item) ↔ id < count := by
  rw [← numbered.stored, Option.ne_none_iff_exists']

theorem sorted (numbered : Numbered key items count index) (k : K) :
    (index k).Pairwise (· < ·) := by
  rw [numbered.listed]
  exact List.pairwise_lt_range.filter _

theorem mem_index (numbered : Numbered key items count index) {k : K} {id : Nat} :
    id ∈ index k ↔ ∃ item, items.lookup id = some item ∧ key item = k := by
  rw [numbered.listed, List.mem_filter, List.mem_range, ← numbered.stored, decide_eq_true_eq,
    Option.map_eq_some_iff]
  constructor
  · exact And.right
  · intro stored
    rcases stored with ⟨item, found, its⟩
    refine ⟨?_, item, found, its⟩
    rw [found]
    exact Option.some_ne_none item

/-- The next item goes to the end of the list of its key. -/
theorem filter_insert (numbered : Numbered key items count index) (item : A) (k : K) :
    (List.range (count + 1)).filter
        (fun id => ((items.insert count item).lookup id).map key = some k) =
      if key item = k then index k ++ [count] else index k := by
  have earlier : (List.range count).filter
      (fun id => ((items.insert count item).lookup id).map key = some k) = index k := by
    rw [numbered.listed]
    apply List.filter_congr
    intro id listed
    rw [Store.lookup_insert_ite, if_neg (Nat.ne_of_lt (List.mem_range.mp listed))]
  rw [List.range_succ, List.filter_append, earlier]
  by_cases its : key item = k
  · simp [its]
  · simp [its]

theorem push (numbered : Numbered key items count index) (item : A)
    (indexed : ∀ k, index' k = if key item = k then index k ++ [count] else index k) :
    Numbered key (items.insert count item) (count + 1) index' := by
  refine ⟨?_, ?_⟩
  · intro id
    rw [Store.lookup_insert_ite]
    by_cases new : id = count
    · simp [new]
    · rw [if_neg new, numbered.stored]
      omega
  · intro k
    rw [indexed, numbered.filter_insert]

/-- The index stays exact as long as every item keeps its key. -/
theorem update (numbered : Numbered key items count index)
    (same : ∀ id, (items'.lookup id).map key = (items.lookup id).map key) :
    Numbered key items' count index := by
  refine ⟨?_, ?_⟩
  · intro id
    rw [← numbered.stored, ne_eq, ← Option.map_eq_none_iff (f := key), same,
      Option.map_eq_none_iff]
  · intro k
    simp only [same]
    exact numbered.listed k

end Numbered

end CarbonChain
