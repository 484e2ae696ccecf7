import Mathlib.Data.List.Infix
import Mathlib.Data.List.Nodup

/-!
# Lists as maps

A list stands for a map from the positions to its elements: adding an element at the end
and replacing one each set the value of one position. A list in which no key occurs twice
also stands for a map from the keys. Putting an element in the place of the one with its
key, or at the end where there is none, sets the value of its key and no other.
-/

namespace CarbonChain.Positions

variable {A : Type} {list : List A} {i j : Nat} {a b : A}

/-- The elements after one more. -/
theorem getElem?_snoc (list : List A) (a : A) (i : Nat) :
    (list ++ [a])[i]? = if i = list.length then some a else list[i]? := by
  split
  · next last => rw [last, List.getElem?_concat_length]
  · next other =>
      rcases Nat.lt_or_gt_of_ne other with before | beyond
      · rw [List.getElem?_append_left before]
      · rw [List.getElem?_eq_none (Nat.le_of_lt beyond)]
        apply List.getElem?_eq_none
        rw [List.length_append, List.length_singleton]
        exact beyond

theorem getElem?_of_snoc (found : (list ++ [a])[i]? = some b) :
    list[i]? = some b ∨ i = list.length ∧ b = a := by
  rw [getElem?_snoc] at found
  split at found
  · next last => exact .inr ⟨last, (Option.some.inj found).symm⟩
  · exact .inl found

/-- An element keeps its position when one more comes. -/
theorem getElem?_snoc_of_some (there : list[i]? = some b) (a : A) :
    (list ++ [a])[i]? = some b := by
  obtain ⟨inside, -⟩ := List.getElem?_eq_some_iff.mp there
  rw [List.getElem?_append_left inside, there]

/-- The elements after one is replaced. -/
theorem getElem?_set_of_some (there : list[i]? = some b) (a : A) (j : Nat) :
    (list.set i a)[j]? = if j = i then some a else list[j]? := by
  obtain ⟨inside, -⟩ := List.getElem?_eq_some_iff.mp there
  split
  · next here => rw [here, List.getElem?_set_self inside]
  · next other => exact List.getElem?_set_ne (Ne.symm other)

theorem getElem?_of_set (found : (list.set i a)[j]? = some b) :
    j ≠ i ∧ list[j]? = some b ∨ j = i ∧ b = a := by
  by_cases here : j = i
  · subst here
    obtain ⟨inside, -⟩ := List.getElem?_eq_some_iff.mp found
    rw [List.length_set] at inside
    rw [List.getElem?_set_self inside] at found
    exact .inr ⟨rfl, (Option.some.inj found).symm⟩
  · rw [List.getElem?_set_ne (Ne.symm here)] at found
    exact .inl ⟨here, found⟩

end CarbonChain.Positions

namespace CarbonChain.Keyed

variable {K V : Type} [DecidableEq K] (key : V → K)

/-- The list with `v` in the place of the first element with the key `k`, or at the end. -/
def upsert (k : K) (v : V) (list : List V) : List V :=
  match list.findIdx? (key · = k) with
  | some i => list.take i ++ v :: list.drop (i + 1)
  | none => list ++ [v]

variable {key} {k : K} {v : V} {list : List V}

theorem find?_eq_some_iff (distinct : (list.map key).Nodup) {x : V} :
    list.find? (key · = k) = some x ↔ x ∈ list ∧ key x = k := by
  constructor
  · intro found
    exact ⟨List.mem_of_find?_eq_some found, by simpa using List.find?_some found⟩
  · rintro ⟨listed, rfl⟩
    have exists_ : (list.find? (key · = key x)).isSome := by
      rw [List.find?_isSome]
      exact ⟨x, listed, by simp⟩
    obtain ⟨y, found⟩ := Option.isSome_iff_exists.mp exists_
    have same : key y = key x := by simpa using List.find?_some found
    rw [found, List.inj_on_of_nodup_map distinct (List.mem_of_find?_eq_some found) listed same]

/-- The two places where an element can go. -/
theorem upsert_cases (key : V → K) (k : K) (v : V) (list : List V) :
    (∀ x ∈ list, key x ≠ k) ∧ upsert key k v list = list ++ [v] ∨
      ∃ before old after, list = before ++ old :: after ∧ key old = k ∧
        upsert key k v list = before ++ v :: after := by
  unfold upsert
  cases found : list.findIdx? (key · = k) with
  | none => exact .inl ⟨by simpa using List.findIdx?_eq_none_iff.mp found, rfl⟩
  | some i =>
      obtain ⟨inside, its, -⟩ := List.findIdx?_eq_some_iff_getElem.mp found
      refine .inr ⟨list.take i, list[i], list.drop (i + 1), ?_, by simpa using its, rfl⟩
      rw [List.getElem_cons_drop, List.take_append_drop]

/-- Where no key occurs twice, the element replaces the one with its key. -/
theorem mem_upsert (distinct : (list.map key).Nodup) {x : V} :
    x ∈ upsert key k v list ↔ x = v ∨ x ∈ list ∧ key x ≠ k := by
  rcases upsert_cases key k v list with ⟨absent, added⟩ | ⟨before, old, after, rfl, rfl, placed⟩
  · rw [added, List.mem_append, List.mem_singleton, or_comm]
    exact or_congr_right ⟨fun listed => ⟨listed, absent x listed⟩, And.left⟩
  · rw [List.map_append, List.map_cons, List.nodup_middle, List.nodup_cons, ← List.map_append]
      at distinct
    have apart : ∀ y ∈ before ++ after, key y ≠ key old := fun y listed same =>
      distinct.1 (same ▸ List.mem_map_of_mem listed)
    simp only [List.mem_append] at apart
    rw [placed]
    simp only [List.mem_append, List.mem_cons]
    constructor
    · rintro (listed | same | listed)
      · exact .inr ⟨.inl listed, apart x (.inl listed)⟩
      · exact .inl same
      · exact .inr ⟨.inr (.inr listed), apart x (.inr listed)⟩
    · rintro (same | ⟨listed | same | listed, other⟩)
      · exact .inr (.inl same)
      · exact .inl listed
      · exact absurd (congrArg key same) other
      · exact .inr (.inr listed)

/-- No key comes to occur twice. -/
theorem nodup_upsert (distinct : (list.map key).Nodup) (its : key v = k) :
    ((upsert key k v list).map key).Nodup := by
  rcases upsert_cases key k v list with ⟨absent, added⟩ | ⟨before, old, after, rfl, same, placed⟩
  · rw [added, List.map_append, List.map_singleton, List.nodup_append_comm, its]
    refine List.nodup_cons.mpr ⟨?_, distinct⟩
    intro listed
    obtain ⟨x, member, same⟩ := List.mem_map.mp listed
    exact absent x member same
  · rw [placed, List.map_append, List.map_cons, its, ← same, ← List.map_cons, ← List.map_append]
    exact distinct

/-- The value of the key is the new one, and that of any other key is what it was. -/
theorem find?_upsert (distinct : (list.map key).Nodup) (its : key v = k) (other : K) :
    (upsert key k v list).find? (key · = other) =
      if other = k then some v else list.find? (key · = other) := by
  apply Option.ext
  intro x
  rw [find?_eq_some_iff (nodup_upsert distinct its), mem_upsert distinct]
  split
  · next same =>
      subst same
      constructor
      · rintro ⟨rfl | ⟨-, apart⟩, found⟩
        · rfl
        · exact absurd found apart
      · intro written
        obtain rfl := Option.some.inj written
        exact ⟨.inl rfl, its⟩
  · next apart =>
      rw [find?_eq_some_iff distinct]
      constructor
      · rintro ⟨rfl | ⟨listed, -⟩, found⟩
        · exact absurd (found.symm.trans its) apart
        · exact ⟨listed, found⟩
      · rintro ⟨listed, found⟩
        exact ⟨.inr ⟨listed, found ▸ apart⟩, found⟩

/-- The keys there are keep their places. -/
theorem prefix_upsert (its : key v = k) : list.map key <+: (upsert key k v list).map key := by
  rcases upsert_cases key k v list with ⟨-, added⟩ | ⟨before, old, after, rfl, same, placed⟩
  · rw [added, List.map_append]
    exact List.prefix_append _ _
  · rw [placed, List.map_append, List.map_append, List.map_cons, List.map_cons, its, same]

end CarbonChain.Keyed
