import Mathlib.Data.List.Infix

/-!
# The cache

`CacheService` of `api/src/common/cache.service.ts` keeps values under keys in Redis, and
nothing without a connection. Redis is taken to answer; entries do not expire, so that what
is said of an entry holds while it lives. A pattern is a glob, of which only the wildcard
`*` is used.
-/

namespace CarbonChain.Caching

/-- Redis `KEYS`: `*` stands for any characters. -/
def globMatches : (pattern key : List Char) → Bool
  | [], key => key.isEmpty
  | p :: pattern, key =>
      if p = '*' then key.tails.any (globMatches pattern)
      else
        match key with
        | [] => false
        | c :: key => p == c && globMatches pattern key

/-- The service (12-15) with the entries of its client; there is no client without a
connection. -/
structure CacheService (V : Type) where
  client : Option (List (String × V))

namespace CacheService

variable {V : Type} (cache : CacheService V)

/-- `get` (55-66). -/
def get (key : String) : Option V := cache.client.bind (·.lookup key)

/-- `set` (71-81): an entry under the key is replaced. -/
def set (key : String) (value : V) : CacheService V where
  client := cache.client.map fun entries => (key, value) :: entries.filter (·.1 ≠ key)

/-- `del` (86-95). -/
def del (keys : List String) : CacheService V where
  client := cache.client.map fun entries => entries.filter (·.1 ∉ keys)

/-- The keys that match the pattern. -/
def keys (pattern : String) : List String :=
  ((cache.client.getD []).map Prod.fst).filter (globMatches pattern.toList ·.toList)

/-- `delPattern` (100-115). -/
def delPattern (pattern : String) : CacheService V := cache.del (cache.keys pattern)

theorem get_of_disconnected {cache : CacheService V} (disconnected : cache.client = none)
    (key : String) : cache.get key = none := by
  rw [get, disconnected, Option.bind_none]

theorem lookup_filter_key (keep : String → Bool) (entries : List (String × V)) (key : String) :
    (entries.filter fun entry => keep entry.1).lookup key =
      if keep key then entries.lookup key else none := by
  induction entries with
  | nil => simp
  | cons entry entries ih =>
      obtain ⟨key', value⟩ := entry
      by_cases same : key = key'
      · subst same
        by_cases kept : keep key <;> simp [kept, ih]
      · have differs : (key == key') = false := beq_eq_false_iff_ne.mpr same
        by_cases kept : keep key' <;> simp [List.lookup_cons, kept, differs, ih]

@[simp] theorem get_del (keys : List String) (key : String) :
    (cache.del keys).get key = if key ∈ keys then none else cache.get key := by
  cases connection : cache.client with
  | none => simp [get, del, connection]
  | some entries =>
      have deleted := lookup_filter_key (fun key => decide (key ∉ keys)) entries key
      by_cases listed : key ∈ keys <;> simpa [get, del, connection, listed] using deleted

/-- A stored value is read back while there is a connection. -/
theorem get_set (key other : String) (value : V) :
    (cache.set key value).get other =
      if other = key then cache.client.map fun _ => value else cache.get other := by
  cases connection : cache.client with
  | none => simp [get, set, connection]
  | some entries =>
      have others := lookup_filter_key (fun other => decide (other ≠ key)) entries other
      by_cases same : other = key
      · simp [get, set, connection, same]
      · have differs : (other == key) = false := beq_eq_false_iff_ne.mpr same
        simpa [get, set, connection, same, differs, List.lookup_cons] using others

/-- A key that is not among the stored ones has no value. -/
theorem get_of_unlisted {key : String} (unlisted : key ∉ (cache.client.getD []).map Prod.fst) :
    cache.get key = none := by
  cases connection : cache.client with
  | none => exact get_of_disconnected connection key
  | some entries =>
      rw [connection, Option.getD_some] at unlisted
      rw [get, connection, Option.bind_some, List.lookup_eq_none_iff]
      intro entry listed
      rw [bne_iff_ne]
      rintro rfl
      exact unlisted (List.mem_map_of_mem listed)

@[simp] theorem get_delPattern (pattern key : String) :
    (cache.delPattern pattern).get key =
      if globMatches pattern.toList key.toList then none else cache.get key := by
  rw [delPattern, get_del, keys]
  by_cases listed : key ∈ (cache.client.getD []).map Prod.fst
  · simp only [List.mem_filter, listed, true_and]
  · rw [cache.get_of_unlisted listed]
    simp

end CacheService

/-- A pattern that ends in its only wildcard matches the keys that start with the rest of it. -/
theorem globMatches_star {start : List Char} (plain : '*' ∉ start) (key : List Char) :
    globMatches (start ++ ['*']) key ↔ start <+: key := by
  induction start generalizing key with
  | nil => simp [globMatches]
  | cons p start ih =>
      rw [List.mem_cons, not_or] at plain
      cases key with
      | nil => simp [globMatches, Ne.symm plain.1]
      | cons c key => simp [globMatches, Ne.symm plain.1, ih plain.2, List.cons_prefix_cons]

end CarbonChain.Caching
