import CarbonChain.Retirement.Contract

/-!
# The paginated queries

`list_verifiers_paginated` (`contracts/credit_registry/src/lib.rs:216-227`) and
`get_retirements_paginated` (`contracts/retirement/src/lib.rs:350-370`) compute the
positions of a page in unsigned 32-bit numbers. Up to the last page whose end is such a
number they partition their list; past it they trap, however short the list is.
-/

namespace CarbonChain

open Paging (Exact clamp)

namespace Registry

/-- The loop of `list_verifiers` copies the first elements of a long enough list. -/
theorem copyLoop_eq {E : Type} (all : List Address) {n : Nat} (enough : n ≤ all.length) :
    ((List.range n).foldlM (fun out i => do return out ++ [← unwrap all[i]?]) [] :
      Outcome E (List Address)) = .ok (all.take n) := by
  induction n with
  | zero => rfl
  | succ n ih =>
      have inside : n < all.length := enough
      rw [List.range_succ, List.foldlM_append, bind_eq_ok]
      refine ⟨all.take n, ih (Nat.le_of_lt inside), ?_⟩
      rw [List.foldlM_cons, List.getElem?_eq_getElem inside, List.take_add_one,
        List.getElem?_eq_getElem inside]
      rfl

theorem listVerifiers_eq (s : State) : listVerifiers s = .ok (s.roles.verifierSet.take 50) := by
  unfold listVerifiers
  by_cases short : s.roles.verifierSet.length ≤ 50
  · rw [List.take_of_length_le short]
    simp only [short, if_true]
    rfl
  · simp only [short, if_false]
    exact copyLoop_eq s.roles.verifierSet (by omega)

/-- `list_verifiers` is the first page of fifty. -/
theorem listVerifiers_eq_page (s : State) : listVerifiers s = listVerifiersPaginated s 0 50 := by
  rw [listVerifiers_eq, eq_comm]
  unfold listVerifiersPaginated
  rw [Paging.paginate_eq_ok]
  refine ⟨by decide, ?_⟩
  simp [Paging.slice, Paging.clamp]

end Registry

/-- Both paginated queries are exact, and `list_verifiers` is the first page of fifty, if and
only if the end of the page is a 32-bit position. -/
theorem paginated_queries_exact_iff (s : Registry.State) (r : Retirement.State)
    (account : Address) (page pageSize : Nat) :
    (Exact s.roles.verifierSet (Registry.listVerifiersPaginated s) page pageSize ∧
      Exact (r.getRetirementsByAccount account) (Retirement.getRetirementsPaginated r account)
        page pageSize ∧
      Registry.listVerifiers s = Registry.listVerifiersPaginated s 0 50) ↔
      (page + 1) * clamp pageSize < 2 ^ 32 := by
  have verifiers := Paging.exact_paginate_iff (E := Registry.CarbonChainError)
    s.roles.verifierSet page pageSize
  have retirements := Paging.exact_paginate_iff (E := Retirement.RetirementError)
    (r.getRetirementsByAccount account) page pageSize
  constructor
  · rintro ⟨listed, -, -⟩
    exact verifiers.mp listed
  · intro fits
    exact ⟨verifiers.mpr fits, retirements.mpr fits, Registry.listVerifiers_eq_page s⟩

set_option maxRecDepth 100000 in
/-- The last page of fifty traps for a registry with one verifier. -/
theorem lastPage_traps :
    ¬ (Exact ((Registry.machine BytesN32.mk).state (Registry.Sample.setup 1)).roles.verifierSet
        (Registry.listVerifiersPaginated
          ((Registry.machine BytesN32.mk).state (Registry.Sample.setup 1))) (2 ^ 32 - 1) 50 ∧
      Exact (Retirement.State.empty.getRetirementsByAccount Registry.Sample.issuer)
        (Retirement.getRetirementsPaginated Retirement.State.empty Registry.Sample.issuer)
        (2 ^ 32 - 1) 50 ∧
      Registry.listVerifiers ((Registry.machine BytesN32.mk).state (Registry.Sample.setup 1)) =
        Registry.listVerifiersPaginated
          ((Registry.machine BytesN32.mk).state (Registry.Sample.setup 1)) 0 50) := by
  rintro ⟨listed, -, -⟩
  have fits := (Paging.exact_paginate_iff _ (2 ^ 32 - 1) 50).mp listed
  exact absurd fits (by decide)

end CarbonChain
