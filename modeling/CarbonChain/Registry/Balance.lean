import CarbonChain.Registry.Tonnes
import Mathlib.Algebra.BigOperators.Group.Finset.Basic
import Mathlib.Algebra.Order.BigOperators.Group.Finset

/-!
# CreditRegistry: the balance of tonnes

What was submitted is in circulation or was retired through the retirement contract, to the
last micro-tonne, but for one entry of the balance: a merge
(`contracts/credit_registry/src/lib.rs:850-953`) that lists a credit `n` times brings its
tonnes into circulation `n` times and takes them out once.
-/

namespace CarbonChain.Registry

variable {sha256 : Bytes → BytesN32}

/-! ## The entries of the balance -/

/-- The credit that a call retires for the retirement contract. -/
def Call.redeems : Call → Option BytesN32
  | .markRetired id => some id
  | _ => none

/-- The tonnes that a call retires for the retirement contract. -/
def Ledger.redeemedBy (ledger : Ledger) (call : Call) : Int :=
  call.redeems.elim 0 ledger.tonnesOf

/-- The tonnes that a merge of `ids` counts beyond the first time each of them is listed. -/
def Ledger.surplusOf (ledger : Ledger) (ids : List BytesN32) : Int :=
  (ids.map ledger.tonnesOf).sum - ∑ id ∈ ids.toFinset, ledger.tonnesOf id

/-- The tonnes retired through the retirement contract in a log. -/
def redeemedTonnes (log : List (Event State Invocation Ret)) : Int :=
  (log.map fun event => event.pre.ledger.redeemedBy event.input.call).sum

/-- The tonnes that the merges of a log counted more than once. -/
def surplusTonnes (log : List (Event State Invocation Ret)) : Int :=
  (log.map fun event => event.pre.ledger.surplusOf event.input.call.mergedIds).sum

/-- The surplus of a merge is what its ids weigh by the times that they are listed again. -/
theorem Ledger.surplusOf_eq (ledger : Ledger) (ids : List BytesN32) :
    ledger.surplusOf ids =
      ∑ id ∈ ids.toFinset, ((ids.count id : Int) - 1) * ledger.tonnesOf id := by
  unfold surplusOf
  rw [Finset.sum_list_map_count, ← Finset.sum_sub_distrib]
  apply Finset.sum_congr rfl
  intro id _
  rw [sub_mul, one_mul, nsmul_eq_mul]

theorem Ledger.tonnesOf_pos {ledger : Ledger} (positive : ledger.Positive) {id : BytesN32}
    (stored : ledger.getCredit id ≠ none) : 0 < ledger.tonnesOf id := by
  obtain ⟨credit, there⟩ := Option.ne_none_iff_exists'.mp stored
  rw [tonnesOf, there]
  exact positive id credit there

/-- A merge of stored credits has no surplus if and only if it lists none of them twice. -/
theorem Ledger.surplusOf_nonneg {ledger : Ledger} (positive : ledger.Positive)
    {ids : List BytesN32} (stored : ∀ id ∈ ids, ledger.getCredit id ≠ none) :
    0 ≤ ledger.surplusOf ids ∧ (ledger.surplusOf ids = 0 ↔ ids.Nodup) := by
  rw [surplusOf_eq]
  have listed : ∀ id ∈ ids.toFinset, 0 < ids.count id ∧ 0 < ledger.tonnesOf id := by
    intro id member
    have member := List.mem_toFinset.mp member
    exact ⟨List.count_pos_iff.mpr member, tonnesOf_pos positive (stored id member)⟩
  have nonneg : ∀ id ∈ ids.toFinset,
      0 ≤ ((ids.count id : Int) - 1) * ledger.tonnesOf id := by
    intro id member
    obtain ⟨counted, weighs⟩ := listed id member
    exact Int.mul_nonneg (by omega) weighs.le
  refine ⟨Finset.sum_nonneg nonneg, ?_⟩
  rw [Finset.sum_eq_zero_iff_of_nonneg nonneg, List.nodup_iff_count_le_one]
  constructor
  · intro balanced id
    by_cases member : id ∈ ids
    · obtain ⟨counted, weighs⟩ := listed id (List.mem_toFinset.mpr member)
      have zero := (Int.mul_eq_zero.mp (balanced id (List.mem_toFinset.mpr member)))
      omega
    · rw [List.count_eq_zero_of_not_mem member]
      exact Nat.zero_le 1
  · intro once id member
    obtain ⟨counted, -⟩ := listed id member
    have single : ids.count id = 1 := Nat.le_antisymm (once id) counted
    simp [single]

/-! ## What a call does to the sum -/

/-- Retiring the sources of a merge takes away each of them once, however often it is listed. -/
theorem retireLoop_circulating_toFinset {ids : List BytesN32} {before after : Ledger}
    (h : ids.foldlM retireOne before = .ok after)
    (live : ∀ id ∈ ids, ∃ credit, before.getCredit id = some credit ∧ credit.status = .active) :
    after.circulating = before.circulating - ∑ id ∈ ids.toFinset, before.tonnesOf id := by
  refine foldlM_ok_induct (fun ids after =>
    (∀ id ∈ ids, ∃ credit, before.getCredit id = some credit ∧ credit.status = .active) →
      after.circulating = before.circulating - ∑ id ∈ ids.toFinset, before.tonnesOf id) h
    (fun _ => by simp) ?_ live
  intro earlier id acc acc' looped ih iterated live
  have summed := ih fun other listed => live other (List.mem_append_left _ listed)
  obtain ⟨credit, found, active⟩ := live id (by simp)
  obtain ⟨current, stored, rfl⟩ := retireOne_ok iterated
  have listed : (earlier ++ [id]).toFinset = insert id earlier.toFinset := by
    ext other
    simp
  rw [(retireLoop_ok looped).getCredit] at stored
  rw [circulating_setCredit, (retireLoop_ok looped).getCredit, listed, summed]
  by_cases repeated : id ∈ earlier
  · rw [if_pos repeated, found, Option.map_some, Option.some.injEq] at stored
    subst stored
    rw [if_pos repeated, found, Finset.insert_eq_of_mem (List.mem_toFinset.mpr repeated)]
    simp [CreditMetadata.circulating]
  · rw [if_neg repeated, found, Option.some.injEq] at stored
    subst stored
    rw [if_neg repeated, found, Finset.sum_insert (by simpa using repeated)]
    simp [CreditMetadata.circulating, Ledger.tonnesOf, found, active]
    omega

/-- Overwriting a stored credit by one that contributes the same leaves the sum. -/
theorem circulating_rewrite (ledger : Ledger) {id : BytesN32} {credit : CreditMetadata}
    (credit' : CreditMetadata) (stored : ledger.getCredit id = some credit)
    (same : credit'.circulating = credit.circulating) :
    (ledger.setCredit id credit').circulating = ledger.circulating := by
  rw [circulating_setCredit, stored, same, Option.elim_some]
  omega

/-- A change of status leaves the contribution of a credit, unless the retirement contract
makes it. -/
theorem StatusChange.circulating_eq {call : Call} {id : BytesN32} {credit : CreditMetadata}
    {status : CreditStatus} (change : StatusChange call id credit.status status) :
    ({ credit with status } : CreditMetadata).circulating +
      call.redeems.elim 0 (fun _ => credit.tonnes) = credit.circulating := by
  generalize before : credit.status = old at change
  unfold CreditMetadata.circulating
  cases change <;> simp_all [Call.redeems]

theorem StatusChange.redeems {call : Call} {id : BytesN32} {old new : CreditStatus}
    (change : StatusChange call id old new) : ∀ other ∈ call.redeems, other = id := by
  cases change <;> simp [Call.redeems]

theorem StatusChange.mergedIds {call : Call} {id : BytesN32} {old new : CreditStatus}
    (change : StatusChange call id old new) : call.mergedIds = [] := by
  cases change <;> rfl

/-- The children of a split carry the tonnes of the original, and contribute as it did. -/
theorem split_circulating {ledger : Ledger} (inj : Function.Injective sha256)
    (derived : ledger.Derived sha256) {id : BytesN32} {original : CreditMetadata}
    (there : ledger.getCredit id = some original) {caller : Address} {splitTonnes : Int}
    {child1Id child2Id : BytesN32}
    (derived1 : child1Id = creditId sha256 (.bytes id) ledger.creditNonce)
    (derived2 : child2Id = creditId sha256 (.bytes id) (ledger.creditNonce + 1)) :
    ((((((ledger.advance 2).setCredit child1Id
      { original with tonnes := splitTonnes, owner := caller }).addCreditToProject
        original.projectId child1Id).setCredit child2Id
      { original with tonnes := original.tonnes - splitTonnes, owner := caller }
        ).addCreditToProject original.projectId child2Id).setCredit id
      { original with status := .retired }).circulating = ledger.circulating := by
  obtain ⟨siblings, absent1, absent2⟩ := derived.children inj derived1 derived2
  have ne1 := (Ledger.ne_of_absent there absent1).symm
  have ne2 := (Ledger.ne_of_absent there absent2).symm
  simp only [circulating_setCredit, circulating_addCreditToProject, circulating_advance,
    Ledger.getCredit_setCredit, Ledger.getCredit_addCreditToProject, Ledger.getCredit_advance,
    ne1, ne2, siblings.symm, absent1, absent2, there, if_false, Option.elim_some,
    Option.elim_none]
  unfold CreditMetadata.circulating
  simp only [if_true]
  split <;> omega

/-- A merge adds its surplus. -/
theorem merge_circulating_surplus {ledger after : Ledger} (inj : Function.Injective sha256)
    (derived : ledger.Derived sha256) {ids : List BytesN32} {mergedId : BytesN32}
    {merged : CreditMetadata} (active : merged.status = .active)
    (tonnes : merged.tonnes = (ids.map ledger.tonnesOf).sum)
    (sources : ∀ id ∈ ids, ∃ source, ledger.getCredit id = some source ∧ source.status = .active)
    (newDerived : mergedId = creditId sha256 (.string merged.projectId) ledger.creditNonce)
    (retired : ids.foldlM retireOne (((ledger.advance 1).setCredit mergedId
      merged).addCreditToProject merged.projectId mergedId) = .ok after) :
    after.circulating = ledger.circulating + ledger.surplusOf ids := by
  have absent : (ledger.advance 1).getCredit mergedId = none := derived.next inj newDerived
  have kept : ∀ id ∈ ids, (((ledger.advance 1).setCredit mergedId merged).addCreditToProject
      merged.projectId mergedId).getCredit id = ledger.getCredit id := by
    intro id listed
    obtain ⟨source, found, -⟩ := sources id listed
    have ne : mergedId ≠ id := Ledger.ne_of_absent found absent
    simp [ne.symm]
  have summed := retireLoop_circulating_toFinset retired (by
    intro id listed
    rw [kept id listed]
    exact sources id listed)
  have weighed : ∑ id ∈ ids.toFinset, (((ledger.advance 1).setCredit mergedId
      merged).addCreditToProject merged.projectId mergedId).tonnesOf id =
        ∑ id ∈ ids.toFinset, ledger.tonnesOf id := by
    apply Finset.sum_congr rfl
    intro id member
    unfold Ledger.tonnesOf
    rw [kept id (List.mem_toFinset.mp member)]
  have contributes : merged.circulating = (ids.map ledger.tonnesOf).sum := by
    unfold CreditMetadata.circulating
    rw [active, if_neg (by decide), tonnes]
  rw [summed, weighed, circulating_addCreditToProject, circulating_new absent,
    circulating_advance, contributes, Ledger.surplusOf]
  omega

/-- The balance of one invocation. -/
theorem Effect.balance {env : Env} {s : State} {call : Call} {ret : Ret} {after : Ledger}
    (inj : Function.Injective sha256) (derived : s.ledger.Derived sha256)
    (effect : Effect sha256 env s call ret after) :
    after.circulating + s.ledger.redeemedBy call = s.ledger.circulating +
      call.submission.elim 0 (·.tonnes) + s.ledger.surplusOf call.mergedIds := by
  have unmerged : s.ledger.surplusOf [] = 0 := by simp [Ledger.surplusOf]
  cases effect with
  | unchanged _ _ quiet =>
      have idle : call.redeems = none ∧ call.mergedIds = [] := by
        cases call <;> first | exact ⟨rfl, rfl⟩ | cases quiet
      rw [submission_of_quiet quiet, Ledger.redeemedBy, idle.1, idle.2, unmerged]
      simp
  | submitted _ sub newId submission hasAdmin authorised positive unique newDerived =>
      have absent : (s.ledger.advance 1).getCredit newId = none := derived.next inj newDerived
      have idle : call.redeems = none ∧ call.mergedIds = [] := by
        cases call <;> first | exact ⟨rfl, rfl⟩ | cases submission
      rw [submission, Ledger.redeemedBy, idle.1, idle.2, unmerged]
      simp only [circulating_addCreditToProject, circulating_setCreditByProjectVintage,
        circulating_new absent, circulating_advance]
      simp [Submission.credit, CreditMetadata.circulating]
  | approved verifier target nonce found authorised registered there pending first short =>
      have same := circulating_rewrite (s.ledger.setCreditApprovals target
        (s.ledger.getCreditApprovals target ++ [verifier])) found there rfl
      simpa [Call.submission, Call.mergedIds, Ledger.redeemedBy, Call.redeems, unmerged] using same
  | minted verifier target nonce found authorised registered there pending first enough =>
      have same := circulating_rewrite (s.ledger.setCreditApprovals target
        (s.ledger.getCreditApprovals target ++ [verifier])) { found with status := .active } there
        (by simp [CreditMetadata.circulating, pending])
      simpa [Call.submission, Call.mergedIds, Ledger.redeemedBy, Call.redeems, unmerged] using same
  | restatused _ target found status dispute there change trusted =>
      have lost := change.circulating_eq
      have redeemed : s.ledger.redeemedBy call = call.redeems.elim 0 fun _ => found.tonnes := by
        unfold Ledger.redeemedBy
        cases named : call.redeems with
        | none => rfl
        | some other =>
            rw [change.redeems other named]
            simp [Ledger.tonnesOf, there]
      rw [change.submission, change.mergedIds, unmerged, redeemed, circulating_withDispute,
        circulating_setCredit, there]
      simp only [Option.elim_some, Option.elim_none]
      omega
  | transferred sender recipient target nonce found authorised there owned =>
      have same := circulating_rewrite s.ledger { found with owner := recipient } there rfl
      simpa [Call.submission, Call.mergedIds, Ledger.redeemedBy, Call.redeems, unmerged] using same
  | split caller target splitTonnes nonce original child1Id child2Id authorised there owned
      positive proper derived1 derived2 =>
      rw [split_circulating inj derived there derived1 derived2]
      simp [Call.submission, Call.mergedIds, Ledger.redeemedBy, Call.redeems, unmerged]
  | merged caller ids mergedId merged _ authorised several owner active tonnes sources newDerived
      retired =>
      have live : ∀ id ∈ ids, ∃ source, s.ledger.getCredit id = some source ∧
          source.status = .active := by
        intro id listed
        obtain ⟨source, found, -, active, -⟩ := sources id listed
        exact ⟨source, found, active⟩
      rw [merge_circulating_surplus inj derived active tonnes live newDerived retired]
      simp [Call.submission, Call.mergedIds, Ledger.redeemedBy, Call.redeems]

/-- A successful merge has no surplus if and only if it lists no credit twice. -/
theorem Effect.surplus {env : Env} {s : State} {call : Call} {ret : Ret} {after : Ledger}
    (positive : s.ledger.Positive) (effect : Effect sha256 env s call ret after) :
    0 ≤ s.ledger.surplusOf call.mergedIds ∧
      (s.ledger.surplusOf call.mergedIds = 0 ↔ call.mergedIds.Nodup) := by
  apply Ledger.surplusOf_nonneg positive
  intro id listed
  cases call with
  | mergeCredits caller ids =>
      obtain ⟨-, -, -, -, sources, -⟩ := effect.of_mergeCredits
      obtain ⟨source, stored, -⟩ := sources id listed
      rw [stored]
      exact Option.some_ne_none source
  | _ => cases listed

/-! ## Runs -/

/-- The balance of every run, and when it has no surplus. -/
theorem balanced (inj : Function.Injective sha256) (inputs : List Invocation) :
    ((machine sha256).state inputs).ledger.circulating +
        redeemedTonnes ((machine sha256).log inputs) =
      submittedTonnes ((machine sha256).log inputs) +
        surplusTonnes ((machine sha256).log inputs) ∧
    0 ≤ surplusTonnes ((machine sha256).log inputs) ∧
    (surplusTonnes ((machine sha256).log inputs) = 0 ↔
      ∀ event ∈ (machine sha256).log inputs, event.input.call.mergedIds.Nodup) := by
  refine ((machine sha256).run_induct (fun log s => (s.ledger.Derived sha256 ∧
    s.ledger.Positive) ∧ s.ledger.circulating + redeemedTonnes log =
      submittedTonnes log + surplusTonnes log ∧ 0 ≤ surplusTonnes log ∧
      (surplusTonnes log = 0 ↔ ∀ event ∈ log, event.input.call.mergedIds.Nodup))
    ?_ ?_ inputs).2
  · refine ⟨⟨derived_init, ?_⟩, rfl, le_refl _, ?_⟩
    · intro id credit stored
      cases stored
    · simp [surplusTonnes]
  · intro log event ⟨⟨derived, positive⟩, balance, nonneg, once⟩ commits
    have effect := exec_effect sha256 event.pre commits
    have step := effect.balance inj derived
    obtain ⟨more, single⟩ := effect.surplus positive
    have surplus : surplusTonnes (log ++ [event]) =
        surplusTonnes log + event.pre.ledger.surplusOf event.input.call.mergedIds := by
      simp [surplusTonnes]
    have redeemed : redeemedTonnes (log ++ [event]) =
        redeemedTonnes log + event.pre.ledger.redeemedBy event.input.call := by
      simp [redeemedTonnes]
    have submitted : submittedTonnes (log ++ [event]) =
        submittedTonnes log + event.input.call.submission.elim 0 (·.tonnes) := by
      simp [submittedTonnes]
    refine ⟨⟨effect.derived derived, effect.positive inj derived positive⟩, ?_, ?_, ?_⟩
    · rw [surplus, redeemed, submitted]
      omega
    · rw [surplus]
      omega
    · rw [surplus]
      constructor
      · intro zero e logged
        rcases List.mem_append.mp logged with before | last
        · exact once.mp (by omega) e before
        · rw [List.mem_singleton.mp last]
          exact single.mp (by omega)
      · intro all
        have earlier := once.mpr fun e logged => all e (List.mem_append_left _ logged)
        have last := single.mpr (all event List.mem_concat_self)
        omega

set_option maxRecDepth 100000 in
/-- The merge of a credit with itself has a surplus of its tonnes. -/
theorem mergeWithItself_balanced :
    ((machine BytesN32.mk).state Sample.mergeWithItself).ledger.circulating = 2000000 ∧
      surplusTonnes ((machine BytesN32.mk).log Sample.mergeWithItself) = 1000000 := by
  have balance := (balanced BytesN32.mk_injective Sample.mergeWithItself).1
  have circulating :
      ((machine BytesN32.mk).state Sample.mergeWithItself).ledger.circulating = 2000000 := by
    decide
  have redeemed : redeemedTonnes ((machine BytesN32.mk).log Sample.mergeWithItself) = 0 := by
    decide
  have submitted :
      submittedTonnes ((machine BytesN32.mk).log Sample.mergeWithItself) = 1000000 := by
    decide
  rw [circulating, redeemed, submitted] at balance
  exact ⟨circulating, by omega⟩

end CarbonChain.Registry
