import CarbonChain.Registry.Evolution
import Mathlib.Algebra.Order.BigOperators.Group.List
import Mathlib.Algebra.Order.Ring.Int

/-!
# CreditRegistry: the tonnes in circulation

The tonnes of the credits that are not retired, summed over the whole store, against the
tonnes submitted in the run. No invocation raises the first by more than the second, with
one exception: `merge_credits` (`contracts/credit_registry/src/lib.rs:850-953`) adds a
source once for each time the caller lists it and retires it once.
-/

namespace CarbonChain.Registry

variable {sha256 : Bytes → BytesN32}

/-- The tonnes a credit contributes: none once it is retired. -/
def CreditMetadata.circulating (credit : CreditMetadata) : Int :=
  if credit.status = .retired then 0 else credit.tonnes

/-- The tonnes of all stored credits that are not retired. -/
def Ledger.circulating (ledger : Ledger) : Int :=
  ledger.credit.total CreditMetadata.circulating

/-- The tonnes that the submissions of a log asked for. -/
def submittedTonnes (log : List (Event State Invocation Ret)) : Int :=
  (log.map fun event => event.input.call.submission.elim 0 (·.tonnes)).sum

/-- The ids that a call merges. -/
def Call.mergedIds : Call → List BytesN32
  | .mergeCredits _ ids => ids
  | _ => []

/-- Every stored credit is of a positive amount. -/
def Ledger.Positive (ledger : Ledger) : Prop :=
  ∀ id credit, ledger.getCredit id = some credit → 0 < credit.tonnes

/-! ## What a write does to the sum -/

theorem circulating_setCredit (ledger : Ledger) (id : BytesN32) (credit : CreditMetadata) :
    (ledger.setCredit id credit).circulating =
      ledger.circulating - (ledger.getCredit id).elim 0 CreditMetadata.circulating +
        credit.circulating :=
  Store.total_insert CreditMetadata.circulating ledger.credit id credit

@[simp] theorem circulating_addCreditToProject (ledger : Ledger) (projectId : String)
    (id : BytesN32) : (ledger.addCreditToProject projectId id).circulating = ledger.circulating :=
  rfl

@[simp] theorem circulating_setCreditByProjectVintage (ledger : Ledger) (projectId : String)
    (vintageYear : Nat) (id : BytesN32) :
    (ledger.setCreditByProjectVintage projectId vintageYear id).circulating =
      ledger.circulating := rfl

@[simp] theorem circulating_setCreditApprovals (ledger : Ledger) (id : BytesN32)
    (approvals : List Address) :
    (ledger.setCreditApprovals id approvals).circulating = ledger.circulating := rfl

@[simp] theorem circulating_removeCreditApprovals (ledger : Ledger) (id : BytesN32) :
    (ledger.removeCreditApprovals id).circulating = ledger.circulating := rfl

@[simp] theorem circulating_withDispute (ledger : Ledger) (dispute : Store BytesN32 String) :
    (ledger.withDispute dispute).circulating = ledger.circulating := rfl

@[simp] theorem circulating_advance (ledger : Ledger) (n : Nat) :
    (ledger.advance n).circulating = ledger.circulating := rfl

/-- Overwriting a stored credit by one that contributes no more does not raise the sum. -/
theorem circulating_overwrite (ledger : Ledger) {id : BytesN32} {credit : CreditMetadata}
    (credit' : CreditMetadata) (stored : ledger.getCredit id = some credit)
    (le : credit'.circulating ≤ credit.circulating) :
    (ledger.setCredit id credit').circulating ≤ ledger.circulating := by
  rw [circulating_setCredit, stored]
  simp only [Option.elim_some]
  omega

/-- A credit under a new id adds what it contributes. -/
theorem circulating_new {ledger : Ledger} {id : BytesN32} {credit : CreditMetadata}
    (absent : ledger.getCredit id = none) :
    (ledger.setCredit id credit).circulating = ledger.circulating + credit.circulating := by
  rw [circulating_setCredit, absent]
  simp

/-- Retiring the sources of a merge takes away each of them once. -/
theorem retireLoop_circulating {ids : List BytesN32} {before after : Ledger}
    (h : ids.foldlM retireOne before = .ok after) (distinct : ids.Nodup)
    (live : ∀ id ∈ ids, ∃ credit, before.getCredit id = some credit ∧ credit.status = .active) :
    after.circulating = before.circulating - (ids.map before.tonnesOf).sum := by
  refine foldlM_ok_induct (fun ids after => ids.Nodup →
    (∀ id ∈ ids, ∃ credit, before.getCredit id = some credit ∧ credit.status = .active) →
      after.circulating = before.circulating - (ids.map before.tonnesOf).sum) h
    (fun _ _ => by simp) ?_ distinct live
  intro earlier id acc acc' looped ih iterated distinct live
  have swapped : (id :: earlier).Nodup := List.nodup_append_comm.mp distinct
  obtain ⟨unlisted, distinct⟩ := List.nodup_cons.mp swapped
  obtain ⟨credit, found, active⟩ := live id (by simp)
  obtain ⟨current, stored, rfl⟩ := retireOne_ok iterated
  -- the earlier iterations retired other credits than this one
  rw [(retireLoop_ok looped).getCredit, if_neg unlisted, found] at stored
  obtain rfl := Option.some.inj stored
  have summed := ih distinct fun other listed => live other (List.mem_append_left _ listed)
  rw [circulating_setCredit, (retireLoop_ok looped).getCredit, if_neg unlisted, found, summed]
  simp [CreditMetadata.circulating, Ledger.tonnesOf, found, active]
  omega

/-! ## Step lemmas -/

theorem StatusChange.circulating_le {call : Call} {id : BytesN32} {credit : CreditMetadata}
    {status : CreditStatus} (change : StatusChange call id credit.status status)
    (positive : 0 < credit.tonnes) :
    ({ credit with status } : CreditMetadata).circulating ≤ credit.circulating := by
  have unretired : credit.status ≠ .retired := by
    intro retired
    rw [retired] at change
    cases change <;> contradiction
  unfold CreditMetadata.circulating
  rw [if_neg unretired]
  split
  · omega
  · exact le_refl _

/-- The children of a split carry the tonnes of the original, which is retired. -/
theorem split_circulating_le {ledger : Ledger} (inj : Function.Injective sha256)
    (derived : ledger.Derived sha256) {id : BytesN32} {original : CreditMetadata}
    (there : ledger.getCredit id = some original) {caller : Address} {splitTonnes : Int}
    {child1Id child2Id : BytesN32}
    (derived1 : child1Id = creditId sha256 (.bytes id) ledger.creditNonce)
    (derived2 : child2Id = creditId sha256 (.bytes id) (ledger.creditNonce + 1)) :
    ((((((ledger.advance 2).setCredit child1Id
      { original with tonnes := splitTonnes, owner := caller }).addCreditToProject
        original.projectId child1Id).setCredit child2Id
      { original with tonnes := original.tonnes - splitTonnes, owner := caller }
        ).addCreditToProject original.projectId child2Id).setCredit id
      { original with status := .retired }).circulating ≤ ledger.circulating := by
  obtain ⟨siblings, absent1, absent2⟩ := derived.children inj derived1 derived2
  have ne1 := (Ledger.ne_of_absent there absent1).symm
  have ne2 := (Ledger.ne_of_absent there absent2).symm
  simp only [circulating_setCredit, circulating_addCreditToProject, circulating_advance,
    Ledger.getCredit_setCredit, Ledger.getCredit_addCreditToProject, Ledger.getCredit_advance,
    ne1, ne2, siblings.symm, absent1, absent2, there, if_false, Option.elim_some,
    Option.elim_none]
  unfold CreditMetadata.circulating
  simp only [if_true]
  split <;> omega

/-- A merge of distinct credits puts their tonnes into the new credit and retires them. -/
theorem merge_circulating {ledger after : Ledger} (inj : Function.Injective sha256)
    (derived : ledger.Derived sha256) {ids : List BytesN32} {mergedId : BytesN32}
    {merged : CreditMetadata} (distinct : ids.Nodup) (active : merged.status = .active)
    (tonnes : merged.tonnes = (ids.map ledger.tonnesOf).sum)
    (sources : ∀ id ∈ ids, ∃ source, ledger.getCredit id = some source ∧ source.status = .active)
    (newDerived : mergedId = creditId sha256 (.string merged.projectId) ledger.creditNonce)
    (retired : ids.foldlM retireOne (((ledger.advance 1).setCredit mergedId
      merged).addCreditToProject merged.projectId mergedId) = .ok after) :
    after.circulating = ledger.circulating := by
  have absent : (ledger.advance 1).getCredit mergedId = none := derived.next inj newDerived
  have unlisted : mergedId ∉ ids := by
    intro listed
    obtain ⟨source, found, -⟩ := sources mergedId listed
    rw [Ledger.getCredit_advance, found] at absent
    cases absent
  have kept : ∀ id ∈ ids, (((ledger.advance 1).setCredit mergedId merged).addCreditToProject
      merged.projectId mergedId).getCredit id = ledger.getCredit id := by
    intro id listed
    have ne : id ≠ mergedId := by
      rintro rfl
      exact unlisted listed
    simp [ne]
  have live : ∀ id ∈ ids, ∃ source, (((ledger.advance 1).setCredit mergedId
      merged).addCreditToProject merged.projectId mergedId).getCredit id = some source ∧
        source.status = .active := by
    intro id listed
    rw [kept id listed]
    exact sources id listed
  have summed := retireLoop_circulating retired distinct live
  have same : ids.map (((ledger.advance 1).setCredit mergedId merged).addCreditToProject
      merged.projectId mergedId).tonnesOf = ids.map ledger.tonnesOf := by
    apply List.map_congr_left
    intro id listed
    unfold Ledger.tonnesOf
    rw [kept id listed]
  have contributes : merged.circulating = (ids.map ledger.tonnesOf).sum := by
    unfold CreditMetadata.circulating
    rw [active, if_neg (by decide), tonnes]
  rw [summed, same, circulating_addCreditToProject, circulating_new absent, circulating_advance,
    contributes]
  omega

/-- One invocation raises the tonnes in circulation by the tonnes it submits at most. -/
theorem Effect.circulating_le {env : Env} {s : State} {call : Call} {ret : Ret} {after : Ledger}
    (inj : Function.Injective sha256) (derived : s.ledger.Derived sha256)
    (positive : s.ledger.Positive) (distinct : call.mergedIds.Nodup)
    (effect : Effect sha256 env s call ret after) :
    after.circulating ≤ s.ledger.circulating + call.submission.elim 0 (·.tonnes) := by
  cases effect with
  | unchanged _ _ quiet =>
      rw [submission_of_quiet quiet]
      simp
  | submitted _ sub newId submission hasAdmin authorised positive unique newDerived =>
      have absent : (s.ledger.advance 1).getCredit newId = none := derived.next inj newDerived
      rw [submission]
      simp only [circulating_addCreditToProject, circulating_setCreditByProjectVintage,
        circulating_new absent, circulating_advance]
      simp [Submission.credit, CreditMetadata.circulating]
  | approved verifier target nonce found authorised registered there pending first short =>
      have le := circulating_overwrite (s.ledger.setCreditApprovals target
        (s.ledger.getCreditApprovals target ++ [verifier])) found there (le_refl _)
      simpa [Call.submission] using le
  | minted verifier target nonce found authorised registered there pending first enough =>
      have le := circulating_overwrite (s.ledger.setCreditApprovals target
        (s.ledger.getCreditApprovals target ++ [verifier])) { found with status := .active } there
        (by simp [CreditMetadata.circulating, pending])
      simpa [Call.submission] using le
  | restatused _ target found status dispute there change trusted =>
      have le := circulating_overwrite s.ledger { found with status } there
        (change.circulating_le (positive target found there))
      rw [change.submission]
      simpa using le
  | transferred sender recipient target nonce found authorised there owned =>
      have le := circulating_overwrite s.ledger { found with owner := recipient } there
        (le_refl found.circulating)
      simpa [Call.submission] using le
  | split caller target splitTonnes nonce original child1Id child2Id authorised there owned
      positive proper derived1 derived2 =>
      refine (split_circulating_le inj derived there derived1 derived2).trans ?_
      simp [Call.submission]
  | merged caller ids mergedId merged _ authorised several owner active tonnes sources newDerived
      retired =>
      have live : ∀ id ∈ ids, ∃ source, s.ledger.getCredit id = some source ∧
          source.status = .active := by
        intro id listed
        obtain ⟨source, found, -, active, -⟩ := sources id listed
        exact ⟨source, found, active⟩
      have same := merge_circulating inj derived distinct active tonnes live newDerived retired
      rw [same]
      simp [Call.submission]

/-- Submissions and the parts of a split are checked to be positive, and a merge adds
positive amounts. -/
theorem Effect.positive {env : Env} {s : State} {call : Call} {ret : Ret} {after : Ledger}
    (inj : Function.Injective sha256) (derived : s.ledger.Derived sha256)
    (positive : s.ledger.Positive) (effect : Effect sha256 env s call ret after) :
    after.Positive := by
  intro id credit stored
  cases known : s.ledger.getCredit id with
  | some before =>
      obtain ⟨credit', there, evolves⟩ := effect.evolves inj derived known
      obtain rfl := Option.some.inj (there.symm.trans stored)
      rw [evolves.constant.2]
      exact positive id before known
  | none =>
      cases (effect.created known stored).1 with
      | submitted sub submission hasAdmin positive returned => exact positive
      | child caller parent child1Id child2Id splitTonnes part nonce original named returned
          isChild there owned positive => exact positive
      | merged caller ids credit named returned several active tonnes sources =>
          rw [tonnes]
          apply List.sum_pos
          · intro amount listed
            obtain ⟨source, member, rfl⟩ := List.mem_map.mp listed
            obtain ⟨found, there, -⟩ := sources source member
            rw [Ledger.tonnesOf, there]
            exact positive source found there
          · intro none
            simp [List.map_eq_nil_iff.mp none] at several

/-! ## Runs -/

/-- No carbon out of nothing: in every run whose merges list no credit twice, the tonnes
in circulation are at most the tonnes submitted. -/
theorem circulating_le_submitted (inj : Function.Injective sha256) (inputs : List Invocation)
    (distinct : ∀ event ∈ (machine sha256).log inputs, event.input.call.mergedIds.Nodup) :
    ((machine sha256).state inputs).ledger.circulating ≤
      submittedTonnes ((machine sha256).log inputs) := by
  refine ((machine sha256).run_induct_of (fun _ event => event.input.call.mergedIds.Nodup)
    (fun log s => s.ledger.Derived sha256 ∧ s.ledger.Positive ∧
      s.ledger.circulating ≤ submittedTonnes log) ?_ ?_ inputs
    (Machine.admits_forall.mpr distinct)).2.2
  · refine ⟨derived_init, ?_, le_refl _⟩
    intro id credit stored
    cases stored
  · intro log event ⟨derived, positive, bounded⟩ distinct commits
    have effect := exec_effect sha256 event.pre commits
    have step := effect.circulating_le inj derived positive distinct
    refine ⟨effect.derived derived, effect.positive inj derived positive, ?_⟩
    unfold submittedTonnes at bounded ⊢
    rw [List.map_append, List.sum_append]
    simp only [List.map_cons, List.map_nil, List.sum_cons, List.sum_nil]
    omega

namespace Sample

/-- One credit of one tonne, approved, and split in two halves that are merged again. -/
def splitAndMerge : List Invocation :=
  setup 1 ++
    [submit 0, call verifier (.approveAndMint verifier (credit 0) 0),
     call issuer (.splitCredit issuer (credit 0) 500000 1),
     call issuer (.mergeCredits issuer
       [creditId BytesN32.mk (.bytes (credit 0)) 1, creditId BytesN32.mk (.bytes (credit 0)) 2])]

/-- One credit of one tonne, approved, and merged with itself. -/
def mergeWithItself : List Invocation :=
  setup 1 ++
    [submit 0, call verifier (.approveAndMint verifier (credit 0) 0),
     call issuer (.mergeCredits issuer [credit 0, credit 0])]

end Sample

set_option maxRecDepth 100000 in
theorem splitAndMerge_circulating_le :
    ((machine BytesN32.mk).state Sample.splitAndMerge).ledger.circulating ≤
      submittedTonnes ((machine BytesN32.mk).log Sample.splitAndMerge) :=
  circulating_le_submitted BytesN32.mk_injective Sample.splitAndMerge (by decide)

set_option maxRecDepth 100000 in
/-- The merged credit has two tonnes where one was submitted. -/
theorem submitted_lt_mergeWithItself_circulating :
    Function.Injective BytesN32.mk ∧
      submittedTonnes ((machine BytesN32.mk).log Sample.mergeWithItself) <
        ((machine BytesN32.mk).state Sample.mergeWithItself).ledger.circulating := by
  refine ⟨BytesN32.mk_injective, ?_⟩
  decide

end CarbonChain.Registry
