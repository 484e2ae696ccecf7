import CarbonChain.Misc.Tally
import CarbonChain.Registry.Effect

/-!
# CreditRegistry: the pending counters

Each verifier has a counter, and `remove_verifier`
(`contracts/credit_registry/src/lib.rs:167-194`) refuses a verifier whose counter is not
zero. A submission raises the counters of all registered verifiers, and an approval that
mints or a flag of a pending credit lowers them. What a call does to the counters, to the
set of verifiers and to the pending credits is the entry of a tally.
-/

namespace CarbonChain.Registry

variable {sha256 : Bytes → BytesN32}

/-! ## The counters -/

namespace VerifierRecords

@[simp] theorem getVerifierPendingCount_setVerifierPendingCount (records : VerifierRecords)
    (verifier other : Address) (count : Nat) :
    (records.setVerifierPendingCount verifier count).getVerifierPendingCount other =
      if other = verifier then count else records.getVerifierPendingCount other := by
  unfold getVerifierPendingCount setVerifierPendingCount
  rw [Store.lookup_insert_ite]
  split <;> rfl

@[simp] theorem getVerifierPendingCount_setVerifierReputation (records : VerifierRecords)
    (verifier : Address) (rep : VerifierReputation) :
    (records.setVerifierReputation verifier rep).getVerifierPendingCount =
      records.getVerifierPendingCount := rfl

@[simp] theorem getVerifierPendingCount_setVerifierServices (records : VerifierRecords)
    (verifier : Address) (services : List ServiceType) :
    (records.setVerifierServices verifier services).getVerifierPendingCount =
      records.getVerifierPendingCount := rfl

theorem getVerifierPendingCount_decrementVerifierPending (records : VerifierRecords)
    (verifier other : Address) :
    (records.decrementVerifierPending verifier).getVerifierPendingCount other =
      if other = verifier then records.getVerifierPendingCount other - 1
      else records.getVerifierPendingCount other := by
  unfold decrementVerifierPending
  by_cases positive : records.getVerifierPendingCount verifier > 0
  · simp only [if_pos positive, getVerifierPendingCount_setVerifierPendingCount]
    split
    · next same => rw [same]
    · rfl
  · simp only [if_neg positive]
    split
    · next same =>
        rw [same]
        omega
    · rfl

/-- The loop over a set without repetitions lowers each counter of the set once. -/
theorem getVerifierPendingCount_decrementAllPending (verifierSet : List Address)
    (distinct : verifierSet.Nodup) (records : VerifierRecords) (v : Address) :
    (records.decrementAllPending verifierSet).getVerifierPendingCount v =
      if v ∈ verifierSet then records.getVerifierPendingCount v - 1
      else records.getVerifierPendingCount v := by
  induction verifierSet generalizing records with
  | nil => rfl
  | cons first rest ih =>
      obtain ⟨absent, distinct⟩ := List.nodup_cons.mp distinct
      have looped : records.decrementAllPending (first :: rest) =
          (records.decrementVerifierPending first).decrementAllPending rest := rfl
      rw [looped, ih distinct, getVerifierPendingCount_decrementVerifierPending]
      by_cases same : v = first
      · subst same
        simp [absent]
      · simp [same]

/-- The loop over a set without repetitions raises each counter of the set once. -/
theorem incrementAllPending_ok (verifierSet : List Address) (distinct : verifierSet.Nodup)
    {records after : VerifierRecords} (h : records.incrementAllPending verifierSet = .ok after)
    (v : Address) :
    after.getVerifierPendingCount v =
      if v ∈ verifierSet then records.getVerifierPendingCount v + 1
      else records.getVerifierPendingCount v := by
  induction verifierSet generalizing records with
  | nil =>
      obtain rfl := pure_eq_ok.mp h
      rfl
  | cons first rest ih =>
      obtain ⟨absent, distinct⟩ := List.nodup_cons.mp distinct
      obtain ⟨between, raised, looped⟩ := bind_eq_ok.mp h
      rw [ih distinct looped]
      simp only [incrementVerifierPending, bind_eq_ok, addUnsigned_eq_ok, pure_eq_ok] at raised
      obtain ⟨count, ⟨-, rfl⟩, rfl⟩ := raised
      rw [getVerifierPendingCount_setVerifierPendingCount]
      by_cases same : v = first
      · subst same
        simp [absent]
      · simp [same]

theorem incrementApprovalCount_ok {records after : VerifierRecords} {verifier : Address}
    (h : records.incrementApprovalCount verifier = .ok after) :
    after.getVerifierPendingCount = records.getVerifierPendingCount := by
  simp only [incrementApprovalCount, bind_eq_ok, addUnsigned_eq_ok, pure_eq_ok] at h
  obtain ⟨count, -, rfl⟩ := h
  rfl

theorem incrementDisputeCount_ok {records after : VerifierRecords} {verifier : Address}
    (h : records.incrementDisputeCount verifier = .ok after) :
    after.getVerifierPendingCount = records.getVerifierPendingCount := by
  simp only [incrementDisputeCount, bind_eq_ok, addUnsigned_eq_ok, pure_eq_ok] at h
  obtain ⟨count, -, rfl⟩ := h
  rfl

end VerifierRecords

/-! ## What a call does to the counters -/

/-- What a call that returns `ret` in storage `s` does to the pending credits and the
counters. -/
def entryOf (s : State) (call : Call) (ret : Ret) : Tally.Entry Address BytesN32 :=
  match call, ret with
  | .submitCredit .., .id id | .submitCreditWithSession .., .id id => .opened id
  | .approveAndMint _ id _, _ =>
      if s.roles.getRequiredApprovals ≤ (s.ledger.getCreditApprovals id).length + 1 then
        .counted id
      else .idle
  | .flagCredit _ id _ _, _ =>
      if s.ledger.statusOf id = some .pending then .counted id else .idle
  | .expireCredit _ id, _ | .disputeCredit _ id _, _ =>
      if s.ledger.statusOf id = some .pending then .uncounted id else .idle
  | .splitCredit _ id _ _, .pair child1Id child2Id =>
      if s.ledger.statusOf id = some .pending then .renewed id child1Id child2Id else .idle
  | .registerVerifier _ verifier _, _ => .enrolled verifier
  | .removeVerifier _ verifier _, _ => .dismissed verifier
  | _, _ => .idle

section Counters

variable (env : Env) {s s' : State} (distinct : s.roles.verifierSet.Nodup) (v : Address)

include distinct

theorem submitCredit_count {issuer : Address} {projectId : String} {vintageYear : Nat}
    {methodology geography : String} {tonnes : Int} {ipfsHash : String} {nonce : Nat}
    {id : BytesN32} (h : submitCredit sha256 env s issuer projectId vintageYear methodology
      geography tonnes ipfsHash nonce = .ok (id, s')) :
    s'.verifiers.getVerifierPendingCount v =
      if v ∈ s.roles.verifierSet then s.verifiers.getVerifierPendingCount v + 1
      else s.verifiers.getVerifierPendingCount v := by
  simp only [submitCredit, bind_eq_ok, rejectIf_eq_ok, Env.requireAuth_eq_ok, exists_const,
    Ledger.nextCreditId_eq_ok, pure_eq_ok, Prod.exists, Prod.mk.injEq] at h
  obtain ⟨-, -, -, nonce, -, -, -, -, -, -, year, -, -, lastYear, -, -, -, -, _, _, -, verifiers,
    raised, -, rfl⟩ := h
  exact VerifierRecords.incrementAllPending_ok _ distinct raised v

theorem approveAndMint_count {verifier : Address} {id : BytesN32} {nonce : Nat}
    (h : approveAndMint env s verifier id nonce = .ok s') :
    s'.verifiers.getVerifierPendingCount v =
      if v ∈ s.roles.verifierSet ∧
          s.roles.getRequiredApprovals ≤ (s.ledger.getCreditApprovals id).length + 1 then
        s.verifiers.getVerifierPendingCount v - 1
      else s.verifiers.getVerifierPendingCount v := by
  simp only [approveAndMint, bind_eq_ok, rejectIf_eq_ok, Env.requireAuth_eq_ok, exists_const,
    okOr_eq_ok] at h
  obtain ⟨-, -, -, nonces, -, credit, -, -, -, verifiers, counted, outcome⟩ := h
  have kept := VerifierRecords.incrementApprovalCount_ok counted
  rw [List.length_append, List.length_singleton] at outcome
  by_cases enough : s.roles.getRequiredApprovals ≤ (s.ledger.getCreditApprovals id).length + 1
  · rw [if_pos enough, pure_eq_ok] at outcome
    subst outcome
    simp only [enough, and_true]
    rw [VerifierRecords.getVerifierPendingCount_decrementAllPending _ distinct, kept]
  · rw [if_neg enough, pure_eq_ok] at outcome
    subst outcome
    simp only [enough, and_false, if_false, kept]

theorem flagCredit_count {verifier : Address} {id : BytesN32} {reason : String} {nonce : Nat}
    (h : flagCredit env s verifier id reason nonce = .ok s') :
    s'.verifiers.getVerifierPendingCount v =
      if v ∈ s.roles.verifierSet ∧ s.ledger.statusOf id = some .pending then
        s.verifiers.getVerifierPendingCount v - 1
      else s.verifiers.getVerifierPendingCount v := by
  simp only [flagCredit, bind_eq_ok, rejectIf_eq_ok, Env.requireAuth_eq_ok, exists_const,
    okOr_eq_ok, pure_eq_ok] at h
  obtain ⟨-, -, -, nonces, -, credit, stored, -, verifiers, counted, rfl⟩ := h
  have kept := VerifierRecords.incrementDisputeCount_ok counted
  have status : s.ledger.statusOf id = some credit.status := by
    rw [Ledger.statusOf, stored]
    rfl
  simp only [status, Option.some.injEq]
  by_cases pending : credit.status = .pending
  · simp only [pending, if_true, and_true]
    rw [VerifierRecords.getVerifierPendingCount_decrementAllPending _ distinct, kept]
  · simp only [pending, if_false, and_false, kept]

end Counters

/-- The call is one of those that can change a pending counter. -/
def Call.onCounters : Call → Bool
  | .submitCredit .. | .submitCreditWithSession .. | .approveAndMint .. | .flagCredit .. => true
  | _ => false

theorem dispatch_counters {env : Env} {s s' : State} {call : Call} {ret : Ret}
    (quiet : call.onCounters = false) (h : dispatch sha256 env s call = .ok (ret, s')) :
    s'.verifiers.getVerifierPendingCount = s.verifiers.getVerifierPendingCount := by
  cases call <;> simp only [Call.onCounters, Bool.true_eq_false] at quiet <;>
    simp only [dispatch, Result.unit_eq_ok, Result.id_eq_ok, Result.pair_eq_ok,
      initializeContract, pause, unpause, setPaused, registerVerifier, removeVerifier,
      registerIssuer, removeIssuer, registerMethodology, proposeAdmin, acceptAdmin,
      requireServiceAccess, configureVerifierServices, addVerifierService,
      removeVerifierService, registerProject, upgrade, createSession, markRetired,
      transferCredit, splitCredit, expireCredit, disputeCredit, resolveDispute, mergeCredits,
      bind_eq_ok, pure_eq_ok, Prod.exists, Prod.mk.injEq] at h <;>
    grind [VerifierRecords.getVerifierPendingCount_setVerifierServices]

theorem entryOf_counts {s : State} {call : Call} {ret : Ret} (quiet : call.onCounters = false)
    (n : Nat) : (entryOf s call ret).counts n = n := by
  unfold entryOf
  split <;> first | rfl | (split <;> rfl) | cases quiet

/-- A call does to the counters of the registered verifiers what its entry says. -/
theorem dispatch_count {env : Env} {s s' : State} {call : Call} {ret : Ret}
    (distinct : s.roles.verifierSet.Nodup) (h : dispatch sha256 env s call = .ok (ret, s'))
    (v : Address) :
    s'.verifiers.getVerifierPendingCount v =
      if v ∈ s.roles.verifierSet then
        (entryOf s call ret).counts (s.verifiers.getVerifierPendingCount v)
      else s.verifiers.getVerifierPendingCount v := by
  by_cases quiet : call.onCounters = false
  · rw [dispatch_counters quiet h, entryOf_counts quiet, ite_self]
  cases call with
  | submitCredit issuer projectId vintageYear methodology geography tonnes ipfsHash nonce =>
      obtain ⟨id, success, rfl⟩ := Result.id_eq_ok.mp h
      exact submitCredit_count env distinct v success
  | submitCreditWithSession sessionId issuer projectId vintageYear methodology geography tonnes
      ipfsHash nonce =>
      obtain ⟨id, success, rfl⟩ := Result.id_eq_ok.mp h
      obtain ⟨submitted, audit, submits, rfl⟩ := submitCreditWithSession_ok sha256 env s success
      have counted := submitCredit_count env distinct v submits
      exact counted
  | approveAndMint verifier id nonce =>
      obtain ⟨success, rfl⟩ := Result.unit_eq_ok.mp h
      rw [approveAndMint_count env distinct v success]
      by_cases enough : s.roles.getRequiredApprovals ≤ (s.ledger.getCreditApprovals id).length + 1
      · simp [entryOf, enough, Tally.Entry.counts]
      · simp [entryOf, enough, Tally.Entry.counts]
  | flagCredit verifier id reason nonce =>
      obtain ⟨success, rfl⟩ := Result.unit_eq_ok.mp h
      rw [flagCredit_count env distinct v success]
      by_cases pending : s.ledger.statusOf id = some .pending
      · simp [entryOf, pending, Tally.Entry.counts]
      · simp [entryOf, pending, Tally.Entry.counts]
  | _ => exact absurd rfl quiet

/-! ## The verifiers -/

theorem registerVerifier_ok {env : Env} {s s' : State} {admin verifier : Address} {nonce : Nat}
    (h : registerVerifier env s admin verifier nonce = .ok s') :
    verifier ∉ s.roles.verifierSet ∧
      s'.roles.verifierSet = s.roles.verifierSet ++ [verifier] := by
  simp only [registerVerifier, bind_eq_ok, rejectIf_eq_ok, exists_const, pure_eq_ok] at h
  obtain ⟨_, -, nonces, -, absent, rfl⟩ := h
  exact ⟨by simpa [Roles.isVerifier] using absent, rfl⟩

theorem removeVerifier_ok {env : Env} {s s' : State} {admin verifier : Address} {nonce : Nat}
    (h : removeVerifier env s admin verifier nonce = .ok s') :
    s.verifiers.getVerifierPendingCount verifier = 0 ∧
      s'.roles.verifierSet = s.roles.verifierSet.filter (· != verifier) := by
  simp only [removeVerifier, bind_eq_ok, rejectIf_eq_ok, exists_const, pure_eq_ok] at h
  obtain ⟨_, -, nonces, -, -, zero, rfl⟩ := h
  exact ⟨by omega, rfl⟩

/-- With the current nonce the admin removes a registered verifier if and only if the counter
of the verifier is zero. -/
theorem removeVerifier_succeeds {env : Env} {s : State} {admin verifier : Address}
    (stored : s.roles.admin = some admin) (authorised : env.auth admin = true)
    (room : s.getNonce admin + 1 < 2 ^ 64) (registered : verifier ∈ s.roles.verifierSet) :
    (∃ s', removeVerifier env s admin verifier (s.getNonce admin) = .ok s') ↔
      s.verifiers.getVerifierPendingCount verifier = 0 := by
  have room' : nonceOf s.nonce admin + 1 < 2 ^ 64 := room
  have registered' : s.roles.isVerifier verifier = true := by
    simpa [Roles.isVerifier] using registered
  constructor
  · rintro ⟨s', success⟩
    exact (removeVerifier_ok success).1
  · intro zero
    simp only [removeVerifier, Roles.requireAdmin, State.consumeNonce, bind_eq_ok,
      rejectIf_eq_ok, exists_const, pure_eq_ok, requireAdmin_eq_ok, consumeNonce_eq_ok]
    exact ⟨_, ⟨stored, authorised⟩, _, ⟨rfl, room', rfl⟩, by simp [registered'],
      by simp [zero], rfl⟩

/-- The call changes the set of verifiers. -/
def Call.onVerifiers : Call → Bool
  | .registerVerifier .. | .removeVerifier .. => true
  | _ => false

theorem dispatch_verifierSet {env : Env} {s s' : State} {call : Call} {ret : Ret}
    (quiet : call.onVerifiers = false) (h : dispatch sha256 env s call = .ok (ret, s')) :
    s'.roles.verifierSet = s.roles.verifierSet := by
  by_cases writes : call.onCredits = true
  · rw [dispatch_roles sha256 env s writes h]
  cases call <;> simp only [Call.onCredits, Call.onVerifiers, not_true_eq_false,
    Bool.true_eq_false] at writes quiet <;>
    simp only [dispatch, Result.unit_eq_ok, Result.id_eq_ok, initializeContract, pause, unpause,
      setPaused, registerIssuer, removeIssuer, registerMethodology, proposeAdmin, acceptAdmin,
      requireServiceAccess, configureVerifierServices, addVerifierService,
      removeVerifierService, registerProject, upgrade, createSession, bind_eq_ok, pure_eq_ok,
      Prod.mk.injEq] at h <;>
    grind

theorem entryOf_watches (s : State) {call : Call} (ret : Ret) (quiet : call.onVerifiers = false)
    (watching : Address → Prop) :
    (entryOf s call ret).watches watching = watching ∧
      ∀ v, entryOf s call ret ≠ .dismissed v := by
  unfold entryOf
  split <;> first | exact ⟨rfl, nofun⟩ | (split <;> exact ⟨rfl, nofun⟩) | cases quiet

/-- A call does to the set of verifiers what its entry says, and removes only a verifier whose
counter is zero. -/
theorem dispatch_watches {env : Env} {s s' : State} {call : Call} {ret : Ret}
    (h : dispatch sha256 env s call = .ok (ret, s')) :
    (∀ v, v ∈ s'.roles.verifierSet ↔
      (entryOf s call ret).watches (· ∈ s.roles.verifierSet) v) ∧
      (s.roles.verifierSet.Nodup → s'.roles.verifierSet.Nodup) ∧
      ∀ v, entryOf s call ret = .dismissed v →
        s.verifiers.getVerifierPendingCount v = 0 := by
  by_cases quiet : call.onVerifiers = false
  · obtain ⟨watches, undismissed⟩ := entryOf_watches s ret quiet
      (· ∈ s.roles.verifierSet)
    rw [dispatch_verifierSet quiet h, watches]
    refine ⟨fun v => Iff.rfl, fun distinct => distinct, ?_⟩
    exact fun v dismissed => absurd dismissed (undismissed v)
  cases call with
  | registerVerifier admin verifier nonce =>
      obtain ⟨success, rfl⟩ := Result.unit_eq_ok.mp h
      obtain ⟨absent, added⟩ := registerVerifier_ok success
      rw [added]
      refine ⟨?_, ?_, nofun⟩
      · intro v
        simp [entryOf, Tally.Entry.watches]
      · intro distinct
        exact List.nodup_append_comm.mp (List.nodup_cons.mpr ⟨absent, distinct⟩)
  | removeVerifier admin verifier nonce =>
      obtain ⟨success, rfl⟩ := Result.unit_eq_ok.mp h
      obtain ⟨zero, removed⟩ := removeVerifier_ok success
      rw [removed]
      refine ⟨?_, ?_, ?_⟩
      · intro v
        simp [entryOf, Tally.Entry.watches]
      · exact List.Nodup.filter _
      · intro v dismissed
        cases dismissed
        exact zero
  | _ => exact absurd rfl quiet

end CarbonChain.Registry
