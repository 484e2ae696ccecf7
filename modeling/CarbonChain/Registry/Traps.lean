import CarbonChain.Registry.Evolution
import CarbonChain.Registry.Nonces
import CarbonChain.Registry.Rosters
import CarbonChain.Registry.Sessions

/-!
# CreditRegistry: what can trap

The release profile traps on overflow, `require_auth` traps when it is refused, and
`merge_credits` unwraps what its loop collects. The counters that the contract adds to
advance with its calls, so they stay below the length of the run, and the loop has
collected something when it has read two credits. What is left to trap is the authorisation
of the one address that a call needs, and the year of a clock near the end of 32 bits.
-/

namespace CarbonChain.Registry

variable {sha256 : Bytes → BytesN32}

/-- The address whose authorisation a call needs. -/
def Call.signer (s : State) : Call → Option Address
  | .initializeContract a _ _ | .pause a | .unpause a | .registerVerifier a _ _
  | .removeVerifier a _ _ | .registerIssuer a _ _ | .removeIssuer a _ _
  | .registerMethodology a _ _ _ | .proposeAdmin a _ | .acceptAdmin a
  | .configureVerifierServices a _ _ _ | .addVerifierService a _ _ _
  | .removeVerifierService a _ _ _ | .registerProject a _ _ _ _ | .upgrade a _ _
  | .submitCredit a _ _ _ _ _ _ _ | .approveAndMint a _ _ | .flagCredit a _ _ _
  | .transferCredit a _ _ _ | .splitCredit a _ _ _ | .expireCredit a _ | .disputeCredit a _ _
  | .resolveDispute a _ _ | .mergeCredits a _ | .createSession a
  | .submitCreditWithSession _ a _ _ _ _ _ _ _ => some a
  | .markRetired _ => s.roles.retirementContract

/-! ## The counters -/

/-- The counters after `n` calls. A split advances the counter of the credits twice. -/
structure State.Counted (s : State) (n : Nat) : Prop where
  distinct : s.roles.verifierSet.Nodup
  nonce : ∀ a, nonceOf s.nonce a ≤ n
  credits : s.ledger.creditNonce ≤ 2 * n
  pending : ∀ v, s.verifiers.getVerifierPendingCount v ≤ n
  approvals : ∀ v, (s.verifiers.getVerifierReputation v).approvalCount ≤ n
  disputes : ∀ v, (s.verifiers.getVerifierReputation v).disputeCount ≤ n
  entries : s.audit.auditLogCount ≤ n
  operations : ∀ sessionId, s.audit.getSessionOpCount sessionId ≤ n

theorem Effect.creditNonce_le_add {env : Env} {s : State} {call : Call} {ret : Ret}
    {after : Ledger} (effect : Effect sha256 env s call ret after) :
    after.creditNonce ≤ s.ledger.creditNonce + 2 := by
  cases effect with
  | merged caller ids mergedId merged _ authorised several owner active tonnes sources newDerived
      retired =>
      rw [(retireLoop_ok retired).creditNonce]
      show s.ledger.creditNonce + 1 ≤ s.ledger.creditNonce + 2
      omega
  | _ => simp

theorem AuditChange.counted {env : Env} {audit audit' : Audit} {call : Call} {ret : Ret}
    (change : AuditChange sha256 env audit call ret audit') :
    audit'.auditLogCount ≤ audit.auditLogCount + 1 ∧
      ∀ sessionId, audit'.getSessionOpCount sessionId ≤ audit.getSessionOpCount sessionId + 1 := by
  cases change with
  | kept _ _ unlogged unopened => exact ⟨Nat.le_succ _, fun _ => Nat.le_succ _⟩
  | opened initiator => exact ⟨Nat.le_succ _, fun _ => Nat.le_succ _⟩
  | logged _ creditId entry named submits known =>
      refine ⟨Nat.le_refl _, ?_⟩
      intro sessionId
      unfold Audit.getSessionOpCount
      rw [Store.lookup_insert_ite]
      split
      · next same =>
          rw [same]
          exact Nat.le_refl _
      · exact Nat.le_succ _

theorem State.Counted.step {n : Nat} {event : Event State Invocation Ret}
    (counted : event.pre.Counted n) (commits : (machine sha256).Commits event) :
    event.post.Counted (n + 1) := by
  have success := ((exec_eq_ok sha256 event.pre).mp commits).2
  have effect := exec_effect sha256 event.pre commits
  have stands := dispatch_stands success
  obtain ⟨entries, operations⟩ := (exec_audit commits).counted
  refine ⟨(dispatch_watches success).2.1 counted.distinct, ?_, ?_, ?_, ?_, ?_, ?_, ?_⟩
  · intro a
    have before := counted.nonce a
    have written := exec_nonce commits
    split at written
    · rw [written]
      omega
    · next b m consumed =>
        obtain ⟨shown, advanced⟩ := written
        have shown_le := counted.nonce b
        rw [advanced, nonceOf_insert]
        split <;> omega
  · have before := counted.credits
    have advanced := effect.creditNonce_le_add
    omega
  · intro v
    have before := counted.pending v
    rw [dispatch_count counted.distinct success v]
    split
    · have raised := (entryOf event.pre event.input.call event.output).counts_le
        (event.pre.verifiers.getVerifierPendingCount v)
      omega
    · omega
  · intro v
    have before := counted.approvals v
    rw [(stands v).reputation]
    show _ + (if event.input.call.approver = some v then 1 else 0) ≤ n + 1
    split <;> omega
  · intro v
    have before := counted.disputes v
    rw [(stands v).reputation]
    show _ + (if event.input.call.flagger = some v then 1 else 0) ≤ n + 1
    split <;> omega
  · have before := counted.entries
    omega
  · intro sessionId
    have before := counted.operations sessionId
    have raised := operations sessionId
    omega

theorem counted (inputs : List Invocation) :
    ((machine sha256).state inputs).Counted ((machine sha256).log inputs).length := by
  refine (machine sha256).run_induct (fun log s => s.Counted log.length) ?_ ?_ inputs
  · exact ⟨List.nodup_nil, fun _ => Nat.le_refl _, Nat.le_refl _, fun _ => Nat.le_refl _,
      fun _ => Nat.le_refl _, fun _ => Nat.le_refl _, Nat.le_refl _, fun _ => Nat.le_refl _⟩
  · intro log event counted commits
    rw [List.length_append, List.length_singleton]
    exact counted.step commits

/-! ## Entry points -/

@[simp] theorem Result.unit_eq_trap {r : Result State} :
    Result.unit r = .error .trap ↔ r = .error .trap := map_eq_trap

@[simp] theorem Result.id_eq_trap {r : Result (BytesN32 × State)} :
    Result.id r = .error .trap ↔ r = .error .trap := map_eq_trap

@[simp] theorem Result.pair_eq_trap {r : Result ((BytesN32 × BytesN32) × State)} :
    Result.pair r = .error .trap ↔ r = .error .trap := map_eq_trap

/-- The year after the current one does not fit 32 bits. -/
def LateYear (env : Env) : Prop := 2 ^ 32 ≤ env.timestamp / 31536000 % 2 ^ 32 + 1971

/-- `agree` never traps, so an iteration of the accumulation loop never does. -/
theorem agree_ne_trap {α : Type} [DecidableEq α] (seen : Option α) (value : α) :
    agree seen value ≠ .error .trap := by
  unfold agree
  split
  · split <;> simp
  · simp

theorem mergeOne_ne_trap (ledger : Ledger) (caller : Address) (acc : MergeTotals)
    (id : BytesN32) : mergeOne ledger caller acc id ≠ .error .trap := by
  simp [mergeOne, agree_ne_trap]

theorem mergeLoop_document {ledger : Ledger} {caller : Address} {ids : List BytesN32}
    {acc : MergeTotals} (h : ids.foldlM (mergeOne ledger caller) MergeTotals.start = .ok acc) :
    ids ≠ [] → acc.ipfsHash ≠ none := by
  refine foldlM_ok_induct (fun ids acc => ids ≠ [] → acc.ipfsHash ≠ none) h
    (fun some => absurd rfl some) ?_
  intro earlier id acc acc' _ _ iterated _
  simp only [mergeOne, bind_eq_ok, pure_eq_ok] at iterated
  obtain ⟨credit, -, -, -, -, -, -, -, -, -, -, -, -, -, -, -, -, -, rfl⟩ := iterated
  exact Option.some_ne_none credit.ipfsHash

theorem retireOne_ne_trap (ledger : Ledger) (id : BytesN32) :
    retireOne ledger id ≠ .error .trap := by
  simp [retireOne]

theorem nextCreditId_ne_trap {ledger : Ledger} (room : ledger.creditNonce + 1 < 2 ^ 64)
    (origin : ScVal) : ledger.nextCreditId sha256 origin ≠ .error .trap := by
  simp only [Ledger.nextCreditId, ne_eq, bind_eq_trap, addUnsigned_eq_trap, pure_ne_trap,
    and_false, exists_false, or_false, Nat.not_le]
  exact room

section Traps

variable {env : Env} {s : State} {n : Nat} (counted : s.Counted n) (short : 2 * n + 2 < 2 ^ 64)

include counted short

theorem consumeNonce_ne_trap (a : Address) (expected : Nat) :
    s.consumeNonce a expected ≠ .error .trap := by
  intro trapped
  have exhausted := consumeNonce_trap trapped
  have below := counted.nonce a
  omega

/-- The loop raises each counter once, so no counter passes the end. -/
theorem incrementAllPending_ne_trap :
    s.verifiers.incrementAllPending s.roles.verifierSet ≠ .error .trap := by
  intro trapped
  obtain ⟨first, v, rest, acc, split, looped, last⟩ := foldlM_trap trapped
  have distinct := counted.distinct
  rw [split, List.nodup_append] at distinct
  have raised := VerifierRecords.incrementAllPending_ok first distinct.1 looped v
  have below := counted.pending v
  simp only [VerifierRecords.incrementVerifierPending, bind_eq_trap, addUnsigned_eq_trap,
    pure_ne_trap, and_false, exists_false, or_false] at last
  split at raised <;> omega

theorem submitCredit_trap {issuer : Address} {projectId : String} {vintageYear : Nat}
    {methodology geography : String} {tonnes : Int} {ipfsHash : String} {nonce : Nat}
    (h : submitCredit sha256 env s issuer projectId vintageYear methodology geography tonnes
      ipfsHash nonce = .error .trap) : env.auth issuer = false ∨ LateYear env := by
  have room : s.ledger.creditNonce + 1 < 2 ^ 64 := by
    have := counted.credits
    omega
  simp only [submitCredit, currentYear, bind_eq_trap, rejectIf_ne_trap, rejectIf_eq_ok,
    Env.requireAuth_eq_trap, consumeNonce_ne_trap counted short, addUnsigned_eq_trap,
    addUnsigned_eq_ok, nextCreditId_ne_trap room,
    incrementAllPending_ne_trap counted short, pure_ne_trap, false_or, and_false, exists_false,
    or_false] at h
  obtain ⟨-, -, -, -, refused | ⟨-, -, nonces, -, -, -, -, -, -, -, -, -, -, -, late⟩⟩ := h
  · exact .inl refused
  · right
    unfold LateYear
    rcases late with late | ⟨year, ⟨-, rfl⟩, -, -, late⟩ <;> omega

theorem submitCreditWithSession_trap {sessionId : BytesN32} {issuer : Address}
    {projectId : String} {vintageYear : Nat} {methodology geography : String} {tonnes : Int}
    {ipfsHash : String} {nonce : Nat}
    (h : submitCreditWithSession sha256 env s sessionId issuer projectId vintageYear methodology
      geography tonnes ipfsHash nonce = .error .trap) :
    env.auth issuer = false ∨ LateYear env := by
  simp only [submitCreditWithSession, Audit.appendAuditLog, Audit.incrementSessionOpCount,
    bind_eq_trap, bind_eq_ok, rejectIf_ne_trap, addUnsigned_eq_trap, addUnsigned_eq_ok,
    pure_eq_ok, pure_ne_trap, false_or, and_false, exists_false, or_false, Prod.exists] at h
  obtain ⟨-, -, trapped | ⟨id, submitted, success, exhausted⟩⟩ := h
  · exact submitCredit_trap counted short trapped
  · have entries := counted.entries
    have operations := counted.operations sessionId
    rw [submitCredit_audit success] at exhausted
    rcases exhausted with full | ⟨audit, ⟨count, -, rfl⟩, full⟩
    · omega
    · have full : 2 ^ 64 ≤ s.audit.getSessionOpCount sessionId + 1 := full
      omega

theorem approveAndMint_trap {verifier : Address} {id : BytesN32} {nonce : Nat}
    (h : approveAndMint env s verifier id nonce = .error .trap) : env.auth verifier = false := by
  have approvals := counted.approvals verifier
  simp only [approveAndMint, VerifierRecords.incrementApprovalCount, bind_eq_trap,
    rejectIf_ne_trap, okOr_ne_trap, Env.requireAuth_eq_trap, consumeNonce_ne_trap counted short,
    addUnsigned_eq_trap, pure_ne_trap, ite_eq_iff, false_or, and_false, exists_false,
    or_false] at h
  obtain ⟨-, -, refused | ⟨-, -, -, -, -, -, -, -, -, -, -, -, full⟩⟩ := h
  · exact refused
  · omega

theorem flagCredit_trap {verifier : Address} {id : BytesN32} {reason : String} {nonce : Nat}
    (h : flagCredit env s verifier id reason nonce = .error .trap) :
    env.auth verifier = false := by
  have disputes := counted.disputes verifier
  simp only [flagCredit, VerifierRecords.incrementDisputeCount, bind_eq_trap,
    rejectIf_ne_trap, okOr_ne_trap, Env.requireAuth_eq_trap, consumeNonce_ne_trap counted short,
    addUnsigned_eq_trap, pure_ne_trap, false_or, and_false, exists_false, or_false] at h
  obtain ⟨-, -, refused | ⟨-, -, -, -, -, -, -, -, -, -, full⟩⟩ := h
  · exact refused
  · omega

theorem splitCredit_trap {caller : Address} {id : BytesN32} {splitTonnes : Int} {nonce : Nat}
    (h : splitCredit sha256 env s caller id splitTonnes nonce = .error .trap) :
    env.auth caller = false := by
  have credits := counted.credits
  have room : s.ledger.creditNonce + 1 < 2 ^ 64 := by omega
  have room2 : (s.ledger.advance 1).creditNonce + 1 < 2 ^ 64 := by
    rw [Ledger.creditNonce_advance]
    omega
  simp only [splitCredit, bind_eq_trap, rejectIf_ne_trap, okOr_ne_trap, Env.requireAuth_eq_trap,
    consumeNonce_ne_trap counted short, nextCreditId_ne_trap room, Ledger.nextCreditId_eq_ok,
    pure_ne_trap, false_or, and_false, exists_false, or_false, Prod.exists] at h
  obtain ⟨-, -, refused | ⟨-, -, -, -, -, -, -, -, -, -, -, first, ⟨-, -, rfl⟩, trapped⟩⟩ := h
  · exact refused
  · exact absurd trapped (nextCreditId_ne_trap room2 _)

/-- The loop has read two credits, so there is nothing that it has not collected. -/
theorem mergeCredits_trap {caller : Address} {ids : List BytesN32}
    (h : mergeCredits sha256 env s caller ids = .error .trap) : env.auth caller = false := by
  have credits := counted.credits
  have room : s.ledger.creditNonce + 1 < 2 ^ 64 := by omega
  have accumulates : ids.foldlM (mergeOne s.ledger caller) MergeTotals.start ≠ .error .trap := by
    intro trapped
    obtain ⟨first, id, rest, acc, -, -, last⟩ := foldlM_trap trapped
    exact mergeOne_ne_trap s.ledger caller acc id last
  have retires : ∀ ledger, ids.foldlM retireOne ledger ≠ .error .trap := by
    intro ledger trapped
    obtain ⟨first, id, rest, acc, -, -, last⟩ := foldlM_trap trapped
    exact retireOne_ne_trap acc id last
  simp only [mergeCredits, bind_eq_trap, rejectIf_ne_trap, rejectIf_eq_ok,
    Env.requireAuth_eq_trap, accumulates, unwrap_eq_trap, unwrap_eq_ok,
    nextCreditId_ne_trap room, retires, pure_ne_trap, false_or, and_false, exists_false,
    or_false] at h
  obtain refused | ⟨-, -, -, several, acc, looped, missing⟩ := h
  · exact refused
  · obtain ⟨id, rest, rfl⟩ : ∃ id rest, ids = id :: rest := by
      cases ids with
      | nil => simp at several
      | cons id rest => exact ⟨id, rest, rfl⟩
    obtain ⟨credit, -, -, -, described⟩ := (mergeLoop_ok looped).2 id List.mem_cons_self
    have document := mergeLoop_document looped (List.cons_ne_nil id rest)
    rw [described.projectId, described.issuer, described.vintageYear, described.methodology,
      described.geography] at missing
    simp [document] at missing

/-- A call traps only if its signer refuses, or if it submits when the year is late. -/
theorem dispatch_trap {call : Call} (h : dispatch sha256 env s call = .error .trap) :
    (∃ a, call.signer s = some a ∧ env.auth a = false) ∨
      (call.submission ≠ none ∧ LateYear env) := by
  cases call with
  | submitCredit issuer projectId vintageYear methodology geography tonnes ipfsHash nonce =>
      rcases submitCredit_trap counted short (Result.id_eq_trap.mp h) with refused | late
      · exact .inl ⟨issuer, rfl, refused⟩
      · exact .inr ⟨Option.some_ne_none _, late⟩
  | submitCreditWithSession sessionId issuer projectId vintageYear methodology geography tonnes
      ipfsHash nonce =>
      rcases submitCreditWithSession_trap counted short (Result.id_eq_trap.mp h) with
        refused | late
      · exact .inl ⟨issuer, rfl, refused⟩
      · exact .inr ⟨Option.some_ne_none _, late⟩
  | approveAndMint verifier id nonce =>
      exact .inl ⟨verifier, rfl, approveAndMint_trap counted short (Result.unit_eq_trap.mp h)⟩
  | flagCredit verifier id reason nonce =>
      exact .inl ⟨verifier, rfl, flagCredit_trap counted short (Result.unit_eq_trap.mp h)⟩
  | splitCredit caller id splitTonnes nonce =>
      exact .inl ⟨caller, rfl, splitCredit_trap counted short (Result.pair_eq_trap.mp h)⟩
  | mergeCredits caller ids =>
      exact .inl ⟨caller, rfl, mergeCredits_trap counted short (Result.id_eq_trap.mp h)⟩
  | resolveDispute admin id outcome =>
      have decides : disputeOutcome outcome ≠ .error .trap := by
        unfold disputeOutcome
        split
        · simp
        · split <;> simp
      simp only [dispatch, Result.unit_eq_trap, resolveDispute, bind_eq_trap, rejectIf_ne_trap,
        okOr_ne_trap, decides, pure_ne_trap, and_false, exists_false, or_false] at h
      exact .inl ⟨admin, rfl, requireAdmin_trap h⟩
  | _ =>
      simp only [dispatch, Result.unit_eq_trap, Result.id_eq_trap, initializeContract, pause,
        unpause, setPaused, registerVerifier, removeVerifier, registerIssuer, removeIssuer,
        registerMethodology, proposeAdmin, acceptAdmin, requireServiceAccess,
        configureVerifierServices, addVerifierService, removeVerifierService, registerProject,
        upgrade, createSession, markRetired, transferCredit, expireCredit, disputeCredit,
        bind_eq_trap, rejectIf_ne_trap, okOr_ne_trap, okOr_eq_ok, Env.requireAuth_eq_trap,
        consumeNonce_ne_trap counted short, pure_ne_trap, false_or, and_false, exists_false,
        or_false] at h
      left
      simp only [Call.signer, Option.some.injEq, exists_eq_left']
      first
        | exact h
        | exact requireAdmin_trap h
        | grind

end Traps

/-- A call that succeeds is signed. -/
theorem dispatch_signed {env : Env} {s s' : State} {call : Call} {ret : Ret}
    (h : dispatch sha256 env s call = .ok (ret, s')) :
    ∃ a, call.signer s = some a ∧ env.auth a = true := by
  cases call <;>
    simp only [dispatch, Result.unit_eq_ok, Result.id_eq_ok, Result.pair_eq_ok,
      initializeContract, pause, unpause, setPaused, registerVerifier, removeVerifier,
      registerIssuer, removeIssuer, registerMethodology, proposeAdmin, acceptAdmin,
      requireServiceAccess, configureVerifierServices, addVerifierService, removeVerifierService,
      registerProject, upgrade, createSession, submitCredit, submitCreditWithSession,
      approveAndMint, flagCredit, markRetired, transferCredit, splitCredit, expireCredit,
      disputeCredit, resolveDispute, mergeCredits, Roles.requireAdmin, requireAdmin_eq_ok,
      Env.requireAuth_eq_ok, okOr_eq_ok, bind_eq_ok, exists_const, Prod.exists] at h <;>
    simp only [Call.signer, Option.some.injEq, exists_eq_left'] <;>
    grind

end CarbonChain.Registry
