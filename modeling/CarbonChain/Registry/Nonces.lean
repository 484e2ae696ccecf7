import CarbonChain.Misc.Replay
import CarbonChain.Registry.Effect

/-!
# CreditRegistry: replay protection

Fifteen entry points take a nonce, and all of them check it against one counter for each
address: the caller's own, which for the configuring ones is the admin's. What every
call does to the counters is said once, in `exec_nonce`.
-/

namespace CarbonChain.Registry

variable {sha256 : Bytes → BytesN32}

/-- The address whose nonce a call consumes, with the nonce it carries. -/
def Call.consumes : Call → Option (Address × Nat)
  | .registerVerifier a _ nonce | .removeVerifier a _ nonce | .registerIssuer a _ nonce
  | .removeIssuer a _ nonce | .registerMethodology a _ _ nonce
  | .configureVerifierServices a _ _ nonce | .addVerifierService a _ _ nonce
  | .removeVerifierService a _ _ nonce | .upgrade a _ nonce | .submitCredit a _ _ _ _ _ _ nonce
  | .approveAndMint a _ nonce | .flagCredit a _ _ nonce | .transferCredit a _ _ nonce
  | .splitCredit a _ _ nonce | .submitCreditWithSession _ a _ _ _ _ _ _ nonce => some (a, nonce)
  | _ => none

/-- The nonces of a state, and what the calls consume of them. -/
def nonces : Numbering State Invocation Address where
  next := State.getNonce
  spends := fun invocation => invocation.call.consumes

/-- A call that carries a nonce carries the stored one and advances it; no other call writes
the nonces. -/
theorem exec_nonce {env : Env} {s s' : State} {call : Call} {ret : Ret}
    (h : exec sha256 s ⟨env, call⟩ = .ok (ret, s')) :
    match call.consumes with
    | none => s'.nonce = s.nonce
    | some (a, n) => nonceOf s.nonce a = n ∧ s'.nonce = s.nonce.insert a (n + 1) := by
  have h := ((exec_eq_ok sha256 s).mp h).2
  cases call <;>
    simp only [Call.consumes, dispatch, Result.unit_eq_ok, Result.id_eq_ok, Result.pair_eq_ok,
      initializeContract, pause, unpause, setPaused, registerVerifier, removeVerifier,
      registerIssuer, removeIssuer, registerMethodology, proposeAdmin, acceptAdmin,
      requireServiceAccess, configureVerifierServices, addVerifierService, removeVerifierService,
      registerProject, upgrade, createSession, submitCredit, submitCreditWithSession,
      approveAndMint, flagCredit, markRetired, transferCredit, splitCredit, expireCredit,
      disputeCredit, resolveDispute, mergeCredits, State.consumeNonce, bind_eq_ok, pure_eq_ok,
      consumeNonce_eq_ok, Prod.exists, Prod.mk.injEq, ite_eq_iff] at h ⊢ <;>
    grind

theorem nonces_kept : nonces.KeptBy (machine sha256) := by
  refine ⟨fun _ => rfl, ?_⟩
  rintro ⟨pre, ⟨env, call⟩, ret, post⟩ commits
  have written := exec_nonce commits
  unfold Numbering.Obeys nonces
  dsimp only
  cases consumed : call.consumes with
  | none =>
      rw [consumed] at written
      funext b
      unfold State.getNonce
      rw [written]
  | some consumption =>
      rw [consumed] at written
      obtain ⟨shown, advanced⟩ := written
      refine ⟨shown, ?_⟩
      funext b
      unfold State.getNonce
      rw [advanced, nonceOf_insert, Function.update_apply]

/-- Replay protection: in every run the nonces that the successful calls consume of an address,
over all entry points together, are 0, 1, 2, ... in call order and as many as `get_nonce`
says, and no call consumes a nonce of an address that another call has consumed. -/
theorem nonces_in_order (sha256 : Bytes → BytesN32) (inputs : List Invocation) :
    (∀ a, nonces.spentBy ((machine sha256).log inputs) a =
      List.range (((machine sha256).state inputs).getNonce a)) ∧
    (nonces.spent ((machine sha256).log inputs)).Nodup :=
  ⟨nonces_kept.spentBy_eq_range inputs, nonces_kept.spent_nodup inputs⟩

set_option maxRecDepth 100000 in
/-- The set-up consumes three nonces of the admin, and the submission one of the issuer. -/
example :
    nonces.spent ((machine BytesN32.mk).log (Sample.setup 1 ++ [Sample.submit 0])) =
      [(Sample.admin, 0), (Sample.admin, 1), (Sample.admin, 2), (Sample.issuer, 0)] := by
  rfl

end CarbonChain.Registry
