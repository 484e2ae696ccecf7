import CarbonChain.Misc.Outcome
import CarbonChain.Misc.Store
import CarbonChain.Soroban.Xdr

/-!
# What the host gives an invocation

Every entry point runs in an environment: the ledger time and, for each address,
whether `require_auth` succeeds for it. An account authorises by signing the
invocation. A contract address authorises the calls which that contract itself
makes and no other, whence `external` (the invocation does not come from `self`)
and `calledBy` (it does). One set of authorisations stands for the whole
transaction: it admits every invocation that the signed authorisation trees of
the network admit.

The contracts of the repository repeat two guards, the replay-protection nonce
and the comparison with the stored admin. They are stated once here, with the
error code of the contract as parameter.
-/

namespace CarbonChain

/-- The ledger time and the addresses that authorise the invocation. -/
structure Env where
  timestamp : Nat
  auth : Address → Bool

namespace Env

/-- The environment of an invocation that `self` does not make. -/
def external (env : Env) (self : Address) : Env :=
  { env with auth := fun a => env.auth a && a != self }

/-- The environment of an invocation that `self` makes. -/
def calledBy (env : Env) (self : Address) : Env :=
  { env with auth := fun a => env.auth a || a == self }

@[simp] theorem external_timestamp (env : Env) (self : Address) :
    (env.external self).timestamp = env.timestamp := rfl

@[simp] theorem calledBy_timestamp (env : Env) (self : Address) :
    (env.calledBy self).timestamp = env.timestamp := rfl

@[simp] theorem external_auth (env : Env) (self a : Address) :
    (env.external self).auth a = true ↔ env.auth a = true ∧ a ≠ self := by
  simp [external]

@[simp] theorem calledBy_auth (env : Env) (self a : Address) :
    (env.calledBy self).auth a = true ↔ env.auth a = true ∨ a = self := by
  simp [calledBy]

/-- `address.require_auth()`, which traps when it is refused. -/
def requireAuth {E : Type} (env : Env) (a : Address) : Outcome E Unit :=
  if env.auth a then .ok () else .error .trap

@[simp] theorem requireAuth_eq_ok {E : Type} {env : Env} {a : Address} {u : Unit} :
    (env.requireAuth a : Outcome E Unit) = .ok u ↔ env.auth a = true := by
  unfold requireAuth
  split <;> simp_all

@[simp] theorem requireAuth_eq_trap {E : Type} {env : Env} {a : Address} :
    (env.requireAuth a : Outcome E Unit) = .error .trap ↔ env.auth a = false := by
  unfold requireAuth
  split <;> simp_all

end Env

/-! ## Replay protection -/

/-- `get_nonce`. -/
def nonceOf (nonces : Store Address Nat) (a : Address) : Nat := (nonces.lookup a).getD 0

/-- `consume_nonce` with the caller's `if !consume_nonce(..) { return Err(code) }`. -/
def consumeNonce {E : Type} (code : E) (nonces : Store Address Nat) (a : Address)
    (expected : Nat) : Outcome E (Store Address Nat) := do
  let current := nonceOf nonces a
  rejectIf (current ≠ expected) code
  let next ← addUnsigned 64 current 1
  return nonces.insert a next

@[simp] theorem consumeNonce_eq_ok {E : Type} {code : E} {nonces nonces' : Store Address Nat}
    {a : Address} {expected : Nat} :
    consumeNonce code nonces a expected = .ok nonces' ↔
      nonceOf nonces a = expected ∧ nonceOf nonces a + 1 < 2 ^ 64 ∧
        nonces.insert a (nonceOf nonces a + 1) = nonces' := by
  simp [consumeNonce]

theorem consumeNonce_trap {E : Type} {code : E} {nonces : Store Address Nat} {a : Address}
    {expected : Nat} (h : consumeNonce code nonces a expected = .error .trap) :
    2 ^ 64 ≤ nonceOf nonces a + 1 := by
  simp only [consumeNonce, bind_eq_trap, rejectIf_ne_trap, addUnsigned_eq_trap, pure_ne_trap,
    false_or, and_false, exists_false, or_false] at h
  obtain ⟨u, -, exhausted⟩ := h
  exact exhausted

@[simp] theorem nonceOf_insert (nonces : Store Address Nat) (a b : Address) (n : Nat) :
    nonceOf (nonces.insert a n) b = if b = a then n else nonceOf nonces b := by
  unfold nonceOf
  rw [Store.lookup_insert_ite]
  split <;> rfl

/-! ## The admin guard -/

/-- `require_admin`: the stored admin exists, `caller` authorises the call and is it. -/
def requireAdmin {E : Type} (notInitialized unauthorized : E) (stored : Option Address)
    (env : Env) (caller : Address) : Outcome E Unit := do
  let admin ← okOr stored notInitialized
  env.requireAuth caller
  rejectIf (caller ≠ admin) unauthorized

@[simp] theorem requireAdmin_eq_ok {E : Type} {notInitialized unauthorized : E}
    {stored : Option Address} {env : Env} {caller : Address} {u : Unit} :
    requireAdmin notInitialized unauthorized stored env caller = .ok u ↔
      stored = some caller ∧ env.auth caller = true := by
  simp only [requireAdmin, bind_eq_ok, okOr_eq_ok, Env.requireAuth_eq_ok, rejectIf_eq_ok,
    not_not, exists_const, ne_eq]
  constructor
  · rintro ⟨admin, present, authorised, rfl⟩
    exact ⟨present, authorised⟩
  · rintro ⟨present, authorised⟩
    exact ⟨caller, present, authorised, rfl⟩

theorem requireAdmin_trap {E : Type} {notInitialized unauthorized : E}
    {stored : Option Address} {env : Env} {caller : Address}
    (h : requireAdmin notInitialized unauthorized stored env caller = .error .trap) :
    env.auth caller = false := by
  simp only [requireAdmin, bind_eq_trap, okOr_ne_trap, Env.requireAuth_eq_trap, rejectIf_ne_trap,
    false_or, and_false, exists_false, or_false] at h
  obtain ⟨admin, -, refused⟩ := h
  exact refused

end CarbonChain
