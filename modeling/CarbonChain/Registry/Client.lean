import CarbonChain.Registry.Evolution

/-!
# The registry as other contracts see it

`Marketplace`, `Retirement` and `MrvOracle` take the address of a registry as an
argument and invoke it by name, so the callee is whatever contract the caller chose.
Their code is written against a `Client`, which answers a request on an address and
threads a world `W`. The registry of this development answers by running its entry
points (`respond`); any other contract answers as it likes.
-/

namespace CarbonChain.Registry

/-- The invocations of a registry that occur in the other contracts. -/
inductive Request where
  | getCredit (creditId : BytesN32)
  | getNonce (address : Address)
  | transferCredit (sender recipient : Address) (creditId : BytesN32) (nonce : Nat)
  | markRetired (creditId : BytesN32)
  | listCreditsByProject (projectId : String)

/-- The host value that a contract returns. -/
inductive Answer where
  | unit
  | credit (credit : CreditMetadata)
  | nonce (nonce : Nat)
  | ids (ids : List BytesN32)
  deriving DecidableEq

/-- `env.invoke_contract(&registry_id, ..)`; `none` is a trap. -/
abbrev Client (W : Type) := W → Address → Request → Option (Answer × W)

namespace Client

variable {E W : Type} (invoke : Client W) (w : W) (registryId : Address)

/-- `get_credit`; an answer of another type does not deserialise, which traps. -/
def getCredit (creditId : BytesN32) : Outcome E (CreditMetadata × W) :=
  match invoke w registryId (.getCredit creditId) with
  | some (.credit credit, w) => .ok (credit, w)
  | _ => .error .trap

/-- `get_nonce`. -/
def getNonce (address : Address) : Outcome E (Nat × W) :=
  match invoke w registryId (.getNonce address) with
  | some (.nonce nonce, w) => .ok (nonce, w)
  | _ => .error .trap

/-- `transfer_credit`. -/
def transferCredit (sender recipient : Address) (creditId : BytesN32) (nonce : Nat) :
    Outcome E W :=
  match invoke w registryId (.transferCredit sender recipient creditId nonce) with
  | some (.unit, w) => .ok w
  | _ => .error .trap

/-- `mark_retired`. -/
def markRetired (creditId : BytesN32) : Outcome E W :=
  match invoke w registryId (.markRetired creditId) with
  | some (.unit, w) => .ok w
  | _ => .error .trap

/-- `list_credits_by_project`. -/
def listCreditsByProject (projectId : String) : Outcome E (List BytesN32 × W) :=
  match invoke w registryId (.listCreditsByProject projectId) with
  | some (.ids ids, w) => .ok (ids, w)
  | _ => .error .trap

variable {invoke w registryId}

@[simp] theorem getCredit_eq_ok {creditId : BytesN32} {credit : CreditMetadata} {w' : W} :
    (getCredit invoke w registryId creditId : Outcome E _) = .ok (credit, w') ↔
      invoke w registryId (.getCredit creditId) = some (.credit credit, w') := by
  unfold getCredit
  split <;> simp_all

@[simp] theorem getNonce_eq_ok {address : Address} {nonce : Nat} {w' : W} :
    (getNonce invoke w registryId address : Outcome E _) = .ok (nonce, w') ↔
      invoke w registryId (.getNonce address) = some (.nonce nonce, w') := by
  unfold getNonce
  split <;> simp_all

@[simp] theorem transferCredit_eq_ok {sender recipient : Address} {creditId : BytesN32}
    {nonce : Nat} {w' : W} :
    (transferCredit invoke w registryId sender recipient creditId nonce : Outcome E _) = .ok w' ↔
      invoke w registryId (.transferCredit sender recipient creditId nonce) =
        some (.unit, w') := by
  unfold transferCredit
  split <;> simp_all

@[simp] theorem markRetired_eq_ok {creditId : BytesN32} {w' : W} :
    (markRetired invoke w registryId creditId : Outcome E _) = .ok w' ↔
      invoke w registryId (.markRetired creditId) = some (.unit, w') := by
  unfold markRetired
  split <;> simp_all

@[simp] theorem listCreditsByProject_eq_ok {projectId : String} {ids : List BytesN32} {w' : W} :
    (listCreditsByProject invoke w registryId projectId : Outcome E _) = .ok (ids, w') ↔
      invoke w registryId (.listCreditsByProject projectId) = some (.ids ids, w') := by
  unfold listCreditsByProject
  split <;> simp_all

end Client

/-! ## The registry's own answers -/

/-- How the registry of this development, in storage `s`, answers a request. -/
def respond (env : Env) (s : State) (request : Request) : Result (Answer × State) := do
  panicIf s.roles.wasm.isSome
  match request with
  | .getCredit creditId => do
      let credit ← getCredit s creditId
      return (.credit credit, s)
  | .getNonce address => return (.nonce (s.getNonce address), s)
  | .transferCredit sender recipient creditId nonce => do
      let s ← transferCredit env s sender recipient creditId nonce
      return (.unit, s)
  | .markRetired creditId => do
      let s ← markRetired env s creditId
      return (.unit, s)
  | .listCreditsByProject projectId =>
      return (.ids (s.ledger.getCreditsByProject projectId), s)

variable {sha256 : Bytes → BytesN32} {env : Env} {s s' : State} {answer : Answer}

/-- A request for a credit is answered by the stored credit and changes nothing. -/
theorem respond_getCredit {creditId : BytesN32}
    (h : respond env s (.getCredit creditId) = .ok (answer, s')) :
    s' = s ∧ ∃ credit, s.ledger.getCredit creditId = some credit ∧ answer = .credit credit := by
  simp only [respond, getCredit, bind_eq_ok, panicIf_eq_ok, okOr_eq_ok, pure_eq_ok,
    Prod.mk.injEq, exists_const] at h
  obtain ⟨-, credit, stored, rfl, rfl⟩ := h
  exact ⟨rfl, credit, stored, rfl⟩

theorem respond_getNonce {address : Address}
    (h : respond env s (.getNonce address) = .ok (answer, s')) :
    s' = s ∧ answer = .nonce (s.getNonce address) := by
  simp only [respond, bind_eq_ok, panicIf_eq_ok, pure_eq_ok, Prod.mk.injEq, exists_const] at h
  obtain ⟨-, rfl, rfl⟩ := h
  exact ⟨rfl, rfl⟩

theorem respond_listCreditsByProject {projectId : String}
    (h : respond env s (.listCreditsByProject projectId) = .ok (answer, s')) : s' = s := by
  simp only [respond, bind_eq_ok, panicIf_eq_ok, pure_eq_ok, Prod.mk.injEq, exists_const] at h
  exact h.2.2.symm

/-- A request that changes the registry is the invocation of its entry point. -/
theorem respond_transferCredit {sender recipient : Address} {creditId : BytesN32} {nonce : Nat}
    (h : respond env s (.transferCredit sender recipient creditId nonce) = .ok (answer, s')) :
    exec sha256 s ⟨env, .transferCredit sender recipient creditId nonce⟩ = .ok (.unit, s') := by
  simp only [respond, bind_eq_ok, panicIf_eq_ok, pure_eq_ok, Prod.mk.injEq, exists_const] at h
  obtain ⟨current, _, transferred, -, rfl⟩ := h
  rw [exec_eq_ok]
  exact ⟨by simpa using current, Result.unit_eq_ok.mpr ⟨transferred, rfl⟩⟩

/-- `transfer_credit` finds the sender as the owner and makes the recipient the owner. -/
theorem respond_transferCredit_ok {sender recipient : Address} {creditId : BytesN32} {nonce : Nat}
    (h : respond env s (.transferCredit sender recipient creditId nonce) = .ok (answer, s')) :
    ∃ credit, s.ledger.getCredit creditId = some credit ∧ credit.owner = sender ∧
      s'.ledger = s.ledger.setCredit creditId { credit with owner := recipient } := by
  simp only [respond, bind_eq_ok, panicIf_eq_ok, pure_eq_ok, Prod.mk.injEq, exists_const,
    transferCredit, rejectIf_eq_ok, Env.requireAuth_eq_ok, okOr_eq_ok, not_not, ne_eq] at h
  obtain ⟨-, _, ⟨-, -, nonces, -, credit, stored, owned, rfl⟩, -, rfl⟩ := h
  exact ⟨credit, stored, owned, rfl⟩

/-- `mark_retired` finds the credit active and retires it. -/
theorem respond_markRetired_ok {creditId : BytesN32}
    (h : respond env s (.markRetired creditId) = .ok (answer, s')) :
    ∃ credit, s.ledger.getCredit creditId = some credit ∧ credit.status = .active ∧
      s' = { s with
        ledger := s.ledger.setCredit creditId { credit with status := .retired } } := by
  simp only [respond, bind_eq_ok, panicIf_eq_ok, pure_eq_ok, Prod.mk.injEq, exists_const] at h
  obtain ⟨-, _, retired, -, rfl⟩ := h
  obtain ⟨_, credit, -, -, stored, active, rfl⟩ := markRetired_ok env s retired
  exact ⟨credit, stored, active, rfl⟩

theorem respond_markRetired {creditId : BytesN32}
    (h : respond env s (.markRetired creditId) = .ok (answer, s')) :
    exec sha256 s ⟨env, .markRetired creditId⟩ = .ok (.unit, s') := by
  simp only [respond, bind_eq_ok, panicIf_eq_ok, pure_eq_ok, Prod.mk.injEq, exists_const] at h
  obtain ⟨current, _, retired, -, rfl⟩ := h
  rw [exec_eq_ok]
  exact ⟨by simpa using current, Result.unit_eq_ok.mpr ⟨retired, rfl⟩⟩

end CarbonChain.Registry
