import CarbonChain.Misc.Outcome

/-!
# The Stellar service

`StellarService` of `api/src/stellar/stellar.service.ts`. `invokeContract` (54-97) simulates a
transaction, sends it and polls for its result (158-174); `readContract` (176-209) simulates one
only. What the servers answer comes from outside, and each of them may throw instead. An error
is its message; a trap is an error of the SDK.
-/

namespace CarbonChain.Stellar

/-- A result of the service or of the SDK. -/
abbrev Result (α : Type) := Outcome String α

/-- `SendTransactionStatus` of the SDK. -/
inductive SendStatus where
  | pending
  | duplicate
  | tryAgainLater
  | error
  deriving DecidableEq

/-- The string that a status is. -/
def SendStatus.text : SendStatus → String
  | .pending => "PENDING"
  | .duplicate => "DUPLICATE"
  | .tryAgainLater => "TRY_AGAIN_LATER"
  | .error => "ERROR"

/-- `GetTransactionStatus` of the SDK. -/
inductive TransactionStatus where
  | success
  | failed
  | notFound
  | pending
  deriving DecidableEq

/-- A transaction on the server, with the value that the contract returned. -/
structure GetTransactionResponse (V : Type) where
  status : TransactionStatus
  returnValue : Option V

/-- What the servers answer as a transaction is submitted: `simulateTransaction` with an error
in JSON or none, `sendTransaction` with the hash, and the `i`-th `getTransaction`. -/
structure Rpc (V : Type) where
  loadAccount : Result Unit
  simulateTransaction : Result (Option String)
  sendTransaction : Result (SendStatus × String)
  getTransaction : Nat → Result (GetTransactionResponse V)

variable {V : Type}

/-- Polling ends at such a response, a failed one too. -/
def GetTransactionResponse.Final (response : GetTransactionResponse V) : Prop :=
  response.status ≠ .notFound ∧ response.status ≠ .pending

instance (response : GetTransactionResponse V) : Decidable response.Final :=
  inferInstanceAs (Decidable (_ ∧ _))

/-- `pollTransactionStatus` (158-174) from the `i`-th poll on, with `maxRetries` polls left. -/
def pollTransactionStatus (getTransaction : Nat → Result (GetTransactionResponse V))
    (hash : String) : (maxRetries i : Nat) → Result (GetTransactionResponse V)
  | 0, _ => .error (.error ("Transaction polling timed out for hash: " ++ hash))
  | maxRetries + 1, i => do
      let response ← getTransaction i
      if response.Final then return response
      pollTransactionStatus getTransaction hash maxRetries (i + 1)

/-- `invokeContract` (54-97), with what the servers answer. -/
def invokeContract (rpc : Rpc V) : Result (GetTransactionResponse V) := do
  rpc.loadAccount
  let simulation ← rpc.simulateTransaction
  match simulation with
  | some failure => .error (.error ("Simulation failed: " ++ failure))
  | none =>
      let (status, hash) ← rpc.sendTransaction
      if status = .pending then pollTransactionStatus rpc.getTransaction hash 10 0
      else .error (.error ("Transaction failed with status: " ++ status.text))

/-! ## Reading -/

/-- `new Account(accountId, '0')` of the SDK, which throws for an id that it does not take for a
key, such as one whose last characters are not the checksum of the others. -/
abbrev NewAccount := String → Result Unit

/-- The account that every reading names as the source of its transaction (183). -/
def readAccountId : String := "GAAAAAAAAAAAAAAAAAAAAAAAAAAAAAAAAAAAAAAAAAAAAAAAAAAAAAAA"

/-- `readContract` (176-209). The account is made before anything is asked of a server; what the
simulation then returns is `undefined` if it does not succeed. -/
def readContract (newAccount : NewAccount) (simulated : Result (Option V)) :
    Result (Option V) := do
  newAccount readAccountId
  simulated

/-- The SDK takes the account that readings name. -/
def TakesReadAccount (newAccount : NewAccount) : Prop := newAccount readAccountId = .ok ()

instance (newAccount : NewAccount) : Decidable (TakesReadAccount newAccount) :=
  inferInstanceAs (Decidable (_ = _))

theorem readContract_of_takes {newAccount : NewAccount} (takes : TakesReadAccount newAccount)
    (simulated : Result (Option V)) : readContract newAccount simulated = simulated := by
  rw [readContract, takes]
  rfl

/-- A reading throws, whatever the servers would answer. -/
theorem readContract_of_refuses {newAccount : NewAccount}
    (refuses : ¬ TakesReadAccount newAccount) (simulated : Result (Option V)) :
    ∃ failure, readContract newAccount simulated = .error failure := by
  unfold readContract
  cases made : newAccount readAccountId with
  | ok account => exact absurd made refuses
  | error failure => exact ⟨failure, rfl⟩

namespace Sample

/-- The SDK on the key of zeros: its id ends in the checksum `WHF`, and no other id is taken. -/
def strkey : NewAccount := fun accountId =>
  if accountId = "GAAAAAAAAAAAAAAAAAAAAAAAAAAAAAAAAAAAAAAAAAAAAAAAAAAAAWHF" then .ok ()
  else .error (.error "accountId is invalid")

/-- No id is checked. -/
def unchecked : NewAccount := fun _ => .ok ()

end Sample

theorem strkey_refuses : ¬ TakesReadAccount Sample.strkey := by decide

/-! ## Invoking -/

/-- The transaction is accepted, and one of the ten polls finds it with this response. -/
structure Rpc.Responds (rpc : Rpc V) (response : GetTransactionResponse V) : Prop where
  loaded : rpc.loadAccount = .ok ()
  simulated : rpc.simulateTransaction = .ok none
  sent : ∃ hash, rpc.sendTransaction = .ok (.pending, hash)
  polled : ∃ i < 10, rpc.getTransaction i = .ok response ∧ response.Final ∧
    ∀ j < i, ∃ earlier, rpc.getTransaction j = .ok earlier ∧ ¬ earlier.Final

theorem pollTransactionStatus_eq_ok {getTransaction : Nat → Result (GetTransactionResponse V)}
    {hash : String} {response : GetTransactionResponse V} (maxRetries i : Nat) :
    pollTransactionStatus getTransaction hash maxRetries i = .ok response ↔
      ∃ k < maxRetries, getTransaction (i + k) = .ok response ∧ response.Final ∧
        ∀ j < k, ∃ earlier, getTransaction (i + j) = .ok earlier ∧ ¬ earlier.Final := by
  induction maxRetries generalizing i with
  | zero => simp [pollTransactionStatus]
  | succ maxRetries ih =>
      rw [pollTransactionStatus, bind_eq_ok]
      constructor
      · rintro ⟨first, answered, rest⟩
        split at rest
        · rename_i final
          rw [pure_eq_ok] at rest
          rw [rest] at answered final
          exact ⟨0, Nat.succ_pos _, answered, final, by simp⟩
        · rename_i open_
          obtain ⟨k, few, found, final, earlier⟩ := (ih (i + 1)).mp rest
          refine ⟨k + 1, by omega, ?_, final, ?_⟩
          · rwa [Nat.add_right_comm] at found
          · intro j before
            cases j with
            | zero => exact ⟨first, answered, open_⟩
            | succ j =>
                have poll := earlier j (by omega)
                rwa [Nat.add_right_comm] at poll
      · rintro ⟨k, few, found, final, earlier⟩
        cases k with
        | zero => exact ⟨response, found, by rw [if_pos final, pure_eq_ok]⟩
        | succ k =>
            obtain ⟨first, answered, open_⟩ := earlier 0 (Nat.succ_pos k)
            refine ⟨first, answered, ?_⟩
            rw [if_neg open_, ih]
            refine ⟨k, by omega, ?_, final, ?_⟩
            · rwa [Nat.add_right_comm]
            · intro j before
              have poll := earlier (j + 1) (by omega)
              rwa [Nat.add_right_comm]

theorem invokeContract_eq_ok {rpc : Rpc V} {response : GetTransactionResponse V} :
    invokeContract rpc = .ok response ↔ rpc.Responds response := by
  simp only [invokeContract, bind_eq_ok]
  constructor
  · rintro ⟨⟨⟩, loaded, simulation, simulated, rest⟩
    split at rest
    · cases rest
    · rw [bind_eq_ok] at rest
      obtain ⟨⟨status, hash⟩, sent, rest⟩ := rest
      dsimp only at rest
      split at rest
      · rename_i pending
        rw [pending] at sent
        have polled := (pollTransactionStatus_eq_ok 10 0).mp rest
        simp only [Nat.zero_add] at polled
        exact ⟨loaded, simulated, ⟨hash, sent⟩, polled⟩
      · cases rest
  · rintro ⟨loaded, simulated, ⟨hash, sent⟩, polled⟩
    refine ⟨(), loaded, none, simulated, ?_⟩
    simp only [bind_eq_ok, Prod.exists]
    refine ⟨.pending, hash, sent, ?_⟩
    rw [if_pos rfl, pollTransactionStatus_eq_ok]
    simpa only [Nat.zero_add] using polled

theorem Rpc.Responds.unique {rpc : Rpc V} {response response' : GetTransactionResponse V}
    (responds : rpc.Responds response) (responds' : rpc.Responds response') :
    response = response' := by
  rw [← invokeContract_eq_ok] at responds responds'
  rw [responds] at responds'
  exact Except.ok.inj responds'

end CarbonChain.Stellar
