import CarbonChain.Registry.Storage

/-!
# CreditRegistry: the credit lifecycle

The entry points of `contracts/credit_registry/src/lib.rs` that work on credits:
submission, multi-signature approval, flagging, retirement, transfer, splitting,
expiry, disputes and merging. The ids of new credits hash the project id
(`submit_credit`, `merge_credits`) or the parent id (`split_credit`) together with
a counter that every derivation advances.
-/

namespace CarbonChain.Registry

/-- The id of a credit derived from `origin` at counter value `n`. -/
def creditId (sha256 : Bytes → BytesN32) (origin : ScVal) (n : Nat) : BytesN32 :=
  sha256 (origin.toXdr ++ (ScVal.u64 n).toXdr)

/-- Derives the next id from `origin` and advances the counter. -/
def Ledger.nextCreditId (sha256 : Bytes → BytesN32) (ledger : Ledger) (origin : ScVal) :
    Result (BytesN32 × Ledger) := do
  let creditNonce ← addUnsigned 64 ledger.creditNonce 1
  return (creditId sha256 origin ledger.creditNonce, { ledger with creditNonce })

/-- The status is one that `submit_credit` treats as occupying its vintage. -/
def CreditStatus.isLive : CreditStatus → Bool
  | .pending => true
  | .active => true
  | _ => false

/-- The duplicate check of `submit_credit`: it reads the one id that is indexed
under the project and the vintage. -/
def Ledger.duplicateExists (ledger : Ledger) (projectId : String) (vintageYear : Nat) : Bool :=
  match ledger.getCreditByProjectVintage projectId vintageYear with
  | none => false
  | some existingId =>
      match ledger.getCredit existingId with
      | none => false
      | some existingCredit => existingCredit.status.isLive

/-- `(env.ledger().timestamp() / 31_536_000) as u32 + 1970`. -/
def currentYear (env : Env) : Result Nat :=
  addUnsigned 32 (env.timestamp / 31536000 % 2 ^ 32) 1970

variable (sha256 : Bytes → BytesN32) (env : Env) (s : State)

/-- `submit_credit` (`lib.rs:315-405`): the guards in the order of the source. The new credit
is pending and counts for every verifier. -/
def submitCredit (issuer : Address) (projectId : String) (vintageYear : Nat)
    (methodology geography : String) (tonnes : Int) (ipfsHash : String) (nonce : Nat) :
    Result (BytesN32 × State) := do
  rejectIf (!s.roles.hasAdmin) .notInitialized
  rejectIf s.roles.paused .contractPaused
  env.requireAuth issuer
  let nonce ← s.consumeNonce issuer nonce
  rejectIf (s.project.lookup projectId).isNone .projectNotFound
  rejectIf (!s.roles.isIssuer issuer) .issuerNotAllowed
  rejectIf (!s.roles.isMethodologyValid methodology) .invalidMetadata
  rejectIf (tonnes ≤ 0) .invalidTonnes
  rejectIf (tonnes > 1000000000000000) .invalidTonnes
  let year ← currentYear env
  rejectIf (vintageYear < 1990) .invalidMetadata
  -- `||` evaluates `current_year + 1` only past the first comparison
  let lastYear ← addUnsigned 32 year 1
  rejectIf (vintageYear > lastYear) .invalidMetadata
  rejectIf (geography.utf8ByteSize < 2) .invalidMetadata
  rejectIf (s.ledger.duplicateExists projectId vintageYear) .duplicateCredit
  let (id, ledger) ← s.ledger.nextCreditId sha256 (.string projectId)
  let metadata : CreditMetadata :=
    { projectId, issuer, owner := issuer, vintageYear, methodology, geography, tonnes, ipfsHash,
      status := .pending, issuedAt := env.timestamp }
  let ledger := ledger.setCredit id metadata
  let ledger := ledger.setCreditByProjectVintage projectId vintageYear id
  let ledger := ledger.addCreditToProject projectId id
  let verifiers ← s.verifiers.incrementAllPending s.roles.verifierSet
  return (id, { s with nonce, ledger, verifiers })

/-- `approve_and_mint` (`lib.rs:410-454`): the approval that reaches the threshold makes the
credit active and forgets the approvals. -/
def approveAndMint (verifier : Address) (creditId : BytesN32) (nonce : Nat) :
    Result State := do
  rejectIf s.roles.paused .contractPaused
  env.requireAuth verifier
  rejectIf (!s.roles.isVerifier verifier) .unauthorized
  let nonce ← s.consumeNonce verifier nonce
  let credit ← okOr (s.ledger.getCredit creditId) .creditNotFound
  rejectIf (credit.status ≠ .pending) .invalidStatusTransition
  let approvals := s.ledger.getCreditApprovals creditId
  rejectIf (approvals.contains verifier) .alreadyApproved
  let approvals := approvals ++ [verifier]
  let ledger := s.ledger.setCreditApprovals creditId approvals
  let verifiers ← s.verifiers.incrementApprovalCount verifier
  if approvals.length ≥ s.roles.getRequiredApprovals then
    let ledger := ledger.setCredit creditId { credit with status := .active }
    let ledger := ledger.removeCreditApprovals creditId
    let verifiers := verifiers.decrementAllPending s.roles.verifierSet
    return { s with nonce, ledger, verifiers }
  else
    return { s with nonce, ledger := ledger.setCredit creditId credit, verifiers }

/-- `flag_credit` (`lib.rs:466-494`). The reason is only published. -/
def flagCredit (verifier : Address) (creditId : BytesN32) (_reason : String) (nonce : Nat) :
    Result State := do
  rejectIf s.roles.paused .contractPaused
  env.requireAuth verifier
  rejectIf (!s.roles.isVerifier verifier) .unauthorized
  let nonce ← s.consumeNonce verifier nonce
  let credit ← okOr (s.ledger.getCredit creditId) .creditNotFound
  rejectIf (credit.status = .retired ∨ credit.status = .flagged) .invalidStatusTransition
  let ledger := s.ledger.setCredit creditId { credit with status := .flagged }
  let verifiers ← s.verifiers.incrementDisputeCount verifier
  let verifiers :=
    if credit.status = .pending then verifiers.decrementAllPending s.roles.verifierSet
    else verifiers
  return { s with nonce, ledger, verifiers }

/-- `mark_retired` (`lib.rs:506-521`). Only the registered retirement contract authorises this
call. -/
def markRetired (creditId : BytesN32) : Result State := do
  rejectIf s.roles.paused .contractPaused
  let retirementContract ← okOr s.roles.retirementContract .notInitialized
  env.requireAuth retirementContract
  let credit ← okOr (s.ledger.getCredit creditId) .creditNotFound
  rejectIf (credit.status ≠ .active) .invalidStatusTransition
  return { s with ledger := s.ledger.setCredit creditId { credit with status := .retired } }

/-- `transfer_credit` (`lib.rs:525-541`). The status of the credit is not read. -/
def transferCredit (sender recipient : Address) (creditId : BytesN32) (nonce : Nat) :
    Result State := do
  rejectIf s.roles.paused .contractPaused
  env.requireAuth sender
  let nonce ← s.consumeNonce sender nonce
  let credit ← okOr (s.ledger.getCredit creditId) .creditNotFound
  rejectIf (credit.owner ≠ sender) .unauthorized
  return { s with
    nonce, ledger := s.ledger.setCredit creditId { credit with owner := recipient } }

/-- `split_credit` (`lib.rs:545-595`). The children keep the status that the original had
before the call. -/
def splitCredit (caller : Address) (creditId : BytesN32) (splitTonnes : Int) (nonce : Nat) :
    Result ((BytesN32 × BytesN32) × State) := do
  rejectIf s.roles.paused .contractPaused
  env.requireAuth caller
  let nonce ← s.consumeNonce caller nonce
  let original ← okOr (s.ledger.getCredit creditId) .creditNotFound
  rejectIf (original.owner ≠ caller) .unauthorized
  rejectIf (splitTonnes ≤ 0 ∨ splitTonnes ≥ original.tonnes) .invalidSplit
  let remainingTonnes := original.tonnes - splitTonnes
  let (child1Id, ledger) ← s.ledger.nextCreditId sha256 (.bytes creditId)
  let (child2Id, ledger) ← ledger.nextCreditId sha256 (.bytes creditId)
  let child1 := { original with tonnes := splitTonnes, owner := caller }
  let ledger := ledger.setCredit child1Id child1
  let ledger := ledger.addCreditToProject original.projectId child1Id
  let child2 := { original with tonnes := remainingTonnes, owner := caller }
  let ledger := ledger.setCredit child2Id child2
  let ledger := ledger.addCreditToProject original.projectId child2Id
  let ledger := ledger.setCredit creditId { original with status := .retired }
  return ((child1Id, child2Id), { s with nonce, ledger })

/-- `expire_credit` (`lib.rs:771-785`): the counts of the verifiers stay as they are. -/
def expireCredit (admin : Address) (creditId : BytesN32) : Result State := do
  s.roles.requireAdmin env admin
  let credit ← okOr (s.ledger.getCredit creditId) .creditNotFound
  rejectIf (credit.status = .retired ∨ credit.status = .expired) .invalidStatusTransition
  return { s with ledger := s.ledger.setCredit creditId { credit with status := .expired } }

/-- `dispute_credit` (`lib.rs:802-818`). Anyone may dispute, whether or not the contract is
paused. -/
def disputeCredit (disputer : Address) (creditId : BytesN32) (evidenceIpfsHash : String) :
    Result State := do
  env.requireAuth disputer
  let credit ← okOr (s.ledger.getCredit creditId) .creditNotFound
  rejectIf (credit.status = .retired ∨ credit.status = .disputed) .invalidStatusTransition
  let ledger := s.ledger.setCredit creditId { credit with status := .disputed }
  let dispute := ledger.dispute.insert creditId evidenceIpfsHash
  return { s with ledger := { ledger with dispute } }

/-- The status that `resolve_dispute` gives for an outcome code. -/
def disputeOutcome (outcome : Nat) : Result CreditStatus :=
  if outcome = 0 then .ok .active
  else if outcome = 1 then .ok .flagged
  else .error (.error .invalidMetadata)

/-- `resolve_dispute` (`lib.rs:820-846`): the approvals of the credit are not read. -/
def resolveDispute (admin : Address) (creditId : BytesN32) (outcome : Nat) :
    Result State := do
  s.roles.requireAdmin env admin
  let credit ← okOr (s.ledger.getCredit creditId) .creditNotFound
  rejectIf (credit.status ≠ .disputed) .invalidDisputeStatus
  let status ← disputeOutcome outcome
  let ledger := s.ledger.setCredit creditId { credit with status }
  return { s with ledger := { ledger with dispute := ledger.dispute.erase creditId } }

/-! ## Merging -/

/-- The local variables of the accumulation loop of `merge_credits`. -/
structure MergeTotals where
  totalTonnes : Int
  projectId : Option String
  vintageYear : Option Nat
  issuer : Option Address
  methodology : Option String
  geography : Option String
  ipfsHash : Option String

/-- What the loop starts from. -/
def MergeTotals.start : MergeTotals := ⟨0, none, none, none, none, none, none⟩

/-- `if let Some(ref w) = seen { if value != *w { return Err(InvalidMetadata) } } else
{ seen = Some(value) }`. -/
def agree {α : Type} [DecidableEq α] (seen : Option α) (value : α) : Result (Option α) :=
  match seen with
  | some w => if value ≠ w then .error (.error .invalidMetadata) else .ok (some w)
  | none => .ok (some value)

/-- One iteration of the accumulation loop. -/
def mergeOne (ledger : Ledger) (caller : Address) (acc : MergeTotals) (id : BytesN32) :
    Result MergeTotals := do
  let credit ← okOr (ledger.getCredit id) .creditNotFound
  rejectIf (credit.owner ≠ caller) .unauthorized
  rejectIf (credit.status ≠ .active) .invalidStatusTransition
  let projectId ← agree acc.projectId credit.projectId
  let vintageYear ← agree acc.vintageYear credit.vintageYear
  let issuer ← agree acc.issuer credit.issuer
  let methodology ← agree acc.methodology credit.methodology
  let geography ← agree acc.geography credit.geography
  let totalTonnes ← checkedAddSigned 128 acc.totalTonnes credit.tonnes .overflow
  return { totalTonnes, projectId, vintageYear, issuer, methodology, geography,
           ipfsHash := some credit.ipfsHash }

/-- One iteration of the loop that retires the sources. -/
def retireOne (ledger : Ledger) (id : BytesN32) : Result Ledger := do
  let credit ← okOr (ledger.getCredit id) .creditNotFound
  return ledger.setCredit id { credit with status := .retired }

/-- `merge_credits` (`lib.rs:850-953`). The list of ids is the caller's: it may repeat an id.
-/
def mergeCredits (caller : Address) (creditIds : List BytesN32) :
    Result (BytesN32 × State) := do
  env.requireAuth caller
  rejectIf (creditIds.length < 2) .invalidMetadata
  let acc ← creditIds.foldlM (mergeOne s.ledger caller) MergeTotals.start
  let projectId ← unwrap acc.projectId
  let (mergedId, ledger) ← s.ledger.nextCreditId sha256 (.string projectId)
  let issuer ← unwrap acc.issuer
  let vintageYear ← unwrap acc.vintageYear
  let methodology ← unwrap acc.methodology
  let geography ← unwrap acc.geography
  let ipfsHash ← unwrap acc.ipfsHash
  let mergedCredit : CreditMetadata :=
    { projectId, issuer, owner := caller, vintageYear, methodology, geography,
      tonnes := acc.totalTonnes, ipfsHash, status := .active, issuedAt := env.timestamp }
  let ledger := ledger.setCredit mergedId mergedCredit
  let ledger := ledger.addCreditToProject projectId mergedId
  let ledger ← creditIds.foldlM retireOne ledger
  return (mergedId, { s with ledger })

end CarbonChain.Registry
