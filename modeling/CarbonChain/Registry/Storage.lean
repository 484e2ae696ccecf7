import CarbonChain.Soroban.Host

/-!
# CreditRegistry: types and storage

The types of `contracts/credit_registry/src/types.rs`, the error codes of `errors.rs` that
an entry point returns, and the storage of `storage.rs`. Each constructor of
`DataKey` is a field: a constructor with arguments is a store, and a getter with
`unwrap_or` reads an absent key as its default. `DataKey::CreditAssignedVerifier`
is left out, since no entry point reads or writes it. Credit amounts are in
micro-tonnes. Time-to-live extensions and published events do not appear: no entry
point reads either.
-/

namespace CarbonChain.Registry

/-- `types.rs:9-16`. -/
inductive CreditStatus where
  | pending
  | active
  | retired
  | flagged
  | disputed
  | expired
  deriving DecidableEq, Repr

/-- `types.rs:20-23`. -/
inductive ServiceType where
  | creditApproval
  | mrvReview
  deriving DecidableEq, Repr

/-- `types.rs:27-39`. `tonnes` counts micro-tonnes. -/
structure CreditMetadata where
  projectId : String
  issuer : Address
  owner : Address
  vintageYear : Nat
  methodology : String
  geography : String
  tonnes : Int
  ipfsHash : String
  status : CreditStatus
  issuedAt : Nat
  deriving DecidableEq, Repr

/-- `types.rs:43-46`. -/
structure VerifierReputation where
  approvalCount : Nat
  disputeCount : Nat
  deriving DecidableEq, Repr

/-- `types.rs:50-53`. -/
structure Methodology where
  code : String
  name : String
  deriving DecidableEq, Repr

/-- `types.rs:57-63`. -/
structure ProjectMetadata where
  owner : Address
  name : String
  description : String
  location : String
  createdAt : Nat
  deriving DecidableEq, Repr

/-- `types.rs:68-72`. `operation_count` is never updated: the count is kept under its own key.
-/
structure Session where
  initiator : Address
  createdAt : Nat
  operationCount : Nat
  deriving DecidableEq, Repr

/-- `types.rs:77-83`. -/
structure AuditLogEntry where
  sessionId : BytesN32
  creditId : BytesN32
  actor : Address
  action : String
  timestamp : Nat
  deriving DecidableEq, Repr

/-- The errors that an entry point returns (`errors.rs:6-36`). -/
inductive CarbonChainError where
  | notInitialized
  | alreadyInitialized
  | unauthorized
  | invalidMetadata
  | creditNotFound
  | invalidStatusTransition
  | verifierAlreadyExists
  | verifierNotFound
  | overflow
  | invalidTonnes
  | contractPaused
  | issuerNotAllowed
  | invalidNonce
  | noPendingAdmin
  | invalidSplit
  | invalidDisputeStatus
  | verifierHasPendingCredits
  | projectNotFound
  | duplicateCredit
  | projectAlreadyExists
  | sessionNotFound
  | invalidApprovalThreshold
  | alreadyApproved
  deriving DecidableEq, Repr

abbrev Result (α : Type) := Outcome CarbonChainError α

/-- Who may do what. `wasm` is the code hash that a successful `upgrade` installed;
it is `none` while the contract runs the code modelled here. -/
structure Roles where
  admin : Option Address
  pendingAdmin : Option Address
  retirementContract : Option Address
  verifierSet : List Address
  issuerSet : List Address
  methodologySet : List Methodology
  paused : Bool
  requiredApprovals : Option Nat
  wasm : Option BytesN32

/-- The credits with their indices, approvals and dispute evidence. -/
structure Ledger where
  creditNonce : Nat
  credit : Store BytesN32 CreditMetadata
  projectCredits : Store String (List BytesN32)
  creditByProjectVintage : Store (String × Nat) BytesN32
  creditApprovals : Store BytesN32 (List Address)
  dispute : Store BytesN32 String

/-- What is stored about each verifier. -/
structure VerifierRecords where
  verifierReputation : Store Address VerifierReputation
  verifierPendingCount : Store Address Nat
  verifierServices : Store Address (List ServiceType)

/-- The sessions and their log. -/
structure Audit where
  auditLogCount : Nat
  session : Store BytesN32 Session
  sessionOpCount : Store BytesN32 Nat
  auditLog : Store BytesN32 AuditLogEntry

/-- The storage of the contract, in the parts that its entry points change together. -/
structure State where
  roles : Roles
  ledger : Ledger
  verifiers : VerifierRecords
  audit : Audit
  project : Store String ProjectMetadata
  nonce : Store Address Nat

/-- The storage before `initialize`. -/
def State.empty : State where
  roles := ⟨none, none, none, [], [], [], false, none, none⟩
  ledger := ⟨0, ∅, ∅, ∅, ∅, ∅⟩
  verifiers := ⟨∅, ∅, ∅⟩
  audit := ⟨0, ∅, ∅, ∅⟩
  project := ∅
  nonce := ∅

namespace Roles

variable (roles : Roles)

/-- `has_admin` (`storage.rs:17-19`). -/
def hasAdmin : Bool := roles.admin.isSome

/-- `is_verifier` (`storage.rs:53-55`). -/
def isVerifier (verifier : Address) : Bool := roles.verifierSet.contains verifier

/-- `is_issuer` (`storage.rs:154-156`). -/
def isIssuer (issuer : Address) : Bool := roles.issuerSet.contains issuer

/-- `is_methodology_valid` (`storage.rs:170-178`). -/
def isMethodologyValid (code : String) : Bool := roles.methodologySet.any (·.code == code)

/-- `get_required_approvals` (`storage.rs:231-236`): one before `initialize`. -/
def getRequiredApprovals : Nat := roles.requiredApprovals.getD 1

/-- The guard that the admin-only entry points open with. -/
def requireAdmin (env : Env) (admin : Address) : Result Unit :=
  CarbonChain.requireAdmin .notInitialized .unauthorized roles.admin env admin

end Roles

namespace Ledger

variable (ledger : Ledger)

/-- `get_credit` (`storage.rs:27-29`). -/
def getCredit (id : BytesN32) : Option CreditMetadata := ledger.credit.lookup id

/-- `set_credit` (`storage.rs:21-25`). -/
def setCredit (id : BytesN32) (metadata : CreditMetadata) : Ledger :=
  { ledger with credit := ledger.credit.insert id metadata }

/-- `get_credits_by_project` (`storage.rs:66-71`). -/
def getCreditsByProject (projectId : String) : List BytesN32 :=
  (ledger.projectCredits.lookup projectId).getD []

/-- `add_credit_to_project` (`storage.rs:58-64`). -/
def addCreditToProject (projectId : String) (creditId : BytesN32) : Ledger :=
  { ledger with
    projectCredits := ledger.projectCredits.insert projectId
      (ledger.getCreditsByProject projectId ++ [creditId]) }

/-- `get_credit_by_project_vintage` (`storage.rs:73-77`). -/
def getCreditByProjectVintage (projectId : String) (vintageYear : Nat) : Option BytesN32 :=
  ledger.creditByProjectVintage.lookup (projectId, vintageYear)

/-- `set_credit_by_project_vintage` (`storage.rs:79-83`): the last id written for a project and
a year is the one kept. -/
def setCreditByProjectVintage (projectId : String) (vintageYear : Nat) (creditId : BytesN32) :
    Ledger :=
  { ledger with
    creditByProjectVintage :=
      ledger.creditByProjectVintage.insert (projectId, vintageYear) creditId }

/-- `get_credit_approvals` (`storage.rs:242-247`). -/
def getCreditApprovals (creditId : BytesN32) : List Address :=
  (ledger.creditApprovals.lookup creditId).getD []

/-- `set_credit_approvals` (`storage.rs:249-253`). -/
def setCreditApprovals (creditId : BytesN32) (approvals : List Address) : Ledger :=
  { ledger with creditApprovals := ledger.creditApprovals.insert creditId approvals }

/-- `remove_credit_approvals` (`storage.rs:255-259`). -/
def removeCreditApprovals (creditId : BytesN32) : Ledger :=
  { ledger with creditApprovals := ledger.creditApprovals.erase creditId }

/-! What the setters leave alone and what the getters read after them. -/

variable (id other : BytesN32) (metadata : CreditMetadata) (projectId : String)
  (vintageYear : Nat) (approvals : List Address)

@[simp] theorem getCredit_setCredit :
    (ledger.setCredit id metadata).getCredit other =
      if other = id then some metadata else ledger.getCredit other := by
  simp [getCredit, setCredit]

@[simp] theorem getCredit_addCreditToProject :
    (ledger.addCreditToProject projectId id).getCredit = ledger.getCredit := rfl

@[simp] theorem getCredit_setCreditByProjectVintage :
    (ledger.setCreditByProjectVintage projectId vintageYear id).getCredit =
      ledger.getCredit := rfl

@[simp] theorem getCredit_setCreditApprovals :
    (ledger.setCreditApprovals id approvals).getCredit = ledger.getCredit := rfl

@[simp] theorem getCredit_removeCreditApprovals :
    (ledger.removeCreditApprovals id).getCredit = ledger.getCredit := rfl

@[simp] theorem creditNonce_setCredit :
    (ledger.setCredit id metadata).creditNonce = ledger.creditNonce := rfl

@[simp] theorem creditNonce_addCreditToProject :
    (ledger.addCreditToProject projectId id).creditNonce = ledger.creditNonce := rfl

@[simp] theorem creditNonce_setCreditByProjectVintage :
    (ledger.setCreditByProjectVintage projectId vintageYear id).creditNonce =
      ledger.creditNonce := rfl

@[simp] theorem creditNonce_setCreditApprovals :
    (ledger.setCreditApprovals id approvals).creditNonce = ledger.creditNonce := rfl

@[simp] theorem creditNonce_removeCreditApprovals :
    (ledger.removeCreditApprovals id).creditNonce = ledger.creditNonce := rfl

end Ledger

namespace VerifierRecords

variable (records : VerifierRecords)

/-- `get_verifier_reputation` (`storage.rs:114-122`): both counts start at zero. -/
def getVerifierReputation (verifier : Address) : VerifierReputation :=
  (records.verifierReputation.lookup verifier).getD ⟨0, 0⟩

/-- `set_verifier_reputation` (`storage.rs:124-128`). -/
def setVerifierReputation (verifier : Address) (rep : VerifierReputation) : VerifierRecords :=
  { records with verifierReputation := records.verifierReputation.insert verifier rep }

/-- `increment_approval_count` (`storage.rs:130-134`). -/
def incrementApprovalCount (verifier : Address) : Result VerifierRecords := do
  let rep := records.getVerifierReputation verifier
  let approvalCount ← addUnsigned 64 rep.approvalCount 1
  return records.setVerifierReputation verifier { rep with approvalCount }

/-- `increment_dispute_count` (`storage.rs:136-140`). -/
def incrementDisputeCount (verifier : Address) : Result VerifierRecords := do
  let rep := records.getVerifierReputation verifier
  let disputeCount ← addUnsigned 64 rep.disputeCount 1
  return records.setVerifierReputation verifier { rep with disputeCount }

/-- `get_verifier_pending_count` (`storage.rs:183-188`). -/
def getVerifierPendingCount (verifier : Address) : Nat :=
  (records.verifierPendingCount.lookup verifier).getD 0

/-- `set_verifier_pending_count` (`storage.rs:190-194`). -/
def setVerifierPendingCount (verifier : Address) (count : Nat) : VerifierRecords :=
  { records with verifierPendingCount := records.verifierPendingCount.insert verifier count }

/-- `increment_verifier_pending` (`storage.rs:196-199`). -/
def incrementVerifierPending (verifier : Address) : Result VerifierRecords := do
  let count ← addUnsigned 64 (records.getVerifierPendingCount verifier) 1
  return records.setVerifierPendingCount verifier count

/-- `decrement_verifier_pending` (`storage.rs:202-207`): saturating at zero. -/
def decrementVerifierPending (verifier : Address) : VerifierRecords :=
  let count := records.getVerifierPendingCount verifier
  if count > 0 then records.setVerifierPendingCount verifier (count - 1) else records

/-- The loop `for v in verifiers.iter() { increment_verifier_pending(&env, &v) }`. -/
def incrementAllPending (verifierSet : List Address) : Result VerifierRecords :=
  verifierSet.foldlM incrementVerifierPending records

/-- The loop `for v in verifiers.iter() { decrement_verifier_pending(&env, &v) }`. -/
def decrementAllPending (verifierSet : List Address) : VerifierRecords :=
  verifierSet.foldl decrementVerifierPending records

/-- `get_verifier_services` (`lib.rs:731-735`): none by default. -/
def getVerifierServices (verifier : Address) : List ServiceType :=
  (records.verifierServices.lookup verifier).getD []

/-- The write of `DataKey::VerifierServices`. -/
def setVerifierServices (verifier : Address) (services : List ServiceType) : VerifierRecords :=
  { records with verifierServices := records.verifierServices.insert verifier services }

end VerifierRecords

namespace Audit

variable (audit : Audit)

/-- `set_session` (`storage.rs:263-267`). -/
def setSession (sessionId : BytesN32) (session : Session) : Audit :=
  { audit with session := audit.session.insert sessionId session }

/-- `get_session_op_count` (`storage.rs:275-280`). -/
def getSessionOpCount (sessionId : BytesN32) : Nat :=
  (audit.sessionOpCount.lookup sessionId).getD 0

/-- `increment_session_op_count` (`storage.rs:282-287`). -/
def incrementSessionOpCount (sessionId : BytesN32) : Result Audit := do
  let count ← addUnsigned 64 (audit.getSessionOpCount sessionId) 1
  return { audit with sessionOpCount := audit.sessionOpCount.insert sessionId count }

/-- `append_audit_log` (`storage.rs:298-310`): stores the entry under the hash of its session
id and the log counter. -/
def appendAuditLog (sha256 : Bytes → BytesN32) (entry : AuditLogEntry) : Result Audit := do
  let logId := sha256 ((ScVal.bytes entry.sessionId).toXdr ++
    (ScVal.u64 audit.auditLogCount).toXdr)
  let auditLogCount ← addUnsigned 64 audit.auditLogCount 1
  return { audit with auditLog := audit.auditLog.insert logId entry, auditLogCount }

end Audit

/-- `get_nonce` (`storage.rs:101-103`). -/
def State.getNonce (s : State) (a : Address) : Nat := nonceOf s.nonce a

/-- `consume_nonce` (`storage.rs:105-112`): the registry's nonce guard, `if !consume_nonce(..)
{ return Err(InvalidNonce) }`. -/
def State.consumeNonce (s : State) (a : Address) (expected : Nat) :
    Result (Store Address Nat) :=
  CarbonChain.consumeNonce .invalidNonce s.nonce a expected

end CarbonChain.Registry
