import CarbonChain.Misc.Machine
import CarbonChain.Registry.Governance
import CarbonChain.Registry.Credits

/-!
# CreditRegistry: sessions, queries and runs

The rest of `contracts/credit_registry/src/lib.rs`: sessions and their audit log, the
read-only entry points, and the contract as a machine: `exec` dispatches a call to its
entry point. Read-only entry points leave the storage alone and so are functions of the
state rather than calls. The code that runs after a successful `upgrade` is not this
contract's, so `exec` has no step from there on and the runs of the machine are the runs of
this code.
-/

namespace CarbonChain.Registry

variable (sha256 : Bytes → BytesN32) (env : Env) (s : State)

/-- `create_session` (`lib.rs:983-1000`). The counter in the hash is that of the audit log,
which a new session does not advance. -/
def createSession (initiator : Address) : Result (BytesN32 × State) := do
  env.requireAuth initiator
  let sessionId := sha256 ((ScVal.address initiator).toXdr ++
    (ScVal.u64 env.timestamp).toXdr ++ (ScVal.u64 s.audit.auditLogCount).toXdr)
  let session : Session := { initiator, createdAt := env.timestamp, operationCount := 0 }
  return (sessionId, { s with audit := s.audit.setSession sessionId session })

/-- `submit_credit_with_session` (`lib.rs:1008-1048`): a submission, its log entry and the
count of its session. -/
def submitCreditWithSession (sessionId : BytesN32) (issuer : Address) (projectId : String)
    (vintageYear : Nat) (methodology geography : String) (tonnes : Int) (ipfsHash : String)
    (nonce : Nat) : Result (BytesN32 × State) := do
  rejectIf (s.audit.session.lookup sessionId).isNone .sessionNotFound
  let (creditId, s) ← submitCredit sha256 env s issuer projectId vintageYear methodology
    geography tonnes ipfsHash nonce
  let entry : AuditLogEntry :=
    { sessionId, creditId, actor := issuer, action := "submit_credit",
      timestamp := env.timestamp }
  let audit ← s.audit.appendAuditLog sha256 entry
  let audit ← audit.incrementSessionOpCount sessionId
  return (creditId, { s with audit })

/-! ## Queries -/

/-- `get_credit` (`lib.rs:603-605`). -/
def getCredit (id : BytesN32) : Result CreditMetadata :=
  okOr (s.ledger.getCredit id) .creditNotFound

/-- `get_project` (`lib.rs:763-767`). -/
def getProject (projectId : String) : Result ProjectMetadata :=
  okOr (s.project.lookup projectId) .projectNotFound

/-- `get_expired_credits` (`lib.rs:787-798`). -/
def getExpiredCredits (projectId : String) : List BytesN32 :=
  (s.ledger.getCreditsByProject projectId).filter fun id =>
    match s.ledger.getCredit id with
    | some credit => credit.status == .expired
    | none => false

/-- `get_session_operation_count` (`lib.rs:1054-1057`). -/
def getSessionOperationCount (sessionId : BytesN32) : Result Nat := do
  rejectIf (s.audit.session.lookup sessionId).isNone .sessionNotFound
  return s.audit.getSessionOpCount sessionId

/-- `get_audit_log` (`lib.rs:1063-1065`). -/
def getAuditLog (logId : BytesN32) : Result AuditLogEntry :=
  okOr (s.audit.auditLog.lookup logId) .creditNotFound

/-! ## Runs -/

/-- The state-changing entry points with their arguments. -/
inductive Call where
  | initializeContract (admin retirementContract : Address) (requiredApprovals : Nat)
  | pause (admin : Address)
  | unpause (admin : Address)
  | registerVerifier (admin verifier : Address) (nonce : Nat)
  | removeVerifier (admin verifier : Address) (nonce : Nat)
  | registerIssuer (admin issuer : Address) (nonce : Nat)
  | removeIssuer (admin issuer : Address) (nonce : Nat)
  | registerMethodology (admin : Address) (code name : String) (nonce : Nat)
  | proposeAdmin (admin newAdmin : Address)
  | acceptAdmin (newAdmin : Address)
  | configureVerifierServices (admin verifier : Address) (services : List ServiceType)
      (nonce : Nat)
  | addVerifierService (admin verifier : Address) (service : ServiceType) (nonce : Nat)
  | removeVerifierService (admin verifier : Address) (service : ServiceType) (nonce : Nat)
  | registerProject (owner : Address) (projectId name description location : String)
  | upgrade (admin : Address) (newWasmHash : BytesN32) (nonce : Nat)
  | submitCredit (issuer : Address) (projectId : String) (vintageYear : Nat)
      (methodology geography : String) (tonnes : Int) (ipfsHash : String) (nonce : Nat)
  | approveAndMint (verifier : Address) (creditId : BytesN32) (nonce : Nat)
  | flagCredit (verifier : Address) (creditId : BytesN32) (reason : String) (nonce : Nat)
  | markRetired (creditId : BytesN32)
  | transferCredit (sender recipient : Address) (creditId : BytesN32) (nonce : Nat)
  | splitCredit (caller : Address) (creditId : BytesN32) (splitTonnes : Int) (nonce : Nat)
  | expireCredit (admin : Address) (creditId : BytesN32)
  | disputeCredit (disputer : Address) (creditId : BytesN32) (evidenceIpfsHash : String)
  | resolveDispute (admin : Address) (creditId : BytesN32) (outcome : Nat)
  | mergeCredits (caller : Address) (creditIds : List BytesN32)
  | createSession (initiator : Address)
  | submitCreditWithSession (sessionId : BytesN32) (issuer : Address) (projectId : String)
      (vintageYear : Nat) (methodology geography : String) (tonnes : Int) (ipfsHash : String)
      (nonce : Nat)

/-- The value an entry point returns: nothing, an id, or the two ids of a split. -/
inductive Ret where
  | unit
  | id (id : BytesN32)
  | pair (child1Id child2Id : BytesN32)
  deriving DecidableEq

/-- A call with the ledger and the authorisations it runs under. -/
structure Invocation where
  env : Env
  call : Call

namespace Result

/-- An entry point that returns `()`. -/
def unit (r : Result State) : Result (Ret × State) := (Ret.unit, ·) <$> r

/-- An entry point that returns an id. -/
def id (r : Result (BytesN32 × State)) : Result (Ret × State) :=
  (fun p => (Ret.id p.1, p.2)) <$> r

/-- An entry point that returns two ids. -/
def pair (r : Result ((BytesN32 × BytesN32) × State)) : Result (Ret × State) :=
  (fun p => (Ret.pair p.1.1 p.1.2, p.2)) <$> r

end Result

/-- The entry point that a call names. -/
def dispatch : Call → Result (Ret × State)
  | .initializeContract admin retirementContract requiredApprovals =>
      .unit (initializeContract env s admin retirementContract requiredApprovals)
  | .pause admin => .unit (pause env s admin)
  | .unpause admin => .unit (unpause env s admin)
  | .registerVerifier admin verifier nonce => .unit (registerVerifier env s admin verifier nonce)
  | .removeVerifier admin verifier nonce => .unit (removeVerifier env s admin verifier nonce)
  | .registerIssuer admin issuer nonce => .unit (registerIssuer env s admin issuer nonce)
  | .removeIssuer admin issuer nonce => .unit (removeIssuer env s admin issuer nonce)
  | .registerMethodology admin code name nonce =>
      .unit (registerMethodology env s admin code name nonce)
  | .proposeAdmin admin newAdmin => .unit (proposeAdmin env s admin newAdmin)
  | .acceptAdmin newAdmin => .unit (acceptAdmin env s newAdmin)
  | .configureVerifierServices admin verifier services nonce =>
      .unit (configureVerifierServices env s admin verifier services nonce)
  | .addVerifierService admin verifier service nonce =>
      .unit (addVerifierService env s admin verifier service nonce)
  | .removeVerifierService admin verifier service nonce =>
      .unit (removeVerifierService env s admin verifier service nonce)
  | .registerProject owner projectId name description location =>
      .unit (registerProject env s owner projectId name description location)
  | .upgrade admin newWasmHash nonce => .unit (upgrade env s admin newWasmHash nonce)
  | .submitCredit issuer projectId vintageYear methodology geography tonnes ipfsHash nonce =>
      .id (submitCredit sha256 env s issuer projectId vintageYear methodology geography tonnes
        ipfsHash nonce)
  | .approveAndMint verifier creditId nonce =>
      .unit (approveAndMint env s verifier creditId nonce)
  | .flagCredit verifier creditId reason nonce =>
      .unit (flagCredit env s verifier creditId reason nonce)
  | .markRetired creditId => .unit (markRetired env s creditId)
  | .transferCredit sender recipient creditId nonce =>
      .unit (transferCredit env s sender recipient creditId nonce)
  | .splitCredit caller creditId splitTonnes nonce =>
      .pair (splitCredit sha256 env s caller creditId splitTonnes nonce)
  | .expireCredit admin creditId => .unit (expireCredit env s admin creditId)
  | .disputeCredit disputer creditId evidenceIpfsHash =>
      .unit (disputeCredit env s disputer creditId evidenceIpfsHash)
  | .resolveDispute admin creditId outcome =>
      .unit (resolveDispute env s admin creditId outcome)
  | .mergeCredits caller creditIds => .id (mergeCredits sha256 env s caller creditIds)
  | .createSession initiator => .id (createSession sha256 env s initiator)
  | .submitCreditWithSession sessionId issuer projectId vintageYear methodology geography tonnes
      ipfsHash nonce =>
      .id (submitCreditWithSession sha256 env s sessionId issuer projectId vintageYear
        methodology geography tonnes ipfsHash nonce)

/-- An upgraded contract no longer runs the code modelled here. -/
def exec (invocation : Invocation) : Result (Ret × State) := do
  panicIf s.roles.wasm.isSome
  dispatch sha256 invocation.env s invocation.call

/-- The registry from empty storage. -/
def machine : Machine State Invocation Ret (Fail CarbonChainError) where
  init := State.empty
  exec := exec sha256

/-! ## A registry in operation

Concrete runs start from this one: a registry with one admin, one verifier, one
issuer, one methodology and one project, with an approval threshold of `k`. -/

namespace Sample

def admin : Address := .account 1

def verifier : Address := .account 2

def issuer : Address := .account 3

def retirementContract : Address := .contract 9

/-- An invocation at the start of 2025 that `signer` authorises. -/
def call (signer : Address) (call : Call) : Invocation :=
  ⟨⟨1735689600, fun a => a == signer⟩, call⟩

def setup (k : Nat) : List Invocation :=
  [call admin (.initializeContract admin retirementContract k),
   call admin (.registerVerifier admin verifier 0),
   call admin (.registerIssuer admin issuer 1),
   call admin (.registerMethodology admin "VCS" "Verified Carbon Standard" 2),
   call issuer (.registerProject issuer "project-1" "Reforestation" "Mangroves" "NG")]

/-- The submission of one tonne for 2024. -/
def submit (nonce : Nat) : Invocation :=
  call issuer (.submitCredit issuer "project-1" 2024 "VCS" "NG" 1000000 "ipfs" nonce)

/-- The id of the `n`-th credit of the sample project, under the hash that keeps its
argument as it is. -/
def credit (n : Nat) : BytesN32 := creditId BytesN32.mk (.string "project-1") n

/-- One active credit. -/
def approve : List Invocation :=
  setup 1 ++ [submit 0, call verifier (.approveAndMint verifier (credit 0) 0)]

example : ((machine BytesN32.mk).log (setup 1 ++ [submit 0])).length = 6 := by decide

end Sample

end CarbonChain.Registry
