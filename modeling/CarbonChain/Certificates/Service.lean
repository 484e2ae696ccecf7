import CarbonChain.Retirement.Backing
import CarbonChain.Stellar.Service

/-!
# The retirement service

`RetirementService` of `api/src/retirement/retirement.service.ts` retires credits on the chain,
keeps what it retired in the in-memory repository of `retirement.repository.ts`, and verifies
certificates, from the repository first. It is composed with Retirement and the registry as
deployed. The service submits the calls of `retire` only; what the network makes of a call and
what the servers answer about it come from outside, and so do the other transactions on the
chain.
-/

namespace CarbonChain.Certificates

open Registry (Network ForeignReply)
open Retirement (Joint)
open Stellar (NewAccount Rpc GetTransactionResponse)

/-- A string that stands for a value: the one that the value is written as, or another one,
with what is read from it. -/
inductive Written (α : Type) where
  | canonical (a : α)
  | other (text : String) (read : Option α)
  deriving DecidableEq

/-- What is read from the string, by `Buffer.from(.., 'hex')`, `BigInt` or `new Address`. -/
def Written.read {α : Type} : Written α → Option α
  | .canonical a => some a
  | .other _ read => read

/-- `'unknown'`, which has no hex digit to start with. -/
def unknown : Written BytesN32 := .other "unknown" none

/-- The request of a retirement (12-17). -/
structure RetireDto where
  buyerPublicKey : Written Address
  creditId : Written BytesN32
  tonnes : Written Int
  reason : String

/-- What the repository keeps of a retirement (`retirement.entity.ts`). -/
structure RetirementEntity where
  id : Written BytesN32
  creditId : Written BytesN32
  buyer : Written Address
  tonnesRetired : Written Int
  reason : String
  retiredAt : Nat
  txHash : String

/-- `RetirementRecord` of the API. -/
structure ApiRecord where
  id : Written BytesN32
  creditId : Written BytesN32
  buyer : Written Address
  tonnesRetired : Written Int
  reason : String
  retiredAt : Nat
  txHash : String

/-- What `verifyCertificate` answers (19-29). -/
structure CertificateVerification where
  id : Written BytesN32
  creditId : Written BytesN32
  buyer : Written Address
  tonnesRetired : Written Int
  reason : String
  retiredAt : Nat
  txHash : String
  verified : Bool

/-- The payload of `CreditRetired` (32-38). -/
structure CreditRetiredEvent where
  retirementId : Written BytesN32
  creditId : Written BytesN32
  buyer : Written Address
  tonnesRetired : Written Int
  retiredAt : Nat

/-- What `retire` returns, with the event it emits. -/
structure Retired where
  retirementId : Written BytesN32
  certificateIpfsHash : String
  emitted : CreditRetiredEvent

/-- `InMemoryRetirementRepository` (`retirement.repository.ts:23-33`). -/
abbrev Repository := Store (Written BytesN32) RetirementEntity

/-- A retirement with the same id is overwritten. -/
def Repository.save (repo : Repository) (record : RetirementEntity) : Repository :=
  repo.insert record.id record

/-- `findById`; `undefined` is no retirement. -/
def Repository.findById (repo : Repository) (id : Written BytesN32) : Option RetirementEntity :=
  repo.lookup id

/-- The service is configured with the contracts of a network and an admin key pair. -/
structure Config where
  network : Network
  adminKeypair : Option String

/-! ## Retiring -/

/-- The id of a retirement from the response (113-120). -/
def retirementIdOf (response : GetTransactionResponse BytesN32) : Written BytesN32 :=
  match response.returnValue with
  | some rv => .canonical rv
  | none => unknown

/-- What is saved of a retirement (126-134). -/
def RetireDto.entity (dto : RetireDto) (retirementId : Written BytesN32) (now : Nat) :
    RetirementEntity where
  id := retirementId
  creditId := dto.creditId
  buyer := dto.buyerPublicKey
  tonnesRetired := dto.tonnes
  reason := dto.reason
  retiredAt := now
  txHash := ""

/-- `retire` up to `invokeContract` (97-111): the arguments are converted, where `nativeToScVal`
throws for tonnes that are no `i128`, and the key pair is loaded. -/
def submit (config : Config) (dto : RetireDto) : Stellar.Result Unit := do
  let _ ← unwrap dto.buyerPublicKey.read
  let tonnes ← unwrap dto.tonnes.read
  panicIf (¬ FitsSigned 128 tonnes)
  let _ ← okOr config.adminKeypair
    "Admin keypair is not initialized. Check ADMIN_SECRET_KEY in .env"
  return ()

/-- `retire` (90-149) at the time `now` in seconds, with what the servers answer. -/
def retire (config : Config) (repo : Repository) (dto : RetireDto) (rpc : Rpc BytesN32)
    (now : Nat) : Stellar.Result (Retired × Repository) := do
  submit config dto
  let response ← Stellar.invokeContract rpc
  let retirementId := retirementIdOf response
  let entity := dto.entity retirementId now
  let emitted : CreditRetiredEvent :=
    { retirementId, creditId := dto.creditId, buyer := dto.buyerPublicKey,
      tonnesRetired := dto.tonnes, retiredAt := entity.retiredAt }
  return (⟨retirementId, "", emitted⟩, repo.save entity)

/-! ## Verifying -/

/-- The exceptions of the queries: `Retirement .. not found`, `Certificate .. not found or
cannot be verified`, and errors that `readContract` or the decoding of its value throws. -/
inductive QueryError where
  | retirementNotFound (retirementId : Written BytesN32)
  | certificateNotFound (certificateId : Written BytesN32)
  | thrown
  deriving DecidableEq

/-- A result of a query. -/
abbrev QueryResult (α : Type) := Outcome QueryError α

/-- `entityToRecord` (197-207). -/
def entityToRecord (e : RetirementEntity) : ApiRecord :=
  ⟨e.id, e.creditId, e.buyer, e.tonnesRetired, e.reason, e.retiredAt, e.txHash⟩

/-- The simulation of `get_retirement`, which throws, fails or succeeds: the returned `Option`, or
`undefined`. -/
def simulateRetirement (chain : Joint) (simulated : Option Bool)
    (retirementId : Written BytesN32) :
    Stellar.Result (Option (Option Retirement.RetirementRecord)) := do
  let succeeds ← unwrap simulated
  -- the contract takes 32 bytes, and runs the code modelled here until it is upgraded
  return if succeeds ∧ chain.peer.wasm = none then
    retirementId.read.map (Retirement.getRetirement chain.peer)
  else none

/-- `readContract(.., 'get_retirement', ..)` (157-164), whose errors are not caught. -/
def readRetirement (newAccount : NewAccount) (chain : Joint) (simulated : Option Bool)
    (retirementId : Written BytesN32) :
    QueryResult (Option (Option Retirement.RetirementRecord)) :=
  match Stellar.readContract newAccount (simulateRetirement chain simulated retirementId) with
  | .ok retval => .ok retval
  | .error _ => .error (.error .thrown)

/-- `getRetirement` (151-178): the repository answers first, and then the chain. -/
def getRetirement (newAccount : NewAccount) (chain : Joint) (repo : Repository)
    (simulated : Option Bool) (retirementId : Written BytesN32) : QueryResult ApiRecord := do
  match repo.findById retirementId with
  | some cached => return entityToRecord cached
  | none =>
      let retval ← readRetirement newAccount chain simulated retirementId
      let retval ← okOr retval (.retirementNotFound retirementId)
      -- a `None` of the contract decodes to `null`, which has no fields
      let n ← okOr retval .thrown
      return {
        id := retirementId
        creditId := .canonical n.creditId
        buyer := .canonical n.buyer
        tonnesRetired := .canonical n.tonnesRetired
        reason := n.reason
        retiredAt := n.retiredAt
        txHash := "" }

/-- `verifyCertificate` (209-234), which catches every error of `getRetirement`. -/
def verifyCertificate (newAccount : NewAccount) (chain : Joint) (repo : Repository)
    (simulated : Option Bool) (certificateId : Written BytesN32) :
    QueryResult CertificateVerification :=
  match getRetirement newAccount chain repo simulated certificateId with
  | .ok retirement =>
      .ok {
        id := retirement.id
        creditId := retirement.creditId
        buyer := retirement.buyer
        tonnesRetired := retirement.tonnesRetired
        reason := retirement.reason
        retiredAt := retirement.retiredAt
        txHash := retirement.txHash
        verified := true }
  | .error _ => .error (.error (.certificateNotFound certificateId))

/-! ## On the chain -/

/-- How the network runs a call that the service submitted, with the nonce that the contract
reads. -/
structure Execution where
  env : Env
  nonce : Nat
  foreign : Nat → ForeignReply

/-- The transaction of a call of `retire`, if the network runs one. The service sends five
arguments (97-103). The contract takes a sixth, the nonce, and a host refuses a call without it;
where the nonce would come from is left open, as in `Execution`. -/
def transaction (config : Config) (dto : RetireDto) (execution : Option Execution) :
    Option (Network.Input Retirement.Call) := do
  let execution ← execution
  let buyer ← dto.buyerPublicKey.read
  let creditId ← dto.creditId.read
  let tonnes ← dto.tonnes.read
  guard (FitsSigned 128 tonnes)
  return .peer execution.env
    (.retire buyer creditId tonnes dto.reason config.network.registryId execution.nonce)
    execution.foreign

/-- The chain after the transaction, and the id that the contract returned if it succeeded. -/
def execute (config : Config) (chain : Joint) (dto : RetireDto) (execution : Option Execution) :
    Joint × Option BytesN32 :=
  match transaction config dto execution with
  | none => (chain, none)
  | some input =>
      match (Retirement.system config.network).exec chain input with
      | .ok (.peer (.id id), chain) => (chain, some id)
      | _ => (chain, none)

/-- The chain, and what the service has saved. -/
structure State where
  chain : Joint
  repo : Repository

/-- A transaction of somebody on the chain, or a call of `retire`. -/
inductive Step where
  | transaction (input : Network.Input Retirement.Call)
  | retire (dto : RetireDto) (execution : Option Execution) (rpc : Rpc BytesN32) (now : Nat)

/-- What a call of `retire` answers, if it does not throw. -/
def exec (config : Config) (s : State) : Step → Except Unit (Option Retired × State)
  | .transaction input =>
      match (Retirement.system config.network).exec s.chain input with
      | .ok (_, chain) => .ok (none, { s with chain })
      | .error _ => .error ()
  | .retire dto execution rpc now =>
      let chain := (execute config s.chain dto execution).1
      match retire config s.repo dto rpc now with
      | .ok (retired, repo) => .ok (some retired, ⟨chain, repo⟩)
      | .error _ => .ok (none, ⟨chain, s.repo⟩)

/-- The service and the contracts from their start. -/
def service (config : Config) : Machine State Step (Option Retired) Unit where
  init := ⟨(Retirement.system config.network).init, ∅⟩
  exec := exec config

end CarbonChain.Certificates
