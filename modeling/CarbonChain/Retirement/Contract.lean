import CarbonChain.Registry.Network

/-!
# Retirement

The contract of `contracts/retirement/src/lib.rs`: retirement records, single and in
batches. The id of a record is a hash of the credit, the reason and the ledger time, and in
a batch also of the position. The record, the index of the account and the status in the
registry are written in one transaction: when an invocation of the registry traps, nothing
is written.
-/

namespace CarbonChain.Retirement

open Registry (CreditStatus CreditMetadata Client Peer)

/-- The errors of the contract (`errors.rs:6-14`). -/
inductive RetirementError where
  | creditNotActive
  | alreadyInitialized
  | notInitialized
  | unauthorized
  | contractPaused
  | invalidNonce
  | noPendingAdmin
  deriving DecidableEq, Repr

abbrev Result (α : Type) := Outcome RetirementError α

/-- `types.rs:39-46`. -/
structure RetirementRecord where
  creditId : BytesN32
  buyer : Address
  tonnesRetired : Int
  reason : String
  retiredAt : Nat
  deriving DecidableEq, Repr

/-- The storage of the contract. `wasm` is the code hash that a successful `upgrade`
installed; it is `none` while the contract runs the code modelled here. -/
structure State where
  admin : Option Address
  pendingAdmin : Option Address
  paused : Bool
  nonce : Store Address Nat
  retirement : Store BytesN32 RetirementRecord
  accountRetirements : Store Address (List BytesN32)
  wasm : Option BytesN32

def State.empty : State := ⟨none, none, false, ∅, ∅, ∅, none⟩

/-- `get_nonce` (`lib.rs:14-16`). -/
def State.getNonce (s : State) (a : Address) : Nat := nonceOf s.nonce a

/-- `consume_nonce` (`lib.rs:18-25`). -/
def State.consumeNonce (s : State) (a : Address) (expected : Nat) : Result (Store Address Nat) :=
  CarbonChain.consumeNonce .invalidNonce s.nonce a expected

/-- `require_admin` (`lib.rs:374-385`). -/
def State.requireAdmin (s : State) (env : Env) (caller : Address) : Result Unit :=
  CarbonChain.requireAdmin .notInitialized .unauthorized s.admin env caller

/-- `get_retirements_by_account` (`lib.rs:342-347`). -/
def State.getRetirementsByAccount (s : State) (account : Address) : List BytesN32 :=
  (s.accountRetirements.lookup account).getD []

/-- The preimage of the id of a single retirement. -/
def preimage (record : RetirementRecord) : Bytes :=
  (ScVal.bytes record.creditId).toXdr ++ (ScVal.string record.reason).toXdr ++
    (ScVal.u64 record.retiredAt).toXdr

/-- The id of a record: in a batch the preimage ends with the position. -/
def retirementId (sha256 : Bytes → BytesN32) (position : Option Nat)
    (record : RetirementRecord) : BytesN32 :=
  match position with
  | none => sha256 (preimage record)
  | some i => sha256 (preimage record ++ (ScVal.u32 i).toXdr)

variable (sha256 : Bytes → BytesN32) {W : Type} (invoke : Client W) (env : Env) (s : State) (w : W)

/-! ## Administration -/

/-- `initialize` (`lib.rs:58-62`). The storage is not read: a later call replaces the admin. -/
def initializeContract (admin : Address) : Result State := do
  env.requireAuth admin
  return { s with admin := some admin }

/-- What `pause` and `unpause` have in common. -/
def setPaused (paused : Bool) (admin : Address) : Result State := do
  s.requireAdmin env admin
  return { s with paused }

/-- `pause` (`lib.rs:69-74`). -/
def pause (admin : Address) : Result State := setPaused env s true admin

/-- `unpause` (`lib.rs:81-86`). -/
def unpause (admin : Address) : Result State := setPaused env s false admin

/-- `upgrade` (`lib.rs:289-296`). -/
def upgrade (admin : Address) (newWasmHash : BytesN32) (nonce : Nat) : Result State := do
  s.requireAdmin env admin
  let nonce ← s.consumeNonce admin nonce
  return { s with nonce, wasm := some newWasmHash }

/-- `propose_admin` (`lib.rs:303-313`). The stored admin is read before anybody authorises. -/
def proposeAdmin (admin newAdmin : Address) : Result State := do
  let stored ← okOr s.admin .notInitialized
  env.requireAuth admin
  rejectIf (admin ≠ stored) .unauthorized
  return { s with pendingAdmin := some newAdmin }

/-- `accept_admin` (`lib.rs:320-331`). -/
def acceptAdmin (newAdmin : Address) : Result State := do
  let pending ← okOr s.pendingAdmin .noPendingAdmin
  rejectIf (newAdmin ≠ pending) .unauthorized
  env.requireAuth newAdmin
  return { s with admin := some newAdmin, pendingAdmin := none }

/-! ## Retirement -/

/-- `retire` (`lib.rs:110-188`): the credit is read and marked in the registry `registryId`.
Its status and owner are checked, `tonnes` only for its sign. -/
def retire (buyer : Address) (creditId : BytesN32) (tonnes : Int) (reason : String)
    (registryId : Address) (nonce : Nat) : Result (BytesN32 × State × W) := do
  rejectIf s.paused .contractPaused
  env.requireAuth buyer
  let nonce ← s.consumeNonce buyer nonce
  let (credit, w) ← Client.getCredit invoke w registryId creditId
  rejectIf (credit.status ≠ .active) .creditNotActive
  rejectIf (credit.owner ≠ buyer) .unauthorized
  panicIf (tonnes ≤ 0)
  let w ← Client.markRetired invoke w registryId creditId
  let record : RetirementRecord :=
    { creditId, buyer, tonnesRetired := tonnes, reason, retiredAt := env.timestamp }
  let id := retirementId sha256 none record
  let retirement := s.retirement.insert id record
  let list := s.getRetirementsByAccount buyer ++ [id]
  let accountRetirements := s.accountRetirements.insert buyer list
  return (id, { s with nonce, retirement, accountRetirements }, w)

/-- What the loop of `batch_retire` writes to. -/
structure BatchState (W : Type) where
  retirement : Store BytesN32 RetirementRecord
  list : List BytesN32
  retirementIds : List BytesN32
  world : W

/-- One iteration of the loop of `batch_retire`. Neither the owner nor the status of the credit
is read. -/
def batchOne (buyer : Address) (reason : String) (registryId : Address) (acc : BatchState W)
    (entry : (BytesN32 × Int) × Nat) : Result (BatchState W) := do
  let ((creditId, tonneAmount), i) := entry
  panicIf (tonneAmount ≤ 0)
  let record : RetirementRecord :=
    { creditId, buyer, tonnesRetired := tonneAmount, reason, retiredAt := env.timestamp }
  let id := retirementId sha256 (some i) record
  let retirement := acc.retirement.insert id record
  let list := acc.list ++ [id]
  let retirementIds := acc.retirementIds ++ [id]
  let world ← Client.markRetired invoke acc.world registryId creditId
  return { retirement, list, retirementIds, world }

/-- `batch_retire` (`lib.rs:198-275`). The list of the account is read before the loop and
written after it. -/
def batchRetire (buyer : Address) (creditIds : List BytesN32) (tonnes : List Int)
    (reason : String) (registryId : Address) (nonce : Nat) :
    Result (List BytesN32 × State × W) := do
  rejectIf s.paused .contractPaused
  env.requireAuth buyer
  let nonce ← s.consumeNonce buyer nonce
  panicIf (creditIds.length ≠ tonnes.length)
  let start : BatchState W :=
    { retirement := s.retirement, list := s.getRetirementsByAccount buyer, retirementIds := [],
      world := w }
  let acc ← (creditIds.zip tonnes).zipIdx.foldlM
    (batchOne sha256 invoke env buyer reason registryId) start
  let accountRetirements := s.accountRetirements.insert buyer acc.list
  return (acc.retirementIds, { s with nonce, retirement := acc.retirement, accountRetirements },
    acc.world)

/-! ## Queries -/

/-- `get_retirement` (`lib.rs:334-338`). -/
def getRetirement (retirementId : BytesN32) : Option RetirementRecord :=
  s.retirement.lookup retirementId

/-- `get_retirements_paginated` (`lib.rs:350-370`). -/
def getRetirementsPaginated (account : Address) (page pageSize : Nat) :
    Result (List BytesN32) :=
  Paging.paginate (s.getRetirementsByAccount account) page pageSize

/-! ## Runs -/

/-- The state-changing entry points with their arguments. -/
inductive Call where
  | initializeContract (admin : Address)
  | pause (admin : Address)
  | unpause (admin : Address)
  | retire (buyer : Address) (creditId : BytesN32) (tonnes : Int) (reason : String)
      (registryId : Address) (nonce : Nat)
  | batchRetire (buyer : Address) (creditIds : List BytesN32) (tonnes : List Int)
      (reason : String) (registryId : Address) (nonce : Nat)
  | upgrade (admin : Address) (newWasmHash : BytesN32) (nonce : Nat)
  | proposeAdmin (admin newAdmin : Address)
  | acceptAdmin (newAdmin : Address)

/-- The value an entry point returns. -/
inductive Ret where
  | unit
  | id (id : BytesN32)
  | ids (ids : List BytesN32)
  deriving DecidableEq

def dispatch : Call → Result (Ret × State × W)
  | .initializeContract admin => (fun s => (.unit, s, w)) <$> initializeContract env s admin
  | .pause admin => (fun s => (.unit, s, w)) <$> pause env s admin
  | .unpause admin => (fun s => (.unit, s, w)) <$> unpause env s admin
  | .retire buyer creditId tonnes reason registryId nonce =>
      (fun p => (.id p.1, p.2)) <$>
        retire sha256 invoke env s w buyer creditId tonnes reason registryId nonce
  | .batchRetire buyer creditIds tonnes reason registryId nonce =>
      (fun p => (.ids p.1, p.2)) <$>
        batchRetire sha256 invoke env s w buyer creditIds tonnes reason registryId nonce
  | .upgrade admin newWasmHash nonce =>
      (fun s => (.unit, s, w)) <$> upgrade env s admin newWasmHash nonce
  | .proposeAdmin admin newAdmin => (fun s => (.unit, s, w)) <$> proposeAdmin env s admin newAdmin
  | .acceptAdmin newAdmin => (fun s => (.unit, s, w)) <$> acceptAdmin env s newAdmin

/-- An upgraded contract no longer runs the code modelled here. -/
def exec (call : Call) : Result (Ret × State × W) := do
  panicIf s.wasm.isSome
  dispatch sha256 invoke env s w call

/-- The contract from empty storage. -/
def peer : Peer State Call Ret RetirementError where
  init := State.empty
  exec := exec sha256

end CarbonChain.Retirement
