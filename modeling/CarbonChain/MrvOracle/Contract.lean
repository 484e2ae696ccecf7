import CarbonChain.Registry.Network

/-!
# The MRV oracle

The contract of `contracts/mrv_oracle/src/lib.rs`. Registered oracles submit readings of a
project's sequestration. Each reading is compared with the previous one of the project, and
the last hundred are kept. The project is looked up in the registry that the oracle names.
-/

namespace CarbonChain.MrvOracle

open Registry (Client Peer)

/-- The errors of the contract (`lib.rs:43-54`). -/
inductive OracleError where
  | notInitialized
  | unauthorized
  | alreadyInitialized
  | overflow
  | contractPaused
  | projectNotFound
  | invalidNonce
  | invalidProject
  | invalidTimestamp
  | noPendingAdmin
  deriving DecidableEq, Repr

abbrev Result (α : Type) := Outcome OracleError α

/-- `lib.rs:11-19`. -/
structure MrvDataPoint where
  oracle : Address
  projectId : String
  tonnes : Int
  recordedAt : Nat
  anomaly : Bool
  deriving DecidableEq, Repr

/-- The storage of the contract. `wasm` is the code hash that a successful `upgrade`
installed; it is `none` while the contract runs the code modelled here. -/
structure State where
  admin : Option Address
  pendingAdmin : Option Address
  paused : Bool
  oracleSet : List Address
  latest : Store String MrvDataPoint
  history : Store String (List MrvDataPoint)
  nonce : Store Address Nat
  wasm : Option BytesN32

def State.empty : State := ⟨none, none, false, [], ∅, ∅, ∅, none⟩

/-- `get_nonce` (`lib.rs:268-270`). -/
def State.getNonce (s : State) (a : Address) : Nat := nonceOf s.nonce a

/-- `consume_nonce` (`lib.rs:364-372`). -/
def State.consumeNonce (s : State) (a : Address) (expected : Nat) : Result (Store Address Nat) :=
  CarbonChain.consumeNonce .invalidNonce s.nonce a expected

/-- `require_admin` (`lib.rs:352-362`). -/
def State.requireAdmin (s : State) (env : Env) (caller : Address) : Result Unit :=
  CarbonChain.requireAdmin .notInitialized .unauthorized s.admin env caller

/-- `get_history` (`lib.rs:316-321`). -/
def State.getHistory (s : State) (projectId : String) : List MrvDataPoint :=
  (s.history.lookup projectId).getD []

variable {W : Type} (invoke : Client W) (env : Env) (s : State) (w : W)

/-! ## Administration -/

/-- `initialize` (`lib.rs:114-118`). Neither is the storage read nor does anybody authorise the
call. -/
def initializeContract (admin : Address) : Result State :=
  return { s with admin := some admin }

/-- What `pause` and `unpause` have in common. -/
def setPaused (paused : Bool) (admin : Address) : Result State := do
  s.requireAdmin env admin
  return { s with paused }

/-- `pause` (`lib.rs:127-132`). -/
def pause (admin : Address) : Result State := setPaused env s true admin

/-- `unpause` (`lib.rs:139-144`). -/
def unpause (admin : Address) : Result State := setPaused env s false admin

/-- `upgrade` (`lib.rs:279-283`). Unlike the other contracts, this one does not take a nonce
here. -/
def upgrade (admin : Address) (newWasmHash : BytesN32) : Result State := do
  s.requireAdmin env admin
  return { s with wasm := some newWasmHash }

/-- `propose_admin` (`lib.rs:290-294`). -/
def proposeAdmin (admin newAdmin : Address) : Result State := do
  s.requireAdmin env admin
  return { s with pendingAdmin := some newAdmin }

/-- `accept_admin` (`lib.rs:301-313`). -/
def acceptAdmin (newAdmin : Address) : Result State := do
  let pending ← okOr s.pendingAdmin .noPendingAdmin
  rejectIf (newAdmin ≠ pending) .unauthorized
  env.requireAuth newAdmin
  return { s with admin := some newAdmin, pendingAdmin := none }

/-- `register_oracle` (`lib.rs:162-177`). The result is whether the oracle is new. -/
def registerOracle (admin oracle : Address) : Result (Bool × State) := do
  s.requireAdmin env admin
  if oracle ∈ s.oracleSet then return (false, s)
  return (true, { s with oracleSet := s.oracleSet ++ [oracle] })

/-! ## Readings -/

/-- `MAX_HISTORY` (`lib.rs:96`). -/
def maxHistory : Nat := 100

/-- Signed 128-bit arithmetic, which traps on overflow. -/
def int128 (a : Int) : Result Int := do
  panicIf (¬ FitsSigned 128 a)
  return a

/-- `detect_anomaly` (`lib.rs:387-401`): whether the reading differs by more than a fifth from
the previous one. -/
def detectAnomaly (projectId : String) (newTonnes : Int) : Result Bool := do
  match s.latest.lookup projectId with
  | none => return false
  | some p =>
      if p.tonnes = 0 then return false
      let difference ← int128 (newTonnes - p.tonnes)
      let diff ← int128 difference.natAbs
      rejectIf (¬ FitsSigned 128 (diff * 5)) .overflow
      let previous ← int128 p.tonnes.natAbs
      return decide (diff * 5 > previous)

/-- `update_mrv_data` (`lib.rs:191-253`). The project has to have a credit in the registry
`registryId`; a reading with an anomaly is kept like any other. -/
def updateMrvData (oracle : Address) (projectId : String) (tonnes : Int) (timestamp : Nat)
    (registryId : Address) (nonce : Nat) : Result (Bool × State × W) := do
  rejectIf s.paused .contractPaused
  env.requireAuth oracle
  rejectIf (oracle ∉ s.oracleSet) .unauthorized
  let nonce ← s.consumeNonce oracle nonce
  rejectIf (timestamp > env.timestamp) .invalidTimestamp
  let (credits, w) ← Client.listCreditsByProject invoke w registryId projectId
  rejectIf credits.isEmpty .invalidProject
  let anomaly ← detectAnomaly s projectId tonnes
  let point : MrvDataPoint := { oracle, projectId, tonnes, recordedAt := timestamp, anomaly }
  let latest := s.latest.insert projectId point
  let history := s.getHistory projectId
  let history := if history.length ≥ maxHistory then history.drop 1 else history
  let history := s.history.insert projectId (history ++ [point])
  return (anomaly, { s with nonce, latest, history }, w)

/-! ## Queries -/

/-- `get_latest` (`lib.rs:255-265`). -/
def getLatest (projectId : String) : Result (Option MrvDataPoint) := do
  let hasHistory := (s.history.lookup projectId).isSome
  let hasLatest := (s.latest.lookup projectId).isSome
  rejectIf (!hasHistory && !hasLatest) .projectNotFound
  return s.latest.lookup projectId

/-- `get_mrv_aggregate` (`lib.rs:325-348`): the sum and the average of the readings in a range
of time; the average is rounded towards zero. -/
def getMrvAggregate (projectId : String) (fromTs toTs : Nat) : Result (Int × Int) := do
  let points := (s.getHistory projectId).filter fun point =>
    point.recordedAt ≥ fromTs && point.recordedAt ≤ toTs
  let sum ← points.foldlM (fun sum point => int128 (sum + point.tonnes)) 0
  let count := points.length
  return (sum, if count > 0 then sum.tdiv count else 0)

/-! ## Runs -/

/-- The state-changing entry points with their arguments. -/
inductive Call where
  | initializeContract (admin : Address)
  | pause (admin : Address)
  | unpause (admin : Address)
  | registerOracle (admin oracle : Address)
  | updateMrvData (oracle : Address) (projectId : String) (tonnes : Int) (timestamp : Nat)
      (registryId : Address) (nonce : Nat)
  | upgrade (admin : Address) (newWasmHash : BytesN32)
  | proposeAdmin (admin newAdmin : Address)
  | acceptAdmin (newAdmin : Address)

/-- The value an entry point returns. -/
inductive Ret where
  | unit
  | bool (value : Bool)
  deriving DecidableEq

def dispatch : Call → Result (Ret × State × W)
  | .initializeContract admin => (fun s => (.unit, s, w)) <$> initializeContract s admin
  | .pause admin => (fun s => (.unit, s, w)) <$> pause env s admin
  | .unpause admin => (fun s => (.unit, s, w)) <$> unpause env s admin
  | .registerOracle admin oracle =>
      (fun p => (.bool p.1, p.2, w)) <$> registerOracle env s admin oracle
  | .updateMrvData oracle projectId tonnes timestamp registryId nonce =>
      (fun p => (.bool p.1, p.2)) <$>
        updateMrvData invoke env s w oracle projectId tonnes timestamp registryId nonce
  | .upgrade admin newWasmHash => (fun s => (.unit, s, w)) <$> upgrade env s admin newWasmHash
  | .proposeAdmin admin newAdmin => (fun s => (.unit, s, w)) <$> proposeAdmin env s admin newAdmin
  | .acceptAdmin newAdmin => (fun s => (.unit, s, w)) <$> acceptAdmin env s newAdmin

/-- An upgraded contract no longer runs the code modelled here. -/
def exec (call : Call) : Result (Ret × State × W) := do
  panicIf s.wasm.isSome
  dispatch invoke env s w call

theorem exec_eq_ok {invoke : Client W} {env : Env} {s s' : State} {w w' : W} {call : Call}
    {ret : Ret} :
    exec invoke env s w call = .ok (ret, s', w') ↔
      s.wasm = none ∧ dispatch invoke env s w call = .ok (ret, s', w') := by
  simp [exec]

/-- The contract from empty storage. -/
def peer : Peer State Call Ret OracleError where
  init := State.empty
  exec := exec

end CarbonChain.MrvOracle
