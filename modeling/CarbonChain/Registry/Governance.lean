import CarbonChain.Misc.Paging
import CarbonChain.Registry.Storage

/-!
# CreditRegistry: administration

The entry points of `contracts/credit_registry/src/lib.rs` that configure the registry:
initialisation, pausing, the sets of verifiers, issuers and methodologies, verifier
services, projects, the two-step admin handover and the code upgrade. None of them reads or
writes a credit. The queries of the verifier set are here too.
-/

namespace CarbonChain.Registry

variable (env : Env) (s : State)

/-- `initialize` (`lib.rs:76-90`). -/
def initializeContract (admin retirementContract : Address) (requiredApprovals : Nat) :
    Result State := do
  rejectIf s.roles.hasAdmin .alreadyInitialized
  rejectIf (requiredApprovals = 0) .invalidApprovalThreshold
  env.requireAuth admin
  let roles := { s.roles with
    admin := some admin
    retirementContract := some retirementContract
    requiredApprovals := some requiredApprovals }
  return { s with roles }

/-- `pause` and `unpause` differ in the flag they store. -/
def setPaused (paused : Bool) (admin : Address) : Result State := do
  s.roles.requireAdmin env admin
  return { s with roles := { s.roles with paused } }

/-- `pause` (`lib.rs:99-108`). -/
def pause (admin : Address) : Result State := setPaused env s true admin

/-- `unpause` (`lib.rs:115-124`). -/
def unpause (admin : Address) : Result State := setPaused env s false admin

/-- `register_verifier` (`lib.rs:140-157`). -/
def registerVerifier (admin verifier : Address) (nonce : Nat) : Result State := do
  s.roles.requireAdmin env admin
  let nonce ← s.consumeNonce admin nonce
  rejectIf (s.roles.isVerifier verifier) .verifierAlreadyExists
  let roles := { s.roles with verifierSet := s.roles.verifierSet ++ [verifier] }
  return { s with nonce, roles }

/-- `remove_verifier` (`lib.rs:167-194`): refused while the count of pending credits is not
zero. -/
def removeVerifier (admin verifier : Address) (nonce : Nat) : Result State := do
  s.roles.requireAdmin env admin
  let nonce ← s.consumeNonce admin nonce
  rejectIf (!s.roles.isVerifier verifier) .verifierNotFound
  rejectIf (s.verifiers.getVerifierPendingCount verifier > 0) .verifierHasPendingCredits
  let roles := { s.roles with verifierSet := s.roles.verifierSet.filter (· != verifier) }
  return { s with nonce, roles }

/-- `register_issuer` (`lib.rs:231-247`). A repeated issuer is refused with `IssuerNotAllowed`.
-/
def registerIssuer (admin issuer : Address) (nonce : Nat) : Result State := do
  s.roles.requireAdmin env admin
  let nonce ← s.consumeNonce admin nonce
  rejectIf (s.roles.isIssuer issuer) .issuerNotAllowed
  return { s with nonce, roles := { s.roles with issuerSet := s.roles.issuerSet ++ [issuer] } }

/-- `remove_issuer` (`lib.rs:249-267`). Unlike `remove_verifier`, succeeds on an address that
is not registered. -/
def removeIssuer (admin issuer : Address) (nonce : Nat) : Result State := do
  s.roles.requireAdmin env admin
  let nonce ← s.consumeNonce admin nonce
  let roles := { s.roles with issuerSet := s.roles.issuerSet.filter (· != issuer) }
  return { s with nonce, roles }

/-- `register_methodology` (`lib.rs:275-293`). -/
def registerMethodology (admin : Address) (code name : String) (nonce : Nat) :
    Result State := do
  s.roles.requireAdmin env admin
  let nonce ← s.consumeNonce admin nonce
  rejectIf (s.roles.isMethodologyValid code) .invalidMetadata
  let roles := { s.roles with methodologySet := s.roles.methodologySet ++ [⟨code, name⟩] }
  return { s with nonce, roles }

/-- `propose_admin` (`lib.rs:624-632`). -/
def proposeAdmin (admin newAdmin : Address) : Result State := do
  s.roles.requireAdmin env admin
  return { s with roles := { s.roles with pendingAdmin := some newAdmin } }

/-- `accept_admin` (`lib.rs:640-652`). -/
def acceptAdmin (newAdmin : Address) : Result State := do
  let pending ← okOr s.roles.pendingAdmin .noPendingAdmin
  rejectIf (newAdmin ≠ pending) .unauthorized
  env.requireAuth newAdmin
  return { s with roles := { s.roles with admin := some newAdmin, pendingAdmin := none } }

/-- The guards that the three service entry points open with. -/
def requireServiceAccess (admin verifier : Address) (nonce : Nat) :
    Result (Store Address Nat) := do
  s.roles.requireAdmin env admin
  let nonce ← s.consumeNonce admin nonce
  rejectIf (!s.roles.isVerifier verifier) .verifierNotFound
  return nonce

/-- `configure_verifier_services` (`lib.rs:662-676`). -/
def configureVerifierServices (admin verifier : Address) (services : List ServiceType)
    (nonce : Nat) : Result State := do
  let nonce ← requireServiceAccess env s admin verifier nonce
  return { s with nonce, verifiers := s.verifiers.setVerifierServices verifier services }

/-- `add_verifier_service` (`lib.rs:679-701`). Stores nothing when the verifier has the service
already. -/
def addVerifierService (admin verifier : Address) (service : ServiceType) (nonce : Nat) :
    Result State := do
  let nonce ← requireServiceAccess env s admin verifier nonce
  let services := s.verifiers.getVerifierServices verifier
  let verifiers :=
    if services.contains service then s.verifiers
    else s.verifiers.setVerifierServices verifier (services ++ [service])
  return { s with nonce, verifiers }

/-- `remove_verifier_service` (`lib.rs:704-729`). -/
def removeVerifierService (admin verifier : Address) (service : ServiceType) (nonce : Nat) :
    Result State := do
  let nonce ← requireServiceAccess env s admin verifier nonce
  let services := (s.verifiers.getVerifierServices verifier).filter (· != service)
  return { s with nonce, verifiers := s.verifiers.setVerifierServices verifier services }

/-- `register_project` (`lib.rs:739-761`): any address may register a project under its own
name. -/
def registerProject (owner : Address) (projectId name description location : String) :
    Result State := do
  env.requireAuth owner
  rejectIf (s.project.lookup projectId).isSome .projectAlreadyExists
  let metadata : ProjectMetadata :=
    { owner, name, description, location, createdAt := env.timestamp }
  return { s with project := s.project.insert projectId metadata }

/-- `upgrade` (`lib.rs:966-977`). The host replaces the code of the contract from the next
invocation on. -/
def upgrade (admin : Address) (newWasmHash : BytesN32) (nonce : Nat) : Result State := do
  s.roles.requireAdmin env admin
  let nonce ← s.consumeNonce admin nonce
  return { s with nonce, roles := { s.roles with wasm := some newWasmHash } }

/-! ## Queries -/

/-- `list_verifiers` (`lib.rs:202-213`): up to the first 50 verifiers. -/
def listVerifiers : Result (List Address) := do
  let all := s.roles.verifierSet
  let cap := 50
  if all.length ≤ cap then return all
  (List.range cap).foldlM (fun out i => do return out ++ [← unwrap all[i]?]) []

/-- `list_verifiers_paginated` (`lib.rs:216-227`). -/
def listVerifiersPaginated (page pageSize : Nat) : Result (List Address) :=
  Paging.paginate s.roles.verifierSet page pageSize

end CarbonChain.Registry
