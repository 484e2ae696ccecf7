import CarbonChain.Misc.Handover
import CarbonChain.MrvOracle.Contract
import CarbonChain.Retirement.Records

/-!
# The admins of CreditRegistry, Retirement and MrvOracle

The three contracts hand their admin over in two steps, `propose_admin` and `accept_admin`
(`contracts/credit_registry/src/lib.rs:624-632`, `:640-652`). The `initialize` of
`CreditRegistry` refuses a second call. That of `Retirement` and `MrvOracle` is documented
as called exactly once and has an error code for a second call, but it does not read the
storage. These two run here with any callees, since no answer of a registry touches the
admin.
-/

namespace CarbonChain

open Registry (Client Peer ScriptedCall)

namespace Registry

variable {sha256 : Bytes → BytesN32} {env : Env} {s s' : State}

/-- What a call of `CreditRegistry` does to its office. -/
def Call.move : Call → Move Address
  | .initializeContract admin _ _ => .found admin
  | .proposeAdmin admin newAdmin => .nominate admin newAdmin
  | .acceptAdmin newAdmin => .accept newAdmin
  | _ => .other

/-- The stored admin and the pending one. -/
def adminOffice : Office State Invocation Address where
  holder := fun s => s.roles.admin
  nominee := fun s => s.roles.pendingAdmin
  move := fun input => input.call.move
  consents := fun input a => input.env.auth a = true

/-- The admin and the pending admin are left alone by what is no administration. -/
theorem exec_other {call : Call} {ret : Ret} (other : call.move = .other)
    (h : exec sha256 s ⟨env, call⟩ = .ok (ret, s')) :
    s'.roles.admin = s.roles.admin ∧ s'.roles.pendingAdmin = s.roles.pendingAdmin := by
  have h := ((exec_eq_ok sha256 s).mp h).2
  by_cases writes : call.onCredits = true
  · rw [dispatch_roles sha256 env s writes h]
    exact ⟨rfl, rfl⟩
  cases call <;> simp only [Call.onCredits, not_true_eq_false] at writes <;>
    simp only [Call.move, reduceCtorEq] at other <;>
    simp only [dispatch, Result.unit_eq_ok, Result.id_eq_ok, pause, unpause, setPaused,
      registerVerifier, removeVerifier, registerIssuer, removeIssuer, registerMethodology,
      requireServiceAccess, configureVerifierServices, addVerifierService, removeVerifierService,
      registerProject, upgrade, createSession, bind_eq_ok, pure_eq_ok, Prod.mk.injEq] at h <;>
    grind

theorem adminOffice_kept (sha256 : Bytes → BytesN32) : adminOffice.KeptBy (machine sha256) := by
  refine ⟨rfl, rfl, ?_⟩
  rintro ⟨pre, ⟨env, call⟩, ret, post⟩ commits
  have dispatched := ((exec_eq_ok sha256 pre).mp commits).2
  unfold Office.Obeys
  cases call with
  | initializeContract admin retirementContract requiredApprovals =>
      simp only [dispatch, Result.unit_eq_ok, initializeContract, bind_eq_ok, rejectIf_eq_ok,
        Env.requireAuth_eq_ok, exists_const, pure_eq_ok] at dispatched
      obtain ⟨⟨-, -, -, rfl⟩, -⟩ := dispatched
      exact ⟨rfl, rfl⟩
  | proposeAdmin admin newAdmin =>
      simp only [dispatch, Result.unit_eq_ok, proposeAdmin, Roles.requireAdmin, bind_eq_ok,
        requireAdmin_eq_ok, exists_const, pure_eq_ok] at dispatched
      obtain ⟨⟨⟨held, -⟩, rfl⟩, -⟩ := dispatched
      exact ⟨held, held, rfl⟩
  | acceptAdmin newAdmin =>
      simp only [dispatch, Result.unit_eq_ok, acceptAdmin, bind_eq_ok, okOr_eq_ok, rejectIf_eq_ok,
        Env.requireAuth_eq_ok, exists_const, not_not, pure_eq_ok, ne_eq] at dispatched
      obtain ⟨⟨pending, present, rfl, authorised, rfl⟩, -⟩ := dispatched
      exact ⟨present, authorised, rfl, rfl⟩
  | _ => exact exec_other rfl commits

/-- `initialize` succeeds only while there is no admin. -/
theorem adminOffice_founds_vacant (sha256 : Bytes → BytesN32)
    (event : Event State Invocation Ret) (commits : (machine sha256).Commits event)
    (founds : adminOffice.Founds event) : adminOffice.holder event.pre = none := by
  obtain ⟨pre, ⟨env, call⟩, ret, post⟩ := event
  obtain ⟨admin, founds⟩ := founds
  cases call with
  | initializeContract admin retirementContract requiredApprovals =>
      cases exec_roles_cases sha256 pre commits with
      | initialised _ _ _ named fresh founded trusted positive threshold ledger => exact fresh
      | kept later kept => exact absurd rfl (later admin retirementContract requiredApprovals)
  | _ => cases founds

/-- Registry admin handover is safe: in every run `initialize` succeeds at most once, and
afterwards the admin changes only when the address that was nominated last, by the admin who
is still stored, accepts and authorises it. An acceptance uses up the nomination. -/
theorem admin_succession (sha256 : Bytes → BytesN32) (inputs : List Invocation) :
    Machine.Admits adminOffice.Succession ((machine sha256).log inputs) :=
  (adminOffice_kept sha256).succession (adminOffice_founds_vacant sha256) inputs

end Registry

namespace Retirement

variable {sha256 : Bytes → BytesN32} {W : Type} {invoke : Client W} {env : Env} {s s' : State}
  {w w' : W}

/-- What a call of `Retirement` does to its office. -/
def Call.move : Call → Move Address
  | .initializeContract admin => .found admin
  | .proposeAdmin admin newAdmin => .nominate admin newAdmin
  | .acceptAdmin newAdmin => .accept newAdmin
  | _ => .other

/-- The stored admin and the pending one. -/
def adminOffice : Office State (ScriptedCall Call) Address where
  holder := State.admin
  nominee := State.pendingAdmin
  move := fun input => input.call.move
  consents := fun input a => input.env.auth a = true

/-- The admin and the pending admin are left alone by what is no administration. -/
theorem exec_other {call : Call} {ret : Ret} (other : call.move = .other)
    (h : exec sha256 invoke env s w call = .ok (ret, s', w')) :
    s'.admin = s.admin ∧ s'.pendingAdmin = s.pendingAdmin := by
  have h := (exec_eq_ok.mp h).2
  cases call <;> simp only [Call.move, reduceCtorEq] at other <;>
    simp only [dispatch, pause, unpause, setPaused, retire, batchRetire, upgrade, map_eq_ok,
      bind_eq_ok, pure_eq_ok, Prod.mk.injEq] at h <;>
    grind

theorem adminOffice_kept (sha256 : Bytes → BytesN32) :
    adminOffice.KeptBy (peer sha256).alone := by
  refine ⟨rfl, rfl, ?_⟩
  rintro ⟨pre, ⟨env, call, script⟩, ret, post⟩ commits
  obtain ⟨n, success⟩ := Peer.alone_commits.mp commits
  have dispatched := (exec_eq_ok.mp success).2
  unfold Office.Obeys
  cases call with
  | initializeContract admin =>
      simp only [dispatch, initializeContract, map_eq_ok, bind_eq_ok, pure_eq_ok,
        Prod.mk.injEq] at dispatched
      obtain ⟨_, ⟨_, -, rfl⟩, -, rfl, -⟩ := dispatched
      exact ⟨rfl, rfl⟩
  | proposeAdmin admin newAdmin =>
      simp only [dispatch, proposeAdmin, map_eq_ok, bind_eq_ok, okOr_eq_ok, rejectIf_eq_ok,
        Env.requireAuth_eq_ok, exists_const, not_not, pure_eq_ok, Prod.mk.injEq,
        ne_eq] at dispatched
      obtain ⟨_, ⟨stored, present, -, same, rfl⟩, -, rfl, -⟩ := dispatched
      have held : pre.admin = some admin := by rw [present, same]
      exact ⟨held, held, rfl⟩
  | acceptAdmin newAdmin =>
      simp only [dispatch, acceptAdmin, map_eq_ok, bind_eq_ok, okOr_eq_ok, rejectIf_eq_ok,
        Env.requireAuth_eq_ok, exists_const, not_not, pure_eq_ok, Prod.mk.injEq,
        ne_eq] at dispatched
      obtain ⟨_, ⟨pending, present, rfl, authorised, rfl⟩, -, rfl, -⟩ := dispatched
      exact ⟨present, authorised, rfl, rfl⟩
  | _ => exact exec_other rfl success

theorem adminOffice_founds {event : Event State (ScriptedCall Call) Ret} :
    adminOffice.Founds event ↔ ∃ admin, event.input.call = .initializeContract admin := by
  unfold Office.Founds adminOffice
  dsimp only
  cases event.input.call <;> simp [Call.move]

end Retirement

namespace MrvOracle

variable {W : Type} {invoke : Client W} {env : Env} {s s' : State} {w w' : W}

/-- What a call of `MrvOracle` does to its office. -/
def Call.move : Call → Move Address
  | .initializeContract admin => .found admin
  | .proposeAdmin admin newAdmin => .nominate admin newAdmin
  | .acceptAdmin newAdmin => .accept newAdmin
  | _ => .other

/-- The stored admin and the pending one. -/
def adminOffice : Office State (ScriptedCall Call) Address where
  holder := State.admin
  nominee := State.pendingAdmin
  move := fun input => input.call.move
  consents := fun input a => input.env.auth a = true

/-- The admin and the pending admin are left alone by what is no administration. -/
theorem exec_other {call : Call} {ret : Ret} (other : call.move = .other)
    (h : exec invoke env s w call = .ok (ret, s', w')) :
    s'.admin = s.admin ∧ s'.pendingAdmin = s.pendingAdmin := by
  have h := (exec_eq_ok.mp h).2
  cases call with
  | registerOracle admin oracle =>
      simp only [dispatch, registerOracle, map_eq_ok, bind_eq_ok, Prod.mk.injEq] at h
      obtain ⟨_, ⟨_, -, registered⟩, -, rfl, -⟩ := h
      split at registered <;> obtain rfl := pure_eq_ok.mp registered <;> exact ⟨rfl, rfl⟩
  | _ =>
      simp only [Call.move, reduceCtorEq] at other <;>
      simp only [dispatch, pause, unpause, setPaused, updateMrvData, upgrade, map_eq_ok,
        bind_eq_ok, pure_eq_ok, Prod.mk.injEq] at h <;>
      grind

theorem adminOffice_kept : adminOffice.KeptBy peer.alone := by
  refine ⟨rfl, rfl, ?_⟩
  rintro ⟨pre, ⟨env, call, script⟩, ret, post⟩ commits
  obtain ⟨n, success⟩ := Peer.alone_commits.mp commits
  have dispatched := (exec_eq_ok.mp success).2
  unfold Office.Obeys
  cases call with
  | initializeContract admin =>
      simp only [dispatch, initializeContract, map_eq_ok, pure_eq_ok, Prod.mk.injEq] at dispatched
      obtain ⟨_, rfl, -, rfl, -⟩ := dispatched
      exact ⟨rfl, rfl⟩
  | proposeAdmin admin newAdmin =>
      simp only [dispatch, proposeAdmin, State.requireAdmin, map_eq_ok, bind_eq_ok,
        requireAdmin_eq_ok, exists_const, pure_eq_ok, Prod.mk.injEq] at dispatched
      obtain ⟨_, ⟨⟨held, -⟩, rfl⟩, -, rfl, -⟩ := dispatched
      exact ⟨held, held, rfl⟩
  | acceptAdmin newAdmin =>
      simp only [dispatch, acceptAdmin, map_eq_ok, bind_eq_ok, okOr_eq_ok, rejectIf_eq_ok,
        Env.requireAuth_eq_ok, exists_const, not_not, pure_eq_ok, Prod.mk.injEq,
        ne_eq] at dispatched
      obtain ⟨_, ⟨pending, present, rfl, authorised, rfl⟩, -, rfl, -⟩ := dispatched
      exact ⟨present, authorised, rfl, rfl⟩
  | _ => exact exec_other rfl success

theorem adminOffice_founds {event : Event State (ScriptedCall Call) Ret} :
    adminOffice.Founds event ↔ ∃ admin, event.input.call = .initializeContract admin := by
  unfold Office.Founds adminOffice
  dsimp only
  cases event.input.call <;> simp [Call.move]

end MrvOracle

/-! ## Runs -/

/-- In each of the two contracts, the admin passes in order in exactly the runs that
initialise the contract only while it has no admin. -/
theorem admins_orderly_iff (sha256 : Bytes → BytesN32)
    (retirements : List (ScriptedCall Retirement.Call))
    (readings : List (ScriptedCall MrvOracle.Call)) :
    (Machine.Admits Retirement.adminOffice.Orderly
        ((Retirement.peer sha256).alone.log retirements) ↔
      ∀ event ∈ (Retirement.peer sha256).alone.log retirements,
        ∀ admin, event.input.call = .initializeContract admin → event.pre.admin = none) ∧
    (Machine.Admits MrvOracle.adminOffice.Orderly (MrvOracle.peer.alone.log readings) ↔
      ∀ event ∈ MrvOracle.peer.alone.log readings,
        ∀ admin, event.input.call = .initializeContract admin → event.pre.admin = none) := by
  constructor
  · rw [(Retirement.adminOffice_kept sha256).orderly_iff]
    simp only [Retirement.adminOffice_founds, forall_exists_index]
    rfl
  · rw [MrvOracle.adminOffice_kept.orderly_iff]
    simp only [MrvOracle.adminOffice_founds, forall_exists_index]
    rfl

namespace Sample

def intruder : Address := .account 66

/-- The admin initialises the contract, and then the intruder does. -/
def initialisedTwice {C : Type} (initialise : Address → C) : List (ScriptedCall C) :=
  [Registry.Sample.admin, intruder].map fun signer =>
    ⟨⟨1735689600, fun a => a == signer⟩, initialise signer, fun _ _ _ => none⟩

end Sample

/-- The intruder initialises either contract again and is its admin. -/
theorem initialised_twice_not_orderly :
    (¬ Machine.Admits Retirement.adminOffice.Orderly
        ((Retirement.peer BytesN32.mk).alone.log
          (Sample.initialisedTwice Retirement.Call.initializeContract)) ∧
      ((Retirement.peer BytesN32.mk).alone.state
        (Sample.initialisedTwice Retirement.Call.initializeContract)).admin =
          some Sample.intruder) ∧
    (¬ Machine.Admits MrvOracle.adminOffice.Orderly
        (MrvOracle.peer.alone.log
          (Sample.initialisedTwice MrvOracle.Call.initializeContract)) ∧
      (MrvOracle.peer.alone.state
        (Sample.initialisedTwice MrvOracle.Call.initializeContract)).admin =
          some Sample.intruder) := by
  refine ⟨⟨?_, rfl⟩, ⟨?_, rfl⟩⟩
  · refine Office.not_orderly (rfl : _ = [_] ++ _ :: []) ⟨_, List.mem_singleton_self _, ?_⟩ ?_
    · exact ⟨Registry.Sample.admin, rfl⟩
    · exact ⟨Sample.intruder, rfl⟩
  · refine Office.not_orderly (rfl : _ = [_] ++ _ :: []) ⟨_, List.mem_singleton_self _, ?_⟩ ?_
    · exact ⟨Registry.Sample.admin, rfl⟩
    · exact ⟨Sample.intruder, rfl⟩

end CarbonChain
