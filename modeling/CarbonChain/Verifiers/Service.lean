import CarbonChain.Certificates.Service
import CarbonChain.Queries
import CarbonChain.Registry.Counters
import CarbonChain.Stellar.Service

/-!
# The verifiers service

`VerifiersService` of `api/src/verifiers/verifiers.service.ts` looks a verifier up in the list
that `list_verifiers` returns, which holds the first fifty. The registry itself asks the whole
set, which nothing bounds. The list is read through `readContract`, and an error of it reads as
no verifiers at all. The admin service (`api/src/admin/admin.service.ts:39-50`) looks a verifier
up before it suspends or configures it.
-/

namespace CarbonChain.Verifiers

open Certificates (Written)
open Stellar (NewAccount TakesReadAccount)

/-- What is listed of a verifier. -/
structure VerifierInfo where
  address : Written Address
  deriving DecidableEq

/-- `Verifier .. not found`. -/
inductive LookupError where
  | verifierNotFound (address : Written Address)
  deriving DecidableEq

/-- A result of the service. -/
abbrev Result (α : Type) := Outcome LookupError α

/-- What `readContract` returns, or throws, for `list_verifiers`, decoded by `scValToNative`. -/
abbrev Retval := Stellar.Result (Option (List (Written Address)))

/-- The simulation of `list_verifiers` in the state `s`, which returns `undefined` if it fails.
Addresses are decoded to their strkeys. -/
def simulated (s : Registry.State) : Retval :=
  match Registry.listVerifiers s with
  | .ok verifiers => .ok (some (verifiers.map .canonical))
  | .error _ => .ok none

/-- `readContract(.., 'list_verifiers')` (28-31) when the RPC call succeeds. -/
def readContract (newAccount : NewAccount) (s : Registry.State) : Retval :=
  Stellar.readContract newAccount (simulated s)

/-- `listVerifiers` (26-39). An error is logged, and the list is then empty. -/
def listVerifiers (retval : Retval) : List VerifierInfo :=
  match retval with
  | .ok (some native) => native.map fun address => { address }
  | .ok none => []
  | .error _ => []

/-- `getVerifier` (41-46). -/
def getVerifier (retval : Retval) (address : Written Address) : Result VerifierInfo :=
  okOr ((listVerifiers retval).find? fun v => v.address = address) (.verifierNotFound address)

/-! ## The admin service -/

/-- The answer of `suspendVerifier`. -/
structure Suspended where
  suspended : Bool
  deriving DecidableEq

/-- The answer of `configureVerifier`. -/
structure Configured where
  configured : Bool
  verifierId : Written Address
  deriving DecidableEq

/-- `suspendVerifier` of the admin service (39-42). -/
def suspendVerifier (retval : Retval) (id : Written Address) : Result Suspended := do
  let _ ← getVerifier retval id
  return { suspended := true }

/-- `configureVerifier` of the admin service (44-50). The capabilities are ignored. -/
def configureVerifier (retval : Retval) (id : Written Address) : Result Configured := do
  let _ ← getVerifier retval id
  return { configured := true, verifierId := id }

/-! ## Looking a verifier up -/

/-- The service finds the address if it is a verifier of the registry, and otherwise throws. -/
def LooksUp (newAccount : NewAccount) (s : Registry.State) (a : Address) : Prop :=
  getVerifier (readContract newAccount s) (.canonical a) =
    if s.roles.isVerifier a then .ok ⟨.canonical a⟩
    else .error (.error (.verifierNotFound (.canonical a)))

/-- What the service lists: the first fifty verifiers, or nothing if it cannot read. -/
def shown (newAccount : NewAccount) (s : Registry.State) : List Address :=
  if TakesReadAccount newAccount then s.roles.verifierSet.take 50 else []

theorem listVerifiers_read (newAccount : NewAccount) (s : Registry.State) :
    listVerifiers (readContract newAccount s) =
      (shown newAccount s).map fun a => ⟨.canonical a⟩ := by
  unfold readContract shown
  split
  · rename_i takes
    rw [Stellar.readContract_of_takes takes, simulated, Registry.listVerifiers_eq]
    show ((s.roles.verifierSet.take 50).map Written.canonical).map VerifierInfo.mk = _
    rw [List.map_map]
    rfl
  · rename_i refuses
    obtain ⟨failure, threw⟩ := Stellar.readContract_of_refuses refuses (simulated s)
    rw [threw]
    rfl

/-- The service finds the verifiers that it lists. -/
theorem getVerifier_read (newAccount : NewAccount) (s : Registry.State) (a : Address) :
    getVerifier (readContract newAccount s) (.canonical a) =
      if a ∈ shown newAccount s then .ok ⟨.canonical a⟩
      else .error (.error (.verifierNotFound (.canonical a))) := by
  unfold getVerifier
  rw [listVerifiers_read]
  generalize shown newAccount s = listed
  cases found : (listed.map fun a => (⟨.canonical a⟩ : VerifierInfo)).find?
      fun v => v.address = .canonical a with
  | none =>
      have absent : a ∉ listed := by
        intro member
        have differs := List.find?_eq_none.mp found ⟨.canonical a⟩ (List.mem_map_of_mem member)
        exact differs (by simp)
      rw [if_neg absent]
      rfl
  | some v =>
      have same : v.address = .canonical a := by simpa using List.find?_some found
      rcases List.mem_map.mp (List.mem_of_find?_eq_some found) with ⟨b, member, rfl⟩
      cases same
      rw [if_pos member]
      rfl

theorem mem_shown {newAccount : NewAccount} {s : Registry.State} {a : Address} :
    a ∈ shown newAccount s ↔ TakesReadAccount newAccount ∧ a ∈ s.roles.verifierSet.take 50 := by
  unfold shown
  split
  · rename_i takes
    exact (and_iff_right takes).symm
  · rename_i refuses
    simp [refuses]

theorem looksUp_iff_listed (newAccount : NewAccount) (s : Registry.State) (a : Address) :
    LooksUp newAccount s a ↔
      (a ∈ s.roles.verifierSet →
        TakesReadAccount newAccount ∧ a ∈ s.roles.verifierSet.take 50) := by
  unfold LooksUp
  rw [getVerifier_read, ← mem_shown]
  have registered : s.roles.isVerifier a = true ↔ a ∈ s.roles.verifierSet := by
    simp [Registry.Roles.isVerifier]
  by_cases listed : a ∈ shown newAccount s
  · have member := List.mem_of_mem_take (mem_shown.mp listed).2
    simp [listed, registered.mpr member]
  · by_cases member : a ∈ s.roles.verifierSet
    · simp [listed, member, registered.mpr member]
    · have unregistered : s.roles.isVerifier a = false := by
        rw [← Bool.not_eq_true, registered]
        exact member
      simp [listed, member, unregistered]

/-- In every reachable state the service and the registry agree on an address if and only if it
is not a verifier, or the SDK takes the account of readings and the address is one of the first
fifty. -/
theorem getVerifier_agrees_iff (newAccount : NewAccount) (sha256 : Bytes → BytesN32)
    (inputs : List Registry.Invocation) (a : Address) :
    let s := (Registry.machine sha256).state inputs
    LooksUp newAccount s a ↔
      (a ∈ s.roles.verifierSet →
        TakesReadAccount newAccount ∧ a ∈ s.roles.verifierSet.take 50) :=
  looksUp_iff_listed newAccount _ a

/-- The admin service suspends and configures those that the service finds. -/
theorem admin_looksUp {newAccount : NewAccount} {s : Registry.State} {a : Address}
    (looksUp : LooksUp newAccount s a) :
    ((∃ suspended, suspendVerifier (readContract newAccount s) (.canonical a) = .ok suspended) ↔
        s.roles.isVerifier a = true) ∧
      ((∃ configured,
          configureVerifier (readContract newAccount s) (.canonical a) = .ok configured) ↔
        s.roles.isVerifier a = true) := by
  unfold LooksUp at looksUp
  by_cases registered : s.roles.isVerifier a = true
  · rw [if_pos registered] at looksUp
    simp [suspendVerifier, configureVerifier, looksUp, registered]
  · rw [if_neg registered] at looksUp
    simp [suspendVerifier, configureVerifier, looksUp, registered]

/-! ## Runs -/

/-- The verifiers of the registry stay distinct. -/
theorem distinct_step {sha256 : Bytes → BytesN32}
    {event : Event Registry.State Registry.Invocation Registry.Ret}
    (distinct : event.pre.roles.verifierSet.Nodup)
    (commits : (Registry.machine sha256).Commits event) :
    event.post.roles.verifierSet.Nodup := by
  have dispatched := ((Registry.exec_eq_ok sha256 event.pre).mp commits).2
  exact (Registry.dispatch_watches dispatched).2.1 distinct

/-- The service can list all verifiers: there are at most fifty, and none if it cannot read. -/
structure Shows (newAccount : NewAccount) (s : Registry.State) : Prop where
  few : s.roles.verifierSet.length ≤ 50
  reads : s.roles.verifierSet ≠ [] → TakesReadAccount newAccount

/-- The service and the registry agree on all addresses if and only if the service can list all
verifiers. -/
theorem looksUp_all_iff {newAccount : NewAccount} {s : Registry.State}
    (distinct : s.roles.verifierSet.Nodup) :
    (∀ a, LooksUp newAccount s a) ↔ Shows newAccount s := by
  simp only [looksUp_iff_listed]
  constructor
  · intro listed
    refine ⟨?_, ?_⟩
    · have short := (List.subperm_of_subset distinct fun a member => (listed a member).2).length_le
      rw [List.length_take] at short
      omega
    · intro some_
      obtain ⟨a, member⟩ := List.exists_mem_of_ne_nil _ some_
      exact (listed a member).1
  · intro shows a member
    refine ⟨shows.reads (List.ne_nil_of_mem member), ?_⟩
    rwa [List.take_of_length_le shows.few]

/-- The call registers a verifier only where the service can read and there are less than
fifty. -/
def RegistersWithin (newAccount : NewAccount)
    (event : Event Registry.State Registry.Invocation Registry.Ret) : Prop :=
  ∀ admin verifier nonce, event.input.call = .registerVerifier admin verifier nonce →
    TakesReadAccount newAccount ∧ event.pre.roles.verifierSet.length < 50

theorem shows_step {newAccount : NewAccount} {sha256 : Bytes → BytesN32}
    {event : Event Registry.State Registry.Invocation Registry.Ret}
    (shows : Shows newAccount event.pre) (commits : (Registry.machine sha256).Commits event) :
    Shows newAccount event.post ↔ RegistersWithin newAccount event := by
  have dispatched := ((Registry.exec_eq_ok sha256 event.pre).mp commits).2
  unfold RegistersWithin
  cases named : event.input.call with
  | registerVerifier admin verifier nonce =>
      rw [named] at dispatched
      rcases Registry.Result.unit_eq_ok.mp dispatched with ⟨success, -⟩
      have set := (Registry.registerVerifier_ok success).2
      constructor
      · rintro ⟨few, reads⟩ _ _ _ _
        rw [set] at few reads
        rw [List.length_append, List.length_singleton] at few
        exact ⟨reads (by simp), by omega⟩
      · intro room
        obtain ⟨takes, less⟩ := room admin verifier nonce rfl
        refine ⟨?_, fun _ => takes⟩
        rw [set, List.length_append, List.length_singleton]
        omega
  | removeVerifier admin verifier nonce =>
      rw [named] at dispatched
      rcases Registry.Result.unit_eq_ok.mp dispatched with ⟨success, -⟩
      have set := (Registry.removeVerifier_ok success).2
      have shorter := List.length_filter_le (· != verifier) event.pre.roles.verifierSet
      simp only [reduceCtorEq, false_implies, implies_true, iff_true]
      refine ⟨?_, ?_⟩
      · rw [set]
        exact shorter.trans shows.few
      · intro rest
        apply shows.reads
        rintro empty
        rw [set, empty] at rest
        exact rest rfl
  | _ =>
      rw [named] at dispatched
      have set := Registry.dispatch_verifierSet rfl dispatched
      simp only [reduceCtorEq, false_implies, implies_true, iff_true]
      refine ⟨?_, ?_⟩
      · rw [set]
        exact shows.few
      · rw [set]
        exact shows.reads

/-- At every moment of a run the service and the registry agree on all addresses, in exactly the
runs in which no verifier is registered past the fiftieth, and none at all if the SDK does not
take the account of readings. -/
theorem getVerifier_always_agrees_iff (newAccount : NewAccount) (sha256 : Bytes → BytesN32)
    (inputs : List Registry.Invocation) :
    (Registry.machine sha256).Always (fun _ s => ∀ a, LooksUp newAccount s a) inputs ↔
      ∀ event ∈ (Registry.machine sha256).log inputs, RegistersWithin newAccount event := by
  have start : Shows newAccount (Registry.machine sha256).init :=
    ⟨Nat.zero_le 50, fun some_ => absurd rfl some_⟩
  rw [← Machine.admits_forall]
  refine (Registry.machine sha256).always_iff_admits
    (fun _ s => s.roles.verifierSet.Nodup ∧ Shows newAccount s)
    ⟨List.nodup_nil, start⟩ ?_ ?_ ?_ inputs
  · exact (looksUp_all_iff List.nodup_nil).mpr start
  · intro log event inv commits
    rw [looksUp_all_iff (distinct_step inv.1 commits)]
    exact shows_step inv.2 commits
  · intro log event inv within commits
    exact ⟨distinct_step inv.1 commits, (shows_step inv.2 commits).mpr within⟩

namespace Sample

open Registry.Sample (admin call setup)

/-- The admin registers fifty verifiers after the first one. -/
def fiftyOne : List Registry.Invocation :=
  setup 1 ++ (List.range 50).map fun n =>
    call admin (.registerVerifier admin (.account (100 + n)) (3 + n))

end Sample

open Registry.Sample (setup verifier) in
set_option maxRecDepth 100000 in
/-- Where the SDK refuses the account of readings, the service does not even find the only
verifier. Where it takes it, the service does not find the one that was registered as the
fifty-first. -/
theorem verifiers_missed :
    ¬ LooksUp Stellar.Sample.strkey ((Registry.machine BytesN32.mk).state (setup 1)) verifier ∧
      ¬ LooksUp Stellar.Sample.unchecked
        ((Registry.machine BytesN32.mk).state Sample.fiftyOne) (.account 149) := by
  rw [looksUp_iff_listed, looksUp_iff_listed]
  refine ⟨?_, ?_⟩
  · intro found
    exact Stellar.strkey_refuses (found (by decide)).1
  · intro found
    exact absurd (found (by decide)).2 (by decide)

end CarbonChain.Verifiers
