import CarbonChain.Registry.Client

/-!
# A contract on the network

A peer is a contract that invokes registries by address. It runs in two settings. In
`alone` every invocation it makes is answered by a script, so its runs cover every
possible callee. In a `Network` it shares a ledger with the one registry at
`registryId`: an invocation of that address runs the registry, and an invocation of
any other address runs a contract of the adversary, which may call any entry points of
the registry before it answers. The host lets no contract re-enter itself, and only
the peer's own invocations carry the authority of its address.
-/

namespace CarbonChain.Registry

/-- A contract that invokes registries: its storage, its calls, what they return and the
error codes. The code is the same whatever world its invocations run in. -/
structure Peer (S C O E : Type) where
  init : S
  exec : {W : Type} → Client W → Env → S → W → C → Outcome E (O × S × W)

/-! ## With scripted callees -/

/-- The answer to the `n`-th invocation, for the address and the request it is made with. -/
abbrev Script := Nat → Address → Request → Option Answer

/-- The client of a script; the world counts the invocations. -/
def scripted (script : Script) : Client Nat :=
  fun n contract request => (script n contract request).map (·, n + 1)

/-- A call of the contract and the answers it gets. -/
structure ScriptedCall (C : Type) where
  env : Env
  call : C
  script : Script

/-- The contract with any callees. -/
def Peer.alone {S C O E : Type} (peer : Peer S C O E) :
    Machine S (ScriptedCall C) O (Fail E) where
  init := peer.init
  exec := fun s input => do
    let (output, s, _) ← peer.exec (scripted input.script) input.env s 0 input.call
    return (output, s)

theorem Peer.alone_commits {S C O E : Type} {peer : Peer S C O E}
    {event : Event S (ScriptedCall C) O} :
    peer.alone.Commits event ↔ ∃ n, peer.exec (scripted event.input.script) event.input.env
      event.pre 0 event.input.call = .ok (event.output, event.post, n) := by
  simp [Machine.Commits, alone]

/-! ## With the registry -/

/-- What a contract of the adversary does when it is invoked: it gets entry points of the
registry called, and answers or traps. -/
structure ForeignReply where
  effects : List Invocation
  answer : Option Answer

/-- The registry during a transaction, and the number of adversary contracts invoked. -/
structure World where
  registry : State
  calls : Nat

/-- The storage after an invocation that is rolled back if it fails. -/
def attempt (sha256 : Bytes → BytesN32) (s : State) (invocation : Invocation) : State :=
  match exec sha256 s invocation with
  | .ok (_, s) => s
  | .error _ => s

/-- Where the registry and the peer are deployed. -/
structure Network where
  sha256 : Bytes → BytesN32
  registryId : Address
  self : Address

namespace Network

variable (net : Network)

/-- The invocations of the peer in a transaction. -/
def client (env : Env) (foreign : Nat → ForeignReply) : Client World :=
  fun w contract request =>
    if contract = net.self then none
    else if contract = net.registryId then
      match respond (env.calledBy net.self) w.registry request with
      | .ok (answer, registry) => some (answer, { w with registry })
      | .error _ => none
    else
      let reply := foreign w.calls
      let effects := reply.effects.map fun invocation =>
        ⟨Env.external ⟨env.timestamp, invocation.env.auth⟩ net.self, invocation.call⟩
      let registry := effects.foldl (attempt net.sha256) w.registry
      reply.answer.map (·, ⟨registry, w.calls + 1⟩)

/-- The storage of the registry and of the peer. -/
structure Joint (S : Type) where
  registry : State
  peer : S

/-- A transaction invokes the registry or the peer. -/
inductive Input (C : Type) where
  | registry (invocation : Invocation)
  | peer (env : Env) (call : C) (foreign : Nat → ForeignReply)

/-- The call of the peer that a transaction makes. -/
def Input.call {C : Type} : Input C → Option C
  | .registry _ => none
  | .peer _ call _ => some call

/-- The retirement contract that a transaction initialises the registry with. -/
def Input.appoints {C : Type} : Input C → Option Address
  | .registry ⟨_, .initializeContract _ retirementContract _⟩ => some retirementContract
  | _ => none

/-- What a transaction returns. -/
inductive Output (O : Type) where
  | registry (ret : Ret)
  | peer (output : O)

/-- Why a transaction fails. -/
inductive Failure (E : Type) where
  | registry (failure : Fail CarbonChainError)
  | peer (failure : Fail E)

variable {S C O E : Type} (peer : Peer S C O E)

/-- A transaction that fails leaves both storages as they were. -/
def exec (s : Joint S) : Input C → Except (Failure E) (Output O × Joint S)
  | .registry invocation =>
      match Registry.exec net.sha256 s.registry
          ⟨invocation.env.external net.self, invocation.call⟩ with
      | .ok (ret, registry) => .ok (.registry ret, { s with registry })
      | .error failure => .error (.registry failure)
  | .peer env call foreign =>
      match peer.exec (net.client env foreign) (env.external net.self) s.peer ⟨s.registry, 0⟩
          call with
      | .ok (output, storage, w) => .ok (.peer output, ⟨w.registry, storage⟩)
      | .error failure => .error (.peer failure)

/-- The registry and the peer from empty storage. -/
def machine : Machine (Joint S) (Input C) (Output O) (Failure E) where
  init := ⟨State.empty, peer.init⟩
  exec := net.exec peer

/-! ## Reading a transaction -/

variable {net peer}

theorem exec_registry {s s' : Joint S} {invocation : Invocation} {output : Output O}
    (h : net.exec peer s (.registry invocation) = .ok (output, s')) :
    s'.peer = s.peer ∧ ∃ ret, Registry.exec net.sha256 s.registry
      ⟨invocation.env.external net.self, invocation.call⟩ = .ok (ret, s'.registry) := by
  simp only [exec] at h
  split at h
  · next ret registry success =>
      cases h
      exact ⟨rfl, ret, success⟩
  · cases h

theorem exec_peer {s s' : Joint S} {env : Env} {call : C} {foreign : Nat → ForeignReply}
    {output : Output O} (h : net.exec peer s (.peer env call foreign) = .ok (output, s')) :
    ∃ value w, peer.exec (net.client env foreign) (env.external net.self) s.peer
      ⟨s.registry, 0⟩ call = .ok (value, s'.peer, w) ∧ w.registry = s'.registry := by
  simp only [exec] at h
  split at h
  · next value storage w success =>
      cases h
      exact ⟨value, w, success, rfl⟩
  · cases h

/-- The step of an invocation of the registry. -/
theorem commits_registry {event : Event (Joint S) (Input C) (Output O)}
    (commits : (net.machine peer).Commits event) {invocation : Invocation}
    (named : event.input = .registry invocation) :
    event.post.peer = event.pre.peer ∧ ∃ ret, Registry.exec net.sha256 event.pre.registry
      ⟨invocation.env.external net.self, invocation.call⟩ = .ok (ret, event.post.registry) := by
  have step : net.exec peer event.pre event.input = .ok (event.output, event.post) := commits
  rw [named] at step
  exact exec_registry step

/-- The step of a call of the peer. -/
theorem commits_peer {event : Event (Joint S) (Input C) (Output O)}
    (commits : (net.machine peer).Commits event) {env : Env} {call : C}
    {foreign : Nat → ForeignReply} (named : event.input = .peer env call foreign) :
    ∃ value w, peer.exec (net.client env foreign) (env.external net.self) event.pre.peer
      ⟨event.pre.registry, 0⟩ call = .ok (value, event.post.peer, w) ∧
        w.registry = event.post.registry := by
  have step : net.exec peer event.pre event.input = .ok (event.output, event.post) := commits
  rw [named] at step
  exact exec_peer step

variable {env : Env} {foreign : Nat → ForeignReply} {w w' : World} {contract : Address}
  {request : Request} {answer : Answer}

/-- An invocation of the registry's address runs the registry with the peer's authority. -/
theorem client_registry (h : net.client env foreign w net.registryId request = some (answer, w')) :
    respond (env.calledBy net.self) w.registry request = .ok (answer, w'.registry) := by
  unfold client at h
  split at h
  · cases h
  · rw [if_pos rfl] at h
    split at h
    · next success =>
        cases h
        exact success
    · cases h

/-- An invocation of the registry's address succeeds as the registry does. -/
theorem client_of_respond {registry : State} (apart : net.registryId ≠ net.self)
    (h : respond (env.calledBy net.self) w.registry request = .ok (answer, registry)) :
    net.client env foreign w net.registryId request = some (answer, { w with registry }) := by
  unfold client
  rw [if_neg apart, if_pos rfl, h]

/-- The peer is not invoked by itself. -/
theorem apart_of_client
    (h : net.client env foreign w net.registryId request = some (answer, w')) :
    net.registryId ≠ net.self := by
  intro same
  unfold client at h
  rw [if_pos same] at h
  cases h

/-- A transaction of the peer leads where the peer's call leads. -/
theorem exec_peer_iff {s s' : Joint S} {call : C} :
    (∃ output, net.exec peer s (.peer env call foreign) = .ok (output, s')) ↔
      ∃ value w, peer.exec (net.client env foreign) (env.external net.self) s.peer
        ⟨s.registry, 0⟩ call = .ok (value, s'.peer, w) ∧ w.registry = s'.registry := by
  constructor
  · rintro ⟨output, success⟩
    exact exec_peer success
  · rintro ⟨value, w, success, same⟩
    refine ⟨.peer value, ?_⟩
    simp only [exec, success, same]

theorem exec_peer_succeeds {s : Joint S} {call : C} :
    (∃ result, net.exec peer s (.peer env call foreign) = .ok result) ↔
      ∃ result, peer.exec (net.client env foreign) (env.external net.self) s.peer
        ⟨s.registry, 0⟩ call = .ok result := by
  constructor
  · rintro ⟨⟨output, s'⟩, success⟩
    obtain ⟨value, w, success, -⟩ := exec_peer success
    exact ⟨_, success⟩
  · rintro ⟨⟨value, storage, w⟩, success⟩
    have committed : ∃ output, net.exec peer s (.peer env call foreign) =
        .ok (output, ⟨w.registry, storage⟩) := exec_peer_iff.mpr ⟨value, w, success, rfl⟩
    obtain ⟨output, committed⟩ := committed
    exact ⟨_, committed⟩

/-- What holds of the registry through every invocation without the peer's authority holds
through an invocation of another contract. -/
theorem client_foreign (P : State → Prop)
    (keep : ∀ s s' invocation ret, P s → invocation.env.auth net.self = false →
      Registry.exec net.sha256 s invocation = .ok (ret, s') → P s')
    (other : contract ≠ net.registryId) (before : P w.registry)
    (h : net.client env foreign w contract request = some (answer, w')) : P w'.registry := by
  have attempted : ∀ s invocation, invocation.env.auth net.self = false → P s →
      P (attempt net.sha256 s invocation) := by
    intro s invocation unauthorised holds
    unfold attempt
    split
    · next ret s' success => exact keep s s' invocation ret holds unauthorised success
    · exact holds
  have folded : ∀ (effects : List Invocation) (s : State),
      (∀ invocation ∈ effects, invocation.env.auth net.self = false) → P s →
        P (effects.foldl (attempt net.sha256) s) := by
    intro effects
    induction effects with
    | nil => exact fun s _ holds => holds
    | cons invocation rest ih =>
        intro s unauthorised holds
        rw [List.foldl_cons]
        apply ih
        · exact fun later listed => unauthorised later (List.mem_cons_of_mem _ listed)
        · exact attempted s invocation (unauthorised invocation List.mem_cons_self) holds
  unfold client at h
  split at h
  · cases h
  · obtain ⟨value, -, same⟩ := Option.map_eq_some_iff.mp h
    obtain ⟨-, rfl⟩ := Prod.mk.inj same
    apply folded _ _ _ before
    intro invocation listed
    obtain ⟨original, -, rfl⟩ := List.mem_map.mp listed
    simp [Env.external]

/-- What every invocation of the registry keeps holds after any invocation of the peer's. -/
theorem client_keeps (P : State → Prop)
    (keep : ∀ s s' invocation ret, P s →
      Registry.exec net.sha256 s invocation = .ok (ret, s') → P s')
    (before : P w.registry)
    (h : net.client env foreign w contract request = some (answer, w')) : P w'.registry := by
  by_cases genuine : contract = net.registryId
  · subst genuine
    have success := client_registry h
    cases request with
    | getCredit creditId =>
        rw [(respond_getCredit success).1]
        exact before
    | getNonce address =>
        rw [(respond_getNonce success).1]
        exact before
    | transferCredit sender recipient creditId nonce =>
        exact keep _ _ _ _ before (respond_transferCredit success)
    | markRetired creditId => exact keep _ _ _ _ before (respond_markRetired success)
    | listCreditsByProject projectId =>
        rw [respond_listCreditsByProject success]
        exact before
  · exact client_foreign P (fun s s' invocation ret holds _ => keep s s' invocation ret holds)
      genuine before h

end Network

end CarbonChain.Registry
