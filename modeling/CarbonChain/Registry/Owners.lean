import CarbonChain.Registry.Network

/-!
# Owners on the network

The owner of a credit changes only in a `transfer_credit`
(`contracts/credit_registry/src/lib.rs:525-541`) that the owner authorises. The peer of a
network authorises nothing but its own invocations, so a credit that it owns leaves it only
when the peer itself invokes `transfer_credit` on the registry.
-/

namespace CarbonChain.Registry

/-- The owner of a stored credit. -/
def State.ownerOf (s : State) (id : BytesN32) : Option Address :=
  (s.ledger.getCredit id).map CreditMetadata.owner

variable {sha256 : Bytes → BytesN32}

/-- `id` is owned by `a`, in storage whose ids are derived. -/
structure Owned (sha256 : Bytes → BytesN32) (id : BytesN32) (a : Address) (s : State) : Prop where
  derived : s.ledger.Derived sha256
  owner : s.ownerOf id = some a

/-- What does not carry the authority of the owner leaves the credit to the owner. -/
theorem Owned.exec (inj : Function.Injective sha256) {s s' : State} {invocation : Invocation}
    {ret : Ret} {id : BytesN32} {a : Address} (owned : Owned sha256 id a s)
    (unauthorised : invocation.env.auth a = false)
    (h : exec sha256 s invocation = .ok (ret, s')) : Owned sha256 id a s' := by
  have effect := exec_effect sha256 s h
  rcases Option.map_eq_some_iff.mp owned.owner with ⟨credit, stored, rfl⟩
  rcases effect.evolves inj owned.derived stored with ⟨credit', after, evolves⟩
  refine ⟨effect.derived owned.derived, ?_⟩
  unfold State.ownerOf
  rw [after, Option.map_some]
  rcases evolves.owner_cases with same | ⟨authorised, -⟩
  · rw [same]
  · rw [unauthorised] at authorised
    cases authorised

theorem exec_derived {s s' : State} {invocation : Invocation} {ret : Ret}
    (derived : s.ledger.Derived sha256) (h : exec sha256 s invocation = .ok (ret, s')) :
    s'.ledger.Derived sha256 :=
  (exec_effect sha256 s h).derived derived

namespace Network

variable {net : Network} {env : Env} {foreign : Nat → ForeignReply} {w w' : World}
  {contract : Address} {request : Request} {answer : Answer}

/-- What the peer owns it owns after an invocation of another contract. -/
theorem client_owned (inj : Function.Injective net.sha256) {id : BytesN32}
    (other : contract ≠ net.registryId) (owned : Owned net.sha256 id net.self w.registry)
    (h : net.client env foreign w contract request = some (answer, w')) :
    Owned net.sha256 id net.self w'.registry := by
  refine client_foreign (Owned net.sha256 id net.self) ?_ other owned h
  exact fun s s' invocation ret owned unauthorised success => owned.exec inj unauthorised success

theorem client_derived (derived : w.registry.ledger.Derived net.sha256)
    (h : net.client env foreign w contract request = some (answer, w')) :
    w'.registry.ledger.Derived net.sha256 := by
  refine client_keeps (fun s => s.ledger.Derived net.sha256) ?_ derived h
  exact fun s s' invocation ret derived success => exec_derived derived success

/-- A transfer in the registry is from the owner and changes no other owner. -/
theorem client_transferCredit {sender recipient : Address} {id : BytesN32} {nonce : Nat}
    (h : net.client env foreign w net.registryId (.transferCredit sender recipient id nonce) =
      some (answer, w')) :
    w.registry.ownerOf id = some sender ∧ ∀ other, w'.registry.ownerOf other =
      if other = id then some recipient else w.registry.ownerOf other := by
  rcases respond_transferCredit_ok (client_registry h) with ⟨credit, stored, owner, moved⟩
  unfold State.ownerOf
  refine ⟨by rw [stored, Option.map_some, owner], ?_⟩
  intro other
  rw [moved, Ledger.getCredit_setCredit]
  split <;> rfl

end Network

end CarbonChain.Registry
