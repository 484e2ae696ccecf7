import CarbonChain.Marketplace.System
import CarbonChain.Misc.Escrow
import CarbonChain.Registry.Owners

/-!
# What the marketplace holds

The open offers made through the registry are the receipts of an escrow whose custodian
is the marketplace. Its steps are those of a sound escrow as long as a cancellation in
the registry is of an offer made in the registry; the marketplace does not check that.
-/

namespace CarbonChain.Marketplace

open Registry (Network ForeignReply World Owned)

/-- The storage of the marketplace and of the registry. -/
abbrev Joint := Network.Joint State

abbrev JointEvent := Event Joint (Network.Input Call) (Network.Output Ret)

/-- The marketplace and the registry, from empty storage. -/
def system (net : Network) :
    Machine Joint (Network.Input Call) (Network.Output Ret) (Network.Failure MarketplaceError) :=
  net.machine (peer net.self)

/-! ## Deposits and withdrawals -/

/-- The credit and the seller of an offer made in the registry. -/
def Call.deposit (registryId : Address) : Call → Option (BytesN32 × Address)
  | .createOffer seller creditId _ _ named _ _ =>
      if named = registryId then some (creditId, seller) else none
  | _ => none

/-- The offer that is cancelled in the registry. -/
def Call.withdrawal (registryId : Address) : Call → Option Nat
  | .cancelOffer _ offerId named _ => if named = registryId then some offerId else none
  | _ => none

/-- The deposit that a transaction makes in the registry: of a credit, by a seller. -/
def deposit (net : Network) (event : JointEvent) : Option (BytesN32 × Address) :=
  event.input.call.bind (Call.deposit net.registryId)

/-- The offer that a transaction cancels in the registry. -/
def withdrawal (net : Network) (event : JointEvent) : Option Nat :=
  event.input.call.bind (Call.withdrawal net.registryId)

/-- Who last deposited the credit. -/
def lastDepositor (net : Network) (log : List JointEvent) (id : BytesN32) : Option Address :=
  ((log.filterMap (deposit net)).filter fun entry => entry.1 = id).getLast?.map Prod.snd

/-- The offer was made in the registry. -/
def MadeIn (net : Network) (log : List JointEvent) (offerId : Nat) : Prop :=
  ∃ event ∈ log, deposit net event ≠ none ∧ event.pre.peer.offerCount = offerId

/-- An offer that is cancelled in the registry was made in the registry. -/
def Matched (net : Network) (log : List JointEvent) (event : JointEvent) : Prop :=
  ∀ offerId ∈ withdrawal net event, MadeIn net log offerId

variable {net : Network} {log : List JointEvent} {event : JointEvent}

theorem deposit_eq_some {id : BytesN32} {seller : Address} :
    deposit net event = some (id, seller) ↔ ∃ env foreign priceXlm tonnes expiresAt nonce,
      event.input = .peer env
        (.createOffer seller id priceXlm tonnes net.registryId expiresAt nonce) foreign := by
  unfold deposit
  constructor
  · intro deposited
    cases named : event.input with
    | registry invocation =>
        rw [named] at deposited
        cases deposited
    | peer env call foreign =>
        rw [named] at deposited
        cases call with
        | createOffer seller' creditId priceXlm tonnes registryId expiresAt nonce =>
            simp only [Network.Input.call, Option.bind_some, Call.deposit] at deposited
            split at deposited
            · next genuine =>
                cases deposited
                rw [genuine]
                exact ⟨env, foreign, priceXlm, tonnes, expiresAt, nonce, rfl⟩
            · cases deposited
        | _ => cases deposited
  · rintro ⟨env, foreign, priceXlm, tonnes, expiresAt, nonce, named⟩
    simp [named, Network.Input.call, Call.deposit]

theorem withdrawal_eq_some {offerId : Nat} (h : withdrawal net event = some offerId) :
    ∃ env foreign seller nonce, event.input = .peer env
      (.cancelOffer seller offerId net.registryId nonce) foreign := by
  unfold withdrawal at h
  cases named : event.input with
  | registry invocation =>
      rw [named] at h
      cases h
  | peer env call foreign =>
      rw [named] at h
      cases call with
      | cancelOffer seller offerId' registryId nonce =>
          simp only [Network.Input.call, Option.bind_some, Call.withdrawal] at h
          split at h
          · next genuine =>
              cases h
              rw [genuine]
              exact ⟨env, foreign, seller, nonce, rfl⟩
          · cases h
      | _ => cases h

theorem lastDepositor_snoc_of_none (quiet : deposit net event = none) (id : BytesN32) :
    lastDepositor net (log ++ [event]) id = lastDepositor net log id := by
  simp [lastDepositor, List.filterMap_append, quiet]

theorem lastDepositor_snoc_of_some {i : BytesN32} {seller : Address}
    (deposited : deposit net event = some (i, seller)) (id : BytesN32) :
    lastDepositor net (log ++ [event]) id =
      if id = i then some seller else lastDepositor net log id := by
  unfold lastDepositor
  rw [List.filterMap_append, List.filter_append]
  by_cases same : id = i
  · simp [deposited, same]
  · simp [deposited, same, Ne.symm same]

/-- A depositor remains the last one while nobody else deposits the credit. -/
theorem lastDepositor_of_split {before middle : List JointEvent} {first : JointEvent}
    {id : BytesN32} {seller : Address} (deposited : deposit net first = some (id, seller))
    (only : ∀ e ∈ middle, ∀ other, deposit net e = some (id, other) → other = seller) :
    lastDepositor net (before ++ first :: middle) id = some seller := by
  induction middle using List.reverseRecOn with
  | nil => rw [lastDepositor_snoc_of_some deposited, if_pos rfl]
  | append_singleton middle e ih =>
      have earlier := ih fun e' listed => only e' (List.mem_append_left _ listed)
      rw [← List.cons_append, ← List.append_assoc]
      cases here : deposit net e with
      | none => rw [lastDepositor_snoc_of_none here, earlier]
      | some entry =>
          obtain ⟨i, other⟩ := entry
          rw [lastDepositor_snoc_of_some here, earlier]
          by_cases same : id = i
          · rw [if_pos same, only e (by simp) other (by rw [here, same])]
          · rw [if_neg same]

theorem MadeIn.snoc {offerId : Nat} (h : MadeIn net log offerId) :
    MadeIn net (log ++ [event]) offerId :=
  Machine.exists_snoc.mpr (.inl h)

theorem MadeIn.cases_snoc {offerId : Nat} (h : MadeIn net (log ++ [event]) offerId) :
    MadeIn net log offerId ∨ deposit net event ≠ none ∧ event.pre.peer.offerCount = offerId :=
  Machine.exists_snoc.mp h

/-! ## The escrow -/

/-- The receipts are the open offers made in the registry. -/
def escrow (net : Network) (log : List JointEvent) (s : Joint) :
    Escrow Nat BytesN32 Address where
  owner := s.registry.ownerOf
  receipt := fun offerId id seller => MadeIn net log offerId ∧ ∃ offer,
    s.peer.offer.lookup offerId = some offer ∧ offer.active = true ∧ offer.creditId = id ∧
      offer.seller = seller
  depositor := lastDepositor net log

/-- The offers of a state and the offers that were made in the registry have ids below
the counter, and the receipts are sound. -/
structure Custody (net : Network) (log : List JointEvent) (s : Joint) : Prop where
  derived : s.registry.ledger.Derived net.sha256
  stored : ∀ id offer, s.peer.offer.lookup id = some offer → id < s.peer.offerCount
  made : ∀ id, MadeIn net log id → id < s.peer.offerCount
  sound : (escrow net log s).Sound net.self

/-! ## Offers after a call -/

variable {W : Type} {invoke : Registry.Client W} {self : Address} {env : Env} {s s' : State}
  {w w' : W}

/-- An open offer with an earlier id was open before the call. -/
theorem exec_open {call : Call} {ret : Ret}
    (h : exec invoke self env s w call = .ok (ret, s', w')) {id : Nat} {offer : Offer}
    (earlier : id < s.offerCount) (stored : s'.offer.lookup id = some offer)
    (isOpen : offer.active = true) : s.offer.lookup id = some offer := by
  have offers := exec_offers h
  split at offers
  · rw [offers.1, Store.lookup_insert_ite, if_neg (by omega)] at stored
    exact stored
  · exact offers.1.open stored isOpen

/-- The counter does not go back. -/
theorem exec_offerCount {call : Call} {ret : Ret}
    (h : exec invoke self env s w call = .ok (ret, s', w')) : s.offerCount ≤ s'.offerCount := by
  have offers := exec_offers h
  split at offers <;> omega

theorem exec_stored {call : Call} {ret : Ret}
    (h : exec invoke self env s w call = .ok (ret, s', w'))
    (before : ∀ id offer, s.offer.lookup id = some offer → id < s.offerCount)
    {id : Nat} {offer : Offer} (stored : s'.offer.lookup id = some offer) :
    id < s'.offerCount := by
  have offers := exec_offers h
  split at offers
  · rw [offers.1, Store.lookup_insert_ite] at stored
    rw [offers.2]
    by_cases new : id = s.offerCount
    · omega
    · rw [if_neg new] at stored
      have := before id offer stored
      omega
  · rcases offers.1 id offer stored with ⟨earlier, there, -⟩
    have := before id earlier there
    omega

/-! ## Calls on the network -/

variable {foreign : Nat → ForeignReply} {u u' : World}

/-- A call that names another registry takes nothing from the marketplace. -/
theorem exec_owned (inj : Function.Injective net.sha256) {env' : Env} {call : Call} {ret : Ret}
    (other : ∀ registryId ∈ call.registryId, registryId ≠ net.registryId) {id : BytesN32}
    (owned : Owned net.sha256 id net.self u.registry)
    (h : exec (net.client env foreign) self env' s u call = .ok (ret, s', u')) :
    Owned net.sha256 id net.self u'.registry := by
  refine exec_keeps (fun u => Owned net.sha256 id net.self u.registry) ?_ owned h
  intro registryId named w w' request answer owned invoked
  exact Network.client_owned inj (other registryId named) owned invoked

theorem exec_derived {env' : Env} {call : Call} {ret : Ret}
    (derived : u.registry.ledger.Derived net.sha256)
    (h : exec (net.client env foreign) self env' s u call = .ok (ret, s', u')) :
    u'.registry.ledger.Derived net.sha256 := by
  refine exec_keeps (fun u => u.registry.ledger.Derived net.sha256) ?_ derived h
  exact fun registryId named w w' request answer derived invoked =>
    Network.client_derived derived invoked

/-- An offer made in the registry takes the credit from the seller. -/
theorem createOffer_takes {env' : Env} {seller : Address} {creditId : BytesN32}
    {priceXlm tonnes : Int} {expiresAt : Option Nat} {nonce : Nat} {ret : Ret}
    (h : exec (net.client env foreign) self env' s u
      (.createOffer seller creditId priceXlm tonnes net.registryId expiresAt nonce) =
        .ok (ret, s', u')) :
    env'.auth seller = true ∧ u.registry.ownerOf creditId = some seller ∧
      ∀ other, u'.registry.ownerOf other =
        if other = creditId then some self else u.registry.ownerOf other := by
  obtain ⟨authorised, credit, u₁, registryNonce, u₂, shown, -, -, numbered, moved⟩ :=
    createOffer_ok h
  have same₁ := (Registry.respond_getCredit (Network.client_registry shown)).1
  have same₂ := (Registry.respond_getNonce (Network.client_registry numbered)).1
  have transfer := Network.client_transferCredit moved
  rw [same₂, same₁] at transfer
  exact ⟨authorised, transfer⟩

/-- An offer cancelled in the registry gives its credit to its seller. -/
theorem cancelOffer_gives {env' : Env} {seller : Address} {offerId nonce : Nat} {ret : Ret}
    (h : exec (net.client env foreign) self env' s u
      (.cancelOffer seller offerId net.registryId nonce) = .ok (ret, s', u')) :
    ∃ offer, s.offer.lookup offerId = some offer ∧ offer.active = true ∧ offer.seller = seller ∧
      s'.offer = s.offer.insert offerId { offer with active := false } ∧
      ∀ other, u'.registry.ownerOf other =
        if other = offer.creditId then some seller else u.registry.ownerOf other := by
  obtain ⟨-, offer, registryNonce, u₁, stored, sold, isOpen, closed, numbered, moved⟩ :=
    cancelOffer_ok h
  have same := (Registry.respond_getNonce (Network.client_registry numbered)).1
  have transfer := (Network.client_transferCredit moved).2
  rw [same] at transfer
  exact ⟨offer, stored, isOpen, sold, closed, transfer⟩

end CarbonChain.Marketplace
