import CarbonChain.Registry.Network

/-!
# The marketplace

The contract of `contracts/marketplace/src/lib.rs`. Sellers list credits for sale.
`create_offer` moves the credit, in the registry that the seller names, into the ownership
of the marketplace; `cancel_offer` moves it back, in the registry that its caller names. An
offer does not record which registry it was made in.
-/

namespace CarbonChain.Marketplace

open Registry (CreditStatus CreditMetadata Client Peer)

/-- The errors of the contract (`lib.rs:71-83`). -/
inductive MarketplaceError where
  | offerNotFound
  | unauthorized
  | invalidPrice
  | invalidTonnes
  | alreadyClosed
  | creditNotActive
  | notInitialized
  | contractPaused
  | invalidNonce
  | offerExpired
  | overflow
  deriving DecidableEq, Repr

abbrev Result (α : Type) := Outcome MarketplaceError α

/-- `lib.rs:42-51`. `tonnes` is the volume the seller states; `price_xlm` counts stroops. -/
structure Offer where
  seller : Address
  creditId : BytesN32
  priceXlm : Int
  tonnes : Int
  active : Bool
  createdAt : Nat
  expiresAt : Option Nat
  deriving DecidableEq, Repr

/-- The storage of the contract. `wasm` is the code hash that a successful `upgrade`
installed; it is `none` while the contract runs the code modelled here. -/
structure State where
  admin : Option Address
  minPrice : Option Int
  paused : Bool
  offer : Store Nat Offer
  offerCount : Nat
  escrowedAmount : Store Nat Int
  sellerOffers : Store Address (List Nat)
  nonce : Store Address Nat
  wasm : Option BytesN32

def State.empty : State := ⟨none, none, false, ∅, 0, ∅, ∅, ∅, none⟩

/-- `get_nonce` (`lib.rs:117-119`). -/
def State.getNonce (s : State) (a : Address) : Nat := nonceOf s.nonce a

/-- `consume_nonce` (`lib.rs:438-445`). -/
def State.consumeNonce (s : State) (a : Address) (expected : Nat) : Result (Store Address Nat) :=
  CarbonChain.consumeNonce .invalidNonce s.nonce a expected

/-- `require_admin` (`lib.rs:421-432`). -/
def State.requireAdmin (s : State) (env : Env) (caller : Address) : Result Unit :=
  CarbonChain.requireAdmin .notInitialized .unauthorized s.admin env caller

/-- `get_offers_by_seller` (`lib.rs:350-355`). -/
def State.getOffersBySeller (s : State) (seller : Address) : List Nat :=
  (s.sellerOffers.lookup seller).getD []

/-- `get_min_price` (`lib.rs:407-409`). -/
def State.getMinPrice (s : State) : Int := s.minPrice.getD 0

variable {W : Type} (invoke : Client W) (self : Address) (env : Env) (s : State) (w : W)

/-! ## Administration -/

/-- `initialize` (`lib.rs:129-137`). A second call fails, with the code of a contract that is
not initialised. -/
def initializeContract (admin : Address) (minPricePerTonne : Int) : Result State := do
  rejectIf s.admin.isSome .notInitialized
  env.requireAuth admin
  return { s with admin := some admin, minPrice := some minPricePerTonne }

/-- What `pause` and `unpause` have in common. -/
def setPaused (paused : Bool) (admin : Address) : Result State := do
  s.requireAdmin env admin
  return { s with paused }

/-- `pause` (`lib.rs:144-149`). -/
def pause (admin : Address) : Result State := setPaused env s true admin

/-- `unpause` (`lib.rs:156-161`). -/
def unpause (admin : Address) : Result State := setPaused env s false admin

/-- `update_min_price` (`lib.rs:401-405`). -/
def updateMinPrice (admin : Address) (newMin : Int) : Result State := do
  s.requireAdmin env admin
  return { s with minPrice := some newMin }

/-- `upgrade` (`lib.rs:459-466`). -/
def upgrade (admin : Address) (newWasmHash : BytesN32) (nonce : Nat) : Result State := do
  s.requireAdmin env admin
  let nonce ← s.consumeNonce admin nonce
  return { s with nonce, wasm := some newWasmHash }

/-! ## Offers -/

/-- `next_id` (`lib.rs:413-419`): the next offer id and the counter after it. -/
def nextId : Result (Nat × Nat) := do
  rejectIf (s.offerCount + 1 ≥ 2 ^ 64) .overflow
  return (s.offerCount, s.offerCount + 1)

/-- `create_offer` (`lib.rs:181-262`): the credit is read and moved to the marketplace in the
registry `registryId`. Its tonnes are not read. -/
def createOffer (seller : Address) (creditId : BytesN32) (priceXlm tonnes : Int)
    (registryId : Address) (expiresAt : Option Nat) (nonce : Nat) : Result (Nat × State × W) := do
  rejectIf s.paused .contractPaused
  env.requireAuth seller
  let nonce ← s.consumeNonce seller nonce
  rejectIf (priceXlm ≤ 0) .invalidPrice
  rejectIf (tonnes ≤ 0 ∨ tonnes % 100000 ≠ 0) .invalidTonnes
  rejectIf (priceXlm < s.getMinPrice) .invalidPrice
  let (credit, w) ← Client.getCredit invoke w registryId creditId
  rejectIf (credit.status ≠ .active) .creditNotActive
  rejectIf (credit.owner ≠ seller) .unauthorized
  let (registryNonce, w) ← Client.getNonce invoke w registryId seller
  let w ← Client.transferCredit invoke w registryId seller self creditId registryNonce
  let (offerId, offerCount) ← nextId s
  let offer : Offer :=
    { seller, creditId, priceXlm, tonnes, active := true, createdAt := env.timestamp, expiresAt }
  let sellerOffers := s.sellerOffers.insert seller (s.getOffersBySeller seller ++ [offerId])
  return (offerId, { s with
    nonce, offerCount, sellerOffers
    offer := s.offer.insert offerId offer
    escrowedAmount := s.escrowedAmount.insert offerId priceXlm }, w)

/-- `cancel_offer` (`lib.rs:273-328`): the credit is moved back in the registry `registryId`,
which need not be the one of `createOffer`. -/
def cancelOffer (seller : Address) (offerId : Nat) (registryId : Address) (nonce : Nat) :
    Result (State × W) := do
  rejectIf s.paused .contractPaused
  env.requireAuth seller
  let nonce ← s.consumeNonce seller nonce
  let offer ← okOr (s.offer.lookup offerId) .offerNotFound
  rejectIf (offer.seller ≠ seller) .unauthorized
  rejectIf (!offer.active) .alreadyClosed
  let (registryNonce, w) ← Client.getNonce invoke w registryId self
  let w ← Client.transferCredit invoke w registryId self seller offer.creditId registryNonce
  return ({ s with
    nonce
    offer := s.offer.insert offerId { offer with active := false }
    escrowedAmount := s.escrowedAmount.erase offerId }, w)

/-- One iteration of the loop of `cleanup_expired_offers`. -/
def cleanupOne (now : Nat) (offers : Store Nat Offer) (i : Nat) : Store Nat Offer :=
  match offers.lookup i with
  | none => offers
  | some offer =>
      match offer.expiresAt with
      | none => offers
      | some expiresAt =>
          if now > expiresAt ∧ offer.active then offers.insert i { offer with active := false }
          else offers

/-- `cleanup_expired_offers` (`lib.rs:383-399`). The credits of the offers it closes stay with
the marketplace. -/
def cleanupExpiredOffers (admin : Address) : Result State := do
  s.requireAdmin env admin
  return { s with offer := (List.range s.offerCount).foldl (cleanupOne env.timestamp) s.offer }

/-! ## Queries -/

/-- `get_offer` (`lib.rs:334-347`): an expired offer is an error, whether or not it is open. -/
def getOffer (offerId : Nat) : Result Offer := do
  let offer ← okOr (s.offer.lookup offerId) .offerNotFound
  match offer.expiresAt with
  | none => return offer
  | some expiresAt => do
      rejectIf (env.timestamp > expiresAt) .offerExpired
      return offer

/-- `get_active_offers_by_seller` (`lib.rs:359-376`): expiry is not looked at. -/
def getActiveOffersBySeller (seller : Address) : List Nat :=
  (s.getOffersBySeller seller).filter fun id => (s.offer.lookup id).any Offer.active

/-! ## Runs -/

/-- The state-changing entry points with their arguments. -/
inductive Call where
  | initializeContract (admin : Address) (minPricePerTonne : Int)
  | pause (admin : Address)
  | unpause (admin : Address)
  | createOffer (seller : Address) (creditId : BytesN32) (priceXlm tonnes : Int)
      (registryId : Address) (expiresAt : Option Nat) (nonce : Nat)
  | cancelOffer (seller : Address) (offerId : Nat) (registryId : Address) (nonce : Nat)
  | cleanupExpiredOffers (admin : Address)
  | updateMinPrice (admin : Address) (newMin : Int)
  | upgrade (admin : Address) (newWasmHash : BytesN32) (nonce : Nat)

/-- The value an entry point returns. -/
inductive Ret where
  | unit
  | id (offerId : Nat)
  deriving DecidableEq

def dispatch : Call → Result (Ret × State × W)
  | .initializeContract admin minPricePerTonne =>
      (fun s => (.unit, s, w)) <$> initializeContract env s admin minPricePerTonne
  | .pause admin => (fun s => (.unit, s, w)) <$> pause env s admin
  | .unpause admin => (fun s => (.unit, s, w)) <$> unpause env s admin
  | .createOffer seller creditId priceXlm tonnes registryId expiresAt nonce =>
      (fun p => (.id p.1, p.2)) <$>
        createOffer invoke self env s w seller creditId priceXlm tonnes registryId expiresAt nonce
  | .cancelOffer seller offerId registryId nonce =>
      (fun p => (.unit, p)) <$> cancelOffer invoke self env s w seller offerId registryId nonce
  | .cleanupExpiredOffers admin =>
      (fun s => (.unit, s, w)) <$> cleanupExpiredOffers env s admin
  | .updateMinPrice admin newMin => (fun s => (.unit, s, w)) <$> updateMinPrice env s admin newMin
  | .upgrade admin newWasmHash nonce =>
      (fun s => (.unit, s, w)) <$> upgrade env s admin newWasmHash nonce

/-- An upgraded contract no longer runs the code modelled here. -/
def exec (call : Call) : Result (Ret × State × W) := do
  panicIf s.wasm.isSome
  dispatch invoke self env s w call

/-- The contract at the address `self`, from empty storage. -/
def peer (self : Address) : Peer State Call Ret MarketplaceError where
  init := State.empty
  exec := fun invoke => exec invoke self

end CarbonChain.Marketplace
