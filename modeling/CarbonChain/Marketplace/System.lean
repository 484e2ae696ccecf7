import CarbonChain.Marketplace.Contract

/-!
# The marketplace and the registry

The steps of `create_offer` and `cancel_offer` as invocations of the registry they name,
and what they do to the owners of credits when it is the genuine one. An invocation of
another contract reaches the registry only through its entry points and without the
authority of the marketplace, so it takes no credit away from the marketplace.
-/

namespace CarbonChain.Marketplace

open Registry (Client Network World ForeignReply)

/-- The registry that a call names. -/
def Call.registryId : Call → Option Address
  | .createOffer _ _ _ _ registryId _ _ | .cancelOffer _ _ registryId _ => some registryId
  | _ => none

/-- The offer that a call makes. -/
def Call.offer (env : Env) : Call → Option Offer
  | .createOffer seller creditId priceXlm tonnes _ expiresAt _ =>
      some { seller, creditId, priceXlm, tonnes, active := true, createdAt := env.timestamp,
             expiresAt }
  | _ => none

/-! ## Offers -/

/-- Every later offer is an earlier one, possibly closed. -/
def Closes (before after : Store Nat Offer) : Prop :=
  ∀ id offer', after.lookup id = some offer' → ∃ offer, before.lookup id = some offer ∧
    (offer' = offer ∨ offer' = { offer with active := false })

theorem Closes.refl (offers : Store Nat Offer) : Closes offers offers :=
  fun _ offer stored => ⟨offer, stored, .inl rfl⟩

theorem Closes.trans {first second third : Store Nat Offer} (h : Closes first second)
    (h' : Closes second third) : Closes first third := by
  intro id last stored
  rcases h' id last stored with ⟨between, stored', rfl | rfl⟩
  · exact h id last stored'
  · rcases h id between stored' with ⟨offer, there, rfl | rfl⟩
    · exact ⟨between, there, .inr rfl⟩
    · exact ⟨offer, there, .inr rfl⟩

theorem Closes.insert {offers : Store Nat Offer} {id : Nat} {offer : Offer}
    (stored : offers.lookup id = some offer) :
    Closes offers (offers.insert id { offer with active := false }) := by
  intro other offer' there
  rw [Store.lookup_insert_ite] at there
  split at there
  · next same =>
      rw [same]
      exact ⟨offer, stored, .inr (Option.some.inj there).symm⟩
  · exact ⟨offer', there, .inl rfl⟩

theorem cleanupOne_closes (now : Nat) (offers : Store Nat Offer) (i : Nat) :
    Closes offers (cleanupOne now offers i) := by
  unfold cleanupOne
  split
  · exact Closes.refl offers
  · next offer stored =>
      split
      · exact Closes.refl offers
      · split
        · exact Closes.insert stored
        · exact Closes.refl offers

/-- The loop of `cleanup_expired_offers` only closes offers. -/
theorem cleanup_closes (now : Nat) (ids : List Nat) (offers : Store Nat Offer) :
    Closes offers (ids.foldl (cleanupOne now) offers) := by
  induction ids generalizing offers with
  | nil => exact Closes.refl offers
  | cons i rest ih =>
      rw [List.foldl_cons]
      exact (cleanupOne_closes now offers i).trans (ih (cleanupOne now offers i))

/-- An open offer of a later state is an open offer of the earlier one. -/
theorem Closes.open {before after : Store Nat Offer} (h : Closes before after) {id : Nat}
    {offer : Offer} (stored : after.lookup id = some offer) (isOpen : offer.active = true) :
    before.lookup id = some offer := by
  rcases h id offer stored with ⟨earlier, there, rfl | rfl⟩
  · exact there
  · cases isOpen

variable {W : Type} {invoke : Client W} {self : Address} {env : Env} {s s' : State} {w w' : W}

/-! ## The invocations of a call -/

theorem exec_eq_ok {call : Call} {ret : Ret} :
    exec invoke self env s w call = .ok (ret, s', w') ↔
      s.wasm = none ∧ dispatch invoke self env s w call = .ok (ret, s', w') := by
  simp [exec]

theorem createOffer_ok {seller : Address} {creditId : BytesN32} {priceXlm tonnes : Int}
    {registryId : Address} {expiresAt : Option Nat} {nonce : Nat} {ret : Ret}
    (h : exec invoke self env s w
      (.createOffer seller creditId priceXlm tonnes registryId expiresAt nonce) =
        .ok (ret, s', w')) :
    env.auth seller = true ∧ ∃ credit w₁ registryNonce w₂,
      invoke w registryId (.getCredit creditId) = some (.credit credit, w₁) ∧
      credit.status = .active ∧ credit.owner = seller ∧
      invoke w₁ registryId (.getNonce seller) = some (.nonce registryNonce, w₂) ∧
      invoke w₂ registryId (.transferCredit seller self creditId registryNonce) =
        some (.unit, w') := by
  have h := (exec_eq_ok.mp h).2
  simp only [dispatch, map_eq_ok, createOffer, bind_eq_ok, rejectIf_eq_ok, exists_const,
    Env.requireAuth_eq_ok, Prod.exists, pure_eq_ok, Prod.mk.injEq, Client.getCredit_eq_ok,
    Client.getNonce_eq_ok, Client.transferCredit_eq_ok, not_not, ne_eq] at h
  obtain ⟨_, _, _, ⟨-, authorised, _, -, -, -, -, credit, w₁, shown, active, owned, nonce', w₂,
    numbered, _, moved, _, _, -, -, -, rfl⟩, -, -, rfl⟩ := h
  exact ⟨authorised, credit, w₁, nonce', w₂, shown, active, owned, numbered, moved⟩

theorem cancelOffer_ok {seller : Address} {offerId : Nat} {registryId : Address} {nonce : Nat}
    {ret : Ret}
    (h : exec invoke self env s w (.cancelOffer seller offerId registryId nonce) =
      .ok (ret, s', w')) :
    env.auth seller = true ∧ ∃ offer registryNonce w₁,
      s.offer.lookup offerId = some offer ∧ offer.seller = seller ∧ offer.active = true ∧
      s'.offer = s.offer.insert offerId { offer with active := false } ∧
      invoke w registryId (.getNonce self) = some (.nonce registryNonce, w₁) ∧
      invoke w₁ registryId (.transferCredit self seller offer.creditId registryNonce) =
        some (.unit, w') := by
  have h := (exec_eq_ok.mp h).2
  simp only [dispatch, map_eq_ok, cancelOffer, bind_eq_ok, rejectIf_eq_ok, exists_const,
    Env.requireAuth_eq_ok, Prod.exists, pure_eq_ok, Prod.mk.injEq, okOr_eq_ok,
    Client.getNonce_eq_ok, Client.transferCredit_eq_ok, not_not, ne_eq] at h
  obtain ⟨_, _, ⟨-, authorised, _, -, offer, stored, sold, isOpen, nonce', w₁, numbered, _, moved,
    rfl, rfl⟩, -, rfl, rfl⟩ := h
  exact ⟨authorised, offer, nonce', w₁, stored, sold, by simpa using isOpen, rfl, numbered, moved⟩

/-- A call that names no registry makes no invocation. -/
theorem exec_quiet {call : Call} {ret : Ret} (quiet : call.registryId = none)
    (h : exec invoke self env s w call = .ok (ret, s', w')) : w' = w := by
  have h := (exec_eq_ok.mp h).2
  cases call <;> simp only [Call.registryId, reduceCtorEq] at quiet <;>
    simp only [dispatch, map_eq_ok, Prod.mk.injEq] at h <;>
    grind

/-- What every invocation of the named registry keeps of the world, a call keeps. -/
theorem exec_keeps (P : W → Prop) {call : Call} {ret : Ret}
    (keep : ∀ registryId ∈ call.registryId, ∀ w w' request answer, P w →
      invoke w registryId request = some (answer, w') → P w')
    (before : P w) (h : exec invoke self env s w call = .ok (ret, s', w')) : P w' := by
  cases call with
  | createOffer seller creditId priceXlm tonnes registryId expiresAt nonce =>
      obtain ⟨-, credit, w₁, registryNonce, w₂, shown, -, -, numbered, moved⟩ := createOffer_ok h
      have keep := keep registryId rfl
      exact keep _ _ _ _ (keep _ _ _ _ (keep _ _ _ _ before shown) numbered) moved
  | cancelOffer seller offerId registryId nonce =>
      obtain ⟨-, offer, registryNonce, w₁, -, -, -, -, numbered, moved⟩ := cancelOffer_ok h
      have keep := keep registryId rfl
      exact keep _ _ _ _ (keep _ _ _ _ before numbered) moved
  | _ => rwa [exec_quiet rfl h]

/-- A call adds the offer it makes under the next id, and otherwise only closes offers. -/
theorem exec_offers {call : Call} {ret : Ret}
    (h : exec invoke self env s w call = .ok (ret, s', w')) :
    match call.offer env with
    | some offer =>
        s'.offer = s.offer.insert s.offerCount offer ∧ s'.offerCount = s.offerCount + 1
    | none => Closes s.offer s'.offer ∧ s'.offerCount = s.offerCount := by
  have dispatched := (exec_eq_ok.mp h).2
  cases call with
  | createOffer seller creditId priceXlm tonnes registryId expiresAt nonce =>
      simp only [dispatch, map_eq_ok, createOffer, nextId, bind_eq_ok, Prod.exists, pure_eq_ok,
        Prod.mk.injEq] at dispatched
      grind [Call.offer]
  | cancelOffer seller offerId registryId nonce =>
      obtain ⟨-, offer, -, -, stored, -, -, closed, -⟩ := cancelOffer_ok h
      refine ⟨?_, ?_⟩
      · rw [closed]
        exact Closes.insert stored
      · simp only [dispatch, map_eq_ok, cancelOffer, bind_eq_ok, Prod.exists, pure_eq_ok,
          Prod.mk.injEq] at dispatched
        grind
  | cleanupExpiredOffers admin =>
      simp only [dispatch, map_eq_ok, cleanupExpiredOffers, bind_eq_ok, pure_eq_ok,
        Prod.mk.injEq] at dispatched
      obtain ⟨_, ⟨_, -, rfl⟩, -, rfl, -⟩ := dispatched
      exact ⟨cleanup_closes _ _ _, rfl⟩
  | _ =>
      simp only [dispatch, map_eq_ok, initializeContract, pause, unpause, setPaused,
        updateMinPrice, upgrade, bind_eq_ok, pure_eq_ok, Prod.mk.injEq] at dispatched
      have same : s'.offer = s.offer ∧ s'.offerCount = s.offerCount := by grind
      refine ⟨?_, same.2⟩
      rw [same.1]
      exact Closes.refl s.offer

end CarbonChain.Marketplace
