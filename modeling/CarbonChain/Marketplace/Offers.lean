import CarbonChain.Marketplace.Release
import CarbonChain.Misc.Numbered

/-!
# The offers of a seller

The counter, the offers and the list of the offers of each seller are written by
`create_offer` alone (`contracts/marketplace/src/lib.rs:181-262`); cancellations and
cleanups close offers and change nothing else about them. There are two views of the offers
that are open: the list of the open offers of a seller goes by the flag of the offer,
`get_offer` (`:334-347`) also by its expiry.
-/

namespace CarbonChain.Marketplace

open Registry (Client Peer ScriptedCall)

/-- The offers differ at most in whether they are active. -/
structure Offer.SameTerms (offer offer' : Offer) : Prop where
  seller : offer'.seller = offer.seller
  creditId : offer'.creditId = offer.creditId
  priceXlm : offer'.priceXlm = offer.priceXlm
  tonnes : offer'.tonnes = offer.tonnes
  createdAt : offer'.createdAt = offer.createdAt
  expiresAt : offer'.expiresAt = offer.expiresAt

theorem Offer.SameTerms.refl (offer : Offer) : offer.SameTerms offer :=
  ⟨rfl, rfl, rfl, rfl, rfl, rfl⟩

theorem Offer.SameTerms.trans {first second third : Offer} (h : first.SameTerms second)
    (h' : second.SameTerms third) : first.SameTerms third :=
  ⟨h'.seller.trans h.seller, h'.creditId.trans h.creditId, h'.priceXlm.trans h.priceXlm,
    h'.tonnes.trans h.tonnes, h'.createdAt.trans h.createdAt, h'.expiresAt.trans h.expiresAt⟩

theorem Fate.sameTerms {env : Env} {call : Call} {id : Nat} {offer offer' : Offer}
    (fate : Fate env call id offer offer') : offer.SameTerms offer' := by
  cases fate with
  | kept => exact Offer.SameTerms.refl offer
  | cancelled seller registryId nonce named => exact ⟨rfl, rfl, rfl, rfl, rfl, rfl⟩
  | expired admin named expired => exact ⟨rfl, rfl, rfl, rfl, rfl, rfl⟩

/-- The ids of the offers are those below the counter, and each seller has the list of its
own. -/
def State.OffersNumbered (s : State) : Prop :=
  Numbered Offer.seller s.offer s.offerCount s.getOffersBySeller

/-- Every stored offer stays stored under its id on the same terms. -/
def State.KeepsOffers (s s' : State) : Prop :=
  ∀ id offer, s.offer.lookup id = some offer →
    ∃ offer', s'.offer.lookup id = some offer' ∧ offer.SameTerms offer'

/-! ## Calls -/

section Calls

variable {W : Type} {invoke : Client W} {self : Address} {env : Env} {s s' : State} {w w' : W}
  {call : Call} {ret : Ret}

/-- A call adds the offer it makes to the list of its seller. -/
theorem exec_sellerOffers (h : exec invoke self env s w call = .ok (ret, s', w')) :
    match call.offer env with
    | some offer => s'.sellerOffers =
        s.sellerOffers.insert offer.seller (s.getOffersBySeller offer.seller ++ [s.offerCount])
    | none => s'.sellerOffers = s.sellerOffers := by
  have dispatched := (exec_eq_ok.mp h).2
  cases call with
  | createOffer seller creditId priceXlm tonnes registryId expiresAt nonce =>
      simp only [dispatch, map_eq_ok, createOffer, nextId, bind_eq_ok, Prod.exists, pure_eq_ok,
        Prod.mk.injEq] at dispatched
      grind [Call.offer]
  | _ =>
      simp only [dispatch, map_eq_ok, initializeContract, pause, unpause, setPaused, cancelOffer,
        cleanupExpiredOffers, updateMinPrice, upgrade, bind_eq_ok, Prod.exists, pure_eq_ok,
        Prod.mk.injEq] at dispatched
      simp only [Call.offer]
      grind

theorem exec_getOffersBySeller (h : exec invoke self env s w call = .ok (ret, s', w'))
    (seller : Address) :
    s'.getOffersBySeller seller =
      match call.offer env with
      | some offer => if offer.seller = seller then s.getOffersBySeller seller ++ [s.offerCount]
          else s.getOffersBySeller seller
      | none => s.getOffersBySeller seller := by
  have listed := exec_sellerOffers h
  cases made : call.offer env with
  | none =>
      rw [made] at listed
      simp only [State.getOffersBySeller, listed]
  | some offer =>
      rw [made] at listed
      simp only [State.getOffersBySeller, listed, Store.lookup_insert_ite]
      by_cases its : offer.seller = seller
      · rw [← its]
        simp
      · simp [its, Ne.symm its]

theorem State.OffersNumbered.keeps (numbered : s.OffersNumbered)
    (h : exec invoke self env s w call = .ok (ret, s', w')) : s.KeepsOffers s' := by
  intro id offer stored
  have bounded : id < s.offerCount := (numbered.exists_iff id).mp ⟨offer, stored⟩
  rcases exec_fate h bounded stored with ⟨offer', stored', fate⟩
  exact ⟨offer', stored', fate.sameTerms⟩

theorem State.OffersNumbered.exec (numbered : s.OffersNumbered)
    (h : exec invoke self env s w call = .ok (ret, s', w')) : s'.OffersNumbered := by
  have offers := exec_offers h
  have listed := exec_getOffersBySeller h
  cases made : call.offer env with
  | some offer =>
      rw [made] at offers
      simp only [made] at listed
      unfold State.OffersNumbered
      rw [offers.1, offers.2]
      exact Numbered.push numbered offer listed
  | none =>
      rw [made] at offers
      simp only [made] at listed
      unfold State.OffersNumbered
      rw [offers.2, funext listed]
      apply Numbered.update numbered
      intro id
      cases stored : s'.offer.lookup id with
      | some offer' =>
          rcases offers.1 id offer' stored with ⟨offer, there, rfl | rfl⟩
          · rw [there]
          · rw [there]
            rfl
      | none =>
          cases before : s.offer.lookup id with
          | none => rfl
          | some offer =>
              rcases numbered.keeps h id offer before with ⟨offer', there, -⟩
              rw [stored] at there
              cases there

end Calls

/-! ## Runs -/

variable {self : Address}

theorem offersNumbered_init : (peer self).alone.init.OffersNumbered := Numbered.empty Offer.seller

theorem offersNumbered (inputs : List (ScriptedCall Call)) :
    ((peer self).alone.state inputs).OffersNumbered := by
  apply (peer self).alone.invariant State.OffersNumbered offersNumbered_init
  intro event numbered commits
  rcases Peer.alone_commits.mp commits with ⟨n, success⟩
  exact numbered.exec success

theorem offers_kept (earlier later : List (ScriptedCall Call)) :
    ((peer self).alone.state earlier).KeepsOffers
      ((peer self).alone.state (earlier ++ later)) := by
  apply (peer self).alone.relates State.OffersNumbered State.KeepsOffers offersNumbered_init
  · exact fun s id offer stored => ⟨offer, stored, Offer.SameTerms.refl offer⟩
  · intro s t u first second id offer stored
    rcases first id offer stored with ⟨between, there, same⟩
    rcases second id between there with ⟨last, final, same'⟩
    exact ⟨last, final, same.trans same'⟩
  · intro event numbered commits
    rcases Peer.alone_commits.mp commits with ⟨n, success⟩
    exact ⟨numbered.exec success, numbered.keeps success⟩

/-- The numbering of the offers and the lists of the sellers are exact: in every run the ids of
the offers are those below the counter, the list of a seller is increasing and has exactly the
ids of the offers of the seller, and whatever is called later, an offer keeps all but its
flag. -/
theorem offer_index_exact (self : Address) (inputs later : List (ScriptedCall Call)) :
    let s := (peer self).alone.state inputs
    (∀ id, (∃ offer, s.offer.lookup id = some offer) ↔ id < s.offerCount) ∧
    (∀ seller, (s.getOffersBySeller seller).Pairwise (· < ·) ∧
      ∀ id, id ∈ s.getOffersBySeller seller ↔
        ∃ offer, s.offer.lookup id = some offer ∧ offer.seller = seller) ∧
    ∀ id offer, s.offer.lookup id = some offer →
      ∃ offer', ((peer self).alone.state (inputs ++ later)).offer.lookup id = some offer' ∧
        offer.SameTerms offer' := by
  intro s
  have numbered : s.OffersNumbered := offersNumbered inputs
  refine ⟨numbered.exists_iff, ?_, offers_kept inputs later⟩
  intro seller
  exact ⟨numbered.sorted seller, fun id => numbered.mem_index⟩

/-! ## Open offers -/

section Views

variable {env : Env} {s : State} {seller : Address} {id : Nat}

theorem getOffer_eq_ok {offer : Offer} :
    getOffer env s id = .ok offer ↔
      s.offer.lookup id = some offer ∧ ¬ offer.Expired env.timestamp := by
  unfold getOffer Offer.Expired
  rw [bind_eq_ok]
  simp only [okOr_eq_ok]
  constructor
  · intro success
    rcases success with ⟨found, stored, read⟩
    cases expiry : found.expiresAt with
    | none =>
        rw [expiry] at read
        rw [pure_eq_ok.mp read] at stored expiry
        simp [stored, expiry]
    | some expiresAt =>
        simp only [expiry, bind_eq_ok, rejectIf_eq_ok, exists_const, pure_eq_ok] at read
        rw [read.2] at stored expiry
        simp [stored, expiry, read.1]
  · intro current
    rcases current with ⟨stored, valid⟩
    refine ⟨offer, stored, ?_⟩
    cases expiry : offer.expiresAt with
    | none => rfl
    | some expiresAt =>
        rw [expiry] at valid
        simpa using valid

theorem State.OffersNumbered.mem_getActiveOffersBySeller (numbered : s.OffersNumbered) :
    id ∈ getActiveOffersBySeller s seller ↔
      ∃ offer, s.offer.lookup id = some offer ∧ offer.active = true ∧ offer.seller = seller := by
  unfold getActiveOffersBySeller
  rw [List.mem_filter, numbered.mem_index]
  constructor
  · intro listed
    rcases listed with ⟨⟨offer, stored, its⟩, isOpen⟩
    rw [stored, Option.any_some] at isOpen
    exact ⟨offer, stored, isOpen, its⟩
  · intro sold
    rcases sold with ⟨offer, stored, isOpen, its⟩
    refine ⟨⟨offer, stored, its⟩, ?_⟩
    rw [stored, Option.any_some]
    exact isOpen

end Views

/-- The list of the open offers of a seller and `get_offer` agree on an offer, in every run and
at every ledger time, if and only if it is no open offer of the seller that has expired. -/
theorem views_agree_iff (self : Address) (inputs : List (ScriptedCall Call)) (env : Env)
    (seller : Address) (id : Nat) :
    let s := (peer self).alone.state inputs
    ((id ∈ getActiveOffersBySeller s seller ↔
      ∃ offer, getOffer env s id = .ok offer ∧ offer.active = true ∧ offer.seller = seller) ↔
    ¬ ∃ offer, s.offer.lookup id = some offer ∧ offer.active = true ∧ offer.seller = seller ∧
      offer.Expired env.timestamp) := by
  intro s
  have numbered : s.OffersNumbered := offersNumbered inputs
  simp only [numbered.mem_getActiveOffersBySeller, getOffer_eq_ok]
  constructor
  · intro agree late
    rcases late with ⟨offer, stored, isOpen, its, expired⟩
    rcases agree.mp ⟨offer, stored, isOpen, its⟩ with ⟨same, ⟨stored', valid⟩, -⟩
    rw [Option.some.inj (stored.symm.trans stored')] at expired
    exact valid expired
  · intro current
    constructor
    · intro listed
      rcases listed with ⟨offer, stored, isOpen, its⟩
      refine ⟨offer, ⟨stored, ?_⟩, isOpen, its⟩
      exact fun expired => current ⟨offer, stored, isOpen, its, expired⟩
    · intro read
      rcases read with ⟨offer, ⟨stored, -⟩, isOpen, its⟩
      exact ⟨offer, stored, isOpen, its⟩

namespace Sample

/-- A registry that shows an active credit of the issuer. -/
def showing : Registry.Script := fun _ _ request =>
  match request with
  | .getCredit _ => some (.credit { shown with owner := Registry.Sample.issuer })
  | .getNonce _ => some (.nonce 0)
  | .transferCredit _ _ _ _ => some .unit
  | _ => none

/-- The issuer makes an offer for a day. -/
def dayOffer : List (ScriptedCall Call) :=
  [⟨⟨1735689600, fun a => a == Registry.Sample.issuer⟩,
    .createOffer Registry.Sample.issuer (Registry.Sample.credit 0) 10000000 500000
      network.registryId (some 1735776000) 0, showing⟩]

end Sample

/-- Two days later the offer is still listed, but cannot be read. -/
theorem dayOffer_views_disagree :
    ¬ (0 ∈ getActiveOffersBySeller ((peer Sample.network.self).alone.state Sample.dayOffer)
        Registry.Sample.issuer ↔
      ∃ offer, getOffer ⟨1735862400, fun _ => false⟩
          ((peer Sample.network.self).alone.state Sample.dayOffer) 0 = .ok offer ∧
        offer.active = true ∧ offer.seller = Registry.Sample.issuer) := by
  intro agree
  have listed : 0 ∈ getActiveOffersBySeller
      ((peer Sample.network.self).alone.state Sample.dayOffer) Registry.Sample.issuer := by
    decide
  rcases agree.mp listed with ⟨offer, read, -⟩
  have expired : getOffer ⟨1735862400, fun _ => false⟩
      ((peer Sample.network.self).alone.state Sample.dayOffer) 0 = .error (.error .offerExpired) :=
    rfl
  rw [expired] at read
  cases read

end CarbonChain.Marketplace
