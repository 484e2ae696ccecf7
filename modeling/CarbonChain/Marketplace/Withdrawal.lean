import CarbonChain.Marketplace.Release

/-!
# When an offer can be cancelled

As long as every call names the one registry, nothing but a pause, an upgrade or an
exhausted nonce keeps a seller from cancelling an open offer
(`contracts/marketplace/src/lib.rs:273-328`): neither its expiry nor what has become of the
credit in the meantime, which may be disputed, flagged, expired or retired.
-/

namespace CarbonChain.Marketplace

open Registry (Network ForeignReply World respond)

/-- What a cancellation by `seller` needs of the two contracts, of its authorisation and of its
nonce. -/
structure Cancellable (net : Network) (env : Env) (s : Joint) (seller : Address) (nonce : Nat) :
    Prop where
  current : s.peer.wasm = none
  unpaused : s.peer.paused = false
  authorised : env.auth seller = true
  numbered : s.peer.getNonce seller = nonce
  room : nonce + 1 < 2 ^ 64
  registryCurrent : s.registry.roles.wasm = none
  registryUnpaused : s.registry.roles.paused = false
  registryRoom : s.registry.getNonce net.self + 1 < 2 ^ 64

variable {net : Network}

/-! ## The two requests of a cancellation -/

/-- The registry tells a nonce as long as it runs its own code. -/
theorem respond_getNonce_eq_ok {env : Env} {s : Registry.State} {a : Address}
    {result : Registry.Answer × Registry.State} :
    respond env s (.getNonce a) = .ok result ↔
      s.roles.wasm = none ∧ result = (.nonce (s.getNonce a), s) := by
  simp only [respond, bind_eq_ok, panicIf_eq_ok, pure_eq_ok, exists_const,
    Option.isSome_eq_false_iff, Bool.not_eq_true, Option.isNone_iff_eq_none]
  rw [@eq_comm _ result]

/-- The registry moves a credit that its owner sends with the current nonce, unless it is paused
or replaced. -/
theorem respond_transferCredit_succeeds {env : Env} {s : Registry.State}
    {sender recipient : Address} {id : BytesN32} (authorised : env.auth sender = true)
    (owned : s.ownerOf id = some sender) :
    (∃ registry, respond env s (.transferCredit sender recipient id (s.getNonce sender)) =
        .ok (.unit, registry)) ↔
      s.roles.wasm = none ∧ s.roles.paused = false ∧ s.getNonce sender + 1 < 2 ^ 64 := by
  obtain ⟨credit, stored, owner⟩ := Option.map_eq_some_iff.mp owned
  simp only [respond, Registry.transferCredit, Registry.State.consumeNonce, bind_eq_ok,
    panicIf_eq_ok, rejectIf_eq_ok, Env.requireAuth_eq_ok, consumeNonce_eq_ok, okOr_eq_ok,
    pure_eq_ok, exists_const, Prod.mk.injEq, true_and, Bool.not_eq_true,
    Option.isSome_eq_false_iff, Option.isNone_iff_eq_none]
  constructor
  · rintro ⟨_, current, _, ⟨unpaused, -, _, ⟨-, room, -⟩, -⟩, -⟩
    exact ⟨current, unpaused, room⟩
  · rintro ⟨current, unpaused, room⟩
    exact ⟨_, current, _, ⟨unpaused, authorised, _, ⟨rfl, room, rfl⟩, credit, stored,
      by simp [owner], rfl⟩, rfl⟩

/-- What `cancel_offer` checks of the marketplace, and the requests it makes. -/
theorem cancelOffer_succeeds {W : Type} {invoke : Registry.Client W} {self : Address} {env : Env}
    {s : State} {w : W} {seller : Address} {offerId : Nat} {registryId : Address} {nonce : Nat}
    {offer : Offer} (stored : s.offer.lookup offerId = some offer) (sold : offer.seller = seller)
    (isOpen : offer.active = true) :
    (∃ result, exec invoke self env s w (.cancelOffer seller offerId registryId nonce) =
        .ok result) ↔
      s.wasm = none ∧ s.paused = false ∧ env.auth seller = true ∧ s.getNonce seller = nonce ∧
        nonce + 1 < 2 ^ 64 ∧ ∃ registryNonce w₁ w₂,
          invoke w registryId (.getNonce self) = some (.nonce registryNonce, w₁) ∧
          invoke w₁ registryId (.transferCredit self seller offer.creditId registryNonce) =
            some (.unit, w₂) := by
  constructor
  · rintro ⟨⟨ret, s', w'⟩, success⟩
    obtain ⟨current, dispatched⟩ := exec_eq_ok.mp success
    simp only [dispatch, map_eq_ok, cancelOffer, State.consumeNonce, bind_eq_ok, rejectIf_eq_ok,
      exists_const, Env.requireAuth_eq_ok, Prod.exists, pure_eq_ok, Prod.mk.injEq, okOr_eq_ok,
      consumeNonce_eq_ok, Registry.Client.getNonce_eq_ok, Registry.Client.transferCredit_eq_ok,
      Bool.not_eq_true] at dispatched
    obtain ⟨_, _, ⟨unpaused, authorised, _, ⟨numbered, room, -⟩, found, there, -, -, nonce', w₁,
      told, w₂, moved, -, -⟩, -⟩ := dispatched
    obtain rfl := Option.some.inj (stored.symm.trans there)
    have numbered : s.getNonce seller = nonce := numbered
    refine ⟨current, unpaused, authorised, numbered, ?_, nonce', w₁, w₂, told, moved⟩
    rw [← numbered]
    exact room
  · rintro ⟨current, unpaused, authorised, rfl, room, registryNonce, w₁, w₂, told, moved⟩
    have returned : cancelOffer invoke self env s w seller offerId registryId
        (s.getNonce seller) = .ok ({ s with
          nonce := s.nonce.insert seller (s.getNonce seller + 1)
          offer := s.offer.insert offerId { offer with active := false }
          escrowedAmount := s.escrowedAmount.erase offerId }, w₂) := by
      simp only [cancelOffer, State.consumeNonce, bind_eq_ok, rejectIf_eq_ok, exists_const,
        Env.requireAuth_eq_ok, Prod.exists, pure_eq_ok, okOr_eq_ok, consumeNonce_eq_ok,
        Registry.Client.getNonce_eq_ok, Registry.Client.transferCredit_eq_ok, Bool.not_eq_true]
      exact ⟨unpaused, authorised, _, ⟨rfl, room, rfl⟩, offer, stored, by simp [sold],
        by simp [isOpen], registryNonce, w₁, told, w₂, moved, rfl⟩
    exact ⟨_, exec_eq_ok.mpr ⟨current, map_eq_ok.mpr ⟨_, returned, rfl⟩⟩⟩

/-! ## On the network -/

/-- The invocations that a cancellation of a held credit makes succeed unless the registry is
paused, replaced or out of nonces. -/
theorem client_returns {env : Env} {foreign : Nat → ForeignReply} {w : World} {seller : Address}
    {id : BytesN32} (apart : net.registryId ≠ net.self)
    (held : w.registry.ownerOf id = some net.self) :
    (∃ registryNonce w₁ w₂,
      net.client env foreign w net.registryId (.getNonce net.self) =
        some (.nonce registryNonce, w₁) ∧
      net.client env foreign w₁ net.registryId
        (.transferCredit net.self seller id registryNonce) = some (.unit, w₂)) ↔
      w.registry.roles.wasm = none ∧ w.registry.roles.paused = false ∧
        w.registry.getNonce net.self + 1 < 2 ^ 64 := by
  have its : (env.calledBy net.self).auth net.self = true :=
    (Env.calledBy_auth env net.self net.self).mpr (.inr rfl)
  rw [← @respond_transferCredit_succeeds _ _ net.self seller _ its held]
  constructor
  · rintro ⟨registryNonce, w₁, w₂, told, moved⟩
    obtain ⟨-, told⟩ := respond_getNonce_eq_ok.mp (Network.client_registry told)
    obtain ⟨told, same⟩ := Prod.mk.inj told
    obtain rfl := Registry.Answer.nonce.inj told
    have moved := Network.client_registry moved
    rw [same] at moved
    exact ⟨w₂.registry, moved⟩
  · rintro ⟨registry, moved⟩
    have current := ((respond_transferCredit_succeeds its held).mp ⟨registry, moved⟩).1
    have told : respond (env.calledBy net.self) w.registry (.getNonce net.self) =
        .ok (.nonce (w.registry.getNonce net.self), w.registry) :=
      respond_getNonce_eq_ok.mpr ⟨current, rfl⟩
    exact ⟨_, _, _, Network.client_of_respond apart told, Network.client_of_respond apart moved⟩

/-- The registry of an offer is another contract than the marketplace. -/
theorem apart_of_deposit {event : JointEvent} (commits : (system net).Commits event)
    (deposited : deposit net event ≠ none) : net.registryId ≠ net.self := by
  obtain ⟨⟨id, seller⟩, made⟩ := Option.ne_none_iff_exists'.mp deposited
  obtain ⟨env, foreign, priceXlm, tonnes, expiresAt, nonce, named⟩ := deposit_eq_some.mp made
  obtain ⟨ret, u, success, -⟩ := Network.commits_peer commits named
  obtain ⟨-, credit, w₁, registryNonce, w₂, shown, -⟩ := createOffer_ok success
  exact Network.apart_of_client shown

/-- When every call names the one registry, an open offer is cancelled by its seller exactly
when neither contract is paused or replaced and the nonces allow it; then the seller owns the
credit. -/
theorem cancel_succeeds_iff (inj : Function.Injective net.sha256)
    (inputs : List (Network.Input Call))
    (genuine : ∀ event ∈ (system net).log inputs, Genuine net event) {id : Nat} {offer : Offer}
    (stored : ((system net).state inputs).peer.offer.lookup id = some offer)
    (isOpen : offer.active = true) (env : Env) (foreign : Nat → ForeignReply) (nonce : Nat) :
    ((∃ result, (system net).exec ((system net).state inputs) (.peer env
        (.cancelOffer offer.seller id net.registryId nonce) foreign) = .ok result) ↔
      Cancellable net env ((system net).state inputs) offer.seller nonce) ∧
    ∀ output s', (system net).exec ((system net).state inputs) (.peer env
        (.cancelOffer offer.seller id net.registryId nonce) foreign) = .ok (output, s') →
      s'.registry.ownerOf offer.creditId = some offer.seller := by
  have holding := (system net).run_induct_of (fun _ event => Genuine net event) (Holding net)
    holding_init (fun log event holding genuine commits => holding.step inj genuine commits)
    inputs (Machine.admits_forall.mpr genuine)
  have held : ((system net).state inputs).registry.ownerOf offer.creditId = some net.self :=
    holding.custody.sound.held _ _ _ (holding.receipt stored isOpen)
  have outside := holding.outside id offer stored
  have apart : net.registryId ≠ net.self := by
    obtain ⟨event, logged, deposited, -⟩ := holding.made id offer stored
    have commits := ((system net).invariant_pre (fun _ => True) trivial
      (fun _ _ _ => trivial) logged).2
    exact apart_of_deposit commits deposited
  refine ⟨?_, ?_⟩
  · refine Network.exec_peer_succeeds.trans ?_
    refine Iff.trans (cancelOffer_succeeds stored rfl isOpen) ?_
    rw [client_returns apart held, Env.external_auth]
    constructor
    · rintro ⟨current, unpaused, ⟨authorised, -⟩, numbered, room, registryCurrent,
        registryUnpaused, registryRoom⟩
      exact ⟨current, unpaused, authorised, numbered, room, registryCurrent, registryUnpaused,
        registryRoom⟩
    · intro c
      exact ⟨c.current, c.unpaused, ⟨c.authorised, outside⟩, c.numbered, c.room,
        c.registryCurrent, c.registryUnpaused, c.registryRoom⟩
  · intro output s' success
    obtain ⟨value, w, success, same⟩ := Network.exec_peer success
    obtain ⟨found, there, -, -, -, gives⟩ := cancelOffer_gives success
    obtain rfl := Option.some.inj (stored.symm.trans there)
    rw [← same, gives, if_pos rfl]

set_option maxRecDepth 100000 in
/-- The issuer gets the offered credit back. -/
theorem offered_cancellable : ∃ output s',
    (system Sample.network).exec ((system Sample.network).state Sample.offered)
      (Sample.cancel Registry.Sample.issuer 0 1) = .ok (output, s') ∧
    s'.registry.ownerOf (Registry.Sample.credit 0) = some Registry.Sample.issuer := by
  obtain ⟨offer, stored, isOpen, credit, sold⟩ : ∃ offer,
      ((system Sample.network).state Sample.offered).peer.offer.lookup 0 = some offer ∧
        offer.active = true ∧ offer.creditId = Registry.Sample.credit 0 ∧
        offer.seller = Registry.Sample.issuer :=
    ⟨_, rfl, rfl, rfl, rfl⟩
  have cancellable : Cancellable Sample.network
      ⟨1735689600, fun a => a == Registry.Sample.issuer⟩
      ((system Sample.network).state Sample.offered) offer.seller 1 := by
    rw [sold]
    exact ⟨rfl, rfl, rfl, rfl, by decide, rfl, rfl, by decide⟩
  obtain ⟨succeeds, gives⟩ := cancel_succeeds_iff BytesN32.mk_injective Sample.offered
    (by decide) stored isOpen ⟨1735689600, fun a => a == Registry.Sample.issuer⟩
    Sample.obliging 1
  obtain ⟨⟨output, s'⟩, success⟩ := succeeds.mpr cancellable
  have owned := gives output s' success
  rw [sold] at success owned
  rw [credit] at owned
  exact ⟨output, s', success, owned⟩

end CarbonChain.Marketplace
