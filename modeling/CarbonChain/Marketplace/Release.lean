import CarbonChain.Marketplace.Returns

/-!
# What closes an offer

With the genuine registry in every call, every open offer is a receipt of the escrow: its
credit is with the marketplace, and no other open offer names it. `cancel_offer`
(`contracts/marketplace/src/lib.rs:273-328`) closes the offer, gives the credit back and
drops the escrowed amount. `cleanup_expired_offers` (`:383-399`) only closes the offer, and
a closed offer cannot be cancelled.
-/

namespace CarbonChain.Marketplace

open Registry (Network ForeignReply World)

/-- The event is not a call of the marketplace that names another registry than `net`'s. -/
def Genuine (net : Network) (event : JointEvent) : Prop :=
  ∀ registryId ∈ event.input.call.bind Call.registryId, registryId = net.registryId

instance (net : Network) (event : JointEvent) : Decidable (Genuine net event) :=
  inferInstanceAs (Decidable (∀ registryId ∈ event.input.call.bind Call.registryId, _ = _))

theorem Genuine.registryId_eq {net : Network} {event : JointEvent} (genuine : Genuine net event)
    {env : Env} {call : Call} {foreign : Nat → ForeignReply}
    (named : event.input = .peer env call foreign) {registryId : Address}
    (names : call.registryId = some registryId) : registryId = net.registryId := by
  apply genuine registryId
  rw [named]
  exact names

/-! ## Expiry -/

/-- The offer has expired at the ledger time `now`. -/
def Offer.Expired (now : Nat) (offer : Offer) : Prop := ∃ t ∈ offer.expiresAt, t < now

instance (now : Nat) (offer : Offer) : Decidable (offer.Expired now) :=
  inferInstanceAs (Decidable (∃ t ∈ offer.expiresAt, t < now))

/-- The offer after the loop of `cleanup_expired_offers` came by. -/
def Offer.cleaned (now : Nat) (offer : Offer) : Offer :=
  if offer.Expired now then { offer with active := false } else offer

theorem Offer.close_closed {offer : Offer} (closed : offer.active ≠ true) :
    { offer with active := false } = offer := by
  cases offer
  simp_all

theorem Offer.cleaned_cleaned (now : Nat) (offer : Offer) :
    (offer.cleaned now).cleaned now = offer.cleaned now := by
  unfold cleaned
  by_cases expired : offer.Expired now
  · have still : Offer.Expired now { offer with active := false } := expired
    simp [expired, still]
  · simp [expired]

theorem lookup_cleanupOne (now : Nat) (offers : Store Nat Offer) (i id : Nat) :
    (cleanupOne now offers i).lookup id =
      if id = i then (offers.lookup id).map (Offer.cleaned now) else offers.lookup id := by
  by_cases same : id = i
  · subst same
    rw [if_pos rfl]
    unfold cleanupOne
    cases stored : offers.lookup id with
    | none => simp [stored]
    | some offer =>
        cases expiry : offer.expiresAt with
        | none => simp [stored, expiry, Offer.cleaned, Offer.Expired]
        | some t =>
            by_cases closes : now > t ∧ offer.active = true
            · simp [expiry, closes, Offer.cleaned, Offer.Expired]
            · have kept : offer.cleaned now = offer := by
                unfold Offer.cleaned
                split
                · next expired =>
                    obtain ⟨t', same, late⟩ := expired
                    rw [expiry, Option.mem_some_iff] at same
                    subst same
                    exact Offer.close_closed fun isOpen => closes ⟨late, isOpen⟩
                · rfl
              simp [expiry, closes, stored, kept]
  · rw [if_neg same]
    unfold cleanupOne
    split
    · rfl
    · split
      · rfl
      · split
        · rw [Store.lookup_insert_ite, if_neg same]
        · rfl

/-- The loop closes the expired offers among those it goes through. -/
theorem lookup_cleanup (now : Nat) (ids : List Nat) (offers : Store Nat Offer) (id : Nat) :
    (ids.foldl (cleanupOne now) offers).lookup id =
      if id ∈ ids then (offers.lookup id).map (Offer.cleaned now) else offers.lookup id := by
  induction ids generalizing offers with
  | nil => rfl
  | cons i rest ih =>
      rw [List.foldl_cons, ih, lookup_cleanupOne]
      by_cases same : id = i
      · subst same
        by_cases listed : id ∈ rest
        · simp [listed, Function.comp_def, Offer.cleaned_cleaned]
        · simp [listed]
      · simp [same]

/-! ## What a call does to an offer -/

/-- What a call can do to the offer stored under an id. -/
inductive Fate (env : Env) (call : Call) (id : Nat) (offer : Offer) : Offer → Prop where
  | kept : Fate env call id offer offer
  | cancelled (seller registryId : Address) (nonce : Nat)
      (named : call = .cancelOffer seller id registryId nonce) :
      Fate env call id offer { offer with active := false }
  | expired (admin : Address) (named : call = .cleanupExpiredOffers admin)
      (expired : offer.Expired env.timestamp) :
      Fate env call id offer { offer with active := false }

section Calls

variable {W : Type} {invoke : Registry.Client W} {self : Address} {env : Env} {s s' : State}
  {w w' : W}

theorem cleanup_ok {admin : Address} {ret : Ret}
    (h : exec invoke self env s w (.cleanupExpiredOffers admin) = .ok (ret, s', w')) (id : Nat) :
    s'.offer.lookup id =
      if id < s.offerCount then (s.offer.lookup id).map (Offer.cleaned env.timestamp)
      else s.offer.lookup id := by
  have dispatched := (exec_eq_ok.mp h).2
  simp only [dispatch, map_eq_ok, cleanupExpiredOffers, bind_eq_ok, pure_eq_ok,
    Prod.mk.injEq] at dispatched
  obtain ⟨_, ⟨_, -, rfl⟩, -, rfl, -⟩ := dispatched
  have looped := lookup_cleanup env.timestamp (List.range s.offerCount) s.offer id
  simp only [List.mem_range] at looped
  exact looped

/-- A cancellation drops the escrowed amount. -/
theorem cancelOffer_erases {seller : Address} {offerId : Nat} {registryId : Address} {nonce : Nat}
    {ret : Ret} (h : exec invoke self env s w (.cancelOffer seller offerId registryId nonce) =
      .ok (ret, s', w')) : s'.escrowedAmount.lookup offerId = none := by
  have dispatched := (exec_eq_ok.mp h).2
  simp only [dispatch, map_eq_ok, cancelOffer, bind_eq_ok, Prod.exists, pure_eq_ok,
    Prod.mk.injEq] at dispatched
  obtain ⟨_, _, ⟨-, -, -, -, _, -, offer, -, -, -, -, -, nonce', w₁, -, _, -, rfl, -⟩, -, rfl, -⟩ :=
    dispatched
  simp

/-- A stored offer stays stored, and is closed by its cancellation or by a cleanup after it
has expired. -/
theorem exec_fate {call : Call} {ret : Ret}
    (h : exec invoke self env s w call = .ok (ret, s', w')) {id : Nat} {offer : Offer}
    (bounded : id < s.offerCount) (stored : s.offer.lookup id = some offer) :
    ∃ offer', s'.offer.lookup id = some offer' ∧ Fate env call id offer offer' := by
  cases call with
  | createOffer seller creditId priceXlm tonnes registryId expiresAt nonce =>
      have offers := exec_offers h
      simp only [Call.offer] at offers
      refine ⟨offer, ?_, .kept⟩
      rw [offers.1, Store.lookup_insert_ite, if_neg (by omega)]
      exact stored
  | cancelOffer seller offerId registryId nonce =>
      obtain ⟨-, found, -, -, there, -, -, closed, -⟩ := cancelOffer_ok h
      rw [closed, Store.lookup_insert_ite]
      by_cases same : id = offerId
      · subst same
        obtain rfl := Option.some.inj (there.symm.trans stored)
        rw [if_pos rfl]
        exact ⟨_, rfl, .cancelled seller registryId nonce rfl⟩
      · rw [if_neg same]
        exact ⟨offer, stored, .kept⟩
  | cleanupExpiredOffers admin =>
      rw [cleanup_ok h, if_pos bounded, stored, Option.map_some]
      refine ⟨_, rfl, ?_⟩
      unfold Offer.cleaned
      split
      · next expired => exact .expired admin rfl expired
      · exact .kept
  | _ =>
      have dispatched := (exec_eq_ok.mp h).2
      simp only [dispatch, map_eq_ok, initializeContract, pause, unpause, setPaused,
        updateMinPrice, upgrade, bind_eq_ok, pure_eq_ok, Prod.mk.injEq] at dispatched
      have same : s'.offer = s.offer := by grind
      rw [same]
      exact ⟨offer, stored, .kept⟩

end Calls

/-! ## Open offers -/

/-- Custody, with every offer made in the registry by a seller other than the marketplace. -/
structure Holding (net : Network) (log : List JointEvent) (s : Joint) : Prop where
  custody : Custody net log s
  made : ∀ id offer, s.peer.offer.lookup id = some offer → MadeIn net log id
  outside : ∀ id offer, s.peer.offer.lookup id = some offer → offer.seller ≠ net.self

variable {net : Network} {log : List JointEvent} {event : JointEvent}

/-- An offer that is cancelled was made in the registry, as all are. -/
theorem Holding.matched (holding : Holding net log event.pre)
    (commits : (system net).Commits event) : Matched net log event := by
  intro offerId withdrawn
  obtain ⟨env, foreign, seller, nonce, named⟩ := withdrawal_eq_some withdrawn
  obtain ⟨ret, u, success, -⟩ := Network.commits_peer commits named
  obtain ⟨-, offer, -, -, stored, -⟩ := cancelOffer_ok success
  exact holding.made offerId offer stored

theorem Holding.step (inj : Function.Injective net.sha256) (holding : Holding net log event.pre)
    (genuine : Genuine net event) (commits : (system net).Commits event) :
    Holding net (log ++ [event]) event.post := by
  have custody := holding.custody.step inj (holding.matched commits) commits
  cases named : event.input with
  | registry invocation =>
      obtain ⟨same, -⟩ := Network.commits_registry commits named
      refine ⟨custody, ?_, ?_⟩
      · rw [same]
        exact fun id offer stored => (holding.made id offer stored).snoc
      · rw [same]
        exact holding.outside
  | peer env call foreign =>
      obtain ⟨ret, u, success, -⟩ := Network.commits_peer commits named
      have both : ∀ id offer, event.post.peer.offer.lookup id = some offer →
          MadeIn net (log ++ [event]) id ∧ offer.seller ≠ net.self := by
        have offers := exec_offers success
        intro id offer stored
        cases call with
        | createOffer seller creditId priceXlm tonnes registryId expiresAt nonce =>
            simp only [Call.offer] at offers
            rw [offers.1, Store.lookup_insert_ite] at stored
            by_cases new : id = event.pre.peer.offerCount
            · obtain rfl := genuine.registryId_eq named rfl
              rw [if_pos new] at stored
              obtain rfl := Option.some.inj stored
              have deposited : deposit net event = some (creditId, seller) :=
                deposit_eq_some.mpr ⟨env, foreign, priceXlm, tonnes, expiresAt, nonce, named⟩
              refine ⟨⟨event, by simp, ?_, new.symm⟩, ?_⟩
              · rw [deposited]
                exact Option.some_ne_none _
              · exact ((Env.external_auth env net.self seller).mp (createOffer_takes success).1).2
            · rw [if_neg new] at stored
              exact ⟨(holding.made id offer stored).snoc, holding.outside id offer stored⟩
        | _ =>
            simp only [Call.offer] at offers
            obtain ⟨earlier, there, same⟩ := offers.1 id offer stored
            refine ⟨(holding.made id earlier there).snoc, ?_⟩
            have outside := holding.outside id earlier there
            rcases same with rfl | rfl
            · exact outside
            · exact outside
      exact ⟨custody, fun id offer stored => (both id offer stored).1,
        fun id offer stored => (both id offer stored).2⟩

theorem holding_init : Holding net [] (system net).init := by
  refine ⟨custody_init, ?_, ?_⟩
  · intro id offer stored
    cases stored
  · intro id offer stored
    cases stored

/-- An open offer is a receipt of the escrow. -/
theorem Holding.receipt {s : Joint} (holding : Holding net log s) {id : Nat} {offer : Offer}
    (stored : s.peer.offer.lookup id = some offer) (isOpen : offer.active = true) :
    (escrow net log s).receipt id offer.creditId offer.seller :=
  ⟨holding.made id offer stored, offer, stored, isOpen, rfl, rfl⟩

/-- Escrow soundness: when every call names the one registry, the credit of every open offer
is owned by the marketplace, and no two open offers name one credit. -/
theorem open_offers_held (inj : Function.Injective net.sha256)
    (inputs : List (Network.Input Call))
    (genuine : ∀ event ∈ (system net).log inputs, Genuine net event) :
    (∀ id offer, ((system net).state inputs).peer.offer.lookup id = some offer →
      offer.active = true →
        ((system net).state inputs).registry.ownerOf offer.creditId = some net.self) ∧
    ∀ id id' offer offer', ((system net).state inputs).peer.offer.lookup id = some offer →
      ((system net).state inputs).peer.offer.lookup id' = some offer' →
      offer.active = true → offer'.active = true → offer.creditId = offer'.creditId →
        id = id' := by
  have holding := (system net).run_induct_of (fun _ event => Genuine net event) (Holding net)
    holding_init (fun log event holding genuine commits => holding.step inj genuine commits)
    inputs (Machine.admits_forall.mpr genuine)
  refine ⟨?_, ?_⟩
  · intro id offer stored isOpen
    exact holding.custody.sound.held _ _ _ (holding.receipt stored isOpen)
  · intro id id' offer offer' stored stored' isOpen isOpen' same
    have receipt := holding.receipt stored isOpen
    rw [same] at receipt
    exact holding.custody.sound.unique _ _ _ _ _ receipt (holding.receipt stored' isOpen')

set_option maxRecDepth 100000 in
theorem offered_held :
    ((system Sample.network).state Sample.offered).registry.ownerOf (Registry.Sample.credit 0) =
      some Sample.network.self := by
  obtain ⟨offer, stored, isOpen, credit⟩ : ∃ offer,
      ((system Sample.network).state Sample.offered).peer.offer.lookup 0 = some offer ∧
        offer.active = true ∧ offer.creditId = Registry.Sample.credit 0 :=
    ⟨_, rfl, rfl, rfl⟩
  rw [← credit]
  exact (open_offers_held BytesN32.mk_injective Sample.offered (by decide)).1 0 offer stored isOpen

/-! ## Released credits -/

/-- Every offer that the event closes is released: its credit is with its seller afterwards,
and no amount is in escrow for it. -/
def Releases (event : JointEvent) : Prop :=
  ∀ id offer offer', event.pre.peer.offer.lookup id = some offer → offer.active = true →
    event.post.peer.offer.lookup id = some offer' → offer'.active = false →
      event.post.registry.ownerOf offer.creditId = some offer.seller ∧
        event.post.peer.escrowedAmount.lookup id = none

/-- Every credit that was deposited and is with the marketplace ever since is in an open offer
of its depositor. -/
def Recoverable (net : Network) (log : List JointEvent) (s : Joint) : Prop :=
  ∀ before first middle, log = before ++ first :: middle → ∀ creditId seller,
    deposit net first = some (creditId, seller) →
    (∀ e ∈ middle, e.post.registry.ownerOf creditId = some net.self) →
    ∃ id offer, s.peer.offer.lookup id = some offer ∧ offer.active = true ∧
      offer.creditId = creditId ∧ offer.seller = seller

/-- Everything closed was released, and everything held can be recovered. -/
def Released (net : Network) (log : List JointEvent) (s : Joint) : Prop :=
  (∀ event ∈ log, Releases event) ∧ Recoverable net log s

/-- The ledger time of a call of `cleanup_expired_offers`. -/
def cleanupTime : Network.Input Call → Option Nat
  | .peer env (.cleanupExpiredOffers _) _ => some env.timestamp
  | _ => none

/-- A cleanup finds no open offer that has expired. -/
def CleansNothing (event : JointEvent) : Prop :=
  ∀ now ∈ cleanupTime event.input, ∀ id offer, event.pre.peer.offer.lookup id = some offer →
    offer.active = true → ¬ offer.Expired now

theorem Holding.stays_stored (holding : Holding net log event.pre)
    (commits : (system net).Commits event) {id : Nat} {offer : Offer}
    (stored : event.pre.peer.offer.lookup id = some offer) :
    ∃ offer', event.post.peer.offer.lookup id = some offer' ∧
      (offer' = offer ∨ offer' = { offer with active := false }) := by
  cases named : event.input with
  | registry invocation =>
      obtain ⟨same, -⟩ := Network.commits_registry commits named
      rw [same]
      exact ⟨offer, stored, .inl rfl⟩
  | peer env call foreign =>
      obtain ⟨ret, u, success, -⟩ := Network.commits_peer commits named
      obtain ⟨offer', there, fate⟩ :=
        exec_fate success (holding.custody.stored id offer stored) stored
      refine ⟨offer', there, ?_⟩
      cases fate with
      | kept => exact .inl rfl
      | cancelled seller registryId nonce cancels => exact .inr rfl
      | expired admin cleans expired => exact .inr rfl

/-- An offer that a cleanup closes is not released: its credit stays. -/
theorem Holding.cleansNothing (holding : Holding net log event.pre)
    (commits : (system net).Commits event) (releases : Releases event) : CleansNothing event := by
  intro now cleaning id offer stored isOpen expired
  cases named : event.input with
  | registry invocation =>
      rw [named] at cleaning
      cases cleaning
  | peer env call foreign =>
      rw [named] at cleaning
      cases call with
      | cleanupExpiredOffers admin =>
          obtain rfl := Option.mem_some_iff.mp cleaning
          obtain ⟨ret, u, success, reached⟩ := Network.commits_peer commits named
          have closed : event.post.peer.offer.lookup id =
              some { offer with active := false } := by
            rw [cleanup_ok success, if_pos (holding.custody.stored id offer stored), stored,
              Option.map_some, Env.external_timestamp, Offer.cleaned, if_pos expired]
          have held : event.pre.registry.ownerOf offer.creditId = some net.self :=
            holding.custody.sound.held _ _ _ (holding.receipt stored isOpen)
          have released := (releases id offer _ stored isOpen closed rfl).1
          rw [exec_quiet rfl success] at reached
          rw [← reached, held] at released
          exact holding.outside id offer stored (Option.some.inj released).symm
      | _ => cases cleaning

/-- An offer that is closed otherwise is cancelled, and so released. -/
theorem Holding.releases (holding : Holding net log event.pre) (genuine : Genuine net event)
    (cleansNothing : CleansNothing event) (commits : (system net).Commits event) :
    Releases event := by
  intro id offer offer' stored isOpen stored' closed
  cases named : event.input with
  | registry invocation =>
      obtain ⟨same, -⟩ := Network.commits_registry commits named
      rw [same, stored] at stored'
      rw [← Option.some.inj stored', isOpen] at closed
      cases closed
  | peer env call foreign =>
      obtain ⟨ret, u, success, reached⟩ := Network.commits_peer commits named
      obtain ⟨after, there, fate⟩ :=
        exec_fate success (holding.custody.stored id offer stored) stored
      obtain rfl := Option.some.inj (there.symm.trans stored')
      cases fate with
      | kept =>
          rw [isOpen] at closed
          cases closed
      | cancelled seller registryId nonce cancels =>
          subst cancels
          obtain rfl := genuine.registryId_eq named rfl
          obtain ⟨found, its, -, sold, -, owners⟩ := cancelOffer_gives success
          obtain rfl := Option.some.inj (its.symm.trans stored)
          rw [← reached, owners, if_pos rfl, sold]
          exact ⟨rfl, cancelOffer_erases success⟩
      | expired admin cleans expired =>
          subst cleans
          have open_ := cleansNothing env.timestamp (by rw [named]; rfl) id offer stored isOpen
          exact absurd expired open_

/-- The offer of a deposit stays open as long as the marketplace holds the credit, if what is
closed is released. -/
theorem Holding.recoverable (holding : Holding net log event.pre)
    (recoverable : Recoverable net log event.pre) (releases : Releases event)
    (commits : (system net).Commits event) : Recoverable net (log ++ [event]) event.post := by
  intro before first middle split creditId seller deposited held
  rcases List.eq_nil_or_concat middle with rfl | ⟨earlier, last, rfl⟩
  · obtain ⟨-, single⟩ := List.append_inj' split rfl
    obtain rfl := (List.cons.inj single).1
    obtain ⟨env, foreign, priceXlm, tonnes, expiresAt, nonce, named⟩ :=
      deposit_eq_some.mp deposited
    obtain ⟨ret, u, success, -⟩ := Network.commits_peer commits named
    have offers := exec_offers success
    simp only [Call.offer] at offers
    have stored := congrArg (fun store => store.lookup event.pre.peer.offerCount) offers.1
    simp only [Store.lookup_insert_ite, if_true] at stored
    exact ⟨_, _, stored, rfl, rfl, rfl⟩
  · rw [List.concat_eq_append, ← List.cons_append, ← List.append_assoc] at split
    obtain ⟨shorter, single⟩ := List.append_inj' split rfl
    obtain rfl := (List.cons.inj single).1
    rw [List.concat_eq_append] at held
    obtain ⟨id, offer, stored, isOpen, rfl, rfl⟩ := recoverable before first earlier shorter
      creditId seller deposited fun e listed => held e (List.mem_append_left _ listed)
    have still : event.post.registry.ownerOf offer.creditId = some net.self :=
      held event (by simp)
    obtain ⟨offer', stored', same⟩ := holding.stays_stored commits stored
    rcases same with rfl | rfl
    · exact ⟨id, offer', stored', isOpen, rfl, rfl⟩
    · have released := (releases id offer _ stored isOpen stored' rfl).1
      rw [still] at released
      exact absurd (Option.some.inj released).symm (holding.outside id offer stored)

/-- What a run keeps while its cleanups find nothing to close. -/
structure ReleaseInv (net : Network) (log : List JointEvent) (s : Joint) : Prop where
  holding : Holding net log s
  released : Released net log s

theorem ReleaseInv.released_step (inv : ReleaseInv net log event.pre)
    (genuine : Genuine net event) (cleansNothing : CleansNothing event)
    (commits : (system net).Commits event) : Released net (log ++ [event]) event.post := by
  have releases := inv.holding.releases genuine cleansNothing commits
  refine ⟨?_, inv.holding.recoverable inv.released.2 releases commits⟩
  intro e logged
  rcases List.mem_append.mp logged with before | last
  · exact inv.released.1 e before
  · rw [List.mem_singleton.mp last]
    exact releases

/-- Escrow release: when every call names the one registry, every offer that is closed is
released and every credit that stays with the marketplace can be recovered, in exactly the
runs whose cleanups find no open offer that has expired. -/
theorem offers_released_iff (inj : Function.Injective net.sha256)
    (inputs : List (Network.Input Call))
    (genuine : ∀ event ∈ (system net).log inputs, Genuine net event) :
    (system net).Always (Released net) inputs ↔
      Machine.Admits (fun _ event => CleansNothing event) ((system net).log inputs) := by
  have start : Released net [] (system net).init := by
    refine ⟨?_, ?_⟩
    · intro event logged
      cases logged
    · intro before first middle split
      simp at split
  refine (system net).always_iff_admits_of (Genuine net) (ReleaseInv net) ?_ start ?_ ?_
    inputs genuine
  · exact ⟨holding_init, start⟩
  · intro log event inv genuine commits
    constructor
    · exact fun released => inv.holding.cleansNothing commits (released.1 event (by simp))
    · exact fun cleansNothing => inv.released_step genuine cleansNothing commits
  · intro log event inv genuine cleansNothing commits
    exact ⟨inv.holding.step inj genuine commits,
      inv.released_step genuine cleansNothing commits⟩

namespace Sample

def admin : Address := .account 6

/-- The issuer offers the one active credit for a day. -/
def expiring : List (Network.Input Call) :=
  Registry.Sample.approve.map .registry ++
    [call admin (.initializeContract admin 0),
     call Registry.Sample.issuer (.createOffer Registry.Sample.issuer (Registry.Sample.credit 0)
      10000000 500000 network.registryId (some 1735776000) 0)]

/-- The admin cleans up two days later. -/
def cleanup : Network.Input Call :=
  .peer ⟨1735862400, fun a => a == admin⟩ (.cleanupExpiredOffers admin) obliging

end Sample

set_option maxRecDepth 100000 in
theorem cancelled_released :
    (system Sample.network).Always (Released Sample.network) Sample.cancelled := by
  apply (offers_released_iff BytesN32.mk_injective Sample.cancelled (by decide)).mpr
  have none_cleans : ∀ event ∈ (system Sample.network).log Sample.cancelled,
      cleanupTime event.input = none := by
    decide
  exact Machine.admits_of_none none_cleans

set_option maxRecDepth 100000 in
/-- The offer is closed, and its credit and its amount stay where they are. -/
theorem cleanup_not_released :
    Function.Injective BytesN32.mk ∧
      (∀ event ∈ (system Sample.network).log (Sample.expiring ++ [Sample.cleanup]),
        Genuine Sample.network event) ∧
      ¬ (system Sample.network).Always (Released Sample.network)
        (Sample.expiring ++ [Sample.cleanup]) := by
  refine ⟨BytesN32.mk_injective, by decide, ?_⟩
  intro released
  have now := released _ [] (List.append_nil _).symm
  obtain ⟨event, logged, offer, offer', stored, isOpen, stored', closed, held⟩ :
      ∃ event ∈ (system Sample.network).log (Sample.expiring ++ [Sample.cleanup]),
        ∃ offer offer', event.pre.peer.offer.lookup 0 = some offer ∧ offer.active = true ∧
          event.post.peer.offer.lookup 0 = some offer' ∧ offer'.active = false ∧
          event.post.registry.ownerOf offer.creditId ≠ some offer.seller :=
    ⟨_, List.getElem_mem (n := 9) (by decide), _, _, rfl, rfl, rfl, rfl, by decide⟩
  exact held (now.1 event logged 0 offer offer' stored isOpen stored' closed).1

end CarbonChain.Marketplace
