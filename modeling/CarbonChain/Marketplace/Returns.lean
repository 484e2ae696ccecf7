import CarbonChain.Marketplace.Custody

/-!
# Deposits return to their sellers

`cancel_offer` is documented (`contracts/marketplace/src/lib.rs:264-265`) to be for the
original seller, and it compares its caller with the seller of the offer. The credit it
moves is the one the offer names, in the registry the caller names: an offer made in a
registry of the adversary, for a credit that somebody else deposited in the genuine one,
withdraws that deposit.
-/

namespace CarbonChain.Marketplace

open Registry (Network ForeignReply World Owned)

variable {net : Network} {log : List JointEvent} {event : JointEvent}

/-! ## The steps of the escrow -/

/-- Receipts of an event that makes no offer in the registry are older ones. -/
theorem Custody.receipt_of_quiet (custody : Custody net log event.pre)
    (quiet : deposit net event = none)
    (opened : ∀ id offer, id < event.pre.peer.offerCount →
      event.post.peer.offer.lookup id = some offer → offer.active = true →
      event.pre.peer.offer.lookup id = some offer) {offerId : Nat} {id : BytesN32}
    {seller : Address}
    (receipt : (escrow net (log ++ [event]) event.post).receipt offerId id seller) :
    (escrow net log event.pre).receipt offerId id seller := by
  rcases receipt with ⟨made, offer, stored, isOpen, names⟩
  rcases made.cases_snoc with earlier | ⟨deposited, -⟩
  · have before := opened offerId offer (custody.made offerId earlier) stored isOpen
    exact ⟨earlier, offer, before, isOpen, names⟩
  · exact absurd quiet deposited

/-- An event that makes no offer in the registry and cancels none there. -/
theorem Custody.idle (inj : Function.Injective net.sha256) (custody : Custody net log event.pre)
    (commits : (system net).Commits event) (undeposited : deposit net event = none)
    (unwithdrawn : withdrawal net event = none) :
    Escrow.Step net.self (escrow net log event.pre) (escrow net (log ++ [event]) event.post) := by
  have depositor : lastDepositor net (log ++ [event]) = lastDepositor net log :=
    funext fun id => lastDepositor_snoc_of_none undeposited id
  cases named : event.input with
  | registry invocation =>
      obtain ⟨same, ret, success⟩ := Network.commits_registry commits named
      refine .idle ?_ ?_ depositor
      · intro id held
        have owned : Owned net.sha256 id net.self event.pre.registry := ⟨custody.derived, held⟩
        exact (owned.exec inj (by simp [Env.external]) success).owner
      · intro offerId id seller receipt
        refine custody.receipt_of_quiet undeposited ?_ receipt
        intro other offer earlier stored isOpen
        rw [same] at stored
        exact stored
  | peer env call foreign =>
      obtain ⟨ret, u, success, reached⟩ := Network.commits_peer commits named
      have elsewhere : ∀ registryId ∈ call.registryId, registryId ≠ net.registryId := by
        rintro registryId names rfl
        unfold deposit at undeposited
        unfold withdrawal at unwithdrawn
        rw [named] at undeposited unwithdrawn
        cases call <;>
          simp_all [Call.registryId, Network.Input.call, Call.deposit, Call.withdrawal]
      refine .idle ?_ ?_ depositor
      · intro id held
        have owned : Owned net.sha256 id net.self event.pre.registry := ⟨custody.derived, held⟩
        have after := (exec_owned inj elsewhere owned success).owner
        rw [reached] at after
        exact after
      · intro offerId id seller receipt
        refine custody.receipt_of_quiet undeposited ?_ receipt
        exact fun other offer earlier stored isOpen => exec_open success earlier stored isOpen

/-- An offer made in the registry is a deposit. -/
theorem Custody.deposits (custody : Custody net log event.pre)
    (commits : (system net).Commits event) {id : BytesN32} {seller : Address}
    (deposited : deposit net event = some (id, seller)) :
    Escrow.Step net.self (escrow net log event.pre) (escrow net (log ++ [event]) event.post) := by
  obtain ⟨env, foreign, priceXlm, tonnes, expiresAt, nonce, named⟩ := deposit_eq_some.mp deposited
  obtain ⟨ret, u, success, reached⟩ := Network.commits_peer commits named
  obtain ⟨authorised, owner, owners⟩ := createOffer_takes success
  have outsider : seller ≠ net.self := ((Env.external_auth env net.self seller).mp authorised).2
  have offers := exec_offers success
  simp only [Call.offer] at offers
  rw [reached] at owners
  refine .deposit event.pre.peer.offerCount id seller ?_ ?_ ?_ ?_ ?_
  · intro held
    exact outsider (Option.some.inj (owner.symm.trans held))
  · intro other held
    by_cases same : other = id
    · exact (owners other).trans (if_pos same)
    · exact ((owners other).trans (if_neg same)).trans held
  · exact (owners id).trans (if_pos rfl)
  · rintro offerId other party ⟨made, offer, stored, isOpen, names⟩
    rcases made.cases_snoc with earlier | ⟨-, new⟩
    · have before := exec_open success (custody.made offerId earlier) stored isOpen
      exact .inl ⟨earlier, offer, before, isOpen, names⟩
    · rw [offers.1, Store.lookup_insert_ite, if_pos new.symm] at stored
      obtain rfl := Option.some.inj stored
      exact .inr ⟨new.symm, names.1.symm, names.2.symm⟩
  · exact lastDepositor_snoc_of_some deposited

/-- An offer cancelled in the registry is a withdrawal, if it was made there. -/
theorem Custody.withdraws (custody : Custody net log event.pre)
    (commits : (system net).Commits event) {offerId : Nat}
    (withdrawn : withdrawal net event = some offerId) (made : MadeIn net log offerId) :
    Escrow.Step net.self (escrow net log event.pre) (escrow net (log ++ [event]) event.post) := by
  obtain ⟨env, foreign, seller, nonce, named⟩ := withdrawal_eq_some withdrawn
  obtain ⟨ret, u, success, reached⟩ := Network.commits_peer commits named
  obtain ⟨offer, stored, isOpen, sold, closed, owners⟩ := cancelOffer_gives success
  have undeposited : deposit net event = none := by simp [deposit, named, Network.Input.call,
    Call.deposit]
  rw [reached] at owners
  have issued : (escrow net log event.pre).receipt offerId offer.creditId seller :=
    ⟨made, offer, stored, isOpen, rfl, sold⟩
  refine .withdraw offerId offer.creditId seller issued ?_ ?_ ?_ ?_
  · intro other ne held
    exact ((owners other).trans (if_neg ne)).trans held
  · exact (owners offer.creditId).trans (if_pos rfl)
  · intro other id party receipt
    refine ⟨custody.receipt_of_quiet undeposited ?_ receipt, ?_⟩
    · exact fun other offer earlier stored isOpen => exec_open success earlier stored isOpen
    · rintro rfl
      rcases receipt with ⟨-, offer', stored', isOpen', -⟩
      rw [closed, Store.lookup_insert_ite, if_pos rfl] at stored'
      obtain rfl := Option.some.inj stored'
      cases isOpen'
  · exact funext fun id => lastDepositor_snoc_of_none undeposited id

/-! ## Runs -/

/-- Every event is a step of the escrow, if it is matched. -/
theorem Custody.escrow_step (inj : Function.Injective net.sha256)
    (custody : Custody net log event.pre) (matched : Matched net log event)
    (commits : (system net).Commits event) :
    Escrow.Step net.self (escrow net log event.pre) (escrow net (log ++ [event]) event.post) := by
  cases withdrawn : withdrawal net event with
  | some offerId => exact custody.withdraws commits withdrawn (matched offerId withdrawn)
  | none =>
      cases deposited : deposit net event with
      | some entry => exact custody.deposits commits deposited
      | none => exact custody.idle inj commits deposited withdrawn

theorem custody_init : Custody net [] (system net).init := by
  refine ⟨?_, ?_, ?_, ?_, ?_, ?_⟩
  · exact Registry.derived_init
  · intro id offer stored
    cases stored
  · rintro id ⟨event, logged, -⟩
    cases logged
  · rintro offerId id seller ⟨⟨event, logged, -⟩, -⟩
    cases logged
  · rintro offerId id seller ⟨⟨event, logged, -⟩, -⟩
    cases logged
  · rintro offerId offerId' id seller seller' ⟨⟨event, logged, -⟩, -⟩
    cases logged

theorem Custody.step (inj : Function.Injective net.sha256)
    (custody : Custody net log event.pre) (matched : Matched net log event)
    (commits : (system net).Commits event) : Custody net (log ++ [event]) event.post := by
  have sound := custody.sound.step (custody.escrow_step inj matched commits)
  cases named : event.input with
  | registry invocation =>
      obtain ⟨same, ret, success⟩ := Network.commits_registry commits named
      have undeposited : deposit net event = none := by simp [deposit, named, Network.Input.call]
      refine ⟨Registry.exec_derived custody.derived success, ?_, ?_, sound⟩
      · rw [same]
        exact custody.stored
      · intro id made
        rw [same]
        rcases made.cases_snoc with earlier | ⟨deposited, -⟩
        · exact custody.made id earlier
        · exact absurd undeposited deposited
  | peer env call foreign =>
      obtain ⟨ret, u, success, reached⟩ := Network.commits_peer commits named
      have derived := exec_derived custody.derived success
      rw [reached] at derived
      refine ⟨derived, ?_, ?_, sound⟩
      · exact fun id offer stored => exec_stored success custody.stored stored
      · intro id made
        have le := exec_offerCount success
        rcases made.cases_snoc with earlier | ⟨deposited, new⟩
        · have := custody.made id earlier
          omega
        · obtain ⟨⟨credit, seller⟩, deposited⟩ := Option.ne_none_iff_exists'.mp deposited
          obtain ⟨env', foreign', priceXlm, tonnes, expiresAt, nonce, same⟩ :=
            deposit_eq_some.mp deposited
          rw [named] at same
          cases same
          have offers := exec_offers success
          simp only [Call.offer] at offers
          omega

/-- Each deposit returns: as long as nobody else deposits the credit, whenever it leaves
the ownership of the marketplace it goes to the seller who deposited it. -/
def Returns (net : Network) (log : List JointEvent) : Prop :=
  ∀ before first middle event after, log = before ++ first :: (middle ++ event :: after) →
    ∀ id seller, deposit net first = some (id, seller) →
      (∀ e ∈ middle, ∀ other, deposit net e = some (id, other) → other = seller) →
      event.pre.registry.ownerOf id = some net.self →
      event.post.registry.ownerOf id ≠ some net.self →
      event.post.registry.ownerOf id = some seller

/-- Deposits return in every run in which each offer that is cancelled in the registry was
made in the registry. -/
theorem deposits_return (inj : Function.Injective net.sha256) (inputs : List (Network.Input Call))
    (matched : Machine.Admits (Matched net) ((system net).log inputs)) :
    Returns net ((system net).log inputs) := by
  intro before first middle event after split id seller deposited only held left
  have split' : (system net).log inputs = (before ++ first :: middle) ++ event :: after := by
    simp [split]
  obtain ⟨custody, here, commits⟩ := (system net).induct_split_of (Matched net) (Custody net)
    custody_init (fun log event custody matched commits => custody.step inj matched commits)
    matched split'
  have step := custody.escrow_step inj here commits
  have returned := custody.sound.released step held left
  exact returned.trans (lastDepositor_of_split deposited only)

/-! ## A network in operation -/

namespace Sample

/-- The sample registry at one address and the marketplace at another. -/
def network : Network := ⟨BytesN32.mk, .contract 8, .contract 10⟩

def thief : Address := .account 66

/-- A contract of the thief's. -/
def fake : Address := .contract 66

/-- The credit as the fake registry shows it. -/
def shown : Registry.CreditMetadata :=
  { projectId := "project-1", issuer := thief, owner := thief, vintageYear := 2024,
    methodology := "VCS", geography := "NG", tonnes := 1000000, ipfsHash := "",
    status := .active, issuedAt := 0 }

/-- The fake registry answers what `create_offer` asks it. -/
def obliging (n : Nat) : ForeignReply :=
  ⟨[], if n = 0 then some (.credit shown) else if n = 1 then some (.nonce 0) else some .unit⟩

/-- `signer` calls the marketplace. -/
def call (signer : Address) (call : Call) : Network.Input Call :=
  .peer ⟨1735689600, fun a => a == signer⟩ call obliging

/-- `seller` offers the issuer's credit in the registry `registryId`. -/
def offer (seller registryId : Address) : Network.Input Call :=
  call seller
    (.createOffer seller (Registry.Sample.credit 0) 10000000 500000 registryId none 0)

/-- `seller` cancels an offer in the genuine registry. -/
def cancel (seller : Address) (offerId nonce : Nat) : Network.Input Call :=
  call seller (.cancelOffer seller offerId network.registryId nonce)

/-- The issuer offers the one active credit in the genuine registry. -/
def offered : List (Network.Input Call) :=
  Registry.Sample.approve.map .registry ++ [offer Registry.Sample.issuer network.registryId]

/-- The issuer cancels the offer. -/
def cancelled : List (Network.Input Call) := offered ++ [cancel Registry.Sample.issuer 0 1]

/-- The thief offers the credit in the fake registry and cancels in the genuine one. -/
def stolen : List (Network.Input Call) := offered ++ [offer thief fake, cancel thief 1 1]

end Sample

set_option maxRecDepth 100000 in
/-- The issuer cancels in the registry the offer made there. -/
theorem cancelled_matched : Machine.Admits (Matched Sample.network)
    ((system Sample.network).log Sample.cancelled) := by
  obtain ⟨event, split, withdrawn, made⟩ :
      ∃ event, (system Sample.network).log Sample.cancelled =
          (system Sample.network).log Sample.offered ++ [event] ∧
        withdrawal Sample.network event = some 0 ∧
        MadeIn Sample.network ((system Sample.network).log Sample.offered) 0 :=
    ⟨_, rfl, rfl, _, List.getElem_mem (n := 7) (by decide), by decide, rfl⟩
  have none_before : ∀ e ∈ (system Sample.network).log Sample.offered,
      withdrawal Sample.network e = none := by decide
  rw [split]
  refine Machine.admits_snoc.mpr ⟨?_, ?_⟩
  · exact Machine.admits_of_none none_before
  · intro offerId cancels
    rw [withdrawn] at cancels
    cases cancels
    exact made

theorem cancelled_returns :
    Returns Sample.network ((system Sample.network).log Sample.cancelled) :=
  deposits_return BytesN32.mk_injective Sample.cancelled cancelled_matched

set_option maxRecDepth 100000 in
/-- The thief's second cancellation takes the credit that the issuer deposited. -/
theorem stolen_not_returns :
    Function.Injective BytesN32.mk ∧
      ¬ Returns Sample.network ((system Sample.network).log Sample.stolen) := by
  refine ⟨BytesN32.mk_injective, ?_⟩
  intro returns
  obtain ⟨first, second, event, split, deposited, undeposited, held, left⟩ :
      ∃ first second event, (system Sample.network).log Sample.stolen =
          (system Sample.network).log (Registry.Sample.approve.map .registry) ++
            first :: ([second] ++ event :: []) ∧
        deposit Sample.network first =
          some (Registry.Sample.credit 0, Registry.Sample.issuer) ∧
        deposit Sample.network second = none ∧
        event.pre.registry.ownerOf (Registry.Sample.credit 0) = some Sample.network.self ∧
        event.post.registry.ownerOf (Registry.Sample.credit 0) = some Sample.thief :=
    ⟨_, _, _, rfl, rfl, rfl, rfl, rfl⟩
  have only : ∀ e ∈ [second], ∀ other,
      deposit Sample.network e = some (Registry.Sample.credit 0, other) →
        other = Registry.Sample.issuer := by
    intro e listed other deposits
    rw [List.mem_singleton.mp listed, undeposited] at deposits
    cases deposits
  have away : event.post.registry.ownerOf (Registry.Sample.credit 0) ≠
      some Sample.network.self := by
    rw [left]
    decide
  have returned := returns _ first [second] event [] split _ _ deposited only held away
  rw [left] at returned
  exact absurd returned (by decide)

end CarbonChain.Marketplace
