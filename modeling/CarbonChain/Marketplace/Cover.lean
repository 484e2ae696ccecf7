import CarbonChain.Marketplace.Release
import CarbonChain.Registry.Permanence

/-!
# What an offer promises

An offer is documented to sell the carbon volume that is available, but `create_offer`
(`contracts/marketplace/src/lib.rs:181-262`) reads the credit only for its status and its
owner and takes the volume from the seller. The volume of a stored credit never changes, so
an offer is covered for good or never.
-/

namespace CarbonChain.Marketplace

open Registry (Network ForeignReply World)

/-- No open offer promises more than its credit has. -/
def Covered (s : Joint) : Prop :=
  ∀ id offer, s.peer.offer.lookup id = some offer → offer.active = true →
    0 < offer.tonnes ∧ offer.tonnes ≤ s.registry.ledger.tonnesOf offer.creditId

/-- The credit and the amount that a call offers. -/
def Call.promise : Call → Option (BytesN32 × Int)
  | .createOffer _ creditId _ tonnes _ _ _ => some (creditId, tonnes)
  | _ => none

/-- The event offers no more than the amount that the registry has for the credit. -/
def PromisesWithin (event : JointEvent) : Prop :=
  ∀ promise ∈ event.input.call.bind Call.promise,
    promise.2 ≤ event.pre.registry.ledger.tonnesOf promise.1

instance (event : JointEvent) : Decidable (PromisesWithin event) :=
  inferInstanceAs (Decidable (∀ promise ∈ event.input.call.bind Call.promise, _ ≤ _))

variable {net : Network} {event : JointEvent}

/-! ## Calls -/

theorem createOffer_positive {W : Type} {invoke : Registry.Client W} {self : Address} {env : Env}
    {s s' : State} {w w' : W} {seller : Address} {creditId : BytesN32} {priceXlm tonnes : Int}
    {registryId : Address} {expiresAt : Option Nat} {nonce : Nat} {ret : Ret}
    (h : exec invoke self env s w
      (.createOffer seller creditId priceXlm tonnes registryId expiresAt nonce) =
        .ok (ret, s', w')) : 0 < tonnes := by
  have dispatched := (exec_eq_ok.mp h).2
  simp only [dispatch, map_eq_ok, createOffer, bind_eq_ok, rejectIf_eq_ok, exists_const,
    Prod.exists, not_or] at dispatched
  rcases dispatched with ⟨_, _, _, ⟨-, _, -, _, -, -, ⟨positive, -⟩, -⟩, -⟩
  omega

/-- Every event continues the ledger of the registry. -/
theorem continues (inj : Function.Injective net.sha256)
    (derived : event.pre.registry.ledger.Derived net.sha256)
    (commits : (system net).Commits event) :
    event.post.registry.ledger.Derived net.sha256 ∧
      event.pre.registry.ledger.Continues event.post.registry.ledger := by
  have keep : ∀ s s' invocation ret, s.ledger.Derived net.sha256 ∧
      event.pre.registry.ledger.Continues s.ledger →
      Registry.exec net.sha256 s invocation = .ok (ret, s') →
        s'.ledger.Derived net.sha256 ∧ event.pre.registry.ledger.Continues s'.ledger := by
    intro s s' invocation ret before success
    rcases before with ⟨derived, continues⟩
    have effect := Registry.exec_effect net.sha256 s success
    exact ⟨effect.derived derived, continues.trans (effect.continues inj derived)⟩
  have start : event.pre.registry.ledger.Derived net.sha256 ∧
      event.pre.registry.ledger.Continues event.pre.registry.ledger :=
    ⟨derived, Registry.Ledger.Continues.refl _⟩
  cases named : event.input with
  | registry invocation =>
      rcases (Network.commits_registry commits named).2 with ⟨ret, success⟩
      exact keep _ _ _ _ start success
  | peer env call foreign =>
      rcases Network.commits_peer commits named with ⟨ret, u, success, reached⟩
      rw [← reached]
      refine exec_keeps (fun u => u.registry.ledger.Derived net.sha256 ∧
        event.pre.registry.ledger.Continues u.registry.ledger) ?_ start success
      exact fun registryId _ w w' request answer before invoked =>
        Network.client_keeps _ keep before invoked

/-! ## Runs -/

/-- The ids of the registry are derived, and the credit of every offer is stored there. -/
structure Escrowed (net : Network) (s : Joint) : Prop where
  derived : s.registry.ledger.Derived net.sha256
  stored : ∀ id offer, s.peer.offer.lookup id = some offer →
    s.registry.ledger.getCredit offer.creditId ≠ none

theorem escrowed_init : Escrowed net (system net).init := by
  refine ⟨Registry.derived_init, ?_⟩
  intro id offer stored
  cases stored

/-- An event makes an offer of a credit that the registry stores, or only closes offers. -/
theorem offers_cases (genuine : Genuine net event) (commits : (system net).Commits event) :
    (∃ offer, event.post.peer.offer =
        event.pre.peer.offer.insert event.pre.peer.offerCount offer ∧
      event.input.call.bind Call.promise = some (offer.creditId, offer.tonnes) ∧
      offer.active = true ∧ 0 < offer.tonnes ∧
      event.pre.registry.ledger.getCredit offer.creditId ≠ none) ∨
    (Closes event.pre.peer.offer event.post.peer.offer ∧
      event.input.call.bind Call.promise = none) := by
  cases named : event.input with
  | registry invocation =>
      rw [(Network.commits_registry commits named).1]
      exact .inr ⟨Closes.refl _, rfl⟩
  | peer env call foreign =>
      rcases Network.commits_peer commits named with ⟨ret, u, success, -⟩
      have offers := exec_offers success
      cases call with
      | createOffer seller creditId priceXlm tonnes registryId expiresAt nonce =>
          rcases createOffer_ok success with ⟨-, credit, u₁, -, -, shown, -⟩
          rw [genuine.registryId_eq named rfl] at shown
          rcases (Registry.respond_getCredit (Network.client_registry shown)).2 with
            ⟨found, stored, -⟩
          refine .inl ⟨_, offers.1, rfl, rfl, createOffer_positive success, ?_⟩
          rw [show event.pre.registry.ledger.getCredit creditId = some found from stored]
          exact Option.some_ne_none found
      | _ => exact .inr ⟨offers.1, rfl⟩

theorem Escrowed.step (inj : Function.Injective net.sha256) (escrowed : Escrowed net event.pre)
    (genuine : Genuine net event) (commits : (system net).Commits event) :
    Escrowed net event.post := by
  have after := continues inj escrowed.derived commits
  refine ⟨after.1, ?_⟩
  intro id offer stored
  apply after.2.stored
  rcases offers_cases genuine commits with ⟨made, added, -, -, -, there⟩ | ⟨closes, -⟩
  · rw [added, Store.lookup_insert_ite] at stored
    split at stored
    · rw [← Option.some.inj stored]
      exact there
    · exact escrowed.stored id offer stored
  · rcases closes id offer stored with ⟨earlier, found, rfl | rfl⟩
    · exact escrowed.stored id offer found
    · exact escrowed.stored id earlier found

/-- From covered offers, an event leaves the offers covered if and only if it promises no more
than its credit has. -/
theorem Escrowed.covered_iff (inj : Function.Injective net.sha256)
    (escrowed : Escrowed net event.pre) (covered : Covered event.pre)
    (genuine : Genuine net event) (commits : (system net).Commits event) :
    Covered event.post ↔ PromisesWithin event := by
  have keeps := (continues inj escrowed.derived commits).2
  have carried : ∀ id offer, event.pre.peer.offer.lookup id = some offer →
      offer.active = true → 0 < offer.tonnes ∧
        offer.tonnes ≤ event.post.registry.ledger.tonnesOf offer.creditId := by
    intro id offer stored isOpen
    rw [keeps.tonnesOf (escrowed.stored id offer stored)]
    exact covered id offer stored isOpen
  unfold PromisesWithin
  rcases offers_cases genuine commits with
    ⟨made, added, promises, isOpen, positive, there⟩ | ⟨closes, nothing⟩
  · rw [promises]
    simp only [Option.mem_some_iff, forall_eq']
    rw [← keeps.tonnesOf there]
    constructor
    · intro after
      refine (after event.pre.peer.offerCount made ?_ isOpen).2
      rw [added, Store.lookup_insert_ite, if_pos rfl]
    · intro within id offer stored isOpen'
      rw [added, Store.lookup_insert_ite] at stored
      split at stored
      · rw [← Option.some.inj stored]
        exact ⟨positive, within⟩
      · exact carried id offer stored isOpen'
  · rw [nothing]
    apply iff_of_true
    · exact fun id offer stored isOpen => carried id offer (closes.open stored isOpen) isOpen
    · intro promise promised
      cases promised

/-- With one genuine registry no open offer ever promises more than its credit has, in exactly
the runs whose successful offers are each of at most the amount of their credit. -/
theorem offers_covered_iff (inj : Function.Injective net.sha256)
    (inputs : List (Network.Input Call))
    (genuine : ∀ event ∈ (system net).log inputs, Genuine net event) :
    (system net).Always (fun _ s => Covered s) inputs ↔
      ∀ event ∈ (system net).log inputs, PromisesWithin event := by
  have start : Covered (system net).init := by
    intro id offer stored
    cases stored
  rw [← Machine.admits_forall]
  refine (system net).always_iff_admits_of (Genuine net) (fun _ s => Escrowed net s ∧ Covered s)
    ⟨escrowed_init, start⟩ start ?_ ?_ inputs genuine
  · exact fun log event inv genuine commits => inv.1.covered_iff inj inv.2 genuine commits
  · intro log event inv genuine within commits
    exact ⟨inv.1.step inj genuine commits,
      (inv.1.covered_iff inj inv.2 genuine commits).mpr within⟩

namespace Sample

/-- The issuer offers fifty tonnes of its credit of one tonne. -/
def overpromised : List (Network.Input Call) :=
  Registry.Sample.approve.map .registry ++
    [call Registry.Sample.issuer (.createOffer Registry.Sample.issuer (Registry.Sample.credit 0)
      10000000 50000000 network.registryId none 0)]

end Sample

set_option maxRecDepth 100000 in
theorem offered_covered : (system Sample.network).Always (fun _ s => Covered s) Sample.offered :=
  (offers_covered_iff BytesN32.mk_injective Sample.offered (by decide)).mpr (by decide)

set_option maxRecDepth 100000 in
theorem overpromised_not_covered :
    Function.Injective BytesN32.mk ∧
      (∀ event ∈ (system Sample.network).log Sample.overpromised,
        Genuine Sample.network event) ∧
      ¬ Covered ((system Sample.network).state Sample.overpromised) := by
  refine ⟨BytesN32.mk_injective, by decide, ?_⟩
  intro covered
  exact absurd (covered 0 _ rfl rfl).2 (by decide)

end CarbonChain.Marketplace
