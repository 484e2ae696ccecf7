import CarbonChain.Marketplace.Offers
import CarbonChain.Misc.Logs

/-!
# The book of offers

What the marketplace stores about offers (`contracts/marketplace/src/lib.rs:181-262`) is
what the successful calls have written into a book: each offer on the terms of the call
that made it, above the price floor of that time, open until it is cancelled or cleaned up,
and its escrowed amount until it is cancelled.
-/

namespace CarbonChain.Marketplace

open Registry (Client Peer ScriptedCall)

abbrev MarketEvent := Event State (ScriptedCall Call) Ret

/-- The offer that a call cancels. -/
def Call.cancels : Call → Option Nat
  | .cancelOffer _ offerId _ _ => some offerId
  | _ => none

/-- The call cleans up the expired offers. -/
def Call.cleans : Call → Bool
  | .cleanupExpiredOffers _ => true
  | _ => false

/-- The floor under the prices that a call sets. -/
def Call.floor : Call → Option Int
  | .initializeContract _ minPricePerTonne => some minPricePerTonne
  | .updateMinPrice _ newMin => some newMin
  | _ => none

/-- The floor is the last that was set. -/
def floorOf (log : List MarketEvent) : Int :=
  (log.filterMap fun event => event.input.call.floor).getLast?.getD 0

/-- The event cancels the offer. -/
def Cancels (event : MarketEvent) (id : Nat) : Prop := event.input.call.cancels = some id

/-- The event closes the offer: it cancels it, or cleans up after it has expired. -/
def Ends (event : MarketEvent) (id : Nat) (offer : Offer) : Prop :=
  Cancels event id ∨ event.input.call.cleans = true ∧ offer.Expired event.input.env.timestamp

instance (event : MarketEvent) (id : Nat) : Decidable (Cancels event id) :=
  inferInstanceAs (Decidable (event.input.call.cancels = some id))

instance (event : MarketEvent) (id : Nat) (offer : Offer) : Decidable (Ends event id offer) :=
  inferInstanceAs (Decidable (_ ∨ _))

/-! ## The book -/

/-- An offer with its escrowed amount. -/
abbrev Entry := Offer × Option Int

/-- The entry that an event adds to the book. -/
def entry (event : MarketEvent) : Option Entry :=
  (event.input.call.offer event.input.env).map fun offer => (offer, some offer.priceXlm)

/-- What an event makes of an entry. -/
def amend (event : MarketEvent) (id : Nat) (entry : Entry) : Entry :=
  (if Ends event id entry.1 then { entry.1 with active := false } else entry.1,
    if Cancels event id then none else entry.2)

/-- The storage of the offers is the book that the log leaves. -/
structure Recorded (log : List MarketEvent) (s : State) : Prop where
  count : s.offerCount = (Docket.kept entry amend log).length
  offers : ∀ id, s.offer.lookup id = ((Docket.kept entry amend log)[id]?).map Prod.fst
  escrowed : ∀ id, s.escrowedAmount.lookup id = ((Docket.kept entry amend log)[id]?).bind Prod.snd
  floor : s.getMinPrice = floorOf log

theorem floorOf_snoc (log : List MarketEvent) (event : MarketEvent) :
    floorOf (log ++ [event]) = event.input.call.floor.getD (floorOf log) := by
  unfold floorOf
  rw [List.filterMap_append]
  cases sets : event.input.call.floor with
  | none => simp [sets]
  | some floor => simp [sets]

section Calls

variable {W : Type} {invoke : Client W} {self : Address} {env : Env} {s s' : State} {w w' : W}
  {call : Call} {ret : Ret}

theorem exec_floor (h : exec invoke self env s w call = .ok (ret, s', w')) :
    s'.getMinPrice = call.floor.getD s.getMinPrice := by
  have dispatched := (exec_eq_ok.mp h).2
  cases call <;>
    simp only [dispatch, map_eq_ok, initializeContract, pause, unpause, setPaused, createOffer,
      cancelOffer, cleanupExpiredOffers, updateMinPrice, upgrade, bind_eq_ok, Prod.exists,
      pure_eq_ok, Prod.mk.injEq] at dispatched <;>
    simp only [Call.floor, State.getMinPrice] <;>
    grind

/-- What a call that succeeds checks of the offer it makes. -/
theorem exec_made {offer : Offer} (makes : call.offer env = some offer)
    (h : exec invoke self env s w call = .ok (ret, s', w')) :
    ret = .id s.offerCount ∧ env.auth offer.seller = true ∧ 0 < offer.priceXlm ∧
      s.getMinPrice ≤ offer.priceXlm ∧ 0 < offer.tonnes ∧ offer.tonnes % 100000 = 0 := by
  have dispatched := (exec_eq_ok.mp h).2
  cases call with
  | createOffer seller creditId priceXlm tonnes registryId expiresAt nonce =>
      obtain rfl := Option.some.inj makes
      simp only [dispatch, map_eq_ok, createOffer, nextId, bind_eq_ok, rejectIf_eq_ok,
        exists_const, Env.requireAuth_eq_ok, Prod.exists, pure_eq_ok, Prod.mk.injEq] at dispatched
      obtain ⟨_, _, _, ⟨-, authorised, _, -, positive, sized, floored, credit, w₁, shown, -, -,
        nonce', w₂, -, _, -, _, _, ⟨-, rfl, rfl⟩, rfl, -⟩, rfl, -, -⟩ := dispatched
      refine ⟨rfl, authorised, ?_, ?_, ?_, ?_⟩ <;> dsimp only <;> omega
  | _ => cases makes

/-- What a call does to the escrowed amounts. -/
theorem exec_escrowed (h : exec invoke self env s w call = .ok (ret, s', w')) (id : Nat) :
    s'.escrowedAmount.lookup id =
      if call.cancels = some id then none
      else match call.offer env with
        | some offer => if id = s.offerCount then some offer.priceXlm
            else s.escrowedAmount.lookup id
        | none => s.escrowedAmount.lookup id := by
  have dispatched := (exec_eq_ok.mp h).2
  cases call <;>
    simp only [dispatch, map_eq_ok, initializeContract, pause, unpause, setPaused, createOffer,
      cancelOffer, cleanupExpiredOffers, updateMinPrice, upgrade, nextId, bind_eq_ok, Prod.exists,
      pure_eq_ok, Prod.mk.injEq] at dispatched <;>
    simp only [Call.cancels, Call.offer, reduceCtorEq, if_false, Option.some.injEq]
  case createOffer => grind [Store.lookup_insert_ite]
  case cancelOffer seller offerId registryId nonce =>
    obtain ⟨_, _, ⟨_, -, _, -, _, -, _, -, _, -, _, -, _, _, -, _, -, rfl, -⟩, -, rfl, -⟩ :=
      dispatched
    simp [eq_comm]
  all_goals grind

/-- What a call does to the offers, as far as they are numbered. -/
theorem exec_offer (h : exec invoke self env s w call = .ok (ret, s', w')) {id : Nat}
    (bounded : id < s.offerCount) :
    s'.offer.lookup id = (s.offer.lookup id).map fun offer =>
      if call.cancels = some id ∨ call.cleans = true ∧ offer.Expired env.timestamp then
        { offer with active := false }
      else offer := by
  cases call with
  | createOffer seller creditId priceXlm tonnes registryId expiresAt nonce =>
      have offers := (exec_offers h).1
      rw [offers, Store.lookup_insert_ite, if_neg (Nat.ne_of_lt bounded)]
      simp [Call.cancels, Call.cleans]
  | cancelOffer seller offerId registryId nonce =>
      obtain ⟨-, found, -, -, there, -, -, closed, -⟩ := cancelOffer_ok h
      rw [closed, Store.lookup_insert_ite]
      by_cases same : id = offerId
      · subst same
        simp [Call.cancels, there]
      · simp [Call.cancels, Call.cleans, same, Ne.symm same]
  | cleanupExpiredOffers admin =>
      rw [cleanup_ok h, if_pos bounded]
      simp [Call.cancels, Call.cleans]
      rfl
  | _ =>
      have dispatched := (exec_eq_ok.mp h).2
      simp only [dispatch, map_eq_ok, initializeContract, pause, unpause, setPaused,
        updateMinPrice, upgrade, bind_eq_ok, pure_eq_ok, Prod.mk.injEq] at dispatched
      have same : s'.offer = s.offer := by grind
      simp [same, Call.cancels, Call.cleans]

end Calls

theorem Call.cancels_of_offer {env : Env} {call : Call} {offer : Offer}
    (makes : call.offer env = some offer) : call.cancels = none := by
  cases call <;> first | rfl | cases makes

theorem Call.active_of_offer {env : Env} {call : Call} {offer : Offer}
    (makes : call.offer env = some offer) : offer.active = true := by
  cases call <;> cases makes
  rfl

theorem Recorded.step {log : List MarketEvent} {event : MarketEvent} {self : Address}
    (recorded : Recorded log event.pre) (numbered : event.pre.OffersNumbered)
    (commits : (peer self).alone.Commits event) : Recorded (log ++ [event]) event.post := by
  obtain ⟨n, success⟩ := Peer.alone_commits.mp commits
  have offers := exec_offers success
  have escrowed := exec_escrowed success
  have numbered' := numbered.exec success
  have absent : (Docket.kept entry amend log)[event.pre.offerCount]? = none := by
    rw [recorded.count]
    exact List.getElem?_eq_none (Nat.le_refl _)
  refine ⟨?_, ?_, ?_, ?_⟩
  · rw [Docket.kept_snoc, Docket.length_posted, ← recorded.count]
    cases made : event.input.call.offer event.input.env with
    | some offer =>
        rw [made] at offers
        simp [entry, made, offers.2]
    | none =>
        rw [made] at offers
        simp [entry, made, offers.2]
  · intro id
    rw [Docket.kept_snoc, Docket.getElem?_posted, ← recorded.count]
    by_cases next : id = event.pre.offerCount
    · rw [if_pos next]
      cases made : event.input.call.offer event.input.env with
      | some offer =>
          rw [made] at offers
          simp [entry, made, offers.1, next]
      | none =>
          rw [made] at offers
          have unused : event.post.offer.lookup id = none := by
            by_contra stored
            have below := (numbered'.stored id).mp stored
            rw [offers.2, next] at below
            exact absurd below (Nat.lt_irrefl _)
          simp [entry, made, unused]
    · rw [if_neg next]
      by_cases bounded : id < event.pre.offerCount
      · rw [exec_offer success bounded, recorded.offers, Option.map_map, Option.map_map]
        congr 1
      · have beyond : (Docket.kept entry amend log)[id]? = none := by
          apply List.getElem?_eq_none
          rw [← recorded.count]
          omega
        have unused : event.post.offer.lookup id = none := by
          by_contra stored
          have below := (numbered'.stored id).mp stored
          cases made : event.input.call.offer event.input.env <;> rw [made] at offers <;> omega
        simp [beyond, unused]
  · intro id
    rw [Docket.kept_snoc, Docket.getElem?_posted, ← recorded.count, escrowed id,
      recorded.escrowed]
    cases made : event.input.call.offer event.input.env with
    | some offer =>
        have kept := Call.cancels_of_offer made
        by_cases next : id = event.pre.offerCount
        · simp [next, entry, made, kept]
        · cases (Docket.kept entry amend log)[id]? <;> simp [next, kept, amend, Cancels]
    | none =>
        by_cases next : id = event.pre.offerCount
        · simp [next, absent, entry, made]
        · rw [if_neg next]
          cases (Docket.kept entry amend log)[id]? with
          | none => simp
          | some a => exact if_congr Iff.rfl rfl rfl
  · rw [floorOf_snoc, exec_floor success, recorded.floor]

/-! ## Runs -/

variable {self : Address}

theorem recorded (inputs : List (ScriptedCall Call)) :
    Recorded ((peer self).alone.log inputs) ((peer self).alone.state inputs) := by
  have both := (peer self).alone.run_induct
    (fun log s => Recorded log s ∧ s.OffersNumbered) ⟨?_, offersNumbered_init⟩ ?_ inputs
  · exact both.1
  · exact ⟨rfl, fun id => by simp [Docket.kept, peer, State.empty, Peer.alone],
      fun id => by simp [Docket.kept, peer, State.empty, Peer.alone], rfl⟩
  · rintro log event ⟨recorded, numbered⟩ commits
    obtain ⟨n, success⟩ := Peer.alone_commits.mp commits
    exact ⟨recorded.step numbered commits, numbered.exec success⟩

/-- What has become of an offer: no event changes its terms. -/
theorem amended_eq {made : Offer} (isOpen : made.active = true) (id : Nat)
    (after : List MarketEvent) :
    Docket.amended amend id (made, some made.priceXlm) after =
      ({ made with active := decide (∀ later ∈ after, ¬ Ends later id made) },
        if ∀ later ∈ after, ¬ Cancels later id then some made.priceXlm else none) := by
  induction after using List.reverseRecOn with
  | nil =>
      cases made
      simp_all [Docket.amended]
  | append_singleton after last ih =>
      rw [Docket.amended_snoc, ih]
      have same : ∀ active, Ends last id { made with active } ↔ Ends last id made :=
        fun _ => Iff.rfl
      simp only [amend, same, List.forall_mem_append, List.forall_mem_singleton]
      by_cases ends : Ends last id made <;> by_cases cancels : Cancels last id <;>
        simp [ends, cancels]

/-- An event makes an offer, which gets the number `id`, after the events `before`. -/
structure Makes (before : List MarketEvent) (event : MarketEvent) (id : Nat) (made : Offer) :
    Prop where
  offer : event.input.call.offer event.input.env = some made
  returned : event.output = .id id
  signed : event.input.env.auth made.seller = true
  positive : 0 < made.priceXlm
  floored : floorOf before ≤ made.priceXlm
  sized : 0 < made.tonnes ∧ made.tonnes % 100000 = 0

theorem makes_iff {inputs : List (ScriptedCall Call)} {before after : List MarketEvent}
    {event : MarketEvent} (split : (peer self).alone.log inputs = before ++ event :: after)
    {id : Nat} {made : Offer} :
    Makes before event id made ↔ entry event = some (made, some made.priceXlm) ∧
      (Docket.kept entry amend before).length = id := by
  obtain ⟨earlier, later, -, logged, reached, commits⟩ := (peer self).alone.log_split split
  have recorded : Recorded ((peer self).alone.log earlier) ((peer self).alone.state earlier) :=
    recorded earlier
  rw [logged, reached] at recorded
  obtain ⟨n, success⟩ := Peer.alone_commits.mp commits
  constructor
  · rintro ⟨offer, returned, -, -, -, -⟩
    obtain ⟨numbered, -⟩ := exec_made offer success
    rw [returned, recorded.count] at numbered
    refine ⟨by simp [entry, offer], ?_⟩
    cases numbered
    rfl
  · rintro ⟨added, rfl⟩
    obtain ⟨offer, makes, same⟩ := Option.map_eq_some_iff.mp added
    obtain rfl := (Prod.mk.inj same).1
    obtain ⟨numbered, signed, positive, floored, tonnes, units⟩ := exec_made makes success
    rw [recorded.count] at numbered
    rw [recorded.floor] at floored
    exact ⟨makes, numbered, signed, positive, floored, tonnes, units⟩

/-- In every run, whatever registries answer, the stored offers are those that calls have made,
under the numbers returned, on the terms of the call and at the price floor of that time or
above, open as long as no event has closed them; and the escrowed amounts are the prices of the
offers that have not been cancelled, those that a cleanup has closed among them. -/
theorem offers_recorded (self : Address) (inputs : List (ScriptedCall Call)) :
    (∀ id offer, ((peer self).alone.state inputs).offer.lookup id = some offer ↔
      ∃ before event after made, (peer self).alone.log inputs = before ++ event :: after ∧
        Makes before event id made ∧
        offer = { made with active := decide (∀ later ∈ after, ¬ Ends later id made) }) ∧
    ∀ id price, ((peer self).alone.state inputs).escrowedAmount.lookup id = some price ↔
      ∃ before event after made, (peer self).alone.log inputs = before ++ event :: after ∧
        Makes before event id made ∧ price = made.priceXlm ∧
        ∀ later ∈ after, ¬ Cancels later id := by
  have recorded : Recorded ((peer self).alone.log inputs) ((peer self).alone.state inputs) :=
    recorded inputs
  have kept : ∀ id offer escrow,
      (Docket.kept entry amend ((peer self).alone.log inputs))[id]? = some (offer, escrow) ↔
        ∃ before event after made, (peer self).alone.log inputs = before ++ event :: after ∧
          Makes before event id made ∧
          offer = { made with active := decide (∀ later ∈ after, ¬ Ends later id made) } ∧
          escrow = if ∀ later ∈ after, ¬ Cancels later id then some made.priceXlm else none := by
    intro id offer escrow
    rw [Docket.getElem?_kept_iff]
    constructor
    · rintro ⟨before, event, after, split, first, added, number, became⟩
      obtain ⟨made, makes, rfl⟩ := Option.map_eq_some_iff.mp added
      rw [amended_eq (Call.active_of_offer makes)] at became
      obtain ⟨terms, amount⟩ := Prod.mk.inj became
      exact ⟨before, event, after, made, split, (makes_iff split).mpr ⟨added, number⟩,
        terms.symm, amount.symm⟩
    · rintro ⟨before, event, after, made, split, makes, rfl, rfl⟩
      obtain ⟨added, number⟩ := (makes_iff split).mp makes
      exact ⟨before, event, after, split, _, added, number,
        amended_eq (Call.active_of_offer makes.offer) id after⟩
  constructor
  · intro id offer
    rw [recorded.offers, Option.map_eq_some_iff]
    constructor
    · rintro ⟨⟨found, escrow⟩, stored, rfl⟩
      obtain ⟨before, event, after, made, split, makes, terms, -⟩ :=
        (kept id found escrow).mp stored
      exact ⟨before, event, after, made, split, makes, terms⟩
    · rintro ⟨before, event, after, made, split, makes, terms⟩
      exact ⟨_, (kept id offer _).mpr ⟨before, event, after, made, split, makes, terms, rfl⟩, rfl⟩
  · intro id price
    rw [recorded.escrowed, Option.bind_eq_some_iff]
    constructor
    · rintro ⟨⟨found, escrow⟩, stored, holds⟩
      obtain ⟨before, event, after, made, split, makes, -, rfl⟩ := (kept id found escrow).mp stored
      obtain ⟨uncancelled, amount⟩ := Option.ite_none_right_eq_some.mp holds
      exact ⟨before, event, after, made, split, makes, (Option.some.inj amount).symm, uncancelled⟩
    · rintro ⟨before, event, after, made, split, makes, rfl, uncancelled⟩
      refine ⟨_, (kept id _ _).mpr ⟨before, event, after, made, split, makes, rfl, rfl⟩, ?_⟩
      exact if_pos uncancelled

end CarbonChain.Marketplace
