import CarbonChain.Misc.Accounts
import CarbonChain.Registry.Balance

/-!
# CreditRegistry: the holdings of an account

What an account owns in circulation is kept as books are: a submission issues to its issuer, a
transfer moves the credit it names, the retirement contract burns of the owner, and a merge
issues its surplus. Everything else, splits included, posts nothing.
-/

namespace CarbonChain.Registry

open Accounts (Posting posted replay)

variable {sha256 : Bytes → BytesN32}

/-- The tonnes a credit gives its owner. -/
def CreditMetadata.holding (credit : CreditMetadata) : Address → Int :=
  Pi.single credit.owner credit.circulating

/-- The tonnes in circulation that each account owns. -/
def Ledger.holdings (ledger : Ledger) : Address → Int :=
  ledger.credit.total CreditMetadata.holding

/-- What a call posts to the books. -/
def Ledger.posting (ledger : Ledger) : Call → Option (Posting Address Int)
  | .submitCredit issuer _ _ _ _ tonnes _ _
  | .submitCreditWithSession _ issuer _ _ _ _ tonnes _ _ => some (.issue issuer tonnes)
  | .transferCredit sender recipient id _ =>
      (ledger.getCredit id).map fun credit => .move sender recipient credit.circulating
  | .markRetired id => (ledger.getCredit id).map fun credit => .burn credit.owner credit.tonnes
  | .mergeCredits caller ids => some (.issue caller (ledger.surplusOf ids))
  | _ => none

theorem Ledger.posting_of_submission {ledger : Ledger} {call : Call} {sub : Submission}
    (submission : call.submission = some sub) :
    ledger.posting call = some (.issue sub.issuer sub.tonnes) := by
  cases call <;> cases submission <;> rfl

theorem Ledger.posting_of_quiet {ledger : Ledger} {call : Call} (quiet : call.onCredits = false) :
    ledger.posting call = none := by
  cases call <;> first | rfl | cases quiet

/-! ## What a write does to the holdings -/

theorem holdings_setCredit (ledger : Ledger) (id : BytesN32) (credit : CreditMetadata) :
    (ledger.setCredit id credit).holdings =
      ledger.holdings - (ledger.getCredit id).elim 0 CreditMetadata.holding + credit.holding :=
  Store.total_insert CreditMetadata.holding ledger.credit id credit

@[simp] theorem holdings_addCreditToProject (ledger : Ledger) (projectId : String)
    (id : BytesN32) : (ledger.addCreditToProject projectId id).holdings = ledger.holdings :=
  rfl

@[simp] theorem holdings_setCreditByProjectVintage (ledger : Ledger) (projectId : String)
    (vintageYear : Nat) (id : BytesN32) :
    (ledger.setCreditByProjectVintage projectId vintageYear id).holdings = ledger.holdings := rfl

@[simp] theorem holdings_withDispute (ledger : Ledger) (dispute : Store BytesN32 String) :
    (ledger.withDispute dispute).holdings = ledger.holdings := rfl

@[simp] theorem holdings_advance (ledger : Ledger) (n : Nat) :
    (ledger.advance n).holdings = ledger.holdings := rfl

/-- A credit under a new id adds what it gives its owner. -/
theorem holdings_new {ledger : Ledger} {id : BytesN32} {credit : CreditMetadata}
    (absent : ledger.getCredit id = none) :
    (ledger.setCredit id credit).holdings = ledger.holdings + credit.holding := by
  rw [holdings_setCredit, absent, Option.elim_none, sub_zero]

/-- Overwriting a stored credit by one that gives the same leaves the holdings. -/
theorem holdings_rewrite (ledger : Ledger) {id : BytesN32} {credit credit' : CreditMetadata}
    (stored : ledger.getCredit id = some credit) (owner : credit'.owner = credit.owner)
    (same : credit'.circulating = credit.circulating) :
    (ledger.setCredit id credit').holdings = ledger.holdings := by
  have gives : credit'.holding = credit.holding := by
    rw [CreditMetadata.holding, owner, same, CreditMetadata.holding]
  rw [holdings_setCredit, stored, Option.elim_some, gives, sub_add_cancel]

/-- Retiring the sources of a merge takes each of them from the caller once. -/
theorem retireLoop_holdings {ids : List BytesN32} {before after : Ledger} {caller : Address}
    (h : ids.foldlM retireOne before = .ok after)
    (live : ∀ id ∈ ids, ∃ credit, before.getCredit id = some credit ∧ credit.owner = caller ∧
      credit.status = .active) :
    after.holdings =
      before.holdings - Pi.single caller (∑ id ∈ ids.toFinset, before.tonnesOf id) := by
  refine foldlM_ok_induct (fun ids after =>
    (∀ id ∈ ids, ∃ credit, before.getCredit id = some credit ∧ credit.owner = caller ∧
      credit.status = .active) → after.holdings =
        before.holdings - Pi.single caller (∑ id ∈ ids.toFinset, before.tonnesOf id)) h
    (fun _ => by simp) ?_ live
  intro earlier id acc acc' looped ih iterated live
  have summed := ih fun other listed => live other (List.mem_append_left _ listed)
  obtain ⟨credit, found, owned, active⟩ := live id (by simp)
  obtain ⟨current, stored, rfl⟩ := retireOne_ok iterated
  have listed : (earlier ++ [id]).toFinset = insert id earlier.toFinset := by
    ext other
    simp
  have loop := (retireLoop_ok looped).getCredit id
  rw [stored] at loop
  by_cases repeated : id ∈ earlier
  · rw [if_pos repeated, found, Option.map_some, Option.some.injEq] at loop
    subst loop
    rw [holdings_rewrite acc stored rfl rfl, summed, listed,
      Finset.insert_eq_of_mem (List.mem_toFinset.mpr repeated)]
  · rw [if_neg repeated, found, Option.some.injEq] at loop
    subst loop
    have retired : ({ current with status := .retired } : CreditMetadata).holding = 0 := by
      simp [CreditMetadata.holding, CreditMetadata.circulating]
    have gave : current.holding = Pi.single caller (before.tonnesOf id) := by
      rw [CreditMetadata.holding, owned, CreditMetadata.circulating, active, Ledger.tonnesOf, found]
      rfl
    rw [holdings_setCredit, stored, Option.elim_some, retired, gave, summed, listed,
      Finset.sum_insert (by simpa using repeated), Pi.single_add]
    abel

/-! ## The books of one call -/

/-- Two parts of a credit give their owner what it gives. -/
theorem halves_holding {original : CreditMetadata} {caller : Address}
    (owned : original.owner = caller) (part : Int) :
    ({ original with tonnes := part, owner := caller } : CreditMetadata).holding +
      CreditMetadata.holding
        { original with tonnes := original.tonnes - part, owner := caller } =
      original.holding := by
  simp only [CreditMetadata.holding, CreditMetadata.circulating, owned]
  rw [← Pi.single_add]
  congr 1
  split <;> omega

/-- The children of a split give the owner what the original gave. -/
theorem split_holdings {ledger : Ledger} (inj : Function.Injective sha256)
    (derived : ledger.Derived sha256) {id : BytesN32} {original : CreditMetadata}
    (there : ledger.getCredit id = some original) {caller : Address}
    (owned : original.owner = caller) {splitTonnes : Int} {child1Id child2Id : BytesN32}
    (derived1 : child1Id = creditId sha256 (.bytes id) ledger.creditNonce)
    (derived2 : child2Id = creditId sha256 (.bytes id) (ledger.creditNonce + 1)) :
    ((((((ledger.advance 2).setCredit child1Id
      { original with tonnes := splitTonnes, owner := caller }).addCreditToProject
        original.projectId child1Id).setCredit child2Id
      { original with tonnes := original.tonnes - splitTonnes, owner := caller }
        ).addCreditToProject original.projectId child2Id).setCredit id
      { original with status := .retired }).holdings = ledger.holdings := by
  obtain ⟨siblings, absent1, absent2⟩ := derived.children inj derived1 derived2
  have ne1 := (Ledger.ne_of_absent there absent1).symm
  have ne2 := (Ledger.ne_of_absent there absent2).symm
  simp only [holdings_setCredit, holdings_addCreditToProject, holdings_advance,
    Ledger.getCredit_setCredit, Ledger.getCredit_addCreditToProject, Ledger.getCredit_advance,
    ne1, ne2, siblings.symm, absent1, absent2, there, if_false, Option.elim_some,
    Option.elim_none]
  have halves := halves_holding owned splitTonnes
  have retired : ({ original with status := .retired } : CreditMetadata).holding = 0 := by
    simp [CreditMetadata.holding, CreditMetadata.circulating]
  rw [retired, ← halves]
  abel

/-- A merge gives the caller its surplus. -/
theorem merge_holdings {ledger after : Ledger} (inj : Function.Injective sha256)
    (derived : ledger.Derived sha256) {caller : Address} {ids : List BytesN32}
    {mergedId : BytesN32} {merged : CreditMetadata} (owner : merged.owner = caller)
    (active : merged.status = .active)
    (tonnes : merged.tonnes = (ids.map ledger.tonnesOf).sum)
    (sources : ∀ id ∈ ids, ∃ source, ledger.getCredit id = some source ∧
      source.owner = caller ∧ source.status = .active)
    (newDerived : mergedId = creditId sha256 (.string merged.projectId) ledger.creditNonce)
    (retired : ids.foldlM retireOne (((ledger.advance 1).setCredit mergedId
      merged).addCreditToProject merged.projectId mergedId) = .ok after) :
    after.holdings = ledger.holdings + Pi.single caller (ledger.surplusOf ids) := by
  have absent : (ledger.advance 1).getCredit mergedId = none := derived.next inj newDerived
  have kept : ∀ id ∈ ids, (((ledger.advance 1).setCredit mergedId merged).addCreditToProject
      merged.projectId mergedId).getCredit id = ledger.getCredit id := by
    intro id listed
    obtain ⟨source, found, -⟩ := sources id listed
    have ne : mergedId ≠ id := Ledger.ne_of_absent found absent
    simp [ne.symm]
  have summed := retireLoop_holdings retired (by
    intro id listed
    rw [kept id listed]
    exact sources id listed)
  have weighed : ∑ id ∈ ids.toFinset, (((ledger.advance 1).setCredit mergedId
      merged).addCreditToProject merged.projectId mergedId).tonnesOf id =
        ∑ id ∈ ids.toFinset, ledger.tonnesOf id := by
    apply Finset.sum_congr rfl
    intro id member
    unfold Ledger.tonnesOf
    rw [kept id (List.mem_toFinset.mp member)]
  have gives : merged.holding = Pi.single caller (ids.map ledger.tonnesOf).sum := by
    rw [CreditMetadata.holding, owner, CreditMetadata.circulating, active, tonnes]
    rfl
  rw [summed, weighed, holdings_addCreditToProject, holdings_new absent, holdings_advance, gives,
    Ledger.surplusOf, Pi.single_sub]
  abel

/-- A call changes the holdings as it posts. -/
theorem Effect.posts {env : Env} {s : State} {call : Call} {ret : Ret} {after : Ledger}
    (inj : Function.Injective sha256) (derived : s.ledger.Derived sha256)
    (effect : Effect sha256 env s call ret after) :
    after.holdings = posted s.ledger.holdings (s.ledger.posting call) := by
  cases effect with
  | unchanged _ _ quiet =>
      rw [Ledger.posting_of_quiet quiet]
      rfl
  | submitted _ sub newId submission hasAdmin authorised positive unique newDerived =>
      have absent : (s.ledger.advance 1).getCredit newId = none := derived.next inj newDerived
      rw [Ledger.posting_of_submission submission, holdings_addCreditToProject,
        holdings_setCreditByProjectVintage, holdings_new absent, holdings_advance]
      rfl
  | approved verifier target nonce found authorised registered there pending first short =>
      exact holdings_rewrite (s.ledger.setCreditApprovals target
        (s.ledger.getCreditApprovals target ++ [verifier])) there rfl rfl
  | minted verifier target nonce found authorised registered there pending first enough =>
      exact holdings_rewrite (s.ledger.setCreditApprovals target
        (s.ledger.getCreditApprovals target ++ [verifier])) there rfl
        (by simp [CreditMetadata.circulating, pending])
  | restatused _ target found status dispute there change trusted =>
      have lost := change.circulating_eq
      have left : ({ found with status } : CreditMetadata).holding =
          found.holding + Pi.single found.owner (-call.redeems.elim 0 fun _ => found.tonnes) := by
        rw [CreditMetadata.holding, CreditMetadata.holding, ← Pi.single_add]
        congr 1
        omega
      have posts : s.ledger.posting call =
          call.redeems.map fun _ => .burn found.owner found.tonnes := by
        generalize found.status = old at change
        cases change <;> first | rfl | simp [Ledger.posting, Call.redeems, there]
      rw [posts, holdings_withDispute, holdings_setCredit, there, Option.elim_some, left]
      cases call.redeems with
      | none => simp [posted]
      | some id =>
          simp only [Option.map_some, posted, Option.elim_some, Posting.effect, Pi.single_neg]
          abel
  | transferred sender recipient target nonce found authorised there owned =>
      have given : ({ found with owner := recipient } : CreditMetadata).holding =
          Pi.single recipient found.circulating := rfl
      have gave : found.holding = Pi.single sender found.circulating := by
        rw [CreditMetadata.holding, owned]
      rw [holdings_setCredit, there, Option.elim_some, given, gave]
      simp only [Ledger.posting, there, Option.map_some, posted, Option.elim_some, Posting.effect]
      abel
  | split caller target splitTonnes nonce original child1Id child2Id authorised there owned
      positive proper derived1 derived2 =>
      exact split_holdings inj derived there owned derived1 derived2
  | merged caller ids mergedId merged _ authorised several owner active tonnes sources newDerived
      retired =>
      have live : ∀ id ∈ ids, ∃ source, s.ledger.getCredit id = some source ∧
          source.owner = caller ∧ source.status = .active := by
        intro id listed
        obtain ⟨source, found, owned, active, -⟩ := sources id listed
        exact ⟨source, found, owned, active⟩
      exact merge_holdings inj derived owner active tonnes live newDerived retired


/-! ## Runs -/

/-- A posting of a successful call is of no negative amount, and who spends by it has authorised
the call, if it is not the retirement contract that did. -/
theorem Effect.spends {env : Env} {s : State} {call : Call} {ret : Ret} {after : Ledger}
    (positive : s.ledger.Positive) (effect : Effect sha256 env s call ret after)
    {posting : Posting Address Int} (posts : s.ledger.posting call = some posting) :
    0 ≤ posting.amount ∧ ∀ a, posting.spender = some a →
      (env.auth a = true ∧ ∃ recipient id nonce, call = .transferCredit a recipient id nonce) ∨
        ∃ id retirementContract, call = .markRetired id ∧
          s.roles.retirementContract = some retirementContract ∧
          env.auth retirementContract = true := by
  cases effect with
  | unchanged _ _ quiet =>
      rw [Ledger.posting_of_quiet quiet] at posts
      cases posts
  | submitted _ sub newId submission hasAdmin authorised positive unique newDerived =>
      rw [Ledger.posting_of_submission submission] at posts
      cases posts
      refine ⟨positive.le, ?_⟩
      intro a spends
      cases spends
  | approved | minted | split => cases posts
  | restatused _ target found status dispute there change trusted =>
      cases call with
      | markRetired id =>
          obtain ⟨credit, stored, rfl⟩ := Option.map_eq_some_iff.mp posts
          refine ⟨(positive id credit stored).le, ?_⟩
          intro a _
          obtain rfl : id = target := change.redeems id rfl
          obtain ⟨retirementContract, appointed, authorised⟩ := trusted rfl
          exact .inr ⟨id, retirementContract, rfl, appointed, authorised⟩
      | _ =>
          generalize found.status = old at change
          cases change <;> cases posts
  | transferred sender recipient target nonce found authorised there owned =>
      obtain ⟨credit, stored, rfl⟩ := Option.map_eq_some_iff.mp posts
      refine ⟨?_, ?_⟩
      · rw [Posting.amount, CreditMetadata.circulating]
        split
        · exact le_refl _
        · exact (positive target credit stored).le
      · intro a spends
        cases spends
        exact .inl ⟨authorised, recipient, target, nonce, rfl⟩
  | merged caller ids mergedId merged _ authorised several owner active tonnes sources newDerived
      retired =>
      cases posts
      constructor
      · apply (Ledger.surplusOf_nonneg positive ?_).1
        intro id listed
        obtain ⟨source, found, -⟩ := sources id listed
        rw [found]
        exact Option.some_ne_none source
      · intro a spends
        cases spends

/-- The tonnes in circulation are those that the accounts hold. -/
theorem sum_holdings (ledger : Ledger) {accounts : Finset Address}
    (owners : ∀ id credit, ledger.getCredit id = some credit → credit.owner ∈ accounts) :
    ∑ a ∈ accounts, ledger.holdings a = ledger.circulating := by
  unfold Ledger.holdings Ledger.circulating Store.total
  simp only [Finset.sum_apply]
  rw [Finset.sum_comm]
  apply Finset.sum_congr rfl
  intro id member
  cases stored : ledger.credit.lookup id with
  | none => simp
  | some credit =>
      have owner : credit.owner ∈ accounts := owners id credit stored
      simp only [Option.elim_some, CreditMetadata.holding, Pi.single_apply]
      rw [Finset.sum_ite_eq' accounts credit.owner, if_pos owner]

/-- In every run, what each account holds in circulation is what the books of the run say: issued
by submissions and by the surplus of merges, moved by transfers, burned by the retirement
contract. No call lowers the holdings of an account but a transfer that it authorised itself and
a retirement by the retirement contract, and all holdings make up the tonnes in circulation. -/
theorem holdings_posted (inj : Function.Injective sha256) (inputs : List Invocation) :
    ((machine sha256).state inputs).ledger.holdings =
      replay (((machine sha256).log inputs).filterMap fun event =>
        event.pre.ledger.posting event.input.call) ∧
    (∀ event ∈ (machine sha256).log inputs, ∀ a,
      event.post.ledger.holdings a < event.pre.ledger.holdings a →
        (event.input.env.auth a = true ∧
          ∃ recipient id nonce, event.input.call = .transferCredit a recipient id nonce) ∨
        ∃ id retirementContract, event.input.call = .markRetired id ∧
          event.pre.roles.retirementContract = some retirementContract ∧
          event.input.env.auth retirementContract = true) ∧
    ∀ accounts : Finset Address, (∀ id credit,
        ((machine sha256).state inputs).ledger.getCredit id = some credit →
          credit.owner ∈ accounts) →
      ∑ a ∈ accounts, ((machine sha256).state inputs).ledger.holdings a =
        ((machine sha256).state inputs).ledger.circulating := by
  have kept := (machine sha256).run_induct (fun log s =>
    (s.ledger.Derived sha256 ∧ s.ledger.Positive) ∧
    s.ledger.holdings = replay (log.filterMap fun event =>
      event.pre.ledger.posting event.input.call) ∧
    ∀ event ∈ log, ∀ a, event.post.ledger.holdings a < event.pre.ledger.holdings a →
      (event.input.env.auth a = true ∧
        ∃ recipient id nonce, event.input.call = .transferCredit a recipient id nonce) ∨
      ∃ id retirementContract, event.input.call = .markRetired id ∧
        event.pre.roles.retirementContract = some retirementContract ∧
        event.input.env.auth retirementContract = true) ?_ ?_ inputs
  · exact ⟨kept.2.1, kept.2.2, fun accounts owners => sum_holdings _ owners⟩
  · refine ⟨⟨derived_init, ?_⟩, rfl, by simp⟩
    intro id credit stored
    cases stored
  · intro log event ⟨⟨derived, positive⟩, booked, spent⟩ commits
    have effect := exec_effect sha256 event.pre commits
    have posts := effect.posts inj derived
    refine ⟨⟨effect.derived derived, effect.positive inj derived positive⟩, ?_, ?_⟩
    · rw [Accounts.replay_snoc, ← booked]
      exact posts
    · intro e logged a loss
      rcases List.mem_append.mp logged with before | last
      · exact spent e before a loss
      · obtain rfl := List.mem_singleton.mp last
        rw [posts] at loss
        cases posted : e.pre.ledger.posting e.input.call with
        | none =>
            rw [posted] at loss
            exact absurd loss (lt_irrefl _)
        | some posting =>
            obtain ⟨nonneg, spender⟩ := effect.spends positive posted
            apply spender a
            apply posting.spender_of_loss nonneg
            rw [posted] at loss
            simpa [Accounts.posted] using loss

set_option maxRecDepth 100000 in
/-- The issuer holds the tonnes of the merge of a credit with itself. -/
theorem mergeWithItself_held :
    ((machine BytesN32.mk).state Sample.mergeWithItself).ledger.holdings Sample.issuer =
      2000000 := by
  have booked := (holdings_posted BytesN32.mk_injective Sample.mergeWithItself).1
  rw [booked]
  decide

end CarbonChain.Registry
