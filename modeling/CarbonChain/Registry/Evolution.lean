import CarbonChain.Registry.Effect

/-!
# CreditRegistry: the life of one credit

What an invocation can do to a credit that is stored (`Evolves`) and to an id that
is not (`Created`). Both readings of an effect rest on the ids being fresh: every
stored id is derived from a counter value below the counter (`Ledger.Derived`),
hashes are injective, and so no derivation meets a stored id.
-/

namespace CarbonChain.Registry

variable {sha256 : Bytes → BytesN32}

/-- Every stored id was derived at a counter value that the counter has passed. -/
def Ledger.Derived (sha256 : Bytes → BytesN32) (ledger : Ledger) : Prop :=
  ∀ id, ledger.getCredit id ≠ none →
    ∃ origin n, n < ledger.creditNonce ∧ id = creditId sha256 origin n

theorem creditId_inj (inj : Function.Injective sha256) {origin origin' : ScVal} {n n' : Nat} :
    creditId sha256 origin n = creditId sha256 origin' n' ↔ origin = origin' ∧ n = n' := by
  unfold creditId
  rw [inj.eq_iff, ScVal.toXdr_append_eq, ScVal.toXdr_eq, ScVal.u64.injEq]

/-- Nothing is stored under an id whose counter value is not yet passed. -/
theorem Ledger.Derived.fresh {ledger : Ledger} (inj : Function.Injective sha256)
    (derived : ledger.Derived sha256) {n : Nat} (later : ledger.creditNonce ≤ n)
    (origin : ScVal) : ledger.getCredit (creditId sha256 origin n) = none := by
  by_contra stored
  obtain ⟨origin', n', passed, same⟩ := derived _ stored
  have counters := ((creditId_inj inj).mp same).2
  omega

theorem Ledger.Derived.next {ledger : Ledger} (inj : Function.Injective sha256)
    (derived : ledger.Derived sha256) {origin : ScVal} {id : BytesN32}
    (newDerived : id = creditId sha256 origin ledger.creditNonce) :
    ledger.getCredit id = none := by
  rw [newDerived]
  exact derived.fresh inj (le_refl _) origin

theorem Ledger.Derived.ne_creditId {ledger : Ledger} (inj : Function.Injective sha256)
    (derived : ledger.Derived sha256) {n : Nat} (later : ledger.creditNonce ≤ n)
    {id : BytesN32} {credit : CreditMetadata} (stored : ledger.getCredit id = some credit)
    (origin : ScVal) : id ≠ creditId sha256 origin n := by
  intro same
  rw [same, derived.fresh inj later] at stored
  cases stored

theorem Ledger.ne_of_absent {ledger : Ledger} {id other : BytesN32} {credit : CreditMetadata}
    (stored : ledger.getCredit id = some credit) (absent : ledger.getCredit other = none) :
    other ≠ id := by
  rintro rfl
  rw [absent] at stored
  cases stored

/-- The two ids that a split derives are new and distinct. -/
theorem Ledger.Derived.children {ledger : Ledger} (inj : Function.Injective sha256)
    (derived : ledger.Derived sha256) {origin : ScVal} {child1Id child2Id : BytesN32}
    (derived1 : child1Id = creditId sha256 origin ledger.creditNonce)
    (derived2 : child2Id = creditId sha256 origin (ledger.creditNonce + 1)) :
    child1Id ≠ child2Id ∧ ledger.getCredit child1Id = none ∧
      ledger.getCredit child2Id = none := by
  refine ⟨?_, ?_, ?_⟩
  · rw [derived1, derived2, ne_eq, creditId_inj inj]
    simp
  · exact derived.next inj derived1
  · rw [derived2]
    exact derived.fresh inj (Nat.le_succ _) origin

/-! ## The loop that retires the sources of a merge -/

/-- What the loop does to the stored credits, and what it leaves alone. -/
structure RetireLoop (ids : List BytesN32) (before after : Ledger) : Prop where
  getCredit : ∀ id, after.getCredit id =
    if id ∈ ids then (before.getCredit id).map fun credit => { credit with status := .retired }
    else before.getCredit id
  creditNonce : after.creditNonce = before.creditNonce
  creditApprovals : after.creditApprovals = before.creditApprovals
  creditByProjectVintage : after.creditByProjectVintage = before.creditByProjectVintage

theorem retireOne_ok {ledger after : Ledger} {id : BytesN32}
    (h : retireOne ledger id = .ok after) :
    ∃ credit, ledger.getCredit id = some credit ∧
      after = ledger.setCredit id { credit with status := .retired } := by
  simp only [retireOne, bind_eq_ok, okOr_eq_ok, pure_eq_ok] at h
  obtain ⟨credit, stored, rfl⟩ := h
  exact ⟨credit, stored, rfl⟩

/-- What the retirement of a stored credit keeps, the loop keeps. -/
theorem retireLoop_keeps {ids : List BytesN32} {before after : Ledger} (P : Ledger → Prop)
    (keep : ∀ ledger id credit, ledger.getCredit id = some credit → P ledger →
      P (ledger.setCredit id { credit with status := .retired }))
    (start : P before) (h : ids.foldlM retireOne before = .ok after) : P after := by
  refine foldlM_ok_induct (fun _ acc => P acc) h start ?_
  intro earlier id acc acc' _ holds iterated
  obtain ⟨credit, stored, rfl⟩ := retireOne_ok iterated
  exact keep acc id credit stored holds

theorem retireLoop_ok {ids : List BytesN32} {before after : Ledger}
    (h : ids.foldlM retireOne before = .ok after) : RetireLoop ids before after := by
  refine foldlM_ok_induct (fun ids after => RetireLoop ids before after) h
    ⟨by simp, rfl, rfl, rfl⟩ ?_
  intro earlier id acc acc' _ loop iterated
  obtain ⟨credit, stored, rfl⟩ := retireOne_ok iterated
  refine ⟨?_, loop.creditNonce, loop.creditApprovals, loop.creditByProjectVintage⟩
  intro other
  rw [Ledger.getCredit_setCredit]
  rw [loop.getCredit] at stored
  by_cases same : other = id
  · subst same
    -- the credit read now may have been retired by an earlier iteration
    by_cases repeated : other ∈ earlier
    · rw [if_pos repeated] at stored
      obtain ⟨original, found, rfl⟩ := Option.map_eq_some_iff.mp stored
      simp [found]
    · rw [if_neg repeated] at stored
      simp [stored]
  · rw [if_neg same, loop.getCredit]
    simp [same]

/-- The loop that retires the sources of a merge retires them. -/
theorem RetireLoop.statusOf {ids : List BytesN32} {before after : Ledger}
    (loop : RetireLoop ids before after) (id : BytesN32) :
    after.statusOf id =
      if id ∈ ids then (before.statusOf id).map fun _ => .retired else before.statusOf id := by
  unfold Ledger.statusOf
  rw [loop.getCredit]
  split
  · rw [Option.map_map, Option.map_map]
    rfl
  · rfl

/-! ## Stored credits -/

/-- What `call`, in storage `s`, can do to the credit stored under `id`. -/
inductive Evolves (s : State) (env : Env) (call : Call) (id : BytesN32)
    (credit : CreditMetadata) : CreditMetadata → Prop where
  | same : Evolves s env call id credit credit
  | minted (verifier : Address) (nonce : Nat) (named : call = .approveAndMint verifier id nonce)
      (pending : credit.status = .pending) (registered : verifier ∈ s.roles.verifierSet)
      (first : verifier ∉ s.ledger.getCreditApprovals id)
      (enough : s.roles.getRequiredApprovals ≤ (s.ledger.getCreditApprovals id).length + 1) :
      Evolves s env call id credit { credit with status := .active }
  | restatused (status : CreditStatus) (change : StatusChange call id credit.status status) :
      Evolves s env call id credit { credit with status }
  | transferred (recipient : Address) (nonce : Nat)
      (named : call = .transferCredit credit.owner recipient id nonce)
      (authorised : env.auth credit.owner = true) :
      Evolves s env call id credit { credit with owner := recipient }
  | split (splitTonnes : Int) (nonce : Nat)
      (named : call = .splitCredit credit.owner id splitTonnes nonce)
      (authorised : env.auth credit.owner = true) :
      Evolves s env call id credit { credit with status := .retired }
  | merged (ids : List BytesN32) (named : call = .mergeCredits credit.owner ids)
      (authorised : env.auth credit.owner = true) (listed : id ∈ ids)
      (active : credit.status = .active) :
      Evolves s env call id credit { credit with status := .retired }

/-- A stored credit stays stored, and changes in one of the ways of `Evolves`. -/
theorem Effect.evolves {env : Env} {s : State} {call : Call} {ret : Ret} {after : Ledger}
    (inj : Function.Injective sha256) (derived : s.ledger.Derived sha256)
    (effect : Effect sha256 env s call ret after) {id : BytesN32} {credit : CreditMetadata}
    (stored : s.ledger.getCredit id = some credit) :
    ∃ credit', after.getCredit id = some credit' ∧ Evolves s env call id credit credit' := by
  cases effect with
  | unchanged _ _ quiet => exact ⟨credit, stored, .same⟩
  | submitted _ sub newId submission hasAdmin authorised positive unique newDerived =>
      have ne := derived.ne_creditId inj (le_refl _) stored (.string sub.projectId)
      rw [← newDerived] at ne
      exact ⟨credit, by simp [ne, stored], .same⟩
  | approved verifier target nonce found authorised registered there pending first short =>
      refine ⟨credit, ?_, .same⟩
      rw [Ledger.getCredit_setCredit]
      split
      · next same =>
          rw [← stored, same, there]
      · exact stored
  | minted verifier target nonce found authorised registered there pending first enough =>
      by_cases same : id = target
      · subst same
        obtain rfl := Option.some.inj (there.symm.trans stored)
        exact ⟨_, by simp, .minted verifier nonce rfl pending registered first enough⟩
      · exact ⟨credit, by simp [same, stored], .same⟩
  | restatused _ target found status dispute there change trusted =>
      by_cases same : id = target
      · subst same
        obtain rfl := Option.some.inj (there.symm.trans stored)
        exact ⟨_, by simp, .restatused status change⟩
      · exact ⟨credit, by simp [same, stored], .same⟩
  | transferred sender recipient target nonce found authorised there owned =>
      by_cases same : id = target
      · subst same
        obtain rfl := Option.some.inj (there.symm.trans stored)
        subst owned
        exact ⟨_, by simp, .transferred recipient nonce rfl authorised⟩
      · exact ⟨credit, by simp [same, stored], .same⟩
  | split caller target splitTonnes nonce original child1Id child2Id authorised there owned
      positive proper derived1 derived2 =>
      by_cases same : id = target
      · subst same
        obtain rfl := Option.some.inj (there.symm.trans stored)
        subst owned
        exact ⟨_, by simp, .split splitTonnes nonce rfl authorised⟩
      · obtain ⟨-, absent1, absent2⟩ := derived.children inj derived1 derived2
        have ne1 := (Ledger.ne_of_absent stored absent1).symm
        have ne2 := (Ledger.ne_of_absent stored absent2).symm
        exact ⟨credit, by simp [same, ne1, ne2, stored], .same⟩
  | merged caller ids mergedId merged _ authorised several owner active tonnes sources newDerived
      retired =>
      have loop := retireLoop_ok retired
      have ne := derived.ne_creditId inj (le_refl _) stored (.string merged.projectId)
      rw [← newDerived] at ne
      rw [loop.getCredit]
      by_cases listed : id ∈ ids
      · obtain ⟨source, found, owned, live, -⟩ := sources id listed
        obtain rfl := Option.some.inj (found.symm.trans stored)
        subst owned
        exact ⟨_, by simp [listed, ne, stored], .merged ids rfl authorised listed live⟩
      · exact ⟨credit, by simp [listed, ne, stored], .same⟩

namespace Evolves

variable {s : State} {env : Env} {call : Call} {id : BytesN32}
  {credit credit' : CreditMetadata}

/-- Everything but the status and the owner is settled when a credit is stored. -/
theorem constant (h : Evolves s env call id credit credit') :
    SameLot credit' credit ∧ credit'.tonnes = credit.tonnes := by
  cases h <;> exact ⟨⟨rfl, rfl, rfl, rfl, rfl⟩, rfl⟩

/-- `Retired` is terminal. -/
theorem retired_stays (h : Evolves s env call id credit credit')
    (retired : credit.status = .retired) : credit'.status = .retired := by
  cases h with
  | same => exact retired
  | minted verifier nonce named pending registered first enough => simp [retired] at pending
  | restatused status change =>
      rw [retired] at change
      cases change <;> contradiction
  | transferred recipient nonce named authorised => exact retired
  | split splitTonnes nonce named authorised => rfl
  | merged ids named authorised listed active => rfl

/-- Only a transfer that the owner authorises changes the owner. -/
theorem owner_cases (h : Evolves s env call id credit credit') :
    credit'.owner = credit.owner ∨
      env.auth credit.owner = true ∧
        ∃ nonce, call = .transferCredit credit.owner credit'.owner id nonce := by
  cases h with
  | transferred recipient nonce named authorised => exact .inr ⟨authorised, nonce, named⟩
  | _ => exact .inl rfl

end Evolves

/-! ## New credits -/

/-- How `call`, in storage `s` and returning `ret`, brings `credit` into being under the new
id `id`. -/
inductive Created (s : State) (env : Env) (call : Call) (ret : Ret) (id : BytesN32) :
    CreditMetadata → Prop where
  | submitted (sub : Submission) (submission : call.submission = some sub)
      (hasAdmin : s.roles.admin ≠ none) (positive : 0 < sub.tonnes) (returned : ret = .id id) :
      Created s env call ret id (sub.credit env)
  | child (caller : Address) (parent child1Id child2Id : BytesN32) (splitTonnes part : Int)
      (nonce : Nat) (original : CreditMetadata)
      (named : call = .splitCredit caller parent splitTonnes nonce)
      (returned : ret = .pair child1Id child2Id) (isChild : id = child1Id ∨ id = child2Id)
      (stored : s.ledger.getCredit parent = some original) (owned : original.owner = caller)
      (positive : 0 < part) :
      Created s env call ret id { original with tonnes := part, owner := caller }
  | merged (caller : Address) (ids : List BytesN32) (credit : CreditMetadata)
      (named : call = .mergeCredits caller ids) (returned : ret = .id id)
      (several : 2 ≤ ids.length) (active : credit.status = .active)
      (tonnes : credit.tonnes = (ids.map s.ledger.tonnesOf).sum)
      (sources : ∀ id ∈ ids, ∃ source, s.ledger.getCredit id = some source ∧
        source.owner = caller ∧ source.status = .active ∧ SameLot source credit) :
      Created s env call ret id credit

/-- A credit under an id where nothing was stored is new in one of the ways of `Created`,
and its id was derived during the call. -/
theorem Effect.created {env : Env} {s : State} {call : Call} {ret : Ret} {after : Ledger}
    (effect : Effect sha256 env s call ret after) {id : BytesN32} {credit : CreditMetadata}
    (absent : s.ledger.getCredit id = none) (stored : after.getCredit id = some credit) :
    Created s env call ret id credit ∧
      ∃ origin n, n < after.creditNonce ∧ id = creditId sha256 origin n := by
  have ne_target : ∀ {target found}, s.ledger.getCredit target = some found → id ≠ target :=
    fun there => Ledger.ne_of_absent there absent
  cases effect with
  | unchanged _ _ quiet => simp [absent] at stored
  | submitted _ sub newId submission hasAdmin authorised positive unique newDerived =>
      simp only [Ledger.getCredit_addCreditToProject, Ledger.getCredit_setCreditByProjectVintage,
        Ledger.getCredit_setCredit, Ledger.getCredit_advance, absent] at stored
      split at stored
      · next same =>
          obtain rfl := Option.some.inj stored
          rw [same]
          exact ⟨.submitted sub submission hasAdmin positive rfl, _, _, Nat.lt_succ_self _,
            newDerived⟩
      · cases stored
  | approved verifier target nonce found authorised registered there pending first short =>
      simp [ne_target there, absent] at stored
  | minted verifier target nonce found authorised registered there pending first enough =>
      simp [ne_target there, absent] at stored
  | restatused _ target found status dispute there change trusted =>
      simp [ne_target there, absent] at stored
  | transferred sender recipient target nonce found authorised there owned =>
      simp [ne_target there, absent] at stored
  | split caller target splitTonnes nonce original child1Id child2Id authorised there owned
      positive proper derived1 derived2 =>
      simp only [Ledger.getCredit_setCredit, Ledger.getCredit_addCreditToProject,
        Ledger.getCredit_advance, ne_target there, if_false, absent] at stored
      split at stored
      · next same =>
          obtain rfl := Option.some.inj stored
          exact ⟨.child caller target child1Id child2Id splitTonnes _ nonce original rfl rfl
            (.inr same) there owned (by omega), _, _, Nat.lt_succ_self _, same.trans derived2⟩
      · split at stored
        · next same =>
            obtain rfl := Option.some.inj stored
            exact ⟨.child caller target child1Id child2Id splitTonnes _ nonce original rfl rfl
              (.inl same) there owned positive, _, _, Nat.lt_add_of_pos_right (by decide),
              same.trans derived1⟩
        · cases stored
  | merged caller ids mergedId merged _ authorised several owner active tonnes sources newDerived
      retired =>
      have unlisted : id ∉ ids := by
        intro listed
        obtain ⟨source, found, -⟩ := sources id listed
        exact ne_target found rfl
      have loop := retireLoop_ok retired
      rw [loop.getCredit, if_neg unlisted] at stored
      simp only [Ledger.getCredit_setCredit, Ledger.getCredit_addCreditToProject,
        Ledger.getCredit_advance, absent] at stored
      split at stored
      · next same =>
          obtain rfl := Option.some.inj stored
          rw [same, loop.creditNonce]
          exact ⟨.merged caller ids merged rfl rfl several active tonnes sources, _, _,
            Nat.lt_succ_self _, newDerived⟩
      · cases stored

/-! ## Freshness over runs -/

/-- The counter only advances. -/
theorem Effect.creditNonce_le {env : Env} {s : State} {call : Call} {ret : Ret} {after : Ledger}
    (effect : Effect sha256 env s call ret after) :
    s.ledger.creditNonce ≤ after.creditNonce := by
  cases effect with
  | merged caller ids mergedId merged _ authorised several owner active tonnes sources newDerived
      retired =>
      rw [(retireLoop_ok retired).creditNonce]
      simp
  | _ => simp [Ledger.setCredit, Ledger.advance, Ledger.setCreditByProjectVintage,
      Ledger.addCreditToProject, Ledger.setCreditApprovals, Ledger.removeCreditApprovals]

theorem Effect.derived {env : Env} {s : State} {call : Call} {ret : Ret} {after : Ledger}
    (derived : s.ledger.Derived sha256) (effect : Effect sha256 env s call ret after) :
    after.Derived sha256 := by
  intro id stored
  by_cases known : s.ledger.getCredit id = none
  · obtain ⟨credit, there⟩ := Option.ne_none_iff_exists'.mp stored
    exact (effect.created known there).2
  · obtain ⟨origin, n, passed, rfl⟩ := derived id known
    have le := effect.creditNonce_le
    exact ⟨origin, n, by omega, rfl⟩

theorem derived_init : (machine sha256).init.ledger.Derived sha256 :=
  fun _ stored => absurd rfl stored

/-- Every event of a run starts from a ledger whose ids were derived at passed counter
values. -/
theorem derived_of_logged {inputs : List Invocation} {event : Event State Invocation Ret}
    (logged : event ∈ (machine sha256).log inputs) :
    event.pre.ledger.Derived sha256 ∧ (machine sha256).Commits event :=
  (machine sha256).invariant_pre (fun s => s.ledger.Derived sha256) derived_init
    (fun event derived commits => (exec_effect sha256 event.pre commits).derived derived) logged

end CarbonChain.Registry
