import CarbonChain.Registry.Permanence

/-!
# CreditRegistry: what a pause freezes

`pause` (`contracts/credit_registry/src/lib.rs:94-104`) is documented to pause all
state-mutating operations. Six of the entry points that write credits check the flag, and
so does submission through a session, which calls one of them. `expire_credit` and
`resolve_dispute` do not, but are the admin's. `dispute_credit` and `merge_credits` do not
check it either, and are open to anyone and to any owner.
-/

namespace CarbonChain.Registry

variable {sha256 : Bytes → BytesN32}

/-- The address that has to authorise a call: an argument of it, or for `mark_retired` the
registered retirement contract. -/
def Call.caller (roles : Roles) : Call → Option Address
  | .initializeContract a _ _ | .pause a | .unpause a | .registerVerifier a _ _
  | .removeVerifier a _ _ | .registerIssuer a _ _ | .removeIssuer a _ _
  | .registerMethodology a _ _ _ | .proposeAdmin a _ | .acceptAdmin a
  | .configureVerifierServices a _ _ _ | .addVerifierService a _ _ _
  | .removeVerifierService a _ _ _ | .registerProject a _ _ _ _ | .upgrade a _ _
  | .submitCredit a _ _ _ _ _ _ _ | .approveAndMint a _ _ | .flagCredit a _ _ _
  | .transferCredit a _ _ _ | .splitCredit a _ _ _ | .expireCredit a _
  | .disputeCredit a _ _ | .resolveDispute a _ _ | .mergeCredits a _ | .createSession a
  | .submitCreditWithSession _ a _ _ _ _ _ _ _ => some a
  | .markRetired _ => roles.retirementContract

/-- The guards of `dispute_credit`. -/
structure Disputes (env : Env) (s : State) (disputer : Address) (id : BytesN32) : Prop where
  current : s.roles.wasm = none
  authorised : env.auth disputer = true
  stored : ∃ status, s.ledger.statusOf id = some status ∧ status ≠ .retired ∧ status ≠ .disputed

/-- The guards of `merge_credits`. -/
structure Merges (env : Env) (s : State) (caller : Address) (ids : List BytesN32) : Prop where
  current : s.roles.wasm = none
  authorised : env.auth caller = true
  several : 2 ≤ ids.length
  lot : ∃ lot, ∀ id ∈ ids, ∃ source, s.ledger.getCredit id = some source ∧
    source.owner = caller ∧ source.status = .active ∧ SameLot source lot
  fits : ∀ first rest, ids = first ++ rest →
    FitsSigned 128 (first.map s.ledger.tonnesOf).sum
  room : s.ledger.creditNonce + 1 < 2 ^ 64

/-- The call disputes or merges credits, and its guards, none of which reads the pause flag,
let it through. -/
def IgnoresPause (env : Env) (s : State) : Call → Prop
  | .disputeCredit disputer id _ => Disputes env s disputer id
  | .mergeCredits caller ids => Merges env s caller ids
  | _ => False

/-! ## When the two calls succeed -/

theorem disputeCredit_succeeds {env : Env} {s : State} {disputer : Address} {id : BytesN32}
    {evidence : String} :
    (∃ result, exec sha256 s ⟨env, .disputeCredit disputer id evidence⟩ = .ok result) ↔
      Disputes env s disputer id := by
  constructor
  · rintro ⟨⟨ret, s'⟩, success⟩
    obtain ⟨current, dispatched⟩ := (exec_eq_ok sha256 s).mp success
    simp only [dispatch, Result.unit_eq_ok, disputeCredit, bind_eq_ok, rejectIf_eq_ok,
      Env.requireAuth_eq_ok, exists_const, okOr_eq_ok, pure_eq_ok, not_or] at dispatched
    obtain ⟨⟨authorised, credit, stored, open_, -⟩, -⟩ := dispatched
    exact ⟨current, authorised, credit.status, Ledger.statusOf_of_stored stored, open_⟩
  · rintro ⟨current, authorised, status, found, open_⟩
    obtain ⟨credit, stored, rfl⟩ := Ledger.statusOf_eq_some.mp found
    have success : ∃ s', disputeCredit env s disputer id evidence = .ok s' := by
      simp only [disputeCredit, bind_eq_ok, rejectIf_eq_ok, Env.requireAuth_eq_ok, exists_const,
        okOr_eq_ok, pure_eq_ok, not_or]
      exact ⟨_, authorised, credit, stored, open_, rfl⟩
    obtain ⟨s', success⟩ := success
    refine ⟨(.unit, s'), (exec_eq_ok sha256 s).mpr ⟨current, ?_⟩⟩
    exact Result.unit_eq_ok.mpr ⟨success, rfl⟩

theorem mergeOne_fits {ledger : Ledger} {caller : Address} {acc acc' : MergeTotals}
    {id : BytesN32} (h : mergeOne ledger caller acc id = .ok acc') :
    FitsSigned 128 acc'.totalTonnes := by
  simp only [mergeOne, bind_eq_ok, rejectIf_eq_ok, exists_const, okOr_eq_ok, pure_eq_ok,
    checkedAddSigned_eq_ok] at h
  obtain ⟨credit, -, -, -, _, -, _, -, _, -, _, -, _, -, _, ⟨fits, rfl⟩, rfl⟩ := h
  exact fits

/-- The loop that adds the sources up lets no partial sum overflow. -/
theorem mergeLoop_fits {ledger : Ledger} {caller : Address} {ids : List BytesN32}
    {acc : MergeTotals} (h : ids.foldlM (mergeOne ledger caller) MergeTotals.start = .ok acc) :
    ∀ first rest, ids = first ++ rest → FitsSigned 128 (first.map ledger.tonnesOf).sum := by
  refine foldlM_ok_induct (fun ids _ => ∀ first rest, ids = first ++ rest →
    FitsSigned 128 (first.map ledger.tonnesOf).sum) h ?_ ?_
  · intro first rest split
    rw [(List.append_eq_nil_iff.mp split.symm).1, List.map_nil, List.sum_nil]
    decide
  · intro earlier id acc acc' looped ih iterated first rest split
    rcases List.eq_nil_or_concat rest with rfl | ⟨shorter, last, rfl⟩
    · -- the sum of all sources so far is the total that the last iteration checked
      have fits := mergeOne_fits iterated
      obtain ⟨credit, -, -, -, -, added, -⟩ := mergeOne_ok iterated
      rw [added, (mergeLoop_ok looped).1] at fits
      rw [List.append_nil] at split
      rw [← split, List.map_append, List.sum_append]
      simpa using fits
    · rw [List.concat_eq_append, ← List.append_assoc] at split
      obtain ⟨rfl, -⟩ := List.append_inj' split rfl
      exact ih first shorter rfl

/-- The accumulator after some sources of one lot. -/
structure Accumulates (ledger : Ledger) (lot : CreditMetadata) (ids : List BytesN32)
    (acc : MergeTotals) : Prop where
  totalTonnes : acc.totalTonnes = (ids.map ledger.tonnesOf).sum
  start : ids = [] → acc = MergeTotals.start
  describes : ids ≠ [] → acc.Describes lot ∧ acc.ipfsHash ≠ none

theorem mergeOne_succeeds {ledger : Ledger} {caller : Address} {lot source : CreditMetadata}
    {ids : List BytesN32} {acc : MergeTotals} {id : BytesN32}
    (accumulates : Accumulates ledger lot ids acc) (stored : ledger.getCredit id = some source)
    (owned : source.owner = caller) (active : source.status = .active)
    (same : SameLot source lot)
    (fits : FitsSigned 128 ((ids ++ [id]).map ledger.tonnesOf).sum) :
    ∃ acc', mergeOne ledger caller acc id = .ok acc' ∧
      Accumulates ledger lot (ids ++ [id]) acc' := by
  have total : ((ids ++ [id]).map ledger.tonnesOf).sum = acc.totalTonnes + source.tonnes := by
    rw [accumulates.totalTonnes, List.map_append, List.sum_append]
    simp [Ledger.tonnesOf, stored]
  have agrees : acc = MergeTotals.start ∨ acc.Describes source := by
    by_cases none : ids = []
    · exact .inl (accumulates.start none)
    · obtain ⟨described, -⟩ := accumulates.describes none
      refine .inr ⟨?_, ?_, ?_, ?_, ?_⟩
      · rw [same.projectId, described.projectId]
      · rw [same.vintageYear, described.vintageYear]
      · rw [same.issuer, described.issuer]
      · rw [same.methodology, described.methodology]
      · rw [same.geography, described.geography]
  rw [total] at fits
  refine ⟨⟨acc.totalTonnes + source.tonnes, some source.projectId, some source.vintageYear,
    some source.issuer, some source.methodology, some source.geography, some source.ipfsHash⟩,
    ?_, total.symm, by simp, fun _ => ⟨?_, by simp⟩⟩
  · simp only [mergeOne, bind_eq_ok, rejectIf_eq_ok, exists_const, okOr_eq_ok, pure_eq_ok,
      checkedAddSigned_eq_ok, agree_eq_ok, not_not, ne_eq]
    refine ⟨source, stored, owned, active, _, ⟨rfl, ?_⟩, _, ⟨rfl, ?_⟩, _, ⟨rfl, ?_⟩, _,
      ⟨rfl, ?_⟩, _, ⟨rfl, ?_⟩, _, ⟨fits, rfl⟩, rfl⟩ <;>
      rcases agrees with rfl | described
    · exact .inl rfl
    · exact .inr described.projectId
    · exact .inl rfl
    · exact .inr described.vintageYear
    · exact .inl rfl
    · exact .inr described.issuer
    · exact .inl rfl
    · exact .inr described.methodology
    · exact .inl rfl
    · exact .inr described.geography
  · exact ⟨congrArg some same.projectId, congrArg some same.vintageYear,
      congrArg some same.issuer, congrArg some same.methodology, congrArg some same.geography⟩

/-- The loop that retires the sources succeeds on stored credits. -/
theorem retireLoop_succeeds {ids : List BytesN32} {ledger : Ledger}
    (stored : ∀ id ∈ ids, ledger.getCredit id ≠ none) :
    ∃ after, ids.foldlM retireOne ledger = .ok after := by
  have looped : ∃ after, ids.foldlM retireOne ledger = .ok after ∧
      ∀ id, ledger.getCredit id ≠ none → after.getCredit id ≠ none := by
    refine foldlM_succeeds
      (fun _ (acc : Ledger) => ∀ id, ledger.getCredit id ≠ none → acc.getCredit id ≠ none)
      (fun _ there => there) ?_
    intro earlier id rest acc split kept
    have listed : id ∈ ids := by simp [split]
    obtain ⟨credit, there⟩ := Option.ne_none_iff_exists'.mp (kept id (stored id listed))
    refine ⟨acc.setCredit id { credit with status := .retired }, ?_, ?_⟩
    · simp [retireOne, there]
    · intro other known
      rw [Ledger.getCredit_setCredit]
      split
      · exact Option.some_ne_none _
      · exact kept other known
  obtain ⟨after, retired, -⟩ := looped
  exact ⟨after, retired⟩

theorem mergeCredits_succeeds {env : Env} {s : State} {caller : Address} {ids : List BytesN32} :
    (∃ result, exec sha256 s ⟨env, .mergeCredits caller ids⟩ = .ok result) ↔
      Merges env s caller ids := by
  constructor
  · rintro ⟨⟨ret, s'⟩, success⟩
    obtain ⟨current, dispatched⟩ := (exec_eq_ok sha256 s).mp success
    obtain ⟨id, merges, rfl⟩ := Result.id_eq_ok.mp dispatched
    have effect := mergeCredits_effect sha256 env s merges
    generalize s'.ledger = after at effect
    cases effect with
    | merged _ _ mergedId lot after authorised several owner active tonnes sources derived
        retired =>
        simp only [mergeCredits, bind_eq_ok, Ledger.nextCreditId_eq_ok, Prod.exists] at merges
        obtain ⟨_, -, _, -, acc, looped, _, -, _, _, ⟨room, -⟩, -⟩ := merges
        exact ⟨current, authorised, several, ⟨lot, sources⟩, mergeLoop_fits looped, room⟩
    | unchanged _ _ quiet => cases quiet
    | submitted _ sub newId submission hasAdmin authorised positive unique newDerived =>
        cases submission
  · rintro ⟨current, authorised, several, ⟨lot, sources⟩, fits, room⟩
    have looped : ∃ acc, ids.foldlM (mergeOne s.ledger caller) MergeTotals.start = .ok acc ∧
        Accumulates s.ledger lot ids acc := by
      refine foldlM_succeeds (Accumulates s.ledger lot) ⟨rfl, fun _ => rfl, by simp⟩ ?_
      intro earlier id rest acc split accumulates
      obtain ⟨source, stored, owned, active, same⟩ := sources id (by simp [split])
      apply mergeOne_succeeds accumulates stored owned active same
      exact fits (earlier ++ [id]) rest (by simp [split])
    obtain ⟨acc, looped, accumulates⟩ := looped
    have nonempty : ids ≠ [] := by
      rintro rfl
      exact absurd several (by decide)
    obtain ⟨described, hashed⟩ := accumulates.describes nonempty
    obtain ⟨ipfsHash, hashed⟩ := Option.ne_none_iff_exists'.mp hashed
    let mergedId := creditId sha256 (.string lot.projectId) s.ledger.creditNonce
    let merged : CreditMetadata :=
      { projectId := lot.projectId, issuer := lot.issuer, owner := caller,
        vintageYear := lot.vintageYear, methodology := lot.methodology, geography := lot.geography,
        tonnes := acc.totalTonnes, ipfsHash, status := .active, issuedAt := env.timestamp }
    have stored : ∀ id ∈ ids, (((s.ledger.advance 1).setCredit mergedId merged).addCreditToProject
        lot.projectId mergedId).getCredit id ≠ none := by
      intro id listed
      obtain ⟨source, stored, -⟩ := sources id listed
      simp only [Ledger.getCredit_addCreditToProject, Ledger.getCredit_setCredit,
        Ledger.getCredit_advance, stored]
      split <;> exact Option.some_ne_none _
    obtain ⟨after, retired⟩ := retireLoop_succeeds stored
    have success : mergeCredits sha256 env s caller ids =
        .ok (mergedId, { s with ledger := after }) := by
      simp only [mergeCredits, bind_eq_ok, rejectIf_eq_ok, Env.requireAuth_eq_ok, exists_const,
        pure_eq_ok, unwrap_eq_ok, Ledger.nextCreditId_eq_ok, Prod.exists, Prod.mk.injEq]
      exact ⟨authorised, by omega, acc, looped, _, described.projectId, _, _, ⟨room, rfl, rfl⟩,
        _, described.issuer, _, described.vintageYear, _, described.methodology, _,
        described.geography, _, hashed, after, retired, rfl, rfl⟩
    refine ⟨(.id mergedId, { s with ledger := after }), (exec_eq_ok sha256 s).mpr ⟨current, ?_⟩⟩
    exact Result.id_eq_ok.mpr ⟨mergedId, success, rfl⟩

/-! ## What changes -/

/-- A dispute or a merge that succeeds changes a credit. -/
theorem changes_credit {env : Env} {s s' : State} {call : Call} {ret : Ret}
    (ignores : IgnoresPause env s call) (h : exec sha256 s ⟨env, call⟩ = .ok (ret, s')) :
    s'.ledger.getCredit ≠ s.ledger.getCredit := by
  have effect := exec_effect sha256 s h
  intro same
  have statuses : s'.ledger.statusOf = s.ledger.statusOf := by
    funext id
    unfold Ledger.statusOf
    rw [same]
  cases call with
  | disputeCredit disputer id evidence =>
      obtain ⟨-, -, status, found, -, undisputed⟩ := ignores
      have disputed : s'.ledger.statusOf id = some .disputed := by
        generalize s'.ledger = after at effect
        cases effect with
        | restatused _ target credit new dispute there change trusted =>
            cases change
            simp
        | unchanged _ _ quiet => cases quiet
        | submitted _ sub newId submission hasAdmin authorised positive unique newDerived =>
            cases submission
      rw [statuses, found] at disputed
      exact undisputed (Option.some.inj disputed)
  | mergeCredits caller ids =>
      obtain ⟨mergedId, credit, -, -, sources, -, retired⟩ := effect.of_mergeCredits
      obtain ⟨id, listed⟩ := List.exists_mem_of_length_pos
        (Nat.lt_of_lt_of_le Nat.zero_lt_two ignores.several)
      obtain ⟨source, stored, active⟩ := sources id listed
      have after := (retireLoop_ok retired).statusOf id
      have before := Ledger.statusOf_of_stored stored
      simp only [listed, if_true, Ledger.statusOf_addCreditToProject, Ledger.statusOf_setCredit,
        Ledger.statusOf_advance, statuses, before, active] at after
      split at after <;> cases after
  | _ => cases ignores

/-- While the contract is paused, a call of another caller than the admin that is no dispute
and no merge leaves the credits alone. -/
theorem frozen_of_paused {env : Env} {s s' : State} {call : Call} {ret : Ret}
    (paused : s.roles.paused = true) (outsider : call.caller s.roles ≠ s.roles.admin)
    (undisputing : ∀ disputer id evidence, call ≠ .disputeCredit disputer id evidence)
    (unmerging : ∀ caller ids, call ≠ .mergeCredits caller ids)
    (h : exec sha256 s ⟨env, call⟩ = .ok (ret, s')) : s'.ledger = s.ledger := by
  have dispatched := ((exec_eq_ok sha256 s).mp h).2
  by_cases quiet : call.onCredits = false
  · exact dispatch_quiet sha256 env s quiet dispatched
  cases call with
  | disputeCredit disputer id evidence => exact absurd rfl (undisputing disputer id evidence)
  | mergeCredits caller ids => exact absurd rfl (unmerging caller ids)
  | expireCredit admin id =>
      simp only [dispatch, Result.unit_eq_ok, expireCredit, Roles.requireAdmin, bind_eq_ok,
        requireAdmin_eq_ok, exists_const] at dispatched
      exact absurd dispatched.1.1.1.symm outsider
  | resolveDispute admin id outcome =>
      simp only [dispatch, Result.unit_eq_ok, resolveDispute, Roles.requireAdmin, bind_eq_ok,
        requireAdmin_eq_ok, exists_const] at dispatched
      exact absurd dispatched.1.1.1.symm outsider
  | _ =>
      simp only [Call.onCredits, not_true_eq_false] at quiet <;>
      simp [dispatch, submitCredit, submitCreditWithSession, approveAndMint, flagCredit,
        markRetired, transferCredit, splitCredit, paused] at dispatched

/-- In every reachable state in which the contract is paused, a call of another caller than
the stored admin creates no credit and changes none if and only if it is not a dispute or a
merge that the guards of these two let through. -/
theorem paused_frozen_iff (inputs : List Invocation)
    (paused : ((machine sha256).state inputs).roles.paused = true) (env : Env) (call : Call)
    (outsider : call.caller ((machine sha256).state inputs).roles ≠
      ((machine sha256).state inputs).roles.admin) :
    (∀ ret s', exec sha256 ((machine sha256).state inputs) ⟨env, call⟩ = .ok (ret, s') →
      s'.ledger.getCredit = ((machine sha256).state inputs).ledger.getCredit) ↔
        ¬ IgnoresPause env ((machine sha256).state inputs) call := by
  constructor
  · intro frozen ignores
    have succeeds : ∃ result,
        exec sha256 ((machine sha256).state inputs) ⟨env, call⟩ = .ok result := by
      cases call with
      | disputeCredit disputer id evidence => exact disputeCredit_succeeds.mpr ignores
      | mergeCredits caller ids => exact mergeCredits_succeeds.mpr ignores
      | _ => cases ignores
    obtain ⟨⟨ret, s'⟩, success⟩ := succeeds
    exact changes_credit ignores success (frozen ret s' success)
  · intro heeds ret s' success
    have same : s'.ledger = ((machine sha256).state inputs).ledger := by
      apply frozen_of_paused paused outsider _ _ success
      · rintro disputer id evidence rfl
        exact heeds (disputeCredit_succeeds.mp ⟨_, success⟩)
      · rintro caller ids rfl
        exact heeds (mergeCredits_succeeds.mp ⟨_, success⟩)
    rw [same]

namespace Sample

/-- One active credit, in a contract that the admin pauses. -/
def pauseActive : List Invocation :=
  approve ++ [call admin (.pause admin)]

/-- One credit that is split in halves, in a contract that the admin pauses. -/
def pauseSplit : List Invocation :=
  approve ++ [call issuer (.splitCredit issuer (credit 0) 500000 1), call admin (.pause admin)]

/-- The verifier flags the active credit. -/
def flagActive : Invocation :=
  call verifier (.flagCredit verifier (credit 0) "late" 1)

/-- The verifier disputes the active credit. -/
def disputeActive : Invocation :=
  call verifier (.disputeCredit verifier (credit 0) "evidence")

/-- The issuer merges the two halves. -/
def mergeHalves : Invocation :=
  call issuer (.mergeCredits issuer
    [creditId BytesN32.mk (.bytes (credit 0)) 1, creditId BytesN32.mk (.bytes (credit 0)) 2])

end Sample

set_option maxRecDepth 100000 in
theorem pauseActive_paused :
    ((machine BytesN32.mk).state Sample.pauseActive).roles.paused = true ∧
      ((machine BytesN32.mk).state Sample.pauseActive).roles.admin = some Sample.admin :=
  ⟨rfl, rfl⟩

set_option maxRecDepth 100000 in
theorem pauseSplit_paused :
    ((machine BytesN32.mk).state Sample.pauseSplit).roles.paused = true ∧
      ((machine BytesN32.mk).state Sample.pauseSplit).roles.admin = some Sample.admin :=
  ⟨rfl, rfl⟩

/-- The verifier flags no credit while the contract is paused. -/
theorem paused_refuses_flag :
    ((machine BytesN32.mk).state Sample.pauseActive).roles.paused = true ∧
      ∀ ret s', exec BytesN32.mk ((machine BytesN32.mk).state Sample.pauseActive)
        Sample.flagActive = .ok (ret, s') →
          s'.ledger.getCredit =
            ((machine BytesN32.mk).state Sample.pauseActive).ledger.getCredit := by
  obtain ⟨paused, held⟩ := pauseActive_paused
  have outsider : Sample.flagActive.call.caller
      ((machine BytesN32.mk).state Sample.pauseActive).roles ≠
        ((machine BytesN32.mk).state Sample.pauseActive).roles.admin := by
    rw [held]
    decide
  have heeds : ¬ IgnoresPause Sample.flagActive.env
      ((machine BytesN32.mk).state Sample.pauseActive) Sample.flagActive.call :=
    fun ignores => ignores
  exact ⟨paused, (paused_frozen_iff Sample.pauseActive paused Sample.flagActive.env
    Sample.flagActive.call outsider).mpr heeds⟩

set_option maxRecDepth 100000 in
theorem disputeActive_succeeds : ∃ result, exec BytesN32.mk
    ((machine BytesN32.mk).state Sample.pauseActive) Sample.disputeActive = .ok result :=
  ⟨_, rfl⟩

set_option maxRecDepth 100000 in
theorem mergeHalves_succeeds : ∃ result, exec BytesN32.mk
    ((machine BytesN32.mk).state Sample.pauseSplit) Sample.mergeHalves = .ok result :=
  ⟨_, rfl⟩

/-- While the contract is paused, the verifier disputes a credit, and an owner merges two. -/
theorem paused_not_frozen :
    (((machine BytesN32.mk).state Sample.pauseActive).roles.paused = true ∧
      some Sample.verifier ≠ ((machine BytesN32.mk).state Sample.pauseActive).roles.admin ∧
      ∃ ret s', exec BytesN32.mk ((machine BytesN32.mk).state Sample.pauseActive)
          Sample.disputeActive = .ok (ret, s') ∧
        s'.ledger.getCredit ≠
          ((machine BytesN32.mk).state Sample.pauseActive).ledger.getCredit) ∧
    (((machine BytesN32.mk).state Sample.pauseSplit).roles.paused = true ∧
      some Sample.issuer ≠ ((machine BytesN32.mk).state Sample.pauseSplit).roles.admin ∧
      ∃ ret s', exec BytesN32.mk ((machine BytesN32.mk).state Sample.pauseSplit)
          Sample.mergeHalves = .ok (ret, s') ∧
        s'.ledger.getCredit ≠
          ((machine BytesN32.mk).state Sample.pauseSplit).ledger.getCredit) := by
  obtain ⟨paused, held⟩ := pauseActive_paused
  obtain ⟨paused', held'⟩ := pauseSplit_paused
  refine ⟨⟨paused, ?_, ?_⟩, paused', ?_, ?_⟩
  · rw [held]
    decide
  · obtain ⟨⟨ret, s'⟩, success⟩ := disputeActive_succeeds
    have ignores : IgnoresPause Sample.disputeActive.env
        ((machine BytesN32.mk).state Sample.pauseActive) Sample.disputeActive.call :=
      disputeCredit_succeeds.mp ⟨_, success⟩
    exact ⟨ret, s', success, changes_credit ignores success⟩
  · rw [held']
    decide
  · obtain ⟨⟨ret, s'⟩, success⟩ := mergeHalves_succeeds
    have ignores : IgnoresPause Sample.mergeHalves.env
        ((machine BytesN32.mk).state Sample.pauseSplit) Sample.mergeHalves.call :=
      mergeCredits_succeeds.mp ⟨_, success⟩
    exact ⟨ret, s', success, changes_credit ignores success⟩

end CarbonChain.Registry
