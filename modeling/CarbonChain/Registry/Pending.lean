import CarbonChain.Registry.Counters
import CarbonChain.Registry.Permanence
import CarbonChain.Registry.Vetting

/-!
# CreditRegistry: counting pending credits

The counter of a registered verifier (`contracts/credit_registry/src/storage.rs:180-208`)
is meant to be the number of the pending credits that were submitted while it was
registered. `expire_credit`, `dispute_credit` and `split_credit` take credits out of
`Pending` and leave the counters alone, and those calls that lower them do so for verifiers
registered after the submission as well.
-/

namespace CarbonChain.Registry

variable {sha256 : Bytes → BytesN32}

/-! ## What a call does to the pending credits -/

/-- Only calls of the credit lifecycle close or open pending credits. -/
theorem entryOf_quiet (s : State) {call : Call} (ret : Ret) (quiet : call.onCredits = false) :
    (entryOf s call ret).closes = none ∧ (entryOf s call ret).opens = [] := by
  cases call <;> first | exact ⟨rfl, rfl⟩ | cases quiet

theorem entryOf_submission {s : State} {call : Call} {sub : Submission} {id : BytesN32}
    (submission : call.submission = some sub) : entryOf s call (.id id) = .opened id := by
  cases call <;> first | rfl | cases submission

/-- The credits that an entry opens are among those that the call produces. -/
theorem entryOf_opens (s : State) (call : Call) (ret : Ret) :
    (entryOf s call ret).opens = [] ∨ (entryOf s call ret).opens = producedIds call ret := by
  unfold entryOf
  split <;> first | exact .inl rfl | exact .inr rfl | skip
  case h_3 => split <;> exact .inl rfl
  case h_4 => split <;> exact .inl rfl
  case h_5 => split <;> exact .inl rfl
  case h_6 => split <;> exact .inl rfl
  case h_7 =>
      split
      · exact .inr rfl
      · exact .inl rfl

theorem StatusChange.ne_pending {call : Call} {id : BytesN32} {old new : CreditStatus}
    (change : StatusChange call id old new) : new ≠ .pending := by
  cases change <;> decide

/-- A status change closes its credit if it was pending. -/
theorem StatusChange.entryOf {s : State} {call : Call} {id : BytesN32} {old new : CreditStatus}
    (change : StatusChange call id old new) (status : s.ledger.statusOf id = some old) :
    (Registry.entryOf s call .unit).closes = (if old = .pending then some id else none) ∧
      (Registry.entryOf s call .unit).opens = [] := by
  cases change with
  | flag verifier _ reason nonce _ open_ unflagged =>
      simp only [Registry.entryOf, status, Option.some.injEq]
      split <;> exact ⟨rfl, rfl⟩
  | expire admin _ _ open_ unexpired =>
      simp only [Registry.entryOf, status, Option.some.injEq]
      split <;> exact ⟨rfl, rfl⟩
  | dispute disputer _ evidence _ open_ undisputed =>
      simp only [Registry.entryOf, status, Option.some.injEq]
      split <;> exact ⟨rfl, rfl⟩
  | _ => exact ⟨rfl, rfl⟩

/-- A status change takes its credit out of `Pending`, or leaves the pending credits alone. -/
theorem StatusChange.pending_iff {s : State} {call : Call} {id : BytesN32}
    {old new : CreditStatus} (change : StatusChange call id old new)
    (before : s.ledger.statusOf id = some old) (i : BytesN32) :
    (if i = id then some new else s.ledger.statusOf i) = some .pending ↔
      s.ledger.statusOf i = some .pending ∧ (Registry.entryOf s call .unit).closes ≠ some i ∨
        i ∈ (Registry.entryOf s call .unit).opens := by
  have notPending := change.ne_pending
  obtain ⟨closes, opens⟩ := change.entryOf before
  rw [closes, opens]
  by_cases same : i = id
  · subst same
    rw [before]
    by_cases pending : old = .pending
    · simp [notPending, pending]
    · simp [notPending, pending]
  · have ne : (if old = .pending then some id else none) ≠ some i := by
      split
      · exact fun equal => same (Option.some.inj equal).symm
      · exact (Option.some_ne_none i).symm
    simp [same, ne]

/-- A split closes its parent and opens the children if the parent was pending. -/
theorem splitCredit_pending_iff {s : State} {caller : Address} {id child1Id child2Id : BytesN32}
    {splitTonnes : Int} {nonce : Nat} {original : CreditMetadata}
    (stored : s.ledger.getCredit id = some original)
    (absent1 : s.ledger.getCredit child1Id = none)
    (absent2 : s.ledger.getCredit child2Id = none) (i : BytesN32) :
    Ledger.statusOf ((((((s.ledger.advance 2).setCredit child1Id
      { original with tonnes := splitTonnes, owner := caller }).addCreditToProject
        original.projectId child1Id).setCredit child2Id
      { original with tonnes := original.tonnes - splitTonnes, owner := caller }
        ).addCreditToProject original.projectId child2Id).setCredit id
      { original with status := .retired }) i = some .pending ↔
      s.ledger.statusOf i = some .pending ∧
          (entryOf s (.splitCredit caller id splitTonnes nonce)
            (.pair child1Id child2Id)).closes ≠ some i ∨
        i ∈ (entryOf s (.splitCredit caller id splitTonnes nonce)
          (.pair child1Id child2Id)).opens := by
  have before := Ledger.statusOf_of_stored stored
  have ne1 := Ledger.ne_of_absent stored absent1
  have ne2 := Ledger.ne_of_absent stored absent2
  have unstored1 := Ledger.statusOf_of_absent absent1
  have unstored2 := Ledger.statusOf_of_absent absent2
  by_cases pending : original.status = .pending
  · have renewed : entryOf s (.splitCredit caller id splitTonnes nonce)
        (.pair child1Id child2Id) = .renewed id child1Id child2Id := by
      apply if_pos
      rw [before, pending]
    rw [renewed]
    by_cases same : i = id
    · simp [same, ne1.symm, ne2.symm, Tally.Entry.opens, Tally.Entry.closes]
    · by_cases child : i = child1Id ∨ i = child2Id
      · rcases child with rfl | rfl
        · simp [same, pending, Tally.Entry.opens]
        · simp [same, pending, Tally.Entry.opens]
      · obtain ⟨other1, other2⟩ := not_or.mp child
        simp [same, Ne.symm same, other1, other2, Tally.Entry.opens, Tally.Entry.closes]
  · have idle : entryOf s (.splitCredit caller id splitTonnes nonce)
        (.pair child1Id child2Id) = .idle := by
      apply if_neg
      rw [before, Option.some.injEq]
      exact pending
    rw [idle]
    by_cases same : i = id
    · simp [same, before, pending, Tally.Entry.opens]
    · by_cases child : i = child1Id ∨ i = child2Id
      · rcases child with rfl | rfl
        · simp [same, unstored1, pending, Tally.Entry.opens]
        · simp [same, unstored2, pending, Tally.Entry.opens]
      · obtain ⟨other1, other2⟩ := not_or.mp child
        simp [same, other1, other2, Tally.Entry.opens, Tally.Entry.closes]

/-- A merge leaves the pending credits alone: its sources and its product are active. -/
theorem RetireLoop.pending_iff {ids : List BytesN32} {mergedId : BytesN32}
    {merged : CreditMetadata} {ledger after : Ledger} (active : merged.status = .active)
    (sources : ∀ id ∈ ids, ledger.statusOf id = some .active)
    (absent : ledger.statusOf mergedId = none)
    (loop : RetireLoop ids (((ledger.advance 1).setCredit mergedId merged).addCreditToProject
      merged.projectId mergedId) after) (i : BytesN32) :
    after.statusOf i = some .pending ↔ ledger.statusOf i = some .pending := by
  rw [loop.statusOf]
  by_cases listed : i ∈ ids
  · rw [if_pos listed, sources i listed]
    simp
  · rw [if_neg listed]
    by_cases same : i = mergedId
    · subst same
      simp [absent, active]
    · simp [same]

/-- The pending credits after a call are those before it that the call does not close, and
those that it opens. -/
theorem Effect.pending_iff {env : Env} {s : State} {call : Call} {ret : Ret} {after : Ledger}
    (inj : Function.Injective sha256) (derived : s.ledger.Derived sha256)
    (effect : Effect sha256 env s call ret after) (i : BytesN32) :
    after.statusOf i = some .pending ↔
      s.ledger.statusOf i = some .pending ∧ (entryOf s call ret).closes ≠ some i ∨
        i ∈ (entryOf s call ret).opens := by
  cases effect with
  | unchanged _ _ quiet =>
      obtain ⟨closes, opens⟩ := entryOf_quiet s ret quiet
      simp [closes, opens]
  | submitted _ sub newId submission hasAdmin authorised positive unique newDerived =>
      rw [entryOf_submission submission]
      by_cases same : i = newId
      · simp [same, Tally.Entry.opens, Submission.credit]
      · simp [same, Tally.Entry.opens, Tally.Entry.closes]
  | approved verifier target nonce credit authorised registered stored pending first short =>
      have idle : entryOf s (.approveAndMint verifier target nonce) .unit = .idle :=
        if_neg (Nat.not_le_of_lt short)
      have kept := Ledger.statusOf_rewrite (s.ledger.setCreditApprovals target
        (s.ledger.getCreditApprovals target ++ [verifier])) credit stored rfl
      rw [idle, kept]
      simp [Tally.Entry.opens, Tally.Entry.closes]
  | minted verifier target nonce credit authorised registered stored pending first enough =>
      have counted : entryOf s (.approveAndMint verifier target nonce) .unit = .counted target :=
        if_pos enough
      rw [counted]
      by_cases same : i = target
      · simp [same, Tally.Entry.opens, Tally.Entry.closes]
      · simp [same, Ne.symm same, Tally.Entry.opens, Tally.Entry.closes]
  | restatused _ target credit status dispute stored change trusted =>
      rw [Ledger.statusOf_withDispute, Ledger.statusOf_setCredit]
      exact change.pending_iff (Ledger.statusOf_of_stored stored) i
  | transferred sender recipient target nonce credit authorised stored owned =>
      have idle : entryOf s (.transferCredit sender recipient target nonce) .unit = .idle := rfl
      have kept := Ledger.statusOf_rewrite s.ledger { credit with owner := recipient } stored rfl
      rw [idle, kept]
      simp [Tally.Entry.opens, Tally.Entry.closes]
  | split caller target splitTonnes nonce original child1Id child2Id authorised stored owned
      positive proper derived1 derived2 =>
      obtain ⟨-, absent1, absent2⟩ := derived.children inj derived1 derived2
      exact splitCredit_pending_iff stored absent1 absent2 i
  | merged caller ids mergedId merged _ authorised several owner active tonnes sources newDerived
      retired =>
      have idle : entryOf s (.mergeCredits caller ids) (.id mergedId) = .idle := rfl
      have absent := Ledger.statusOf_of_absent (derived.next inj newDerived)
      have live : ∀ id ∈ ids, s.ledger.statusOf id = some .active := by
        intro id listed
        obtain ⟨source, stored, -, status, -⟩ := sources id listed
        rw [Ledger.statusOf_of_stored stored, status]
      rw [idle, (retireLoop_ok retired).pending_iff active live absent]
      simp [Tally.Entry.opens, Tally.Entry.closes]

/-- The credits that a call opens are distinct, and nothing was stored under them. -/
theorem Effect.opens_fresh {env : Env} {s : State} {call : Call} {ret : Ret} {after : Ledger}
    (inj : Function.Injective sha256) (derived : s.ledger.Derived sha256)
    (effect : Effect sha256 env s call ret after) :
    (entryOf s call ret).opens.Nodup ∧
      ∀ i ∈ (entryOf s call ret).opens, s.ledger.getCredit i = none := by
  rcases entryOf_opens s call ret with none_ | produced
  · rw [none_]
    exact ⟨List.nodup_nil, nofun⟩
  · rw [produced]
    exact effect.produced_fresh inj derived

/-! ## The tally of a run -/

/-- The credit was created while the verifier was registered. -/
def CreatedWhile (log : Log) (v : Address) (id : BytesN32) : Prop :=
  ∃ event ∈ log, event.pre.ledger.getCredit id = none ∧
    event.post.ledger.getCredit id ≠ none ∧ v ∈ event.pre.roles.verifierSet

instance (log : Log) (v : Address) (id : BytesN32) : Decidable (CreatedWhile log v id) :=
  inferInstanceAs (Decidable (∃ event ∈ log, _))

theorem createdWhile_snoc {log : Log} {event : Event State Invocation Ret} {v : Address}
    {id : BytesN32} : CreatedWhile (log ++ [event]) v id ↔
      CreatedWhile log v id ∨ (event.pre.ledger.getCredit id = none ∧
        event.post.ledger.getCredit id ≠ none ∧ v ∈ event.pre.roles.verifierSet) :=
  Machine.exists_snoc

/-- The pending credits that were created while the verifier was registered. -/
def pendingOf (log : Log) (s : State) (v : Address) : Finset BytesN32 :=
  s.ledger.credit.keys.filter fun id =>
    s.ledger.statusOf id = some .pending ∧ CreatedWhile log v id

@[simp] theorem mem_pendingOf {log : Log} {s : State} {v : Address} {id : BytesN32} :
    id ∈ pendingOf log s v ↔ s.ledger.statusOf id = some .pending ∧ CreatedWhile log v id := by
  unfold pendingOf
  rw [Finset.mem_filter, and_iff_right_iff_imp]
  rintro ⟨pending, -⟩
  obtain ⟨credit, stored, -⟩ := Ledger.statusOf_eq_some.mp pending
  exact Finmap.mem_keys.mpr (Finmap.mem_of_lookup_eq_some stored)

/-- The registered verifiers with their pending credits and counters. -/
def tally (log : Log) (s : State) : Tally Address BytesN32 where
  watching := (· ∈ s.roles.verifierSet)
  opened := pendingOf log s
  count := s.verifiers.getVerifierPendingCount

/-- What a run keeps while its counters are exact. -/
structure PendingInv (sha256 : Bytes → BytesN32) (log : Log) (s : State) : Prop where
  derived : s.ledger.Derived sha256
  distinct : s.roles.verifierSet.Nodup
  created : ∀ v id, CreatedWhile log v id → s.ledger.getCredit id ≠ none
  exact_ : (tally log s).Exact
  settled : (tally log s).Settled

theorem PendingInv.follows (inj : Function.Injective sha256) {log : Log}
    {event : Event State Invocation Ret} (inv : PendingInv sha256 log event.pre)
    (commits : (machine sha256).Commits event) :
    (tally log event.pre).Follows (entryOf event.pre event.input.call event.output)
      (tally (log ++ [event]) event.post) := by
  have effect := exec_effect sha256 event.pre commits
  have dispatched := ((exec_eq_ok sha256 event.pre).mp commits).2
  obtain ⟨watches, -, idle⟩ := dispatch_watches dispatched
  have counted := dispatch_count inv.distinct dispatched
  have pending_iff := effect.pending_iff inj inv.derived
  have opens_fresh := effect.opens_fresh inj inv.derived
  refine ⟨watches, ?_, ?_, ?_, ?_, opens_fresh.1, idle⟩
  · intro v i
    show i ∈ pendingOf (log ++ [event]) event.post v ↔ i ∈ pendingOf log event.pre v ∧ _ ∨ _
    rw [mem_pendingOf, mem_pendingOf, createdWhile_snoc]
    constructor
    · rintro ⟨pending, created⟩
      rcases (pending_iff i).mp pending with ⟨before, unclosed⟩ | opened
      · left
        rcases created with earlier | ⟨absent, -, -⟩
        · exact ⟨⟨before, earlier⟩, unclosed⟩
        · exact absurd absent (Ledger.stored_of_statusOf before)
      · right
        rcases created with earlier | ⟨-, -, registered⟩
        · exact absurd (opens_fresh.2 i opened) (inv.created v i earlier)
        · exact ⟨opened, registered⟩
    · rintro (⟨⟨before, earlier⟩, unclosed⟩ | ⟨opened, registered⟩)
      · exact ⟨(pending_iff i).mpr (.inl ⟨before, unclosed⟩), .inl earlier⟩
      · have pending := (pending_iff i).mpr (.inr opened)
        exact ⟨pending, .inr ⟨opens_fresh.2 i opened, Ledger.stored_of_statusOf pending,
          registered⟩⟩
  · intro v watching
    exact (counted v).trans (if_pos watching)
  · intro v away
    exact (counted v).trans (if_neg away)
  · intro i opens v
    show i ∉ pendingOf log event.pre v
    intro member
    obtain ⟨pending, -⟩ := mem_pendingOf.mp member
    exact Ledger.stored_of_statusOf pending (opens_fresh.2 i opens)

/-! ## Exact counters -/

/-- The event lowers the counters for a pending credit only if it was created while each
verifier that is registered now was registered, or nothing pending was created while the
verifier was. It takes no credit out of `Pending` for which a counter stands. -/
def CountKept (log : Log) (event : Event State Invocation Ret) : Prop :=
  match event.input.call with
  | .approveAndMint _ id _ =>
      event.pre.roles.getRequiredApprovals ≤
        (event.pre.ledger.getCreditApprovals id).length + 1 →
          ∀ v ∈ event.pre.roles.verifierSet, CreatedWhile log v id ∨
            pendingOf log event.pre v = ∅
  | .flagCredit _ id _ _ => event.pre.ledger.statusOf id = some .pending →
      ∀ v ∈ event.pre.roles.verifierSet, CreatedWhile log v id ∨ pendingOf log event.pre v = ∅
  | .expireCredit _ id | .disputeCredit _ id _ => event.pre.ledger.statusOf id = some .pending →
      ∀ v ∈ event.pre.roles.verifierSet, ¬ CreatedWhile log v id
  | .splitCredit _ id _ _ => event.pre.ledger.statusOf id = some .pending →
      ∀ v, v ∉ event.pre.roles.verifierSet
  | _ => True

/-- The condition is what the tally calls fair. -/
theorem countKept_iff {log : Log} {event : Event State Invocation Ret}
    (commits : (machine sha256).Commits event) :
    CountKept log event ↔
      (tally log event.pre).Fair (entryOf event.pre event.input.call event.output) := by
  obtain ⟨pre, ⟨env, call⟩, ret, post⟩ := event
  have effect : Effect sha256 env pre call ret post.ledger := exec_effect sha256 pre commits
  cases call with
  | approveAndMint verifier id nonce =>
      obtain ⟨credit, stored, pending, -⟩ := effect.of_approveAndMint
      have pending : pre.ledger.statusOf id = some .pending :=
        Ledger.statusOf_eq_some.mpr ⟨credit, stored, pending⟩
      by_cases enough : pre.roles.getRequiredApprovals ≤
          (pre.ledger.getCreditApprovals id).length + 1
      · simp [CountKept, entryOf, Tally.Fair, tally, enough, pending]
      · simp [CountKept, entryOf, Tally.Fair, enough]
  | flagCredit verifier id reason nonce =>
      by_cases pending : pre.ledger.statusOf id = some .pending
      · simp [CountKept, entryOf, Tally.Fair, tally, pending]
      · simp [CountKept, entryOf, Tally.Fair, pending]
  | expireCredit admin id =>
      by_cases pending : pre.ledger.statusOf id = some .pending
      · simp [CountKept, entryOf, Tally.Fair, tally, pending]
      · simp [CountKept, entryOf, Tally.Fair, pending]
  | disputeCredit disputer id evidence =>
      by_cases pending : pre.ledger.statusOf id = some .pending
      · simp [CountKept, entryOf, Tally.Fair, tally, pending]
      · simp [CountKept, entryOf, Tally.Fair, pending]
  | splitCredit caller id splitTonnes nonce =>
      obtain ⟨original, child1Id, child2Id, rfl, -⟩ := effect.of_splitCredit
      by_cases pending : pre.ledger.statusOf id = some .pending
      · simp [CountKept, entryOf, Tally.Fair, tally, pending]
      · simp [CountKept, entryOf, Tally.Fair, pending]
  | submitCredit => cases ret <;> exact Iff.rfl
  | submitCreditWithSession => cases ret <;> exact Iff.rfl
  | _ => exact Iff.rfl

theorem PendingInv.step (inj : Function.Injective sha256) {log : Log}
    {event : Event State Invocation Ret} (inv : PendingInv sha256 log event.pre)
    (kept : CountKept log event) (commits : (machine sha256).Commits event) :
    PendingInv sha256 (log ++ [event]) event.post := by
  have effect := exec_effect sha256 event.pre commits
  have follows := inv.follows inj commits
  have fair := (countKept_iff commits).mp kept
  refine ⟨effect.derived inv.derived, ?_, ?_, ?_, follows.settled inv.exact_ inv.settled⟩
  · exact (dispatch_watches ((exec_eq_ok sha256 event.pre).mp commits).2).2.1 inv.distinct
  · intro v id created
    rcases createdWhile_snoc.mp created with earlier | ⟨-, stored, -⟩
    · exact effect.stays_stored inj inv.derived (inv.created v id earlier)
    · exact stored
  · exact (follows.exact_iff inv.exact_ inv.settled).mpr fair

/-- The counter of every registered verifier is the number of the pending credits that were
created while it was registered, and the admin can remove the verifier, with the current
nonce, if and only if there are none. -/
def CountsExact (log : Log) (s : State) : Prop :=
  ∀ v ∈ s.roles.verifierSet,
    s.verifiers.getVerifierPendingCount v = (pendingOf log s v).card ∧
      ∀ env admin, s.roles.admin = some admin → env.auth admin = true →
        s.getNonce admin + 1 < 2 ^ 64 →
          ((∃ s', removeVerifier env s admin v (s.getNonce admin) = .ok s') ↔
            pendingOf log s v = ∅)

theorem countsExact_iff {log : Log} {s : State} : CountsExact log s ↔ (tally log s).Exact := by
  constructor
  · intro counts v registered
    exact (counts v registered).1
  · intro exact_ v registered
    have count : s.verifiers.getVerifierPendingCount v = (pendingOf log s v).card :=
      exact_ v registered
    refine ⟨count, ?_⟩
    intro env admin stored authorised room
    rw [removeVerifier_succeeds stored authorised room registered, count, Finset.card_eq_zero]

/-- The pending counters are exact in exactly the runs whose approvals that mint and whose
flags lower a counter only for a credit that it counts, or when there is nothing to count,
and that expire, dispute and split no pending credit for which a counter stands. -/
theorem counts_exact_iff (inj : Function.Injective sha256) (inputs : List Invocation) :
    (machine sha256).Always CountsExact inputs ↔
      Machine.Admits CountKept ((machine sha256).log inputs) := by
  have start : CountsExact [] (machine sha256).init := by
    intro v registered
    cases registered
  refine (machine sha256).always_iff_admits (PendingInv sha256) ?_ start ?_ ?_ inputs
  · refine ⟨derived_init, List.nodup_nil, ?_, ?_, ?_⟩
    · rintro v id ⟨event, logged, -⟩
      cases logged
    · intro v registered
      cases registered
    · intro v _
      exact ⟨rfl, rfl⟩
  · intro log event inv commits
    rw [countsExact_iff, countKept_iff commits]
    exact (inv.follows inj commits).exact_iff inv.exact_ inv.settled
  · exact fun log event inv kept commits => inv.step inj kept commits

/-- A call that takes no credit keeps the counters fair. -/
theorem countKept_of_unnamed {log : Log} {event : Event State Invocation Ret}
    (unnamed : event.input.call.creditArguments = []) : CountKept log event := by
  unfold CountKept
  split <;> first | trivial | skip
  all_goals
    next named =>
      rw [named] at unnamed
      cases unnamed

set_option maxRecDepth 100000 in
/-- The verifier was registered before the credit that it approves was submitted. -/
theorem approve_counts_exact : (machine BytesN32.mk).Always CountsExact Sample.approve := by
  apply (counts_exact_iff BytesN32.mk_injective Sample.approve).mpr
  have unnamed : ∀ event ∈ (machine BytesN32.mk).log (Sample.setup 1 ++ [Sample.submit 0]),
      event.input.call.creditArguments = [] := by
    decide
  have created : CreatedWhile ((machine BytesN32.mk).log (Sample.setup 1 ++ [Sample.submit 0]))
      Sample.verifier (Sample.credit 0) := by
    decide
  have approved : Sample.approve = (Sample.setup 1 ++ [Sample.submit 0]) ++
      [Sample.call Sample.verifier (.approveAndMint Sample.verifier (Sample.credit 0) 0)] := rfl
  rw [approved, ((machine BytesN32.mk).snoc_of_ok rfl).2, Machine.admits_snoc]
  refine ⟨Machine.admits_of_forall ?_, ?_⟩
  · exact fun event logged before => countKept_of_unnamed (unnamed event logged)
  · intro _ v registered
    rw [List.mem_singleton.mp registered]
    exact .inl created

set_option maxRecDepth 100000 in
/-- The dispute takes the credit out of `Pending`, and the counter of the verifier stays at
one. -/
theorem disputed_pending_counted :
    Function.Injective BytesN32.mk ∧
      ¬ (machine BytesN32.mk).Always CountsExact Sample.submitAndDispute := by
  refine ⟨BytesN32.mk_injective, ?_⟩
  intro always
  have now := (always _ [] (List.append_nil _).symm Sample.verifier (by decide)).1
  have empty : (pendingOf ((machine BytesN32.mk).log Sample.submitAndDispute)
      ((machine BytesN32.mk).state Sample.submitAndDispute) Sample.verifier).card = 0 := by
    decide
  rw [empty] at now
  cases now

end CarbonChain.Registry
