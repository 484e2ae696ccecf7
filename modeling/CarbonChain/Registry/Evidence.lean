import CarbonChain.Registry.Permanence
import CarbonChain.Registry.Vetting

/-!
# CreditRegistry: dispute evidence

`dispute_credit` (`contracts/credit_registry/src/lib.rs:802-818`) stores evidence under the
credit that it disputes, and `resolve_dispute` (`:820-846`) removes it when the dispute
ends. Three other entry points take a disputed credit out of the dispute and leave the
evidence behind: `flag_credit`, `expire_credit` and `split_credit`, whose children are
disputed besides, without any evidence.
-/

namespace CarbonChain.Registry

variable {sha256 : Bytes → BytesN32}

/-- Evidence is stored for exactly the disputed credits. -/
def Ledger.Evidenced (ledger : Ledger) : Prop :=
  ∀ id, ledger.dispute.lookup id ≠ none ↔ ledger.statusOf id = some .disputed

/-- The credit that a call takes out of whatever state it is in, other than by a resolution. -/
def Call.overtakes : Call → Option BytesN32
  | .flagCredit _ id _ _ | .expireCredit _ id | .splitCredit _ id _ _ => some id
  | _ => none

/-- The evidence after a call. -/
def Call.evidence (dispute : Store BytesN32 String) : Call → Store BytesN32 String
  | .disputeCredit _ id evidence => dispute.insert id evidence
  | .resolveDispute _ id _ => dispute.erase id
  | _ => dispute

/-! ## What a call does to the evidence -/

namespace Ledger

variable (ledger : Ledger) (id : BytesN32)

@[simp, grind =] theorem dispute_setCredit (credit : CreditMetadata) :
    (ledger.setCredit id credit).dispute = ledger.dispute := rfl

@[simp, grind =] theorem dispute_advance (n : Nat) :
    (ledger.advance n).dispute = ledger.dispute := rfl

@[simp, grind =] theorem dispute_addCreditToProject (projectId : String) :
    (ledger.addCreditToProject projectId id).dispute = ledger.dispute := rfl

@[simp, grind =] theorem dispute_setCreditByProjectVintage (projectId : String)
    (vintageYear : Nat) :
    (ledger.setCreditByProjectVintage projectId vintageYear id).dispute = ledger.dispute := rfl

@[simp, grind =] theorem dispute_setCreditApprovals (approvals : List Address) :
    (ledger.setCreditApprovals id approvals).dispute = ledger.dispute := rfl

@[simp, grind =] theorem dispute_removeCreditApprovals :
    (ledger.removeCreditApprovals id).dispute = ledger.dispute := rfl

end Ledger

theorem retireLoop_dispute {ids : List BytesN32} {before after : Ledger}
    (h : ids.foldlM retireOne before = .ok after) : after.dispute = before.dispute :=
  retireLoop_keeps (fun acc => acc.dispute = before.dispute) (fun _ _ _ _ same => same) rfl h

theorem exec_dispute {env : Env} {s s' : State} {call : Call} {ret : Ret}
    (h : exec sha256 s ⟨env, call⟩ = .ok (ret, s')) :
    s'.ledger.dispute = call.evidence s.ledger.dispute := by
  have dispatched := ((exec_eq_ok sha256 s).mp h).2
  by_cases quiet : call.onCredits = false
  · rw [dispatch_quiet sha256 env s quiet dispatched]
    cases call <;> first | rfl | cases quiet
  cases call with
  | mergeCredits caller ids =>
      obtain ⟨mergedId, credit, -, -, -, -, retired⟩ := (exec_effect sha256 s h).of_mergeCredits
      rw [retireLoop_dispute retired]
      rfl
  | _ =>
      simp only [Call.onCredits, not_true_eq_false] at quiet <;>
      simp only [dispatch, Result.unit_eq_ok, Result.id_eq_ok, Result.pair_eq_ok, submitCredit,
        submitCreditWithSession, approveAndMint, flagCredit, markRetired, transferCredit,
        splitCredit, expireCredit, disputeCredit, resolveDispute, Ledger.nextCreditId_eq_ok,
        bind_eq_ok, pure_eq_ok, Prod.exists, Prod.mk.injEq, ite_eq_iff] at dispatched <;>
      simp only [Call.evidence] <;>
      grind

/-! ## What a call does to the disputed credits -/

/-- The event takes no disputed credit out of its dispute but by a resolution. -/
def SparesDisputed (event : Event State Invocation Ret) : Prop :=
  ∀ id, event.input.call.overtakes = some id → event.pre.ledger.statusOf id ≠ some .disputed

theorem overtakes_of_submission {call : Call} {sub : Submission}
    (submission : call.submission = some sub) : call.overtakes = none := by
  cases call <;> first | rfl | cases submission

theorem overtakes_of_quiet {call : Call} (quiet : call.onCredits = false) :
    call.overtakes = none := by
  cases call <;> first | rfl | cases quiet

/-- The disputed credits after a call, as far as it spares the disputed ones. -/
def Call.disputed (disputed : BytesN32 → Prop) : Call → BytesN32 → Prop
  | .disputeCredit _ target _, id => id = target ∨ disputed id
  | .resolveDispute _ target _, id => id ≠ target ∧ disputed id
  | _, id => disputed id

theorem Call.disputed_evidence (call : Call) (dispute : Store BytesN32 String) (id : BytesN32) :
    (call.evidence dispute).lookup id ≠ none ↔
      call.disputed (fun other => dispute.lookup other ≠ none) id := by
  unfold Call.evidence Call.disputed
  split <;> simp only [Store.lookup_insert_ite, Store.lookup_erase_ite] <;> grind

theorem StatusChange.disputed_iff {ledger : Ledger} {call : Call} {target : BytesN32}
    {old new : CreditStatus} (change : StatusChange call target old new)
    (found : ledger.statusOf target = some old)
    (spares : ∀ id, call.overtakes = some id → ledger.statusOf id ≠ some .disputed)
    (id : BytesN32) :
    (if id = target then some new else ledger.statusOf id) = some .disputed ↔
      call.disputed (fun other => ledger.statusOf other = some .disputed) id := by
  cases change <;> simp only [Call.overtakes, Call.disputed] at spares ⊢ <;> grind

/-- A call that spares the disputed credits adds those that it disputes, and takes away the
one that it resolves. -/
theorem Effect.disputed_iff {env : Env} {s : State} {call : Call} {ret : Ret} {after : Ledger}
    (inj : Function.Injective sha256) (derived : s.ledger.Derived sha256)
    (effect : Effect sha256 env s call ret after)
    (spares : ∀ id, call.overtakes = some id → s.ledger.statusOf id ≠ some .disputed)
    (id : BytesN32) : after.statusOf id = some .disputed ↔
      call.disputed (fun other => s.ledger.statusOf other = some .disputed) id := by
  cases effect with
  | unchanged _ _ quiet => cases call <;> first | rfl | cases quiet
  | submitted _ sub newId submission hasAdmin authorised positive unique newDerived =>
      have fresh := Ledger.statusOf_of_absent (derived.next inj newDerived)
      have kept : call.disputed (fun other => s.ledger.statusOf other = some .disputed) id ↔
          s.ledger.statusOf id = some .disputed := by
        cases call <;> first | rfl | cases submission
      rw [kept]
      simp only [Ledger.statusOf_addCreditToProject, Ledger.statusOf_setCreditByProjectVintage,
        Ledger.statusOf_setCredit, Ledger.statusOf_advance, Submission.credit]
      grind
  | approved verifier target nonce found authorised registered there pending first short =>
      rw [Ledger.statusOf_rewrite (s.ledger.setCreditApprovals target _) found there rfl]
      rfl
  | minted verifier target nonce found authorised registered there pending first enough =>
      have before := Ledger.statusOf_of_stored there
      simp only [Ledger.statusOf_removeCreditApprovals, Ledger.statusOf_setCredit,
        Ledger.statusOf_setCreditApprovals, Call.disputed]
      grind
  | restatused _ target found status dispute there change trusted =>
      rw [Ledger.statusOf_withDispute, Ledger.statusOf_setCredit]
      exact change.disputed_iff (Ledger.statusOf_of_stored there) spares id
  | transferred sender recipient target nonce found authorised there owned =>
      rw [Ledger.statusOf_rewrite s.ledger { found with owner := recipient } there rfl]
      rfl
  | split caller target splitTonnes nonce original child1Id child2Id authorised there owned
      positive proper derived1 derived2 =>
      obtain ⟨siblings, absent1, absent2⟩ := derived.children inj derived1 derived2
      have before := Ledger.statusOf_of_stored there
      have undisputed : original.status ≠ .disputed := by
        intro disputed
        exact spares target rfl (before.trans (congrArg some disputed))
      have none1 := Ledger.statusOf_of_absent absent1
      have none2 := Ledger.statusOf_of_absent absent2
      simp only [Ledger.statusOf_setCredit, Ledger.statusOf_addCreditToProject,
        Ledger.statusOf_advance, Call.disputed]
      grind
  | merged caller ids mergedId merged _ authorised several owner active tonnes sources newDerived
      retired =>
      have fresh := Ledger.statusOf_of_absent (derived.next inj newDerived)
      have live : ∀ other ∈ ids, s.ledger.statusOf other = some .active := by
        intro other listed
        obtain ⟨source, found, -, live, -⟩ := sources other listed
        exact Ledger.statusOf_eq_some.mpr ⟨source, found, live⟩
      rw [(retireLoop_ok retired).statusOf]
      simp only [Ledger.statusOf_setCredit, Ledger.statusOf_addCreditToProject,
        Ledger.statusOf_advance, Call.disputed]
      grind

theorem StatusChange.overtaken {call : Call} {target id : BytesN32} {old new : CreditStatus}
    (change : StatusChange call target old new) (overtakes : call.overtakes = some id) :
    target = id ∧ new ≠ .disputed := by
  cases change <;> simp_all [Call.overtakes]

/-- A call takes the credit that it overtakes out of dispute. -/
theorem Effect.overtaken {env : Env} {s : State} {call : Call} {ret : Ret} {after : Ledger}
    (effect : Effect sha256 env s call ret after) {id : BytesN32}
    (overtakes : call.overtakes = some id) : after.statusOf id ≠ some .disputed := by
  cases effect with
  | unchanged _ _ quiet =>
      rw [overtakes_of_quiet quiet] at overtakes
      cases overtakes
  | submitted _ sub newId submission hasAdmin authorised positive unique newDerived =>
      rw [overtakes_of_submission submission] at overtakes
      cases overtakes
  | restatused _ target found status dispute there change trusted =>
      obtain ⟨rfl, undisputed⟩ := change.overtaken overtakes
      simpa using undisputed
  | split caller target splitTonnes nonce original child1Id child2Id authorised there owned
      positive proper derived1 derived2 =>
      obtain rfl := Option.some.inj overtakes
      simp
  | _ => cases overtakes

/-! ## Runs -/

theorem evidence_of_overtakes {call : Call} {id : BytesN32} (overtakes : call.overtakes = some id)
    (dispute : Store BytesN32 String) : call.evidence dispute = dispute := by
  cases call <;> first | rfl | cases overtakes

/-- From evidence for exactly the disputed credits, a call keeps it so if and only if it takes
no credit out of dispute but by a resolution. -/
theorem evidenced_step (inj : Function.Injective sha256) {event : Event State Invocation Ret}
    (derived : event.pre.ledger.Derived sha256) (evidenced : event.pre.ledger.Evidenced)
    (commits : (machine sha256).Commits event) :
    event.post.ledger.Evidenced ↔ SparesDisputed event := by
  have effect := exec_effect sha256 event.pre commits
  have written := exec_dispute commits
  constructor
  · intro after id overtakes disputed
    apply effect.overtaken overtakes
    rw [← after id, written, evidence_of_overtakes overtakes, evidenced id]
    exact disputed
  · intro spares id
    rw [written, Call.disputed_evidence, effect.disputed_iff inj derived spares]
    have same : (fun other => event.pre.ledger.dispute.lookup other ≠ none) =
        fun other => event.pre.ledger.statusOf other = some .disputed :=
      funext fun other => propext (evidenced other)
    rw [same]

/-- Evidence is stored for exactly the disputed credits, at every moment, in exactly the runs
in which no successful `flag_credit`, `expire_credit` or `split_credit` takes a disputed
credit. -/
theorem evidenced_iff (inj : Function.Injective sha256) (inputs : List Invocation) :
    (machine sha256).Always (fun _ s => s.ledger.Evidenced) inputs ↔
      Machine.Admits (fun _ event => SparesDisputed event) ((machine sha256).log inputs) := by
  have start : (machine sha256).init.ledger.Evidenced := by
    intro id
    have nothing : (machine sha256).init.ledger.statusOf id = none := rfl
    have empty : (machine sha256).init.ledger.dispute.lookup id = none := rfl
    simp [nothing, empty]
  refine (machine sha256).always_iff_admits
    (fun _ s => s.ledger.Derived sha256 ∧ s.ledger.Evidenced) ?_ start ?_ ?_ inputs
  · exact ⟨derived_init, start⟩
  · exact fun log event inv commits => evidenced_step inj inv.1 inv.2 commits
  · intro log event inv spares commits
    exact ⟨(exec_effect sha256 event.pre commits).derived inv.1,
      (evidenced_step inj inv.1 inv.2 commits).mpr spares⟩

set_option maxRecDepth 100000 in
/-- A dispute that the admin resolves leaves no evidence behind. -/
theorem resolved_dispute_evidenced :
    (machine BytesN32.mk).Always (fun _ s => s.ledger.Evidenced)
      (Sample.approveAndDispute ++ [Sample.restore]) := by
  apply (evidenced_iff BytesN32.mk_injective _).mpr
  have spared : ∀ event ∈ (machine BytesN32.mk).log (Sample.approveAndDispute ++ [Sample.restore]),
      event.input.call.overtakes = none := by
    decide
  exact Machine.admits_of_none spared

namespace Sample

/-- What the verifier, the admin and the owner may do to the disputed credit of the sample. -/
def overtakeDispute : List Invocation :=
  [call verifier (.flagCredit verifier (credit 0) "late" 1),
   call admin (.expireCredit admin (credit 0)),
   call issuer (.splitCredit issuer (credit 0) 400000 1)]

end Sample

set_option maxRecDepth 100000 in
/-- The verifier flags the disputed credit, the admin expires it or the owner splits it, and
the evidence is still there. -/
theorem overtaken_evidence_stays :
    Function.Injective BytesN32.mk ∧
      ∀ overtake ∈ Sample.overtakeDispute, ¬ (machine BytesN32.mk).Always
        (fun _ s => s.ledger.Evidenced) (Sample.approveAndDispute ++ [overtake]) := by
  have stays : ∀ overtake ∈ Sample.overtakeDispute,
      let ledger := ((machine BytesN32.mk).state (Sample.approveAndDispute ++ [overtake])).ledger
      ledger.dispute.lookup (Sample.credit 0) ≠ none ∧
        ledger.statusOf (Sample.credit 0) ≠ some .disputed := by
    decide
  refine ⟨BytesN32.mk_injective, ?_⟩
  intro overtake listed evidenced
  have now := evidenced _ [] (List.append_nil _).symm (Sample.credit 0)
  obtain ⟨stored, undisputed⟩ := stays overtake listed
  exact undisputed (now.mp stored)

end CarbonChain.Registry
