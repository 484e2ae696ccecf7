import CarbonChain.Registry.Evolution

/-!
# CreditRegistry: which credits are vetted

A credit is vetted when enough distinct verifiers approved it, or when it comes by a split
or a merge from vetted credits. Everything that makes a credit active goes through the
approvals or through vetted sources, except `resolve_dispute` with outcome 0
(`contracts/credit_registry/src/lib.rs:820-846`), which makes any disputed credit active,
whatever it was before it was disputed.
-/

namespace CarbonChain.Registry

abbrev Log := List (Event State Invocation Ret)

/-- `verifier` called `approve_and_mint` on `id` with success, as a registered verifier. -/
def ApprovedBy (log : Log) (id : BytesN32) (verifier : Address) : Prop :=
  ∃ event ∈ log, (∃ nonce, event.input.call = .approveAndMint verifier id nonce) ∧
    verifier ∈ event.pre.roles.verifierSet

/-- `child` is a child of a split of `parent`. -/
def SplitFrom (log : Log) (parent child : BytesN32) : Prop :=
  ∃ event ∈ log, ∃ caller splitTonnes nonce child1Id child2Id,
    event.input.call = .splitCredit caller parent splitTonnes nonce ∧
      event.output = .pair child1Id child2Id ∧ (child = child1Id ∨ child = child2Id)

/-- `id` was produced by a merge of `sources`. -/
def MergedFrom (log : Log) (sources : List BytesN32) (id : BytesN32) : Prop :=
  ∃ event ∈ log, ∃ caller, event.input.call = .mergeCredits caller sources ∧
    event.output = .id id

/-- The least relation by which a credit is vetted at threshold `k`. -/
inductive Vetted (log : Log) (k : Nat) : BytesN32 → Prop where
  | approved (id : BytesN32) (verifiers : List Address) (distinct : verifiers.Nodup)
      (enough : k ≤ verifiers.length) (each : ∀ v ∈ verifiers, ApprovedBy log id v) :
      Vetted log k id
  | child (parent id : BytesN32) (born : SplitFrom log parent id) (vetted : Vetted log k parent) :
      Vetted log k id
  | merged (sources : List BytesN32) (id : BytesN32) (born : MergedFrom log sources id)
      (vetted : ∀ source ∈ sources, Vetted log k source) : Vetted log k id

/-- The credit, or one that it comes from by splits, was active after some event. -/
inductive WasActive (log : Log) : BytesN32 → Prop where
  | seen (event : Event State Invocation Ret) (logged : event ∈ log) (id : BytesN32)
      (credit : CreditMetadata) (stored : event.post.ledger.getCredit id = some credit)
      (active : credit.status = .active) : WasActive log id
  | child (parent id : BytesN32) (born : SplitFrom log parent id)
      (wasActive : WasActive log parent) : WasActive log id

/-- Only credits that were active before are restored to active. -/
def RestoresActive (log : Log) (event : Event State Invocation Ret) : Prop :=
  ∀ id, event.input.call.restores = some id → WasActive log id

/-! ## Longer logs -/

theorem ApprovedBy.mono {log log' : Log} {id : BytesN32} {verifier : Address}
    (sub : log ⊆ log') (h : ApprovedBy log id verifier) : ApprovedBy log' id verifier := by
  obtain ⟨event, logged, facts⟩ := h
  exact ⟨event, sub logged, facts⟩

theorem SplitFrom.mono {log log' : Log} {parent child : BytesN32} (sub : log ⊆ log')
    (h : SplitFrom log parent child) : SplitFrom log' parent child := by
  obtain ⟨event, logged, facts⟩ := h
  exact ⟨event, sub logged, facts⟩

theorem MergedFrom.mono {log log' : Log} {sources : List BytesN32} {id : BytesN32}
    (sub : log ⊆ log') (h : MergedFrom log sources id) : MergedFrom log' sources id := by
  obtain ⟨event, logged, facts⟩ := h
  exact ⟨event, sub logged, facts⟩

theorem Vetted.mono {log log' : Log} {k : Nat} {id : BytesN32} (sub : log ⊆ log')
    (h : Vetted log k id) : Vetted log' k id := by
  induction h with
  | approved id verifiers distinct enough each =>
      exact .approved id verifiers distinct enough fun v listed => (each v listed).mono sub
  | child parent id born vetted ih => exact .child parent id (born.mono sub) ih
  | merged sources id born vetted ih => exact .merged sources id (born.mono sub) ih

/-! ## Approvals -/

@[simp] theorem Ledger.getCreditApprovals_setCredit (ledger : Ledger) (id : BytesN32)
    (credit : CreditMetadata) :
    (ledger.setCredit id credit).getCreditApprovals = ledger.getCreditApprovals := rfl

@[simp] theorem Ledger.getCreditApprovals_addCreditToProject (ledger : Ledger)
    (projectId : String) (id : BytesN32) :
    (ledger.addCreditToProject projectId id).getCreditApprovals =
      ledger.getCreditApprovals := rfl

@[simp] theorem Ledger.getCreditApprovals_setCreditByProjectVintage (ledger : Ledger)
    (projectId : String) (vintageYear : Nat) (id : BytesN32) :
    (ledger.setCreditByProjectVintage projectId vintageYear id).getCreditApprovals =
      ledger.getCreditApprovals := rfl

@[simp] theorem Ledger.getCreditApprovals_withDispute (ledger : Ledger)
    (dispute : Store BytesN32 String) :
    (ledger.withDispute dispute).getCreditApprovals = ledger.getCreditApprovals := rfl

@[simp] theorem Ledger.getCreditApprovals_advance (ledger : Ledger) (n : Nat) :
    (ledger.advance n).getCreditApprovals = ledger.getCreditApprovals := rfl

@[simp] theorem Ledger.getCreditApprovals_setCreditApprovals (ledger : Ledger)
    (id other : BytesN32) (approvals : List Address) :
    (ledger.setCreditApprovals id approvals).getCreditApprovals other =
      if other = id then approvals else ledger.getCreditApprovals other := by
  unfold getCreditApprovals setCreditApprovals
  rw [Store.lookup_insert_ite]
  split <;> rfl

@[simp] theorem Ledger.getCreditApprovals_removeCreditApprovals (ledger : Ledger)
    (id other : BytesN32) :
    (ledger.removeCreditApprovals id).getCreditApprovals other =
      if other = id then [] else ledger.getCreditApprovals other := by
  unfold getCreditApprovals removeCreditApprovals
  rw [Store.lookup_erase_ite]
  split <;> rfl

variable {sha256 : Bytes → BytesN32}

/-- The approvals of a credit are dropped, stay, or gain the verifier who approves it. -/
theorem Effect.approvals {env : Env} {s : State} {call : Call} {ret : Ret} {after : Ledger}
    (effect : Effect sha256 env s call ret after) (id : BytesN32) :
    after.getCreditApprovals id = [] ∨
      after.getCreditApprovals id = s.ledger.getCreditApprovals id ∨
      ∃ verifier nonce, call = .approveAndMint verifier id nonce ∧
        verifier ∈ s.roles.verifierSet ∧ verifier ∉ s.ledger.getCreditApprovals id ∧
        after.getCreditApprovals id = s.ledger.getCreditApprovals id ++ [verifier] := by
  cases effect with
  | approved verifier target nonce found authorised registered there pending first short =>
      by_cases same : id = target
      · subst same
        exact .inr (.inr ⟨verifier, nonce, rfl, registered, first, by simp⟩)
      · exact .inr (.inl (by simp [same]))
  | minted verifier target nonce found authorised registered there pending first enough =>
      by_cases same : id = target
      · exact .inl (by simp [same])
      · exact .inr (.inl (by simp [same]))
  | merged caller ids mergedId merged _ authorised several owner active tonnes sources newDerived
      retired =>
      refine .inr (.inl ?_)
      unfold Ledger.getCreditApprovals
      rw [(retireLoop_ok retired).creditApprovals]
      rfl
  | _ => exact .inr (.inl (by simp))

/-- The stored approvals of every credit are by distinct verifiers and are in the log. -/
def ApprovalsLogged (log : Log) (s : State) : Prop :=
  ∀ id, (s.ledger.getCreditApprovals id).Nodup ∧
    ∀ v ∈ s.ledger.getCreditApprovals id, ApprovedBy log id v

theorem ApprovalsLogged.step {log : Log} {event : Event State Invocation Ret}
    (logged : ApprovalsLogged log event.pre) (commits : (machine sha256).Commits event) :
    ApprovalsLogged (log ++ [event]) event.post := by
  intro id
  obtain ⟨distinct, each⟩ := logged id
  have longer : log ⊆ log ++ [event] := List.subset_append_left log [event]
  rcases (exec_effect sha256 event.pre commits).approvals id with
    dropped | kept | ⟨verifier, nonce, named, registered, first, gained⟩
  · rw [dropped]
    exact ⟨List.nodup_nil, by simp⟩
  · rw [kept]
    exact ⟨distinct, fun v listed => (each v listed).mono longer⟩
  · rw [gained]
    refine ⟨?_, ?_⟩
    · exact List.nodup_append_comm.mp (List.nodup_cons.mpr ⟨first, distinct⟩)
    · intro v listed
      rcases List.mem_append.mp listed with before | last
      · exact (each v before).mono longer
      · obtain rfl := List.mem_singleton.mp last
        exact ⟨event, by simp, ⟨nonce, named⟩, registered⟩

/-! ## Before and after `initialize` -/

/-- A log in which some call initialised the registry with threshold `k`. -/
def InitialisedWith (log : Log) (k : Nat) : Prop :=
  ∃ event ∈ log, ∃ admin retirementContract,
    event.input.call = .initializeContract admin retirementContract k

/-- Without an admin nothing has happened yet; with one the threshold is the one that
`initialize` stored. -/
structure Founding (log : Log) (s : State) : Prop where
  noPending : s.roles.admin = none → s.roles.pendingAdmin = none
  noCredit : s.roles.admin = none → ∀ id, s.ledger.getCredit id = none
  neverActive : s.roles.admin = none → ∀ id, ¬ WasActive log id
  uninitialised : s.roles.admin = none → ∀ k, ¬ InitialisedWith log k
  threshold : ∀ k, InitialisedWith log k → s.roles.getRequiredApprovals = k

theorem InitialisedWith.snoc {log : Log} {event : Event State Invocation Ret} {k : Nat}
    (h : InitialisedWith (log ++ [event]) k) :
    InitialisedWith log k ∨ ∃ admin retirementContract,
      event.input.call = .initializeContract admin retirementContract k :=
  Machine.exists_snoc.mp h

/-- As long as no state holds an active credit, no credit was active. -/
theorem not_wasActive_snoc {log : Log} {event : Event State Invocation Ret}
    (before : ∀ id, ¬ WasActive log id) (nothing : ∀ id, event.post.ledger.getCredit id = none) :
    ∀ id, ¬ WasActive (log ++ [event]) id := by
  intro id wasActive
  induction wasActive with
  | seen e logged id credit stored active =>
      rcases List.mem_append.mp logged with earlier | last
      · exact before id (.seen e earlier id credit stored active)
      · obtain rfl := List.mem_singleton.mp last
        rw [nothing id] at stored
        cases stored
  | child parent id born wasActive ih => exact ih

/-- Nothing is stored by a call to a registry that has no admin and no credits. -/
theorem Effect.nothing_stored {env : Env} {s : State} {call : Call} {ret : Ret} {after : Ledger}
    (effect : Effect sha256 env s call ret after) (noAdmin : s.roles.admin = none)
    (nothing : ∀ id, s.ledger.getCredit id = none) : ∀ id, after.getCredit id = none := by
  intro id
  by_contra stored
  obtain ⟨credit, there⟩ := Option.ne_none_iff_exists'.mp stored
  cases (effect.created (nothing id) there).1 with
  | submitted sub submission hasAdmin positive returned => exact hasAdmin noAdmin
  | child caller parent child1Id child2Id splitTonnes part nonce original named returned isChild
      found owned positive =>
      rw [nothing parent] at found
      cases found
  | merged caller ids credit named returned several active tonnes sources =>
      obtain ⟨first, listed⟩ :=
        List.exists_mem_of_length_pos (Nat.lt_of_lt_of_le Nat.two_pos several)
      obtain ⟨source, found, -⟩ := sources first listed
      rw [nothing first] at found
      cases found

theorem Founding.step {log : Log} {event : Event State Invocation Ret}
    (founding : Founding log event.pre) (commits : (machine sha256).Commits event) :
    Founding (log ++ [event]) event.post := by
  cases exec_roles_cases sha256 event.pre commits with
  | initialised admin retirementContract k named fresh founded trusted positive threshold ledger =>
      have hasAdmin : event.post.roles.admin ≠ none := by
        rw [founded]
        exact Option.some_ne_none admin
      refine ⟨fun noAdmin => absurd noAdmin hasAdmin, fun noAdmin => absurd noAdmin hasAdmin,
        fun noAdmin => absurd noAdmin hasAdmin, fun noAdmin => absurd noAdmin hasAdmin, ?_⟩
      intro k' initialised
      rcases initialised.snoc with before | ⟨admin', retirementContract', named'⟩
      · exact absurd before (founding.uninitialised fresh k')
      · rw [named] at named'
        cases named'
        exact threshold
  | kept later kept =>
      have uninitialised : ∀ k, InitialisedWith (log ++ [event]) k → InitialisedWith log k := by
        intro k initialised
        rcases initialised.snoc with before | ⟨admin, retirementContract, named⟩
        · exact before
        · exact absurd named (later admin retirementContract k)
      have unfounded : event.post.roles.admin = none → event.pre.roles.admin = none := by
        intro noAdmin
        by_contra hasAdmin
        exact kept.founded hasAdmin noAdmin
      have nothing : event.post.roles.admin = none →
          ∀ id, event.post.ledger.getCredit id = none :=
        fun noAdmin => (exec_effect sha256 event.pre commits).nothing_stored (unfounded noAdmin)
          (founding.noCredit (unfounded noAdmin))
      refine ⟨?_, nothing, ?_, ?_, ?_⟩
      · intro noAdmin
        have before := unfounded noAdmin
        exact (kept.unfounded ⟨before, founding.noPending before⟩).2
      · intro noAdmin
        exact not_wasActive_snoc (founding.neverActive (unfounded noAdmin)) (nothing noAdmin)
      · intro noAdmin k initialised
        exact founding.uninitialised (unfounded noAdmin) k (uninitialised k initialised)
      · intro k initialised
        rw [kept.getRequiredApprovals]
        exact founding.threshold k (uninitialised k initialised)

theorem not_wasActive_nil (id : BytesN32) : ¬ WasActive [] id := by
  intro wasActive
  induction wasActive with
  | seen event logged => cases logged
  | child parent id born wasActive ih => exact ih

theorem founding_nil : Founding [] State.empty := by
  refine ⟨fun _ => rfl, fun _ _ => rfl, fun _ => not_wasActive_nil, fun _ k h => ?_,
    fun k h => ?_⟩
  · obtain ⟨event, logged, -⟩ := h
    cases logged
  · obtain ⟨event, logged, -⟩ := h
    cases logged

/-! ## Runs -/

/-- What a run keeps while it restores only credits that were active. -/
structure VettingInv (sha256 : Bytes → BytesN32) (log : Log) (s : State) : Prop where
  derived : s.ledger.Derived sha256
  approvals : ApprovalsLogged log s
  founding : Founding log s
  seen : ∀ id credit, s.ledger.getCredit id = some credit → credit.status = .active →
    WasActive log id
  vetted : ∀ id, WasActive log id → Vetted log s.roles.getRequiredApprovals id

/-- A credit that is active after an invocation is vetted by the log with it. -/
theorem VettingInv.vetted_now (inj : Function.Injective sha256) {log : Log}
    {event : Event State Invocation Ret} (inv : VettingInv sha256 log event.pre)
    (restored : RestoresActive log event) (commits : (machine sha256).Commits event)
    {id : BytesN32} {credit : CreditMetadata}
    (stored : event.post.ledger.getCredit id = some credit) (active : credit.status = .active) :
    Vetted (log ++ [event]) event.pre.roles.getRequiredApprovals id := by
  have effect := exec_effect sha256 event.pre commits
  have longer : log ⊆ log ++ [event] := List.subset_append_left log [event]
  have earlier : ∀ other before, event.pre.ledger.getCredit other = some before →
      before.status = .active →
        Vetted (log ++ [event]) event.pre.roles.getRequiredApprovals other :=
    fun other before there live => (inv.vetted other (inv.seen other before there live)).mono longer
  cases known : event.pre.ledger.getCredit id with
  | some before =>
      obtain ⟨credit', there, evolves⟩ := effect.evolves inj inv.derived known
      obtain rfl := Option.some.inj (there.symm.trans stored)
      cases evolves with
      | same => exact earlier id before known active
      | transferred recipient nonce named authorised => exact earlier id before known active
      | minted verifier nonce named pending registered first enough =>
          refine .approved id (event.pre.ledger.getCreditApprovals id ++ [verifier]) ?_ ?_ ?_
          · exact List.nodup_append_comm.mp
              (List.nodup_cons.mpr ⟨first, (inv.approvals id).1⟩)
          · simpa using enough
          · intro v listed
            rcases List.mem_append.mp listed with approved | last
            · exact ((inv.approvals id).2 v approved).mono longer
            · obtain rfl := List.mem_singleton.mp last
              exact ⟨event, by simp, ⟨nonce, named⟩, registered⟩
      | restatused status change =>
          -- of the status changes only the restoration of a dispute makes a credit active
          subst active
          generalize named : event.input.call = call at change
          generalize before.status = old at change
          cases change with
          | restore admin =>
              refine (inv.vetted id (restored id ?_)).mono longer
              rw [named]
              rfl
      | split splitTonnes nonce named authorised => cases active
      | merged ids named authorised listed live => cases active
  | none =>
      cases (effect.created known stored).1 with
      | submitted sub submission hasAdmin positive returned => cases active
      | child caller parent child1Id child2Id splitTonnes part nonce original named returned
          isChild there owned positive =>
          refine .child parent id ?_ (earlier parent original there active)
          exact ⟨event, by simp, caller, splitTonnes, nonce, child1Id, child2Id, named, returned,
            isChild⟩
      | merged caller ids credit named returned several active tonnes sources =>
          refine .merged ids id ⟨event, by simp, caller, named, returned⟩ ?_
          intro source listed
          obtain ⟨found, there, -, live, -⟩ := sources source listed
          exact earlier source found there live

theorem VettingInv.step (inj : Function.Injective sha256) {log : Log}
    {event : Event State Invocation Ret} (inv : VettingInv sha256 log event.pre)
    (restored : RestoresActive log event) (commits : (machine sha256).Commits event) :
    VettingInv sha256 (log ++ [event]) event.post := by
  have effect := exec_effect sha256 event.pre commits
  have longer : log ⊆ log ++ [event] := List.subset_append_left log [event]
  have founding := inv.founding.step commits
  have vetted : ∀ id, WasActive (log ++ [event]) id →
      Vetted (log ++ [event]) event.pre.roles.getRequiredApprovals id := by
    intro id wasActive
    induction wasActive with
    | seen e logged id credit stored active =>
        rcases List.mem_append.mp logged with earlier | last
        · exact (inv.vetted id (.seen e earlier id credit stored active)).mono longer
        · obtain rfl := List.mem_singleton.mp last
          exact inv.vetted_now inj restored commits stored active
    | child parent id born wasActive ih => exact .child parent id born ih
  refine ⟨effect.derived inv.derived, inv.approvals.step commits, founding, ?_, ?_⟩
  · intro id credit stored active
    exact .seen event (by simp) id credit stored active
  · intro id wasActive
    cases exec_roles_cases sha256 event.pre commits with
    | initialised admin retirementContract k named fresh founded trusted positive threshold
        ledger =>
        -- nothing was active before `initialize`, and it stores no credit
        have nothing : ∀ id, event.post.ledger.getCredit id = none := by
          rw [ledger]
          exact inv.founding.noCredit fresh
        exact absurd wasActive (not_wasActive_snoc (inv.founding.neverActive fresh) nothing id)
    | kept later kept =>
        rw [kept.getRequiredApprovals]
        exact vetted id wasActive

/-- Activation needs the approval threshold: in every run that restores only credits
that were active before, every active credit is vetted at the threshold `k` that the
registry was initialised with. -/
theorem active_vetted (inj : Function.Injective sha256) (inputs : List Invocation) (k : Nat)
    (initialised : InitialisedWith ((machine sha256).log inputs) k)
    (restored : Machine.Admits RestoresActive ((machine sha256).log inputs))
    {id : BytesN32} {credit : CreditMetadata}
    (stored : ((machine sha256).state inputs).ledger.getCredit id = some credit)
    (active : credit.status = .active) : Vetted ((machine sha256).log inputs) k id := by
  have inv : VettingInv sha256 ((machine sha256).log inputs) ((machine sha256).state inputs) := by
    refine (machine sha256).run_induct_of RestoresActive (VettingInv sha256) ?_ ?_ inputs restored
    · refine ⟨derived_init, ?_, founding_nil, ?_, ?_⟩
      · exact fun id => ⟨List.nodup_nil, fun v listed => by cases listed⟩
      · intro id credit stored
        cases stored
      · exact fun id wasActive => absurd wasActive (not_wasActive_nil id)
    · exact fun log event inv restored commits => inv.step inj restored commits
  rw [← inv.founding.threshold k initialised]
  exact inv.vetted id (inv.seen id credit stored active)

namespace Sample

/-- One credit, approved by the one verifier the threshold asks for, and disputed. -/
def approveAndDispute : List Invocation :=
  setup 1 ++
    [submit 0, call verifier (.approveAndMint verifier (credit 0) 0),
     call issuer (.disputeCredit issuer (credit 0) "evidence")]

/-- One credit, disputed before anyone approved it. -/
def submitAndDispute : List Invocation :=
  setup 1 ++ [submit 0, call issuer (.disputeCredit issuer (credit 0) "evidence")]

/-- The admin restores the disputed credit. -/
def restore : Invocation := call admin (.resolveDispute admin (credit 0) 0)

end Sample

set_option maxRecDepth 100000 in
theorem restored_after_approval_vetted :
    Vetted ((machine BytesN32.mk).log (Sample.approveAndDispute ++ [Sample.restore])) 1
      (Sample.credit 0) := by
  have initialised : InitialisedWith
      ((machine BytesN32.mk).log (Sample.approveAndDispute ++ [Sample.restore])) 1 :=
    ⟨_, List.getElem_mem (n := 0) (by decide), Sample.admin, Sample.retirementContract, rfl⟩
  have restored : Machine.Admits RestoresActive
      ((machine BytesN32.mk).log (Sample.approveAndDispute ++ [Sample.restore])) := by
    rw [((machine BytesN32.mk).snoc_of_ok rfl).2, Machine.admits_snoc]
    refine ⟨?_, ?_⟩
    · have unrestored : ∀ event ∈ (machine BytesN32.mk).log Sample.approveAndDispute,
          event.input.call.restores = none := by
        decide
      exact Machine.admits_of_none unrestored
    · intro id restores
      cases restores
      exact .seen _ (List.getElem_mem (n := 6) (by decide)) _ _ rfl rfl
  exact active_vetted BytesN32.mk_injective _ 1 initialised restored rfl rfl

/-- The call can vet a credit. -/
def Call.vets : Call → Bool
  | .approveAndMint .. | .splitCredit .. | .mergeCredits .. => true
  | _ => false

theorem not_vetted {log : Log} {k : Nat} (positive : 0 < k)
    (quiet : ∀ event ∈ log, event.input.call.vets = false) (id : BytesN32) :
    ¬ Vetted log k id := by
  intro vetted
  cases vetted with
  | approved _ verifiers distinct enough each =>
      obtain ⟨v, listed⟩ := List.exists_mem_of_length_pos (Nat.lt_of_lt_of_le positive enough)
      obtain ⟨event, logged, ⟨nonce, named⟩, -⟩ := each v listed
      have vets := quiet event logged
      rw [named] at vets
      cases vets
  | child parent _ born vetted =>
      obtain ⟨event, logged, caller, splitTonnes, nonce, child1Id, child2Id, named, -⟩ := born
      have vets := quiet event logged
      rw [named] at vets
      cases vets
  | merged sources _ born vetted =>
      obtain ⟨event, logged, caller, named, -⟩ := born
      have vets := quiet event logged
      rw [named] at vets
      cases vets

set_option maxRecDepth 100000 in
/-- The credit is active without a single approval. -/
theorem restored_without_approval_active :
    Function.Injective BytesN32.mk ∧
      InitialisedWith ((machine BytesN32.mk).log (Sample.submitAndDispute ++ [Sample.restore])) 1 ∧
      (((machine BytesN32.mk).state (Sample.submitAndDispute ++ [Sample.restore])).ledger.getCredit
        (Sample.credit 0)).map (·.status) = some .active ∧
      ¬ Vetted ((machine BytesN32.mk).log (Sample.submitAndDispute ++ [Sample.restore])) 1
        (Sample.credit 0) := by
  refine ⟨BytesN32.mk_injective, ?_, rfl, ?_⟩
  · exact ⟨_, List.getElem_mem (n := 0) (by decide), Sample.admin, Sample.retirementContract, rfl⟩
  · exact not_vetted (by decide) (by decide) (Sample.credit 0)

end CarbonChain.Registry
