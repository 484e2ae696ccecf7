import CarbonChain.Registry.Vetting
import CarbonChain.Registry.Permanence

/-!
# CreditRegistry: expired credits

A credit that was ever expired (`contracts/credit_registry/src/lib.rs:771-785`), and every
credit that comes from it by splits and merges, is neither pending nor active from then on,
except that `resolve_dispute` with outcome 0 makes any disputed credit active, and
`dispute_credit` accepts an expired one.
-/

namespace CarbonChain.Registry

variable {sha256 : Bytes → BytesN32}

/-! ## What a call does to the status of the credits it takes -/

/-- A split retires the parent and gives its status to both children, which are new. -/
theorem Effect.splits {env : Env} {s : State} {call : Call} {ret : Ret} {after : Ledger}
    (inj : Function.Injective sha256) (derived : s.ledger.Derived sha256)
    (effect : Effect sha256 env s call ret after) {caller : Address}
    {parent child1Id child2Id : BytesN32} {splitTonnes : Int} {nonce : Nat}
    (named : call = .splitCredit caller parent splitTonnes nonce)
    (returned : ret = .pair child1Id child2Id) :
    ∃ status, s.ledger.statusOf parent = some status ∧ after.statusOf parent = some .retired ∧
      ∀ child, child = child1Id ∨ child = child2Id →
        s.ledger.getCredit child = none ∧ after.statusOf child = some status := by
  subst named
  obtain ⟨original, first, second, paired, there, derived1, derived2, rfl⟩ :=
    effect.of_splitCredit
  rw [paired] at returned
  cases returned
  obtain ⟨siblings, absent1, absent2⟩ := derived.children inj derived1 derived2
  have ne1 := Ledger.ne_of_absent there absent1
  have ne2 := Ledger.ne_of_absent there absent2
  refine ⟨original.status, Ledger.statusOf_of_stored there, by simp, ?_⟩
  rintro child (rfl | rfl)
  · exact ⟨absent1, by simp [ne1, siblings]⟩
  · exact ⟨absent2, by simp [ne2]⟩

/-- A merge retires its sources, which were active, and its product is new and active. -/
theorem Effect.merges {env : Env} {s : State} {call : Call} {ret : Ret} {after : Ledger}
    (inj : Function.Injective sha256) (derived : s.ledger.Derived sha256)
    (effect : Effect sha256 env s call ret after) {caller : Address} {sources : List BytesN32}
    {id : BytesN32} (named : call = .mergeCredits caller sources) (returned : ret = .id id) :
    (∀ source ∈ sources, s.ledger.statusOf source = some .active ∧
      after.statusOf source = some .retired) ∧
        s.ledger.getCredit id = none ∧ after.statusOf id = some .active := by
  subst named
  obtain ⟨mergedId, merged, identified, active, lot, newDerived, retired⟩ :=
    effect.of_mergeCredits
  rw [identified] at returned
  cases returned
  have loop := retireLoop_ok retired
  have absent := derived.next inj newDerived
  have ne_source : ∀ source ∈ sources, id ≠ source := by
    intro source listed
    obtain ⟨credit, found, -⟩ := lot source listed
    exact Ledger.ne_of_absent found absent
  refine ⟨?_, absent, ?_⟩
  · intro source listed
    obtain ⟨credit, found, live⟩ := lot source listed
    have status := Ledger.statusOf_of_stored found
    rw [live] at status
    refine ⟨status, ?_⟩
    rw [loop.statusOf, if_pos listed]
    simp [(ne_source source listed).symm, status]
  · have unlisted : id ∉ sources := fun listed => ne_source id listed rfl
    rw [loop.statusOf, if_neg unlisted]
    simp [active]

/-- A restoration makes its credit active. -/
theorem Effect.restores {env : Env} {s : State} {call : Call} {ret : Ret} {after : Ledger}
    (effect : Effect sha256 env s call ret after) {id : BytesN32}
    (restored : call.restores = some id) : after.statusOf id = some .active := by
  cases effect with
  | restatused _ target found status dispute there change trusted =>
      generalize found.status = old at change
      cases change with
      | restore admin =>
          cases restored
          simp
      | _ => cases restored
  | unchanged _ _ quiet => cases call <;> first | cases restored | cases quiet
  | submitted _ sub newId submission hasAdmin authorised positive unique newDerived =>
      cases call <;> first | cases restored | cases submission
  | _ => cases restored

/-! ## Where a credit comes from -/

/-- Split parents and merge sources are retired for good, and what came of them is stored. -/
structure Lineage (log : Log) (ledger : Ledger) : Prop where
  parent : ∀ parent child, SplitFrom log parent child → ledger.statusOf parent = some .retired
  child : ∀ parent child, SplitFrom log parent child → ledger.getCredit child ≠ none
  source : ∀ sources id, MergedFrom log sources id →
    ∀ source ∈ sources, ledger.statusOf source = some .retired
  product : ∀ sources id, MergedFrom log sources id → ledger.getCredit id ≠ none

theorem SplitFrom.cases_snoc {log : Log} {event : Event State Invocation Ret}
    {parent child : BytesN32} (h : SplitFrom (log ++ [event]) parent child) :
    SplitFrom log parent child ∨ ∃ caller splitTonnes nonce child1Id child2Id,
      event.input.call = .splitCredit caller parent splitTonnes nonce ∧
        event.output = .pair child1Id child2Id ∧ (child = child1Id ∨ child = child2Id) :=
  Machine.exists_snoc.mp h

theorem MergedFrom.cases_snoc {log : Log} {event : Event State Invocation Ret}
    {sources : List BytesN32} {id : BytesN32} (h : MergedFrom (log ++ [event]) sources id) :
    MergedFrom log sources id ∨ ∃ caller,
      event.input.call = .mergeCredits caller sources ∧ event.output = .id id :=
  Machine.exists_snoc.mp h

theorem Lineage.step (inj : Function.Injective sha256) {log : Log}
    {event : Event State Invocation Ret} (derived : event.pre.ledger.Derived sha256)
    (lineage : Lineage log event.pre.ledger) (commits : (machine sha256).Commits event) :
    Lineage (log ++ [event]) event.post.ledger := by
  have effect := exec_effect sha256 event.pre commits
  refine ⟨?_, ?_, ?_, ?_⟩
  · intro parent child born
    rcases born.cases_snoc with before | ⟨_, _, _, _, _, named, returned, -⟩
    · exact effect.stays_retired inj derived (lineage.parent parent child before)
    · obtain ⟨status, -, retired, -⟩ := effect.splits inj derived named returned
      exact retired
  · intro parent child born
    rcases born.cases_snoc with before | ⟨_, _, _, _, _, named, returned, isChild⟩
    · exact effect.stays_stored inj derived (lineage.child parent child before)
    · obtain ⟨status, -, -, children⟩ := effect.splits inj derived named returned
      exact Ledger.stored_of_statusOf (children child isChild).2
  · intro sources id born source listed
    rcases born.cases_snoc with before | ⟨_, named, returned⟩
    · exact effect.stays_retired inj derived (lineage.source sources id before source listed)
    · exact ((effect.merges inj derived named returned).1 source listed).2
  · intro sources id born
    rcases born.cases_snoc with before | ⟨_, named, returned⟩
    · exact effect.stays_stored inj derived (lineage.product sources id before)
    · exact Ledger.stored_of_statusOf (effect.merges inj derived named returned).2.2

theorem lineage_nil (ledger : Ledger) : Lineage [] ledger := by
  constructor
  · rintro parent child ⟨event, logged, -⟩
    cases logged
  · rintro parent child ⟨event, logged, -⟩
    cases logged
  · rintro sources id ⟨event, logged, -⟩
    cases logged
  · rintro sources id ⟨event, logged, -⟩
    cases logged

/-! ## Credits that were expired -/

/-- The credit, or one that it comes from by splits and merges, was expired after some
event. -/
inductive WasExpired (log : Log) : BytesN32 → Prop where
  | seen (event : Event State Invocation Ret) (logged : event ∈ log) (id : BytesN32)
      (expired : event.post.ledger.statusOf id = some .expired) : WasExpired log id
  | child (parent id : BytesN32) (born : SplitFrom log parent id)
      (wasExpired : WasExpired log parent) : WasExpired log id
  | merged (sources : List BytesN32) (source id : BytesN32) (born : MergedFrom log sources id)
      (listed : source ∈ sources) (wasExpired : WasExpired log source) : WasExpired log id

/-- No credit is restored to active that was expired before. -/
def RestoresUnexpired (log : Log) (event : Event State Invocation Ret) : Prop :=
  ∀ id, event.input.call.restores = some id → ¬ WasExpired log id

theorem WasExpired.mono {log log' : Log} {id : BytesN32} (sub : log ⊆ log')
    (h : WasExpired log id) : WasExpired log' id := by
  induction h with
  | seen event logged id expired => exact .seen event (sub logged) id expired
  | child parent id born wasExpired ih => exact .child parent id (born.mono sub) ih
  | merged sources source id born listed wasExpired ih =>
      exact .merged sources source id (born.mono sub) listed ih

theorem not_wasExpired_nil (id : BytesN32) : ¬ WasExpired [] id := by
  intro wasExpired
  induction wasExpired with
  | seen event logged => cases logged
  | child parent id born wasExpired ih => exact ih
  | merged sources source id born listed wasExpired ih => exact ih

/-- What a run keeps while it restores only credits that were never expired. -/
structure ExpiryInv (sha256 : Bytes → BytesN32) (log : Log) (s : State) : Prop where
  derived : s.ledger.Derived sha256
  lineage : Lineage log s.ledger
  shut : ∀ id, WasExpired log id →
    ∃ credit, s.ledger.getCredit id = some credit ∧ credit.status.isLive = false

/-- A credit that was stored before an event was expired before, or is now. A credit it comes
from is retired, so that one cannot have expired in the event. -/
theorem ExpiryInv.wasExpired_before (inj : Function.Injective sha256) {log : Log}
    {event : Event State Invocation Ret} (inv : ExpiryInv sha256 log event.pre)
    (commits : (machine sha256).Commits event) {id : BytesN32}
    (wasExpired : WasExpired (log ++ [event]) id) (known : event.pre.ledger.getCredit id ≠ none) :
    WasExpired log id ∨ event.post.ledger.statusOf id = some .expired := by
  have effect := exec_effect sha256 event.pre commits
  have not_now : ∀ other, event.pre.ledger.statusOf other = some .retired →
      event.post.ledger.statusOf other ≠ some .expired := by
    intro other retired now
    rw [effect.stays_retired inj inv.derived retired] at now
    cases now
  induction wasExpired with
  | seen e logged id expired =>
      rcases List.mem_append.mp logged with before | last
      · exact .inl (.seen e before id expired)
      · rw [List.mem_singleton.mp last] at expired
        exact .inr expired
  | child parent id born wasExpired ih =>
      left
      rcases born.cases_snoc with before | ⟨_, _, _, _, _, named, returned, isChild⟩
      · have retired := inv.lineage.parent parent id before
        rcases ih (Ledger.stored_of_statusOf retired) with earlier | now
        · exact .child parent id before earlier
        · exact absurd now (not_now parent retired)
      · obtain ⟨status, -, -, children⟩ := effect.splits inj inv.derived named returned
        exact absurd (children id isChild).1 known
  | merged sources source id born listed wasExpired ih =>
      left
      rcases born.cases_snoc with before | ⟨_, named, returned⟩
      · have retired := inv.lineage.source sources id before source listed
        rcases ih (Ledger.stored_of_statusOf retired) with earlier | now
        · exact .merged sources source id before listed earlier
        · exact absurd now (not_now source retired)
      · exact absurd (effect.merges inj inv.derived named returned).2.1 known

/-- A credit that the event retires did not expire in it. -/
theorem ExpiryInv.expired_before (inj : Function.Injective sha256) {log : Log}
    {event : Event State Invocation Ret} (inv : ExpiryInv sha256 log event.pre)
    (commits : (machine sha256).Commits event) {id : BytesN32}
    (wasExpired : WasExpired (log ++ [event]) id) (known : event.pre.ledger.getCredit id ≠ none)
    (retired : event.post.ledger.statusOf id = some .retired) : WasExpired log id := by
  rcases inv.wasExpired_before inj commits wasExpired known with earlier | now
  · exact earlier
  · rw [retired] at now
    cases now

theorem ExpiryInv.not_live {log : Log} {s : State} (inv : ExpiryInv sha256 log s) {id : BytesN32}
    (wasExpired : WasExpired log id) {status : CreditStatus}
    (stored : s.ledger.statusOf id = some status) : status.isLive = false := by
  obtain ⟨credit, there, notLive⟩ := inv.shut id wasExpired
  rw [Ledger.statusOf_of_stored there] at stored
  rw [← Option.some.inj stored]
  exact notLive

theorem shut_of_statusOf {ledger : Ledger} {id : BytesN32} {status : CreditStatus}
    (stored : ledger.statusOf id = some status) (notLive : status.isLive = false) :
    ∃ credit, ledger.getCredit id = some credit ∧ credit.status.isLive = false := by
  obtain ⟨credit, there, rfl⟩ := Ledger.statusOf_eq_some.mp stored
  exact ⟨credit, there, notLive⟩

/-- A new credit that was expired, or comes from one that was, is not live. -/
theorem ExpiryInv.shut_new (inj : Function.Injective sha256) {log : Log}
    {event : Event State Invocation Ret} (inv : ExpiryInv sha256 log event.pre)
    (commits : (machine sha256).Commits event) {id : BytesN32}
    (wasExpired : WasExpired (log ++ [event]) id)
    (fresh : event.pre.ledger.getCredit id = none) :
    ∃ credit, event.post.ledger.getCredit id = some credit ∧ credit.status.isLive = false := by
  have effect := exec_effect sha256 event.pre commits
  cases wasExpired with
  | seen e logged _ expired =>
      rcases List.mem_append.mp logged with before | last
      · obtain ⟨credit, stored, -⟩ := inv.shut id (.seen e before id expired)
        rw [fresh] at stored
        cases stored
      · rw [List.mem_singleton.mp last] at expired
        exact shut_of_statusOf expired rfl
  | child parent _ born wasExpired =>
      rcases born.cases_snoc with before | ⟨_, _, _, _, _, named, returned, isChild⟩
      · exact absurd fresh (inv.lineage.child parent id before)
      · -- the child takes over the status of a parent that was expired before
        obtain ⟨status, old, retired, children⟩ := effect.splits inj inv.derived named returned
        have known := Ledger.stored_of_statusOf old
        have earlier := inv.expired_before inj commits wasExpired known retired
        exact shut_of_statusOf (children id isChild).2 (inv.not_live earlier old)
  | merged sources source _ born listed wasExpired =>
      rcases born.cases_snoc with before | ⟨_, named, returned⟩
      · exact absurd fresh (inv.lineage.product sources id before)
      · -- the sources were active, so none of them was expired before
        obtain ⟨retires, -⟩ := effect.merges inj inv.derived named returned
        obtain ⟨active, retired⟩ := retires source listed
        have known := Ledger.stored_of_statusOf active
        have earlier := inv.expired_before inj commits wasExpired known retired
        have notLive := inv.not_live earlier active
        cases notLive

/-- After an event that restores no credit that was expired, nothing that was expired is
live. -/
theorem ExpiryInv.shut_step (inj : Function.Injective sha256) {log : Log}
    {event : Event State Invocation Ret} (inv : ExpiryInv sha256 log event.pre)
    (unexpired : RestoresUnexpired log event) (commits : (machine sha256).Commits event)
    {id : BytesN32} (wasExpired : WasExpired (log ++ [event]) id) :
    ∃ credit, event.post.ledger.getCredit id = some credit ∧ credit.status.isLive = false := by
  by_cases known : event.pre.ledger.getCredit id = none
  · exact inv.shut_new inj commits wasExpired known
  · rcases inv.wasExpired_before inj commits wasExpired known with earlier | now
    · obtain ⟨credit, stored, notLive⟩ := inv.shut id earlier
      obtain ⟨credit', there, evolves⟩ :=
        (exec_effect sha256 event.pre commits).evolves inj inv.derived stored
      refine ⟨credit', there, ?_⟩
      by_contra live
      have restored := evolves.restored notLive (by simpa using live)
      exact unexpired id restored earlier
    · exact shut_of_statusOf now rfl

theorem ExpiryInv.step (inj : Function.Injective sha256) {log : Log}
    {event : Event State Invocation Ret} (inv : ExpiryInv sha256 log event.pre)
    (unexpired : RestoresUnexpired log event) (commits : (machine sha256).Commits event) :
    ExpiryInv sha256 (log ++ [event]) event.post :=
  ⟨(exec_effect sha256 event.pre commits).derived inv.derived,
    inv.lineage.step inj inv.derived commits,
    fun _ wasExpired => inv.shut_step inj unexpired commits wasExpired⟩

/-! ## Runs -/

/-- No credit that was expired, and none that comes from it, is active. -/
def ExpiredInactive (log : Log) (s : State) : Prop :=
  ∀ id, WasExpired log id → s.ledger.statusOf id ≠ some .active

/-- An event leaves nothing expired active if and only if it restores nothing expired. -/
theorem ExpiryInv.exact_ (inj : Function.Injective sha256) {log : Log}
    {event : Event State Invocation Ret} (inv : ExpiryInv sha256 log event.pre)
    (commits : (machine sha256).Commits event) :
    ExpiredInactive (log ++ [event]) event.post ↔ RestoresUnexpired log event := by
  constructor
  · intro inactive id restored wasExpired
    have longer : log ⊆ log ++ [event] := List.subset_append_left log [event]
    apply inactive id (wasExpired.mono longer)
    exact (exec_effect sha256 event.pre commits).restores restored
  · intro unexpired id wasExpired active
    obtain ⟨credit, stored, notLive⟩ := inv.shut_step inj unexpired commits wasExpired
    rw [Ledger.statusOf, stored] at active
    rw [Option.some.inj active] at notLive
    cases notLive

/-- An expired credit never becomes active again, nor does a credit that comes from it by
splits and merges, in exactly the runs that restore no disputed credit that was expired
before or comes from one that was. -/
theorem expired_inactive_iff (inj : Function.Injective sha256) (inputs : List Invocation) :
    (machine sha256).Always ExpiredInactive inputs ↔
      Machine.Admits RestoresUnexpired ((machine sha256).log inputs) := by
  have start : ExpiredInactive [] (machine sha256).init :=
    fun id wasExpired => absurd wasExpired (not_wasExpired_nil id)
  refine (machine sha256).always_iff_admits (ExpiryInv sha256) ?_ start ?_ ?_ inputs
  · refine ⟨derived_init, lineage_nil _, ?_⟩
    exact fun id wasExpired => absurd wasExpired (not_wasExpired_nil id)
  · exact fun log event inv commits => inv.exact_ inj commits
  · exact fun log event inv unexpired commits => inv.step inj unexpired commits

namespace Sample

/-- One active credit, expired by the admin and disputed by its owner. -/
def expireAndDispute : List Invocation :=
  approve ++ [call admin (.expireCredit admin (credit 0)),
    call issuer (.disputeCredit issuer (credit 0) "evidence")]

end Sample

set_option maxRecDepth 100000 in
/-- The sample credit was expired. -/
theorem expireAndDispute_wasExpired :
    WasExpired ((machine BytesN32.mk).log Sample.expireAndDispute) (Sample.credit 0) :=
  .seen _ (List.getElem_mem (n := 7) (by decide)) _ rfl

set_option maxRecDepth 100000 in
theorem expireAndDispute_inactive :
    (machine BytesN32.mk).Always ExpiredInactive Sample.expireAndDispute := by
  apply (expired_inactive_iff BytesN32.mk_injective Sample.expireAndDispute).mpr
  have unrestored : ∀ event ∈ (machine BytesN32.mk).log Sample.expireAndDispute,
      event.input.call.restores = none := by
    decide
  exact Machine.admits_of_none unrestored

set_option maxRecDepth 100000 in
/-- The admin resolves the dispute in favour of the expired credit, which is active again. -/
theorem restored_expired_active :
    Function.Injective BytesN32.mk ∧
      ¬ (machine BytesN32.mk).Always ExpiredInactive
        (Sample.expireAndDispute ++ [Sample.restore]) := by
  refine ⟨BytesN32.mk_injective, ?_⟩
  intro inactive
  have now := inactive _ [] (List.append_nil _).symm (Sample.credit 0)
  have longer : (machine BytesN32.mk).log Sample.expireAndDispute ⊆
      (machine BytesN32.mk).log (Sample.expireAndDispute ++ [Sample.restore]) := by
    rw [((machine BytesN32.mk).snoc_of_ok rfl).2]
    exact List.subset_append_left _ _
  exact now (expireAndDispute_wasExpired.mono longer) rfl

end CarbonChain.Registry
