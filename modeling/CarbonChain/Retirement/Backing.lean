import CarbonChain.Retirement.System

/-!
# Retirement: records backed by the registry

A record is backed when its credit is retired in the registry. Calls that name the registry
write backed records only: `mark_retired` (`contracts/credit_registry/src/lib.rs:506-521`)
accepts an active credit, retires it, and the registry never revives it. For such calls the
records, the credits and the index of the accounts are in step. A call that names another
contract writes whatever that contract lets it.
-/

namespace CarbonChain.Retirement

open Registry (Network ForeignReply World)

/-- The credit is stored with status `Retired`. -/
def IsRetired (registry : Registry.State) (id : BytesN32) : Prop :=
  (registry.ledger.getCredit id).map (·.status) = some .retired

instance (registry : Registry.State) : DecidablePred (IsRetired registry) := fun id =>
  inferInstanceAs (Decidable ((registry.ledger.getCredit id).map (·.status) = some .retired))

theorem isRetired_iff {registry : Registry.State} {id : BytesN32} :
    IsRetired registry id ↔
      ∃ credit, registry.ledger.getCredit id = some credit ∧ credit.status = .retired :=
  Option.map_eq_some_iff

variable {net : Network}

/-- The registry's ids are fresh, and what was retired in `before` still is. -/
def StillRetired (sha256 : Bytes → BytesN32) (before after : Registry.State) : Prop :=
  after.ledger.Derived sha256 ∧ ∀ id, IsRetired before id → IsRetired after id

theorem StillRetired.step (inj : Function.Injective net.sha256) {before s s' : Registry.State}
    (still : StillRetired net.sha256 before s) {invocation : Registry.Invocation}
    {ret : Registry.Ret} (success : Registry.exec net.sha256 s invocation = .ok (ret, s')) :
    StillRetired net.sha256 before s' := by
  obtain ⟨derived, stays⟩ := still
  have effect := Registry.exec_effect net.sha256 s success
  refine ⟨effect.derived derived, ?_⟩
  intro id retired
  obtain ⟨credit, stored, status⟩ := isRetired_iff.mp (stays id retired)
  obtain ⟨credit', there, evolves⟩ := effect.evolves inj derived stored
  exact isRetired_iff.mpr ⟨credit', there, evolves.retired_stays status⟩

/-- No transaction revives a retired credit. -/
theorem commits_stillRetired (inj : Function.Injective net.sha256) {event : JointEvent}
    (derived : event.pre.registry.ledger.Derived net.sha256)
    (commits : (system net).Commits event) :
    StillRetired net.sha256 event.pre.registry event.post.registry := by
  have start : StillRetired net.sha256 event.pre.registry event.pre.registry :=
    ⟨derived, fun _ retired => retired⟩
  exact commits_keeps (StillRetired net.sha256 event.pre.registry)
    (fun s s' invocation ret still success => still.step inj success) start commits

/-- The records after a transaction: those of its call, and those of before. -/
theorem commits_records (inj : Function.Injective net.sha256) {event : JointEvent}
    (commits : (system net).Commits event) {id : BytesN32} {record : RetirementRecord}
    (stored : event.post.peer.retirement.lookup id = some record) :
    event.pre.peer.retirement.lookup id = some record ∨
      ∃ env call foreign position, event.input = .peer env call foreign ∧
        (position, record) ∈ call.records (env.external net.self) ∧
        id = retirementId net.sha256 position record ∧ record.creditId ∈ call.creditIds := by
  cases named : event.input with
  | registry invocation =>
      obtain ⟨same, -⟩ := Network.commits_registry commits named
      rw [same] at stored
      exact .inl stored
  | peer env call foreign =>
      obtain ⟨ret, u, success, -⟩ := Network.commits_peer commits named
      rw [(exec_records success).1] at stored
      rcases lookup_storeAll_cases inj (call.records_distinct _) stored with
        ⟨x, written, same, rfl⟩ | ⟨-, before⟩
      · refine .inr ⟨env, call, foreign, x.1, rfl, written, same, ?_⟩
        rw [← records_creditIds success]
        exact List.mem_map_of_mem written
      · exact .inl before

/-! ## Any callees -/

/-- The call of the event names the registry, or only credits that are retired in it. -/
def NamedOrRetired (net : Network) (event : JointEvent) : Prop :=
  Genuine net event ∨ ∀ id ∈ (event.input.call.map Call.creditIds).getD [],
    IsRetired event.pre.registry id

instance (net : Network) (event : JointEvent) : Decidable (NamedOrRetired net event) :=
  inferInstanceAs (Decidable (_ ∨ _))

/-- Every record names a credit that is retired in the registry. -/
def Backed (s : Joint) : Prop :=
  ∀ id record, s.peer.retirement.lookup id = some record → IsRetired s.registry record.creditId

theorem Backed.step (inj : Function.Injective net.sha256) {event : JointEvent}
    (derived : event.pre.registry.ledger.Derived net.sha256) (backed : Backed event.pre)
    (condition : NamedOrRetired net event) (commits : (system net).Commits event) :
    Backed event.post := by
  have still := commits_stillRetired inj derived commits
  intro id record stored
  rcases commits_records inj commits stored with
    before | ⟨env, call, foreign, position, named, -, -, listed⟩
  · exact still.2 record.creditId (backed id record before)
  · rcases condition with genuine | retired
    · exact isRetired_iff.mpr ((commits_retires genuine commits named).retired listed)
    · apply still.2
      apply retired
      rw [named]
      exact listed

/-- Records cannot be forged: in every run whose calls name the registry, or else only
credits already retired in it, every record names a credit retired in the registry. -/
theorem records_backed (inj : Function.Injective net.sha256) (inputs : List (Network.Input Call))
    (condition : ∀ event ∈ (system net).log inputs, NamedOrRetired net event)
    {id : BytesN32} {record : RetirementRecord}
    (stored : ((system net).state inputs).peer.retirement.lookup id = some record) :
    IsRetired ((system net).state inputs).registry record.creditId := by
  have inv := (system net).run_induct_of (fun _ event => NamedOrRetired net event)
    (fun _ s => s.registry.ledger.Derived net.sha256 ∧ Backed s)
    ⟨Registry.derived_init, fun id record stored => by cases stored⟩
    (fun log event inv condition commits =>
      ⟨(commits_stillRetired inj inv.1 commits).1, inv.2.step inj inv.1 condition commits⟩)
    inputs (Machine.admits_forall.mpr condition)
  exact inv.2 id record stored

namespace Sample

/-- The issuer retires its credit. -/
def retireOwn : Network.Input Call :=
  call Registry.Sample.issuer (.retire Registry.Sample.issuer (Registry.Sample.credit 0) 1000000
    "offset" network.registryId 0)

/-- A contract that shows any credit as active and owned by the buyer, and answers the
second invocation with nothing. -/
def forger : Nat → ForeignReply
  | 0 => ⟨[], some (.credit ⟨"project-1", buyer, buyer, 2024, "VCS", "NG", 1000000, "ipfs",
      .active, 0⟩)⟩
  | _ => ⟨[], some .unit⟩

/-- The buyer retires the issuer's credit, naming that contract as the registry. -/
def forge : Network.Input Call :=
  .peer ⟨1735689600, fun a => a == buyer⟩ (.retire buyer (Registry.Sample.credit 0) 1000000
    "offset" (.contract 66) 0) forger

end Sample

set_option maxRecDepth 100000 in
theorem retireOwn_backed :
    IsRetired ((system Sample.network).state (Sample.issued ++ [Sample.retireOwn])).registry
      (Registry.Sample.credit 0) := by
  obtain ⟨id, record, stored, credit⟩ : ∃ id record,
      ((system Sample.network).state (Sample.issued ++ [Sample.retireOwn])).peer.retirement.lookup
        id = some record ∧ record.creditId = Registry.Sample.credit 0 :=
    ⟨retirementId BytesN32.mk none ⟨Registry.Sample.credit 0, Registry.Sample.issuer, 1000000,
      "offset", 1735689600⟩, _, rfl, rfl⟩
  rw [← credit]
  exact records_backed BytesN32.mk_injective _ (by decide) stored

set_option maxRecDepth 100000 in
/-- The record is stored while the credit stays active in the registry. -/
theorem forge_not_backed :
    Function.Injective BytesN32.mk ∧
      ∃ id record,
        ((system Sample.network).state (Sample.issued ++ [Sample.forge])).peer.retirement.lookup
          id = some record ∧
        ¬ IsRetired ((system Sample.network).state (Sample.issued ++ [Sample.forge])).registry
          record.creditId := by
  refine ⟨BytesN32.mk_injective, retirementId BytesN32.mk none
    ⟨Registry.Sample.credit 0, Sample.buyer, 1000000, "offset", 1735689600⟩, _, rfl, ?_⟩
  decide

/-! ## The registry as the only callee -/

/-- The records, the credits in the registry and the lists of the accounts are in step. -/
structure InStep (sha256 : Bytes → BytesN32) (s : Joint) : Prop where
  derived : s.registry.ledger.Derived sha256
  backed : Backed s
  keyed : ∀ id record, s.peer.retirement.lookup id = some record →
    ∃ position, id = retirementId sha256 position record
  single : ∀ id id' record record', s.peer.retirement.lookup id = some record →
    s.peer.retirement.lookup id' = some record' → record.creditId = record'.creditId → id = id'
  listed : ∀ account, (s.peer.getRetirementsByAccount account).Nodup ∧
    ∀ id, id ∈ s.peer.getRetirementsByAccount account ↔
      ∃ record, s.peer.retirement.lookup id = some record ∧ record.buyer = account

theorem inStep_init {sha256 : Bytes → BytesN32} : InStep sha256 (system net).init := by
  refine ⟨Registry.derived_init, ?_, ?_, ?_, ?_⟩
  · intro id record stored
    cases stored
  · intro id record stored
    cases stored
  · intro id id' record record' stored
    cases stored
  · intro account
    refine ⟨List.nodup_nil, fun id => ⟨?_, ?_⟩⟩
    · intro listed
      cases listed
    · rintro ⟨record, stored, -⟩
      cases stored

/-- The credit of a stored record cannot be retired again. -/
theorem InStep.unretired {s : Joint} {sha256 : Bytes → BytesN32} (inStep : InStep sha256 s)
    {ids : List BytesN32} {after : Registry.State} (retires : Retires ids s.registry after)
    {id : BytesN32} {record : RetirementRecord}
    (stored : s.peer.retirement.lookup id = some record) : record.creditId ∉ ids := by
  intro listed
  obtain ⟨credit, there, active⟩ := retires.active _ listed
  obtain ⟨credit', there', retired⟩ := isRetired_iff.mp (inStep.backed id record stored)
  obtain rfl := Option.some.inj (there.symm.trans there')
  rw [active] at retired
  cases retired

/-- The ids that a call writes are new. -/
theorem InStep.fresh (inj : Function.Injective net.sha256) {s : Joint}
    (inStep : InStep net.sha256 s) {ids : List BytesN32} {after : Registry.State}
    (retires : Retires ids s.registry after) {x : Option Nat × RetirementRecord}
    (listed : x.2.creditId ∈ ids) :
    s.peer.retirement.lookup (retirementId net.sha256 x.1 x.2) = none := by
  by_contra stored
  obtain ⟨record, there⟩ := Option.ne_none_iff_exists'.mp stored
  obtain ⟨position, same⟩ := inStep.keyed _ record there
  have key := (retirementId_eq inj (x := x) (y := (position, record))).mp same
  exact inStep.unretired retires there (key.2.1 ▸ listed)

/-- The ids of the records of one call are distinct. -/
theorem records_ids_nodup (inj : Function.Injective net.sha256) (call : Call) (env : Env) :
    ((call.records env).map fun x => retirementId net.sha256 x.1 x.2).Nodup := by
  rw [List.Nodup, List.pairwise_map]
  exact (call.records_distinct env).imp fun differ same =>
    differ ((retirementId_eq inj).mp same).1

/-- No two records name one credit after the records of a call are written. -/
theorem InStep.single_step (inj : Function.Injective net.sha256) {s : Joint}
    (inStep : InStep net.sha256 s) {after : Registry.State}
    {records : List (Option Nat × RetirementRecord)}
    (distinct : records.Pairwise fun x y => x.1 ≠ y.1)
    (retires : Retires (records.map (·.2.creditId)) s.registry after) {id id' : BytesN32}
    {record record' : RetirementRecord}
    (stored : (storeAll net.sha256 s.peer.retirement records).lookup id = some record)
    (stored' : (storeAll net.sha256 s.peer.retirement records).lookup id' = some record')
    (same : record.creditId = record'.creditId) : id = id' := by
  rcases lookup_storeAll_cases inj distinct stored with ⟨x, written, rfl, rfl⟩ | ⟨-, before⟩
  · rcases lookup_storeAll_cases inj distinct stored' with ⟨y, written', rfl, rfl⟩ | ⟨-, before⟩
    · rw [List.inj_on_of_nodup_map retires.distinct written written' same]
    · have listed := List.mem_map_of_mem (f := (·.2.creditId)) written
      rw [same] at listed
      exact absurd listed (inStep.unretired retires before)
  · rcases lookup_storeAll_cases inj distinct stored' with ⟨y, written', rfl, rfl⟩ | ⟨-, before'⟩
    · have listed := List.mem_map_of_mem (f := (·.2.creditId)) written'
      rw [← same] at listed
      exact absurd listed (inStep.unretired retires before)
    · exact inStep.single id id' record record' before before' same

/-- The records of a call are new. -/
theorem InStep.absent (inj : Function.Injective net.sha256) {s : Joint}
    (inStep : InStep net.sha256 s) {after : Registry.State} {call : Call} {env : Env}
    (retires : Retires ((call.records env).map (·.2.creditId)) s.registry after)
    {x : Option Nat × RetirementRecord} (written : x ∈ call.records env) :
    s.peer.retirement.lookup (retirementId net.sha256 x.1 x.2) = none :=
  inStep.fresh inj retires (List.mem_map_of_mem (f := (·.2.creditId)) written)

/-- So they overwrite nothing. -/
theorem InStep.kept (inj : Function.Injective net.sha256) {s : Joint}
    (inStep : InStep net.sha256 s) {after : Registry.State} {call : Call} {env : Env}
    (retires : Retires ((call.records env).map (·.2.creditId)) s.registry after) {id : BytesN32}
    {record : RetirementRecord} (stored : s.peer.retirement.lookup id = some record) :
    (storeAll net.sha256 s.peer.retirement (call.records env)).lookup id = some record := by
  rw [lookup_storeAll_of_ne]
  · exact stored
  · rintro x written rfl
    rw [inStep.absent inj retires written] at stored
    cases stored

/-- The list of an account with what a call adds to it has no duplicates. -/
theorem InStep.listed_nodup (inj : Function.Injective net.sha256) {s : Joint}
    (inStep : InStep net.sha256 s) {after : Registry.State} (call : Call) (env : Env)
    (retires : Retires ((call.records env).map (·.2.creditId)) s.registry after)
    (account : Address) :
    (s.peer.getRetirementsByAccount account ++
      if call.buyer = some account then
        (call.records env).map fun x => retirementId net.sha256 x.1 x.2
      else []).Nodup := by
  obtain ⟨distinct, exact_⟩ := inStep.listed account
  rw [List.nodup_append]
  refine ⟨distinct, ?_, ?_⟩
  · split
    · exact records_ids_nodup inj call env
    · exact List.nodup_nil
  · intro id before id' new same
    split at new
    · obtain ⟨x, written, rfl⟩ := List.mem_map.mp new
      obtain ⟨record, stored, -⟩ := (exact_ id).mp before
      rw [same, inStep.absent inj retires written] at stored
      cases stored
    · cases new

/-- It lists exactly the records of the account after the records of the call are written. -/
theorem InStep.mem_listed (inj : Function.Injective net.sha256) {s : Joint}
    (inStep : InStep net.sha256 s) {after : Registry.State} (call : Call) (env : Env)
    (retires : Retires ((call.records env).map (·.2.creditId)) s.registry after)
    (account : Address) (id : BytesN32) :
    (id ∈ s.peer.getRetirementsByAccount account ++
      if call.buyer = some account then
        (call.records env).map fun x => retirementId net.sha256 x.1 x.2
      else []) ↔
    ∃ record, (storeAll net.sha256 s.peer.retirement (call.records env)).lookup id = some record ∧
      record.buyer = account := by
  have earlier := (inStep.listed account).2
  rw [List.mem_append]
  constructor
  · rintro (before | new)
    · obtain ⟨record, stored, buyer⟩ := (earlier id).mp before
      exact ⟨record, inStep.kept inj retires stored, buyer⟩
    · split at new
      · next its =>
          obtain ⟨x, written, rfl⟩ := List.mem_map.mp new
          refine ⟨x.2, lookup_storeAll_of_mem inj (call.records_distinct env) written, ?_⟩
          exact Option.some.inj ((records_buyer written).symm.trans its)
      · cases new
  · rintro ⟨record, stored, buyer⟩
    rcases lookup_storeAll_cases inj (call.records_distinct env) stored with
      ⟨x, written, rfl, rfl⟩ | ⟨-, before⟩
    · right
      rw [if_pos (buyer ▸ records_buyer written)]
      exact List.mem_map_of_mem written
    · exact .inl ((earlier id).mpr ⟨record, before, buyer⟩)

theorem InStep.step (inj : Function.Injective net.sha256) {event : JointEvent}
    (inStep : InStep net.sha256 event.pre) (genuine : Genuine net event)
    (commits : (system net).Commits event) : InStep net.sha256 event.post := by
  have derived := (commits_stillRetired inj inStep.derived commits).1
  have backed := inStep.backed.step inj inStep.derived (.inl genuine) commits
  cases named : event.input with
  | registry invocation =>
      obtain ⟨same, -⟩ := Network.commits_registry commits named
      refine ⟨derived, backed, ?_, ?_, ?_⟩
      · rw [same]
        exact inStep.keyed
      · rw [same]
        exact inStep.single
      · rw [same]
        exact inStep.listed
  | peer env call foreign =>
      have retires := commits_retires genuine commits named
      obtain ⟨ret, u, success, -⟩ := Network.commits_peer commits named
      obtain ⟨stored, indexed⟩ := exec_records success
      rw [← records_creditIds success] at retires
      have distinct := call.records_distinct (env.external net.self)
      refine ⟨derived, backed, ?_, ?_, ?_⟩
      · intro id record there
        rw [stored] at there
        rcases lookup_storeAll_cases inj distinct there with ⟨x, -, same, rfl⟩ | ⟨-, before⟩
        · exact ⟨x.1, same⟩
        · exact inStep.keyed id record before
      · rw [stored]
        intro id id' record record'
        exact inStep.single_step inj distinct retires
      · rw [stored]
        intro account
        rw [indexed account]
        exact ⟨inStep.listed_nodup inj call _ retires account,
          inStep.mem_listed inj call _ retires account⟩

/-- No transaction that names the registry changes a record. -/
theorem InStep.record_stays (inj : Function.Injective net.sha256) {event : JointEvent}
    (inStep : InStep net.sha256 event.pre) (genuine : Genuine net event)
    (commits : (system net).Commits event) {id : BytesN32} {record : RetirementRecord}
    (stored : event.pre.peer.retirement.lookup id = some record) :
    event.post.peer.retirement.lookup id = some record := by
  cases named : event.input with
  | registry invocation =>
      obtain ⟨same, -⟩ := Network.commits_registry commits named
      rw [same]
      exact stored
  | peer env call foreign =>
      have retires := commits_retires genuine commits named
      obtain ⟨ret, u, success, -⟩ := Network.commits_peer commits named
      rw [← records_creditIds success] at retires
      rw [(exec_records success).1]
      exact inStep.kept inj retires stored

/-- A credit is retired for credit at most once, and the index of the accounts is exact: in
every run whose calls name the registry, every record names a credit retired in the
registry, no two records name one credit, and the list of an account holds exactly the
ids of the records in its name, each once. -/
theorem records_in_step (inj : Function.Injective net.sha256) (inputs : List (Network.Input Call))
    (genuine : ∀ event ∈ (system net).log inputs, Genuine net event) :
    (∀ id record, ((system net).state inputs).peer.retirement.lookup id = some record →
      IsRetired ((system net).state inputs).registry record.creditId) ∧
    (∀ id id' record record',
      ((system net).state inputs).peer.retirement.lookup id = some record →
      ((system net).state inputs).peer.retirement.lookup id' = some record' →
      record.creditId = record'.creditId → id = id') ∧
    ∀ account,
      (((system net).state inputs).peer.getRetirementsByAccount account).Nodup ∧
      ∀ id, id ∈ ((system net).state inputs).peer.getRetirementsByAccount account ↔
        ∃ record, ((system net).state inputs).peer.retirement.lookup id = some record ∧
          record.buyer = account := by
  have inv := (system net).run_induct_of (fun _ event => Genuine net event)
    (fun _ s => InStep net.sha256 s)
    inStep_init (fun log event inv genuine commits => inv.step inj genuine commits)
    inputs (Machine.admits_forall.mpr genuine)
  exact ⟨inv.backed, inv.single, inv.listed⟩

namespace Sample

/-- The issuer splits its credit and retires both halves in one batch. -/
def splitAndRetire : List (Network.Input Call) :=
  issued ++
    [.registry (Registry.Sample.call Registry.Sample.issuer
      (.splitCredit Registry.Sample.issuer (Registry.Sample.credit 0) 500000 1)),
     call Registry.Sample.issuer (.batchRetire Registry.Sample.issuer
      [Registry.creditId BytesN32.mk (.bytes (Registry.Sample.credit 0)) 1,
       Registry.creditId BytesN32.mk (.bytes (Registry.Sample.credit 0)) 2] [500000, 500000]
      "offset" network.registryId 0)]

end Sample

set_option maxRecDepth 100000 in
theorem splitAndRetire_listed :
    (((system Sample.network).state Sample.splitAndRetire).peer.getRetirementsByAccount
      Registry.Sample.issuer).Nodup :=
  ((records_in_step BytesN32.mk_injective Sample.splitAndRetire (by decide)).2.2 _).1

end CarbonChain.Retirement
