import CarbonChain.Retirement.System

/-!
# Retirement: who retires a credit

`retire` (`contracts/retirement/src/lib.rs:110-188`) compares the owner in the registry
with the buyer; `batch_retire` (`:198-275`) compares nothing, and `mark_retired`
(`contracts/credit_registry/src/lib.rs:506-521`) only checks that the call comes from the
retirement contract. A batch therefore retires other people's credits for its buyer.
-/

namespace CarbonChain.Retirement

open Registry (Network ForeignReply)

variable {net : Network}

/-- The transaction can retire a credit through `mark_retired`: it calls Retirement, or
it invokes `mark_retired` itself. -/
def ViaMarkRetired : Network.Input Call → Prop
  | .registry invocation => ∃ id, invocation.call = .markRetired id
  | .peer _ _ _ => True

/-- Whenever the event moves a credit from active to retired through `mark_retired`, it is
a call whose buyer authorised it, owned the credit just before and is in a record of it. -/
def RetiredByOwner (event : JointEvent) : Prop :=
  ∀ id credit credit', event.pre.registry.ledger.getCredit id = some credit →
    credit.status = .active → event.post.registry.ledger.getCredit id = some credit' →
    credit'.status = .retired → ViaMarkRetired event.input →
    ∃ env call foreign, event.input = .peer env call foreign ∧ call.buyer = some credit.owner ∧
      env.auth credit.owner = true ∧ ∃ recordId record,
        event.post.peer.retirement.lookup recordId = some record ∧ record.creditId = id ∧
          record.buyer = credit.owner

/-- The credits that a call of `batch_retire` lists, with its buyer. -/
def Call.batch : Call → Option (Address × List BytesN32)
  | .batchRetire buyer creditIds _ _ _ _ => some (buyer, creditIds)
  | _ => none

/-- A batch lists only credits that its buyer owns in the registry. -/
def BatchOwned (event : JointEvent) : Prop :=
  ∀ batch ∈ event.input.call.bind Call.batch, ∀ id ∈ batch.2,
    ∀ credit ∈ event.pre.registry.ledger.getCredit id, credit.owner = batch.1

instance (event : JointEvent) : Decidable (BatchOwned event) :=
  inferInstanceAs (Decidable (∀ batch ∈ event.input.call.bind Call.batch, ∀ id ∈ batch.2,
    ∀ credit ∈ event.pre.registry.ledger.getCredit id, _ = _))

/-- The registry has no retirement contract but Retirement. -/
def TrustsOnly (net : Network) (s : Joint) : Prop :=
  ∀ retirementContract ∈ s.registry.roles.retirementContract, retirementContract = net.self

theorem TrustsOnly.step {event : JointEvent} (trusts : TrustsOnly net event.pre)
    (genuine : Genuine net event) (trusting : Trusting net event)
    (commits : (system net).Commits event) : TrustsOnly net event.post := by
  cases named : event.input with
  | registry invocation =>
      obtain ⟨-, ret, success⟩ := Network.commits_registry commits named
      unfold TrustsOnly
      cases Registry.exec_roles_cases _ _ success with
      | initialised admin retirementContract k call fresh founded stored positive threshold
          ledger =>
          rw [stored]
          intro other same
          obtain rfl := Option.mem_some_iff.mp same
          apply trusting retirementContract
          obtain ⟨env, initialises⟩ := invocation
          obtain rfl : initialises = _ := call
          rw [named]
          rfl
      | kept later kept =>
          rw [kept.retirementContract]
          exact trusts
  | peer env call foreign =>
      unfold TrustsOnly
      rw [(commits_retires genuine commits named).roles]
      exact trusts

/-- `mark_retired` cannot be invoked from outside. -/
theorem not_external_markRetired {event : JointEvent} (trusts : TrustsOnly net event.pre)
    (commits : (system net).Commits event) {invocation : Registry.Invocation} {id : BytesN32}
    (named : event.input = .registry invocation) : invocation.call ≠ .markRetired id := by
  intro call
  obtain ⟨-, ret, success⟩ := Network.commits_registry commits named
  rw [call] at success
  have marked := ((Registry.exec_eq_ok _ _).mp success).2
  obtain ⟨retirementContract, credit, stored, authorised, -⟩ :=
    Registry.markRetired_ok _ _ (Registry.Result.unit_eq_ok.mp marked).1
  rw [Env.external_auth] at authorised
  exact authorised.2 (trusts retirementContract stored)

/-- A retired credit of a call has its record, in the name of the buyer. -/
theorem record_stored (inj : Function.Injective net.sha256) {event : JointEvent}
    (commits : (system net).Commits event) {env : Env} {call : Call}
    {foreign : Nat → ForeignReply} (named : event.input = .peer env call foreign)
    {id : BytesN32} (listed : id ∈ call.creditIds) :
    ∃ buyer, call.buyer = some buyer ∧ env.auth buyer = true ∧ ∃ recordId record,
      event.post.peer.retirement.lookup recordId = some record ∧ record.creditId = id ∧
        record.buyer = buyer := by
  obtain ⟨ret, u, success, -⟩ := Network.commits_peer commits named
  rw [← records_creditIds success] at listed
  obtain ⟨x, written, rfl⟩ := List.mem_map.mp listed
  have buyer := records_buyer written
  have authorised := (Env.external_auth env net.self _).mp (exec_authorised buyer success)
  refine ⟨x.2.buyer, buyer, authorised.1, retirementId net.sha256 x.1 x.2, x.2, ?_, rfl, rfl⟩
  rw [(exec_records success).1]
  exact lookup_storeAll_of_mem inj (call.records_distinct _) written

/-- On the registry it names, a call retires credits of its buyer: `retire` checks it, and
a batch does if it lists no others. -/
theorem buyer_owns {event : JointEvent} (genuine : Genuine net event)
    (owned : BatchOwned event) (commits : (system net).Commits event) {env : Env} {call : Call}
    {foreign : Nat → ForeignReply} (named : event.input = .peer env call foreign)
    {id : BytesN32} (listed : id ∈ call.creditIds) {credit : Registry.CreditMetadata}
    (stored : event.pre.registry.ledger.getCredit id = some credit) :
    call.buyer = some credit.owner := by
  obtain ⟨ret, u, success, -⟩ := Network.commits_peer commits named
  cases call with
  | retire buyer creditId tonnes reason registryId nonce =>
      obtain rfl := List.mem_singleton.mp listed
      obtain ⟨-, shown, w₁, invoked, -, owner, -⟩ := retire_ok success
      obtain rfl := genuine.registryId_eq named rfl
      obtain ⟨-, found, there, same⟩ := Registry.respond_getCredit (Network.client_registry invoked)
      cases same
      obtain rfl := Option.some.inj (there.symm.trans stored)
      exact congrArg some owner.symm
  | batchRetire buyer creditIds tonnes reason registryId nonce =>
      have its : credit.owner = buyer := by
        refine owned (buyer, creditIds) ?_ id listed credit stored
        rw [named]
        rfl
      exact congrArg some its.symm
  | _ => cases listed

/-- A batch retires every credit that it lists, so if only owners retire, it lists credits
of its buyer. -/
theorem RetiredByOwner.batchOwned {event : JointEvent} (genuine : Genuine net event)
    (commits : (system net).Commits event) (owners : RetiredByOwner event) : BatchOwned event := by
  intro batch batched id listed credit stored
  cases named : event.input with
  | registry invocation =>
      rw [named] at batched
      cases batched
  | peer env call foreign =>
      rw [named] at batched
      cases call with
      | batchRetire buyer creditIds tonnes reason registryId nonce =>
          obtain rfl := Option.mem_some_iff.mp batched
          have retires := commits_retires genuine commits named
          obtain ⟨found, there, active⟩ := retires.active id listed
          obtain rfl := Option.some.inj (there.symm.trans stored)
          obtain ⟨credit', after, retired⟩ := retires.retired listed
          have via : ViaMarkRetired event.input := by
            rw [named]
            trivial
          obtain ⟨env', call', foreign', same, owner, -⟩ :=
            owners id found credit' there active after retired via
          rw [named] at same
          cases same
          exact (Option.some.inj owner).symm
      | _ => cases batched

/-- Only the calls of Retirement retire through `mark_retired`, and they retire what they
list. -/
theorem BatchOwned.retiredByOwner (inj : Function.Injective net.sha256) {event : JointEvent}
    (trusts : TrustsOnly net event.pre) (genuine : Genuine net event)
    (commits : (system net).Commits event) (owned : BatchOwned event) : RetiredByOwner event := by
  intro id credit credit' stored active after retired via
  cases named : event.input with
  | registry invocation =>
      rw [named] at via
      obtain ⟨target, call⟩ := via
      exact absurd call (not_external_markRetired trusts commits named)
  | peer env call foreign =>
      have retires := commits_retires genuine commits named
      have listed : id ∈ call.creditIds := by
        by_contra unlisted
        rw [retires.getCredit, if_neg unlisted, stored] at after
        obtain rfl := Option.some.inj after
        rw [active] at retired
        cases retired
      have owner : call.buyer = some credit.owner :=
        buyer_owns genuine owned commits named listed stored
      obtain ⟨buyer, buys, authorised, record⟩ := record_stored inj commits named listed
      obtain rfl := Option.some.inj (buys.symm.trans owner)
      exact ⟨env, call, foreign, rfl, owner, authorised, record⟩

/-- Only owners retire, in exactly the runs whose batches list credits of their buyers. -/
theorem retiredByOwner_iff_batchOwned (inj : Function.Injective net.sha256)
    (inputs : List (Network.Input Call))
    (genuine : ∀ event ∈ (system net).log inputs, Genuine net event)
    (trusting : ∀ event ∈ (system net).log inputs, Trusting net event) :
    (∀ event ∈ (system net).log inputs, RetiredByOwner event) ↔
      ∀ event ∈ (system net).log inputs, BatchOwned event := by
  have committed : ∀ event ∈ (system net).log inputs,
      TrustsOnly net event.pre ∧ (system net).Commits event := by
    intro event logged
    obtain ⟨before, after, -, trusts, -, commits⟩ := (system net).induct_pre_of
      (fun _ event => Genuine net event ∧ Trusting net event) (fun _ s => TrustsOnly net s)
      (fun retirementContract none => by cases none)
      (fun log event trusts conditions commits => trusts.step conditions.1 conditions.2 commits)
      (Machine.admits_of_forall fun e here _ => ⟨genuine e here, trusting e here⟩) logged
    exact ⟨trusts, commits⟩
  constructor
  · intro owners event logged
    exact (owners event logged).batchOwned (genuine event logged) (committed event logged).2
  · intro owned event logged
    have ⟨trusts, commits⟩ := committed event logged
    exact (owned event logged).retiredByOwner inj trusts (genuine event logged) commits

namespace Sample

/-- A batch of the issuer's one credit, for `signer`. -/
def batch (signer : Address) : Network.Input Call :=
  call signer
    (.batchRetire signer [Registry.Sample.credit 0] [1000000] "offset" network.registryId 0)

end Sample

set_option maxRecDepth 100000 in
/-- The issuer's own batch is committed. -/
theorem batch_by_issuer_retiredByOwner :
    ((system Sample.network).log
      (Sample.issued ++ [Sample.batch Registry.Sample.issuer])).length = 8 ∧
    ∀ event ∈ (system Sample.network).log (Sample.issued ++ [Sample.batch Registry.Sample.issuer]),
      RetiredByOwner event :=
  ⟨by decide,
    (retiredByOwner_iff_batchOwned BytesN32.mk_injective _ (by decide) (by decide)).mpr (by decide)⟩

set_option maxRecDepth 100000 in
/-- A buyer who owns nothing retires the issuer's credit. -/
theorem batch_by_buyer_not_retiredByOwner :
    Function.Injective BytesN32.mk ∧
      (∀ event ∈ (system Sample.network).log (Sample.issued ++ [Sample.batch Sample.buyer]),
        Genuine Sample.network event ∧ Trusting Sample.network event) ∧
      ¬ ∀ event ∈ (system Sample.network).log (Sample.issued ++ [Sample.batch Sample.buyer]),
        RetiredByOwner event := by
  refine ⟨BytesN32.mk_injective, by decide, ?_⟩
  intro owners
  obtain ⟨event, logged, credit, credit', stored, active, after, retired, named, owner⟩ :
      ∃ event ∈ (system Sample.network).log (Sample.issued ++ [Sample.batch Sample.buyer]),
        ∃ credit credit',
          event.pre.registry.ledger.getCredit (Registry.Sample.credit 0) = some credit ∧
          credit.status = .active ∧
          event.post.registry.ledger.getCredit (Registry.Sample.credit 0) = some credit' ∧
          credit'.status = .retired ∧ event.input = Sample.batch Sample.buyer ∧
          credit.owner ≠ Sample.buyer :=
    ⟨_, List.getElem_mem (n := 7) (by decide), _, _, rfl, rfl, rfl, rfl, rfl, by decide⟩
  obtain ⟨env, call, foreign, same, buyer, -⟩ := owners event logged _ credit credit' stored
    active after retired (by rw [named]; trivial)
  rw [named] at same
  cases same
  exact owner (Option.some.inj buyer).symm

end CarbonChain.Retirement
