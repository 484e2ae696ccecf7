import CarbonChain.Certificates.Verification

/-!
# The index and the chain

`getRetirement` serves a retirement from the repository, or, when it is not there, from the
chain, through `readContract`. `retire` saves the strings of the request and the time of the
API's clock (`api/src/retirement/retirement.service.ts:126-134`). The contract stores what is
read from the strings and the time of the ledger.
-/

namespace CarbonChain.Certificates

open Retirement (Joint InStep RetirementRecord)
open Stellar (NewAccount TakesReadAccount Rpc GetTransactionResponse)

variable {config : Config} {newAccount : NewAccount}

/-- The string is the one that a value is written as. -/
def Written.Canonical {α : Type} (w : Written α) : Prop := ∃ a, w = .canonical a

/-- The strings of the request are written as the chain's values are. -/
structure RetireDto.Canonical (dto : RetireDto) : Prop where
  creditId : dto.creditId.Canonical
  buyer : dto.buyerPublicKey.Canonical
  tonnes : dto.tonnes.Canonical

/-- What is served for the id from the repository is what would be served from the chain. -/
def IndexAgrees (newAccount : NewAccount) (s : State) (id : BytesN32) : Prop :=
  ∀ simulated, getRetirement newAccount s.chain s.repo simulated (.canonical id) =
    getRetirement newAccount s.chain ∅ (some true) (.canonical id)

/-- A call of `retire` that succeeds on the chain, and whose response has the id that the
contract returned. -/
structure Succeeds (config : Config) (s s' : State) (dto : RetireDto) (run : Execution)
    (rpc : Rpc BytesN32) (now : Nat) (id : BytesN32) : Prop where
  returned : (execute config s.chain dto (some run)).2 = some id
  answered : ∃ retired, exec config s (.retire dto (some run) rpc now) = .ok (some retired, s') ∧
    retired.retirementId = .canonical id

/-! ## The two records -/

/-- The record that is decoded from the chain. -/
def decoded (id : BytesN32) (record : RetirementRecord) : ApiRecord where
  id := .canonical id
  creditId := .canonical record.creditId
  buyer := .canonical record.buyer
  tonnesRetired := .canonical record.tonnesRetired
  reason := record.reason
  retiredAt := record.retiredAt
  txHash := ""

theorem getRetirement_indexed {chain : Joint} {repo : Repository} {e : RetirementEntity}
    {id : Written BytesN32} (indexed : repo.findById id = some e) (simulated : Option Bool) :
    getRetirement newAccount chain repo simulated id = .ok (entityToRecord e) := by
  unfold getRetirement
  rw [indexed]
  rfl

theorem getRetirement_fallback_eq_ok {chain : Joint} {id : BytesN32} {served : ApiRecord} :
    getRetirement newAccount chain ∅ (some true) (.canonical id) = .ok served ↔
      TakesReadAccount newAccount ∧ chain.peer.wasm = none ∧
        ∃ record, chain.peer.retirement.lookup id = some record ∧ served = decoded id record := by
  have absent : (∅ : Repository).findById (.canonical id) = none := rfl
  simp only [getRetirement, absent, readRetirement_eq_ok, simulateRetirement, bind_eq_ok,
    unwrap_eq_ok, okOr_eq_ok, pure_eq_ok, Option.some.injEq, exists_eq_left', true_and,
    Written.read, Option.map_some]
  constructor
  · rintro ⟨_, ⟨takes, read⟩, _, rfl, record, rfl, rfl⟩
    obtain ⟨installed, stored⟩ := Option.ite_none_right_eq_some.mp read
    exact ⟨takes, installed, record, Option.some.inj stored, rfl⟩
  · rintro ⟨takes, installed, record, stored, rfl⟩
    refine ⟨some (some record), ⟨takes, ?_⟩, some record, rfl, record, rfl, rfl⟩
    rw [if_pos installed, Retirement.getRetirement, stored]

/-- An indexed entity agrees if the chain can be read and the contract stores the record that the
entity stands for. -/
theorem indexAgrees_iff {s : State} {id : BytesN32} {e : RetirementEntity}
    (indexed : s.repo.findById (.canonical id) = some e) :
    IndexAgrees newAccount s id ↔ TakesReadAccount newAccount ∧ s.chain.peer.wasm = none ∧
      ∃ record, s.chain.peer.retirement.lookup id = some record ∧
        entityToRecord e = decoded id record := by
  unfold IndexAgrees
  simp only [getRetirement_indexed indexed, forall_const]
  rw [eq_comm, getRetirement_fallback_eq_ok]

theorem Written.eq_canonical_iff {α : Type} {w : Written α} {a : α} (read : w.read = some a) :
    w = .canonical a ↔ w.Canonical := by
  constructor
  · intro same
    exact ⟨a, same⟩
  · rintro ⟨b, rfl⟩
    obtain rfl := Option.some.inj read
    rfl

/-- The entity of a request stands for a record with the same values if it is written as the
record is, and has its time. -/
theorem entity_eq_decoded_iff {dto : RetireDto} {now : Nat} {record : RetirementRecord}
    (id : BytesN32) (credit : dto.creditId.read = some record.creditId)
    (buyer : dto.buyerPublicKey.read = some record.buyer)
    (tonnes : dto.tonnes.read = some record.tonnesRetired) (reason : dto.reason = record.reason) :
    entityToRecord (dto.entity (.canonical id) now) = decoded id record ↔
      dto.Canonical ∧ now = record.retiredAt := by
  simp only [entityToRecord, RetireDto.entity, decoded, ApiRecord.mk.injEq, reason, true_and,
    and_true, Written.eq_canonical_iff credit, Written.eq_canonical_iff buyer,
    Written.eq_canonical_iff tonnes]
  constructor
  · rintro ⟨credit, buyer, tonnes, time⟩
    exact ⟨⟨credit, buyer, tonnes⟩, time⟩
  · rintro ⟨⟨credit, buyer, tonnes⟩, time⟩
    exact ⟨credit, buyer, tonnes, time⟩

/-! ## One call -/

theorem findById_save_entity (repo : Repository) (dto : RetireDto) (id : Written BytesN32)
    (now : Nat) : (repo.save (dto.entity id now)).findById id = some (dto.entity id now) := by
  rw [Repository.findById, Repository.save, Store.lookup_insert_ite]
  exact if_pos rfl

/-- The index with the entity of a call agrees with the chain after it if and only if the chain
can be read, the strings of the request are canonical and the clock of the API shows the time of
the ledger. -/
theorem indexAgrees_save_iff {chain chain' : Joint} {dto : RetireDto} {run : Execution}
    {id : BytesN32} (executed : execute config chain dto (some run) = (chain', some id))
    (repo : Repository) (now : Nat) :
    IndexAgrees newAccount ⟨chain', repo.save (dto.entity (.canonical id) now)⟩ id ↔
      TakesReadAccount newAccount ∧ dto.Canonical ∧ now = run.env.timestamp := by
  obtain ⟨installed, record, stored, credit, buyer, tonnes, reason, run', ran, time⟩ :=
    execute_stores executed
  obtain rfl := Option.some.inj ran
  rw [indexAgrees_iff (findById_save_entity repo dto (.canonical id) now), ← time,
    ← entity_eq_decoded_iff id credit buyer tonnes reason]
  constructor
  · rintro ⟨takes, -, record', stored', same⟩
    rw [stored] at stored'
    obtain rfl := Option.some.inj stored'
    exact ⟨takes, same⟩
  · rintro ⟨takes, same⟩
    exact ⟨takes, installed, record, stored, same⟩

/-- Right after a call that succeeds, the record that is served from the repository is the one
that would be served from the chain, if and only if the SDK takes the account of readings, the
strings of the request are canonical and the clock of the API shows the time of the ledger. -/
theorem index_agrees_iff (newAccount : NewAccount) {s s' : State} {dto : RetireDto}
    {run : Execution} {rpc : Rpc BytesN32} {now : Nat} {id : BytesN32}
    (succeeds : Succeeds config s s' dto run rpc now id) :
    IndexAgrees newAccount s' id ↔
      TakesReadAccount newAccount ∧ dto.Canonical ∧ now = run.env.timestamp := by
  obtain ⟨retired, ran, named⟩ := succeeds.answered
  simp only [exec] at ran
  split at ran
  · rename_i retired' repo success
    cases ran
    simp only [retire, bind_eq_ok, pure_eq_ok, Prod.mk.injEq] at success
    obtain ⟨_, -, response, -, rfl, rfl⟩ := success
    dsimp only at named
    rw [named]
    apply indexAgrees_save_iff
    exact Prod.ext rfl succeeds.returned
  · cases ran

namespace Sample

/-- The issuer has an active credit. -/
def owned : State := (service deployed).state (Retirement.Sample.issued.map .transaction)

end Sample

set_option maxRecDepth 100000 in
/-- A punctual call agrees where the account of readings is not checked, and does not with the
checksum of the SDK. -/
theorem punctual_agrees :
    ∃ s', Succeeds Sample.deployed Sample.owned s' Sample.retireOne Sample.run
        (Sample.found ⟨.success, some Sample.recordId⟩) 1735689600 Sample.recordId ∧
      IndexAgrees Stellar.Sample.unchecked s' Sample.recordId ∧
      ¬ IndexAgrees Stellar.Sample.strkey s' Sample.recordId := by
  obtain ⟨s', succeeds⟩ : ∃ s', Succeeds Sample.deployed Sample.owned s' Sample.retireOne
      Sample.run (Sample.found ⟨.success, some Sample.recordId⟩) 1735689600 Sample.recordId :=
    ⟨_, by decide, _, rfl, rfl⟩
  refine ⟨s', succeeds, (index_agrees_iff _ succeeds).mpr ⟨rfl, ?_, rfl⟩, ?_⟩
  · exact ⟨⟨_, rfl⟩, ⟨_, rfl⟩, ⟨_, rfl⟩⟩
  · intro agrees
    exact Stellar.strkey_refuses ((index_agrees_iff _ succeeds).mp agrees).1

set_option maxRecDepth 100000 in
/-- The chain cannot be read; and where it could, the clock of the API is one second ahead. -/
theorem late_not_agrees :
    ∃ s', Succeeds Sample.deployed Sample.owned s' Sample.retireOne Sample.run
        (Sample.found ⟨.success, some Sample.recordId⟩) 1735689601 Sample.recordId ∧
      ¬ IndexAgrees Stellar.Sample.strkey s' Sample.recordId ∧
      ¬ IndexAgrees Stellar.Sample.unchecked s' Sample.recordId := by
  refine ⟨_, ⟨?_, _, rfl, rfl⟩, ?_, ?_⟩
  · decide
  · intro agrees
    have served := congrArg Except.isOk (agrees none)
    exact absurd served (by decide)
  · intro agrees
    have times := congrArg (fun served => served.toOption.map ApiRecord.retiredAt) (agrees none)
    exact absurd times (by decide)

/-! ## Runs -/

/-- Every indexed id agrees, as long as the contract runs the code modelled here. -/
def Agrees (newAccount : NewAccount) (s : State) : Prop :=
  ∀ id, s.repo.findById (.canonical id) ≠ none → s.chain.peer.wasm = none →
    IndexAgrees newAccount s id

/-- A call whose response has a value finds that the chain can be read; its strings are canonical,
and the clock of the API shows the time of the ledger. -/
def Mirrors (newAccount : NewAccount) (config : Config) (event : ServiceEvent) : Prop :=
  ∀ dto run rpc now, event.input = .retire dto (some run) rpc now → Submits config dto →
    ∀ response, rpc.Responds response → response.returnValue ≠ none →
      TakesReadAccount newAccount ∧ dto.Canonical ∧ now = run.env.timestamp

/-- An id that is not saved anew agrees as before. -/
theorem Agrees.elsewhere {s s' : State} (agrees : Agrees newAccount s)
    (keeps : Keeps config s.chain s'.chain) {id : BytesN32}
    (same : s'.repo.findById (.canonical id) = s.repo.findById (.canonical id))
    (indexed : s'.repo.findById (.canonical id) ≠ none) (before : s.chain.peer.wasm = none)
    (after : s'.chain.peer.wasm = none) : IndexAgrees newAccount s' id := by
  obtain ⟨e, found⟩ := Option.ne_none_iff_exists'.mp indexed
  rw [same] at indexed
  have earlier := agrees id indexed before
  rw [indexAgrees_iff (same ▸ found)] at earlier
  obtain ⟨takes, -, record, stored, decodes⟩ := earlier
  rw [indexAgrees_iff found]
  exact ⟨takes, after, record, keeps.stays id record stored, decodes⟩

/-- Without a new entity, a state that agrees stays so. -/
theorem Agrees.stays {s s' : State} (agrees : Agrees newAccount s)
    (keeps : Keeps config s.chain s'.chain)
    (installed : s'.chain.peer.wasm = none → s.chain.peer.wasm = none)
    (repo : s'.repo = s.repo) : Agrees newAccount s' := by
  intro id indexed after
  exact agrees.elsewhere keeps (by rw [repo]) indexed (installed after) after

/-- With a new entity, it does if and only if the entity's own id agrees. -/
theorem Agrees.save_iff {s s' : State} (agrees : Agrees newAccount s)
    (keeps : Keeps config s.chain s'.chain)
    (installed : s'.chain.peer.wasm = none → s.chain.peer.wasm = none) {dto : RetireDto}
    {retirementId : Written BytesN32} {now : Nat}
    (repo : s'.repo = s.repo.save (dto.entity retirementId now)) :
    Agrees newAccount s' ↔ ∀ id, retirementId = .canonical id → s'.chain.peer.wasm = none →
      IndexAgrees newAccount s' id := by
  constructor
  · intro agrees' id named after
    refine agrees' id ?_ after
    rw [repo, named, findById_save_entity]
    exact Option.some_ne_none _
  · intro own id indexed after
    by_cases named : retirementId = .canonical id
    · exact own id named after
    · refine agrees.elsewhere keeps ?_ indexed (installed after) after
      rw [repo, Repository.findById, Repository.save, Store.lookup_insert_ite]
      exact if_neg (Ne.symm named)

/-- Only the code modelled here runs calls of the contract. -/
theorem installed_of_commits {event : Retirement.JointEvent}
    (commits : (Retirement.system config.network).Commits event)
    (after : event.post.peer.wasm = none) : event.pre.peer.wasm = none := by
  obtain ⟨chain, input, output, chain'⟩ := event
  have ran : Registry.Network.exec config.network (Retirement.peer config.network.sha256) chain
      input = .ok (output, chain') := commits
  cases input with
  | registry invocation =>
      simp only [Registry.Network.exec] at ran
      split at ran
      · cases ran
        exact after
      · cases ran
  | peer env call foreign =>
      simp only [Registry.Network.exec] at ran
      split at ran
      · rename_i result storage w success
        exact (Retirement.exec_eq_ok.mp success).1
      · cases ran

theorem installed_of_exec {event : ServiceEvent} (commits : (service config).Commits event)
    (after : event.post.chain.peer.wasm = none) : event.pre.chain.peer.wasm = none := by
  obtain ⟨s, step, output, s'⟩ := event
  cases step with
  | transaction input =>
      obtain ⟨-, returned, committed⟩ := commits_transaction commits
      exact installed_of_commits committed after
  | retire dto execution rpc now =>
      dsimp only at after ⊢
      rw [(commits_retire commits).1] at after
      rcases execute_cases config s.chain dto execution with
        nothing | ⟨input, id, chain', submitted, success, executed⟩
      · rw [nothing] at after
        exact after
      · rw [executed] at after
        exact installed_of_commits success after

theorem retirementIdOf_eq_canonical {response : GetTransactionResponse BytesN32}
    {id : BytesN32} : retirementIdOf response = .canonical id ↔ response.returnValue = some id := by
  unfold retirementIdOf
  cases response.returnValue with
  | none => simp [unknown]
  | some rv => simp

/-- From states that agree, a step leads to such a state if and only if it mirrors the chain. -/
theorem agrees_step (inj : Function.Injective config.network.sha256) {event : ServiceEvent}
    (inStep : InStep config.network.sha256 event.pre.chain) (agrees : Agrees newAccount event.pre)
    (assumed : Assumed config event) (commits : (service config).Commits event) :
    Agrees newAccount event.post ↔ Mirrors newAccount config event := by
  have keeps := keeps_of_exec inj inStep assumed commits
  have installed := installed_of_exec commits
  obtain ⟨s, step, output, s'⟩ := event
  cases step with
  | transaction input =>
      obtain ⟨repo, -⟩ := commits_transaction commits
      refine iff_of_true (agrees.stays keeps installed repo) ?_
      intro dto run rpc now input'
      cases input'
  | retire dto execution rpc now =>
      obtain ⟨chain, ⟨repo, unanswered⟩ | ⟨submits, response, responds, repo⟩⟩ :=
        commits_retire commits
      · refine iff_of_true (agrees.stays keeps installed repo) ?_
        intro dto' run rpc' now' input submits response responds
        cases input
        exact absurd responds (unanswered response submits)
      · dsimp only at chain repo
        -- what the response names is what the contract returned
        have executed : ∀ id, response.returnValue = some id →
            execute config s.chain dto execution = (s'.chain, some id) := by
          intro id value
          exact Prod.ext chain.symm (returned_of_value assumed responds value)
        have saved : ∀ id, response.returnValue = some id →
            s' = ⟨s'.chain, s.repo.save (dto.entity (.canonical id) now)⟩ := by
          intro id value
          rw [← retirementIdOf_eq_canonical.mpr value, ← repo]
        rw [agrees.save_iff keeps installed repo]
        constructor
        · intro own dto' run rpc' now' input _ response' responds' answered
          cases input
          rw [← responds.unique responds'] at answered
          obtain ⟨id, value⟩ := Option.ne_none_iff_exists'.mp answered
          have agreed := own id (retirementIdOf_eq_canonical.mpr value)
            (execute_stores (executed id value)).1
          dsimp only at agreed
          rw [saved id value] at agreed
          exact (indexAgrees_save_iff (executed id value) s.repo now).mp agreed
        · intro mirrors id named after
          have value := retirementIdOf_eq_canonical.mp named
          obtain ⟨-, -, -, -, -, -, -, run, rfl, -⟩ := execute_stores (executed id value)
          dsimp only
          rw [saved id value]
          apply (indexAgrees_save_iff (executed id value) s.repo now).mpr
          apply mirrors dto run rpc now rfl submits response responds
          rw [value]
          exact Option.some_ne_none id

/-- In a run, what is served from the repository is what would be served from the chain, at
every moment until the contract is upgraded, if and only if every call with a value mirrors a
chain that can be read. The polls are assumed to be faithful, and other calls of the contract to
name the registry. -/
theorem agrees_throughout_iff (newAccount : NewAccount)
    (inj : Function.Injective config.network.sha256) (inputs : List Step)
    (assumed : ∀ event ∈ (service config).log inputs, Assumed config event) :
    (service config).Always (fun _ s => Agrees newAccount s) inputs ↔
      ∀ event ∈ (service config).log inputs, Mirrors newAccount config event := by
  have start : Agrees newAccount (service config).init := fun id indexed => absurd rfl indexed
  rw [← Machine.admits_forall]
  refine (service config).always_iff_admits_of (Assumed config)
    (fun _ s => InStep config.network.sha256 s.chain ∧ Agrees newAccount s) ?_ start ?_ ?_ inputs
    assumed
  · exact ⟨Retirement.inStep_init, start⟩
  · exact fun log event inv assumed commits => agrees_step inj inv.1 inv.2 assumed commits
  · intro log event inv assumed mirrors commits
    exact ⟨(keeps_of_exec inj inv.1 assumed commits).inStep,
      (agrees_step inj inv.1 inv.2 assumed commits).mpr mirrors⟩

end CarbonChain.Certificates
