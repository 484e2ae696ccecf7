import CarbonChain.Certificates.Service

/-!
# Verified certificates and the chain

A failed transaction has a response like any other, only without a return value. `retire`
(`api/src/retirement/retirement.service.ts:90-149`) takes it as a success: it saves an
entity, under the id `'unknown'`, and the certificate with that id is verified from then
on.
-/

namespace CarbonChain.Certificates

open Retirement (Joint JointEvent InStep RetirementRecord)
open Stellar (NewAccount TakesReadAccount Rpc GetTransactionResponse)

/-- What the service and the chain log. -/
abbrev ServiceEvent := Event State Step (Option Retired)

variable {config : Config}

/-- The certificate has the credit, the buyer, the tonnes and the reason of the record. -/
structure CertificateVerification.Matches (certificate : CertificateVerification)
    (record : RetirementRecord) : Prop where
  creditId : certificate.creditId.read = some record.creditId
  buyer : certificate.buyer.read = some record.buyer
  tonnesRetired : certificate.tonnesRetired.read = some record.tonnesRetired
  reason : certificate.reason = record.reason

/-- The contract stores a record under the id, and the certificate matches it. -/
def Recorded (chain : Joint) (certificateId : Written BytesN32)
    (certificate : CertificateVerification) : Prop :=
  ∃ id record, certificateId.read = some id ∧ chain.peer.retirement.lookup id = some record ∧
    certificate.Matches record

/-- Every certificate that is verified is recorded on the chain. -/
def OnChain (s : State) : Prop :=
  ∀ newAccount simulated certificateId certificate,
    verifyCertificate newAccount s.chain s.repo simulated certificateId = .ok certificate →
      certificate.verified = true → Recorded s.chain certificateId certificate

/-! ## What is assumed and what is asked of a step -/

/-- The response fits what the contract returned in the transaction, if it succeeded: only
`SUCCESS` comes with a value, which is the one returned, and `FAILED` means no effect. -/
structure Faithful (returned : Option BytesN32) (response : GetTransactionResponse BytesN32) :
    Prop where
  value : ∀ rv ∈ response.returnValue, response.status = .success ∧ returned = some rv
  failed : response.status = .failed → returned = none

instance (returned : Option BytesN32) (response : GetTransactionResponse BytesN32) :
    Decidable (Faithful returned response) :=
  decidable_of_iff ((∀ rv ∈ response.returnValue, response.status = .success ∧
    returned = some rv) ∧ (response.status = .failed → returned = none))
    ⟨fun h => ⟨h.1, h.2⟩, fun h => ⟨h.value, h.failed⟩⟩

/-- The ten polls of a call of `retire` are faithful, and other calls of the contract name the
registry that the service names. -/
def Assumed (config : Config) (event : ServiceEvent) : Prop :=
  match event.input with
  | .transaction input =>
      ∀ registryId ∈ input.call.bind Retirement.Call.registryId,
        registryId = config.network.registryId
  | .retire dto execution rpc _ =>
      ∀ i < 10, ∀ response ∈ (rpc.getTransaction i).toOption,
        Faithful (execute config event.pre.chain dto execution).2 response

instance (event : ServiceEvent) : Decidable (Assumed config event) :=
  match event with
  | ⟨_, .transaction _, _, _⟩ => inferInstanceAs (Decidable (∀ registryId ∈ _, _ = _))
  | ⟨_, .retire _ _ _ _, _, _⟩ =>
      inferInstanceAs (Decidable (∀ i < 10, ∀ response ∈ _, Faithful _ response))

/-- The arguments convert and the key pair is loaded, so that the call is submitted. -/
structure Submits (config : Config) (dto : RetireDto) : Prop where
  buyer : dto.buyerPublicKey.read ≠ none
  tonnes : ∃ tonnes, dto.tonnes.read = some tonnes ∧ FitsSigned 128 tonnes
  signer : config.adminKeypair ≠ none

/-- A call of `retire` whose polling ends with a response gets one with a return value. -/
def Answered (config : Config) (event : ServiceEvent) : Prop :=
  ∀ dto execution rpc now, event.input = .retire dto execution rpc now → Submits config dto →
    ∀ response, rpc.Responds response → response.returnValue ≠ none

/-! ## The functions of the service -/

theorem submit_eq_ok {dto : RetireDto} {u : Unit} :
    submit config dto = .ok u ↔ Submits config dto := by
  simp only [submit, bind_eq_ok, unwrap_eq_ok, okOr_eq_ok, panicIf_eq_ok, not_not, exists_const,
    pure_eq_ok, and_true]
  constructor
  · rintro ⟨buyer, addressed, tonnes, converted, fits, signer, loaded⟩
    refine ⟨?_, ⟨tonnes, converted, fits⟩, ?_⟩
    · exact Option.ne_none_iff_exists'.mpr ⟨buyer, addressed⟩
    · exact Option.ne_none_iff_exists'.mpr ⟨signer, loaded⟩
  · rintro ⟨buyer, ⟨tonnes, converted, fits⟩, signer⟩
    obtain ⟨buyer, addressed⟩ := Option.ne_none_iff_exists'.mp buyer
    obtain ⟨signer, loaded⟩ := Option.ne_none_iff_exists'.mp signer
    exact ⟨buyer, addressed, tonnes, converted, fits, signer, loaded⟩

theorem retire_eq_ok {repo repo' : Repository} {dto : RetireDto} {rpc : Rpc BytesN32} {now : Nat}
    {retired : Retired} (h : retire config repo dto rpc now = .ok (retired, repo')) :
    Submits config dto ∧ ∃ response, rpc.Responds response ∧
      repo' = repo.save (dto.entity (retirementIdOf response) now) := by
  simp only [retire, bind_eq_ok, submit_eq_ok, pure_eq_ok, Prod.mk.injEq, exists_const,
    Stellar.invokeContract_eq_ok] at h
  obtain ⟨submits, response, responds, -, rfl⟩ := h
  exact ⟨submits, response, responds, rfl⟩

theorem retire_saves {repo : Repository} {dto : RetireDto} {rpc : Rpc BytesN32} {now : Nat}
    {response : GetTransactionResponse BytesN32} (submits : Submits config dto)
    (responds : rpc.Responds response) :
    ∃ retired, retire config repo dto rpc now =
      .ok (retired, repo.save (dto.entity (retirementIdOf response) now)) := by
  simp only [retire, bind_eq_ok, submit_eq_ok, pure_eq_ok, Prod.mk.injEq, exists_const,
    Stellar.invokeContract_eq_ok]
  exact ⟨_, submits, response, responds, rfl, rfl⟩

/-- The certificate of an entity. -/
def RetirementEntity.certificate (e : RetirementEntity) : CertificateVerification :=
  ⟨e.id, e.creditId, e.buyer, e.tonnesRetired, e.reason, e.retiredAt, e.txHash, true⟩

theorem verifyCertificate_of_saved {newAccount : NewAccount} {chain : Joint} {repo : Repository}
    {simulated : Option Bool} {certificateId : Written BytesN32} {e : RetirementEntity}
    (saved : repo.findById certificateId = some e) :
    verifyCertificate newAccount chain repo simulated certificateId = .ok e.certificate := by
  unfold verifyCertificate getRetirement
  rw [saved]
  rfl

/-- What a reading returns is what its simulation does. -/
theorem readRetirement_eq_ok {newAccount : NewAccount} {chain : Joint} {simulated : Option Bool}
    {retirementId : Written BytesN32} {retval : Option (Option RetirementRecord)} :
    readRetirement newAccount chain simulated retirementId = .ok retval ↔
      TakesReadAccount newAccount ∧
        simulateRetirement chain simulated retirementId = .ok retval := by
  unfold readRetirement
  by_cases takes : TakesReadAccount newAccount
  · rw [Stellar.readContract_of_takes takes, and_iff_right takes]
    split <;> simp_all
  · obtain ⟨failure, threw⟩ := Stellar.readContract_of_refuses takes
      (simulateRetirement chain simulated retirementId)
    simp [threw, takes]

/-- A certificate that is not in the repository is read from the chain. -/
theorem verifyCertificate_of_unsaved {newAccount : NewAccount} {chain : Joint} {repo : Repository}
    {simulated : Option Bool} {certificateId : Written BytesN32}
    {certificate : CertificateVerification} (unsaved : repo.findById certificateId = none)
    (h : verifyCertificate newAccount chain repo simulated certificateId = .ok certificate) :
    Recorded chain certificateId certificate := by
  unfold verifyCertificate at h
  split at h
  · rename_i retirement found
    cases h
    simp only [getRetirement, unsaved, readRetirement_eq_ok, simulateRetirement, bind_eq_ok,
      unwrap_eq_ok, okOr_eq_ok, pure_eq_ok] at found
    obtain ⟨retval, ⟨-, succeeds, -, read⟩, shown, rfl, record, stored, rfl⟩ := found
    split at read
    · obtain ⟨id, named, looked⟩ := Option.map_eq_some_iff.mp read
      rw [stored] at looked
      exact ⟨id, record, named, looked, rfl, rfl, rfl, rfl⟩
    · cases read
  · cases h

/-- The repository decides whether verified certificates are on the chain. -/
theorem onChain_iff {s : State} :
    OnChain s ↔ ∀ certificateId e, s.repo.findById certificateId = some e →
      Recorded s.chain certificateId e.certificate := by
  constructor
  · intro onChain certificateId e saved
    exact onChain Stellar.Sample.strkey none certificateId e.certificate
      (verifyCertificate_of_saved saved) rfl
  · intro indexed newAccount simulated certificateId certificate verified _
    cases found : s.repo.findById certificateId with
    | none => exact verifyCertificate_of_unsaved found verified
    | some e =>
        rw [verifyCertificate_of_saved found] at verified
        obtain rfl := Except.ok.inj verified
        exact indexed certificateId e found

/-! ## The chain -/

variable {chain chain' : Joint} {dto : RetireDto} {execution : Option Execution}

theorem transaction_eq_some {input : Registry.Network.Input Retirement.Call}
    (h : transaction config dto execution = some input) :
    ∃ (run : Execution) (buyer : Address) (creditId : BytesN32) (tonnes : Int),
      execution = some run ∧ dto.buyerPublicKey.read = some buyer ∧
      dto.creditId.read = some creditId ∧ dto.tonnes.read = some tonnes ∧ input =
        .peer run.env (.retire buyer creditId tonnes dto.reason config.network.registryId
          run.nonce) run.foreign := by
  simp only [transaction, Option.bind_eq_bind, Option.bind_eq_some_iff, Option.pure_def,
    Option.some.injEq] at h
  obtain ⟨run, ran, buyer, addressed, creditId, named, tonnes, converted, -, -, rfl⟩ := h
  exact ⟨run, buyer, creditId, tonnes, ran, addressed, named, converted, rfl⟩

/-- The call of the service had no effect, or it was a transaction on the chain. -/
theorem execute_cases (config : Config) (chain : Joint) (dto : RetireDto)
    (execution : Option Execution) :
    execute config chain dto execution = (chain, none) ∨
      ∃ input id chain', transaction config dto execution = some input ∧
        (Retirement.system config.network).Commits ⟨chain, input, .peer (.id id), chain'⟩ ∧
        execute config chain dto execution = (chain', some id) := by
  unfold execute
  split
  · exact .inl rfl
  · rename_i input submitted
    split
    · rename_i id chain' committed
      exact .inr ⟨input, id, chain', submitted, committed, rfl⟩
    · exact .inl rfl

/-- The contract stores what it was called with under the id that it returns, with the time, and
is not upgraded. -/
theorem execute_stores {id : BytesN32}
    (h : execute config chain dto execution = (chain', some id)) :
    chain'.peer.wasm = none ∧ ∃ record, chain'.peer.retirement.lookup id = some record ∧
      dto.creditId.read = some record.creditId ∧ dto.buyerPublicKey.read = some record.buyer ∧
      dto.tonnes.read = some record.tonnesRetired ∧ dto.reason = record.reason ∧
      ∃ run, execution = some run ∧ record.retiredAt = run.env.timestamp := by
  rcases execute_cases config chain dto execution with
    nothing | ⟨input, id', after, submitted, commits, executed⟩
  · rw [nothing] at h
    cases h
  · rw [executed] at h
    cases h
    obtain ⟨run, buyer, creditId, tonnes, ran, addressed, named, converted, rfl⟩ :=
      transaction_eq_some submitted
    have call : Registry.Network.exec config.network (Retirement.peer config.network.sha256) chain
        (.peer run.env (.retire buyer creditId tonnes dto.reason config.network.registryId
          run.nonce) run.foreign) = .ok (.peer (.id id), chain') := commits
    simp only [Registry.Network.exec] at call
    split at call
    · rename_i output storage w success
      cases call
      obtain ⟨installed, stored⟩ := Retirement.retire_stores success
      exact ⟨installed, _, stored, named, addressed, converted, rfl, run, ran, rfl⟩
    · cases call

/-- The records are in step before, and no record changes. -/
structure Keeps (config : Config) (before after : Joint) : Prop where
  inStep : InStep config.network.sha256 after
  stays : ∀ id record, before.peer.retirement.lookup id = some record →
    after.peer.retirement.lookup id = some record

theorem keeps_of_commits (inj : Function.Injective config.network.sha256) {event : JointEvent}
    (inStep : InStep config.network.sha256 event.pre)
    (genuine : Retirement.Genuine config.network event)
    (commits : (Retirement.system config.network).Commits event) :
    Keeps config event.pre event.post :=
  ⟨inStep.step inj genuine commits,
    fun _ _ stored => inStep.record_stays inj genuine commits stored⟩

/-! ## One step -/

theorem Keeps.recorded (keeps : Keeps config chain chain') {certificateId : Written BytesN32}
    {certificate : CertificateVerification} (recorded : Recorded chain certificateId certificate) :
    Recorded chain' certificateId certificate := by
  obtain ⟨id, record, named, stored, same⟩ := recorded
  exact ⟨id, record, named, keeps.stays id record stored, same⟩

/-- Without a new entity, the certificates stay on the chain. -/
theorem OnChain.stays {s s' : State} (onChain : OnChain s)
    (keeps : Keeps config s.chain s'.chain) (repo : s'.repo = s.repo) : OnChain s' := by
  rw [onChain_iff] at onChain ⊢
  rw [repo]
  exact fun certificateId e saved => keeps.recorded (onChain certificateId e saved)

/-- With a new entity, they do if and only if it is recorded. -/
theorem OnChain.save_iff {s s' : State} {e : RetirementEntity} (onChain : OnChain s)
    (keeps : Keeps config s.chain s'.chain) (repo : s'.repo = s.repo.save e) :
    OnChain s' ↔ Recorded s'.chain e.id e.certificate := by
  rw [onChain_iff] at onChain ⊢
  rw [repo]
  simp only [Repository.findById, Repository.save, Store.lookup_insert_ite]
  constructor
  · intro indexed
    exact indexed e.id e (if_pos rfl)
  · intro recorded certificateId e' saved
    split at saved
    · rename_i new
      obtain rfl := Option.some.inj saved
      rw [new]
      exact recorded
    · exact keeps.recorded (onChain certificateId e' saved)

/-- A value of the response is the one that the contract returned. -/
theorem returned_of_value {returned : Option BytesN32} {rpc : Rpc BytesN32}
    {response : GetTransactionResponse BytesN32}
    (faithful : ∀ i < 10, ∀ response ∈ (rpc.getTransaction i).toOption,
      Faithful returned response)
    (responds : rpc.Responds response) {rv : BytesN32} (value : response.returnValue = some rv) :
    returned = some rv := by
  obtain ⟨i, few, found, -, -⟩ := responds.polled
  have polled : response ∈ (rpc.getTransaction i).toOption := by
    rw [found]
    rfl
  exact ((faithful i few response polled).value rv value).2

/-- The entity of a call is recorded if and only if the response carries a value. -/
theorem recorded_entity_iff {rpc : Rpc BytesN32} {response : GetTransactionResponse BytesN32}
    {now : Nat}
    (faithful : ∀ i < 10, ∀ response ∈ (rpc.getTransaction i).toOption,
      Faithful (execute config chain dto execution).2 response)
    (responds : rpc.Responds response) :
    Recorded (execute config chain dto execution).1 (retirementIdOf response)
      (dto.entity (retirementIdOf response) now).certificate ↔ response.returnValue ≠ none := by
  constructor
  · rintro ⟨id, record, named, -, -⟩ missing
    -- the entity is saved under `'unknown'`, which names no id
    rw [retirementIdOf, missing] at named
    cases named
  · intro answered
    obtain ⟨rv, carried⟩ := Option.ne_none_iff_exists'.mp answered
    have returned := returned_of_value faithful responds carried
    obtain ⟨-, record, stored, credit, buyer, tonnes, reason, -⟩ :=
      execute_stores (Prod.ext rfl returned :
        execute config chain dto execution = (_, some rv))
    have named : retirementIdOf response = .canonical rv := by
      rw [retirementIdOf, carried]
    rw [named]
    exact ⟨rv, record, rfl, stored, credit, buyer, tonnes, reason⟩

theorem commits_transaction {s s' : State} {input : Registry.Network.Input Retirement.Call}
    {output : Option Retired} (h : exec config s (.transaction input) = .ok (output, s')) :
    s'.repo = s.repo ∧ ∃ returned, (Retirement.system config.network).Commits
      ⟨s.chain, input, returned, s'.chain⟩ := by
  simp only [exec] at h
  split at h
  · rename_i returned after success
    cases h
    exact ⟨rfl, returned, success⟩
  · cases h

/-- The state after a call of `retire`. -/
theorem commits_retire {s s' : State} {rpc : Rpc BytesN32} {now : Nat} {output : Option Retired}
    (h : exec config s (.retire dto execution rpc now) = .ok (output, s')) :
    s'.chain = (execute config s.chain dto execution).1 ∧
      (s'.repo = s.repo ∧ (∀ response, Submits config dto → ¬ rpc.Responds response) ∨
        Submits config dto ∧ ∃ response, rpc.Responds response ∧
          s'.repo = s.repo.save (dto.entity (retirementIdOf response) now)) := by
  simp only [exec] at h
  split at h
  · rename_i retired repo success
    cases h
    exact ⟨rfl, .inr (retire_eq_ok success)⟩
  · rename_i failure failed
    cases h
    refine ⟨rfl, .inl ⟨rfl, ?_⟩⟩
    intro response submits responds
    obtain ⟨retired, success⟩ := retire_saves submits responds
    rw [success] at failed
    cases failed

theorem keeps_of_exec (inj : Function.Injective config.network.sha256) {event : ServiceEvent}
    (inStep : InStep config.network.sha256 event.pre.chain) (assumed : Assumed config event)
    (commits : (service config).Commits event) :
    Keeps config event.pre.chain event.post.chain := by
  obtain ⟨s, step, output, s'⟩ := event
  cases step with
  | transaction input =>
      obtain ⟨-, returned, committed⟩ := commits_transaction commits
      have genuine : Retirement.Genuine config.network ⟨s.chain, input, returned, s'.chain⟩ :=
        assumed
      exact keeps_of_commits inj inStep genuine committed
  | retire dto execution rpc now =>
      dsimp only at inStep ⊢
      rw [(commits_retire commits).1]
      rcases execute_cases config s.chain dto execution with
        nothing | ⟨input, id, chain', submitted, success, executed⟩
      · rw [nothing]
        exact ⟨inStep, fun _ _ stored => stored⟩
      · rw [executed]
        obtain ⟨run, buyer, creditId, tonnes, -, -, -, -, rfl⟩ := transaction_eq_some submitted
        apply keeps_of_commits inj inStep _ success
        intro registryId named
        exact (Option.some.inj named).symm

/-- From states whose certificates are on the chain, a step leads to such a state if and only
if it is answered. -/
theorem onChain_step (inj : Function.Injective config.network.sha256) {event : ServiceEvent}
    (inStep : InStep config.network.sha256 event.pre.chain) (onChain : OnChain event.pre)
    (assumed : Assumed config event) (commits : (service config).Commits event) :
    OnChain event.post ↔ Answered config event := by
  have keeps := keeps_of_exec inj inStep assumed commits
  obtain ⟨s, step, output, s'⟩ := event
  cases step with
  | transaction input =>
      obtain ⟨repo, -⟩ := commits_transaction commits
      refine iff_of_true (onChain.stays keeps repo) ?_
      intro dto execution rpc now input'
      cases input'
  | retire dto execution rpc now =>
      obtain ⟨chain, ⟨repo, unanswered⟩ | ⟨submits, response, responds, repo⟩⟩ :=
        commits_retire commits
      · refine iff_of_true (onChain.stays keeps repo) ?_
        intro dto' execution' rpc' now' input submits response responds
        cases input
        exact absurd responds (unanswered response submits)
      · rw [onChain.save_iff keeps repo, chain]
        refine (recorded_entity_iff assumed responds).trans ?_
        constructor
        · intro value dto' execution' rpc' now' input _ response' responds'
          cases input
          rw [← responds.unique responds']
          exact value
        · intro answered
          exact answered dto execution rpc now rfl submits response responds

/-! ## Runs -/

/-- Every certificate that is verified is on the chain, at every moment, in exactly the runs in
which every call of `retire` whose polling ends with a response gets one with a return value.
The polls are assumed to be faithful, and other calls of the contract to name the registry. -/
theorem verified_onChain_iff (inj : Function.Injective config.network.sha256)
    (inputs : List Step) (assumed : ∀ event ∈ (service config).log inputs, Assumed config event) :
    (service config).Always (fun _ s => OnChain s) inputs ↔
      Machine.Admits (fun _ event => Answered config event) ((service config).log inputs) := by
  have start : OnChain (service config).init := by
    rw [onChain_iff]
    intro certificateId e saved
    cases saved
  refine (service config).always_iff_admits_of (Assumed config)
    (fun _ s => InStep config.network.sha256 s.chain ∧ OnChain s) ?_ start ?_ ?_ inputs assumed
  · exact ⟨Retirement.inStep_init, start⟩
  · exact fun log event inv assumed commits => onChain_step inj inv.1 inv.2 assumed commits
  · intro log event inv assumed answered commits
    exact ⟨(keeps_of_exec inj inv.1 assumed commits).inStep,
      (onChain_step inj inv.1 inv.2 assumed commits).mpr answered⟩

namespace Sample

open Registry.Sample (issuer credit)

/-- The service and the sample network. -/
def deployed : Config := ⟨Retirement.Sample.network, some "admin"⟩

/-- The issuer's credit of one tonne is to be retired. -/
def retireOne : RetireDto :=
  ⟨.canonical issuer, .canonical (credit 0), .canonical 1000000, "offset"⟩

/-- The transaction is sent, and the first poll finds it. -/
def found (response : GetTransactionResponse BytesN32) : Rpc BytesN32 :=
  ⟨.ok (), .ok none, .ok (.pending, "hash"), fun _ => .ok response⟩

/-- The network runs the call with the authority of the issuer. -/
def run : Execution :=
  ⟨⟨1735689600, fun a => a == issuer⟩, 0, Retirement.Sample.nobody⟩

def recordId : BytesN32 :=
  Retirement.retirementId BytesN32.mk none ⟨credit 0, issuer, 1000000, "offset", 1735689600⟩

/-- The issuer has an active credit, and the service retires it. -/
def retired : List Step :=
  Retirement.Sample.issued.map .transaction ++
    [.retire retireOne (some run) (found ⟨.success, some recordId⟩) 1735689601]

/-- The issuer has an active credit, and the transaction of the service fails. -/
def failed : List Step :=
  Retirement.Sample.issued.map .transaction ++
    [.retire retireOne none (found ⟨.failed, none⟩) 1735689601]

end Sample

set_option maxRecDepth 100000 in
theorem retired_verified_onChain :
    (service Sample.deployed).Always (fun _ s => OnChain s) Sample.retired := by
  apply (verified_onChain_iff BytesN32.mk_injective Sample.retired (by decide)).mpr
  apply Machine.admits_of_forall
  intro event logged _ dto execution rpc now input _ response responds
  have listed := (service Sample.deployed).input_mem logged
  rw [input, Sample.retired, List.mem_append, List.mem_singleton] at listed
  rcases listed with other | own
  · obtain ⟨_, -, transaction⟩ := List.mem_map.mp other
    cases transaction
  · cases own
    obtain ⟨i, -, found, -, -⟩ := responds.polled
    cases found
    exact Option.some_ne_none _

set_option maxRecDepth 100000 in
/-- The certificate `'unknown'` is verified, and it names nothing on the chain. -/
theorem failed_not_onChain :
    Function.Injective BytesN32.mk ∧
      (∀ event ∈ (service Sample.deployed).log Sample.failed, Assumed Sample.deployed event) ∧
      ¬ (service Sample.deployed).Always (fun _ s => OnChain s) Sample.failed := by
  refine ⟨BytesN32.mk_injective, by decide, ?_⟩
  intro onChain
  have now := onChain Sample.failed [] (List.append_nil _).symm
  obtain ⟨id, record, named, -, -⟩ := now Stellar.Sample.strkey none unknown
    (Sample.retireOne.entity unknown 1735689601).certificate rfl rfl
  cases named

end CarbonChain.Certificates
