import CarbonChain.Registry.Tonnes
import CarbonChain.Registry.Permanence
import CarbonChain.Retirement.Backing

/-!
# Retirement: the tonnes of a certificate

The tonnes of a record are an argument of the call, which is checked to be positive
(`contracts/retirement/src/lib.rs:110-188`) and compared with nothing: the whole credit is
retired, and the record says how much of it the caller wishes. So the records tell the
truth in exactly the runs whose callers name at most the tonnes of their credits.
-/

namespace CarbonChain.Retirement

open Registry (Network ForeignReply World)

/-- The credits that a call retires, with the tonnes that it certifies. -/
def Call.amounts : Call → List (BytesN32 × Int)
  | .retire _ creditId tonnes _ _ _ => [(creditId, tonnes)]
  | .batchRetire _ creditIds tonnes _ _ _ => creditIds.zip tonnes
  | _ => []

/-- The credits that the calls of a log retired, in order. -/
def retiredThrough (log : List JointEvent) : List BytesN32 :=
  log.flatMap fun event => (event.input.call.map Call.creditIds).getD []

/-- The call of the event certifies no more tonnes than the credit has in the registry. -/
def Covered (event : JointEvent) : Prop :=
  ∀ entry ∈ (event.input.call.map Call.amounts).getD [],
    entry.2 ≤ event.pre.registry.ledger.tonnesOf entry.1

instance (event : JointEvent) : Decidable (Covered event) :=
  inferInstanceAs (Decidable (∀ entry ∈ (event.input.call.map Call.amounts).getD [], _ ≤ _))

/-- Every record is of a positive amount and of at most the tonnes of the credit it names,
and all records together are of at most the tonnes of the credits that were retired through
the contract. -/
structure Truthful (log : List JointEvent) (s : Joint) : Prop where
  each : ∀ id record, s.peer.retirement.lookup id = some record →
    0 < record.tonnesRetired ∧ ∃ credit,
      s.registry.ledger.getCredit record.creditId = some credit ∧
        record.tonnesRetired ≤ credit.tonnes
  total : Store.total RetirementRecord.tonnesRetired s.peer.retirement ≤
    ∑ id ∈ (retiredThrough log).toFinset, s.registry.ledger.tonnesOf id

variable {net : Network}

/-! ## The amounts of a call -/

section Amounts

variable {sha256 : Bytes → BytesN32} {W : Type} {invoke : Registry.Client W} {env : Env}
  {s s' : State} {w w' : W}

/-- The amounts of a call are those of the records it writes. -/
theorem records_amounts (call : Call) (env : Env) :
    (call.records env).map (fun x => (x.2.creditId, x.2.tonnesRetired)) = call.amounts := by
  cases call with
  | batchRetire buyer creditIds tonnes reason registryId nonce =>
      rw [Call.records, List.map_map]
      exact List.zipIdx_map_fst 0 (creditIds.zip tonnes)
  | _ => rfl

/-- A successful call certifies positive amounts. -/
theorem exec_amounts_pos {call : Call} {ret : Ret}
    (h : exec sha256 invoke env s w call = .ok (ret, s', w')) :
    ∀ entry ∈ call.amounts, 0 < entry.2 := by
  cases call with
  | retire buyer creditId tonnes reason registryId nonce =>
      have h := (exec_eq_ok.mp h).2
      simp only [dispatch, map_eq_ok, retire, bind_eq_ok, rejectIf_eq_ok, panicIf_eq_ok,
        exists_const, Env.requireAuth_eq_ok, Prod.exists, Prod.mk.injEq] at h
      obtain ⟨_, _, _, ⟨-, -, _, -, _, _, -, -, -, positive, -⟩, -⟩ := h
      intro entry listed
      rw [List.mem_singleton.mp listed]
      exact Int.not_le.mp positive
  | batchRetire buyer creditIds tonnes reason registryId nonce =>
      obtain ⟨-, -, start, acc, -, -, looped⟩ := batchRetire_ok h
      have positive : ∀ entry ∈ (creditIds.zip tonnes).zipIdx, 0 < entry.1.2 := by
        refine foldlM_ok_induct (fun (entries : List ((BytesN32 × Int) × Nat)) _ =>
          ∀ entry ∈ entries, 0 < entry.1.2) looped ?_ ?_
        · intro entry listed
          cases listed
        · intro earlier entry acc acc' _ positive iterated other listed
          rcases List.mem_append.mp listed with before | last
          · exact positive other before
          · rw [List.mem_singleton.mp last]
            simp only [batchOne, bind_eq_ok, panicIf_eq_ok, exists_const] at iterated
            exact Int.not_le.mp iterated.1
      intro entry listed
      have listed' : entry ∈ (creditIds.zip tonnes).zipIdx.map Prod.fst := by
        rw [List.zipIdx_map_fst]
        exact listed
      obtain ⟨indexed, member, rfl⟩ := List.mem_map.mp listed'
      exact positive indexed member
  | _ =>
      intro entry listed
      cases listed

end Amounts

/-! ## What a transaction keeps of the credits -/

/-- The credits of `before` are all in `after` with their data, and every amount is
positive. -/
structure Carried (sha256 : Bytes → BytesN32) (before after : Registry.State) : Prop where
  derived : after.ledger.Derived sha256
  positive : after.ledger.Positive
  continues : before.ledger.Continues after.ledger

theorem Carried.step (inj : Function.Injective net.sha256) {before s s' : Registry.State}
    (carried : Carried net.sha256 before s) {invocation : Registry.Invocation}
    {ret : Registry.Ret} (success : Registry.exec net.sha256 s invocation = .ok (ret, s')) :
    Carried net.sha256 before s' := by
  have effect := Registry.exec_effect net.sha256 s success
  refine ⟨effect.derived carried.derived, ?_, ?_⟩
  · exact effect.positive inj carried.derived carried.positive
  · exact carried.continues.trans (effect.continues inj carried.derived)

theorem commits_carried (inj : Function.Injective net.sha256) {event : JointEvent}
    (derived : event.pre.registry.ledger.Derived net.sha256)
    (positive : event.pre.registry.ledger.Positive) (commits : (system net).Commits event) :
    Carried net.sha256 event.pre.registry event.post.registry := by
  have start : Carried net.sha256 event.pre.registry event.pre.registry :=
    ⟨derived, positive, Registry.Ledger.Continues.refl _⟩
  exact commits_keeps (Carried net.sha256 event.pre.registry)
    (fun s s' invocation ret carried success => carried.step inj success) start commits

/-- The tonnes of a credit stay. -/
theorem Carried.tonnesOf {sha256 : Bytes → BytesN32} {before after : Registry.State}
    (carried : Carried sha256 before after) {id : BytesN32}
    {credit : Registry.CreditMetadata} (stored : before.ledger.getCredit id = some credit) :
    ∃ credit', after.ledger.getCredit id = some credit' ∧
      credit'.tonnes = before.ledger.tonnesOf id := by
  obtain ⟨credit', there, same, -⟩ := carried.continues id credit stored
  refine ⟨credit', there, ?_⟩
  rw [same.tonnes, Registry.Ledger.tonnesOf, stored, Option.elim_some]

/-! ## Truthful records -/

/-- What a run keeps while its calls are covered. -/
structure Certified (sha256 : Bytes → BytesN32) (log : List JointEvent) (s : Joint) : Prop where
  inStep : InStep sha256 s
  positive : s.registry.ledger.Positive
  through : ∀ id record, s.peer.retirement.lookup id = some record →
    record.creditId ∈ retiredThrough log
  truthful : Truthful log s

/-- Records of at most the tonnes of their credits, one for each credit, are together of at
most the tonnes of the credits. -/
theorem truthful_of_each {sha256 : Bytes → BytesN32} {log : List JointEvent} {s : Joint}
    (inStep : InStep sha256 s) (positive : s.registry.ledger.Positive)
    (through : ∀ id record, s.peer.retirement.lookup id = some record →
      record.creditId ∈ retiredThrough log)
    (each : ∀ id record, s.peer.retirement.lookup id = some record →
      0 < record.tonnesRetired ∧ ∃ credit,
        s.registry.ledger.getCredit record.creditId = some credit ∧
          record.tonnesRetired ≤ credit.tonnes) : Truthful log s := by
  refine ⟨each, ?_⟩
  apply Store.total_le_sum RetirementRecord.creditId
  · intro id record stored
    obtain ⟨-, credit, there, within⟩ := each id record stored
    refine ⟨List.mem_toFinset.mpr (through id record stored), ?_⟩
    rw [Registry.Ledger.tonnesOf, there]
    exact within
  · exact inStep.single
  · intro id _
    cases there : s.registry.ledger.getCredit id with
    | none =>
        rw [Registry.Ledger.tonnesOf, there]
        exact le_refl 0
    | some credit =>
        rw [Registry.Ledger.tonnesOf, there]
        exact le_of_lt (positive id credit there)

theorem retiredThrough_snoc (log : List JointEvent) (event : JointEvent) :
    retiredThrough (log ++ [event]) =
      retiredThrough log ++ (event.input.call.map Call.creditIds).getD [] := by
  simp [retiredThrough]

/-- Every record names a credit that was retired through the contract. -/
theorem Certified.through_step (inj : Function.Injective net.sha256) {log : List JointEvent}
    {event : JointEvent} (inv : Certified net.sha256 log event.pre)
    (commits : (system net).Commits event) :
    ∀ id record, event.post.peer.retirement.lookup id = some record →
      record.creditId ∈ retiredThrough (log ++ [event]) := by
  intro id record stored
  rw [retiredThrough_snoc, List.mem_append]
  rcases commits_records inj commits stored with
    before | ⟨env, call, foreign, position, named, -, -, listed⟩
  · exact .inl (inv.through id record before)
  · right
    rw [named]
    exact listed

/-- A covered call writes truthful records, and leaves those of before truthful. -/
theorem Certified.each_step (inj : Function.Injective net.sha256) {log : List JointEvent}
    {event : JointEvent} (inv : Certified net.sha256 log event.pre) (genuine : Genuine net event)
    (covered : Covered event) (commits : (system net).Commits event) :
    ∀ id record, event.post.peer.retirement.lookup id = some record →
      0 < record.tonnesRetired ∧ ∃ credit,
        event.post.registry.ledger.getCredit record.creditId = some credit ∧
          record.tonnesRetired ≤ credit.tonnes := by
  have carried := commits_carried inj inv.inStep.derived inv.positive commits
  intro id record stored
  rcases commits_records inj commits stored with
    before | ⟨env, call, foreign, position, named, written, -, listed⟩
  · obtain ⟨positive, credit, there, within⟩ := inv.truthful.each id record before
    obtain ⟨credit', there', same⟩ := carried.tonnesOf there
    refine ⟨positive, credit', there', ?_⟩
    rw [same, Registry.Ledger.tonnesOf, there]
    exact within
  · have amount : (record.creditId, record.tonnesRetired) ∈ call.amounts := by
      rw [← records_amounts call (env.external net.self)]
      exact List.mem_map_of_mem written
    obtain ⟨ret, u, success, -⟩ := Network.commits_peer commits named
    obtain ⟨credit, there, -⟩ :=
      (commits_retires genuine commits named).active record.creditId listed
    obtain ⟨credit', there', same⟩ := carried.tonnesOf there
    refine ⟨exec_amounts_pos success _ amount, credit', there', ?_⟩
    rw [same]
    apply covered (record.creditId, record.tonnesRetired)
    rw [named]
    exact amount

/-- If the records are truthful after a call, the call was covered. -/
theorem Truthful.covered (inj : Function.Injective net.sha256) {log : List JointEvent}
    {event : JointEvent} (truthful : Truthful log event.post)
    (derived : event.pre.registry.ledger.Derived net.sha256)
    (positive : event.pre.registry.ledger.Positive) (genuine : Genuine net event)
    (commits : (system net).Commits event) : Covered event := by
  intro entry amount
  cases named : event.input with
  | registry invocation =>
      rw [named] at amount
      cases amount
  | peer env call foreign =>
      rw [named] at amount
      obtain ⟨ret, u, success, -⟩ := Network.commits_peer commits named
      have amount' : entry ∈ call.amounts := amount
      rw [← records_amounts call (env.external net.self)] at amount'
      obtain ⟨x, written, rfl⟩ := List.mem_map.mp amount'
      have stored : event.post.peer.retirement.lookup (retirementId net.sha256 x.1 x.2) =
          some x.2 := by
        rw [(exec_records success).1]
        exact lookup_storeAll_of_mem inj (call.records_distinct _) written
      have listed : x.2.creditId ∈ call.creditIds := by
        rw [← records_creditIds success]
        exact List.mem_map_of_mem written
      obtain ⟨credit, there, -⟩ := (commits_retires genuine commits named).active _ listed
      obtain ⟨credit', there', same⟩ :=
        (commits_carried inj derived positive commits).tonnesOf there
      obtain ⟨-, found, there'', within⟩ := truthful.each _ x.2 stored
      obtain rfl := Option.some.inj (there''.symm.trans there')
      rw [same] at within
      exact within

theorem Certified.step (inj : Function.Injective net.sha256) {log : List JointEvent}
    {event : JointEvent} (inv : Certified net.sha256 log event.pre) (genuine : Genuine net event)
    (covered : Covered event) (commits : (system net).Commits event) :
    Certified net.sha256 (log ++ [event]) event.post := by
  have inStep := inv.inStep.step inj genuine commits
  have carried := commits_carried inj inv.inStep.derived inv.positive commits
  have through := inv.through_step inj commits
  have each := inv.each_step inj genuine covered commits
  exact ⟨inStep, carried.positive, through,
    truthful_of_each inStep carried.positive through each⟩

/-- Certificates never overstate the retired volume, in exactly the runs whose callers certify
of each credit at most the tonnes it has in the registry. -/
theorem certificates_truthful_iff (inj : Function.Injective net.sha256)
    (inputs : List (Network.Input Call))
    (genuine : ∀ event ∈ (system net).log inputs, Genuine net event) :
    (system net).Always Truthful inputs ↔
      Machine.Admits (fun _ event => Covered event) ((system net).log inputs) := by
  have start : Truthful [] (system net).init := by
    refine ⟨?_, ?_⟩
    · intro id record stored
      cases stored
    · exact le_of_eq (Store.total_empty _)
  refine (system net).always_iff_admits_of (Genuine net) (Certified net.sha256) ?_ start ?_ ?_
    inputs genuine
  · refine ⟨inStep_init, ?_, ?_, start⟩
    · intro id credit stored
      cases stored
    · intro id record stored
      cases stored
  · intro log event inv genuine commits
    constructor
    · exact fun truthful =>
        truthful.covered inj inv.inStep.derived inv.positive genuine commits
    · exact fun covered => (inv.step inj genuine covered commits).truthful
  · exact fun log event inv genuine covered commits => inv.step inj genuine covered commits

namespace Sample

/-- The issuer retires its credit of one tonne and certifies a thousand. -/
def overstate : Network.Input Call :=
  call Registry.Sample.issuer (.retire Registry.Sample.issuer (Registry.Sample.credit 0)
    1000000000 "offset" network.registryId 0)

end Sample

set_option maxRecDepth 100000 in
theorem retireOwn_truthful :
    (system Sample.network).Always Truthful (Sample.issued ++ [Sample.retireOwn]) := by
  apply (certificates_truthful_iff BytesN32.mk_injective _ (by decide)).mpr
  have covered : ∀ event ∈ (system Sample.network).log (Sample.issued ++ [Sample.retireOwn]),
      Covered event := by
    decide
  exact Machine.admits_forall.mpr covered

set_option maxRecDepth 100000 in
/-- The record says a thousand tonnes. -/
theorem overstate_not_truthful :
    Function.Injective BytesN32.mk ∧
      (∀ event ∈ (system Sample.network).log (Sample.issued ++ [Sample.overstate]),
        Genuine Sample.network event ∧ Trusting Sample.network event) ∧
      ¬ (system Sample.network).Always Truthful (Sample.issued ++ [Sample.overstate]) := by
  refine ⟨BytesN32.mk_injective, by decide, ?_⟩
  intro truthful
  have now := truthful _ [] (List.append_nil _).symm
  obtain ⟨-, credit, there, within⟩ := now.each (retirementId BytesN32.mk none
    ⟨Registry.Sample.credit 0, Registry.Sample.issuer, 1000000000, "offset", 1735689600⟩) _ rfl
  have tonnes : (((system Sample.network).state (Sample.issued ++ [Sample.overstate])
      ).registry.ledger.getCredit (Registry.Sample.credit 0)).map (·.tonnes) = some 1000000 := rfl
  have there' : ((system Sample.network).state (Sample.issued ++ [Sample.overstate])
      ).registry.ledger.getCredit (Registry.Sample.credit 0) = some credit := there
  rw [there', Option.map_some] at tonnes
  rw [Option.some.inj tonnes] at within
  exact absurd within (by decide)

end CarbonChain.Retirement
