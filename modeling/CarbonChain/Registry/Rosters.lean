import CarbonChain.Misc.Logs
import CarbonChain.Registry.Counters

/-!
# CreditRegistry: verifiers, issuers and services

The sets of verifiers and issuers and the services of each verifier
(`contracts/credit_registry/src/lib.rs:140-195`, `:231-268`, `:662-733`) are rosters that
the admin changes. The reputation of a verifier counts the approvals and the flags. All of
them are what the log of the run says, and none is cleared when a verifier is removed.
-/

namespace CarbonChain.Registry

open Roster (Change changed replay)

variable {sha256 : Bytes → BytesN32}

/-! ## The changes of a call -/

/-- What a call does to the set of verifiers. -/
def Call.verifierChange : Call → Option (Change Address)
  | .registerVerifier _ verifier _ => some (.add verifier)
  | .removeVerifier _ verifier _ => some (.remove verifier)
  | _ => none

/-- What a call does to the set of issuers. -/
def Call.issuerChange : Call → Option (Change Address)
  | .registerIssuer _ issuer _ => some (.add issuer)
  | .removeIssuer _ issuer _ => some (.remove issuer)
  | _ => none

/-- What a call does to the services of the verifier `v`. -/
def Call.serviceChange (v : Address) : Call → Option (Change ServiceType)
  | .configureVerifierServices _ verifier services _ =>
      if verifier = v then some (.reset services) else none
  | .addVerifierService _ verifier service _ => if verifier = v then some (.add service) else none
  | .removeVerifierService _ verifier service _ =>
      if verifier = v then some (.remove service) else none
  | _ => none

/-- The verifier that approves a credit with the call. -/
def Call.approver : Call → Option Address
  | .approveAndMint verifier _ _ => some verifier
  | _ => none

/-- The verifier that flags a credit with the call. -/
def Call.flagger : Call → Option Address
  | .flagCredit verifier _ _ _ => some verifier
  | _ => none

/-! ## The records of the verifiers -/

namespace VerifierRecords

variable (records : VerifierRecords)

@[simp] theorem getVerifierServices_setVerifierServices (verifier other : Address)
    (services : List ServiceType) :
    (records.setVerifierServices verifier services).getVerifierServices other =
      if other = verifier then services else records.getVerifierServices other := by
  unfold getVerifierServices setVerifierServices
  rw [Store.lookup_insert_ite]
  split <;> rfl

/-- The services and the reputations are the same in both records. -/
def SameStanding (records records' : VerifierRecords) : Prop :=
  records'.verifierServices = records.verifierServices ∧
    records'.verifierReputation = records.verifierReputation

theorem SameStanding.trans {first second third : VerifierRecords} (h : first.SameStanding second)
    (h' : second.SameStanding third) : first.SameStanding third :=
  ⟨h'.1.trans h.1, h'.2.trans h.2⟩

theorem decrementAllPending_standing (verifierSet : List Address) :
    records.SameStanding (records.decrementAllPending verifierSet) := by
  induction verifierSet generalizing records with
  | nil => exact ⟨rfl, rfl⟩
  | cons first rest ih =>
      have once : records.SameStanding (records.decrementVerifierPending first) := by
        unfold decrementVerifierPending
        simp only
        split <;> exact ⟨rfl, rfl⟩
      exact once.trans (ih (records.decrementVerifierPending first))

theorem incrementAllPending_standing {records records' : VerifierRecords}
    {verifierSet : List Address} (h : records.incrementAllPending verifierSet = .ok records') :
    records.SameStanding records' := by
  induction verifierSet generalizing records with
  | nil =>
      obtain rfl := pure_eq_ok.mp h
      exact ⟨rfl, rfl⟩
  | cons first rest ih =>
      obtain ⟨between, raised, looped⟩ := bind_eq_ok.mp h
      simp only [incrementVerifierPending, bind_eq_ok, pure_eq_ok] at raised
      obtain ⟨count, -, rfl⟩ := raised
      have once : records.SameStanding (records.setVerifierPendingCount first count) := ⟨rfl, rfl⟩
      exact once.trans (ih looped)

theorem SameStanding.services {records records' : VerifierRecords}
    (same : records.SameStanding records') (v : Address) :
    records'.getVerifierServices v = records.getVerifierServices v := by
  unfold getVerifierServices
  rw [same.1]

theorem SameStanding.reputation {records records' : VerifierRecords}
    (same : records.SameStanding records') (v : Address) :
    records'.getVerifierReputation v = records.getVerifierReputation v := by
  unfold getVerifierReputation
  rw [same.2]

theorem incrementApprovalCount_standing {records records' : VerifierRecords} {verifier : Address}
    (h : records.incrementApprovalCount verifier = .ok records') (v : Address) :
    records'.getVerifierServices v = records.getVerifierServices v ∧
      records'.getVerifierReputation v =
        if v = verifier then
          { records.getVerifierReputation v with
            approvalCount := (records.getVerifierReputation v).approvalCount + 1 }
        else records.getVerifierReputation v := by
  simp only [incrementApprovalCount, bind_eq_ok, addUnsigned_eq_ok, pure_eq_ok] at h
  obtain ⟨count, ⟨-, rfl⟩, rfl⟩ := h
  refine ⟨rfl, ?_⟩
  by_cases same : v = verifier
  · subst same
    simp [getVerifierReputation, setVerifierReputation]
  · simp [getVerifierReputation, setVerifierReputation, same]

theorem incrementDisputeCount_standing {records records' : VerifierRecords} {verifier : Address}
    (h : records.incrementDisputeCount verifier = .ok records') (v : Address) :
    records'.getVerifierServices v = records.getVerifierServices v ∧
      records'.getVerifierReputation v =
        if v = verifier then
          { records.getVerifierReputation v with
            disputeCount := (records.getVerifierReputation v).disputeCount + 1 }
        else records.getVerifierReputation v := by
  simp only [incrementDisputeCount, bind_eq_ok, addUnsigned_eq_ok, pure_eq_ok] at h
  obtain ⟨count, ⟨-, rfl⟩, rfl⟩ := h
  refine ⟨rfl, ?_⟩
  by_cases same : v = verifier
  · subst same
    simp [getVerifierReputation, setVerifierReputation]
  · simp [getVerifierReputation, setVerifierReputation, same]

end VerifierRecords

/-! ## What a call does -/

section Calls

variable {env : Env} {s s' : State} {call : Call} {ret : Ret}

theorem dispatch_verifierChange (h : dispatch sha256 env s call = .ok (ret, s')) :
    s'.roles.verifierSet = changed s.roles.verifierSet call.verifierChange := by
  by_cases quiet : call.onVerifiers = false
  · rw [dispatch_verifierSet quiet h]
    cases call <;> first | rfl | cases quiet
  cases call with
  | registerVerifier admin verifier nonce =>
      obtain ⟨absent, added⟩ := registerVerifier_ok (Result.unit_eq_ok.mp h).1
      rw [added]
      simp [changed, Call.verifierChange, Change.apply, absent]
  | removeVerifier admin verifier nonce =>
      rw [(removeVerifier_ok (Result.unit_eq_ok.mp h).1).2]
      rfl
  | _ => exact absurd rfl quiet

theorem dispatch_issuerChange (h : dispatch sha256 env s call = .ok (ret, s')) :
    s'.roles.issuerSet = changed s.roles.issuerSet call.issuerChange := by
  by_cases writes : call.onCredits = true
  · rw [dispatch_roles sha256 env s writes h]
    cases call <;> first | rfl | cases writes
  cases call with
  | registerIssuer admin issuer nonce =>
      simp only [dispatch, Result.unit_eq_ok, registerIssuer, bind_eq_ok, rejectIf_eq_ok,
        exists_const, pure_eq_ok] at h
      obtain ⟨⟨_, -, nonces, -, absent, rfl⟩, -⟩ := h
      have absent : issuer ∉ s.roles.issuerSet := by simpa [Roles.isIssuer] using absent
      simp [changed, Call.issuerChange, Change.apply, absent]
  | removeIssuer admin issuer nonce =>
      simp only [dispatch, Result.unit_eq_ok, removeIssuer, bind_eq_ok, pure_eq_ok] at h
      obtain ⟨⟨_, -, nonces, -, rfl⟩, -⟩ := h
      rfl
  | _ =>
      first
        | exact absurd rfl writes
        | simp only [dispatch, Result.unit_eq_ok, Result.id_eq_ok, initializeContract, pause,
            unpause, setPaused, registerVerifier, removeVerifier, registerMethodology,
            proposeAdmin, acceptAdmin, requireServiceAccess, configureVerifierServices,
            addVerifierService, removeVerifierService, registerProject, upgrade, createSession,
            bind_eq_ok, pure_eq_ok, Prod.mk.injEq] at h
          simp only [changed, Call.issuerChange, Option.elim_none]
          grind

/-- A change of a roster is the admin's. -/
theorem dispatch_change_admin (h : dispatch sha256 env s call = .ok (ret, s'))
    (changes : call.verifierChange ≠ none ∨ call.issuerChange ≠ none ∨
      ∃ v, call.serviceChange v ≠ none) :
    ∃ admin, s.roles.admin = some admin ∧ env.auth admin = true := by
  cases call <;>
    simp only [Call.verifierChange, Call.issuerChange, Call.serviceChange, ne_eq,
      not_true_eq_false] at changes <;>
    simp only [dispatch, Result.unit_eq_ok, registerVerifier, removeVerifier, registerIssuer,
      removeIssuer, requireServiceAccess, configureVerifierServices, addVerifierService,
      removeVerifierService, Roles.requireAdmin, bind_eq_ok, requireAdmin_eq_ok, pure_eq_ok,
      exists_const] at h <;>
    grind

/-- What a call does to what is stored about the standing of a verifier. -/
structure Stands (records records' : VerifierRecords) (call : Call) (v : Address) : Prop where
  services : records'.getVerifierServices v =
    changed (records.getVerifierServices v) (call.serviceChange v)
  reputation : records'.getVerifierReputation v =
    ⟨(records.getVerifierReputation v).approvalCount + (if call.approver = some v then 1 else 0),
      (records.getVerifierReputation v).disputeCount + (if call.flagger = some v then 1 else 0)⟩

/-- A call that concerns no standing keeps the standing of everyone. -/
theorem Stands.of_same {records records' : VerifierRecords} (same : records.SameStanding records')
    {v : Address} (unchanged : call.serviceChange v = none) (approver : call.approver = none)
    (flagger : call.flagger = none) : Stands records records' call v := by
  refine ⟨?_, ?_⟩
  · rw [same.services, unchanged]
    rfl
  · rw [same.reputation, approver, flagger]
    rfl

theorem submitCredit_standing {issuer : Address} {projectId : String} {vintageYear : Nat}
    {methodology geography : String} {tonnes : Int} {ipfsHash : String} {nonce : Nat}
    {id : BytesN32} (h : submitCredit sha256 env s issuer projectId vintageYear methodology
      geography tonnes ipfsHash nonce = .ok (id, s')) :
    s.verifiers.SameStanding s'.verifiers := by
  simp only [submitCredit, bind_eq_ok, rejectIf_eq_ok, Env.requireAuth_eq_ok, exists_const,
    Ledger.nextCreditId_eq_ok, pure_eq_ok, Prod.exists, Prod.mk.injEq] at h
  obtain ⟨-, -, -, nonce, -, -, -, -, -, -, year, -, -, lastYear, -, -, -, -, _, _, -, verifiers,
    raised, -, rfl⟩ := h
  exact VerifierRecords.incrementAllPending_standing raised

theorem dispatch_stands (h : dispatch sha256 env s call = .ok (ret, s')) (v : Address) :
    Stands s.verifiers s'.verifiers call v := by
  cases call with
  | submitCredit issuer projectId vintageYear methodology geography tonnes ipfsHash nonce =>
      obtain ⟨id, success, -⟩ := Result.id_eq_ok.mp h
      exact .of_same (submitCredit_standing success) rfl rfl rfl
  | submitCreditWithSession sessionId issuer projectId vintageYear methodology geography tonnes
      ipfsHash nonce =>
      obtain ⟨id, success, -⟩ := Result.id_eq_ok.mp h
      obtain ⟨submitted, audit, submits, rfl⟩ := submitCreditWithSession_ok sha256 env s success
      exact .of_same (submitCredit_standing submits) rfl rfl rfl
  | approveAndMint verifier id nonce =>
      simp only [dispatch, Result.unit_eq_ok, approveAndMint, bind_eq_ok, rejectIf_eq_ok,
        Env.requireAuth_eq_ok, exists_const, okOr_eq_ok] at h
      obtain ⟨⟨-, -, -, nonces, -, credit, -, -, -, verifiers, counted, outcome⟩, -⟩ := h
      obtain ⟨services, reputation⟩ := VerifierRecords.incrementApprovalCount_standing counted v
      have counts : Stands s.verifiers verifiers (.approveAndMint verifier id nonce) v := by
        refine ⟨services, ?_⟩
        rw [reputation]
        by_cases same : v = verifier
        · simp [same, Call.approver, Call.flagger]
        · simp [same, Ne.symm same, Call.approver, Call.flagger]
      split at outcome
      · obtain rfl := pure_eq_ok.mp outcome
        have lowered := verifiers.decrementAllPending_standing s.roles.verifierSet
        exact ⟨(lowered.services v).trans counts.services,
          (lowered.reputation v).trans counts.reputation⟩
      · obtain rfl := pure_eq_ok.mp outcome
        exact counts
  | flagCredit verifier id reason nonce =>
      simp only [dispatch, Result.unit_eq_ok, flagCredit, bind_eq_ok, rejectIf_eq_ok,
        Env.requireAuth_eq_ok, exists_const, okOr_eq_ok, pure_eq_ok] at h
      obtain ⟨⟨-, -, -, nonces, -, credit, -, -, verifiers, counted, rfl⟩, -⟩ := h
      obtain ⟨services, reputation⟩ := VerifierRecords.incrementDisputeCount_standing counted v
      have counts : Stands s.verifiers verifiers (.flagCredit verifier id reason nonce) v := by
        refine ⟨services, ?_⟩
        rw [reputation]
        by_cases same : v = verifier
        · simp [same, Call.approver, Call.flagger]
        · simp [same, Ne.symm same, Call.approver, Call.flagger]
      split
      · have lowered := verifiers.decrementAllPending_standing s.roles.verifierSet
        exact ⟨(lowered.services v).trans counts.services,
          (lowered.reputation v).trans counts.reputation⟩
      · exact counts
  | configureVerifierServices admin verifier services nonce =>
      simp only [dispatch, Result.unit_eq_ok, configureVerifierServices, bind_eq_ok,
        pure_eq_ok] at h
      obtain ⟨⟨nonces, -, rfl⟩, -⟩ := h
      refine ⟨?_, rfl⟩
      by_cases same : v = verifier
      · simp [changed, Call.serviceChange, Change.apply, same]
      · simp [changed, Call.serviceChange, same, Ne.symm same]
  | addVerifierService admin verifier service nonce =>
      simp only [dispatch, Result.unit_eq_ok, addVerifierService, bind_eq_ok, pure_eq_ok] at h
      obtain ⟨⟨nonces, -, rfl⟩, -⟩ := h
      refine ⟨?_, by split <;> rfl⟩
      by_cases same : v = verifier
      · subst same
        by_cases listed : service ∈ s.verifiers.getVerifierServices v
        · simp [changed, Call.serviceChange, Change.apply, listed]
        · simp [changed, Call.serviceChange, Change.apply, listed]
      · split <;> simp [changed, Call.serviceChange, same, Ne.symm same]
  | removeVerifierService admin verifier service nonce =>
      simp only [dispatch, Result.unit_eq_ok, removeVerifierService, bind_eq_ok, pure_eq_ok] at h
      obtain ⟨⟨nonces, -, rfl⟩, -⟩ := h
      refine ⟨?_, rfl⟩
      by_cases same : v = verifier
      · subst same
        simp [changed, Call.serviceChange, Change.apply]
      · simp [changed, Call.serviceChange, same, Ne.symm same]
  | _ =>
      have same : s'.verifiers = s.verifiers := by
        simp only [dispatch, Result.unit_eq_ok, Result.id_eq_ok, Result.pair_eq_ok,
          initializeContract, pause, unpause, setPaused, registerVerifier, removeVerifier,
          registerIssuer, removeIssuer, registerMethodology, proposeAdmin, acceptAdmin,
          registerProject, upgrade, createSession, markRetired, transferCredit, splitCredit,
          expireCredit, disputeCredit, resolveDispute, mergeCredits, bind_eq_ok, pure_eq_ok,
          Prod.exists, Prod.mk.injEq] at h
        grind
      exact .of_same ⟨congrArg _ same, congrArg _ same⟩ rfl rfl rfl

end Calls

/-! ## Runs -/

/-- The rosters and the standing of the verifiers are what the log says. -/
structure Recorded (log : List (Event State Invocation Ret)) (s : State) : Prop where
  verifiers : s.roles.verifierSet =
    replay (log.filterMap fun event => event.input.call.verifierChange)
  issuers : s.roles.issuerSet = replay (log.filterMap fun event => event.input.call.issuerChange)
  services : ∀ v, s.verifiers.getVerifierServices v =
    replay (log.filterMap fun event => event.input.call.serviceChange v)
  reputation : ∀ v, s.verifiers.getVerifierReputation v =
    ⟨log.countP fun event => event.input.call.approver = some v,
      log.countP fun event => event.input.call.flagger = some v⟩

theorem Recorded.step {log : List (Event State Invocation Ret)}
    {event : Event State Invocation Ret} (recorded : Recorded log event.pre)
    (commits : (machine sha256).Commits event) : Recorded (log ++ [event]) event.post := by
  have success := ((exec_eq_ok sha256 event.pre).mp commits).2
  refine ⟨?_, ?_, ?_, ?_⟩
  · rw [dispatch_verifierChange success, recorded.verifiers, Roster.replay_snoc]
  · rw [dispatch_issuerChange success, recorded.issuers, Roster.replay_snoc]
  · intro v
    rw [(dispatch_stands success v).services, recorded.services, Roster.replay_snoc]
  · intro v
    rw [(dispatch_stands success v).reputation, recorded.reputation]
    simp [List.countP_append, List.countP_singleton]

theorem recorded (inputs : List Invocation) :
    Recorded ((machine sha256).log inputs) ((machine sha256).state inputs) :=
  (machine sha256).run_induct Recorded ⟨rfl, rfl, fun _ => rfl, fun _ => rfl⟩
    (fun _ _ recorded commits => recorded.step commits) inputs

/-- A call of the log that the admin of its time authorised makes `a` a member, and no later one
expels it. -/
def Decided {A : Type} (log : List (Event State Invocation Ret))
    (change : Call → Option (Change A)) (a : A) : Prop :=
  ∃ before event after, log = before ++ event :: after ∧
    (∃ c, change event.input.call = some c ∧ c.Admits a) ∧
    (∃ admin, event.pre.roles.admin = some admin ∧ event.input.env.auth admin = true) ∧
    ∀ later ∈ after, ∀ c, change later.input.call = some c → ¬ c.Expels a

theorem mem_replay_iff_decided {A : Type} [DecidableEq A] {change : Call → Option (Change A)}
    (governed : ∀ call, change call ≠ none → call.verifierChange ≠ none ∨
      call.issuerChange ≠ none ∨ ∃ v, call.serviceChange v ≠ none)
    (inputs : List Invocation) (a : A) :
    a ∈ replay (((machine sha256).log inputs).filterMap fun event => change event.input.call) ↔
      Decided ((machine sha256).log inputs) change a := by
  rw [Roster.mem_replay_iff]
  constructor
  · rintro ⟨before, event, after, split, ⟨c, changes, admits⟩, kept⟩
    refine ⟨before, event, after, split, ⟨c, changes, admits⟩, ?_, kept⟩
    obtain ⟨-, -, -, -, -, commits⟩ := (machine sha256).log_split split
    have success := ((exec_eq_ok sha256 event.pre).mp commits).2
    apply dispatch_change_admin success
    apply governed
    rw [changes]
    exact Option.some_ne_none c
  · rintro ⟨before, event, after, split, admits, -, kept⟩
    exact ⟨before, event, after, split, admits, kept⟩

/-- In every run, who is a verifier and who is an issuer is decided by the last successful call
about them, which the admin of its time authorised, and nobody is listed twice. -/
theorem membership_decided (inputs : List Invocation) (a : Address) :
    (((machine sha256).state inputs).roles.isVerifier a ↔
      Decided ((machine sha256).log inputs) Call.verifierChange a) ∧
    (((machine sha256).state inputs).roles.isIssuer a ↔
      Decided ((machine sha256).log inputs) Call.issuerChange a) ∧
    ((machine sha256).state inputs).roles.verifierSet.Nodup ∧
    ((machine sha256).state inputs).roles.issuerSet.Nodup := by
  have kept : Recorded ((machine sha256).log inputs) ((machine sha256).state inputs) :=
    recorded inputs
  refine ⟨?_, ?_, ?_, ?_⟩
  · rw [Roles.isVerifier, List.contains_iff_mem, kept.verifiers]
    exact mem_replay_iff_decided (fun call changes => .inl changes) inputs a
  · rw [Roles.isIssuer, List.contains_iff_mem, kept.issuers]
    exact mem_replay_iff_decided (fun call changes => .inr (.inl changes)) inputs a
  · rw [kept.verifiers]
    apply Roster.nodup_replay
    intro members listed
    obtain ⟨event, -, named⟩ := List.mem_filterMap.mp listed
    cases call : event.input.call <;> simp [call, Call.verifierChange] at named
  · rw [kept.issuers]
    apply Roster.nodup_replay
    intro members listed
    obtain ⟨event, -, named⟩ := List.mem_filterMap.mp listed
    cases call : event.input.call <;> simp [call, Call.issuerChange] at named

/-- In every run, the services of a verifier are decided by the last successful calls about
them, and its reputation counts the approvals and the flags that succeeded. -/
theorem standing_recorded (inputs : List Invocation) (v : Address) :
    (∀ service, service ∈ ((machine sha256).state inputs).verifiers.getVerifierServices v ↔
      Decided ((machine sha256).log inputs) (Call.serviceChange v) service) ∧
    ((machine sha256).state inputs).verifiers.getVerifierReputation v =
      ⟨((machine sha256).log inputs).countP fun event => event.input.call.approver = some v,
        ((machine sha256).log inputs).countP fun event => event.input.call.flagger = some v⟩ := by
  have kept : Recorded ((machine sha256).log inputs) ((machine sha256).state inputs) :=
    recorded inputs
  refine ⟨?_, kept.reputation v⟩
  intro service
  rw [kept.services]
  exact mem_replay_iff_decided (fun call changes => .inr (.inr ⟨v, changes⟩)) inputs service

set_option maxRecDepth 100000 in
/-- A verifier that is removed and registered again has the services that it had. -/
example : ((machine BytesN32.mk).state (Sample.setup 1 ++
    [Sample.call Sample.admin
      (.configureVerifierServices Sample.admin Sample.verifier [.mrvReview] 3),
     Sample.call Sample.admin (.removeVerifier Sample.admin Sample.verifier 4),
     Sample.call Sample.admin (.registerVerifier Sample.admin Sample.verifier 5)])
    ).verifiers.getVerifierServices Sample.verifier = [.mrvReview] := by decide

end CarbonChain.Registry
