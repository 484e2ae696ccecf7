import CarbonChain.Registry.Evolution
import CarbonChain.Registry.Rosters
import CarbonChain.Registry.Tonnes

/-!
# CreditRegistry: where a credit comes from

The first to register a project has it for good, and the admin adds methodologies that
stay. A stored credit, split and merged as it may be, has its lot from one submission
(`contracts/credit_registry/src/lib.rs:315-405`): by an issuer that the admin had let in by
then, for a project and under a methodology registered by then.
-/

namespace CarbonChain.Registry

variable {sha256 : Bytes → BytesN32}

abbrev RegistryEvent := Event State Invocation Ret

/-- The project that a call registers. -/
def Call.projectIn (env : Env) : Call → Option (String × ProjectMetadata)
  | .registerProject owner projectId name description location =>
      some (projectId, ⟨owner, name, description, location, env.timestamp⟩)
  | _ => none

/-- The methodology that a call registers. -/
def Call.methodology : Call → Option Methodology
  | .registerMethodology _ code name _ => some ⟨code, name⟩
  | _ => none

/-- The owner registers a project. -/
def RegistersProject (event : RegistryEvent) (projectId : String) (project : ProjectMetadata) :
    Prop :=
  event.input.call.projectIn event.input.env = some (projectId, project) ∧
    event.input.env.auth project.owner = true

/-- The admin registers a methodology. -/
def RegistersMethodology (event : RegistryEvent) (methodology : Methodology) : Prop :=
  event.input.call.methodology = some methodology ∧
    ∃ admin, event.pre.roles.admin = some admin ∧ event.input.env.auth admin = true

/-! ## What a call does to projects and methodologies -/

section Calls

variable {env : Env} {s s' : State} {call : Call} {ret : Ret}

/-- A project is registered once, with the authority of its owner. -/
theorem dispatch_project (h : dispatch sha256 env s call = .ok (ret, s')) :
    match call.projectIn env with
    | none => s'.project = s.project
    | some (projectId, project) =>
        env.auth project.owner = true ∧ s.project.lookup projectId = none ∧
          s'.project = s.project.insert projectId project := by
  cases call with
  | registerProject owner projectId name description location =>
      simp only [dispatch, Result.unit_eq_ok, registerProject, bind_eq_ok, rejectIf_eq_ok,
        Env.requireAuth_eq_ok, exists_const, pure_eq_ok] at h
      obtain ⟨⟨authorised, absent, rfl⟩, -⟩ := h
      exact ⟨authorised, by simpa using absent, rfl⟩
  | _ =>
      simp only [dispatch, Result.unit_eq_ok, Result.id_eq_ok, Result.pair_eq_ok,
        initializeContract, pause, unpause, setPaused, registerVerifier, removeVerifier,
        registerIssuer, removeIssuer, registerMethodology, proposeAdmin, acceptAdmin,
        requireServiceAccess, configureVerifierServices, addVerifierService,
        removeVerifierService, upgrade, createSession, submitCredit, submitCreditWithSession,
        approveAndMint, flagCredit, markRetired, transferCredit, splitCredit, expireCredit,
        disputeCredit, resolveDispute, mergeCredits, bind_eq_ok, pure_eq_ok, Prod.exists,
        Prod.mk.injEq, ite_eq_iff] at h
      simp only [Call.projectIn]
      grind

/-- A methodology is registered once for its code, by the admin. -/
theorem dispatch_methodology (h : dispatch sha256 env s call = .ok (ret, s')) :
    match call.methodology with
    | none => s'.roles.methodologySet = s.roles.methodologySet
    | some methodology =>
        (∃ admin, s.roles.admin = some admin ∧ env.auth admin = true) ∧
          methodology.code ∉ s.roles.methodologySet.map Methodology.code ∧
          s'.roles.methodologySet = s.roles.methodologySet ++ [methodology] := by
  by_cases writes : call.onCredits = true
  · rw [dispatch_roles sha256 env s writes h]
    cases call <;> first | rfl | cases writes
  cases call with
  | registerMethodology admin code name nonce =>
      simp only [dispatch, Result.unit_eq_ok, registerMethodology, Roles.requireAdmin, bind_eq_ok,
        rejectIf_eq_ok, requireAdmin_eq_ok, exists_const, pure_eq_ok] at h
      obtain ⟨⟨⟨isAdmin, authorised⟩, nonces, -, unlisted, rfl⟩, -⟩ := h
      refine ⟨⟨admin, isAdmin, authorised⟩, ?_, rfl⟩
      simpa [Roles.isMethodologyValid] using unlisted
  | _ =>
      first
        | exact absurd rfl writes
        | simp only [dispatch, Result.unit_eq_ok, Result.id_eq_ok, initializeContract, pause,
            unpause, setPaused, registerVerifier, removeVerifier, registerIssuer, removeIssuer,
            proposeAdmin, acceptAdmin, requireServiceAccess, configureVerifierServices,
            addVerifierService, removeVerifierService, registerProject, upgrade, createSession,
            bind_eq_ok, pure_eq_ok, Prod.mk.injEq] at h
          simp only [Call.methodology]
          grind

/-- What a submission checks of its issuer, project and methodology. -/
theorem dispatch_submission {sub : Submission} (submission : call.submission = some sub)
    (h : dispatch sha256 env s call = .ok (ret, s')) :
    env.auth sub.issuer = true ∧ s.roles.isIssuer sub.issuer = true ∧
      s.project.lookup sub.projectId ≠ none ∧
      sub.methodology ∈ s.roles.methodologySet.map Methodology.code := by
  have checked : ∀ {id : BytesN32} {post : State}, submitCredit sha256 env s sub.issuer
      sub.projectId sub.vintageYear sub.methodology sub.geography sub.tonnes sub.ipfsHash
      sub.nonce = .ok (id, post) → env.auth sub.issuer = true ∧
        s.roles.isIssuer sub.issuer = true ∧ s.project.lookup sub.projectId ≠ none ∧
        sub.methodology ∈ s.roles.methodologySet.map Methodology.code := by
    intro id post success
    simp only [submitCredit, bind_eq_ok, rejectIf_eq_ok, Env.requireAuth_eq_ok, exists_const]
      at success
    obtain ⟨-, -, authorised, nonce, -, registered, issues, valid, -⟩ := success
    refine ⟨authorised, by simpa using issues, by simpa using registered, ?_⟩
    simpa [Roles.isMethodologyValid] using valid
  cases call with
  | submitCredit issuer projectId vintageYear methodology geography tonnes ipfsHash nonce =>
      cases submission
      obtain ⟨id, success, -⟩ := Result.id_eq_ok.mp h
      exact checked success
  | submitCreditWithSession sessionId issuer projectId vintageYear methodology geography tonnes
      ipfsHash nonce =>
      cases submission
      obtain ⟨id, success, -⟩ := Result.id_eq_ok.mp h
      obtain ⟨submitted, audit, submits, -⟩ := submitCreditWithSession_ok sha256 env s success
      exact checked submits
  | _ => cases submission

end Calls

/-! ## The catalogue of a run -/

/-- The later event does not register a project of the earlier one. -/
def Apart (event later : RegistryEvent) : Prop :=
  ∀ projectId project project', RegistersProject event projectId project →
    ¬ RegistersProject later projectId project'

/-- The projects and the methodologies are what the log says. -/
structure Catalogued (log : List RegistryEvent) (s : State) : Prop where
  projects : ∀ projectId project, s.project.lookup projectId = some project ↔
    ∃ event ∈ log, RegistersProject event projectId project
  once : log.Pairwise Apart
  methodologies : s.roles.methodologySet = log.filterMap fun event => event.input.call.methodology
  codes : (s.roles.methodologySet.map Methodology.code).Nodup
  admins : ∀ methodology ∈ s.roles.methodologySet,
    ∃ event ∈ log, RegistersMethodology event methodology

theorem Catalogued.step {log : List RegistryEvent} {event : RegistryEvent}
    (catalogued : Catalogued log event.pre) (commits : (machine sha256).Commits event) :
    Catalogued (log ++ [event]) event.post := by
  have success := ((exec_eq_ok sha256 event.pre).mp commits).2
  have project := dispatch_project success
  have methodology := dispatch_methodology success
  refine ⟨?_, ?_, ?_, ?_, ?_⟩
  · intro projectId stored
    rw [Machine.exists_snoc, ← catalogued.projects, RegistersProject]
    cases registers : event.input.call.projectIn event.input.env with
    | none =>
        rw [registers] at project
        simp [show event.post.project = _ from project]
    | some registration =>
        obtain ⟨registered, metadata⟩ := registration
        rw [registers] at project
        obtain ⟨authorised, absent, inserted⟩ := project
        rw [inserted, Store.lookup_insert_ite]
        by_cases same : projectId = registered
        · subst same
          simp only [if_true, absent, Option.some.injEq, Prod.mk.injEq, true_and, reduceCtorEq,
            false_or]
          constructor
          · rintro rfl
            exact ⟨rfl, authorised⟩
          · exact And.left
        · simp [same, Ne.symm same]
  · rw [Machine.pairwise_snoc]
    refine ⟨catalogued.once, ?_⟩
    intro earlier logged projectId stored stored' registered again
    have present := (catalogued.projects projectId stored).mpr ⟨earlier, logged, registered⟩
    rw [again.1] at project
    rw [project.2.1] at present
    cases present
  · rw [List.filterMap_append, ← catalogued.methodologies]
    cases registers : event.input.call.methodology with
    | none =>
        rw [registers] at methodology
        simp [show event.post.roles.methodologySet = _ from methodology, registers]
    | some m =>
        rw [registers] at methodology
        simp [methodology.2.2, registers]
  · cases registers : event.input.call.methodology with
    | none =>
        rw [registers] at methodology
        rw [show event.post.roles.methodologySet = _ from methodology]
        exact catalogued.codes
    | some m =>
        rw [registers] at methodology
        obtain ⟨-, fresh, added⟩ := methodology
        rw [added, List.map_append, List.map_singleton, List.nodup_append_comm]
        exact List.nodup_cons.mpr ⟨fresh, catalogued.codes⟩
  · intro m listed
    rw [Machine.exists_snoc]
    cases registers : event.input.call.methodology with
    | none =>
        rw [registers] at methodology
        rw [show event.post.roles.methodologySet = _ from methodology] at listed
        exact .inl (catalogued.admins m listed)
    | some new =>
        rw [registers] at methodology
        obtain ⟨admin, -, added⟩ := methodology
        rw [added] at listed
        rcases List.mem_append.mp listed with before | last
        · exact .inl (catalogued.admins m before)
        · rw [List.mem_singleton.mp last]
          exact .inr ⟨registers, admin⟩

theorem catalogued_run (inputs : List Invocation) :
    Catalogued ((machine sha256).log inputs) ((machine sha256).state inputs) := by
  refine (machine sha256).run_induct Catalogued ?_
    (fun _ _ catalogued commits => catalogued.step commits) inputs
  refine ⟨?_, List.Pairwise.nil, rfl, List.nodup_nil, ?_⟩
  · intro projectId project
    simp [machine, State.empty]
  · intro methodology listed
    simp [machine, State.empty] at listed

/-- In every run, what is stored about a project is what the call that registered it said, with
the authority of its owner: it is registered once and never changes. The methodologies are those
that the admins have registered, in order and one for each code. -/
theorem catalogue_recorded (inputs : List Invocation) :
    (∀ projectId project, getProject ((machine sha256).state inputs) projectId = .ok project ↔
      ∃ event ∈ (machine sha256).log inputs, RegistersProject event projectId project) ∧
    ((machine sha256).log inputs).Pairwise Apart ∧
    ((machine sha256).state inputs).roles.methodologySet =
      (((machine sha256).log inputs).filterMap fun event => event.input.call.methodology) ∧
    (((machine sha256).state inputs).roles.methodologySet.map Methodology.code).Nodup ∧
    ∀ methodology ∈ ((machine sha256).state inputs).roles.methodologySet,
      ∃ event ∈ (machine sha256).log inputs, RegistersMethodology event methodology := by
  have catalogued : Catalogued ((machine sha256).log inputs) ((machine sha256).state inputs) :=
    catalogued_run inputs
  refine ⟨?_, catalogued.once, catalogued.methodologies, catalogued.codes, catalogued.admins⟩
  intro projectId project
  rw [getProject, okOr_eq_ok]
  exact catalogued.projects projectId project

/-! ## The origin of a credit -/

/-- The event submits the lot of the credit, and what it needs is in the log before it. -/
structure Originates (before : List RegistryEvent) (event : RegistryEvent)
    (credit : CreditMetadata) : Prop where
  submits : ∃ sub, event.input.call.submission = some sub ∧
    SameLot credit (sub.credit event.input.env)
  authorised : event.input.env.auth credit.issuer = true
  issuer : Decided before Call.issuerChange credit.issuer
  project : ∃ registration ∈ before, ∃ project,
    RegistersProject registration credit.projectId project
  methodology : ∃ registration ∈ before, ∃ methodology,
    RegistersMethodology registration methodology ∧ methodology.code = credit.methodology

/-- The lot of the credit comes from a submission of the log. -/
def Sourced (log : List RegistryEvent) (credit : CreditMetadata) : Prop :=
  ∃ before event after, log = before ++ event :: after ∧ Originates before event credit

theorem SameLot.trans {first second third : CreditMetadata} (h : SameLot first second)
    (h' : SameLot second third) : SameLot first third :=
  ⟨h.projectId.trans h'.projectId, h.vintageYear.trans h'.vintageYear, h.issuer.trans h'.issuer,
    h.methodology.trans h'.methodology, h.geography.trans h'.geography⟩

theorem SameLot.symm {first second : CreditMetadata} (h : SameLot first second) :
    SameLot second first :=
  ⟨h.projectId.symm, h.vintageYear.symm, h.issuer.symm, h.methodology.symm, h.geography.symm⟩

theorem Sourced.of_lot {log : List RegistryEvent} {credit credit' : CreditMetadata}
    (sourced : Sourced log credit) (same : SameLot credit' credit) : Sourced log credit' := by
  obtain ⟨before, event, after, split, ⟨sub, submission, lot⟩, authorised, issuer, project,
    methodology⟩ := sourced
  refine ⟨before, event, after, split, ⟨sub, submission, same.trans lot⟩, ?_, ?_, ?_, ?_⟩
  · rwa [same.issuer]
  · rwa [same.issuer]
  · rwa [same.projectId]
  · rwa [same.methodology]

theorem Sourced.snoc {log : List RegistryEvent} {credit : CreditMetadata}
    (sourced : Sourced log credit) (event : RegistryEvent) : Sourced (log ++ [event]) credit := by
  obtain ⟨before, source, after, rfl, originates⟩ := sourced
  exact ⟨before, source, after ++ [event], by simp, originates⟩

/-- A submission is the origin of the credit that it stores. -/
theorem originates_of_submission (earlier : List Invocation) {event : RegistryEvent}
    (reached : (machine sha256).state earlier = event.pre)
    (commits : (machine sha256).Commits event) {sub : Submission}
    (submission : event.input.call.submission = some sub) :
    Originates ((machine sha256).log earlier) event (sub.credit event.input.env) := by
  have success := ((exec_eq_ok sha256 event.pre).mp commits).2
  obtain ⟨authorised, issues, registered, valid⟩ := dispatch_submission submission success
  have catalogued : Catalogued ((machine sha256).log earlier) ((machine sha256).state earlier) :=
    catalogued_run earlier
  rw [reached] at catalogued
  refine ⟨⟨sub, submission, ⟨rfl, rfl, rfl, rfl, rfl⟩⟩, authorised, ?_, ?_, ?_⟩
  · have rosters : Recorded ((machine sha256).log earlier) ((machine sha256).state earlier) :=
      recorded earlier
    rw [← reached, Roles.isIssuer, List.contains_iff_mem, rosters.issuers] at issues
    exact (mem_replay_iff_decided (fun call changes => .inr (.inl changes)) earlier _).mp issues
  · obtain ⟨project, stored⟩ := Option.ne_none_iff_exists'.mp registered
    obtain ⟨registration, logged, registers⟩ := (catalogued.projects _ _).mp stored
    exact ⟨registration, logged, project, registers⟩
  · obtain ⟨methodology, listed, code⟩ := List.mem_map.mp valid
    obtain ⟨registration, logged, registers⟩ := catalogued.admins methodology listed
    exact ⟨registration, logged, methodology, registers, code⟩

/-- What the call stores has its lot from a credit stored before, or from a submission. -/
theorem sourced_step (inj : Function.Injective sha256) (earlier : List Invocation)
    {event : RegistryEvent} (reached : (machine sha256).state earlier = event.pre)
    (derived : event.pre.ledger.Derived sha256) (commits : (machine sha256).Commits event)
    (sourced : ∀ id credit, event.pre.ledger.getCredit id = some credit →
      Sourced ((machine sha256).log earlier) credit) {id : BytesN32} {credit : CreditMetadata}
    (stored : event.post.ledger.getCredit id = some credit) :
    Sourced ((machine sha256).log earlier ++ [event]) credit := by
  have effect := exec_effect sha256 event.pre commits
  cases before : event.pre.ledger.getCredit id with
  | some original =>
      obtain ⟨credit', stored', evolves⟩ := effect.evolves inj derived before
      obtain rfl := Option.some.inj (stored'.symm.trans stored)
      exact ((sourced id original before).of_lot evolves.constant.1).snoc event
  | none =>
      obtain ⟨created, -⟩ := effect.created before stored
      cases created with
      | submitted sub submission hasAdmin positive returned =>
          exact ⟨_, event, [], rfl, originates_of_submission earlier reached commits submission⟩
      | child caller parent child1Id child2Id splitTonnes part nonce original named returned
          isChild there owned positive =>
          have same : SameLot { original with tonnes := part, owner := caller } original :=
            ⟨rfl, rfl, rfl, rfl, rfl⟩
          exact ((sourced parent original there).of_lot same).snoc event
      | merged caller ids _ named returned several active tonnes sources =>
          obtain ⟨source, listed⟩ := List.exists_mem_of_length_pos (by omega : 0 < ids.length)
          obtain ⟨original, there, -, -, same⟩ := sources source listed
          exact ((sourced source original there).of_lot same.symm).snoc event

theorem sourced_run (inj : Function.Injective sha256) (inputs : List Invocation) :
    ((machine sha256).state inputs).ledger.Derived sha256 ∧
      ∀ id credit, ((machine sha256).state inputs).ledger.getCredit id = some credit →
        Sourced ((machine sha256).log inputs) credit := by
  induction inputs using List.reverseRecOn with
  | nil =>
      refine ⟨?_, ?_⟩
      · intro id stored
        exact absurd rfl stored
      · intro id credit stored
        cases stored
  | append_singleton inputs invocation ih =>
      obtain ⟨derived, sourced⟩ := ih
      cases committed : exec sha256 ((machine sha256).state inputs) invocation with
      | error failure =>
          obtain ⟨state, log⟩ := (machine sha256).snoc_of_error committed
          rw [state, log]
          exact ⟨derived, sourced⟩
      | ok result =>
          obtain ⟨ret, post⟩ := result
          obtain ⟨state, log⟩ := (machine sha256).snoc_of_ok committed
          rw [state, log]
          refine ⟨(exec_effect sha256 _ committed).derived derived, ?_⟩
          intro id credit stored
          let event : RegistryEvent := ⟨(machine sha256).state inputs, invocation, ret, post⟩
          exact @sourced_step sha256 inj inputs event rfl derived committed sourced id credit stored

/-- In every run, each stored credit has its project, vintage, issuer, methodology and geography
from one submission, which its issuer authorised. The admin had made it an issuer by then, and
the project and the methodology had been registered; they are still there as they were. -/
theorem credits_originate (inj : Function.Injective sha256) (inputs : List Invocation)
    {id : BytesN32} {credit : CreditMetadata}
    (stored : ((machine sha256).state inputs).ledger.getCredit id = some credit) :
    Sourced ((machine sha256).log inputs) credit ∧
      (∃ project, getProject ((machine sha256).state inputs) credit.projectId = .ok project) ∧
      ((machine sha256).state inputs).roles.isMethodologyValid credit.methodology = true := by
  have sourced := (sourced_run inj inputs).2 id credit stored
  have catalogued : Catalogued ((machine sha256).log inputs) ((machine sha256).state inputs) :=
    catalogued_run inputs
  refine ⟨sourced, ?_, ?_⟩
  · obtain ⟨before, event, after, split, originates⟩ := sourced
    obtain ⟨registration, logged, project, registers⟩ := originates.project
    refine ⟨project, okOr_eq_ok.mpr ((catalogued.projects _ _).mpr ⟨registration, ?_, registers⟩)⟩
    rw [split]
    exact List.mem_append_left _ logged
  · obtain ⟨before, event, after, split, originates⟩ := sourced
    obtain ⟨registration, logged, methodology, registers, code⟩ := originates.methodology
    have listed : methodology ∈ ((machine sha256).state inputs).roles.methodologySet := by
      rw [catalogued.methodologies, split]
      exact List.mem_filterMap.mpr ⟨registration, List.mem_append_left _ logged, registers.1⟩
    rw [Roles.isMethodologyValid, List.any_eq_true]
    exact ⟨methodology, listed, by simp [code]⟩

set_option maxRecDepth 100000 in
/-- A credit is split and its halves are merged: the merged one is of the submission. -/
theorem splitAndMerge_originates :
    ∃ credit, ((machine BytesN32.mk).state Sample.splitAndMerge).ledger.getCredit
        (creditId BytesN32.mk (.string "project-1") 3) = some credit ∧
      Sourced ((machine BytesN32.mk).log Sample.splitAndMerge) credit := by
  obtain ⟨credit, stored⟩ : ∃ credit,
      ((machine BytesN32.mk).state Sample.splitAndMerge).ledger.getCredit
        (creditId BytesN32.mk (.string "project-1") 3) = some credit := ⟨_, rfl⟩
  have origin := credits_originate BytesN32.mk_injective Sample.splitAndMerge stored
  exact ⟨credit, stored, origin.1⟩

end CarbonChain.Registry
