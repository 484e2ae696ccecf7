import CarbonChain.Registry.Effect

/-!
# CreditRegistry: sessions and the audit log

`submit_credit_with_session` (`contracts/credit_registry/src/lib.rs:1008-1048`) appends an
entry to the audit log and counts it for its session. The id of an entry hashes the session
with the log counter, which every entry advances, so no entry is overwritten. The id of a
session hashes its initiator, the ledger time and the same counter, which `create_session`
(`:983-1000`) does not advance.
-/

namespace CarbonChain.Registry

variable {sha256 : Bytes → BytesN32}

/-- The session that a call submits through, and the issuer who submits. -/
def Call.logs : Call → Option (BytesN32 × Address)
  | .submitCreditWithSession sessionId issuer _ _ _ _ _ _ _ => some (sessionId, issuer)
  | _ => none

/-- The initiator of the session that a call creates. -/
def Call.opens : Call → Option Address
  | .createSession initiator => some initiator
  | _ => none

/-- The id of a session that is created while the log has `count` entries. -/
def sessionIdAt (sha256 : Bytes → BytesN32) (initiator : Address) (timestamp count : Nat) :
    BytesN32 :=
  sha256 ((ScVal.address initiator).toXdr ++ (ScVal.u64 timestamp).toXdr ++
    (ScVal.u64 count).toXdr)

/-- The id of the entry that is appended to a log of `count` entries. -/
def logIdAt (sha256 : Bytes → BytesN32) (sessionId : BytesN32) (count : Nat) : BytesN32 :=
  sha256 ((ScVal.bytes sessionId).toXdr ++ (ScVal.u64 count).toXdr)

theorem sessionIdAt_inj (inj : Function.Injective sha256) {a a' : Address} {t t' n n' : Nat} :
    sessionIdAt sha256 a t n = sessionIdAt sha256 a' t' n' ↔ a = a' ∧ t = t' ∧ n = n' := by
  unfold sessionIdAt
  rw [inj.eq_iff, List.append_assoc, List.append_assoc, ScVal.toXdr_append_eq,
    ScVal.toXdr_append_eq, ScVal.toXdr_eq, ScVal.address.injEq, ScVal.u64.injEq, ScVal.u64.injEq]

theorem logIdAt_inj (inj : Function.Injective sha256) {id id' : BytesN32} {n n' : Nat} :
    logIdAt sha256 id n = logIdAt sha256 id' n' ↔ id = id' ∧ n = n' := by
  unfold logIdAt
  rw [inj.eq_iff, ScVal.toXdr_append_eq, ScVal.toXdr_eq, ScVal.bytes.injEq, ScVal.u64.injEq]

/-! ## What a call does to the sessions and the log -/

/-- How a successful call that returns `ret` leaves the sessions and the log. -/
inductive AuditChange (sha256 : Bytes → BytesN32) (env : Env) (audit : Audit) :
    Call → Ret → Audit → Prop where
  | kept (call : Call) (ret : Ret) (unlogged : call.logs = none) (unopened : call.opens = none) :
      AuditChange sha256 env audit call ret audit
  | opened (initiator : Address) :
      AuditChange sha256 env audit (.createSession initiator)
        (.id (sessionIdAt sha256 initiator env.timestamp audit.auditLogCount))
        (audit.setSession (sessionIdAt sha256 initiator env.timestamp audit.auditLogCount)
          { initiator, createdAt := env.timestamp, operationCount := 0 })
  | logged (call : Call) (creditId : BytesN32) (entry : AuditLogEntry)
      (named : call.logs = some (entry.sessionId, entry.actor))
      (submits : entry.creditId = creditId)
      (known : audit.session.lookup entry.sessionId ≠ none) :
      AuditChange sha256 env audit call (.id creditId)
        { audit with
          auditLogCount := audit.auditLogCount + 1
          auditLog :=
            audit.auditLog.insert (logIdAt sha256 entry.sessionId audit.auditLogCount) entry
          sessionOpCount := audit.sessionOpCount.insert entry.sessionId
            (audit.getSessionOpCount entry.sessionId + 1) }

theorem submitCredit_audit {env : Env} {s s' : State} {issuer : Address} {projectId : String}
    {vintageYear : Nat} {methodology geography : String} {tonnes : Int} {ipfsHash : String}
    {nonce : Nat} {id : BytesN32}
    (h : submitCredit sha256 env s issuer projectId vintageYear methodology geography tonnes
      ipfsHash nonce = .ok (id, s')) : s'.audit = s.audit := by
  simp only [submitCredit, bind_eq_ok, pure_eq_ok, Prod.exists, Prod.mk.injEq] at h
  grind

theorem submitCreditWithSession_audit {env : Env} {s s' : State} {sessionId : BytesN32}
    {issuer : Address} {projectId : String} {vintageYear : Nat} {methodology geography : String}
    {tonnes : Int} {ipfsHash : String} {nonce : Nat} {creditId : BytesN32}
    (h : submitCreditWithSession sha256 env s sessionId issuer projectId vintageYear methodology
      geography tonnes ipfsHash nonce = .ok (creditId, s')) :
    AuditChange sha256 env s.audit (.submitCreditWithSession sessionId issuer projectId vintageYear
      methodology geography tonnes ipfsHash nonce) (.id creditId) s'.audit := by
  simp only [submitCreditWithSession, Audit.appendAuditLog, Audit.incrementSessionOpCount,
    bind_eq_ok, rejectIf_eq_ok, exists_const, addUnsigned_eq_ok, pure_eq_ok, Prod.exists,
    Prod.mk.injEq] at h
  rcases h with ⟨known, creditId, submitted, success, _, ⟨_, ⟨-, rfl⟩, rfl⟩, _, ⟨_, ⟨-, rfl⟩, rfl⟩,
    rfl, rfl⟩
  rw [submitCredit_audit success]
  let entry : AuditLogEntry :=
    { sessionId, creditId, actor := issuer, action := "submit_credit", timestamp := env.timestamp }
  refine .logged _ creditId entry rfl rfl ?_
  simpa using known

theorem exec_audit {env : Env} {s s' : State} {call : Call} {ret : Ret}
    (h : exec sha256 s ⟨env, call⟩ = .ok (ret, s')) :
    AuditChange sha256 env s.audit call ret s'.audit := by
  have dispatched := ((exec_eq_ok sha256 s).mp h).2
  cases call with
  | createSession initiator =>
      simp only [dispatch, Result.id_eq_ok, createSession, bind_eq_ok, Env.requireAuth_eq_ok,
        exists_const, pure_eq_ok, Prod.mk.injEq] at dispatched
      rcases dispatched with ⟨_, ⟨-, rfl, rfl⟩, rfl⟩
      exact .opened initiator
  | submitCreditWithSession sessionId issuer projectId vintageYear methodology geography tonnes
      ipfsHash nonce =>
      rcases Result.id_eq_ok.mp dispatched with ⟨creditId, success, rfl⟩
      exact submitCreditWithSession_audit success
  | submitCredit issuer projectId vintageYear methodology geography tonnes ipfsHash nonce =>
      rcases Result.id_eq_ok.mp dispatched with ⟨creditId, success, rfl⟩
      rw [submitCredit_audit success]
      exact .kept _ _ rfl rfl
  | _ =>
      have same : s'.audit = s.audit := by
        simp only [dispatch, Result.unit_eq_ok, Result.id_eq_ok, Result.pair_eq_ok,
          initializeContract, pause, unpause, setPaused, registerVerifier, removeVerifier,
          registerIssuer, removeIssuer, registerMethodology, proposeAdmin, acceptAdmin,
          requireServiceAccess, configureVerifierServices, addVerifierService,
          removeVerifierService, registerProject, upgrade, approveAndMint, flagCredit, markRetired,
          transferCredit, splitCredit, expireCredit, disputeCredit, resolveDispute, mergeCredits,
          bind_eq_ok, pure_eq_ok, Prod.exists, Prod.mk.injEq, ite_eq_iff] at dispatched
        grind
      rw [same]
      exact .kept _ _ rfl rfl

/-! ## The audit log -/

/-- The log holds one entry for each value of the counter, under an id derived from it, and the
count of a session is that of its entries. -/
structure Audit.Kept (sha256 : Bytes → BytesN32) (audit : Audit) : Prop where
  counted : audit.auditLog.keys.card = audit.auditLogCount
  derived : ∀ id entry, audit.auditLog.lookup id = some entry →
    ∃ n < audit.auditLogCount, id = logIdAt sha256 entry.sessionId n
  operations : ∀ sessionId, audit.getSessionOpCount sessionId =
    audit.auditLog.count fun entry => entry.sessionId == sessionId

theorem audit_kept_init : (machine sha256).init.audit.Kept sha256 := by
  refine ⟨rfl, ?_, ?_⟩
  · intro id entry stored
    cases stored
  · intro sessionId
    show 0 = _
    exact (Store.count_empty _).symm

/-- Nothing is stored under the id of the next entry. -/
theorem Audit.Kept.fresh {audit : Audit} (kept : audit.Kept sha256)
    (inj : Function.Injective sha256) (sessionId : BytesN32) :
    audit.auditLog.lookup (logIdAt sha256 sessionId audit.auditLogCount) = none := by
  by_contra stored
  rcases Option.ne_none_iff_exists'.mp stored with ⟨entry, there⟩
  rcases kept.derived _ entry there with ⟨n, passed, same⟩
  have counters := ((logIdAt_inj inj).mp same).2
  omega

theorem AuditChange.kept_step {env : Env} {audit audit' : Audit} {call : Call} {ret : Ret}
    (inj : Function.Injective sha256) (kept : audit.Kept sha256)
    (change : AuditChange sha256 env audit call ret audit') : audit'.Kept sha256 := by
  cases change with
  | kept _ _ unlogged unopened => exact kept
  | opened initiator => exact ⟨kept.counted, kept.derived, kept.operations⟩
  | logged _ creditId entry named submits known =>
      have fresh := kept.fresh inj entry.sessionId
      refine ⟨?_, ?_, ?_⟩
      · show (audit.auditLog.insert _ entry).keys.card = audit.auditLogCount + 1
        rw [Store.card_insert fresh, kept.counted]
      · intro id found stored
        rw [Store.lookup_insert_ite] at stored
        split at stored
        · next same =>
            rcases Option.some.inj stored with rfl
            exact ⟨audit.auditLogCount, Nat.lt_succ_self _, same⟩
        · rcases kept.derived id found stored with ⟨n, passed, same⟩
          exact ⟨n, Nat.lt_succ_of_lt passed, same⟩
      · intro sessionId
        have before := kept.operations sessionId
        rw [Store.count_insert fresh, ← before]
        unfold Audit.getSessionOpCount
        rw [Store.lookup_insert_ite]
        by_cases same : sessionId = entry.sessionId
        · subst same
          simp
        · simp [same, Ne.symm same]

theorem exec_audit_kept (inj : Function.Injective sha256)
    {event : Event State Invocation Ret} (kept : event.pre.audit.Kept sha256)
    (commits : (machine sha256).Commits event) : event.post.audit.Kept sha256 :=
  (exec_audit commits).kept_step inj kept

/-- No call changes or removes an entry. -/
theorem AuditChange.extends_log {env : Env} {audit audit' : Audit} {call : Call} {ret : Ret}
    (inj : Function.Injective sha256) (kept : audit.Kept sha256)
    (change : AuditChange sha256 env audit call ret audit') :
    audit.auditLog.Extends audit'.auditLog := by
  cases change with
  | logged _ creditId entry named submits known => exact .insert (kept.fresh inj entry.sessionId) _
  | _ => exact .refl _

/-- The event stores, under an id where nothing was stored, one entry of the session and the
actor with the credit that the event returns, and writes nothing else to the log. -/
def Appends (event : Event State Invocation Ret) (sessionId : BytesN32) (actor : Address) : Prop :=
  ∃ creditId logId entry, event.output = .id creditId ∧
    event.pre.audit.auditLog.lookup logId = none ∧
    event.post.audit.auditLog = event.pre.audit.auditLog.insert logId entry ∧
    entry.sessionId = sessionId ∧ entry.creditId = creditId ∧ entry.actor = actor

theorem AuditChange.appends {env : Env} {audit audit' : Audit} {call : Call} {ret : Ret}
    (inj : Function.Injective sha256) (kept : audit.Kept sha256)
    (change : AuditChange sha256 env audit call ret audit') {sessionId : BytesN32}
    {actor : Address} (named : call.logs = some (sessionId, actor)) :
    ∃ creditId logId entry, ret = .id creditId ∧ audit.auditLog.lookup logId = none ∧
      audit'.auditLog = audit.auditLog.insert logId entry ∧ entry.sessionId = sessionId ∧
      entry.creditId = creditId ∧ entry.actor = actor := by
  cases change with
  | kept _ _ unlogged unopened =>
      rw [unlogged] at named
      cases named
  | opened initiator => cases named
  | logged _ creditId entry named' submits known =>
      rw [named'] at named
      cases named
      exact ⟨creditId, _, entry, rfl, kept.fresh inj entry.sessionId, rfl, rfl, submits, rfl⟩

/-- The audit log is append-only and complete: in every run each submission through a session
appends one entry of its own under a new id, every entry stays as it is, the log counter is
the number of the entries, and the operations of a session are its entries. -/
theorem audit_log_complete (inj : Function.Injective sha256) (inputs : List Invocation) :
    (∀ event ∈ (machine sha256).log inputs, ∀ sessionId issuer,
      event.input.call.logs = some (sessionId, issuer) → Appends event sessionId issuer) ∧
    (∀ earlier later, inputs = earlier ++ later →
      ((machine sha256).state earlier).audit.auditLog.Extends
        ((machine sha256).state inputs).audit.auditLog) ∧
    ((machine sha256).state inputs).audit.auditLog.keys.card =
      ((machine sha256).state inputs).audit.auditLogCount ∧
    ∀ sessionId, ((machine sha256).state inputs).audit.session.lookup sessionId ≠ none →
      getSessionOperationCount ((machine sha256).state inputs) sessionId =
        .ok (((machine sha256).state inputs).audit.auditLog.count
          fun entry => entry.sessionId == sessionId) := by
  have kept := (machine sha256).invariant (fun s => s.audit.Kept sha256) audit_kept_init
    (fun event kept commits => exec_audit_kept inj kept commits)
  refine ⟨?_, ?_, (kept inputs).counted, ?_⟩
  · intro event logged sessionId issuer named
    have pre := (machine sha256).invariant_pre (fun s => s.audit.Kept sha256) audit_kept_init
      (fun event kept commits => exec_audit_kept inj kept commits) logged
    exact (exec_audit pre.2).appends inj pre.1 named
  · intro earlier later split
    rw [split]
    apply (machine sha256).relates (fun s => s.audit.Kept sha256)
      (fun s s' => s.audit.auditLog.Extends s'.audit.auditLog)
    · exact audit_kept_init
    · exact fun s => .refl _
    · exact fun _ _ _ first second => first.trans second
    · intro event kept commits
      exact ⟨exec_audit_kept inj kept commits, (exec_audit commits).extends_log inj kept⟩
  · intro sessionId known
    have found : ¬ ((((machine sha256).state inputs).audit.session.lookup sessionId).isNone) := by
      simpa using known
    simp only [getSessionOperationCount, bind_eq_ok, rejectIf_eq_ok, exists_const, pure_eq_ok]
    exact ⟨found, (kept inputs).operations sessionId⟩

namespace Sample

/-- The session that the issuer creates in the sample registry. -/
def session : BytesN32 := sessionIdAt BytesN32.mk issuer 1735689600 0

def createSession : Invocation := call issuer (.createSession issuer)

/-- The issuer submits one tonne for 2024 through the session. -/
def submitWithSession : Invocation :=
  call issuer (.submitCreditWithSession session issuer "project-1" 2024 "VCS" "NG" 1000000 "ipfs" 0)

def sessionLogged : List Invocation := setup 1 ++ [createSession, submitWithSession]

end Sample

set_option maxRecDepth 100000 in
/-- The submission through the session leaves one entry in the log. -/
theorem sessionLogged_complete :
    (∃ event ∈ (machine BytesN32.mk).log Sample.sessionLogged,
      Appends event Sample.session Sample.issuer) ∧
    ((machine BytesN32.mk).state Sample.sessionLogged).audit.auditLog.keys.card = 1 := by
  have complete := audit_log_complete BytesN32.mk_injective Sample.sessionLogged
  refine ⟨⟨_, List.getElem_mem (n := 6) (by decide), ?_⟩, complete.2.2.1⟩
  exact complete.1 _ (List.getElem_mem (n := 6) (by decide)) Sample.session Sample.issuer rfl

/-! ## Session ids -/

/-- The id of the session that a call creates, which is what it returns. -/
def Call.openedId : Call → Ret → Option BytesN32
  | .createSession _, .id id => some id
  | _, _ => none

/-- The ids of the sessions that the events create, in order. -/
def openedIds (log : List (Event State Invocation Ret)) : List BytesN32 :=
  log.filterMap fun event => event.input.call.openedId event.output

/-- The initiator and the ledger time of the session that the event creates. -/
def opener (event : Event State Invocation Ret) : Option (Address × Nat) :=
  event.input.call.opens.map (·, event.input.env.timestamp)

/-- Any two created sessions have different ids, and none was created over a stored session. -/
structure UniqueSessions (log : List (Event State Invocation Ret)) : Prop where
  distinct : (openedIds log).Nodup
  preserved : ∀ event ∈ log, ∀ id ∈ event.input.call.openedId event.output,
    event.pre.audit.session.lookup id = none

/-- A session of this initiator was created at this ledger time, and no submission through any
session came after it. -/
def OpenedLast (log : List (Event State Invocation Ret)) (origin : Address × Nat) : Prop :=
  ∃ before event after, log = before ++ event :: after ∧ opener event = some origin ∧
    ∀ e ∈ after, e.input.call.logs = none

/-- Between the event and an earlier session of the same initiator at the same ledger time a
submission was made through some session. -/
def Separated (log : List (Event State Invocation Ret)) (event : Event State Invocation Ret) :
    Prop :=
  ∀ origin ∈ opener event, ¬ OpenedLast log origin

theorem openedLast_snoc {log : List (Event State Invocation Ret)}
    {event : Event State Invocation Ret} {origin : Address × Nat} :
    OpenedLast (log ++ [event]) origin ↔
      opener event = some origin ∨ event.input.call.logs = none ∧ OpenedLast log origin := by
  constructor
  · intro opened
    rcases opened with ⟨before, first, after, split, opens, unlogged⟩
    rcases List.eq_nil_or_concat after with rfl | ⟨rest, last, rfl⟩
    · have single := (List.append_inj' split rfl).2
      rw [(List.cons.inj single).1]
      exact .inl opens
    · rw [List.concat_eq_append] at split unlogged
      rw [← List.cons_append, ← List.append_assoc] at split
      have shorter := List.append_inj' split rfl
      rw [(List.cons.inj shorter.2).1]
      refine .inr ⟨unlogged last List.mem_concat_self, before, first, rest, shorter.1, opens, ?_⟩
      exact fun e listed => unlogged e (List.mem_append_left _ listed)
  · intro opened
    rcases opened with opens | ⟨quiet, before, first, after, rfl, opens, unlogged⟩
    · exact ⟨log, event, [], rfl, opens, by simp⟩
    · refine ⟨before, first, after ++ [event], by simp, opens, ?_⟩
      intro e listed
      rcases List.mem_append.mp listed with earlier | last
      · exact unlogged e earlier
      · rw [List.mem_singleton.mp last]
        exact quiet

/-- The event creates a session under an id that no event before it created and under which
nothing is stored. -/
def CreatesFresh (log : List (Event State Invocation Ret)) (event : Event State Invocation Ret) :
    Prop :=
  ∀ id ∈ event.input.call.openedId event.output,
    event.pre.audit.session.lookup id = none ∧ id ∉ openedIds log

theorem openedIds_snoc (log : List (Event State Invocation Ret))
    (event : Event State Invocation Ret) :
    openedIds (log ++ [event]) =
      openedIds log ++ (event.input.call.openedId event.output).toList := by
  cases opened : event.input.call.openedId event.output <;> simp [openedIds, opened]

theorem uniqueSessions_iff {log : List (Event State Invocation Ret)} :
    UniqueSessions log ↔ Machine.Admits CreatesFresh log := by
  induction log using List.reverseRecOn with
  | nil => exact ⟨fun _ => Machine.admits_nil _, fun _ => ⟨List.nodup_nil, by simp⟩⟩
  | append_singleton log event ih =>
      rw [Machine.admits_snoc, ← ih]
      constructor
      · intro unique
        have distinct := unique.distinct
        rw [openedIds_snoc, List.nodup_append] at distinct
        refine ⟨⟨distinct.1, ?_⟩, ?_⟩
        · exact fun e listed => unique.preserved e (List.mem_append_left _ listed)
        · intro id opened
          refine ⟨unique.preserved event List.mem_concat_self id opened, ?_⟩
          intro earlier
          exact distinct.2.2 id earlier id (Option.mem_toList.mpr opened) rfl
      · intro both
        rcases both with ⟨unique, fresh⟩
        refine ⟨?_, ?_⟩
        · rw [openedIds_snoc, List.nodup_append]
          refine ⟨unique.distinct, ?_, ?_⟩
          · cases event.input.call.openedId event.output <;> simp
          · intro id earlier other opened same
            rw [Option.mem_toList, ← same] at opened
            exact (fresh id opened).2 earlier
        · intro e listed
          rcases List.mem_append.mp listed with earlier | last
          · exact unique.preserved e earlier
          · rw [List.mem_singleton.mp last]
            exact fun id opened => (fresh id opened).1

/-- The stored sessions are those of the log, with ids that were derived at counter values up to
the current one, and those with the current one are the ones that were created last. -/
structure SessionInv (sha256 : Bytes → BytesN32) (log : List (Event State Invocation Ret))
    (audit : Audit) : Prop where
  created : ∀ id, audit.session.lookup id ≠ none ↔ id ∈ openedIds log
  derived : ∀ id, audit.session.lookup id ≠ none →
    ∃ a t, ∃ n ≤ audit.auditLogCount, id = sessionIdAt sha256 a t n
  current : ∀ a t, audit.session.lookup (sessionIdAt sha256 a t audit.auditLogCount) ≠ none ↔
    OpenedLast log (a, t)

theorem sessionInv_init : SessionInv sha256 [] (machine sha256).init.audit := by
  refine ⟨?_, ?_, ?_⟩
  · intro id
    constructor
    · exact fun stored => absurd rfl stored
    · intro listed
      cases listed
  · intro id stored
    exact absurd rfl stored
  · intro a t
    constructor
    · exact fun stored => absurd rfl stored
    · intro opened
      rcases opened with ⟨before, event, after, split, -⟩
      simp at split

theorem openedId_of_unopened {call : Call} (unopened : call.opens = none) (ret : Ret) :
    call.openedId ret = none := by
  cases call <;> first | rfl | cases unopened

theorem unopened_of_logs {call : Call} {entry : BytesN32 × Address}
    (named : call.logs = some entry) : call.opens = none := by
  cases call <;> first | rfl | cases named

theorem AuditChange.sessionInv {log : List (Event State Invocation Ret)}
    {event : Event State Invocation Ret} {audit' : Audit} (inj : Function.Injective sha256)
    (inv : SessionInv sha256 log event.pre.audit)
    (change : AuditChange sha256 event.input.env event.pre.audit event.input.call event.output
      audit') : SessionInv sha256 (log ++ [event]) audit' := by
  rcases event with ⟨pre, ⟨env, call⟩, ret, post⟩
  dsimp only at change
  cases change with
  | kept _ _ unlogged unopened =>
      refine ⟨?_, inv.derived, ?_⟩
      · intro id
        rw [openedIds_snoc, openedId_of_unopened unopened, Option.toList_none, List.append_nil]
        exact inv.created id
      · intro a t
        rw [openedLast_snoc, inv.current]
        simp [opener, unlogged, unopened]
  | opened initiator =>
      refine ⟨?_, ?_, ?_⟩
      · intro id
        rw [openedIds_snoc, List.mem_append, ← inv.created]
        simp only [Audit.setSession, Store.lookup_insert_ite, Call.openedId, Option.toList_some,
          List.mem_singleton]
        split
        · next same => simp [same]
        · next other => simp [other]
      · intro id stored
        simp only [Audit.setSession, Store.lookup_insert_ite] at stored
        split at stored
        · next same => exact ⟨initiator, env.timestamp, _, le_refl _, same⟩
        · exact inv.derived id stored
      · intro a t
        have before := inv.current a t
        rw [openedLast_snoc, ← before]
        simp only [Audit.setSession, Store.lookup_insert_ite, sessionIdAt_inj inj, opener,
          Call.opens, Call.logs, Option.map_some, Option.some.injEq, Prod.mk.injEq, true_and]
        split
        · next same => simp [same]
        · next other => grind
  | logged _ creditId entry named submits known =>
      have unopened := unopened_of_logs named
      refine ⟨?_, ?_, ?_⟩
      · intro id
        rw [openedIds_snoc, openedId_of_unopened unopened, Option.toList_none, List.append_nil]
        exact inv.created id
      · intro id stored
        rcases inv.derived id stored with ⟨a, t, n, passed, same⟩
        exact ⟨a, t, n, Nat.le_succ_of_le passed, same⟩
      · intro a t
        rw [openedLast_snoc]
        -- no stored id was derived at the advanced counter
        have absent : pre.audit.session.lookup
            (sessionIdAt sha256 a t (pre.audit.auditLogCount + 1)) = none := by
          by_contra stored
          rcases inv.derived _ stored with ⟨a', t', n, passed, same⟩
          have counters := ((sessionIdAt_inj inj).mp same).2.2
          have : n ≤ pre.audit.auditLogCount := passed
          omega
        simp [absent, opener, named, unopened]

/-- A session is created under a new id if and only if a submission separates it from those with
its initiator and its ledger time. -/
theorem SessionInv.createsFresh_iff {log : List (Event State Invocation Ret)}
    {event : Event State Invocation Ret} {audit' : Audit}
    (inv : SessionInv sha256 log event.pre.audit)
    (change : AuditChange sha256 event.input.env event.pre.audit event.input.call event.output
      audit') : CreatesFresh log event ↔ Separated log event := by
  rcases event with ⟨pre, ⟨env, call⟩, ret, post⟩
  unfold CreatesFresh Separated
  dsimp only at change
  cases change with
  | opened initiator =>
      have stored := inv.created (sessionIdAt sha256 initiator env.timestamp
        pre.audit.auditLogCount)
      have current := inv.current initiator env.timestamp
      simp only [Call.openedId, opener, Call.opens, Option.map_some, Option.mem_def,
        Option.some.injEq, forall_eq']
      grind
  | kept _ _ unlogged unopened => simp [openedId_of_unopened unopened, opener, unopened]
  | logged _ creditId entry named submits known =>
      have unopened := unopened_of_logs named
      simp [openedId_of_unopened unopened, opener, unopened]

/-- Session ids are unique in exactly the runs in which a submission through some session comes
between any two `create_session` calls of one initiator at one ledger time. -/
theorem session_ids_unique_iff (inj : Function.Injective sha256) (inputs : List Invocation) :
    UniqueSessions ((machine sha256).log inputs) ↔
      Machine.Admits Separated ((machine sha256).log inputs) := by
  rw [uniqueSessions_iff]
  apply (machine sha256).admits_iff (fun _ _ => True) _ _
    (fun log s => SessionInv sha256 log s.audit)
  · exact sessionInv_init
  · intro log event inv _ commits
    exact inv.createsFresh_iff (exec_audit commits)
  · intro log event inv _ _ commits
    exact (exec_audit commits).sessionInv inj inv
  · exact Machine.admits_of_forall fun _ _ _ => trivial

namespace Sample

/-- The issuer creates two sessions in one ledger, with the submission between them. -/
def sessionsApart : List Invocation := sessionLogged ++ [createSession]

/-- The issuer creates two sessions in one ledger. -/
def sessionsTogether : List Invocation := setup 1 ++ [createSession, createSession]

end Sample

set_option maxRecDepth 100000 in
theorem sessionsApart_unique :
    UniqueSessions ((machine BytesN32.mk).log Sample.sessionsApart) := by
  apply (session_ids_unique_iff BytesN32.mk_injective Sample.sessionsApart).mpr
  obtain ⟨first, submission, second, split, quiet, logs⟩ : ∃ first submission second,
      (machine BytesN32.mk).log Sample.sessionsApart =
        (machine BytesN32.mk).log (Sample.setup 1) ++ [first] ++ [submission] ++ [second] ∧
      opener submission = none ∧ submission.input.call.logs ≠ none :=
    ⟨_, _, _, rfl, rfl, by decide⟩
  have none_before : ∀ event ∈ (machine BytesN32.mk).log (Sample.setup 1), opener event = none := by
    decide
  rw [split, Machine.admits_snoc, Machine.admits_snoc, Machine.admits_snoc]
  refine ⟨⟨⟨Machine.admits_of_none none_before, ?_⟩, ?_⟩, ?_⟩
  · intro origin opens last
    rcases last with ⟨before, event, after, earlier, opened, unlogged⟩
    rw [none_before event (by simp [earlier])] at opened
    cases opened
  · intro origin opens
    rw [quiet] at opens
    cases opens
  · intro origin opens last
    rcases openedLast_snoc.mp last with opened | ⟨unlogged, _⟩
    · rw [quiet] at opened
      cases opened
    · exact logs unlogged

set_option maxRecDepth 100000 in
/-- Both sessions get one id. -/
theorem sessionsTogether_not_unique :
    Function.Injective BytesN32.mk ∧
      (Sample.sessionsTogether.Pairwise fun first second =>
        first.env.timestamp ≤ second.env.timestamp) ∧
      ¬ UniqueSessions ((machine BytesN32.mk).log Sample.sessionsTogether) := by
  refine ⟨BytesN32.mk_injective, by decide, ?_⟩
  intro unique
  have ids : openedIds ((machine BytesN32.mk).log Sample.sessionsTogether) =
      [Sample.session, Sample.session] := rfl
  have distinct := unique.distinct
  rw [ids] at distinct
  exact absurd distinct (by simp)

end CarbonChain.Registry
