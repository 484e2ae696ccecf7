import CarbonChain.Registry.Expiry
import CarbonChain.Registry.Pending

/-!
# CreditRegistry: counting approvals

The stored approvals of a pending credit are the successful `approve_and_mint` calls
(`contracts/credit_registry/src/lib.rs:410-454`) on it, in order and without repetitions,
and the call that reaches the threshold mints. An approval is kept when its verifier is
removed, and only the pending counter stands between a verifier with a standing approval
and its removal.
-/

namespace CarbonChain.Registry

variable {sha256 : Bytes → BytesN32}

/-- The verifier whose approval of the credit a call is. -/
def Call.approves (call : Call) (id : BytesN32) : Option Address :=
  match call with
  | .approveAndMint verifier target _ => if target = id then some verifier else none
  | _ => none

/-- The addresses whose `approve_and_mint` on the credit succeeded, in order. -/
def approversOf (log : Log) (id : BytesN32) : List Address :=
  log.filterMap fun event => event.input.call.approves id

theorem approversOf_snoc (log : Log) (event : Event State Invocation Ret) (id : BytesN32) :
    approversOf (log ++ [event]) id =
      approversOf log id ++ (event.input.call.approves id).toList := by
  unfold approversOf
  rw [List.filterMap_append]
  cases approved : event.input.call.approves id <;> simp [approved]

theorem Call.approves_eq_some {call : Call} {id : BytesN32} {verifier : Address} :
    call.approves id = some verifier ↔ ∃ nonce, call = .approveAndMint verifier id nonce := by
  cases call with
  | approveAndMint v target nonce =>
      by_cases same : target = id
      · simp [approves, same]
      · simp [approves, same]
  | _ => simp [approves]

/-! ## What a call does to the approvals of a credit -/

/-- A call that approves another credit, or none, leaves the approvals of this one alone. -/
theorem Effect.approvals_frame {env : Env} {s : State} {call : Call} {ret : Ret} {after : Ledger}
    (effect : Effect sha256 env s call ret after) {id : BytesN32}
    (other : call.approves id = none) :
    after.getCreditApprovals id = s.ledger.getCreditApprovals id := by
  have ne_of : ∀ {verifier target nonce}, call = .approveAndMint verifier target nonce →
      id ≠ target := by
    rintro verifier target nonce named rfl
    simp [named, Call.approves] at other
  cases effect with
  | approved verifier target nonce credit authorised registered stored pending first short =>
      simp [ne_of rfl]
  | minted verifier target nonce credit authorised registered stored pending first enough =>
      simp [ne_of rfl]
  | merged caller ids mergedId merged _ authorised several owner active tonnes sources newDerived
      retired =>
      unfold Ledger.getCreditApprovals
      rw [(retireLoop_ok retired).creditApprovals]
      rfl
  | _ => simp

/-- An approval of a credit below the threshold is added to the list, and one that reaches it
mints. -/
inductive Approved (s : State) (verifier : Address) (id : BytesN32) (after : Ledger) : Prop where
  | added (short : (s.ledger.getCreditApprovals id).length + 1 < s.roles.getRequiredApprovals)
      (pending : after.statusOf id = some .pending)
      (approvals : after.getCreditApprovals id = s.ledger.getCreditApprovals id ++ [verifier])
  | minted (enough : s.roles.getRequiredApprovals ≤ (s.ledger.getCreditApprovals id).length + 1)
      (active : after.statusOf id = some .active)

theorem Effect.approval {env : Env} {s : State} {call : Call} {ret : Ret} {after : Ledger}
    (effect : Effect sha256 env s call ret after) {verifier : Address} {id : BytesN32}
    (approves : call.approves id = some verifier) :
    s.ledger.statusOf id = some .pending ∧ verifier ∈ s.roles.verifierSet ∧
      verifier ∉ s.ledger.getCreditApprovals id ∧ Approved s verifier id after := by
  obtain ⟨nonce, rfl⟩ := Call.approves_eq_some.mp approves
  obtain ⟨credit, stored, pending, registered, first, outcome⟩ := effect.of_approveAndMint
  refine ⟨Ledger.statusOf_eq_some.mpr ⟨credit, stored, pending⟩, registered, first, ?_⟩
  rcases outcome with ⟨short, rfl⟩ | ⟨enough, rfl⟩
  · refine .added short ?_ ?_
    · simp [pending]
    · simp
  · refine .minted enough ?_
    simp

/-- An id under which nothing is stored is not approved. -/
theorem Effect.not_approves {env : Env} {s : State} {call : Call} {ret : Ret} {after : Ledger}
    (effect : Effect sha256 env s call ret after) {id : BytesN32}
    (absent : s.ledger.getCredit id = none) : call.approves id = none := by
  cases approved : call.approves id with
  | none => rfl
  | some verifier =>
      have pending := (effect.approval approved).1
      exact absurd absent (Ledger.stored_of_statusOf pending)

/-! ## Exact counting -/

/-- What a run keeps of the approvals. -/
structure Counting (sha256 : Bytes → BytesN32) (log : Log) (s : State) : Prop where
  derived : s.ledger.Derived sha256
  founding : Founding log s
  positive : 0 < s.roles.getRequiredApprovals
  absent : ∀ id, s.ledger.getCredit id = none →
    s.ledger.getCreditApprovals id = [] ∧ approversOf log id = []
  pending : ∀ id, s.ledger.statusOf id = some .pending →
    s.ledger.getCreditApprovals id = approversOf log id ∧
      (s.ledger.getCreditApprovals id).Nodup ∧
      (s.ledger.getCreditApprovals id).length < s.roles.getRequiredApprovals

/-- The threshold is positive, and `initialize` sets it before there is any credit. -/
theorem exec_threshold {event : Event State Invocation Ret}
    (commits : (machine sha256).Commits event)
    (positive : 0 < event.pre.roles.getRequiredApprovals) :
    0 < event.post.roles.getRequiredApprovals ∧
      (event.pre.roles.admin ≠ none → event.post.roles.admin ≠ none ∧
        event.post.roles.getRequiredApprovals = event.pre.roles.getRequiredApprovals) := by
  cases exec_roles_cases sha256 event.pre commits with
  | initialised admin retirementContract k named fresh founded trusted positive' threshold ledger =>
      rw [threshold]
      exact ⟨positive', fun hasAdmin => absurd fresh hasAdmin⟩
  | kept later kept =>
      rw [kept.getRequiredApprovals]
      exact ⟨positive, fun hasAdmin => ⟨kept.founded hasAdmin, rfl⟩⟩

/-- Nothing is pending before `initialize`. -/
theorem Founding.hasAdmin {log : Log} {s : State} (founding : Founding log s) {id : BytesN32}
    (stored : s.ledger.getCredit id ≠ none) : s.roles.admin ≠ none :=
  fun noAdmin => stored (founding.noCredit noAdmin id)

/-- A credit starts without approvals. -/
theorem Counting.unapproved {log : Log} {event : Event State Invocation Ret}
    (inv : Counting sha256 log event.pre) (commits : (machine sha256).Commits event)
    {id : BytesN32} (absent : event.pre.ledger.getCredit id = none) :
    event.post.ledger.getCreditApprovals id = [] ∧ approversOf (log ++ [event]) id = [] := by
  have effect := exec_effect sha256 event.pre commits
  have other := effect.not_approves absent
  rw [effect.approvals_frame other, approversOf_snoc, other, Option.toList_none, List.append_nil]
  exact inv.absent id absent

theorem Counting.step (inj : Function.Injective sha256) {log : Log}
    {event : Event State Invocation Ret} (inv : Counting sha256 log event.pre)
    (commits : (machine sha256).Commits event) :
    Counting sha256 (log ++ [event]) event.post := by
  have effect := exec_effect sha256 event.pre commits
  obtain ⟨positive, constant⟩ := exec_threshold commits inv.positive
  refine ⟨effect.derived inv.derived, inv.founding.step commits, positive, ?_, ?_⟩
  · intro id absent'
    apply inv.unapproved commits
    by_contra stored
    exact effect.stays_stored inj inv.derived stored absent'
  · intro id pending'
    rcases (effect.pending_iff inj inv.derived id).mp pending' with ⟨pending, -⟩ | opened
    · obtain ⟨same, distinct, short⟩ := inv.pending id pending
      have stored := Ledger.stored_of_statusOf pending
      rw [(constant (inv.founding.hasAdmin stored)).2, approversOf_snoc, ← same]
      cases approved : event.input.call.approves id with
      | none =>
          rw [effect.approvals_frame approved, Option.toList_none, List.append_nil]
          exact ⟨rfl, distinct, short⟩
      | some verifier =>
          obtain ⟨-, -, first, outcome⟩ := effect.approval approved
          cases outcome with
          | added short pending'' approvals =>
              rw [approvals]
              refine ⟨rfl, ?_, ?_⟩
              · exact List.nodup_append_comm.mp (List.nodup_cons.mpr ⟨first, distinct⟩)
              · rw [List.length_append]
                exact short
          | minted enough active =>
              rw [active] at pending'
              cases pending'
    · have absent := (effect.opens_fresh inj inv.derived).2 id opened
      obtain ⟨empty, none_⟩ := inv.unapproved commits absent
      rw [empty, none_]
      exact ⟨rfl, List.nodup_nil, positive⟩

theorem counting_of_run (inj : Function.Injective sha256) (inputs : List Invocation) :
    Counting sha256 ((machine sha256).log inputs) ((machine sha256).state inputs) := by
  apply (machine sha256).run_induct (Counting sha256)
  · refine ⟨derived_init, founding_nil, Nat.one_pos, ?_, ?_⟩
    · exact fun id _ => ⟨rfl, rfl⟩
    · exact fun id pending => by cases pending
  · exact fun log event inv commits => inv.step inj commits

/-- Once there is an admin, the threshold is the one that the run was initialised with. -/
theorem threshold_of_run (earlier later : List Invocation) {k : Nat}
    (initialised : InitialisedWith ((machine sha256).log (earlier ++ later)) k)
    (hasAdmin : ((machine sha256).state earlier).roles.admin ≠ none) :
    ((machine sha256).state earlier).roles.getRequiredApprovals = k := by
  have founding : Founding ((machine sha256).log (earlier ++ later))
      ((machine sha256).state (earlier ++ later)) :=
    (machine sha256).run_induct Founding founding_nil
      (fun log event founding commits => founding.step commits) (earlier ++ later)
  have constant := (machine sha256).relates (fun s => 0 < s.roles.getRequiredApprovals)
    (fun s s' => s.roles.admin ≠ none → s'.roles.admin ≠ none ∧
      s'.roles.getRequiredApprovals = s.roles.getRequiredApprovals) Nat.one_pos
    (fun s hasAdmin => ⟨hasAdmin, rfl⟩)
    (fun s t u first second hasAdmin =>
      ⟨(second (first hasAdmin).1).1,
        (second (first hasAdmin).1).2.trans (first hasAdmin).2⟩)
    (fun event positive commits => exec_threshold commits positive) earlier later
  rw [← founding.threshold k initialised]
  exact (constant hasAdmin).2.symm

/-- An approval makes its credit active if and only if it is the `k`-th. -/
theorem Counting.mints_iff {log : Log} {event : Event State Invocation Ret}
    (inv : Counting sha256 log event.pre) (commits : (machine sha256).Commits event)
    {verifier : Address} {id : BytesN32}
    (approves : event.input.call.approves id = some verifier) :
    event.pre.ledger.statusOf id ≠ some .active ∧
        event.post.ledger.statusOf id = some .active ↔
      (approversOf (log ++ [event]) id).length = event.pre.roles.getRequiredApprovals := by
  obtain ⟨pending, -, -, outcome⟩ := (exec_effect sha256 event.pre commits).approval approves
  obtain ⟨same, -, short⟩ := inv.pending id pending
  rw [approversOf_snoc, approves, ← same, List.length_append, Option.toList_some,
    List.length_singleton]
  cases outcome with
  | added below pending' approvals =>
      rw [pending']
      constructor
      · rintro ⟨-, active⟩
        cases active
      · intro reached
        omega
  | minted enough active =>
      rw [pending, active]
      constructor
      · intro _
        omega
      · exact fun _ => ⟨nofun, rfl⟩

/-- Multi-signature counting is exact in every run that initialises the registry with
threshold `k`: the approvals of a pending credit are the successful approvals of it, distinct
and fewer than `k`; an approval mints if and only if it is the `k`-th; and the children of a
split start without approvals. -/
theorem approvals_exact (inj : Function.Injective sha256) (inputs : List Invocation) (k : Nat)
    (initialised : InitialisedWith ((machine sha256).log inputs) k) :
    (∀ id, ((machine sha256).state inputs).ledger.statusOf id = some .pending →
      (((machine sha256).state inputs).ledger.getCreditApprovals id).Nodup ∧
      (((machine sha256).state inputs).ledger.getCreditApprovals id).length < k ∧
      ((machine sha256).state inputs).ledger.getCreditApprovals id =
        approversOf ((machine sha256).log inputs) id) ∧
    (∀ before event after, (machine sha256).log inputs = before ++ event :: after →
      ∀ verifier id nonce, event.input.call = .approveAndMint verifier id nonce →
        (event.pre.ledger.statusOf id ≠ some .active ∧
            event.post.ledger.statusOf id = some .active ↔
          (approversOf (before ++ [event]) id).length = k)) ∧
    ∀ event ∈ (machine sha256).log inputs, ∀ caller parent splitTonnes nonce child1Id child2Id,
      event.input.call = .splitCredit caller parent splitTonnes nonce →
        event.output = .pair child1Id child2Id →
          event.post.ledger.getCreditApprovals child1Id = [] ∧
            event.post.ledger.getCreditApprovals child2Id = [] := by
  have counting := counting_of_run inj inputs
  refine ⟨?_, ?_, ?_⟩
  · intro id pending
    obtain ⟨same, distinct, short⟩ := counting.pending id pending
    rw [counting.founding.threshold k initialised] at short
    exact ⟨distinct, short, same⟩
  · intro before event after split verifier id nonce named
    obtain ⟨earlier, later, rfl, logged, reached, commits⟩ := (machine sha256).log_split split
    have inv := counting_of_run inj earlier
    rw [logged, reached] at inv
    have approves := Call.approves_eq_some.mpr ⟨nonce, named⟩
    have pending := ((exec_effect sha256 event.pre commits).approval approves).1
    have hasAdmin := inv.founding.hasAdmin (Ledger.stored_of_statusOf pending)
    have threshold : event.pre.roles.getRequiredApprovals = k := by
      rw [← reached] at hasAdmin ⊢
      exact threshold_of_run earlier later initialised hasAdmin
    rw [← threshold]
    exact inv.mints_iff commits approves
  · intro event listed caller parent splitTonnes nonce child1Id child2Id named returned
    obtain ⟨before, after, split⟩ := List.append_of_mem listed
    obtain ⟨earlier, later, -, logged, reached, commits⟩ := (machine sha256).log_split split
    have inv := counting_of_run inj earlier
    rw [logged, reached] at inv
    obtain ⟨status, -, -, children⟩ :=
      (exec_effect sha256 event.pre commits).splits inj inv.derived named returned
    refine ⟨?_, ?_⟩
    · exact (inv.unapproved commits (children child1Id (.inl rfl)).1).1
    · exact (inv.unapproved commits (children child2Id (.inr rfl)).1).1

namespace Sample

def otherVerifier : Address := .account 4

/-- One credit of a registry that asks for two approvals, approved once. -/
def approveOnce : List Invocation :=
  setup 2 ++
    [submit 0, call admin (.registerVerifier admin otherVerifier 3),
     call otherVerifier (.approveAndMint otherVerifier (credit 0) 0)]

end Sample

set_option maxRecDepth 100000 in
theorem approveOnce_exact :
    ((machine BytesN32.mk).state Sample.approveOnce).ledger.getCreditApprovals (Sample.credit 0) =
        approversOf ((machine BytesN32.mk).log Sample.approveOnce) (Sample.credit 0) ∧
      (((machine BytesN32.mk).state Sample.approveOnce).ledger.getCreditApprovals
        (Sample.credit 0)).length < 2 := by
  have initialised : InitialisedWith ((machine BytesN32.mk).log Sample.approveOnce) 2 :=
    ⟨_, List.getElem_mem (n := 0) (by decide), Sample.admin, Sample.retirementContract, rfl⟩
  have counted := approvals_exact BytesN32.mk_injective Sample.approveOnce 2 initialised
  obtain ⟨-, short, same⟩ := counted.1 (Sample.credit 0) rfl
  exact ⟨same, short⟩

/-! ## Approvals of removed verifiers -/

/-- The verifier that a call removes. -/
def Call.revokes : Call → Option Address
  | .removeVerifier _ verifier _ => some verifier
  | _ => none

/-- No verifier is removed while an approval of it stands on a pending credit. -/
def RevokesIdle (_log : Log) (event : Event State Invocation Ret) : Prop :=
  ∀ verifier, event.input.call.revokes = some verifier →
    ∀ id, event.pre.ledger.statusOf id = some .pending →
      verifier ∉ event.pre.ledger.getCreditApprovals id

/-- The approvals that stand on pending credits are by registered verifiers. -/
structure Standing (sha256 : Bytes → BytesN32) (log : Log) (s : State) : Prop where
  counting : Counting sha256 log s
  registered : ∀ id, s.ledger.statusOf id = some .pending →
    ∀ v ∈ s.ledger.getCreditApprovals id, v ∈ s.roles.verifierSet

/-- A verifier stays registered through every call but its own removal. -/
theorem stays_registered {event : Event State Invocation Ret}
    (commits : (machine sha256).Commits event) {v : Address}
    (unrevoked : event.input.call.revokes ≠ some v)
    (registered : v ∈ event.pre.roles.verifierSet) : v ∈ event.post.roles.verifierSet := by
  have dispatched := ((exec_eq_ok sha256 event.pre).mp commits).2
  obtain ⟨watches, -, -⟩ := dispatch_watches dispatched
  cases named : event.input.call with
  | registerVerifier admin verifier nonce =>
      rw [watches, named]
      exact .inl registered
  | removeVerifier admin verifier nonce =>
      rw [watches, named]
      refine ⟨registered, ?_⟩
      rintro rfl
      exact unrevoked (by rw [named]; rfl)
  | _ =>
      rw [dispatch_verifierSet (by rw [named]; rfl) dispatched]
      exact registered

theorem revokes_of_approves {call : Call} {id : BytesN32} {verifier : Address}
    (approves : call.approves id = some verifier) : call.revokes = none := by
  obtain ⟨nonce, rfl⟩ := Call.approves_eq_some.mp approves
  rfl

/-- An approval is by a registered verifier, and all approvals of its credit stay so. -/
theorem Standing.approvers_registered {log : Log} {event : Event State Invocation Ret}
    (inv : Standing sha256 log event.pre) (commits : (machine sha256).Commits event)
    {verifier : Address} {id : BytesN32}
    (approves : event.input.call.approves id = some verifier) :
    ∀ v ∈ event.pre.ledger.getCreditApprovals id ++ [verifier],
      v ∈ event.post.roles.verifierSet := by
  obtain ⟨pending, registered, -⟩ := (exec_effect sha256 event.pre commits).approval approves
  have unrevoked : ∀ v, event.input.call.revokes ≠ some v := by
    intro v
    rw [revokes_of_approves approves]
    exact nofun
  intro v listed
  apply stays_registered commits (unrevoked v)
  rcases List.mem_append.mp listed with before | last
  · exact inv.registered id pending v before
  · rw [List.mem_singleton.mp last]
    exact registered

theorem Standing.step (inj : Function.Injective sha256) {log : Log}
    {event : Event State Invocation Ret} (inv : Standing sha256 log event.pre)
    (idle : RevokesIdle log event) (commits : (machine sha256).Commits event) :
    Standing sha256 (log ++ [event]) event.post := by
  have effect := exec_effect sha256 event.pre commits
  refine ⟨inv.counting.step inj commits, ?_⟩
  intro id pending' v listed
  rcases (effect.pending_iff inj inv.counting.derived id).mp pending' with ⟨pending, -⟩ | opened
  · cases approved : event.input.call.approves id with
    | none =>
        rw [effect.approvals_frame approved] at listed
        apply stays_registered commits
        · exact fun revoked => idle v revoked id pending listed
        · exact inv.registered id pending v listed
    | some verifier =>
        obtain ⟨-, -, -, outcome⟩ := effect.approval approved
        cases outcome with
        | added short pending'' approvals =>
            rw [approvals] at listed
            exact inv.approvers_registered commits approved v listed
        | minted enough active =>
            rw [active] at pending'
            cases pending'
  · have absent := (effect.opens_fresh inj inv.counting.derived).2 id opened
    rw [(inv.counting.unapproved commits absent).1] at listed
    cases listed

/-- Approvals of removed verifiers do not count, in every run that removes no verifier while
an approval of it stands on a pending credit: at every approval, and so at the one that makes
the credit active, everyone who approved the credit is a registered verifier. -/
theorem minting_approvers_registered (inj : Function.Injective sha256) (inputs : List Invocation)
    (idle : Machine.Admits RevokesIdle ((machine sha256).log inputs))
    {event : Event State Invocation Ret} (logged : event ∈ (machine sha256).log inputs)
    {verifier : Address} {id : BytesN32} {nonce : Nat}
    (named : event.input.call = .approveAndMint verifier id nonce) :
    ∀ v ∈ event.pre.ledger.getCreditApprovals id ++ [verifier],
      v ∈ event.post.roles.verifierSet := by
  obtain ⟨before, after, -, inv, -, commits⟩ := (machine sha256).induct_pre_of RevokesIdle
    (Standing sha256) ⟨counting_of_run inj [], fun id pending => by cases pending⟩
    (fun log event inv idle commits => inv.step inj idle commits) idle logged
  exact inv.approvers_registered commits (Call.approves_eq_some.mpr ⟨nonce, named⟩)

set_option maxRecDepth 100000 in
theorem approve_minters_registered :
    ∃ event ∈ (machine BytesN32.mk).log Sample.approve,
      event.post.ledger.statusOf (Sample.credit 0) = some .active ∧
      ∀ v ∈ event.pre.ledger.getCreditApprovals (Sample.credit 0) ++ [Sample.verifier],
        v ∈ event.post.roles.verifierSet := by
  have unrevoked : ∀ event ∈ (machine BytesN32.mk).log Sample.approve,
      event.input.call.revokes = none := by
    decide
  have idle : Machine.Admits RevokesIdle ((machine BytesN32.mk).log Sample.approve) :=
    Machine.admits_of_none unrevoked
  obtain ⟨event, logged, named, minted⟩ : ∃ event ∈ (machine BytesN32.mk).log Sample.approve,
      event.input.call = .approveAndMint Sample.verifier (Sample.credit 0) 0 ∧
        event.post.ledger.statusOf (Sample.credit 0) = some .active :=
    ⟨_, List.getElem_mem (n := 6) (by decide), rfl, rfl⟩
  exact ⟨event, logged, minted,
    minting_approvers_registered BytesN32.mk_injective Sample.approve idle logged named⟩

namespace Sample

/-- The verifier that approved is removed, and another one approves. -/
def approveRevoked : List Invocation :=
  approveOnce ++
    [call admin (.removeVerifier admin otherVerifier 4),
     call verifier (.approveAndMint verifier (credit 0) 0)]

end Sample

set_option maxRecDepth 100000 in
/-- The counter of a verifier registered after the submission is zero, so it is removed with
its approval standing, and the approval counts when the credit is minted. -/
theorem revoked_approval_counts :
    Function.Injective BytesN32.mk ∧
      ∃ event ∈ (machine BytesN32.mk).log Sample.approveRevoked,
        event.input.call = .approveAndMint Sample.verifier (Sample.credit 0) 0 ∧
        event.pre.ledger.statusOf (Sample.credit 0) = some .pending ∧
        event.post.ledger.statusOf (Sample.credit 0) = some .active ∧
        Sample.otherVerifier ∈
          event.pre.ledger.getCreditApprovals (Sample.credit 0) ++ [Sample.verifier] ∧
        Sample.otherVerifier ∉ event.post.roles.verifierSet :=
  ⟨BytesN32.mk_injective, _, List.getElem_mem (n := 9) (by decide), rfl, rfl, rfl, by decide,
    by decide⟩

end CarbonChain.Registry
