import CarbonChain.Registry.Activation
import CarbonChain.Registry.Splitting
import Mathlib.Data.Set.Finite.Basic
import Mathlib.Logic.Relation

/-!
# CreditRegistry: the lifecycle of a credit

The statuses form a graph whose edges belong to the roles of the contract. Every change
that a run makes to a status is an edge, signed by its role. In the other direction, the
contract that still runs this code can be taken along each edge, whatever calls came
before: where it is paused or has too few verifiers, the admin can change that without
touching the credit.
-/

namespace CarbonChain.Registry

variable {sha256 : Bytes → BytesN32}

/-! ## The graph -/

/-- Whose signature a change of status needs. -/
inductive Authority where
  | verifier
  | admin
  | retirementContract
  | owner
  | anyone

/-- The changes of status that each authority can make to a credit of some tonnes. -/
inductive Transition (tonnes : Int) : CreditStatus → Authority → CreditStatus → Prop where
  | approve : Transition tonnes .pending .verifier .active
  | flag (status : CreditStatus) (open_ : status ≠ .retired) (unflagged : status ≠ .flagged) :
      Transition tonnes status .verifier .flagged
  | retire : Transition tonnes .active .retirementContract .retired
  -- a merge takes active credits, a split takes any that has more than one tonne
  | consume (status : CreditStatus) (open_ : status ≠ .retired)
      (taken : status = .active ∨ 1 < tonnes) : Transition tonnes status .owner .retired
  | expire (status : CreditStatus) (open_ : status ≠ .retired) (unexpired : status ≠ .expired) :
      Transition tonnes status .admin .expired
  | dispute (status : CreditStatus) (open_ : status ≠ .retired)
      (undisputed : status ≠ .disputed) : Transition tonnes status .anyone .disputed
  | restore : Transition tonnes .disputed .admin .active
  | condemn : Transition tonnes .disputed .admin .flagged

/-- The authority signs a call that is made in `s` and changes `credit`. -/
def Authority.Signs (s : State) (env : Env) (credit : CreditMetadata) : Authority → Prop
  | .verifier => ∃ v ∈ s.roles.verifierSet, env.auth v = true
  | .admin => ∃ a, s.roles.admin = some a ∧ env.auth a = true
  | .retirementContract => ∃ a, s.roles.retirementContract = some a ∧ env.auth a = true
  | .owner => env.auth credit.owner = true
  | .anyone => ∃ a, env.auth a = true

/-- An edge of the graph, whoever may take it. -/
def Edge (tonnes : Int) (old new : CreditStatus) : Prop :=
  ∃ authority, Transition tonnes old authority new

theorem Transition.leaves_open {tonnes : Int} {old new : CreditStatus} {authority : Authority}
    (transition : Transition tonnes old authority new) : old ≠ .retired ∧ new ≠ .pending := by
  cases transition with
  | approve => exact ⟨nofun, nofun⟩
  | flag status open_ unflagged => exact ⟨open_, nofun⟩
  | retire => exact ⟨nofun, nofun⟩
  | consume status open_ taken => exact ⟨open_, nofun⟩
  | expire status open_ unexpired => exact ⟨open_, nofun⟩
  | dispute status open_ undisputed => exact ⟨open_, nofun⟩
  | restore => exact ⟨nofun, nofun⟩
  | condemn => exact ⟨nofun, nofun⟩

/-- An edge that takes no verifier and no owner. The calls for it advance no counter. -/
def Direct (tonnes : Int) (old new : CreditStatus) : Prop :=
  ∃ authority, authority ≠ .verifier ∧ authority ≠ .owner ∧ Transition tonnes old authority new

theorem Direct.edge {tonnes : Int} {old new : CreditStatus} (direct : Direct tonnes old new) :
    Edge tonnes old new := by
  obtain ⟨authority, -, -, transition⟩ := direct
  exact ⟨authority, transition⟩

/-- Every status but `retired` can be left for every status but `pending`, through a dispute. -/
theorem reaches_directly {tonnes : Int} {old new : CreditStatus} (open_ : old ≠ .retired)
    (entered : new ≠ .pending) : Relation.ReflTransGen (Direct tonnes) old new := by
  have disputed : Relation.ReflTransGen (Direct tonnes) old .disputed := by
    by_cases already : old = .disputed
    · rw [already]
    · exact .single ⟨.anyone, nofun, nofun, .dispute old open_ already⟩
  have active : Relation.ReflTransGen (Direct tonnes) old .active :=
    disputed.tail ⟨.admin, nofun, nofun, .restore⟩
  cases new with
  | pending => exact absurd rfl entered
  | active => exact active
  | retired => exact active.tail ⟨.retirementContract, nofun, nofun, .retire⟩
  | flagged => exact disputed.tail ⟨.admin, nofun, nofun, .condemn⟩
  | expired => exact disputed.tail ⟨.admin, nofun, nofun, .expire _ nofun nofun⟩
  | disputed => exact disputed

theorem reaches_iff {tonnes : Int} {old new : CreditStatus} :
    Relation.ReflTransGen (Edge tonnes) old new ↔
      new = old ∨ old ≠ .retired ∧ new ≠ .pending := by
  constructor
  · intro path
    induction path with
    | refl => exact .inl rfl
    | tail _ edge ih =>
        obtain ⟨authority, transition⟩ := edge
        obtain ⟨left_, entered⟩ := transition.leaves_open
        rcases ih with rfl | ⟨leaves, -⟩
        · exact .inr ⟨left_, entered⟩
        · exact .inr ⟨leaves, entered⟩
  · rintro (rfl | ⟨open_, entered⟩)
    · exact .refl
    · exact Relation.ReflTransGen.mono (fun _ _ => Direct.edge) _ _
        (reaches_directly open_ entered)

/-! ## One call -/

theorem expireCredit_admin {env : Env} {s s' : State} {admin : Address} {id : BytesN32}
    (h : expireCredit env s admin id = .ok s') : s.roles.admin = some admin := by
  simp only [expireCredit, Roles.requireAdmin, bind_eq_ok, requireAdmin_eq_ok, exists_const] at h
  exact h.1.1

theorem resolveDispute_admin {env : Env} {s s' : State} {admin : Address} {id : BytesN32}
    {outcome : Nat} (h : resolveDispute env s admin id outcome = .ok s') :
    s.roles.admin = some admin := by
  simp only [resolveDispute, Roles.requireAdmin, bind_eq_ok, requireAdmin_eq_ok,
    exists_const] at h
  exact h.1.1

theorem flagCredit_registered {env : Env} {s s' : State} {verifier : Address} {id : BytesN32}
    {reason : String} {nonce : Nat} (h : flagCredit env s verifier id reason nonce = .ok s') :
    verifier ∈ s.roles.verifierSet := by
  simp only [flagCredit, bind_eq_ok, rejectIf_eq_ok, Env.requireAuth_eq_ok, exists_const] at h
  simpa [Roles.isVerifier] using h.2.2.1

/-- A call that sets the status of one credit takes an edge. -/
theorem StatusChange.transition {env : Env} {s s' : State} {call : Call} {ret : Ret}
    {id : BytesN32} {credit : CreditMetadata} {new : CreditStatus}
    (change : StatusChange call id credit.status new)
    (h : dispatch sha256 env s call = .ok (ret, s')) :
    ∃ authority, Transition credit.tonnes credit.status authority new ∧
      authority.Signs s env credit := by
  obtain ⟨signer, signs, authorised⟩ := dispatch_signed h
  generalize credit.status = old at change
  cases change with
  | flag verifier _ reason nonce _ open_ unflagged =>
      obtain rfl := Option.some.inj signs
      have registered := flagCredit_registered (Result.unit_eq_ok.mp h).1
      exact ⟨.verifier, .flag _ open_ unflagged, verifier, registered, authorised⟩
  | retire => exact ⟨.retirementContract, .retire, signer, signs, authorised⟩
  | expire admin _ _ open_ unexpired =>
      obtain rfl := Option.some.inj signs
      have stored := expireCredit_admin (Result.unit_eq_ok.mp h).1
      exact ⟨.admin, .expire _ open_ unexpired, admin, stored, authorised⟩
  | dispute disputer _ evidence _ open_ undisputed =>
      exact ⟨.anyone, .dispute _ open_ undisputed, signer, authorised⟩
  | restore admin =>
      obtain rfl := Option.some.inj signs
      have stored := resolveDispute_admin (Result.unit_eq_ok.mp h).1
      exact ⟨.admin, .restore, admin, stored, authorised⟩
  | condemn admin =>
      obtain rfl := Option.some.inj signs
      have stored := resolveDispute_admin (Result.unit_eq_ok.mp h).1
      exact ⟨.admin, .condemn, admin, stored, authorised⟩

/-- A call leaves a stored credit stored, with its tonnes, and with its status or one to which an
edge leads that is signed for. -/
theorem exec_follows (inj : Function.Injective sha256) {s s' : State}
    (derived : s.ledger.Derived sha256) {env : Env} {call : Call} {ret : Ret} {id : BytesN32}
    {credit : CreditMetadata} (stored : s.ledger.getCredit id = some credit)
    (h : exec sha256 s ⟨env, call⟩ = .ok (ret, s')) :
    ∃ credit', s'.ledger.getCredit id = some credit' ∧ credit'.tonnes = credit.tonnes ∧
      (credit'.status = credit.status ∨
        ∃ authority, Transition credit.tonnes credit.status authority credit'.status ∧
          authority.Signs s env credit) := by
  have dispatched := ((exec_eq_ok sha256 s).mp h).2
  obtain ⟨credit', stored', evolves⟩ := (exec_effect sha256 s h).evolves inj derived stored
  refine ⟨credit', stored', evolves.constant.2, ?_⟩
  cases evolves with
  | same => exact .inl rfl
  | minted verifier nonce named pending registered first enough =>
      obtain ⟨signer, signs, authorised⟩ := dispatch_signed dispatched
      rw [named] at signs
      obtain rfl := Option.some.inj signs
      rw [pending]
      exact .inr ⟨.verifier, .approve, verifier, registered, authorised⟩
  | restatused status change => exact .inr (change.transition dispatched)
  | transferred recipient nonce named authorised => exact .inl rfl
  | split splitTonnes nonce named authorised =>
      by_cases retired : credit.status = .retired
      · exact .inl retired.symm
      · have h : exec sha256 s ⟨env, .splitCredit credit.owner id splitTonnes nonce⟩ =
            .ok (ret, s') := named ▸ h
        obtain ⟨-, -, original, there, -, positive, proper, -⟩ := exec_splitCredit h
        obtain rfl := Option.some.inj (stored.symm.trans there)
        exact .inr ⟨.owner, .consume _ retired (.inr (by omega)), authorised⟩
  | merged ids named authorised listed active =>
      exact .inr ⟨.owner, .consume _ (by simp [active]) (.inl active), authorised⟩

/-- In every run, a stored credit stays stored with its tonnes, and each call leaves its status
alone or takes it along an edge of the graph with the signature of the authority of that edge. -/
theorem lifecycle_followed (inj : Function.Injective sha256) (inputs : List Invocation) :
    ∀ event ∈ (machine sha256).log inputs, ∀ id credit,
      event.pre.ledger.getCredit id = some credit →
      ∃ credit', event.post.ledger.getCredit id = some credit' ∧
        credit'.tonnes = credit.tonnes ∧
        (credit'.status = credit.status ∨
          ∃ authority, Transition credit.tonnes credit.status authority credit'.status ∧
            authority.Signs event.pre event.input.env credit) := by
  intro event logged id credit stored
  obtain ⟨before, after, split⟩ := List.append_of_mem logged
  obtain ⟨earlier, later, -, -, reached, commits⟩ := (machine sha256).log_split split
  have derived := (counting_of_run inj earlier).derived
  rw [reached] at derived
  exact exec_follows inj derived stored commits

/-- In the sample run each change of a status is signed. -/
theorem approve_followed :
    Function.Injective BytesN32.mk ∧
      ∀ event ∈ (machine BytesN32.mk).log Sample.approve, ∀ id credit,
        event.pre.ledger.getCredit id = some credit →
        ∃ credit', event.post.ledger.getCredit id = some credit' ∧
          credit'.tonnes = credit.tonnes ∧
          (credit'.status = credit.status ∨
            ∃ authority, Transition credit.tonnes credit.status authority credit'.status ∧
              authority.Signs event.pre event.input.env credit) :=
  ⟨BytesN32.mk_injective, lifecycle_followed BytesN32.mk_injective Sample.approve⟩

/-! ## Paths of states -/

/-- A call that succeeds in `s` moves to `s'`. -/
def Moves (sha256 : Bytes → BytesN32) (s s' : State) : Prop :=
  ∃ invocation ret, exec sha256 s invocation = .ok (ret, s')

/-- Calls lead from `s` to `s'`, and the credit has the status after each of them. -/
def Waits (sha256 : Bytes → BytesN32) (id : BytesN32) (status : CreditStatus) :
    State → State → Prop :=
  Relation.ReflTransGen fun s s' => Moves sha256 s s' ∧ s'.ledger.statusOf id = some status

/-- From `s` calls can lead to where the credit, which kept its status until then, gets the new
one by one more call. -/
def Passes (sha256 : Bytes → BytesN32) (s : State) (id : BytesN32) (old new : CreditStatus) :
    Prop :=
  ∃ t u, Waits sha256 id old s t ∧ Moves sha256 t u ∧ u.ledger.statusOf id = some new

variable {s t u : State} {id : BytesN32} {old new : CreditStatus} {credit : CreditMetadata}

theorem Waits.passes (waits : Waits sha256 id old s t) (passes : Passes sha256 t id old new) :
    Passes sha256 s id old new := by
  obtain ⟨u, v, later, moves, entered⟩ := passes
  exact ⟨u, v, waits.trans later, moves, entered⟩

/-- A path keeps a stored credit stored, with its tonnes. -/
theorem Moves.stored (inj : Function.Injective sha256) (moves : Moves sha256 s t)
    (derived : s.ledger.Derived sha256) (stored : s.ledger.getCredit id = some credit) :
    t.ledger.Derived sha256 ∧ ∃ credit', t.ledger.getCredit id = some credit' ∧
      credit'.tonnes = credit.tonnes ∧
      (credit'.status = credit.status ∨ Edge credit.tonnes credit.status credit'.status) := by
  obtain ⟨⟨env, call⟩, ret, success⟩ := moves
  obtain ⟨credit', stored', tonnes, followed⟩ := exec_follows inj derived stored success
  refine ⟨(exec_effect sha256 s success).derived derived, credit', stored', tonnes, ?_⟩
  rcases followed with same | ⟨authority, transition, -⟩
  · exact .inl same
  · exact .inr ⟨authority, transition⟩

/-- Along a path the status of a credit follows the graph. -/
theorem moves_follow (inj : Function.Injective sha256)
    (path : Relation.ReflTransGen (Moves sha256) s t) (derived : s.ledger.Derived sha256)
    (stored : s.ledger.getCredit id = some credit) :
    t.ledger.Derived sha256 ∧ ∃ credit', t.ledger.getCredit id = some credit' ∧
      credit'.tonnes = credit.tonnes ∧
      Relation.ReflTransGen (Edge credit.tonnes) credit.status credit'.status := by
  induction path with
  | refl => exact ⟨derived, credit, stored, rfl, .refl⟩
  | tail _ moves ih =>
      obtain ⟨derived, between, stored, tonnes, reached⟩ := ih
      obtain ⟨derived, credit', stored', tonnes', followed⟩ := moves.stored inj derived stored
      refine ⟨derived, credit', stored', tonnes'.trans tonnes, ?_⟩
      rcases followed with same | edge
      · rw [same]
        exact reached
      · rw [tonnes] at edge
        exact reached.tail edge

theorem Waits.path (waits : Waits sha256 id old s t) :
    Relation.ReflTransGen (Moves sha256) s t :=
  Relation.ReflTransGen.mono (fun _ _ step => step.1) _ _ waits

theorem Waits.status (waits : Waits sha256 id old s t)
    (start : s.ledger.statusOf id = some old) : t.ledger.statusOf id = some old := by
  cases waits with
  | refl => exact start
  | tail _ step => exact step.2

/-- The status passes along edges only. -/
theorem Passes.edge (inj : Function.Injective sha256)
    (passes : Passes sha256 s id credit.status new) (derived : s.ledger.Derived sha256)
    (stored : s.ledger.getCredit id = some credit) (changes : new ≠ credit.status) :
    Edge credit.tonnes credit.status new := by
  obtain ⟨t, u, waits, moves, entered⟩ := passes
  obtain ⟨derived, between, stored', tonnes, -⟩ := moves_follow inj waits.path derived stored
  have still := waits.status (Ledger.statusOf_of_stored stored)
  rw [Ledger.statusOf_of_stored stored', Option.some.injEq] at still
  obtain ⟨-, last, stored'', -, followed⟩ := moves.stored inj derived stored'
  rw [Ledger.statusOf_of_stored stored'', Option.some.injEq] at entered
  rw [still, tonnes, entered] at followed
  exact followed.resolve_left changes

/-! ## An open registry -/

/-- Everybody signs. -/
def everyone : Env := ⟨0, fun _ => true⟩

/-- The contract runs this code and is not paused, and its admin and its retirement contract are
known. -/
structure Open (s : State) (admin retirementContract : Address) : Prop where
  current : s.roles.wasm = none
  unpaused : s.roles.paused = false
  admin : s.roles.admin = some admin
  trusted : s.roles.retirementContract = some retirementContract

/-- Where there is an admin, there is a retirement contract. -/
theorem trusted_of_run (inputs : List Invocation) :
    ((machine sha256).state inputs).roles.admin ≠ none →
      ((machine sha256).state inputs).roles.retirementContract ≠ none := by
  have founded := (machine sha256).invariant
    (fun s => (s.roles.admin = none → s.roles.pendingAdmin = none) ∧
      (s.roles.admin ≠ none → s.roles.retirementContract ≠ none))
    ⟨fun _ => rfl, fun hasAdmin => absurd rfl hasAdmin⟩ ?_ inputs
  · exact founded.2
  · rintro event ⟨noPending, trusted⟩ commits
    cases exec_roles_cases sha256 event.pre commits with
    | initialised admin retirementContract k named fresh founded trusted' positive threshold
        ledger =>
        rw [founded, trusted']
        exact ⟨fun noAdmin => absurd noAdmin (Option.some_ne_none admin),
          fun _ => Option.some_ne_none retirementContract⟩
    | kept later kept =>
        by_cases noAdmin : event.pre.roles.admin = none
        · obtain ⟨unfounded, none⟩ := kept.unfounded ⟨noAdmin, noPending noAdmin⟩
          exact ⟨fun _ => none, fun hasAdmin => absurd unfounded hasAdmin⟩
        · rw [kept.retirementContract]
          exact ⟨fun none => absurd none (kept.founded noAdmin), fun _ => trusted noAdmin⟩

theorem Waits.call {invocation : Invocation} {ret : Ret}
    (h : exec sha256 s invocation = .ok (ret, t)) (status : t.ledger.statusOf id = some old) :
    Waits sha256 id old s t :=
  .single ⟨⟨invocation, ret, h⟩, status⟩

theorem passes_call {invocation : Invocation} {ret : Ret}
    (h : exec sha256 s invocation = .ok (ret, t)) (entered : t.ledger.statusOf id = some new) :
    Passes sha256 s id old new :=
  ⟨s, t, .refl, ⟨invocation, ret, h⟩, entered⟩

/-- Where the code is this one, the admin can open the registry. -/
theorem opens (sha256 : Bytes → BytesN32) {admin retirementContract : Address} {n : Nat}
    (counted : s.Counted n) (current : s.roles.wasm = none) (hasAdmin : s.roles.admin = some admin)
    (trusted : s.roles.retirementContract = some retirementContract)
    (start : s.ledger.statusOf id = some old) :
    ∃ t, Waits sha256 id old s t ∧ t.Counted (n + 1) ∧ Open t admin retirementContract ∧
      t.ledger = s.ledger ∧ t.roles.getRequiredApprovals = s.roles.getRequiredApprovals := by
  have success : exec sha256 s ⟨everyone, .unpause admin⟩ =
      .ok (.unit, { s with roles := { s.roles with paused := false } }) := by
    refine (exec_eq_ok sha256 s).mpr ⟨current, Result.unit_eq_ok.mpr ⟨?_, rfl⟩⟩
    simp [unpause, setPaused, Roles.requireAdmin, hasAdmin, everyone]
  have commits : (machine sha256).Commits ⟨s, ⟨everyone, .unpause admin⟩, .unit, _⟩ := success
  have next : State.Counted _ (n + 1) := counted.step commits
  exact ⟨_, .call success start, next, ⟨current, rfl, hasAdmin, trusted⟩, rfl, rfl⟩

/-- The admin can register any new verifiers. -/
theorem enrols (sha256 : Bytes → BytesN32) {admin retirementContract : Address} {n : Nat}
    {fresh : List Address} (counted : s.Counted n) (opened : Open s admin retirementContract)
    (distinct : fresh.Nodup) (new : ∀ v ∈ fresh, v ∉ s.roles.verifierSet)
    (room : n + fresh.length < 2 ^ 64) (start : s.ledger.statusOf id = some old) :
    ∃ t, Waits sha256 id old s t ∧ t.Counted (n + fresh.length) ∧ t.ledger = s.ledger ∧
      t.roles = { s.roles with verifierSet := s.roles.verifierSet ++ fresh } := by
  induction fresh generalizing s n with
  | nil =>
      refine ⟨s, .refl, counted, rfl, ?_⟩
      rw [List.append_nil]
  | cons v rest ih =>
      obtain ⟨absent, distinct⟩ := List.nodup_cons.mp distinct
      rw [List.length_cons] at room
      let s' : State := { s with
        nonce := s.nonce.insert admin (s.getNonce admin + 1)
        roles := { s.roles with verifierSet := s.roles.verifierSet ++ [v] } }
      have success : exec sha256 s ⟨everyone, .registerVerifier admin v (s.getNonce admin)⟩ =
          .ok (.unit, s') := by
        have before : nonceOf s.nonce admin ≤ n := counted.nonce admin
        have unknown := new v List.mem_cons_self
        refine (exec_eq_ok sha256 s).mpr ⟨opened.current, Result.unit_eq_ok.mpr ⟨?_, rfl⟩⟩
        simp only [registerVerifier, State.consumeNonce, Roles.requireAdmin, bind_eq_ok,
          requireAdmin_eq_ok, consumeNonce_eq_ok, rejectIf_eq_ok, exists_const, pure_eq_ok]
        exact ⟨⟨opened.admin, rfl⟩, _, ⟨rfl, by omega, rfl⟩, by simpa [Roles.isVerifier], rfl⟩
      have commits : (machine sha256).Commits
          ⟨s, ⟨everyone, .registerVerifier admin v (s.getNonce admin)⟩, .unit, s'⟩ := success
      have next : s'.Counted (n + 1) := counted.step commits
      have later : ∀ w ∈ rest, w ∉ s'.roles.verifierSet := by
        intro w listed known
        rcases List.mem_append.mp known with before | same
        · exact new w (List.mem_cons_of_mem v listed) before
        · rw [List.mem_singleton] at same
          exact absent (same ▸ listed)
      have opened' : Open s' admin retirementContract :=
        ⟨opened.current, opened.unpaused, opened.admin, opened.trusted⟩
      obtain ⟨t, waits, counted', ledger, roles⟩ := ih next opened' distinct later (by omega) start
      refine ⟨t, (Waits.call success start).trans waits, ?_, ledger, ?_⟩
      · rw [List.length_cons, Nat.add_comm rest.length, ← Nat.add_assoc]
        exact counted'
      · rw [roles]
        simp [s']

/-- There are as many addresses as one likes that are not among the known ones. -/
theorem exists_fresh (known : List Address) (n : Nat) :
    ∃ fresh : List Address, fresh.Nodup ∧ fresh.length = n ∧ ∀ v ∈ fresh, v ∉ known := by
  have : Infinite Address := Infinite.of_injective Address.account fun _ _ => Address.account.inj
  obtain ⟨fresh, apart, card⟩ :=
    (known.toFinset.finite_toSet.infinite_compl).exists_subset_card_eq n
  refine ⟨fresh.toList, fresh.nodup_toList, by rw [Finset.length_toList, card], ?_⟩
  intro v listed
  simpa using apart (Finset.mem_coe.mpr (Finset.mem_toList.mp listed))

/-! ## Taking the edges -/

/-- The approvals that are missing, one after the other. -/
theorem Approvable.passes {nonce : Address → Nat} {v : Address} {rest : List Address}
    (approvable : Approvable s id credit nonce (v :: rest)) :
    Passes sha256 s id .pending .active := by
  have signed : ∀ v, everyone.auth v = true := fun _ => rfl
  induction rest generalizing s v with
  | nil =>
      obtain ⟨t, success⟩ := approvable.succeeds sha256 (signed v)
      exact passes_call success (Ledger.statusOf_of_stored (approvable.last success))
  | cons w rest ih =>
      obtain ⟨t, success⟩ := approvable.succeeds sha256 (signed v)
      have later := approvable.step success (List.cons_ne_nil w rest)
      have still : t.ledger.statusOf id = some .pending :=
        Ledger.statusOf_eq_some.mpr ⟨credit, later.stored, later.pending⟩
      exact (Waits.call success still).passes (ih later)

theorem Open.approves {admin retirementContract : Address} {n : Nat} (counted : s.Counted n)
    (opened : Open s admin retirementContract) (stored : s.ledger.getCredit id = some credit)
    (pending : credit.status = .pending)
    (short : (s.ledger.getCreditApprovals id).length < s.roles.getRequiredApprovals)
    (room : n + s.roles.getRequiredApprovals + 1 < 2 ^ 63) :
    Passes sha256 s id .pending .active := by
  obtain ⟨fresh, distinct, many, unknown⟩ :=
    exists_fresh (s.roles.verifierSet ++ s.ledger.getCreditApprovals id)
      (s.roles.getRequiredApprovals - (s.ledger.getCreditApprovals id).length)
  have unregistered : ∀ v ∈ fresh, v ∉ s.roles.verifierSet := fun v listed before =>
    unknown v listed (List.mem_append_left _ before)
  have start : s.ledger.statusOf id = some .pending :=
    Ledger.statusOf_eq_some.mpr ⟨credit, stored, pending⟩
  obtain ⟨t, waits, counted', ledger, roles⟩ :=
    enrols sha256 counted opened distinct unregistered (by omega) start
  have missing : Missing t id fresh := by
    refine ⟨distinct, ?_, ?_, ?_⟩
    · intro v listed
      rw [roles]
      exact List.mem_append_right _ listed
    · intro v listed before
      rw [ledger] at before
      exact unknown v listed (List.mem_append_right _ before)
    · have required : t.roles.getRequiredApprovals = s.roles.getRequiredApprovals := by
        rw [roles]
        rfl
      rw [ledger, required]
      omega
  have approvable : Approvable t id credit t.getNonce fresh := by
    refine ⟨missing, ?_, ?_, ?_, pending, fun _ _ => rfl, ?_⟩
    · rw [roles]
      exact opened.current
    · rw [roles]
      exact opened.unpaused
    · rw [ledger]
      exact stored
    · intro v _
      have nonces : t.getNonce v ≤ _ := counted'.nonce v
      have approvals := counted'.approvals v
      constructor <;> omega
  cases fresh with
  | nil =>
      rw [List.length_nil] at many
      omega
  | cons v rest => exact waits.passes approvable.passes

theorem Open.flags {admin retirementContract : Address} {n : Nat} (counted : s.Counted n)
    (opened : Open s admin retirementContract) (stored : s.ledger.getCredit id = some credit)
    (open_ : credit.status ≠ .retired) (unflagged : credit.status ≠ .flagged)
    (room : n + 1 < 2 ^ 63) : Passes sha256 s id credit.status .flagged := by
  obtain ⟨fresh, distinct, one, unknown⟩ := exists_fresh s.roles.verifierSet 1
  obtain ⟨v, rfl⟩ := List.length_eq_one_iff.mp one
  obtain ⟨t, waits, counted', ledger, roles⟩ := enrols sha256 counted opened distinct
    unknown (by omega) (Ledger.statusOf_of_stored stored)
  have registered : t.roles.isVerifier v = true := by simp [Roles.isVerifier, roles]
  have nonces : nonceOf t.nonce v ≤ _ := counted'.nonce v
  have disputes := counted'.disputes v
  rw [← ledger] at stored
  have success : ∃ u, flagCredit everyone t v id "" (t.getNonce v) = .ok u ∧
      u.ledger.statusOf id = some .flagged := by
    simp only [flagCredit, VerifierRecords.incrementDisputeCount, State.consumeNonce, bind_eq_ok,
      rejectIf_eq_ok, Env.requireAuth_eq_ok, okOr_eq_ok, consumeNonce_eq_ok, addUnsigned_eq_ok,
      pure_eq_ok, exists_const]
    refine ⟨_, ⟨by simp [roles, opened.unpaused], rfl, by simp [registered], _,
      ⟨rfl, by omega, rfl⟩, credit, stored, by simp [open_, unflagged], _,
      ⟨_, ⟨by omega, rfl⟩, rfl⟩, rfl⟩, by simp⟩
  obtain ⟨u, success, entered⟩ := success
  have current : t.roles.wasm = none := by
    rw [roles]
    exact opened.current
  have executes : exec sha256 t ⟨everyone, .flagCredit v id "" (t.getNonce v)⟩ = .ok (.unit, u) :=
    (exec_eq_ok sha256 t).mpr ⟨current, Result.unit_eq_ok.mpr ⟨success, rfl⟩⟩
  exact waits.passes (passes_call executes entered)

theorem Open.splits {admin retirementContract : Address} {n : Nat} (counted : s.Counted n)
    (opened : Open s admin retirementContract) (stored : s.ledger.getCredit id = some credit)
    (several : 1 < credit.tonnes) (room : n + 1 < 2 ^ 63) :
    Passes sha256 s id credit.status .retired := by
  have nonces : nonceOf s.nonce credit.owner ≤ n := counted.nonce credit.owner
  have credits := counted.credits
  have success : ∃ children u,
      splitCredit sha256 everyone s credit.owner id 1 (s.getNonce credit.owner) =
        .ok (children, u) ∧ u.ledger.statusOf id = some .retired := by
    simp only [splitCredit, State.consumeNonce, bind_eq_ok, rejectIf_eq_ok,
      Env.requireAuth_eq_ok, okOr_eq_ok, consumeNonce_eq_ok, Ledger.nextCreditId_eq_ok,
      Prod.exists, Prod.mk.injEq, pure_eq_ok, exists_const]
    refine ⟨_, _, _, ⟨by simp [opened.unpaused], rfl, _, ⟨rfl, by omega, rfl⟩, credit, stored,
      by simp, by omega, _, _, ⟨by omega, rfl, rfl⟩, _, _, ⟨?_, rfl, rfl⟩, ⟨rfl, rfl⟩, rfl⟩,
      by simp⟩
    show s.ledger.creditNonce + 1 + 1 < 2 ^ 64
    omega
  obtain ⟨⟨child1Id, child2Id⟩, u, success, entered⟩ := success
  have executes : exec sha256 s ⟨everyone, .splitCredit credit.owner id 1
      (s.getNonce credit.owner)⟩ = .ok (.pair child1Id child2Id, u) :=
    (exec_eq_ok sha256 s).mpr ⟨opened.current, Result.pair_eq_ok.mpr ⟨_, _, success, rfl⟩⟩
  exact passes_call executes entered

/-- The calls under the direct edges succeed, and leave the roles alone. -/
theorem Open.dispatches (sha256 : Bytes → BytesN32) {admin retirementContract : Address}
    (opened : Open s admin retirementContract) (stored : s.ledger.getCredit id = some credit)
    (direct : Direct credit.tonnes credit.status new) :
    ∃ call u, dispatch sha256 everyone s call = .ok (.unit, u) ∧ u.roles = s.roles ∧
      u.ledger.getCredit id = some { credit with status := new } := by
  obtain ⟨authority, verifier, owner, transition⟩ := direct
  generalize was : credit.status = old at transition
  let ledger := s.ledger.setCredit id { credit with status := new }
  cases transition with
  | approve => exact absurd rfl verifier
  | flag _ open_ unflagged => exact absurd rfl verifier
  | consume _ open_ taken => exact absurd rfl owner
  | retire =>
      have success : markRetired everyone s id = .ok { s with ledger } := by
        simp [markRetired, opened.unpaused, opened.trusted, stored, was, everyone, ledger]
      exact ⟨.markRetired id, _, Result.unit_eq_ok.mpr ⟨success, rfl⟩, rfl, by simp [ledger]⟩
  | expire _ open_ unexpired =>
      have success : expireCredit everyone s admin id = .ok { s with ledger } := by
        simp [expireCredit, Roles.requireAdmin, opened.admin, stored, was, everyone, ledger,
          open_, unexpired]
      exact ⟨.expireCredit admin id, _, Result.unit_eq_ok.mpr ⟨success, rfl⟩, rfl,
        by simp [ledger]⟩
  | dispute _ open_ undisputed =>
      have success : disputeCredit everyone s admin id "" =
          .ok { s with ledger := ledger.withDispute (ledger.dispute.insert id "") } := by
        simp [disputeCredit, stored, was, everyone, ledger, open_, undisputed, Ledger.withDispute]
      exact ⟨.disputeCredit admin id "", _, Result.unit_eq_ok.mpr ⟨success, rfl⟩, rfl,
        by simp [ledger]⟩
  | restore =>
      have success : resolveDispute everyone s admin id 0 =
          .ok { s with ledger := ledger.withDispute (ledger.dispute.erase id) } := by
        simp [resolveDispute, Roles.requireAdmin, disputeOutcome, opened.admin, stored, was,
          everyone, ledger, Ledger.withDispute]
      exact ⟨.resolveDispute admin id 0, _, Result.unit_eq_ok.mpr ⟨success, rfl⟩, rfl,
        by simp [ledger]⟩
  | condemn =>
      have success : resolveDispute everyone s admin id 1 =
          .ok { s with ledger := ledger.withDispute (ledger.dispute.erase id) } := by
        simp [resolveDispute, Roles.requireAdmin, disputeOutcome, opened.admin, stored, was,
          everyone, ledger, Ledger.withDispute]
      exact ⟨.resolveDispute admin id 1, _, Result.unit_eq_ok.mpr ⟨success, rfl⟩, rfl,
        by simp [ledger]⟩

/-- Calls can take the credit along a path of direct edges. -/
theorem Open.follows (sha256 : Bytes → BytesN32) {admin retirementContract : Address}
    (opened : Open s admin retirementContract) (stored : s.ledger.getCredit id = some credit)
    (path : Relation.ReflTransGen (Direct credit.tonnes) credit.status new) :
    ∃ u, Relation.ReflTransGen (Moves sha256) s u ∧ Open u admin retirementContract ∧
      u.ledger.getCredit id = some { credit with status := new } := by
  induction path with
  | refl => exact ⟨s, .refl, opened, stored⟩
  | tail _ direct ih =>
      obtain ⟨t, path, opened, stored⟩ := ih
      obtain ⟨call, u, dispatched, roles, stored'⟩ :=
        opened.dispatches sha256 stored direct
      have moves : Moves sha256 t u :=
        ⟨⟨everyone, call⟩, .unit, (exec_eq_ok sha256 t).mpr ⟨opened.current, dispatched⟩⟩
      refine ⟨u, path.tail moves, ⟨?_, ?_, ?_, ?_⟩, stored'⟩ <;> rw [roles]
      · exact opened.current
      · exact opened.unpaused
      · exact opened.admin
      · exact opened.trusted

theorem Open.passes_directly {admin retirementContract : Address}
    (opened : Open s admin retirementContract) (stored : s.ledger.getCredit id = some credit)
    (direct : Direct credit.tonnes credit.status new) :
    Passes sha256 s id credit.status new := by
  obtain ⟨call, u, dispatched, -, stored'⟩ := opened.dispatches sha256 stored direct
  have executes : exec sha256 s ⟨everyone, call⟩ = .ok (.unit, u) :=
    (exec_eq_ok sha256 s).mpr ⟨opened.current, dispatched⟩
  exact passes_call executes (Ledger.statusOf_of_stored stored')

/-- Every edge can be taken. -/
theorem Open.takes {admin retirementContract : Address} {n : Nat} (counted : s.Counted n)
    (opened : Open s admin retirementContract) (stored : s.ledger.getCredit id = some credit)
    (short : credit.status = .pending →
      (s.ledger.getCreditApprovals id).length < s.roles.getRequiredApprovals)
    (room : n + s.roles.getRequiredApprovals + 1 < 2 ^ 63)
    (edge : Edge credit.tonnes credit.status new) : Passes sha256 s id credit.status new := by
  obtain ⟨authority, transition⟩ := edge
  by_cases direct : authority ≠ .verifier ∧ authority ≠ .owner
  · exact opened.passes_directly stored ⟨authority, direct.1, direct.2, transition⟩
  generalize was : credit.status = old at transition
  cases transition with
  | approve => exact opened.approves counted stored was (short was) room
  | flag _ open_ unflagged =>
      subst was
      exact opened.flags counted stored open_ unflagged (by omega)
  | consume _ open_ taken =>
      subst was
      rcases taken with active | several
      · refine opened.passes_directly stored ⟨.retirementContract, nofun, nofun, ?_⟩
        rw [active]
        exact .retire
      · exact opened.splits counted stored several (by omega)
  | _ => exact absurd ⟨nofun, nofun⟩ direct

/-- Whatever calls came before, as long as the code is this one and there were not too many of
them, the next status of a stored credit can be each of those to which an edge leads and no
other. So a credit that is not retired can get every status but `pending`, and a retired one
none. -/
theorem lifecycle_realised (inj : Function.Injective sha256) (inputs : List Invocation)
    (short : ((machine sha256).log inputs).length +
      ((machine sha256).state inputs).roles.getRequiredApprovals < 2 ^ 63 - 2)
    (current : ((machine sha256).state inputs).roles.wasm = none)
    (stored : ((machine sha256).state inputs).ledger.getCredit id = some credit) :
    (∀ new ≠ credit.status,
      Passes sha256 ((machine sha256).state inputs) id credit.status new ↔
        Edge credit.tonnes credit.status new) ∧
    ∀ new,
      (∃ t, Relation.ReflTransGen (Moves sha256) ((machine sha256).state inputs) t ∧
        t.ledger.statusOf id = some new) ↔
      new = credit.status ∨ credit.status ≠ .retired ∧ new ≠ .pending := by
  have counting := counting_of_run inj inputs
  have counted : ((machine sha256).state inputs).Counted ((machine sha256).log inputs).length :=
    counted inputs
  have derived := counting.derived
  have hasAdmin := counting.founding.hasAdmin (by rw [stored]; exact Option.some_ne_none credit)
  obtain ⟨retirementContract, trusted⟩ :=
    Option.ne_none_iff_exists'.mp (trusted_of_run inputs hasAdmin)
  obtain ⟨admin, hasAdmin⟩ := Option.ne_none_iff_exists'.mp hasAdmin
  have start := Ledger.statusOf_of_stored stored
  obtain ⟨s, waits, counted', opened, ledger, required⟩ :=
    opens sha256 counted current hasAdmin trusted start
  have stored' : s.ledger.getCredit id = some credit := by rw [ledger, stored]
  constructor
  · intro new changes
    constructor
    · exact fun passes => passes.edge inj derived stored changes
    · intro edge
      refine waits.passes (opened.takes counted' stored' ?_ ?_ edge)
      · intro pending
        rw [ledger, required]
        rw [pending] at start
        exact (counting.pending id start).2.2
      · rw [required]
        omega
  · intro new
    rw [← @reaches_iff credit.tonnes]
    constructor
    · rintro ⟨t, path, reached⟩
      obtain ⟨-, credit', stored', -, follows⟩ := moves_follow inj path derived stored
      rw [Ledger.statusOf_of_stored stored', Option.some.injEq] at reached
      rw [← reached]
      exact follows
    · intro path
      rcases reaches_iff.mp path with rfl | ⟨open_, entered⟩
      · exact ⟨_, .refl, start⟩
      · obtain ⟨t, later, -, reached⟩ :=
          opened.follows sha256 stored' (reaches_directly open_ entered)
        exact ⟨t, waits.path.trans later, Ledger.statusOf_of_stored reached⟩

set_option maxRecDepth 100000 in
/-- The credit of the sample run, which is active, can expire next, but can not become pending. -/
theorem approve_passes :
    Passes BytesN32.mk ((machine BytesN32.mk).state Sample.approve) (Sample.credit 0) .active
        .expired ∧
      ¬ ∃ t, Relation.ReflTransGen (Moves BytesN32.mk)
        ((machine BytesN32.mk).state Sample.approve) t ∧
          t.ledger.statusOf (Sample.credit 0) = some .pending := by
  have stored : ((machine BytesN32.mk).state Sample.approve).ledger.getCredit (Sample.credit 0) =
      some _ := rfl
  obtain ⟨next, later⟩ := lifecycle_realised BytesN32.mk_injective Sample.approve (by decide)
    rfl stored
  refine ⟨(next .expired nofun).mpr ⟨.admin, .expire _ nofun nofun⟩, ?_⟩
  intro reached
  rcases (later .pending).mp reached with same | ⟨-, other⟩
  · cases same
  · exact other rfl

end CarbonChain.Registry
