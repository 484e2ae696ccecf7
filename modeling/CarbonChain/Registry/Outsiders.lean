import CarbonChain.Registry.Approvals

/-!
# CreditRegistry: what is open to everybody

An address that holds no office of the registry and does not own a credit can do one thing
to it, which is to dispute it (`contracts/credit_registry/src/lib.rs:802-818`). However
many of them act together, and however often, they leave the roles, the owner of the credit
and everything else that is stored about it alone.
-/

namespace CarbonChain.Registry

variable {sha256 : Bytes → BytesN32}

/-- The address holds no office, is nominated for none, and is not the owner. -/
structure Outsider (roles : Roles) (owner a : Address) : Prop where
  admin : roles.admin ≠ some a
  nominee : roles.pendingAdmin ≠ some a
  retirementContract : roles.retirementContract ≠ some a
  verifier : a ∉ roles.verifierSet
  owner : a ≠ owner

/-- Only outsiders authorise the invocation. -/
def Invocation.Outside (roles : Roles) (owner : Address) (invocation : Invocation) : Prop :=
  ∀ a, invocation.env.auth a = true → Outsider roles owner a

/-! ## What a call takes -/

/-- The roles change under the authority of the admin or of the nominee. -/
theorem dispatch_roles_outside {env : Env} {s s' : State} {call : Call} {ret : Ret}
    (hasAdmin : s.roles.admin ≠ none)
    (outside : ∀ a, env.auth a = true → s.roles.admin ≠ some a ∧ s.roles.pendingAdmin ≠ some a)
    (h : dispatch sha256 env s call = .ok (ret, s')) : s'.roles = s.roles := by
  by_cases writes : call.onCredits = true
  · exact dispatch_roles sha256 env s writes h
  have present : s.roles.hasAdmin = true := Option.isSome_iff_ne_none.mpr hasAdmin
  have noAdmin : ∀ a, ¬ (s.roles.admin = some a ∧ env.auth a = true) :=
    fun a ⟨stored, authorised⟩ => (outside a authorised).1 stored
  have noNominee : ∀ a, s.roles.pendingAdmin = some a → env.auth a = true → False :=
    fun a stored authorised => (outside a authorised).2 stored
  cases call <;> simp only [Call.onCredits, not_true_eq_false] at writes <;>
    simp only [dispatch, Result.unit_eq_ok, Result.id_eq_ok, initializeContract, pause, unpause,
      setPaused, registerVerifier, removeVerifier, registerIssuer, removeIssuer,
      registerMethodology, proposeAdmin, acceptAdmin, requireServiceAccess, Roles.requireAdmin,
      configureVerifierServices, addVerifierService, removeVerifierService, registerProject,
      upgrade, createSession, bind_eq_ok, pure_eq_ok, Prod.mk.injEq, requireAdmin_eq_ok,
      okOr_eq_ok, rejectIf_eq_ok, Env.requireAuth_eq_ok, exists_const] at h <;>
    grind

/-- The authority that the admin, a verifier or the retirement contract gives. -/
def Official (env : Env) (roles : Roles) : Prop :=
  ∃ a, env.auth a = true ∧
    (roles.admin = some a ∨ a ∈ roles.verifierSet ∨ roles.retirementContract = some a)

/-- The status of a credit changes under the authority of an official, or to disputed. -/
theorem StatusChange.official {env : Env} {s s' : State} {call : Call} {ret : Ret}
    {id : BytesN32} {old new : CreditStatus} (change : StatusChange call id old new)
    (h : dispatch sha256 env s call = .ok (ret, s')) :
    Official env s.roles ∨ old ≠ .retired ∧ new = .disputed := by
  cases change with
  | flag verifier id reason nonce status open_ unflagged =>
      simp only [dispatch, Result.unit_eq_ok, flagCredit, bind_eq_ok, rejectIf_eq_ok,
        Env.requireAuth_eq_ok, exists_const] at h
      obtain ⟨⟨-, authorised, registered, -⟩, -⟩ := h
      exact .inl ⟨verifier, authorised, .inr (.inl (by simpa [Roles.isVerifier] using registered))⟩
  | retire id =>
      obtain ⟨retirementContract, credit, trusted, authorised, -⟩ :=
        markRetired_ok env s (Result.unit_eq_ok.mp h).1
      exact .inl ⟨retirementContract, authorised, .inr (.inr trusted)⟩
  | expire admin id status open_ unexpired =>
      simp only [dispatch, Result.unit_eq_ok, expireCredit, Roles.requireAdmin, bind_eq_ok,
        requireAdmin_eq_ok, exists_const] at h
      obtain ⟨⟨⟨stored, authorised⟩, -⟩, -⟩ := h
      exact .inl ⟨admin, authorised, .inl stored⟩
  | dispute disputer id evidence status open_ undisputed => exact .inr ⟨open_, rfl⟩
  | restore admin id =>
      simp only [dispatch, Result.unit_eq_ok, resolveDispute, Roles.requireAdmin, bind_eq_ok,
        requireAdmin_eq_ok, exists_const] at h
      obtain ⟨⟨⟨stored, authorised⟩, -⟩, -⟩ := h
      exact .inl ⟨admin, authorised, .inl stored⟩
  | condemn admin id =>
      simp only [dispatch, Result.unit_eq_ok, resolveDispute, Roles.requireAdmin, bind_eq_ok,
        requireAdmin_eq_ok, exists_const] at h
      obtain ⟨⟨⟨stored, authorised⟩, -⟩, -⟩ := h
      exact .inl ⟨admin, authorised, .inl stored⟩

/-- A credit changes under the authority of its owner or of an official, or is disputed. -/
theorem Evolves.official {env : Env} {s s' : State} {call : Call} {ret : Ret} {id : BytesN32}
    {credit credit' : CreditMetadata} (h : Evolves s env call id credit credit')
    (success : dispatch sha256 env s call = .ok (ret, s')) :
    env.auth credit.owner = true ∨ Official env s.roles ∨ credit' = credit ∨
      credit.status ≠ .retired ∧ credit' = { credit with status := .disputed } := by
  cases h with
  | same => exact .inr (.inr (.inl rfl))
  | minted verifier nonce named pending registered first enough =>
      rw [named] at success
      simp only [dispatch, Result.unit_eq_ok, approveAndMint, bind_eq_ok, rejectIf_eq_ok,
        Env.requireAuth_eq_ok, exists_const] at success
      obtain ⟨⟨-, authorised, -⟩, -⟩ := success
      exact .inr (.inl ⟨verifier, authorised, .inr (.inl registered)⟩)
  | restatused status change =>
      rcases change.official success with official | ⟨open_, rfl⟩
      · exact .inr (.inl official)
      · exact .inr (.inr (.inr ⟨open_, rfl⟩))
  | transferred recipient nonce named authorised => exact .inl authorised
  | split splitTonnes nonce named authorised => exact .inl authorised
  | merged ids named authorised listed active => exact .inl authorised

/-! ## Runs -/

/-- What outsiders leave of a credit: the credit as it is, or disputed. -/
def CreditMetadata.Left (credit credit' : CreditMetadata) : Prop :=
  credit' = credit ∨ credit.status ≠ .retired ∧ credit' = { credit with status := .disputed }

theorem CreditMetadata.Left.trans {first second third : CreditMetadata}
    (h : first.Left second) (h' : second.Left third) : first.Left third := by
  rcases h with rfl | ⟨open_, rfl⟩
  · exact h'
  · rcases h' with rfl | ⟨-, rfl⟩
    · exact .inr ⟨open_, rfl⟩
    · exact .inr ⟨open_, rfl⟩

theorem CreditMetadata.Left.owner {credit credit' : CreditMetadata} (h : credit.Left credit') :
    credit'.owner = credit.owner := by
  rcases h with rfl | ⟨-, rfl⟩ <;> rfl

/-- One invocation of outsiders. -/
theorem exec_outside (inj : Function.Injective sha256) {s s' : State} {invocation : Invocation}
    {ret : Ret} {id : BytesN32} {credit : CreditMetadata} (derived : s.ledger.Derived sha256)
    (hasAdmin : s.roles.admin ≠ none) (stored : s.ledger.getCredit id = some credit)
    (outside : invocation.Outside s.roles credit.owner)
    (h : exec sha256 s invocation = .ok (ret, s')) :
    s'.roles = s.roles ∧
      ∃ credit', s'.ledger.getCredit id = some credit' ∧ credit.Left credit' := by
  have success := ((exec_eq_ok sha256 s).mp h).2
  obtain ⟨credit', stored', evolves⟩ := (exec_effect sha256 s h).evolves inj derived stored
  refine ⟨?_, credit', stored', ?_⟩
  · apply dispatch_roles_outside hasAdmin _ success
    exact fun a authorised => ⟨(outside a authorised).admin, (outside a authorised).nominee⟩
  · rcases evolves.official success with owns | ⟨a, authorised, office⟩ | left
    · exact absurd rfl (outside credit.owner owns).owner
    · have outsider := outside a authorised
      rcases office with admin | verifier | retirementContract
      · exact absurd admin outsider.admin
      · exact absurd verifier outsider.verifier
      · exact absurd retirementContract outsider.retirementContract
    · exact left

/-- Whatever outsiders do after a run, in any number of invocations, leaves the roles and the
credit, or the credit disputed. -/
theorem outsiders_only_dispute (inj : Function.Injective sha256) (earlier later : List Invocation)
    {id : BytesN32} {credit : CreditMetadata}
    (stored : ((machine sha256).state earlier).ledger.getCredit id = some credit)
    (outside : ∀ invocation ∈ later,
      invocation.Outside ((machine sha256).state earlier).roles credit.owner) :
    ((machine sha256).state (earlier ++ later)).roles = ((machine sha256).state earlier).roles ∧
    ∃ credit', ((machine sha256).state (earlier ++ later)).ledger.getCredit id = some credit' ∧
      credit.Left credit' := by
  have founded : ∀ inputs, ((machine sha256).state inputs).ledger.Derived sha256 ∧
      Founding ((machine sha256).log inputs) ((machine sha256).state inputs) := by
    intro inputs
    refine (machine sha256).run_induct (fun log s => s.ledger.Derived sha256 ∧ Founding log s)
      ?_ ?_ inputs
    · exact ⟨derived_init, founding_nil⟩
    · intro log event ⟨derived, founding⟩ commits
      exact ⟨(exec_effect sha256 event.pre commits).derived derived, founding.step commits⟩
  induction later using List.reverseRecOn with
  | nil =>
      rw [List.append_nil]
      exact ⟨rfl, credit, stored, .inl rfl⟩
  | append_singleton later invocation ih =>
      obtain ⟨roles, credit', stored', left⟩ :=
        ih fun earlier listed => outside earlier (List.mem_append_left _ listed)
      rw [← List.append_assoc]
      cases committed : exec sha256 ((machine sha256).state (earlier ++ later)) invocation with
      | error failure =>
          rw [((machine sha256).snoc_of_error committed).1]
          exact ⟨roles, credit', stored', left⟩
      | ok result =>
          obtain ⟨ret, post⟩ := result
          rw [((machine sha256).snoc_of_ok committed).1]
          obtain ⟨derived, founding⟩ := founded (earlier ++ later)
          have there : ((machine sha256).state (earlier ++ later)).ledger.getCredit id ≠
              none := by
            rw [stored']
            simp
          have hasAdmin := founding.hasAdmin there
          have acts := outside invocation List.mem_concat_self
          rw [← roles, ← left.owner] at acts
          obtain ⟨roles', credit'', stored'', left'⟩ :=
            exec_outside inj derived hasAdmin stored' acts committed
          exact ⟨roles'.trans roles, credit'', stored'', left.trans left'⟩

namespace Sample

def stranger : Address := .account 7

/-- A stranger disputes the active credit and tries to take it. -/
def strangerActs : List Invocation :=
  [call stranger (.disputeCredit stranger (credit 0) "evidence"),
   call stranger (.transferCredit stranger stranger (credit 0) 0)]

end Sample

set_option maxRecDepth 100000 in
theorem strangerActs_only_dispute :
    ((machine BytesN32.mk).state (Sample.approve ++ Sample.strangerActs)).roles =
      ((machine BytesN32.mk).state Sample.approve).roles := by
  have stored : ((machine BytesN32.mk).state Sample.approve).ledger.getCredit (Sample.credit 0) =
      some { projectId := "project-1", issuer := Sample.issuer, owner := Sample.issuer,
             vintageYear := 2024, methodology := "VCS", geography := "NG", tonnes := 1000000,
             ipfsHash := "ipfs", status := .active, issuedAt := 1735689600 } := by decide
  refine (outsiders_only_dispute BytesN32.mk_injective Sample.approve Sample.strangerActs stored
    ?_).1
  intro invocation listed a authorised
  have signed : invocation.env.auth = fun a => a == Sample.stranger := by
    simp only [Sample.strangerActs, List.mem_cons, List.not_mem_nil, or_false] at listed
    rcases listed with rfl | rfl <;> rfl
  rw [signed, beq_iff_eq] at authorised
  subst authorised
  exact ⟨by decide, by decide, by decide, by decide, by decide⟩

end CarbonChain.Registry
