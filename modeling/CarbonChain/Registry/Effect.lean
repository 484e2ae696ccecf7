import CarbonChain.Registry.Contract

/-!
# CreditRegistry: what a call does to the credits

`Effect` lists, once for all proofs about runs, every way in which a successful
invocation changes the ledger, with the guards that let it through. The invariants
of the registry are proved by cases on it and unfold no entry point.
-/

namespace CarbonChain.Registry

/-- The arguments of `submit_credit`, shared by the two entry points that submit. -/
structure Submission where
  issuer : Address
  projectId : String
  vintageYear : Nat
  methodology : String
  geography : String
  tonnes : Int
  ipfsHash : String
  nonce : Nat

/-- The submission a call makes. -/
def Call.submission : Call → Option Submission
  | .submitCredit issuer projectId vintageYear methodology geography tonnes ipfsHash nonce
  | .submitCreditWithSession _ issuer projectId vintageYear methodology geography tonnes ipfsHash
      nonce =>
      some ⟨issuer, projectId, vintageYear, methodology, geography, tonnes, ipfsHash, nonce⟩
  | _ => none

/-- The call is one of those that can write a credit. -/
def Call.onCredits : Call → Bool
  | .submitCredit .. | .submitCreditWithSession .. | .approveAndMint .. | .flagCredit ..
  | .markRetired .. | .transferCredit .. | .splitCredit .. | .expireCredit ..
  | .disputeCredit .. | .resolveDispute .. | .mergeCredits .. => true
  | _ => false

/-- The credit a submission stores. -/
def Submission.credit (sub : Submission) (env : Env) : CreditMetadata :=
  { projectId := sub.projectId, issuer := sub.issuer, owner := sub.issuer,
    vintageYear := sub.vintageYear, methodology := sub.methodology, geography := sub.geography,
    tonnes := sub.tonnes, ipfsHash := sub.ipfsHash, status := .pending,
    issuedAt := env.timestamp }

/-- The calls that set the status of one stored credit, with the status before and after. -/
inductive StatusChange : Call → BytesN32 → CreditStatus → CreditStatus → Prop where
  | flag (verifier : Address) (id : BytesN32) (reason : String) (nonce : Nat)
      (status : CreditStatus) (open_ : status ≠ .retired) (unflagged : status ≠ .flagged) :
      StatusChange (.flagCredit verifier id reason nonce) id status .flagged
  | retire (id : BytesN32) : StatusChange (.markRetired id) id .active .retired
  | expire (admin : Address) (id : BytesN32) (status : CreditStatus)
      (open_ : status ≠ .retired) (unexpired : status ≠ .expired) :
      StatusChange (.expireCredit admin id) id status .expired
  | dispute (disputer : Address) (id : BytesN32) (evidence : String) (status : CreditStatus)
      (open_ : status ≠ .retired) (undisputed : status ≠ .disputed) :
      StatusChange (.disputeCredit disputer id evidence) id status .disputed
  | restore (admin : Address) (id : BytesN32) :
      StatusChange (.resolveDispute admin id 0) id .disputed .active
  | condemn (admin : Address) (id : BytesN32) :
      StatusChange (.resolveDispute admin id 1) id .disputed .flagged

/-- The credit that a call restores from dispute to active. -/
def Call.restores : Call → Option BytesN32
  | .resolveDispute _ id 0 => some id
  | _ => none

theorem StatusChange.submission {call : Call} {id : BytesN32} {old new : CreditStatus}
    (change : StatusChange call id old new) : call.submission = none := by
  cases change <;> rfl

theorem submission_of_quiet {call : Call} (quiet : call.onCredits = false) :
    call.submission = none := by
  cases call <;> first | rfl | cases quiet

/-- The credit has the attributes that `merge_credits` requires its sources to share. -/
structure SameLot (credit merged : CreditMetadata) : Prop where
  projectId : credit.projectId = merged.projectId
  vintageYear : credit.vintageYear = merged.vintageYear
  issuer : credit.issuer = merged.issuer
  methodology : credit.methodology = merged.methodology
  geography : credit.geography = merged.geography

/-- The tonnes stored under an id, zero where nothing is stored. -/
def Ledger.tonnesOf (ledger : Ledger) (id : BytesN32) : Int :=
  (ledger.getCredit id).elim 0 (·.tonnes)

/-- The ledger with the id counter advanced by `n`. -/
def Ledger.advance (ledger : Ledger) (n : Nat) : Ledger :=
  { ledger with creditNonce := ledger.creditNonce + n }

@[simp] theorem Ledger.getCredit_advance (ledger : Ledger) (n : Nat) :
    (ledger.advance n).getCredit = ledger.getCredit := rfl

@[simp] theorem Ledger.creditNonce_advance (ledger : Ledger) (n : Nat) :
    (ledger.advance n).creditNonce = ledger.creditNonce + n := rfl

/-- The ledger with other dispute evidence. -/
def Ledger.withDispute (ledger : Ledger) (dispute : Store BytesN32 String) : Ledger :=
  { ledger with dispute }

@[simp] theorem Ledger.getCredit_withDispute (ledger : Ledger)
    (dispute : Store BytesN32 String) :
    (ledger.withDispute dispute).getCredit = ledger.getCredit := rfl

@[simp] theorem Ledger.creditNonce_withDispute (ledger : Ledger)
    (dispute : Store BytesN32 String) :
    (ledger.withDispute dispute).creditNonce = ledger.creditNonce := rfl

/-- The status of the credit stored under an id. -/
def Ledger.statusOf (ledger : Ledger) (id : BytesN32) : Option CreditStatus :=
  (ledger.getCredit id).map CreditMetadata.status

namespace Ledger

theorem statusOf_eq_some {ledger : Ledger} {id : BytesN32} {status : CreditStatus} :
    ledger.statusOf id = some status ↔
      ∃ credit, ledger.getCredit id = some credit ∧ credit.status = status :=
  Option.map_eq_some_iff

theorem statusOf_of_stored {ledger : Ledger} {id : BytesN32} {credit : CreditMetadata}
    (stored : ledger.getCredit id = some credit) : ledger.statusOf id = some credit.status :=
  statusOf_eq_some.mpr ⟨credit, stored, rfl⟩

theorem statusOf_of_absent {ledger : Ledger} {id : BytesN32}
    (absent : ledger.getCredit id = none) : ledger.statusOf id = none := by
  rw [statusOf, absent]
  rfl

theorem stored_of_statusOf {ledger : Ledger} {id : BytesN32} {status : CreditStatus}
    (h : ledger.statusOf id = some status) : ledger.getCredit id ≠ none := by
  obtain ⟨credit, stored, -⟩ := statusOf_eq_some.mp h
  rw [stored]
  exact Option.some_ne_none credit

@[simp] theorem statusOf_setCredit (ledger : Ledger) (id other : BytesN32)
    (credit : CreditMetadata) :
    (ledger.setCredit id credit).statusOf other =
      if other = id then some credit.status else ledger.statusOf other := by
  unfold statusOf
  rw [getCredit_setCredit]
  split <;> rfl

/-- Rewriting a credit with its status leaves the statuses alone. -/
theorem statusOf_rewrite (ledger : Ledger) {id : BytesN32} {credit : CreditMetadata}
    (credit' : CreditMetadata) (stored : ledger.getCredit id = some credit)
    (same : credit'.status = credit.status) :
    (ledger.setCredit id credit').statusOf = ledger.statusOf := by
  funext other
  rw [statusOf_setCredit]
  split
  · next its => rw [its, statusOf_of_stored stored, same]
  · rfl

@[simp] theorem statusOf_advance (ledger : Ledger) (n : Nat) :
    (ledger.advance n).statusOf = ledger.statusOf := rfl

@[simp] theorem statusOf_withDispute (ledger : Ledger) (dispute : Store BytesN32 String) :
    (ledger.withDispute dispute).statusOf = ledger.statusOf := rfl

@[simp] theorem statusOf_addCreditToProject (ledger : Ledger) (projectId : String)
    (id : BytesN32) : (ledger.addCreditToProject projectId id).statusOf = ledger.statusOf := rfl

@[simp] theorem statusOf_setCreditByProjectVintage (ledger : Ledger) (projectId : String)
    (vintageYear : Nat) (id : BytesN32) :
    (ledger.setCreditByProjectVintage projectId vintageYear id).statusOf = ledger.statusOf := rfl

@[simp] theorem statusOf_setCreditApprovals (ledger : Ledger) (id : BytesN32)
    (approvals : List Address) :
    (ledger.setCreditApprovals id approvals).statusOf = ledger.statusOf := rfl

@[simp] theorem statusOf_removeCreditApprovals (ledger : Ledger) (id : BytesN32) :
    (ledger.removeCreditApprovals id).statusOf = ledger.statusOf := rfl

end Ledger

@[simp] theorem Ledger.nextCreditId_eq_ok {sha256 : Bytes → BytesN32} {ledger after : Ledger}
    {origin : ScVal} {id : BytesN32} :
    ledger.nextCreditId sha256 origin = .ok (id, after) ↔
      ledger.creditNonce + 1 < 2 ^ 64 ∧ creditId sha256 origin ledger.creditNonce = id ∧
        ledger.advance 1 = after := by
  simp [nextCreditId, advance]

variable (sha256 : Bytes → BytesN32) (env : Env) (s : State)

/-- `Effect sha256 env s call ret after`: `call`, which succeeds in storage `s` and
returns `ret`, leaves the credits as in `after`. -/
inductive Effect : Call → Ret → Ledger → Prop where
  | unchanged (call : Call) (ret : Ret) (quiet : call.onCredits = false) :
      Effect call ret s.ledger
  | submitted (call : Call) (sub : Submission) (id : BytesN32)
      (submission : call.submission = some sub) (hasAdmin : s.roles.admin ≠ none)
      (authorised : env.auth sub.issuer = true) (positive : 0 < sub.tonnes)
      (unique : s.ledger.duplicateExists sub.projectId sub.vintageYear = false)
      (derived : id = creditId sha256 (.string sub.projectId) s.ledger.creditNonce) :
      Effect call (.id id)
        ((((s.ledger.advance 1).setCredit id (sub.credit env)).setCreditByProjectVintage
          sub.projectId sub.vintageYear id).addCreditToProject sub.projectId id)
  | approved (verifier : Address) (id : BytesN32) (nonce : Nat) (credit : CreditMetadata)
      (authorised : env.auth verifier = true) (registered : verifier ∈ s.roles.verifierSet)
      (stored : s.ledger.getCredit id = some credit) (pending : credit.status = .pending)
      (first : verifier ∉ s.ledger.getCreditApprovals id)
      (short : (s.ledger.getCreditApprovals id).length + 1 < s.roles.getRequiredApprovals) :
      Effect (.approveAndMint verifier id nonce) .unit
        ((s.ledger.setCreditApprovals id
          (s.ledger.getCreditApprovals id ++ [verifier])).setCredit id credit)
  | minted (verifier : Address) (id : BytesN32) (nonce : Nat) (credit : CreditMetadata)
      (authorised : env.auth verifier = true) (registered : verifier ∈ s.roles.verifierSet)
      (stored : s.ledger.getCredit id = some credit) (pending : credit.status = .pending)
      (first : verifier ∉ s.ledger.getCreditApprovals id)
      (enough : s.roles.getRequiredApprovals ≤ (s.ledger.getCreditApprovals id).length + 1) :
      Effect (.approveAndMint verifier id nonce) .unit
        (((s.ledger.setCreditApprovals id
          (s.ledger.getCreditApprovals id ++ [verifier])).setCredit id
            { credit with status := .active }).removeCreditApprovals id)
  | restatused (call : Call) (id : BytesN32) (credit : CreditMetadata) (status : CreditStatus)
      (dispute : Store BytesN32 String) (stored : s.ledger.getCredit id = some credit)
      (change : StatusChange call id credit.status status)
      (trusted : call = .markRetired id →
        ∃ retirementContract, s.roles.retirementContract = some retirementContract ∧
          env.auth retirementContract = true) :
      Effect call .unit ((s.ledger.setCredit id { credit with status }).withDispute dispute)
  | transferred (sender recipient : Address) (id : BytesN32) (nonce : Nat)
      (credit : CreditMetadata) (authorised : env.auth sender = true)
      (stored : s.ledger.getCredit id = some credit) (owned : credit.owner = sender) :
      Effect (.transferCredit sender recipient id nonce) .unit
        (s.ledger.setCredit id { credit with owner := recipient })
  | split (caller : Address) (id : BytesN32) (splitTonnes : Int) (nonce : Nat)
      (original : CreditMetadata) (child1Id child2Id : BytesN32)
      (authorised : env.auth caller = true) (stored : s.ledger.getCredit id = some original)
      (owned : original.owner = caller) (positive : 0 < splitTonnes)
      (proper : splitTonnes < original.tonnes)
      (derived1 : child1Id = creditId sha256 (.bytes id) s.ledger.creditNonce)
      (derived2 : child2Id = creditId sha256 (.bytes id) (s.ledger.creditNonce + 1)) :
      Effect (.splitCredit caller id splitTonnes nonce) (.pair child1Id child2Id)
        ((((((s.ledger.advance 2).setCredit child1Id
          { original with tonnes := splitTonnes, owner := caller }).addCreditToProject
            original.projectId child1Id).setCredit child2Id
          { original with tonnes := original.tonnes - splitTonnes, owner := caller }
            ).addCreditToProject original.projectId child2Id).setCredit id
          { original with status := .retired })
  | merged (caller : Address) (ids : List BytesN32) (mergedId : BytesN32)
      (credit : CreditMetadata) (after : Ledger) (authorised : env.auth caller = true)
      (several : 2 ≤ ids.length) (owner : credit.owner = caller)
      (active : credit.status = .active)
      (tonnes : credit.tonnes = (ids.map s.ledger.tonnesOf).sum)
      (sources : ∀ id ∈ ids, ∃ source, s.ledger.getCredit id = some source ∧
        source.owner = caller ∧ source.status = .active ∧ SameLot source credit)
      (derived : mergedId = creditId sha256 (.string credit.projectId) s.ledger.creditNonce)
      (retired : ids.foldlM retireOne
        (((s.ledger.advance 1).setCredit mergedId credit).addCreditToProject credit.projectId
          mergedId) = .ok after) :
      Effect (.mergeCredits caller ids) (.id mergedId) after

/-! ## One lemma for each entry point -/

theorem submitCredit_effect {sub : Submission} {id : BytesN32} {s' : State}
    (h : submitCredit sha256 env s sub.issuer sub.projectId sub.vintageYear sub.methodology
      sub.geography sub.tonnes sub.ipfsHash sub.nonce = .ok (id, s')) (call : Call)
    (submission : call.submission = some sub) :
    Effect sha256 env s call (.id id) s'.ledger := by
  simp only [submitCredit, bind_eq_ok, rejectIf_eq_ok, Env.requireAuth_eq_ok,
    exists_const, Ledger.nextCreditId_eq_ok, pure_eq_ok, Prod.exists, Prod.mk.injEq] at h
  obtain ⟨hasAdmin, -, authorised, nonce, -, -, -, -, nonPositive, -, year, -, -, lastYear, -, -,
    -, duplicate, _, _, ⟨-, rfl, rfl⟩, verifiers, -, rfl, rfl⟩ := h
  refine .submitted call sub _ submission ?_ authorised ?_ ?_ rfl
  · simpa [Roles.hasAdmin] using hasAdmin
  · omega
  · simpa using duplicate

/-- A submission through a session is a submission, with an entry in the audit log. -/
theorem submitCreditWithSession_ok {sessionId : BytesN32} {issuer : Address} {projectId : String}
    {vintageYear : Nat} {methodology geography : String} {tonnes : Int} {ipfsHash : String}
    {nonce : Nat} {id : BytesN32} {s' : State}
    (h : submitCreditWithSession sha256 env s sessionId issuer projectId vintageYear methodology
      geography tonnes ipfsHash nonce = .ok (id, s')) :
    ∃ submitted audit, submitCredit sha256 env s issuer projectId vintageYear methodology geography
      tonnes ipfsHash nonce = .ok (id, submitted) ∧ s' = { submitted with audit } := by
  simp only [submitCreditWithSession, bind_eq_ok, rejectIf_eq_ok, exists_const, pure_eq_ok,
    Prod.exists, Prod.mk.injEq] at h
  obtain ⟨-, _, submitted, success, _, -, audit, -, rfl, rfl⟩ := h
  exact ⟨submitted, audit, success, rfl⟩

theorem approveAndMint_effect {verifier : Address} {id : BytesN32} {nonce : Nat} {s' : State}
    (h : approveAndMint env s verifier id nonce = .ok s') :
    Effect sha256 env s (.approveAndMint verifier id nonce) .unit s'.ledger := by
  simp only [approveAndMint, bind_eq_ok, rejectIf_eq_ok,
    Env.requireAuth_eq_ok, exists_const, okOr_eq_ok] at h
  obtain ⟨-, authorised, registered, nonces, -, credit, stored, pending, first, verifiers, -,
    outcome⟩ := h
  have registered : verifier ∈ s.roles.verifierSet := by
    simpa [Roles.isVerifier] using registered
  have pending : credit.status = .pending := by simpa using pending
  have first : verifier ∉ s.ledger.getCreditApprovals id := by simpa using first
  by_cases enough : s.roles.getRequiredApprovals ≤
      (s.ledger.getCreditApprovals id ++ [verifier]).length
  · rw [if_pos enough, pure_eq_ok] at outcome
    subst outcome
    rw [List.length_append] at enough
    exact .minted verifier id nonce credit authorised registered stored pending first enough
  · rw [if_neg enough, pure_eq_ok] at outcome
    subst outcome
    rw [List.length_append] at enough
    exact .approved verifier id nonce credit authorised registered stored pending first
      (Nat.lt_of_not_le enough)

theorem flagCredit_effect {verifier : Address} {id : BytesN32} {reason : String} {nonce : Nat}
    {s' : State} (h : flagCredit env s verifier id reason nonce = .ok s') :
    Effect sha256 env s (.flagCredit verifier id reason nonce) .unit s'.ledger := by
  simp only [flagCredit, bind_eq_ok, rejectIf_eq_ok, Env.requireAuth_eq_ok, exists_const,
    okOr_eq_ok, pure_eq_ok, not_or] at h
  obtain ⟨-, -, -, nonces, -, credit, stored, ⟨open_, unflagged⟩, verifiers, -, rfl⟩ := h
  refine .restatused _ id credit .flagged s.ledger.dispute stored ?_ ?_
  · exact .flag verifier id reason nonce credit.status open_ unflagged
  · intro impossible
    cases impossible

/-- What `mark_retired` checks and writes. -/
theorem markRetired_ok {id : BytesN32} {s' : State} (h : markRetired env s id = .ok s') :
    ∃ retirementContract credit, s.roles.retirementContract = some retirementContract ∧
      env.auth retirementContract = true ∧ s.ledger.getCredit id = some credit ∧
      credit.status = .active ∧
      s' = { s with ledger := s.ledger.setCredit id { credit with status := .retired } } := by
  simp only [markRetired, bind_eq_ok, rejectIf_eq_ok, Env.requireAuth_eq_ok, exists_const,
    okOr_eq_ok, pure_eq_ok, not_not, ne_eq] at h
  obtain ⟨-, retirementContract, trusted, authorised, credit, stored, active, rfl⟩ := h
  exact ⟨retirementContract, credit, trusted, authorised, stored, active, rfl⟩

theorem markRetired_effect {id : BytesN32} {s' : State} (h : markRetired env s id = .ok s') :
    Effect sha256 env s (.markRetired id) .unit s'.ledger := by
  obtain ⟨retirementContract, credit, trusted, authorised, stored, active, rfl⟩ :=
    markRetired_ok env s h
  refine .restatused _ id credit .retired s.ledger.dispute stored ?_ ?_
  · rw [active]
    exact .retire id
  · exact fun _ => ⟨retirementContract, trusted, authorised⟩

theorem transferCredit_effect {sender recipient : Address} {id : BytesN32} {nonce : Nat}
    {s' : State} (h : transferCredit env s sender recipient id nonce = .ok s') :
    Effect sha256 env s (.transferCredit sender recipient id nonce) .unit s'.ledger := by
  simp only [transferCredit, bind_eq_ok, rejectIf_eq_ok, Env.requireAuth_eq_ok, exists_const,
    okOr_eq_ok, pure_eq_ok, not_not, ne_eq] at h
  obtain ⟨-, authorised, nonces, -, credit, stored, owned, rfl⟩ := h
  exact .transferred sender recipient id nonce credit authorised stored owned

theorem splitCredit_effect {caller : Address} {id child1Id child2Id : BytesN32}
    {splitTonnes : Int} {nonce : Nat} {s' : State}
    (h : splitCredit sha256 env s caller id splitTonnes nonce =
      .ok ((child1Id, child2Id), s')) :
    Effect sha256 env s (.splitCredit caller id splitTonnes nonce) (.pair child1Id child2Id)
      s'.ledger := by
  simp only [splitCredit, bind_eq_ok, rejectIf_eq_ok, Env.requireAuth_eq_ok, exists_const,
    okOr_eq_ok, pure_eq_ok, not_not, ne_eq, not_or, Ledger.nextCreditId_eq_ok, Prod.exists,
    Prod.mk.injEq] at h
  obtain ⟨-, authorised, nonces, -, original, stored, owned, ⟨positive, proper⟩, _, _,
    ⟨-, rfl, rfl⟩, _, _, ⟨-, rfl, rfl⟩, ⟨rfl, rfl⟩, rfl⟩ := h
  exact .split caller id splitTonnes nonce original _ _ authorised stored owned
    (by omega) (by omega) rfl rfl

theorem expireCredit_effect {admin : Address} {id : BytesN32} {s' : State}
    (h : expireCredit env s admin id = .ok s') :
    Effect sha256 env s (.expireCredit admin id) .unit s'.ledger := by
  simp only [expireCredit, bind_eq_ok, rejectIf_eq_ok, exists_const, okOr_eq_ok, pure_eq_ok,
    not_or] at h
  obtain ⟨_, -, credit, stored, ⟨open_, unexpired⟩, rfl⟩ := h
  refine .restatused _ id credit .expired s.ledger.dispute stored ?_ ?_
  · exact .expire admin id credit.status open_ unexpired
  · intro impossible
    cases impossible

theorem disputeCredit_effect {disputer : Address} {id : BytesN32} {evidence : String}
    {s' : State} (h : disputeCredit env s disputer id evidence = .ok s') :
    Effect sha256 env s (.disputeCredit disputer id evidence) .unit s'.ledger := by
  simp only [disputeCredit, bind_eq_ok, rejectIf_eq_ok, Env.requireAuth_eq_ok, exists_const,
    okOr_eq_ok, pure_eq_ok, not_or] at h
  obtain ⟨-, credit, stored, ⟨open_, undisputed⟩, rfl⟩ := h
  refine .restatused _ id credit .disputed _ stored ?_ ?_
  · exact .dispute disputer id evidence credit.status open_ undisputed
  · intro impossible
    cases impossible

@[simp] theorem disputeOutcome_eq_ok {outcome : Nat} {status : CreditStatus} :
    disputeOutcome outcome = .ok status ↔
      outcome = 0 ∧ status = .active ∨ outcome = 1 ∧ status = .flagged := by
  unfold disputeOutcome
  by_cases restored : outcome = 0
  · simp [restored, eq_comm]
  · by_cases condemned : outcome = 1 <;> simp [restored, condemned, eq_comm]

theorem resolveDispute_effect {admin : Address} {id : BytesN32} {outcome : Nat} {s' : State}
    (h : resolveDispute env s admin id outcome = .ok s') :
    Effect sha256 env s (.resolveDispute admin id outcome) .unit s'.ledger := by
  simp only [resolveDispute, bind_eq_ok, rejectIf_eq_ok, exists_const, okOr_eq_ok, pure_eq_ok,
    not_not, ne_eq, disputeOutcome_eq_ok] at h
  obtain ⟨_, -, credit, stored, disputed, status, decided, rfl⟩ := h
  refine .restatused _ id credit status _ stored ?_ ?_
  · rw [disputed]
    rcases decided with ⟨rfl, rfl⟩ | ⟨rfl, rfl⟩
    · exact .restore admin id
    · exact .condemn admin id
  · intro impossible
    cases impossible

/-! ## Merging -/

@[simp] theorem agree_eq_ok {α : Type} [DecidableEq α] {seen seen' : Option α} {value : α} :
    agree seen value = .ok seen' ↔ seen' = some value ∧ (seen = none ∨ seen = some value) := by
  cases seen with
  | none => simp [agree, eq_comm]
  | some w =>
      by_cases same : value = w
      · simp [agree, same, eq_comm]
      · simp [agree, same, Ne.symm same]

/-- The accumulator holds the attributes of the credit. -/
structure MergeTotals.Describes (acc : MergeTotals) (credit : CreditMetadata) : Prop where
  projectId : acc.projectId = some credit.projectId
  vintageYear : acc.vintageYear = some credit.vintageYear
  issuer : acc.issuer = some credit.issuer
  methodology : acc.methodology = some credit.methodology
  geography : acc.geography = some credit.geography

/-- One iteration accepts an active credit of the caller that agrees with those before it. -/
theorem mergeOne_ok {ledger : Ledger} {caller : Address} {acc acc' : MergeTotals}
    {id : BytesN32} (h : mergeOne ledger caller acc id = .ok acc') :
    ∃ credit, ledger.getCredit id = some credit ∧ credit.owner = caller ∧
      credit.status = .active ∧ acc'.Describes credit ∧
      acc'.totalTonnes = acc.totalTonnes + ledger.tonnesOf id ∧
      ∀ earlier, acc.Describes earlier → acc'.Describes earlier := by
  simp only [mergeOne, bind_eq_ok, rejectIf_eq_ok, exists_const, okOr_eq_ok, pure_eq_ok, not_not,
    ne_eq, agree_eq_ok, checkedAddSigned_eq_ok] at h
  obtain ⟨credit, stored, owned, active, _, ⟨rfl, projectId⟩, _, ⟨rfl, vintageYear⟩, _,
    ⟨rfl, issuer⟩, _, ⟨rfl, methodology⟩, _, ⟨rfl, geography⟩, _, ⟨-, rfl⟩, rfl⟩ := h
  refine ⟨credit, stored, owned, active, ⟨rfl, rfl, rfl, rfl, rfl⟩, ?_, ?_⟩
  · simp [Ledger.tonnesOf, stored]
  · intro earlier described
    rw [described.projectId] at projectId
    rw [described.vintageYear] at vintageYear
    rw [described.issuer] at issuer
    rw [described.methodology] at methodology
    rw [described.geography] at geography
    constructor <;> simp_all

/-- The accumulation loop accepts active credits of the caller that all agree, and adds
their tonnes, once for each time an id is listed. -/
theorem mergeLoop_ok {ledger : Ledger} {caller : Address} {ids : List BytesN32}
    {acc : MergeTotals} (h : ids.foldlM (mergeOne ledger caller) MergeTotals.start = .ok acc) :
    acc.totalTonnes = (ids.map ledger.tonnesOf).sum ∧
      ∀ id ∈ ids, ∃ credit, ledger.getCredit id = some credit ∧ credit.owner = caller ∧
        credit.status = .active ∧ acc.Describes credit := by
  refine foldlM_ok_induct (fun ids acc => acc.totalTonnes = (ids.map ledger.tonnesOf).sum ∧
    ∀ id ∈ ids, ∃ credit, ledger.getCredit id = some credit ∧ credit.owner = caller ∧
      credit.status = .active ∧ acc.Describes credit) h ⟨rfl, by simp⟩ ?_
  intro earlier id acc acc' _ ⟨summed, accepted⟩ iterated
  obtain ⟨credit, stored, owned, active, described, added, kept⟩ := mergeOne_ok iterated
  refine ⟨?_, ?_⟩
  · rw [added, summed, List.map_append, List.sum_append]
    simp
  · intro other listed
    rcases List.mem_append.mp listed with before | last
    · obtain ⟨source, found, its, live, fits⟩ := accepted other before
      exact ⟨source, found, its, live, kept source fits⟩
    · obtain rfl := List.mem_singleton.mp last
      exact ⟨credit, stored, owned, active, described⟩

theorem mergeCredits_effect {caller : Address} {ids : List BytesN32} {mergedId : BytesN32}
    {s' : State} (h : mergeCredits sha256 env s caller ids = .ok (mergedId, s')) :
    Effect sha256 env s (.mergeCredits caller ids) (.id mergedId) s'.ledger := by
  simp only [mergeCredits, bind_eq_ok, rejectIf_eq_ok, Env.requireAuth_eq_ok, exists_const,
    pure_eq_ok, unwrap_eq_ok, Ledger.nextCreditId_eq_ok, Prod.exists, Prod.mk.injEq] at h
  obtain ⟨authorised, few, acc, looped, projectId, hproject, _, _, ⟨-, rfl, rfl⟩, issuer, hissuer,
    vintageYear, hvintage, methodology, hmethodology, geography, hgeography, ipfsHash, -, after,
    retired, rfl, rfl⟩ := h
  obtain ⟨summed, accepted⟩ := mergeLoop_ok looped
  refine .merged caller ids _ _ after authorised (by omega) rfl rfl summed ?_ rfl retired
  intro id listed
  obtain ⟨source, stored, owned, active, described⟩ := accepted id listed
  refine ⟨source, stored, owned, active, ?_⟩
  constructor
  · exact Option.some.inj (described.projectId.symm.trans hproject)
  · exact Option.some.inj (described.vintageYear.symm.trans hvintage)
  · exact Option.some.inj (described.issuer.symm.trans hissuer)
  · exact Option.some.inj (described.methodology.symm.trans hmethodology)
  · exact Option.some.inj (described.geography.symm.trans hgeography)

/-! ## All entry points -/

@[simp] theorem Result.unit_eq_ok {r : Result State} {ret : Ret} {s' : State} :
    Result.unit r = .ok (ret, s') ↔ r = .ok s' ∧ ret = .unit := by
  cases r <;> simp [Result.unit, eq_comm, and_comm]

@[simp] theorem Result.id_eq_ok {r : Result (BytesN32 × State)} {ret : Ret} {s' : State} :
    Result.id r = .ok (ret, s') ↔ ∃ id, r = .ok (id, s') ∧ ret = .id id := by
  cases r <;> simp [Result.id, eq_comm, and_comm, Prod.ext_iff]

@[simp] theorem Result.pair_eq_ok {r : Result ((BytesN32 × BytesN32) × State)} {ret : Ret}
    {s' : State} :
    Result.pair r = .ok (ret, s') ↔
      ∃ child1Id child2Id, r = .ok ((child1Id, child2Id), s') ∧
        ret = .pair child1Id child2Id := by
  cases r <;> simp [Result.pair, eq_comm, and_comm, Prod.ext_iff]

theorem exec_eq_ok {invocation : Invocation} {ret : Ret} {s' : State} :
    exec sha256 s invocation = .ok (ret, s') ↔
      s.roles.wasm = none ∧
        dispatch sha256 invocation.env s invocation.call = .ok (ret, s') := by
  simp [exec]

/-- A call outside the credit lifecycle leaves the ledger alone. -/
theorem dispatch_quiet {call : Call} {ret : Ret} {s' : State} (quiet : call.onCredits = false)
    (h : dispatch sha256 env s call = .ok (ret, s')) : s'.ledger = s.ledger := by
  cases call <;> simp only [Call.onCredits, Bool.true_eq_false] at quiet <;>
    simp only [dispatch, Result.unit_eq_ok, Result.id_eq_ok, initializeContract, pause, unpause,
      setPaused, registerVerifier, removeVerifier, registerIssuer, removeIssuer,
      registerMethodology, proposeAdmin, acceptAdmin, requireServiceAccess,
      configureVerifierServices, addVerifierService, removeVerifierService, registerProject,
      upgrade, createSession, bind_eq_ok, pure_eq_ok, Prod.mk.injEq] at h <;>
    grind

theorem exec_effect {invocation : Invocation} {ret : Ret} {s' : State}
    (h : exec sha256 s invocation = .ok (ret, s')) :
    Effect sha256 invocation.env s invocation.call ret s'.ledger := by
  obtain ⟨env, call⟩ := invocation
  have h := ((exec_eq_ok sha256 s).mp h).2
  by_cases quiet : call.onCredits = false
  · rw [dispatch_quiet sha256 env s quiet h]
    exact .unchanged call ret quiet
  cases call with
  | submitCredit issuer projectId vintageYear methodology geography tonnes ipfsHash nonce =>
      obtain ⟨id, success, rfl⟩ := Result.id_eq_ok.mp h
      exact submitCredit_effect sha256 env s success _ rfl
  | submitCreditWithSession sessionId issuer projectId vintageYear methodology geography tonnes
      ipfsHash nonce =>
      obtain ⟨id, success, rfl⟩ := Result.id_eq_ok.mp h
      obtain ⟨submitted, audit, submits, rfl⟩ := submitCreditWithSession_ok sha256 env s success
      have effect := submitCredit_effect sha256 env s submits (.submitCreditWithSession sessionId
        issuer projectId vintageYear methodology geography tonnes ipfsHash nonce) rfl
      exact effect
  | approveAndMint verifier id nonce =>
      obtain ⟨success, rfl⟩ := Result.unit_eq_ok.mp h
      exact approveAndMint_effect sha256 env s success
  | flagCredit verifier id reason nonce =>
      obtain ⟨success, rfl⟩ := Result.unit_eq_ok.mp h
      exact flagCredit_effect sha256 env s success
  | markRetired id =>
      obtain ⟨success, rfl⟩ := Result.unit_eq_ok.mp h
      exact markRetired_effect sha256 env s success
  | transferCredit sender recipient id nonce =>
      obtain ⟨success, rfl⟩ := Result.unit_eq_ok.mp h
      exact transferCredit_effect sha256 env s success
  | splitCredit caller id splitTonnes nonce =>
      obtain ⟨child1Id, child2Id, success, rfl⟩ := Result.pair_eq_ok.mp h
      exact splitCredit_effect sha256 env s success
  | expireCredit admin id =>
      obtain ⟨success, rfl⟩ := Result.unit_eq_ok.mp h
      exact expireCredit_effect sha256 env s success
  | disputeCredit disputer id evidence =>
      obtain ⟨success, rfl⟩ := Result.unit_eq_ok.mp h
      exact disputeCredit_effect sha256 env s success
  | resolveDispute admin id outcome =>
      obtain ⟨success, rfl⟩ := Result.unit_eq_ok.mp h
      exact resolveDispute_effect sha256 env s success
  | mergeCredits caller ids =>
      obtain ⟨id, success, rfl⟩ := Result.id_eq_ok.mp h
      exact mergeCredits_effect sha256 env s success
  | _ => exact absurd rfl quiet

section

variable {sha256 env s} {ret : Ret} {after : Ledger}

/-- An approval is the first one of its verifier, on a pending credit, and mints if it reaches
the threshold. -/
theorem Effect.of_approveAndMint {verifier : Address} {id : BytesN32} {nonce : Nat}
    (effect : Effect sha256 env s (.approveAndMint verifier id nonce) ret after) :
    ∃ credit, s.ledger.getCredit id = some credit ∧ credit.status = .pending ∧
      verifier ∈ s.roles.verifierSet ∧ verifier ∉ s.ledger.getCreditApprovals id ∧
      ((s.ledger.getCreditApprovals id).length + 1 < s.roles.getRequiredApprovals ∧
          after = (s.ledger.setCreditApprovals id
            (s.ledger.getCreditApprovals id ++ [verifier])).setCredit id credit ∨
        s.roles.getRequiredApprovals ≤ (s.ledger.getCreditApprovals id).length + 1 ∧
          after = ((s.ledger.setCreditApprovals id
            (s.ledger.getCreditApprovals id ++ [verifier])).setCredit id
              { credit with status := .active }).removeCreditApprovals id) := by
  cases effect with
  | approved _ _ _ credit authorised registered stored pending first short =>
      exact ⟨credit, stored, pending, registered, first, .inl ⟨short, rfl⟩⟩
  | minted _ _ _ credit authorised registered stored pending first enough =>
      exact ⟨credit, stored, pending, registered, first, .inr ⟨enough, rfl⟩⟩
  | unchanged _ _ quiet => cases quiet
  | submitted _ sub newId submission hasAdmin authorised positive unique newDerived =>
      cases submission
  | restatused _ target found status dispute there change trusted => cases change

theorem Effect.of_splitCredit {caller : Address} {id : BytesN32} {splitTonnes : Int} {nonce : Nat}
    (effect : Effect sha256 env s (.splitCredit caller id splitTonnes nonce) ret after) :
    ∃ original child1Id child2Id, ret = .pair child1Id child2Id ∧
      s.ledger.getCredit id = some original ∧
      child1Id = creditId sha256 (.bytes id) s.ledger.creditNonce ∧
      child2Id = creditId sha256 (.bytes id) (s.ledger.creditNonce + 1) ∧
      after = (((((s.ledger.advance 2).setCredit child1Id
        { original with tonnes := splitTonnes, owner := caller }).addCreditToProject
          original.projectId child1Id).setCredit child2Id
        { original with tonnes := original.tonnes - splitTonnes, owner := caller }
          ).addCreditToProject original.projectId child2Id).setCredit id
        { original with status := .retired } := by
  cases effect with
  | split _ _ _ _ original child1Id child2Id authorised stored owned positive proper derived1
      derived2 =>
      exact ⟨original, child1Id, child2Id, rfl, stored, derived1, derived2, rfl⟩
  | unchanged _ _ quiet => cases quiet
  | submitted _ sub newId submission hasAdmin authorised positive unique newDerived =>
      cases submission
  | restatused _ target found status dispute there change trusted => cases change

theorem Effect.of_mergeCredits {caller : Address} {ids : List BytesN32}
    (effect : Effect sha256 env s (.mergeCredits caller ids) ret after) :
    ∃ mergedId credit, ret = .id mergedId ∧ credit.status = .active ∧
      (∀ id ∈ ids, ∃ source, s.ledger.getCredit id = some source ∧ source.status = .active) ∧
      mergedId = creditId sha256 (.string credit.projectId) s.ledger.creditNonce ∧
      ids.foldlM retireOne (((s.ledger.advance 1).setCredit mergedId credit).addCreditToProject
        credit.projectId mergedId) = .ok after := by
  cases effect with
  | merged _ _ mergedId credit _ authorised several owner active tonnes sources derived retired =>
      refine ⟨mergedId, credit, rfl, active, ?_, derived, retired⟩
      intro id listed
      obtain ⟨source, stored, -, live, -⟩ := sources id listed
      exact ⟨source, stored, live⟩
  | unchanged _ _ quiet => cases quiet
  | submitted _ sub newId submission hasAdmin authorised positive unique newDerived =>
      cases submission
  | restatused _ target found status dispute there change trusted => cases change

end

/-- What every call but `initialize` keeps of the roles: the configuration, and
whether there is an admin. -/
structure Roles.Kept (roles roles' : Roles) : Prop where
  retirementContract : roles'.retirementContract = roles.retirementContract
  requiredApprovals : roles'.requiredApprovals = roles.requiredApprovals
  founded : roles.admin ≠ none → roles'.admin ≠ none
  unfounded : roles.admin = none ∧ roles.pendingAdmin = none →
    roles'.admin = none ∧ roles'.pendingAdmin = none

theorem Roles.kept_of_eq {roles roles' : Roles} (same : roles' = roles) : roles.Kept roles' := by
  subst same
  exact ⟨rfl, rfl, id, id⟩

/-- A call of the credit lifecycle leaves the roles alone. -/
theorem dispatch_roles {call : Call} {ret : Ret} {s' : State} (writes : call.onCredits = true)
    (h : dispatch sha256 env s call = .ok (ret, s')) : s'.roles = s.roles := by
  cases call <;> simp only [Call.onCredits, Bool.false_eq_true] at writes <;>
    simp only [dispatch, Result.unit_eq_ok, Result.id_eq_ok, Result.pair_eq_ok, submitCredit,
      submitCreditWithSession, approveAndMint, flagCredit, markRetired, transferCredit,
      splitCredit, expireCredit, disputeCredit, resolveDispute, mergeCredits, bind_eq_ok,
      pure_eq_ok, Prod.exists, Prod.mk.injEq, ite_eq_iff] at h <;>
    grind

theorem exec_roles {invocation : Invocation} {ret : Ret} {s' : State}
    (h : exec sha256 s invocation = .ok (ret, s'))
    (later : ∀ admin retirementContract requiredApprovals, invocation.call ≠
      .initializeContract admin retirementContract requiredApprovals) :
    s.roles.Kept s'.roles := by
  obtain ⟨env, call⟩ := invocation
  have h := ((exec_eq_ok sha256 s).mp h).2
  by_cases writes : call.onCredits = true
  · exact Roles.kept_of_eq (dispatch_roles sha256 env s writes h)
  cases call <;> simp only [Call.onCredits, not_true_eq_false] at writes <;>
    simp only [dispatch, Result.unit_eq_ok, Result.id_eq_ok, pause, unpause,
      setPaused, registerVerifier, removeVerifier, registerIssuer, removeIssuer,
      registerMethodology, proposeAdmin, acceptAdmin, requireServiceAccess, Roles.requireAdmin,
      configureVerifierServices, addVerifierService, removeVerifierService, registerProject,
      upgrade, createSession, bind_eq_ok, pure_eq_ok, Prod.mk.injEq, requireAdmin_eq_ok,
      okOr_eq_ok] at h
  all_goals first
    | exact absurd rfl (later _ _ _)
    | constructor <;> grind

theorem Roles.Kept.getRequiredApprovals {roles roles' : Roles} (kept : roles.Kept roles') :
    roles'.getRequiredApprovals = roles.getRequiredApprovals := by
  unfold Roles.getRequiredApprovals
  rw [kept.requiredApprovals]

/-- What a successful call does to the roles: it is the first `initialize`, or keeps them. -/
inductive RolesChange (call : Call) (s' : State) : Prop where
  | initialised (admin retirementContract : Address) (requiredApprovals : Nat)
      (named : call = .initializeContract admin retirementContract requiredApprovals)
      (fresh : s.roles.admin = none) (founded : s'.roles.admin = some admin)
      (trusted : s'.roles.retirementContract = some retirementContract)
      (positive : 0 < requiredApprovals)
      (threshold : s'.roles.getRequiredApprovals = requiredApprovals)
      (ledger : s'.ledger = s.ledger)
  | kept (later : ∀ admin retirementContract requiredApprovals,
        call ≠ .initializeContract admin retirementContract requiredApprovals)
      (kept : s.roles.Kept s'.roles)

theorem exec_roles_cases {invocation : Invocation} {ret : Ret} {s' : State}
    (h : exec sha256 s invocation = .ok (ret, s')) : RolesChange s invocation.call s' := by
  by_cases first : ∃ admin retirementContract requiredApprovals,
      invocation.call = .initializeContract admin retirementContract requiredApprovals
  · obtain ⟨admin, retirementContract, requiredApprovals, named⟩ := first
    have success := ((exec_eq_ok sha256 s).mp h).2
    rw [named] at success
    have success := (Result.unit_eq_ok.mp success).1
    simp only [initializeContract, bind_eq_ok, rejectIf_eq_ok, Env.requireAuth_eq_ok,
      exists_const, pure_eq_ok] at success
    obtain ⟨fresh, positive, -, rfl⟩ := success
    have fresh : s.roles.admin = none := by simpa [Roles.hasAdmin] using fresh
    exact .initialised admin retirementContract requiredApprovals named fresh rfl rfl
      (Nat.pos_of_ne_zero positive) rfl rfl
  · have later : ∀ admin retirementContract requiredApprovals,
        invocation.call ≠ .initializeContract admin retirementContract requiredApprovals :=
      fun admin retirementContract requiredApprovals named =>
        first ⟨admin, retirementContract, requiredApprovals, named⟩
    exact .kept later (exec_roles sha256 s h later)

end CarbonChain.Registry
