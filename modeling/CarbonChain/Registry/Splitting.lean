import CarbonChain.Registry.ProjectIndex

/-!
# CreditRegistry: what a split changes

`split_credit` (`contracts/credit_registry/src/lib.rs:545-595`) derives two ids from one
counter, stores a copy of the credit under each and writes the credit itself last. The new
ids are distinct and were not stored before, so no write meets another, and the storage
after a split is known to the last field.
-/

namespace CarbonChain.Registry

variable {sha256 : Bytes → BytesN32}

/-- The part of a credit that a split gives to `owner`. -/
def CreditMetadata.part (credit : CreditMetadata) (owner : Address) (tonnes : Int) :
    CreditMetadata :=
  { credit with tonnes, owner }

@[simp] theorem CreditMetadata.part_tonnes (credit : CreditMetadata) (owner : Address)
    (tonnes : Int) : (credit.part owner tonnes).tonnes = tonnes := rfl

/-- The ledger after a split of `original`. -/
def Ledger.split (ledger : Ledger) (caller : Address) (id : BytesN32) (splitTonnes : Int)
    (original : CreditMetadata) (child1Id child2Id : BytesN32) : Ledger :=
  (((((ledger.advance 2).setCredit child1Id
    (original.part caller splitTonnes)).addCreditToProject original.projectId child1Id).setCredit
    child2Id (original.part caller (original.tonnes - splitTonnes))).addCreditToProject
    original.projectId child2Id).setCredit id { original with status := .retired }

/-- What `split_credit` checks and writes. -/
theorem exec_splitCredit {env : Env} {s s' : State} {caller : Address} {id : BytesN32}
    {splitTonnes : Int} {nonce : Nat} {ret : Ret}
    (h : exec sha256 s ⟨env, .splitCredit caller id splitTonnes nonce⟩ = .ok (ret, s')) :
    s.roles.wasm = none ∧ s.getNonce caller = nonce ∧
      ∃ original, s.ledger.getCredit id = some original ∧ original.owner = caller ∧
        0 < splitTonnes ∧ splitTonnes < original.tonnes ∧
        ∃ child1Id child2Id, ret = .pair child1Id child2Id ∧
          child1Id = creditId sha256 (.bytes id) s.ledger.creditNonce ∧
          child2Id = creditId sha256 (.bytes id) (s.ledger.creditNonce + 1) ∧
          s' = { s with
            nonce := s.nonce.insert caller (nonce + 1)
            ledger := s.ledger.split caller id splitTonnes original child1Id child2Id } := by
  rcases (exec_eq_ok sha256 s).mp h with ⟨current, dispatched⟩
  simp only [dispatch, Result.pair_eq_ok, splitCredit, State.consumeNonce, bind_eq_ok,
    rejectIf_eq_ok, Env.requireAuth_eq_ok, exists_const, okOr_eq_ok, pure_eq_ok, not_not, ne_eq,
    consumeNonce_eq_ok, not_or, Ledger.nextCreditId_eq_ok, Prod.exists,
    Prod.mk.injEq] at dispatched
  rcases dispatched with ⟨child1Id, child2Id, ⟨-, -, _, ⟨numbered, -, rfl⟩, original, stored,
    owned, ⟨positive, proper⟩, _, _, ⟨-, rfl, rfl⟩, _, _, ⟨-, rfl, rfl⟩, ⟨rfl, rfl⟩, rfl⟩, rfl⟩
  refine ⟨current, numbered, original, stored, owned, by omega, by omega, _, _, rfl, rfl, rfl, ?_⟩
  rw [← numbered]
  rfl

/-- `s'` is `s` after a split of the credit `original`, stored under `id`, into `splitTonnes`
under `child1Id` and the rest under `child2Id`, and in nothing else. -/
structure SplitExact (s s' : State) (caller : Address) (id : BytesN32) (splitTonnes : Int)
    (original : CreditMetadata) (child1Id child2Id : BytesN32) : Prop where
  stored : s.ledger.getCredit id = some original
  owned : original.owner = caller
  positive : 0 < splitTonnes
  remaining : 0 < original.tonnes - splitTonnes
  siblings : child1Id ≠ child2Id
  new1 : s.ledger.getCredit child1Id = none
  new2 : s.ledger.getCredit child2Id = none
  child1 : s'.ledger.getCredit child1Id = some (original.part caller splitTonnes)
  child2 : s'.ledger.getCredit child2Id =
    some (original.part caller (original.tonnes - splitTonnes))
  parent : s'.ledger.getCredit id = some { original with status := .retired }
  others : ∀ other, other ≠ id → other ≠ child1Id → other ≠ child2Id →
    s'.ledger.getCredit other = s.ledger.getCredit other
  listed : ∀ projectId, s'.ledger.getCreditsByProject projectId =
    if projectId = original.projectId then
      s.ledger.getCreditsByProject projectId ++ [child1Id, child2Id]
    else s.ledger.getCreditsByProject projectId
  creditNonce : s'.ledger.creditNonce = s.ledger.creditNonce + 2
  nonce : ∀ address, s'.getNonce address =
    if address = caller then s.getNonce address + 1 else s.getNonce address
  -- apart from the four fields that the clauses above describe, the storage is the same
  rest : s' = { s with
    nonce := s'.nonce
    ledger := { s.ledger with
      creditNonce := s'.ledger.creditNonce
      credit := s'.ledger.credit
      projectCredits := s'.ledger.projectCredits } }

/-- Any other stored credit stays as it is. -/
theorem SplitExact.keeps {s s' : State} {caller : Address} {id child1Id child2Id : BytesN32}
    {splitTonnes : Int} {original : CreditMetadata}
    (split : SplitExact s s' caller id splitTonnes original child1Id child2Id)
    {other : BytesN32} {credit : CreditMetadata} (stored : s.ledger.getCredit other = some credit)
    (ne : other ≠ id) : s'.ledger.getCredit other = some credit := by
  have ne1 := (Ledger.ne_of_absent stored split.new1).symm
  have ne2 := (Ledger.ne_of_absent stored split.new2).symm
  rw [split.others other ne ne1 ne2]
  exact stored

/-- A successful split is exact where ids are derived. -/
theorem splitExact_of_exec (inj : Function.Injective sha256) {env : Env} {s s' : State}
    {caller : Address} {id child1Id child2Id : BytesN32} {splitTonnes : Int} {nonce : Nat}
    (derived : s.ledger.Derived sha256)
    (h : exec sha256 s ⟨env, .splitCredit caller id splitTonnes nonce⟩ =
      .ok (.pair child1Id child2Id, s')) :
    ∃ original, SplitExact s s' caller id splitTonnes original child1Id child2Id := by
  rcases exec_splitCredit h with ⟨-, numbered, original, stored, owned, positive, proper, _, _,
    same, derived1, derived2, rfl⟩
  cases same
  rcases derived.children inj derived1 derived2 with ⟨siblings, new1, new2⟩
  have ne1 := Ledger.ne_of_absent stored new1
  have ne2 := Ledger.ne_of_absent stored new2
  refine ⟨original, ?_⟩
  constructor
  case stored => exact stored
  case owned => exact owned
  case positive => exact positive
  case remaining => omega
  case siblings => exact siblings
  case new1 => exact new1
  case new2 => exact new2
  case child1 => simp [Ledger.split, ne1, siblings]
  case child2 => simp [Ledger.split, ne2]
  case parent => simp [Ledger.split]
  case others =>
    intro other ne ne1 ne2
    simp [Ledger.split, ne, ne1, ne2]
  case listed =>
    intro projectId
    by_cases its : projectId = original.projectId
    · simp [Ledger.split, its]
    · simp [Ledger.split, its, Ne.symm its]
  case creditNonce => rfl
  case nonce =>
    intro address
    show nonceOf (s.nonce.insert caller (nonce + 1)) address = _
    rw [nonceOf_insert, ← numbered]
    split
    · next same => rw [same]
    · rfl
  case rest => rfl

/-- The list of a project has only stored credits. -/
theorem ProjectsIndexed.listed_stored {log : List (Event State Invocation Ret)} {s : State}
    (indexed : ProjectsIndexed sha256 log s) {projectId : String} {id : BytesN32}
    (listed : id ∈ s.ledger.getCreditsByProject projectId) : s.ledger.getCredit id ≠ none := by
  rw [indexed.listed] at listed
  exact (indexed.stored id).mpr (List.mem_of_mem_filter listed)

/-- A split is exact: in every reachable state a successful split retires the credit, stores
its two parts under new ids and lists these once in the project of the credit, advances the
nonce of the caller by one and the counter by two, and changes nothing else. -/
theorem split_credit_exact (inj : Function.Injective sha256) (inputs : List Invocation)
    {env : Env} {s' : State} {caller : Address} {id child1Id child2Id : BytesN32}
    {splitTonnes : Int} {nonce : Nat}
    (h : exec sha256 ((machine sha256).state inputs)
      ⟨env, .splitCredit caller id splitTonnes nonce⟩ = .ok (.pair child1Id child2Id, s')) :
    ∃ original, SplitExact ((machine sha256).state inputs) s' caller id splitTonnes original
        child1Id child2Id ∧
      ∀ projectId,
        child1Id ∉ ((machine sha256).state inputs).ledger.getCreditsByProject projectId ∧
        child2Id ∉ ((machine sha256).state inputs).ledger.getCreditsByProject projectId := by
  have indexed := projectsIndexed inj inputs
  rcases splitExact_of_exec inj indexed.derived h with ⟨original, split⟩
  refine ⟨original, split, ?_⟩
  intro projectId
  constructor
  · exact fun listed => indexed.listed_stored listed split.new1
  · exact fun listed => indexed.listed_stored listed split.new2

set_option maxRecDepth 100000 in
/-- Half of the sample credit is split off. -/
theorem approved_split_exact :
    ∃ s' original, SplitExact ((machine BytesN32.mk).state Sample.approve) s' Sample.issuer
      (Sample.credit 0) 500000 original (creditId BytesN32.mk (.bytes (Sample.credit 0)) 1)
      (creditId BytesN32.mk (.bytes (Sample.credit 0)) 2) := by
  obtain ⟨s', success⟩ : ∃ s', exec BytesN32.mk ((machine BytesN32.mk).state Sample.approve)
      (Sample.call Sample.issuer (.splitCredit Sample.issuer (Sample.credit 0) 500000 1)) =
        .ok (.pair (creditId BytesN32.mk (.bytes (Sample.credit 0)) 1)
          (creditId BytesN32.mk (.bytes (Sample.credit 0)) 2), s') :=
    ⟨_, rfl⟩
  rcases split_credit_exact BytesN32.mk_injective Sample.approve success with
    ⟨original, split, -⟩
  exact ⟨s', original, split⟩

end CarbonChain.Registry
