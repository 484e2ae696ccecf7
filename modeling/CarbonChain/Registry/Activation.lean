import CarbonChain.Registry.Approvals
import CarbonChain.Registry.Traps

/-!
# CreditRegistry: pending credits can be approved

A pending credit is no dead end. As long as the registry is open, any registered verifiers
who have not approved it yet, as many as are missing and in any order, make it active with
one call each (`contracts/credit_registry/src/lib.rs:410-454`): none of the calls before
the last one stops a later one, and no counter is in the way.
-/

namespace CarbonChain.Registry

variable {sha256 : Bytes → BytesN32}

/-- Registered verifiers who have not approved the credit, as many as are missing. -/
structure Missing (s : State) (id : BytesN32) (rest : List Address) : Prop where
  distinct : rest.Nodup
  registered : ∀ v ∈ rest, v ∈ s.roles.verifierSet
  first : ∀ v ∈ rest, v ∉ s.ledger.getCreditApprovals id
  missing : (s.ledger.getCreditApprovals id).length + rest.length = s.roles.getRequiredApprovals

/-- The verifiers `rest` are missing for the credit, and each of them can approve it with the
nonce shown. -/
structure Approvable (s : State) (id : BytesN32) (credit : CreditMetadata) (nonce : Address → Nat)
    (rest : List Address) : Prop extends Missing s id rest where
  current : s.roles.wasm = none
  unpaused : s.roles.paused = false
  stored : s.ledger.getCredit id = some credit
  pending : credit.status = .pending
  shown : ∀ v ∈ rest, s.getNonce v = nonce v
  room : ∀ v ∈ rest, nonce v + 1 < 2 ^ 64 ∧
    (s.verifiers.getVerifierReputation v).approvalCount + 1 < 2 ^ 64

variable {s : State} {id : BytesN32} {credit : CreditMetadata} {nonce : Address → Nat}
  {v : Address} {rest : List Address}

/-- Both branches of `approve_and_mint` return. -/
theorem ite_pure_eq_ok {condition : Prop} [Decidable condition] {a b c : State} :
    (if condition then (pure a : Result State) else pure b) = .ok c ↔
      (if condition then a else b) = c := by
  split <;> exact pure_eq_ok

theorem Approvable.succeeds (sha256 : Bytes → BytesN32)
    (approvable : Approvable s id credit nonce (v :: rest)) {env : Env}
    (signed : env.auth v = true) :
    ∃ s', exec sha256 s ⟨env, .approveAndMint v id (nonce v)⟩ = .ok (.unit, s') := by
  have listed : v ∈ v :: rest := List.mem_cons_self
  have registered : s.roles.isVerifier v = true := by
    simpa [Roles.isVerifier] using approvable.registered v listed
  have shown : nonceOf s.nonce v = nonce v := approvable.shown v listed
  obtain ⟨room, count⟩ := approvable.room v listed
  have success : ∃ s', approveAndMint env s v id (nonce v) = .ok s' := by
    simp only [approveAndMint, VerifierRecords.incrementApprovalCount, State.consumeNonce,
      bind_eq_ok, rejectIf_eq_ok, Env.requireAuth_eq_ok, okOr_eq_ok, consumeNonce_eq_ok,
      addUnsigned_eq_ok, pure_eq_ok, ite_pure_eq_ok, exists_const]
    exact ⟨_, by simp [approvable.unpaused], signed, by simp [registered], _,
      ⟨shown, by omega, rfl⟩, credit, approvable.stored, by simp [approvable.pending],
      by simpa using approvable.first v listed, _, ⟨_, ⟨count, rfl⟩, rfl⟩, rfl⟩
  obtain ⟨s', success⟩ := success
  refine ⟨s', (exec_eq_ok sha256 s).mpr ⟨approvable.current, ?_⟩⟩
  exact Result.unit_eq_ok.mpr ⟨success, rfl⟩

/-- An approval before the last one leaves the others able to approve. -/
theorem Approvable.step (approvable : Approvable s id credit nonce (v :: rest)) {env : Env}
    {s' : State} (h : exec sha256 s ⟨env, .approveAndMint v id (nonce v)⟩ = .ok (.unit, s'))
    (more : rest ≠ []) : Approvable s' id credit nonce rest := by
  have dispatched := ((exec_eq_ok sha256 s).mp h).2
  have roles : s'.roles = s.roles := dispatch_roles sha256 env s rfl dispatched
  obtain ⟨absent, distinct⟩ := List.nodup_cons.mp approvable.distinct
  have apart : ∀ w ∈ rest, w ≠ v := by
    rintro w listed rfl
    exact absent listed
  have missing := approvable.missing
  rw [List.length_cons] at missing
  have positive : 0 < rest.length := List.length_pos_iff.mpr more
  obtain ⟨found, stored, -, -, -, outcome⟩ := (exec_effect sha256 s h).of_approveAndMint
  obtain rfl : credit = found := Option.some.inj (approvable.stored.symm.trans stored)
  have written : s'.ledger = (s.ledger.setCreditApprovals id
      (s.ledger.getCreditApprovals id ++ [v])).setCredit id credit := by
    rcases outcome with ⟨-, written⟩ | ⟨enough, -⟩
    · exact written
    · omega
  have approvals : s'.ledger.getCreditApprovals id = s.ledger.getCreditApprovals id ++ [v] := by
    rw [written]
    simp
  refine ⟨⟨distinct, ?_, ?_, ?_⟩, ?_, ?_, ?_, approvable.pending, ?_, ?_⟩
  · intro w listed
    rw [roles]
    exact approvable.registered w (List.mem_cons_of_mem v listed)
  · intro w listed
    rw [approvals, List.mem_append, List.mem_singleton]
    rintro (before | same)
    · exact approvable.first w (List.mem_cons_of_mem v listed) before
    · exact apart w listed same
  · rw [approvals, List.length_append, List.length_singleton, roles]
    omega
  · rw [roles]
    exact approvable.current
  · rw [roles]
    exact approvable.unpaused
  · rw [written]
    simp
  · intro w listed
    have advanced := (exec_nonce h).2
    show nonceOf s'.nonce w = nonce w
    rw [advanced, nonceOf_insert, if_neg (apart w listed)]
    exact approvable.shown w (List.mem_cons_of_mem v listed)
  · intro w listed
    have stands := (dispatch_stands dispatched w).reputation
    rw [stands]
    have other : Call.approver (.approveAndMint v id (nonce v)) ≠ some w := by
      intro same
      exact apart w listed (Option.some.inj same).symm
    rw [if_neg other]
    exact approvable.room w (List.mem_cons_of_mem v listed)

/-- The last approval that is missing mints. -/
theorem Approvable.last (approvable : Approvable s id credit nonce [v]) {env : Env}
    {s' : State} (h : exec sha256 s ⟨env, .approveAndMint v id (nonce v)⟩ = .ok (.unit, s')) :
    s'.ledger.getCredit id = some { credit with status := .active } := by
  have missing := approvable.missing
  rw [List.length_singleton] at missing
  obtain ⟨found, stored, -, -, -, outcome⟩ := (exec_effect sha256 s h).of_approveAndMint
  obtain rfl : credit = found := Option.some.inj (approvable.stored.symm.trans stored)
  rcases outcome with ⟨short, -⟩ | ⟨-, written⟩
  · omega
  · rw [written]
    simp

/-! ## Runs -/

/-- One approval by each of the verifiers, under the transaction that it signs. -/
def approvalsBy (signs : Address → Env) (id : BytesN32) (nonce : Address → Nat)
    (verifiers : List Address) : List Invocation :=
  verifiers.map fun v => ⟨signs v, .approveAndMint v id (nonce v)⟩

theorem approvalsBy_append (signs : Address → Env) (first rest : List Address) :
    approvalsBy signs id nonce (first ++ rest) =
      approvalsBy signs id nonce first ++ approvalsBy signs id nonce rest :=
  List.map_append

/-- As long as some are missing, the approvals of the others succeed one after the other. -/
theorem Approvable.advance {inputs : List Invocation} {signs : Address → Env}
    {first : List Address}
    (approvable : Approvable ((machine sha256).state inputs) id credit nonce (first ++ rest))
    (signed : ∀ v, (signs v).auth v = true) (more : rest ≠ []) :
    Approvable ((machine sha256).state (inputs ++ approvalsBy signs id nonce first)) id credit nonce
        rest ∧
      ((machine sha256).log (inputs ++ approvalsBy signs id nonce first)).length =
        ((machine sha256).log inputs).length + first.length := by
  induction first generalizing inputs with
  | nil =>
      rw [approvalsBy, List.map_nil, List.append_nil]
      exact ⟨approvable, rfl⟩
  | cons v first ih =>
      obtain ⟨s', success⟩ := approvable.succeeds sha256 (signed v)
      obtain ⟨reached, logged⟩ := (machine sha256).snoc_of_ok success
      have next : inputs ++ approvalsBy signs id nonce (v :: first) =
          inputs ++ [⟨signs v, .approveAndMint v id (nonce v)⟩] ++
            approvalsBy signs id nonce first := by
        simp [approvalsBy]
      have later : Approvable ((machine sha256).state (inputs ++
          [⟨signs v, .approveAndMint v id (nonce v)⟩])) id credit nonce (first ++ rest) := by
        rw [reached]
        exact approvable.step success (List.append_ne_nil_of_right_ne_nil first more)
      obtain ⟨awaited, counted⟩ := ih later
      rw [next, counted, logged, List.length_append, List.length_singleton, List.length_cons]
      exact ⟨awaited, by omega⟩

/-- All of them together make the credit active. -/
theorem Approvable.run {inputs : List Invocation} {signs : Address → Env}
    (approvable : Approvable ((machine sha256).state inputs) id credit nonce rest)
    (signed : ∀ v, (signs v).auth v = true) (more : rest ≠ []) :
    ((machine sha256).log (inputs ++ approvalsBy signs id nonce rest)).length =
        ((machine sha256).log inputs).length + rest.length ∧
      ((machine sha256).state (inputs ++ approvalsBy signs id nonce rest)).ledger.getCredit id =
        some { credit with status := .active } := by
  obtain ⟨first, v, rfl⟩ : ∃ first v, rest = first ++ [v] := by
    rcases List.eq_nil_or_concat rest with none | ⟨first, v, split⟩
    · exact absurd none more
    · exact ⟨first, v, by rw [split, List.concat_eq_append]⟩
  obtain ⟨awaited, counted⟩ := approvable.advance signed (List.cons_ne_nil v [])
  obtain ⟨s', success⟩ := awaited.succeeds sha256 (signed v)
  obtain ⟨reached, logged⟩ := (machine sha256).snoc_of_ok success
  have last : approvalsBy signs id nonce [v] =
      [⟨signs v, .approveAndMint v id (nonce v)⟩] := rfl
  rw [approvalsBy_append, last, ← List.append_assoc, reached, logged]
  refine ⟨?_, awaited.last success⟩
  rw [List.length_append, counted, List.length_append]
  rfl

/-- Where enough verifiers are registered, some of them are missing. -/
theorem exists_missing {s : State} (distinct : s.roles.verifierSet.Nodup) {id : BytesN32}
    (short : (s.ledger.getCreditApprovals id).length < s.roles.getRequiredApprovals)
    (enough : s.roles.getRequiredApprovals ≤ s.roles.verifierSet.length) :
    ∃ rest, Missing s id rest := by
  let approvals := s.ledger.getCreditApprovals id
  let others := s.roles.verifierSet.filter (· ∉ approvals)
  have split : s.roles.verifierSet.toFinset.card ≤
      (s.roles.verifierSet.toFinset \ approvals.toFinset).card + approvals.toFinset.card :=
    Finset.card_le_card_sdiff_add_card
  have others_eq : s.roles.verifierSet.toFinset \ approvals.toFinset = others.toFinset := by
    ext v
    simp [others]
  have bound : approvals.toFinset.card ≤ approvals.length := List.toFinset_card_le approvals
  have plenty : s.roles.getRequiredApprovals - approvals.length ≤ others.length := by
    have sized : others.toFinset.card = others.length :=
      List.toFinset_card_of_nodup (distinct.filter _)
    rw [others_eq, List.toFinset_card_of_nodup distinct, sized] at split
    omega
  refine ⟨others.take (s.roles.getRequiredApprovals - approvals.length), ?_, ?_, ?_, ?_⟩
  · exact (distinct.filter _).sublist (List.take_sublist _ _)
  · intro v listed
    exact (List.mem_filter.mp (List.mem_of_mem_take listed)).1
  · intro v listed
    simpa using (List.mem_filter.mp (List.mem_of_mem_take listed)).2
  · rw [List.length_take, Nat.min_eq_left plenty]
    have short : approvals.length < s.roles.getRequiredApprovals := short
    show approvals.length + _ = _
    omega

/-- In every run of fewer than `2 ^ 64 - 1` successful calls that leaves the registry open and a
credit pending, any registered verifiers who have not approved it, as many as are missing for the
threshold, make it active by one approval each, in any order, and change nothing else of it. If
the threshold asks for no more verifiers than are registered, there are such verifiers. -/
theorem pending_activates (inj : Function.Injective sha256) (inputs : List Invocation)
    (short : ((machine sha256).log inputs).length < 2 ^ 64 - 1)
    (current : ((machine sha256).state inputs).roles.wasm = none)
    (unpaused : ((machine sha256).state inputs).roles.paused = false)
    (stored : ((machine sha256).state inputs).ledger.getCredit id = some credit)
    (pending : credit.status = .pending) {signs : Address → Env}
    (signed : ∀ v, (signs v).auth v = true) :
    (∀ rest, Missing ((machine sha256).state inputs) id rest →
      ((machine sha256).log (inputs ++ approvalsBy signs id
        ((machine sha256).state inputs).getNonce rest)).length =
          ((machine sha256).log inputs).length + rest.length ∧
      ((machine sha256).state (inputs ++ approvalsBy signs id
        ((machine sha256).state inputs).getNonce rest)).ledger.getCredit id =
          some { credit with status := .active }) ∧
    (((machine sha256).state inputs).roles.getRequiredApprovals ≤
        ((machine sha256).state inputs).roles.verifierSet.length →
      ∃ rest, Missing ((machine sha256).state inputs) id rest) := by
  have counted : ((machine sha256).state inputs).Counted ((machine sha256).log inputs).length :=
    counted inputs
  have awaited : ((machine sha256).state inputs).ledger.statusOf id = some .pending :=
    Ledger.statusOf_eq_some.mpr ⟨credit, stored, pending⟩
  obtain ⟨-, -, below⟩ := (counting_of_run inj inputs).pending id awaited
  refine ⟨?_, exists_missing counted.distinct below⟩
  intro rest missing
  apply Approvable.run ⟨missing, current, unpaused, stored, pending, fun _ _ => rfl, ?_⟩ signed
  · rintro rfl
    have reached := missing.missing
    rw [List.length_nil] at reached
    omega
  · intro v _
    have nonces : ((machine sha256).state inputs).getNonce v ≤ _ := counted.nonce v
    have approvals := counted.approvals v
    constructor <;> omega

namespace Sample

/-- A second verifier is registered, and a credit waits for both. -/
def awaitBoth : List Invocation :=
  setup 2 ++ [call admin (.registerVerifier admin issuer 3), submit 0]

/-- At the start of 2025 `a` signs. -/
def signs (a : Address) : Env := ⟨1735689600, fun b => b == a⟩

end Sample

set_option maxRecDepth 100000 in
/-- The second verifier and then the first one approve the credit. -/
theorem awaitBoth_activates :
    ((machine BytesN32.mk).state (Sample.awaitBoth ++ approvalsBy Sample.signs (Sample.credit 0)
      ((machine BytesN32.mk).state Sample.awaitBoth).getNonce
      [Sample.issuer, Sample.verifier])).ledger.statusOf (Sample.credit 0) = some .active := by
  have missing : Missing ((machine BytesN32.mk).state Sample.awaitBoth) (Sample.credit 0)
      [Sample.issuer, Sample.verifier] := ⟨by decide, by decide, by decide, by decide⟩
  have signed : ∀ v, (Sample.signs v).auth v = true := fun v => beq_self_eq_true v
  have active := ((pending_activates BytesN32.mk_injective Sample.awaitBoth (by decide) rfl rfl
    rfl rfl signed).1 [Sample.issuer, Sample.verifier] missing).2
  rw [Ledger.statusOf, active]
  rfl

end CarbonChain.Registry
