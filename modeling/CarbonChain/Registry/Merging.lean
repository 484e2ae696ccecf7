import CarbonChain.Registry.Pausing
import CarbonChain.Registry.Splitting
import CarbonChain.Registry.Tonnes

/-!
# CreditRegistry: merging back what was split

A split (`contracts/credit_registry/src/lib.rs:545-595`) copies every attribute of a credit
but the amount, and a merge (`:850-953`) asks its sources to agree on these attributes and
adds their amounts up with a checked addition. So the leaves of a tree of splits, in any
order, merge into a credit like the one that was split first: the partial sums of positive
amounts stay below the amount of that credit, which fits.

The document link is the one attribute that a merge neither compares nor combines. It takes the
link of the source it reads last, so the order of the sources shows there, and only there.
-/

namespace CarbonChain.Registry

variable {sha256 : Bytes → BytesN32}

/-! ## Amounts fit -/

/-- Every stored amount fits its field. -/
def Ledger.Fits (ledger : Ledger) : Prop :=
  ∀ id credit, ledger.getCredit id = some credit → FitsSigned 128 credit.tonnes

theorem fitsSigned_of_le {a b : Int} (nonneg : 0 ≤ a) (le : a ≤ b) (fits : FitsSigned 128 b) :
    FitsSigned 128 a := by
  unfold FitsSigned at *
  omega

theorem submitCredit_bounded {env : Env} {s s' : State} {sub : Submission} {id : BytesN32}
    (h : submitCredit sha256 env s sub.issuer sub.projectId sub.vintageYear sub.methodology
      sub.geography sub.tonnes sub.ipfsHash sub.nonce = .ok (id, s')) :
    sub.tonnes ≤ 1000000000000000 := by
  simp only [submitCredit, bind_eq_ok, rejectIf_eq_ok, exists_const] at h
  rcases h with ⟨-, -, _, -, _, -, -, -, -, -, bounded, -⟩
  omega

theorem submission_bounded {env : Env} {s s' : State} {call : Call} {ret : Ret}
    {sub : Submission} (submission : call.submission = some sub)
    (h : exec sha256 s ⟨env, call⟩ = .ok (ret, s')) : sub.tonnes ≤ 1000000000000000 := by
  have dispatched := ((exec_eq_ok sha256 s).mp h).2
  cases call with
  | submitCredit issuer projectId vintageYear methodology geography tonnes ipfsHash nonce =>
      rcases Result.id_eq_ok.mp dispatched with ⟨id, success, -⟩
      cases submission
      exact submitCredit_bounded success
  | submitCreditWithSession sessionId issuer projectId vintageYear methodology geography tonnes
      ipfsHash nonce =>
      rcases Result.id_eq_ok.mp dispatched with ⟨id, success, -⟩
      rcases submitCreditWithSession_ok sha256 env s success with ⟨submitted, audit, submits, -⟩
      cases submission
      exact submitCredit_bounded submits
  | _ => cases submission

theorem Ledger.Fits.exec (inj : Function.Injective sha256) {env : Env} {s s' : State}
    {call : Call} {ret : Ret} (derived : s.ledger.Derived sha256) (fits : s.ledger.Fits)
    (h : exec sha256 s ⟨env, call⟩ = .ok (ret, s')) : s'.ledger.Fits := by
  intro id credit stored
  have effect := exec_effect sha256 s h
  cases known : s.ledger.getCredit id with
  | some before =>
      rcases effect.evolves inj derived known with ⟨credit', there, evolves⟩
      rw [Option.some.inj (stored.symm.trans there), evolves.constant.2]
      exact fits id before known
  | none =>
      cases (effect.created known stored).1 with
      | submitted sub submission hasAdmin positive returned =>
          have bounded := submission_bounded submission h
          exact fitsSigned_of_le (Int.le_of_lt positive) bounded (by decide)
      | child caller parent child1Id child2Id splitTonnes part nonce original named returned
          isChild there owned positive =>
          subst named returned
          rcases splitExact_of_exec inj derived h with ⟨whole, split⟩
          have its := fits parent whole split.stored
          have less := split.positive
          have rest := split.remaining
          rcases isChild with rfl | rfl
          · rw [Option.some.inj (stored.symm.trans split.child1)]
            rw [CreditMetadata.part_tonnes]
            exact fitsSigned_of_le (Int.le_of_lt less) (by omega) its
          · rw [Option.some.inj (stored.symm.trans split.child2)]
            rw [CreditMetadata.part_tonnes]
            exact fitsSigned_of_le (Int.le_of_lt rest) (by omega) its
      | merged caller ids credit named returned several active tonnes sources =>
          subst named
          have merges := mergeCredits_succeeds.mp ⟨_, h⟩
          rw [tonnes]
          exact merges.fits ids [] (List.append_nil ids).symm

/-- Ids are derived and amounts are positive and fit their fields, in every reachable state. -/
theorem amounts_of_run (inj : Function.Injective sha256) (inputs : List Invocation) :
    let ledger := ((machine sha256).state inputs).ledger
    ledger.Derived sha256 ∧ ledger.Positive ∧ ledger.Fits := by
  apply (machine sha256).invariant
    (fun s => s.ledger.Derived sha256 ∧ s.ledger.Positive ∧ s.ledger.Fits)
  · refine ⟨derived_init, ?_, ?_⟩ <;> intro id credit stored <;> cases stored
  · intro event inv commits
    rcases inv with ⟨derived, positive, fits⟩
    have effect := exec_effect sha256 event.pre commits
    exact ⟨effect.derived derived, effect.positive inj derived positive,
      fits.exec inj derived commits⟩

/-! ## Trees of splits -/

/-- `leaves` and `inner` are the leaves and the inner nodes of a tree of splits that `owner`
makes one after the other, from the credit `root` of the storage `s` on. -/
inductive SplitTree (sha256 : Bytes → BytesN32) (owner : Address) (s : State) (root : BytesN32) :
    (leaves inner : List BytesN32) → State → Prop where
  | first (env : Env) (splitTonnes : Int) (nonce : Nat) (child1Id child2Id : BytesN32)
      (s' : State) (success : exec sha256 s ⟨env, .splitCredit owner root splitTonnes nonce⟩ =
        .ok (.pair child1Id child2Id, s')) :
      SplitTree sha256 owner s root [child1Id, child2Id] [root] s'
  | next (before after inner : List BytesN32) (id : BytesN32) (s' : State)
      (tree : SplitTree sha256 owner s root (before ++ id :: after) inner s') (env : Env)
      (splitTonnes : Int) (nonce : Nat) (child1Id child2Id : BytesN32) (s'' : State)
      (success : exec sha256 s' ⟨env, .splitCredit owner id splitTonnes nonce⟩ =
        .ok (.pair child1Id child2Id, s'')) :
      SplitTree sha256 owner s root (before ++ child1Id :: child2Id :: after) (id :: inner) s''

/-- The leaves hold the amount of `whole` in parts and agree with it otherwise, and the inner
nodes are retired. -/
structure Parts (sha256 : Bytes → BytesN32) (whole : CreditMetadata) (leaves inner : List BytesN32)
    (s : State) : Prop where
  derived : s.ledger.Derived sha256
  distinct : leaves.Nodup
  leaf : ∀ id ∈ leaves,
    s.ledger.getCredit id = some { whole with tonnes := s.ledger.tonnesOf id }
  positive : ∀ id ∈ leaves, 0 < s.ledger.tonnesOf id
  sum : (leaves.map s.ledger.tonnesOf).sum = whole.tonnes
  retired : ∀ id ∈ inner, s.ledger.statusOf id = some .retired

theorem Ledger.tonnesOf_of_stored {ledger : Ledger} {id : BytesN32} {credit : CreditMetadata}
    (stored : ledger.getCredit id = some credit) : ledger.tonnesOf id = credit.tonnes := by
  unfold tonnesOf
  rw [stored]
  rfl

/-- A credit is the one part of itself. -/
theorem parts_root {s : State} {root : BytesN32} {whole : CreditMetadata}
    (derived : s.ledger.Derived sha256) (positive : s.ledger.Positive)
    (stored : s.ledger.getCredit root = some whole) : Parts sha256 whole [root] [] s := by
  have tonnes := Ledger.tonnesOf_of_stored stored
  refine ⟨derived, List.nodup_singleton root, ?_, ?_, ?_, ?_⟩
  · intro id listed
    rw [List.mem_singleton.mp listed, tonnes]
    exact stored
  · intro id listed
    rw [List.mem_singleton.mp listed, tonnes]
    exact positive root whole stored
  · simp [tonnes]
  · intro id listed
    cases listed

/-- The order of the leaves does not matter. -/
theorem Parts.perm {whole : CreditMetadata} {leaves leaves' inner : List BytesN32} {s : State}
    (parts : Parts sha256 whole leaves inner s) (order : leaves'.Perm leaves) :
    Parts sha256 whole leaves' inner s := by
  refine ⟨parts.derived, order.nodup_iff.mpr parts.distinct, ?_, ?_, ?_, parts.retired⟩
  · exact fun id listed => parts.leaf id (order.mem_iff.mp listed)
  · exact fun id listed => parts.positive id (order.mem_iff.mp listed)
  · rw [(order.map s.ledger.tonnesOf).sum_eq]
    exact parts.sum

section Split

variable {whole original : CreditMetadata} {rest inner : List BytesN32}
  {id child1Id child2Id : BytesN32} {s s' : State} {owner : Address} {splitTonnes : Int}

/-- The children of a leaf are parts like it. -/
theorem Parts.children (parts : Parts sha256 whole (id :: rest) inner s)
    (split : SplitExact s s' owner id splitTonnes original child1Id child2Id) :
    s'.ledger.getCredit child1Id = some { whole with tonnes := splitTonnes } ∧
      s'.ledger.getCredit child2Id =
        some { whole with tonnes := s.ledger.tonnesOf id - splitTonnes } := by
  have itself : original = { whole with tonnes := s.ledger.tonnesOf id } :=
    Option.some.inj (split.stored.symm.trans (parts.leaf id List.mem_cons_self))
  have part : ∀ tonnes, original.part owner tonnes = { whole with tonnes } := by
    intro tonnes
    rw [← split.owned, itself]
    rfl
  have child2 := split.child2
  rw [part, itself] at child2
  refine ⟨?_, child2⟩
  rw [split.child1, part]

/-- The other leaves stay, and are none of the children. -/
theorem Parts.kept (parts : Parts sha256 whole (id :: rest) inner s)
    (split : SplitExact s s' owner id splitTonnes original child1Id child2Id)
    {other : BytesN32} (listed : other ∈ rest) :
    s'.ledger.getCredit other = some { whole with tonnes := s.ledger.tonnesOf other } ∧
      child1Id ≠ other ∧ child2Id ≠ other := by
  have stored := parts.leaf other (List.mem_cons_of_mem id listed)
  refine ⟨?_, Ledger.ne_of_absent stored split.new1, Ledger.ne_of_absent stored split.new2⟩
  apply split.keeps stored
  rintro rfl
  exact (List.nodup_cons.mp parts.distinct).1 listed

/-- Splitting a leaf puts its two parts in its place. -/
theorem Parts.split (inj : Function.Injective sha256)
    (parts : Parts sha256 whole (id :: rest) inner s) {env : Env} {nonce : Nat}
    (h : exec sha256 s ⟨env, .splitCredit owner id splitTonnes nonce⟩ =
      .ok (.pair child1Id child2Id, s')) :
    Parts sha256 whole (child1Id :: child2Id :: rest) (id :: inner) s' := by
  have effect := exec_effect sha256 s h
  rcases splitExact_of_exec inj parts.derived h with ⟨original, split⟩
  rcases parts.children split with ⟨child1, child2⟩
  have amount : s.ledger.tonnesOf id = original.tonnes := Ledger.tonnesOf_of_stored split.stored
  have tonnes1 : s'.ledger.tonnesOf child1Id = splitTonnes := Ledger.tonnesOf_of_stored child1
  have tonnes2 : s'.ledger.tonnesOf child2Id = s.ledger.tonnesOf id - splitTonnes :=
    Ledger.tonnesOf_of_stored child2
  have tonnes : ∀ other ∈ rest, s'.ledger.tonnesOf other = s.ledger.tonnesOf other :=
    fun other listed => Ledger.tonnesOf_of_stored (parts.kept split listed).1
  refine ⟨effect.derived parts.derived, ?_, ?_, ?_, ?_, ?_⟩
  · rw [List.nodup_cons, List.nodup_cons, List.mem_cons]
    refine ⟨?_, ?_, (List.nodup_cons.mp parts.distinct).2⟩
    · rintro (same | listed)
      · exact split.siblings same
      · exact (parts.kept split listed).2.1 rfl
    · exact fun listed => (parts.kept split listed).2.2 rfl
  · rw [List.forall_mem_cons, List.forall_mem_cons, tonnes1, tonnes2]
    refine ⟨child1, child2, ?_⟩
    intro other listed
    rw [tonnes other listed]
    exact (parts.kept split listed).1
  · rw [List.forall_mem_cons, List.forall_mem_cons, tonnes1, tonnes2, amount]
    refine ⟨split.positive, split.remaining, ?_⟩
    intro other listed
    rw [tonnes other listed]
    exact parts.positive other (List.mem_cons_of_mem id listed)
  · have total := parts.sum
    rw [List.map_cons, List.sum_cons] at total
    rw [List.map_cons, List.map_cons, List.sum_cons, List.sum_cons, tonnes1, tonnes2,
      List.map_congr_left tonnes]
    omega
  · rw [List.forall_mem_cons]
    refine ⟨Ledger.statusOf_of_stored split.parent, ?_⟩
    exact fun other earlier => effect.stays_retired inj parts.derived (parts.retired other earlier)

end Split

namespace SplitTree

variable {owner : Address} {s s' : State} {root : BytesN32} {leaves inner : List BytesN32}

/-- A tree of splits leaves the parts of its root. -/
theorem parts (inj : Function.Injective sha256) {whole : CreditMetadata}
    (tree : SplitTree sha256 owner s root leaves inner s')
    (start : Parts sha256 whole [root] [] s) : Parts sha256 whole leaves inner s' := by
  induction tree with
  | first env splitTonnes nonce child1Id child2Id s' success => exact start.split inj success
  | next before after inner id s' tree env splitTonnes nonce child1Id child2Id s'' success ih =>
      have split := (ih.perm List.perm_middle.symm).split inj success
      apply split.perm
      exact List.perm_middle.trans (List.perm_middle.cons child1Id)

theorem several (tree : SplitTree sha256 owner s root leaves inner s') : 2 ≤ leaves.length := by
  induction tree with
  | first env splitTonnes nonce child1Id child2Id s' success => exact le_refl 2
  | next before after inner id s' tree env splitTonnes nonce child1Id child2Id s'' success ih =>
      simp only [List.length_append, List.length_cons] at ih ⊢
      omega

theorem root_mem (tree : SplitTree sha256 owner s root leaves inner s') : root ∈ inner := by
  induction tree with
  | first env splitTonnes nonce child1Id child2Id s' success => exact List.mem_cons_self
  | next before after inner id s' tree env splitTonnes nonce child1Id child2Id s'' success ih =>
      exact List.mem_cons_of_mem id ih

/-- The contract still runs this code. -/
theorem current (tree : SplitTree sha256 owner s root leaves inner s') :
    s'.roles.wasm = none := by
  cases tree with
  | first env splitTonnes nonce child1Id child2Id s' success =>
      rcases exec_splitCredit success with ⟨current, -, original, -, -, -, -, _, _, -, -, -, rfl⟩
      exact current
  | next before after inner id s₁ tree env splitTonnes nonce child1Id child2Id s'' success =>
      rcases exec_splitCredit success with ⟨current, -, original, -, -, -, -, _, _, -, -, -, rfl⟩
      exact current

end SplitTree

/-! ## Merging the leaves -/

/-- Where no amount is negative, the partial sums fit if the whole sum does. -/
theorem fits_prefix {ledger : Ledger} {first rest : List BytesN32}
    (nonneg : ∀ id ∈ first ++ rest, 0 ≤ ledger.tonnesOf id)
    (fits : FitsSigned 128 ((first ++ rest).map ledger.tonnesOf).sum) :
    FitsSigned 128 (first.map ledger.tonnesOf).sum := by
  have part : ∀ ids : List BytesN32, (∀ id ∈ ids, id ∈ first ++ rest) →
      0 ≤ (ids.map ledger.tonnesOf).sum := by
    intro ids listed
    apply List.sum_nonneg
    intro amount given
    rcases List.mem_map.mp given with ⟨id, member, rfl⟩
    exact nonneg id (listed id member)
  have below := part first fun id member => List.mem_append_left rest member
  have above := part rest fun id member => List.mem_append_right first member
  rw [List.map_append, List.sum_append] at fits
  exact fitsSigned_of_le below (by omega) fits

/-- The parts of an active credit can be merged, in any order. -/
theorem Parts.merges {whole : CreditMetadata} {ids inner : List BytesN32} {s : State}
    (parts : Parts sha256 whole ids inner s) (active : whole.status = .active)
    (fits : FitsSigned 128 whole.tonnes) (current : s.roles.wasm = none) {env : Env}
    (authorised : env.auth whole.owner = true) (several : 2 ≤ ids.length)
    (room : s.ledger.creditNonce + 1 < 2 ^ 64) : Merges env s whole.owner ids := by
  refine ⟨current, authorised, several, ⟨whole, ?_⟩, ?_, room⟩
  · intro id listed
    exact ⟨_, parts.leaf id listed, rfl, active, ⟨rfl, rfl, rfl, rfl, rfl⟩⟩
  · rintro first rest rfl
    apply fits_prefix fun id member => Int.le_of_lt (parts.positive id member)
    rw [parts.sum]
    exact fits

/-- The accumulator has the document of the source that was read last. -/
theorem mergeLoop_ipfsHash {ledger : Ledger} {caller : Address} {ids : List BytesN32}
    {acc : MergeTotals} (h : ids.foldlM (mergeOne ledger caller) MergeTotals.start = .ok acc) :
    ∀ id ∈ ids.getLast?, ∃ source, ledger.getCredit id = some source ∧
      acc.ipfsHash = some source.ipfsHash := by
  refine foldlM_ok_induct (fun ids acc => ∀ id ∈ ids.getLast?, ∃ source,
    ledger.getCredit id = some source ∧ acc.ipfsHash = some source.ipfsHash) h ?_ ?_
  · intro id last
    cases last
  · intro earlier id acc acc' _ _ iterated other last
    rw [List.getLast?_concat] at last
    rw [← Option.some.inj last]
    simp only [mergeOne, bind_eq_ok, okOr_eq_ok, pure_eq_ok] at iterated
    rcases iterated with ⟨source, stored, _, -, _, -, _, -, _, -, _, -, _, -, _, -, _, -, rfl⟩
    exact ⟨source, stored, rfl⟩

/-- What `merge_credits` stores. -/
theorem exec_mergeCredits {env : Env} {s s' : State} {caller : Address} {ids : List BytesN32}
    {ret : Ret} (h : exec sha256 s ⟨env, .mergeCredits caller ids⟩ = .ok (ret, s')) :
    ∃ mergedId merged, ret = .id mergedId ∧
      mergedId = creditId sha256 (.string merged.projectId) s.ledger.creditNonce ∧
      merged.owner = caller ∧ merged.status = .active ∧ merged.issuedAt = env.timestamp ∧
      merged.tonnes = (ids.map s.ledger.tonnesOf).sum ∧
      (∀ id ∈ ids, ∃ source, s.ledger.getCredit id = some source ∧ SameLot source merged) ∧
      (∀ id ∈ ids.getLast?, ∃ source, s.ledger.getCredit id = some source ∧
        source.ipfsHash = merged.ipfsHash) ∧
      ids.foldlM retireOne (((s.ledger.advance 1).setCredit mergedId merged).addCreditToProject
        merged.projectId mergedId) = .ok s'.ledger := by
  have dispatched := ((exec_eq_ok sha256 s).mp h).2
  rcases Result.id_eq_ok.mp dispatched with ⟨mergedId, success, rfl⟩
  simp only [mergeCredits, bind_eq_ok, pure_eq_ok, unwrap_eq_ok, Ledger.nextCreditId_eq_ok,
    Prod.exists, Prod.mk.injEq] at success
  rcases success with ⟨_, -, _, -, acc, looped, projectId, hproject, _, _, ⟨-, rfl, rfl⟩, issuer,
    hissuer, vintageYear, hvintage, methodology, hmethodology, geography, hgeography, ipfsHash,
    hashed, after, retired, rfl, rfl⟩
  rcases mergeLoop_ok looped with ⟨summed, accepted⟩
  refine ⟨_, _, rfl, rfl, rfl, rfl, rfl, summed, ?_, ?_, retired⟩
  · intro id listed
    rcases accepted id listed with ⟨source, stored, -, -, described⟩
    refine ⟨source, stored, ?_⟩
    constructor
    · exact Option.some.inj (described.projectId.symm.trans hproject)
    · exact Option.some.inj (described.vintageYear.symm.trans hvintage)
    · exact Option.some.inj (described.issuer.symm.trans hissuer)
    · exact Option.some.inj (described.methodology.symm.trans hmethodology)
    · exact Option.some.inj (described.geography.symm.trans hgeography)
  · intro id last
    rcases mergeLoop_ipfsHash looped id last with ⟨source, stored, its⟩
    exact ⟨source, stored, Option.some.inj (its.symm.trans hashed)⟩

/-- The document link of the credit that is listed last. -/
def Ledger.lastDocument (ledger : Ledger) (ids : List BytesN32) : Option String :=
  (ids.getLast?.bind ledger.getCredit).map CreditMetadata.ipfsHash

/-- What a merge leaves behind: the merged credit, and the sources retired. -/
structure Merged (sha256 : Bytes → BytesN32) (env : Env) (s s' : State) (caller : Address)
    (ids : List BytesN32) (mergedId : BytesN32) (merged : CreditMetadata) : Prop where
  derived : mergedId = creditId sha256 (.string merged.projectId) s.ledger.creditNonce
  owner : merged.owner = caller
  status : merged.status = .active
  issuedAt : merged.issuedAt = env.timestamp
  tonnes : merged.tonnes = (ids.map s.ledger.tonnesOf).sum
  sources : ∀ id ∈ ids, ∃ source, s.ledger.getCredit id = some source ∧ SameLot source merged
  document : s.ledger.lastDocument ids = some merged.ipfsHash
  several : 2 ≤ ids.length
  absent : s.ledger.getCredit mergedId = none
  stored : s'.ledger.getCredit mergedId = some merged
  others : ∀ id, id ≠ mergedId → s'.ledger.getCredit id =
    if id ∈ ids then (s.ledger.getCredit id).map ({ · with status := .retired })
    else s.ledger.getCredit id

theorem merged_of_exec (inj : Function.Injective sha256) {env : Env} {s s' : State}
    {caller : Address} {ids : List BytesN32} {ret : Ret} (derived : s.ledger.Derived sha256)
    (h : exec sha256 s ⟨env, .mergeCredits caller ids⟩ = .ok (ret, s')) :
    ∃ mergedId merged, ret = .id mergedId ∧
      Merged sha256 env s s' caller ids mergedId merged := by
  have several := (mergeCredits_succeeds.mp ⟨_, h⟩).several
  rcases exec_mergeCredits h with ⟨mergedId, merged, rfl, newDerived, owner, status, issuedAt,
    tonnes, sources, hashed, looped⟩
  have loop := retireLoop_ok looped
  have absent := derived.next inj newDerived
  have unlisted : mergedId ∉ ids := by
    intro listed
    rcases sources mergedId listed with ⟨source, stored, -⟩
    exact Ledger.ne_of_absent stored absent rfl
  have nonempty : ids ≠ [] := by
    rintro rfl
    exact absurd several (by decide)
  have last := List.getLast?_eq_some_getLast nonempty
  rcases hashed _ last with ⟨source, stored, hash⟩
  refine ⟨mergedId, merged, rfl, newDerived, owner, status, issuedAt, tonnes, sources, ?_,
    several, absent, ?_, ?_⟩
  · unfold Ledger.lastDocument
    rw [last, Option.bind_some, stored, Option.map_some, hash]
  · rw [loop.getCredit, if_neg unlisted]
    simp
  · intro id ne
    rw [loop.getCredit]
    simp [ne]

/-- Merging the parts of a credit gives a credit like it, and retires them. -/
theorem Parts.merged (inj : Function.Injective sha256) {whole : CreditMetadata}
    {ids inner : List BytesN32} {s s' : State} (parts : Parts sha256 whole ids inner s)
    (active : whole.status = .active) {env : Env} {ret : Ret}
    (h : exec sha256 s ⟨env, .mergeCredits whole.owner ids⟩ = .ok (ret, s')) :
    ∃ mergedId, ret = .id mergedId ∧
      s'.ledger.getCredit mergedId = some { whole with issuedAt := env.timestamp } ∧
      ∀ id, id ∈ ids ∨ id ∈ inner → s'.ledger.statusOf id = some .retired := by
  have effect := exec_effect sha256 s h
  rcases merged_of_exec inj parts.derived h with ⟨mergedId, merged, rfl, done⟩
  refine ⟨mergedId, rfl, ?_, ?_⟩
  · have nonempty : ids ≠ [] := by
      rintro rfl
      exact absurd done.several (by decide)
    have last := List.getLast?_eq_some_getLast nonempty
    have listed := List.getLast_mem nonempty
    rcases done.sources _ listed with ⟨source, stored, same⟩
    have hash := done.document
    unfold Ledger.lastDocument at hash
    rw [last, Option.bind_some, parts.leaf _ listed, Option.map_some, Option.some.injEq] at hash
    rw [parts.leaf _ listed] at stored
    rw [← Option.some.inj stored] at same
    have tonnes := done.tonnes
    rw [parts.sum] at tonnes
    have owner := done.owner
    have status := done.status
    have issuedAt := done.issuedAt
    rw [done.stored]
    rcases same with ⟨projectId, vintageYear, issuer, methodology, geography⟩
    cases merged
    simp_all
  · rintro id (listed | earlier)
    · have ne := Ledger.ne_of_absent (parts.leaf id listed) done.absent
      unfold Ledger.statusOf
      rw [done.others id ne.symm, if_pos listed, parts.leaf id listed]
      rfl
    · exact effect.stays_retired inj parts.derived (parts.retired id earlier)

/-- Merging undoes splitting: in every reachable state, after any tree of splits of an active
credit by its owner, the merge of its leaves in any order succeeds. The merged credit is active
and agrees with the one that was split in everything but the time of issue, and the leaves and
the inner nodes of the tree, the root among them, are retired. -/
theorem merge_undoes_splits (inj : Function.Injective sha256) (inputs : List Invocation)
    {root : BytesN32} {whole : CreditMetadata}
    (stored : ((machine sha256).state inputs).ledger.getCredit root = some whole)
    (active : whole.status = .active) {leaves inner : List BytesN32} {s : State}
    (tree : SplitTree sha256 whole.owner ((machine sha256).state inputs) root leaves inner s)
    (room : s.ledger.creditNonce + 1 < 2 ^ 64) {env : Env}
    (authorised : env.auth whole.owner = true) {ids : List BytesN32}
    (order : ids.Perm leaves) :
    ∃ mergedId s', exec sha256 s ⟨env, .mergeCredits whole.owner ids⟩ = .ok (.id mergedId, s') ∧
      s'.ledger.getCredit mergedId = some { whole with issuedAt := env.timestamp } ∧
      (∀ id, id ∈ leaves ∨ id ∈ inner → s'.ledger.statusOf id = some .retired) ∧
      root ∈ inner := by
  rcases amounts_of_run inj inputs with ⟨derived, positive, fits⟩
  have parts := (tree.parts inj (parts_root derived positive stored)).perm order
  have several : 2 ≤ ids.length := by
    rw [order.length_eq]
    exact tree.several
  have merges := parts.merges active (fits root whole stored) tree.current authorised several room
  rcases mergeCredits_succeeds.mpr merges with ⟨⟨ret, s'⟩, success⟩
  rcases parts.merged inj active success with ⟨mergedId, rfl, merged, retired⟩
  refine ⟨mergedId, s', success, merged, ?_, tree.root_mem⟩
  intro id listed
  rw [← order.mem_iff] at listed
  exact retired id listed

namespace Sample

/-- The issuer signs. -/
def signed : Env := ⟨1735689600, fun a => a == issuer⟩

/-- A half of the sample credit, derived at counter value `n`. -/
def half (n : Nat) : BytesN32 := creditId BytesN32.mk (.bytes (credit 0)) n

/-- A part of the first half. -/
def quarter (n : Nat) : BytesN32 := creditId BytesN32.mk (.bytes (half 1)) n

end Sample

set_option maxRecDepth 100000 in
/-- The sample credit is split in halves, one half is split again, and the three parts are
merged in another order. -/
theorem halves_merge :
    ∃ inner s mergedId s', SplitTree BytesN32.mk Sample.issuer
        ((machine BytesN32.mk).state Sample.approve) (Sample.credit 0)
        [Sample.quarter 3, Sample.quarter 4, Sample.half 2] inner s ∧
      exec BytesN32.mk s ⟨Sample.signed, .mergeCredits Sample.issuer
        [Sample.half 2, Sample.quarter 4, Sample.quarter 3]⟩ = .ok (.id mergedId, s') ∧
      s'.ledger.tonnesOf mergedId = 1000000 := by
  obtain ⟨whole, stored, active, owned, amount⟩ : ∃ whole,
      ((machine BytesN32.mk).state Sample.approve).ledger.getCredit (Sample.credit 0) =
        some whole ∧ whole.status = .active ∧ whole.owner = Sample.issuer ∧
      whole.tonnes = 1000000 :=
    ⟨_, rfl, rfl, rfl, rfl⟩
  have authorised : Sample.signed.auth whole.owner = true := by
    rw [owned]
    decide
  obtain ⟨inner, s, tree, room⟩ : ∃ inner s, SplitTree BytesN32.mk Sample.issuer
      ((machine BytesN32.mk).state Sample.approve) (Sample.credit 0)
      [Sample.quarter 3, Sample.quarter 4, Sample.half 2] inner s ∧
        s.ledger.creditNonce + 1 < 2 ^ 64 := by
    refine ⟨_, _, .next [] [Sample.half 2] _ (Sample.half 1) _
      (.first Sample.signed 500000 1 _ _ _ rfl) Sample.signed 200000 2 _ _ _ rfl, ?_⟩
    decide
  rw [← owned] at tree
  rcases merge_undoes_splits BytesN32.mk_injective Sample.approve stored active tree room authorised
    (List.reverse_perm [Sample.quarter 3, Sample.quarter 4, Sample.half 2]) with
    ⟨mergedId, s', success, merged, -⟩
  rw [owned] at tree success
  refine ⟨inner, s, mergedId, s', tree, success, ?_⟩
  rw [Ledger.tonnesOf_of_stored merged]
  exact amount

/-! ## The order of the sources -/

/-- Merging `ids` and merging `ids'` succeed in the same cases, create credits with the same
record and leave every other credit alike. -/
structure MergesAlike (sha256 : Bytes → BytesN32) (env : Env) (s : State) (caller : Address)
    (ids ids' : List BytesN32) : Prop where
  succeeds : (∃ result, exec sha256 s ⟨env, .mergeCredits caller ids⟩ = .ok result) ↔
    ∃ result, exec sha256 s ⟨env, .mergeCredits caller ids'⟩ = .ok result
  record : ∀ mergedId mergedId' after after',
    exec sha256 s ⟨env, .mergeCredits caller ids⟩ = .ok (.id mergedId, after) →
    exec sha256 s ⟨env, .mergeCredits caller ids'⟩ = .ok (.id mergedId', after') →
    after.ledger.getCredit mergedId = after'.ledger.getCredit mergedId'
  others : ∀ mergedId mergedId' after after',
    exec sha256 s ⟨env, .mergeCredits caller ids⟩ = .ok (.id mergedId, after) →
    exec sha256 s ⟨env, .mergeCredits caller ids'⟩ = .ok (.id mergedId', after') →
    ∀ id, id ≠ mergedId → id ≠ mergedId' →
      after.ledger.getCredit id = after'.ledger.getCredit id

section Order

variable {env : Env} {s s' after after' : State} {caller : Address} {ids ids' : List BytesN32}
  {mergedId mergedId' : BytesN32} {merged merged' : CreditMetadata}

/-- Of positive amounts, the partial sums fit in one order if they do in another. -/
theorem Merges.perm (positive : s.ledger.Positive) (merges : Merges env s caller ids)
    (order : ids.Perm ids') : Merges env s caller ids' := by
  rcases merges with ⟨current, authorised, several, ⟨lot, alike⟩, fits, room⟩
  refine ⟨current, authorised, ?_, ⟨lot, ?_⟩, ?_, room⟩
  · rw [← order.length_eq]
    exact several
  · exact fun id listed => alike id (order.mem_iff.mpr listed)
  · rintro first rest rfl
    apply fits_prefix
    · intro id listed
      rcases alike id (order.mem_iff.mpr listed) with ⟨source, stored, -⟩
      rw [Ledger.tonnesOf_of_stored stored]
      exact Int.le_of_lt (positive id source stored)
    · rw [← (order.map s.ledger.tonnesOf).sum_eq]
      exact fits ids [] (List.append_nil ids).symm

/-- Apart from the document link, the merged credit does not depend on the order. -/
theorem Merged.perm (done : Merged sha256 env s after caller ids mergedId merged)
    (done' : Merged sha256 env s after' caller ids' mergedId' merged')
    (order : ids.Perm ids') :
    mergedId = mergedId' ∧ merged' = { merged with ipfsHash := merged'.ipfsHash } := by
  have nonempty : ids ≠ [] := by
    rintro rfl
    exact absurd done.several (by decide)
  rcases List.exists_mem_of_ne_nil ids nonempty with ⟨id, listed⟩
  rcases done.sources id listed with ⟨source, stored, lot⟩
  rcases done'.sources id (order.mem_iff.mp listed) with ⟨source', stored', lot'⟩
  rw [stored, Option.some.injEq] at stored'
  subst stored'
  have project : merged'.projectId = merged.projectId := lot'.projectId.symm.trans lot.projectId
  have tonnes : merged'.tonnes = merged.tonnes := by
    rw [done.tonnes, done'.tonnes, (order.map s.ledger.tonnesOf).sum_eq]
  have owner : merged'.owner = merged.owner := done'.owner.trans done.owner.symm
  have status : merged'.status = merged.status := done'.status.trans done.status.symm
  have issuedAt : merged'.issuedAt = merged.issuedAt := done'.issuedAt.trans done.issuedAt.symm
  constructor
  · rw [done.derived, done'.derived, project]
  · rcases lot with ⟨-, vintageYear, issuer, methodology, geography⟩
    rcases lot' with ⟨-, vintageYear', issuer', methodology', geography'⟩
    cases merged
    cases merged'
    simp_all

/-- What a merge does to the other credits does not depend on the order. -/
theorem Merged.others_perm (done : Merged sha256 env s after caller ids mergedId merged)
    (done' : Merged sha256 env s after' caller ids' mergedId' merged')
    (order : ids.Perm ids') {id : BytesN32} (ne : id ≠ mergedId) (ne' : id ≠ mergedId') :
    after.ledger.getCredit id = after'.ledger.getCredit id := by
  rw [done.others id ne, done'.others id ne']
  simp only [order.mem_iff]

end Order

/-- In every reachable state, the order of the sources of a merge matters in one way only: the
merged credit has the document link of the source that is listed last. So two orders give the
same result if and only if the last sources have the same link, or neither list can be
merged. -/
theorem mergesAlike_iff (inj : Function.Injective sha256) (inputs : List Invocation) (env : Env)
    (caller : Address) {ids ids' : List BytesN32} (order : ids.Perm ids') :
    let s := (machine sha256).state inputs
    MergesAlike sha256 env s caller ids ids' ↔
      (Merges env s caller ids → s.ledger.lastDocument ids = s.ledger.lastDocument ids') := by
  intro s
  rcases amounts_of_run inj inputs with ⟨derived, positive, -⟩
  constructor
  · intro alike merges
    rcases mergeCredits_succeeds.mpr merges with ⟨⟨ret, after⟩, success⟩
    rcases mergeCredits_succeeds.mpr (merges.perm positive order) with ⟨⟨ret', after'⟩, success'⟩
    rcases merged_of_exec inj derived success with ⟨mergedId, merged, rfl, done⟩
    rcases merged_of_exec inj derived success' with ⟨mergedId', merged', rfl, done'⟩
    have same := alike.record mergedId mergedId' after after' success success'
    rw [done.stored, done'.stored, Option.some.injEq] at same
    rw [done.document, done'.document, same]
  · intro last
    refine ⟨?_, ?_, ?_⟩
    · rw [mergeCredits_succeeds, mergeCredits_succeeds]
      exact ⟨fun merges => merges.perm positive order,
        fun merges => merges.perm positive order.symm⟩
    · intro mergedId mergedId' after after' success success'
      have documents := last (mergeCredits_succeeds.mp ⟨_, success⟩)
      rcases merged_of_exec inj derived success with ⟨_, merged, ⟨⟩, done⟩
      rcases merged_of_exec inj derived success' with ⟨_, merged', ⟨⟩, done'⟩
      rw [done.document, done'.document, Option.some.injEq] at documents
      rw [done.stored, done'.stored, (done.perm done' order).2, ← documents]
    · intro mergedId mergedId' after after' success success' id ne ne'
      rcases merged_of_exec inj derived success with ⟨_, merged, ⟨⟩, done⟩
      rcases merged_of_exec inj derived success' with ⟨_, merged', ⟨⟩, done'⟩
      exact done.others_perm done' order ne ne'

namespace Sample

/-- After the split of a first credit, the project submits a second one for the same year, with
a document of its own. -/
def documents : List Invocation :=
  approve ++
    [call issuer (.splitCredit issuer (credit 0) 500000 1),
     call issuer (.submitCredit issuer "project-1" 2024 "VCS" "NG" 1000000 "ipfs-2" 2),
     call verifier (.approveAndMint verifier (credit 3) 1)]

end Sample

set_option maxRecDepth 100000 in
/-- The halves of a credit merge alike in both orders. -/
theorem halves_mergeAlike :
    MergesAlike BytesN32.mk Sample.signed ((machine BytesN32.mk).state Sample.documents)
      Sample.issuer [Sample.half 1, Sample.half 2] [Sample.half 2, Sample.half 1] :=
  (mergesAlike_iff BytesN32.mk_injective Sample.documents Sample.signed Sample.issuer
    (List.Perm.swap _ _ [])).mpr fun _ => rfl

set_option maxRecDepth 100000 in
/-- A half of the first credit and the second credit merge in both orders, and the two merged
credits have different document links. -/
theorem documents_mergeApart :
    ¬ MergesAlike BytesN32.mk Sample.signed ((machine BytesN32.mk).state Sample.documents)
      Sample.issuer [Sample.half 1, Sample.credit 3] [Sample.credit 3, Sample.half 1] := by
  intro alike
  obtain ⟨mergedId, after, success, first⟩ : ∃ mergedId after,
      exec BytesN32.mk ((machine BytesN32.mk).state Sample.documents)
        ⟨Sample.signed, .mergeCredits Sample.issuer [Sample.half 1, Sample.credit 3]⟩ =
          .ok (.id mergedId, after) ∧
        (after.ledger.getCredit mergedId).map CreditMetadata.ipfsHash = some "ipfs-2" :=
    ⟨_, _, rfl, rfl⟩
  obtain ⟨mergedId', after', success', second⟩ : ∃ mergedId after,
      exec BytesN32.mk ((machine BytesN32.mk).state Sample.documents)
        ⟨Sample.signed, .mergeCredits Sample.issuer [Sample.credit 3, Sample.half 1]⟩ =
          .ok (.id mergedId, after) ∧
        (after.ledger.getCredit mergedId).map CreditMetadata.ipfsHash = some "ipfs" :=
    ⟨_, _, rfl, rfl⟩
  rw [alike.record mergedId mergedId' after after' success success', second] at first
  exact absurd first (by decide)

end CarbonChain.Registry
