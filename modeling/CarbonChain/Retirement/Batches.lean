import CarbonChain.Registry.Owners
import CarbonChain.Retirement.Backing

/-!
# A batch and its retirements one by one

`batch_retire` (`contracts/retirement/src/lib.rs:198-275`) does in one call what calls of
`retire` (`:110-188`) with the next nonces do one after the other. On the one registry,
where the buyer owns the credits, the batch succeeds exactly when all the single calls do,
and leaves the same registry and the same records in the lists of the accounts. The ids of
the records differ: only those of a batch are made with a position.
-/

namespace CarbonChain.Retirement

open Registry (Network ForeignReply World respond)

variable {net : Network} {env : Env} {foreign : Nat → ForeignReply}

/-! ## Credits that are marked as retired -/

/-- The registry after a credit is marked as retired. -/
def retireOne (registry : Registry.State) (id : BytesN32) : Registry.State :=
  match registry.ledger.getCredit id with
  | some credit =>
      { registry with ledger := registry.ledger.setCredit id { credit with status := .retired } }
  | none => registry

/-- The credit is stored and active. -/
def IsActive (registry : Registry.State) (id : BytesN32) : Prop :=
  ∃ credit, registry.ledger.getCredit id = some credit ∧ credit.status = .active

theorem retireOne_roles (registry : Registry.State) (id : BytesN32) :
    (retireOne registry id).roles = registry.roles := by
  unfold retireOne
  split <;> rfl

theorem getCredit_retireOne (registry : Registry.State) (id other : BytesN32) :
    (retireOne registry id).ledger.getCredit other =
      if other = id then
        (registry.ledger.getCredit id).map fun credit => { credit with status := .retired }
      else registry.ledger.getCredit other := by
  unfold retireOne
  split
  · next credit stored =>
      rw [Registry.Ledger.getCredit_setCredit, stored]
      rfl
  · next absent =>
      split
      · next same => rw [same, absent, Option.map_none]
      · rfl

theorem isActive_retireOne {registry : Registry.State} {id other : BytesN32} :
    IsActive (retireOne registry id) other ↔ other ≠ id ∧ IsActive registry other := by
  unfold IsActive
  rw [getCredit_retireOne]
  by_cases same : other = id
  · subst same
    simp
  · simp [same]

theorem ownerOf_retireOne (registry : Registry.State) (id other : BytesN32) :
    (retireOne registry id).ownerOf other = registry.ownerOf other := by
  unfold Registry.State.ownerOf
  rw [getCredit_retireOne]
  split
  · next same =>
      rw [same, Option.map_map]
      rfl
  · rfl

/-- The registry runs its own code, is not paused and lets the contract at `net.self` mark
credits: it trusts that contract, or one that authorises the transaction. -/
structure Accepts (net : Network) (env : Env) (registry : Registry.State) : Prop where
  apart : net.registryId ≠ net.self
  current : registry.roles.wasm = none
  unpaused : registry.roles.paused = false
  appointed : ∃ retirementContract, registry.roles.retirementContract = some retirementContract ∧
    (env.calledBy net.self).auth retirementContract = true

theorem accepts_retireOne {registry : Registry.State} {id : BytesN32} :
    Accepts net env (retireOne registry id) ↔ Accepts net env registry := by
  constructor <;> rintro ⟨apart, current, unpaused, appointed⟩
  · rw [retireOne_roles] at current unpaused appointed
    exact ⟨apart, current, unpaused, appointed⟩
  · refine ⟨apart, ?_, ?_, ?_⟩ <;> rw [retireOne_roles] <;> assumption

/-- A registry that accepts the marking of credits marks exactly the active ones. -/
theorem client_markRetired_iff {u u' : World} {id : BytesN32} :
    net.client env foreign u net.registryId (.markRetired id) = some (.unit, u') ↔
      Accepts net env u.registry ∧ IsActive u.registry id ∧
        u' = { u with registry := retireOne u.registry id } := by
  have marks : ∀ registry', respond (env.calledBy net.self) u.registry (.markRetired id) =
      .ok (.unit, registry') ↔ u.registry.roles.wasm = none ∧ u.registry.roles.paused = false ∧
        (∃ retirementContract, u.registry.roles.retirementContract = some retirementContract ∧
          (env.calledBy net.self).auth retirementContract = true) ∧
        IsActive u.registry id ∧ registry' = retireOne u.registry id := by
    intro registry'
    simp only [respond, Registry.markRetired, bind_eq_ok, panicIf_eq_ok, rejectIf_eq_ok,
      okOr_eq_ok, Env.requireAuth_eq_ok, pure_eq_ok, exists_const, Prod.mk.injEq, true_and,
      not_not, ne_eq, Option.isSome_eq_false_iff, Option.isNone_iff_eq_none, Bool.not_eq_true]
    constructor
    · rintro ⟨current, after, ⟨unpaused, appointed, trusted, authorised, credit, stored, active,
        rfl⟩, rfl⟩
      refine ⟨current, unpaused, ⟨appointed, trusted, authorised⟩, ⟨credit, stored, active⟩, ?_⟩
      unfold retireOne
      rw [stored]
    · rintro ⟨current, unpaused, ⟨appointed, trusted, authorised⟩, ⟨credit, stored, active⟩, rfl⟩
      refine ⟨current, _, ⟨unpaused, appointed, trusted, authorised, credit, stored, active, rfl⟩,
        ?_⟩
      unfold retireOne
      rw [stored]
  constructor
  · intro marked
    have apart := Network.apart_of_client marked
    have answered := Network.client_registry marked
    obtain ⟨current, unpaused, appointed, active, -⟩ := (marks _).mp answered
    have answered := (marks _).mpr ⟨current, unpaused, appointed, active, rfl⟩
    rw [Network.client_of_respond apart answered] at marked
    exact ⟨⟨apart, current, unpaused, appointed⟩, active,
      (Prod.mk.inj (Option.some.inj marked)).2.symm⟩
  · rintro ⟨⟨apart, current, unpaused, appointed⟩, active, rfl⟩
    have answered := (marks _).mpr ⟨current, unpaused, appointed, active, rfl⟩
    exact Network.client_of_respond apart answered

theorem client_getCredit_iff {u u' : World} {id : BytesN32} {credit : Registry.CreditMetadata} :
    net.client env foreign u net.registryId (.getCredit id) = some (.credit credit, u') ↔
      net.registryId ≠ net.self ∧ u.registry.roles.wasm = none ∧
        u.registry.ledger.getCredit id = some credit ∧ u' = u := by
  have shows : respond (env.calledBy net.self) u.registry (.getCredit id) =
      .ok (.credit credit, u.registry) ↔
        u.registry.roles.wasm = none ∧ u.registry.ledger.getCredit id = some credit := by
    simp [respond, Registry.getCredit]
  constructor
  · intro shown
    have apart := Network.apart_of_client shown
    have answered := Network.client_registry shown
    rw [(Registry.respond_getCredit answered).1] at answered
    rw [Network.client_of_respond apart answered] at shown
    obtain ⟨current, stored⟩ := shows.mp answered
    exact ⟨apart, current, stored, (Prod.mk.inj (Option.some.inj shown)).2.symm⟩
  · rintro ⟨apart, current, stored, rfl⟩
    exact Network.client_of_respond apart (shows.mpr ⟨current, stored⟩)

/-! ## What a call needs and does -/

/-- What both calls need of the contract, of the authorisation and of the nonce. -/
structure Admitted (net : Network) (env : Env) (s : State) (buyer : Address) (nonce : Nat) :
    Prop where
  current : s.wasm = none
  unpaused : s.paused = false
  authorised : (env.external net.self).auth buyer = true
  numbered : s.getNonce buyer = nonce
  room : nonce + 1 < 2 ^ 64

/-- The storage after the records of a buyer are written. -/
def recorded (net : Network) (s : State) (buyer : Address)
    (records : List (Option Nat × RetirementRecord)) : State :=
  { s with
    nonce := s.nonce.insert buyer (s.getNonce buyer + 1)
    retirement := storeAll net.sha256 s.retirement records
    accountRetirements := s.accountRetirements.insert buyer (s.getRetirementsByAccount buyer ++
      records.map fun r => retirementId net.sha256 r.1 r.2) }

/-- What one iteration of the loop of a batch leaves. -/
def batchEntry (net : Network) (env : Env) (buyer : Address) (reason : String)
    (acc : BatchState World) (entry : (BytesN32 × Int) × Nat) : BatchState World :=
  let record : RetirementRecord :=
    ⟨entry.1.1, buyer, entry.1.2, reason, env.timestamp⟩
  let id := retirementId net.sha256 (some entry.2) record
  { retirement := acc.retirement.insert id record
    list := acc.list ++ [id]
    retirementIds := acc.retirementIds ++ [id]
    world := { acc.world with registry := retireOne acc.world.registry entry.1.1 } }

/-- A single call succeeds for the owner of an active credit and a positive amount. -/
theorem retire_exec_iff {s : State} {u u' : World} {buyer : Address} {id : BytesN32}
    {tonnes : Int} {reason : String} {nonce : Nat} {s' : State} :
    (∃ ret, exec net.sha256 (net.client env foreign) (env.external net.self) s u
        (.retire buyer id tonnes reason net.registryId nonce) = .ok (ret, s', u')) ↔
      Admitted net env s buyer nonce ∧ Accepts net env u.registry ∧ IsActive u.registry id ∧
        u.registry.ownerOf id = some buyer ∧ 0 < tonnes ∧
        s' = recorded net s buyer
          (Call.records env (.retire buyer id tonnes reason net.registryId nonce)) ∧
        u' = { u with registry := retireOne u.registry id } := by
  simp only [exec_eq_ok, dispatch, map_eq_ok, retire, State.consumeNonce, bind_eq_ok,
    rejectIf_eq_ok, panicIf_eq_ok, exists_const, Env.requireAuth_eq_ok, consumeNonce_eq_ok,
    Prod.exists, pure_eq_ok, Prod.mk.injEq, Registry.Client.getCredit_eq_ok,
    Registry.Client.markRetired_eq_ok, not_not, ne_eq, client_getCredit_iff,
    client_markRetired_iff, Bool.not_eq_true, not_le]
  constructor
  · rintro ⟨_, current, _, _, _, ⟨unpaused, authorised, _, ⟨numbered, room, rfl⟩, credit, _,
      ⟨-, -, stored, rfl⟩, -, owned, positive, _, ⟨accepts, active, rfl⟩, rfl, rfl, rfl⟩, -, rfl,
      rfl⟩
    refine ⟨⟨current, unpaused, authorised, numbered, ?_⟩, accepts, active, ?_, positive, rfl, rfl⟩
    · rw [← numbered]
      exact room
    · rw [Registry.State.ownerOf, stored, Option.map_some, owned]
  · rintro ⟨⟨current, unpaused, authorised, numbered, room⟩, accepts, ⟨credit, stored, active⟩,
      owned, positive, rfl, rfl⟩
    have owned : credit.owner = buyer := by
      rw [Registry.State.ownerOf, stored] at owned
      exact Option.some.inj owned
    rw [← numbered] at room
    exact ⟨_, current, _, _, _, ⟨unpaused, authorised, _, ⟨numbered, room, rfl⟩, credit, u,
      ⟨accepts.apart, accepts.current, stored, rfl⟩, active, owned, positive, _,
      ⟨accepts, ⟨credit, stored, active⟩, rfl⟩, rfl, rfl, rfl⟩, rfl, rfl, rfl⟩

/-- One iteration of the loop succeeds for an active credit and a positive amount. -/
theorem batchOne_iff {buyer : Address} {reason : String} {acc acc' : BatchState World}
    {entry : (BytesN32 × Int) × Nat} :
    batchOne net.sha256 (net.client env foreign) (env.external net.self) buyer reason
        net.registryId acc entry = .ok acc' ↔
      (0 < entry.1.2 ∧ Accepts net env acc.world.registry ∧
        IsActive acc.world.registry entry.1.1) ∧
      acc' = batchEntry net env buyer reason acc entry := by
  simp only [batchOne, bind_eq_ok, panicIf_eq_ok, exists_const, pure_eq_ok,
    Registry.Client.markRetired_eq_ok, client_markRetired_iff, not_le]
  constructor
  · rintro ⟨positive, _, ⟨accepts, active, rfl⟩, rfl⟩
    exact ⟨⟨positive, accepts, active⟩, rfl⟩
  · rintro ⟨⟨positive, accepts, active⟩, rfl⟩
    exact ⟨positive, _, ⟨accepts, active, rfl⟩, rfl⟩

/-- The loop goes through if the credits are distinct and active and the amounts positive. -/
theorem batchLoop_iff {buyer : Address} {reason : String} {acc acc' : BatchState World}
    {entries : List ((BytesN32 × Int) × Nat)} :
    entries.foldlM (batchOne net.sha256 (net.client env foreign) (env.external net.self) buyer
        reason net.registryId) acc = .ok acc' ↔
      ((entries.map fun e => e.1.1).Nodup ∧ ∀ e ∈ entries, 0 < e.1.2 ∧
        Accepts net env acc.world.registry ∧ IsActive acc.world.registry e.1.1) ∧
      acc' = entries.foldl (batchEntry net env buyer reason) acc := by
  induction entries generalizing acc with
  | nil =>
      rw [List.foldlM_nil, pure_eq_ok]
      simp [eq_comm]
  | cons entry entries ih =>
      have moved : (batchEntry net env buyer reason acc entry).world.registry =
          retireOne acc.world.registry entry.1.1 := rfl
      rw [List.foldlM_cons, bind_eq_ok, List.foldl_cons, List.map_cons, List.nodup_cons]
      constructor
      · rintro ⟨acc₁, iterated, rest⟩
        obtain ⟨first, rfl⟩ := batchOne_iff.mp iterated
        obtain ⟨⟨distinct, others⟩, rfl⟩ := ih.mp rest
        rw [moved] at others
        refine ⟨⟨⟨?_, distinct⟩, ?_⟩, rfl⟩
        · intro again
          obtain ⟨e, listed, same⟩ := List.mem_map.mp again
          exact (isActive_retireOne.mp (others e listed).2.2).1 same
        · intro e listed
          rcases List.mem_cons.mp listed with rfl | listed
          · exact first
          · obtain ⟨positive, accepts, active⟩ := others e listed
            exact ⟨positive, accepts_retireOne.mp accepts, (isActive_retireOne.mp active).2⟩
      · rintro ⟨⟨⟨unlisted, distinct⟩, each⟩, rfl⟩
        refine ⟨_, batchOne_iff.mpr ⟨each entry List.mem_cons_self, rfl⟩,
          ih.mpr ⟨⟨distinct, ?_⟩, rfl⟩⟩
        intro e listed
        obtain ⟨positive, accepts, active⟩ := each e (List.mem_cons_of_mem entry listed)
        rw [moved]
        refine ⟨positive, accepts_retireOne.mpr accepts, isActive_retireOne.mpr ⟨?_, active⟩⟩
        intro same
        exact unlisted (same ▸ List.mem_map_of_mem listed)

/-- What the loop leaves. -/
theorem foldl_batchEntry {buyer : Address} {reason : String} {acc : BatchState World}
    {entries : List ((BytesN32 × Int) × Nat)} :
    let records := entries.map fun ((creditId, tonneAmount), i) =>
      (some i, (⟨creditId, buyer, tonneAmount, reason, env.timestamp⟩ : RetirementRecord))
    let finish := entries.foldl (batchEntry net env buyer reason) acc
    finish.retirement = storeAll net.sha256 acc.retirement records ∧
      finish.list = acc.list ++ records.map (fun r => retirementId net.sha256 r.1 r.2) ∧
      finish.world = { acc.world with
        registry := (entries.map fun e => e.1.1).foldl retireOne acc.world.registry } := by
  induction entries generalizing acc with
  | nil => simp [storeAll]
  | cons entry entries ih =>
      obtain ⟨stored, listed, world⟩ := @ih (batchEntry net env buyer reason acc entry)
      refine ⟨?_, ?_, ?_⟩
      · rw [List.foldl_cons, stored]
        rfl
      · rw [List.foldl_cons, listed]
        simp [batchEntry]
      · rw [List.foldl_cons, world]
        rfl

theorem zip_columns (entries : List (BytesN32 × Int)) :
    (entries.map Prod.fst).zip (entries.map Prod.snd) = entries := by
  rw [List.zip_map']
  exact List.map_id entries

theorem forall_zipIdx {P : BytesN32 × Int → Prop} (entries : List (BytesN32 × Int)) :
    (∀ e ∈ entries.zipIdx, P e.1) ↔ ∀ e ∈ entries, P e := by
  conv_rhs => rw [← List.zipIdx_map_fst 0 entries]
  exact List.forall_mem_map.symm

theorem zipIdx_ids (entries : List (BytesN32 × Int)) :
    (entries.zipIdx.map fun e => e.1.1) = entries.map Prod.fst := by
  conv_rhs => rw [← List.zipIdx_map_fst 0 entries, List.map_map]
  rfl

/-- A batch succeeds for distinct active credits and positive amounts. -/
theorem batchRetire_exec_iff {s s' : State} {u u' : World} {buyer : Address}
    {entries : List (BytesN32 × Int)} {reason : String} {nonce : Nat} :
    (∃ ret, exec net.sha256 (net.client env foreign) (env.external net.self) s u
        (.batchRetire buyer (entries.map Prod.fst) (entries.map Prod.snd) reason net.registryId
          nonce) = .ok (ret, s', u')) ↔
      Admitted net env s buyer nonce ∧ (entries.map Prod.fst).Nodup ∧
        (∀ e ∈ entries, 0 < e.2 ∧ Accepts net env u.registry ∧ IsActive u.registry e.1) ∧
        s' = recorded net s buyer (Call.records env (.batchRetire buyer (entries.map Prod.fst)
          (entries.map Prod.snd) reason net.registryId nonce)) ∧
        u' = { u with registry := (entries.map Prod.fst).foldl retireOne u.registry } := by
  simp only [exec_eq_ok, dispatch, map_eq_ok, batchRetire, State.consumeNonce, bind_eq_ok,
    rejectIf_eq_ok, panicIf_eq_ok, exists_const, Env.requireAuth_eq_ok, consumeNonce_eq_ok,
    Prod.exists, pure_eq_ok, Prod.mk.injEq, not_not, ne_eq, batchLoop_iff, Bool.not_eq_true,
    zip_columns, zipIdx_ids]
  obtain ⟨stored, listed, world⟩ := @foldl_batchEntry net env buyer reason
    ⟨s.retirement, s.getRetirementsByAccount buyer, [], u⟩ entries.zipIdx
  rw [zipIdx_ids] at world
  have written : recorded net s buyer (Call.records env (.batchRetire buyer
      (entries.map Prod.fst) (entries.map Prod.snd) reason net.registryId nonce)) =
      { s with
        nonce := s.nonce.insert buyer (s.getNonce buyer + 1)
        retirement := (entries.zipIdx.foldl (batchEntry net env buyer reason)
          ⟨s.retirement, s.getRetirementsByAccount buyer, [], u⟩).retirement
        accountRetirements := s.accountRetirements.insert buyer
          (entries.zipIdx.foldl (batchEntry net env buyer reason)
            ⟨s.retirement, s.getRetirementsByAccount buyer, [], u⟩).list } := by
    rw [stored, listed, recorded, Call.records, zip_columns]
  have each : (∀ e ∈ entries.zipIdx, 0 < e.1.2 ∧ Accepts net env u.registry ∧
      IsActive u.registry e.1.1) ↔
        ∀ e ∈ entries, 0 < e.2 ∧ Accepts net env u.registry ∧ IsActive u.registry e.1 :=
    @forall_zipIdx (fun e => 0 < e.2 ∧ Accepts net env u.registry ∧ IsActive u.registry e.1)
      entries
  rw [written, ← world, each]
  constructor
  · rintro ⟨_, current, _, _, _, ⟨unpaused, authorised, _, ⟨numbered, room, rfl⟩, -, _,
      ⟨⟨distinct, active⟩, rfl⟩, rfl, rfl, rfl⟩, -, rfl, rfl⟩
    rw [← numbered]
    exact ⟨⟨current, unpaused, authorised, rfl, room⟩, distinct, active, rfl, rfl⟩
  · rintro ⟨⟨current, unpaused, authorised, numbered, room⟩, distinct, active, rfl, rfl⟩
    rw [← numbered] at room
    exact ⟨_, current, _, _, _, ⟨unpaused, authorised, _, ⟨numbered, room, rfl⟩, by simp, _,
      ⟨⟨distinct, active⟩, rfl⟩, rfl, rfl, rfl⟩, rfl, rfl, rfl⟩

/-! ## One by one -/

/-- The transactions all succeed, and lead from one state to the other. -/
def Leads (net : Network) : Joint → List (Network.Input Call) → Joint → Prop
  | s, [], s' => s' = s
  | s, input :: inputs, s' =>
      ∃ output between, (system net).exec s input = .ok (output, between) ∧
        Leads net between inputs s'

/-- The calls of `retire` for the entries of a batch, with the nonces from `nonce` on. -/
def oneByOne (net : Network) (env : Env) (foreign : Nat → ForeignReply) (buyer : Address)
    (reason : String) : Nat → List (BytesN32 × Int) → List (Network.Input Call)
  | _, [] => []
  | nonce, (id, tonnes) :: entries =>
      .peer env (.retire buyer id tonnes reason net.registryId nonce) foreign ::
        oneByOne net env foreign buyer reason (nonce + 1) entries

/-- The call of `batch_retire` for the entries. -/
def atOnce (net : Network) (env : Env) (foreign : Nat → ForeignReply) (buyer : Address)
    (reason : String) (nonce : Nat) (entries : List (BytesN32 × Int)) : Network.Input Call :=
  .peer env (.batchRetire buyer (entries.map Prod.fst) (entries.map Prod.snd) reason
    net.registryId nonce) foreign

variable {s s' : Joint} {buyer : Address} {reason : String} {nonce : Nat}
  {entries : List (BytesN32 × Int)}

theorem retire_step_iff {id : BytesN32} {tonnes : Int} :
    (∃ output, (system net).exec s (.peer env
        (.retire buyer id tonnes reason net.registryId nonce) foreign) = .ok (output, s')) ↔
      Admitted net env s.peer buyer nonce ∧ Accepts net env s.registry ∧
        IsActive s.registry id ∧ s.registry.ownerOf id = some buyer ∧ 0 < tonnes ∧
        s' = ⟨retireOne s.registry id, recorded net s.peer buyer
          (Call.records env (.retire buyer id tonnes reason net.registryId nonce))⟩ := by
  refine Network.exec_peer_iff.trans ?_
  constructor
  · rintro ⟨ret, w, success, same⟩
    obtain ⟨admitted, accepts, active, owned, positive, written, world⟩ :=
      retire_exec_iff.mp ⟨ret, success⟩
    refine ⟨admitted, accepts, active, owned, positive, ?_⟩
    obtain ⟨registry, storage⟩ := s'
    rw [world] at same
    exact congrArg₂ Network.Joint.mk same.symm written
  · rintro ⟨admitted, accepts, active, owned, positive, rfl⟩
    obtain ⟨ret, success⟩ := (retire_exec_iff (u := ⟨s.registry, 0⟩)).mpr
      ⟨admitted, accepts, active, owned, positive, rfl, rfl⟩
    exact ⟨ret, _, success, rfl⟩

theorem atOnce_iff :
    (∃ output, (system net).exec s (atOnce net env foreign buyer reason nonce entries) =
        .ok (output, s')) ↔
      Admitted net env s.peer buyer nonce ∧ (entries.map Prod.fst).Nodup ∧
        (∀ e ∈ entries, 0 < e.2 ∧ Accepts net env s.registry ∧ IsActive s.registry e.1) ∧
        s' = ⟨(entries.map Prod.fst).foldl retireOne s.registry, recorded net s.peer buyer
          (Call.records env (.batchRetire buyer (entries.map Prod.fst) (entries.map Prod.snd)
            reason net.registryId nonce))⟩ := by
  refine Network.exec_peer_iff.trans ?_
  constructor
  · rintro ⟨ret, w, success, same⟩
    obtain ⟨admitted, distinct, active, written, world⟩ := batchRetire_exec_iff.mp ⟨ret, success⟩
    refine ⟨admitted, distinct, active, ?_⟩
    obtain ⟨registry, storage⟩ := s'
    rw [world] at same
    exact congrArg₂ Network.Joint.mk same.symm written
  · rintro ⟨admitted, distinct, active, rfl⟩
    obtain ⟨ret, success⟩ := (batchRetire_exec_iff (u := ⟨s.registry, 0⟩)).mpr
      ⟨admitted, distinct, active, rfl, rfl⟩
    exact ⟨ret, _, success, rfl⟩

/-- After one call the next nonce is due. -/
theorem Admitted.next {records : List (Option Nat × RetirementRecord)}
    (admitted : Admitted net env s.peer buyer nonce) (room : nonce + 1 + 1 < 2 ^ 64) :
    Admitted net env (recorded net s.peer buyer records) buyer (nonce + 1) where
  current := admitted.current
  unpaused := admitted.unpaused
  authorised := admitted.authorised
  numbered := by
    show nonceOf (s.peer.nonce.insert buyer (s.peer.getNonce buyer + 1)) buyer = nonce + 1
    rw [nonceOf_insert, if_pos rfl, admitted.numbered]
  room := room

/-- What the single calls need. -/
structure Single (net : Network) (env : Env) (s : Joint) (buyer : Address) (nonce : Nat)
    (entry : BytesN32 × Int) : Prop where
  admitted : Admitted net env s.peer buyer nonce
  accepts : Accepts net env s.registry
  active : IsActive s.registry entry.1
  owned : s.registry.ownerOf entry.1 = some buyer
  positive : 0 < entry.2

/-- The single calls all succeed for distinct active credits of the buyer and positive
amounts, if the nonces suffice. -/
theorem oneByOne_iff (room : nonce + entries.length < 2 ^ 64) :
    (∃ s', Leads net s (oneByOne net env foreign buyer reason nonce entries) s') ↔
      (entries.map Prod.fst).Nodup ∧ ∀ e ∈ entries, Single net env s buyer nonce e := by
  induction entries generalizing s nonce with
  | nil => simp [oneByOne, Leads]
  | cons entry entries ih =>
      obtain ⟨id, tonnes⟩ := entry
      rw [List.length_cons] at room
      have ih (s : Joint) := @ih s (nonce + 1) (by omega)
      rw [List.map_cons, List.nodup_cons]
      constructor
      · rintro ⟨s', output, between, first, rest⟩
        obtain ⟨admitted, accepts, active, owned, positive, moved⟩ :=
          retire_step_iff.mp ⟨output, first⟩
        obtain ⟨distinct, others⟩ := (ih between).mp ⟨s', rest⟩
        rw [moved] at others
        refine ⟨⟨?_, distinct⟩, ?_⟩
        · intro again
          obtain ⟨e, listed, same⟩ := List.mem_map.mp again
          exact (isActive_retireOne.mp (others e listed).active).1 same
        · intro e listed
          rcases List.mem_cons.mp listed with rfl | listed
          · exact ⟨admitted, accepts, active, owned, positive⟩
          · have single := others e listed
            refine ⟨admitted, accepts, (isActive_retireOne.mp single.active).2, ?_,
              single.positive⟩
            rw [← single.owned]
            exact (ownerOf_retireOne s.registry id e.1).symm
      · rintro ⟨⟨unlisted, distinct⟩, each⟩
        have head := each (id, tonnes) List.mem_cons_self
        have retired : ∃ output, (system net).exec s (.peer env
            (.retire buyer id tonnes reason net.registryId nonce) foreign) = .ok (output, _) :=
          retire_step_iff.mpr
            ⟨head.admitted, head.accepts, head.active, head.owned, head.positive, rfl⟩
        obtain ⟨output, first⟩ := retired
        have others : ∀ e ∈ entries, Single net env
            ⟨retireOne s.registry id, recorded net s.peer buyer (Call.records env
              (.retire buyer id tonnes reason net.registryId nonce))⟩ buyer (nonce + 1) e := by
          intro e listed
          have single := each e (List.mem_cons_of_mem _ listed)
          have long : 0 < entries.length := List.length_pos_of_mem listed
          refine ⟨head.admitted.next (by omega), accepts_retireOne.mpr single.accepts,
            isActive_retireOne.mpr ⟨?_, single.active⟩, ?_, single.positive⟩
          · intro same
            have again : e.1 ∈ entries.map Prod.fst := List.mem_map_of_mem listed
            exact unlisted (same ▸ again)
          · rw [← single.owned]
            exact ownerOf_retireOne s.registry id e.1
        obtain ⟨s', rest⟩ := (ih _).mpr ⟨distinct, others⟩
        exact ⟨s', output, _, first, rest⟩

/-! ## The records that they list -/

/-- The records in the list of an account, in order. -/
def State.listing (s : State) (account : Address) : List (Option RetirementRecord) :=
  (s.getRetirementsByAccount account).map (getRetirement s)

/-- A call lists the records that it writes under its buyer, after those of before. -/
theorem InStep.listing_step (inj : Function.Injective net.sha256) {event : JointEvent}
    (inStep : InStep net.sha256 event.pre) (genuine : Genuine net event)
    (commits : (system net).Commits event) {call : Call}
    (named : event.input = .peer env call foreign) (account : Address) :
    event.post.peer.listing account = event.pre.peer.listing account ++
      if call.buyer = some account then (call.records env).map fun r => some r.2 else [] := by
  obtain ⟨ret, u, success, -⟩ := Network.commits_peer commits named
  obtain ⟨stored, listed⟩ := exec_records success
  have timed : call.records (env.external net.self) = call.records env := by cases call <;> rfl
  rw [timed] at stored listed
  have kept : ∀ id ∈ event.pre.peer.getRetirementsByAccount account,
      getRetirement event.post.peer id = getRetirement event.pre.peer id := by
    intro id before
    obtain ⟨record, there, -⟩ := ((inStep.listed account).2 id).mp before
    exact (inStep.record_stays inj genuine commits there).trans there.symm
  have written : ((call.records env).map fun r => retirementId net.sha256 r.1 r.2).map
      (getRetirement event.post.peer) = (call.records env).map fun r => some r.2 := by
    rw [List.map_map]
    apply List.map_congr_left
    intro r wrote
    show event.post.peer.retirement.lookup _ = _
    rw [stored]
    exact lookup_storeAll_of_mem inj (call.records_distinct env) wrote
  unfold State.listing
  rw [listed account, List.map_append, List.map_congr_left kept]
  split
  · rw [written]
  · rfl

/-- The records of the entries of a batch. -/
def entryRecords (env : Env) (buyer : Address) (reason : String)
    (entries : List (BytesN32 × Int)) : List RetirementRecord :=
  entries.map fun e => ⟨e.1, buyer, e.2, reason, env.timestamp⟩

/-- What the single calls leave. -/
theorem oneByOne_leaves (inj : Function.Injective net.sha256) (inStep : InStep net.sha256 s)
    (leads : Leads net s (oneByOne net env foreign buyer reason nonce entries) s') :
    s'.registry = (entries.map Prod.fst).foldl retireOne s.registry ∧
      ∀ account, s'.peer.listing account = s.peer.listing account ++
        if buyer = account then (entryRecords env buyer reason entries).map some else [] := by
  induction entries generalizing s nonce with
  | nil =>
      cases leads
      exact ⟨rfl, by simp [entryRecords]⟩
  | cons entry entries ih =>
      obtain ⟨id, tonnes⟩ := entry
      obtain ⟨output, between, first, rest⟩ := leads
      have moved := (retire_step_iff.mp ⟨output, first⟩).2.2.2.2.2
      let event : JointEvent := ⟨s, .peer env (.retire buyer id tonnes reason net.registryId nonce)
        foreign, output, between⟩
      have genuine : Genuine net event := by
        intro registryId named
        exact (Option.mem_some_iff.mp named).symm
      obtain ⟨registry, listing⟩ := ih (@InStep.step net inj event inStep genuine first) rest
      have listed := @InStep.listing_step net env foreign inj event inStep genuine first _ rfl
      refine ⟨?_, ?_⟩
      · rw [registry, show event.post = _ from moved]
        rfl
      · intro account
        rw [listing account, listed account]
        simp only [Call.buyer, Call.records, entryRecords, Option.some.injEq, List.append_assoc]
        split
        · rfl
        · rfl

theorem atOnce_leaves (inj : Function.Injective net.sha256) (inStep : InStep net.sha256 s)
    {output : Network.Output Ret}
    (leads : (system net).exec s (atOnce net env foreign buyer reason nonce entries) =
      .ok (output, s')) :
    s'.registry = (entries.map Prod.fst).foldl retireOne s.registry ∧
      ∀ account, s'.peer.listing account = s.peer.listing account ++
        if buyer = account then (entryRecords env buyer reason entries).map some else [] := by
  have moved := (atOnce_iff.mp ⟨output, leads⟩).2.2.2
  let event : JointEvent := ⟨s, atOnce net env foreign buyer reason nonce entries, output, s'⟩
  have genuine : Genuine net event := by
    intro registryId named
    exact (Option.mem_some_iff.mp named).symm
  refine ⟨by rw [moved], ?_⟩
  intro account
  have listed := @InStep.listing_step net env foreign inj event inStep genuine leads _ rfl account
  have values : ((Call.batchRetire buyer (entries.map Prod.fst) (entries.map Prod.snd) reason
      net.registryId nonce).records env).map (fun r => some r.2) =
        (entryRecords env buyer reason entries).map some := by
    simp only [Call.records, zip_columns, entryRecords, List.map_map]
    conv_rhs => rw [← List.zipIdx_map_fst 0 entries, List.map_map]
    rfl
  rw [values] at listed
  simp only [Call.buyer, Option.some.injEq] at listed
  exact listed

/-- On the one registry, where the buyer owns the credits of a batch and the nonces suffice, the
batch succeeds exactly when the single calls do; either way the registry and the records listed
under every account are the same afterwards. -/
theorem batch_agrees (inj : Function.Injective net.sha256) (inputs : List (Network.Input Call))
    (genuine : ∀ event ∈ (system net).log inputs, Genuine net event)
    (owned : ∀ e ∈ entries, ((system net).state inputs).registry.ownerOf e.1 = some buyer)
    (nonempty : entries ≠ []) (room : nonce + entries.length < 2 ^ 64) :
    ((∃ output s', (system net).exec ((system net).state inputs)
        (atOnce net env foreign buyer reason nonce entries) = .ok (output, s')) ↔
      ∃ s', Leads net ((system net).state inputs)
        (oneByOne net env foreign buyer reason nonce entries) s') ∧
    ∀ output s' s'', (system net).exec ((system net).state inputs)
        (atOnce net env foreign buyer reason nonce entries) = .ok (output, s') →
      Leads net ((system net).state inputs)
        (oneByOne net env foreign buyer reason nonce entries) s'' →
      s'.registry = s''.registry ∧
        ∀ account, s'.peer.listing account = s''.peer.listing account := by
  have inStep : InStep net.sha256 ((system net).state inputs) :=
    (system net).run_induct_of (fun _ event => Genuine net event)
      (fun _ s => InStep net.sha256 s) inStep_init
      (fun log event inv genuine commits => inv.step inj genuine commits) inputs
      (Machine.admits_forall.mpr genuine)
  refine ⟨?_, ?_⟩
  · rw [oneByOne_iff room]
    constructor
    · rintro ⟨output, s', success⟩
      obtain ⟨admitted, distinct, each, -⟩ := atOnce_iff.mp ⟨output, success⟩
      refine ⟨distinct, ?_⟩
      intro e listed
      obtain ⟨positive, accepts, active⟩ := each e listed
      exact ⟨admitted, accepts, active, owned e listed, positive⟩
    · rintro ⟨distinct, each⟩
      obtain ⟨first, listed⟩ := List.exists_mem_of_ne_nil entries nonempty
      obtain ⟨output, success⟩ := atOnce_iff.mpr ⟨(each first listed).admitted, distinct,
        fun e listed => ⟨(each e listed).positive, (each e listed).accepts,
          (each e listed).active⟩, rfl⟩
      exact ⟨output, _, success⟩
  · intro output s' s'' batch single
    obtain ⟨registry, listing⟩ := atOnce_leaves inj inStep batch
    obtain ⟨registry', listing'⟩ := oneByOne_leaves inj inStep single
    exact ⟨registry.trans registry'.symm,
      fun account => (listing account).trans (listing' account).symm⟩

namespace Sample

/-- The issuer splits its credit. -/
def halved : List (Network.Input Call) :=
  issued ++ [.registry (Registry.Sample.call Registry.Sample.issuer
    (.splitCredit Registry.Sample.issuer (Registry.Sample.credit 0) 500000 1))]

def halves : List (BytesN32 × Int) :=
  [(Registry.creditId BytesN32.mk (.bytes (Registry.Sample.credit 0)) 1, 500000),
   (Registry.creditId BytesN32.mk (.bytes (Registry.Sample.credit 0)) 2, 500000)]

def issuerEnv : Env := ⟨1735689600, fun a => a == Registry.Sample.issuer⟩

end Sample

open CarbonChain.Retirement.Sample in
set_option maxRecDepth 100000 in
/-- The issuer may retire both halves in either way. -/
theorem halves_agree : ∃ output s' s'',
    (system network).exec ((system network).state halved)
      (atOnce network issuerEnv nobody Registry.Sample.issuer "offset" 0 halves) =
        .ok (output, s') ∧
    Leads network ((system network).state halved)
      (oneByOne network issuerEnv nobody Registry.Sample.issuer "offset" 0 halves) s'' ∧
    s'.registry = s''.registry := by
  obtain ⟨succeeds, same⟩ := @batch_agrees network issuerEnv nobody Registry.Sample.issuer
    "offset" 0 halves BytesN32.mk_injective halved (by decide) (by decide) (by decide) (by decide)
  have batched : ∃ output s', (system network).exec ((system network).state halved)
      (atOnce network issuerEnv nobody Registry.Sample.issuer "offset" 0 halves) =
        .ok (output, s') := ⟨_, _, rfl⟩
  obtain ⟨s'', leads⟩ := succeeds.mp batched
  obtain ⟨output, s', success⟩ := batched
  exact ⟨output, s', s'', success, leads, (same output s' s'' success leads).1⟩

end CarbonChain.Retirement
