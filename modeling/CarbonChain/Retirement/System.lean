import CarbonChain.Retirement.Records

/-!
# Retirement and the registry

The steps of `retire` and `batch_retire` as invocations of a registry, and what they
do to the registry when it is the one they name: they retire each listed credit, which
must be active when its turn comes, and so no credit is listed twice.
-/

namespace CarbonChain.Retirement

open Registry (Client Network World ForeignReply)

/-- The registry that a call names. -/
def Call.registryId : Call → Option Address
  | .retire _ _ _ _ registryId _ | .batchRetire _ _ _ _ registryId _ => some registryId
  | _ => none

/-- The credits that a call retires, in order. -/
def Call.creditIds : Call → List BytesN32
  | .retire _ creditId _ _ _ _ => [creditId]
  | .batchRetire _ creditIds _ _ _ _ => creditIds
  | _ => []

variable {sha256 : Bytes → BytesN32} {W : Type} {invoke : Client W} {env : Env} {s s' : State}
  {w w' : W}

/-! ## The invocations of a call -/

theorem retire_ok {buyer : Address} {creditId : BytesN32} {tonnes : Int} {reason : String}
    {registryId : Address} {nonce : Nat} {ret : Ret}
    (h : exec sha256 invoke env s w (.retire buyer creditId tonnes reason registryId nonce) =
      .ok (ret, s', w')) :
    env.auth buyer = true ∧ ∃ credit w₁,
      invoke w registryId (.getCredit creditId) = some (.credit credit, w₁) ∧
      credit.status = .active ∧ credit.owner = buyer ∧
      invoke w₁ registryId (.markRetired creditId) = some (.unit, w') := by
  have h := (exec_eq_ok.mp h).2
  simp only [dispatch, map_eq_ok, retire, bind_eq_ok, rejectIf_eq_ok, panicIf_eq_ok,
    exists_const, Env.requireAuth_eq_ok, Prod.exists, pure_eq_ok, Prod.mk.injEq,
    Client.getCredit_eq_ok, Client.markRetired_eq_ok, not_not, ne_eq] at h
  obtain ⟨_, _, _, ⟨-, authorised, _, -, credit, w₁, shown, active, owned, -, _, marked, -, -,
    rfl⟩, -, -, rfl⟩ := h
  exact ⟨authorised, credit, w₁, shown, active, owned, marked⟩

theorem batchRetire_ok {buyer : Address} {creditIds : List BytesN32} {tonnes : List Int}
    {reason : String} {registryId : Address} {nonce : Nat} {ret : Ret}
    (h : exec sha256 invoke env s w
      (.batchRetire buyer creditIds tonnes reason registryId nonce) = .ok (ret, s', w')) :
    env.auth buyer = true ∧ creditIds.length = tonnes.length ∧ ∃ start acc : BatchState W,
      start.world = w ∧ acc.world = w' ∧ (creditIds.zip tonnes).zipIdx.foldlM
        (batchOne sha256 invoke env buyer reason registryId) start = .ok acc := by
  have h := (exec_eq_ok.mp h).2
  simp only [dispatch, map_eq_ok, batchRetire, bind_eq_ok, rejectIf_eq_ok, panicIf_eq_ok,
    exists_const, Env.requireAuth_eq_ok, Prod.exists, pure_eq_ok, Prod.mk.injEq, not_not,
    ne_eq] at h
  obtain ⟨_, _, _, ⟨-, authorised, _, -, lengths, acc, looped, -, -, rfl⟩, -, -, rfl⟩ := h
  exact ⟨authorised, lengths, _, acc, rfl, rfl, looped⟩

theorem batchOne_ok {buyer : Address} {reason : String} {registryId : Address}
    {acc acc' : BatchState W} {entry : (BytesN32 × Int) × Nat}
    (h : batchOne sha256 invoke env buyer reason registryId acc entry = .ok acc') :
    invoke acc.world registryId (.markRetired entry.1.1) = some (.unit, acc'.world) := by
  simp only [batchOne, bind_eq_ok, panicIf_eq_ok, exists_const, pure_eq_ok,
    Client.markRetired_eq_ok] at h
  obtain ⟨-, world, marked, rfl⟩ := h
  exact marked

/-- A call that names no registry makes no invocation. -/
theorem exec_quiet {call : Call} {ret : Ret} (quiet : call.registryId = none)
    (h : exec sha256 invoke env s w call = .ok (ret, s', w')) : w' = w := by
  have h := (exec_eq_ok.mp h).2
  cases call <;> simp only [Call.registryId, reduceCtorEq] at quiet <;>
    simp only [dispatch, map_eq_ok, Prod.mk.injEq] at h <;>
    grind

/-- What every invocation keeps of the world, a call keeps. -/
theorem exec_keeps (P : W → Prop)
    (keep : ∀ w w' contract request answer, P w →
      invoke w contract request = some (answer, w') → P w')
    {call : Call} {ret : Ret} (before : P w)
    (h : exec sha256 invoke env s w call = .ok (ret, s', w')) : P w' := by
  cases call with
  | retire buyer creditId tonnes reason registryId nonce =>
      obtain ⟨-, credit, w₁, shown, -, -, marked⟩ := retire_ok h
      exact keep _ _ _ _ _ (keep _ _ _ _ _ before shown) marked
  | batchRetire buyer creditIds tonnes reason registryId nonce =>
      obtain ⟨-, -, start, acc, rfl, rfl, looped⟩ := batchRetire_ok h
      refine foldlM_ok_induct (fun _ acc => P acc.world) looped before ?_
      intro earlier entry acc acc' _ holds iterated
      exact keep _ _ _ _ _ holds (batchOne_ok iterated)
  | _ => rwa [exec_quiet rfl h]

/-- The credits of the entries that the loop of `batch_retire` goes through. -/
theorem entries_creditIds {creditIds : List BytesN32} {tonnes : List Int}
    (lengths : creditIds.length = tonnes.length) :
    (creditIds.zip tonnes).zipIdx.map (fun entry => entry.1.1) = creditIds := by
  have firsts : (creditIds.zip tonnes).map Prod.fst = creditIds :=
    List.map_fst_zip (le_of_eq lengths)
  conv_rhs => rw [← firsts, ← List.zipIdx_map_fst 0 (creditIds.zip tonnes), List.map_map]
  rfl

/-- The credits of the records of a successful call are the ones it retires. -/
theorem records_creditIds {call : Call} {ret : Ret}
    (h : exec sha256 invoke env s w call = .ok (ret, s', w')) :
    (call.records env).map (·.2.creditId) = call.creditIds := by
  cases call with
  | batchRetire buyer creditIds tonnes reason registryId nonce =>
      obtain ⟨-, lengths, -⟩ := batchRetire_ok h
      rw [Call.records, List.map_map]
      exact entries_creditIds lengths
  | _ => rfl

/-- The records of a call are in the name of its buyer, who authorised it. -/
theorem records_buyer {call : Call} {x : Option Nat × RetirementRecord}
    (listed : x ∈ call.records env) : call.buyer = some x.2.buyer := by
  cases call with
  | retire buyer creditId tonnes reason registryId nonce =>
      obtain rfl := List.mem_singleton.mp listed
      rfl
  | batchRetire buyer creditIds tonnes reason registryId nonce =>
      obtain ⟨entry, -, rfl⟩ := List.mem_map.mp listed
      rfl
  | _ => cases listed

theorem exec_authorised {call : Call} {ret : Ret} {buyer : Address}
    (named : call.buyer = some buyer)
    (h : exec sha256 invoke env s w call = .ok (ret, s', w')) : env.auth buyer = true := by
  cases call with
  | retire buyer' creditId tonnes reason registryId nonce =>
      cases named
      exact (retire_ok h).1
  | batchRetire buyer' creditIds tonnes reason registryId nonce =>
      cases named
      exact (batchRetire_ok h).1
  | _ => cases named

/-! ## Calls on the registry they name -/

/-- The credits `ids` are distinct and active before, and are retired after; no other
credit changes, and neither do the roles. -/
structure Retires (ids : List BytesN32) (before after : Registry.State) : Prop where
  distinct : ids.Nodup
  active : ∀ id ∈ ids, ∃ credit, before.ledger.getCredit id = some credit ∧
    credit.status = .active
  getCredit : ∀ id, after.ledger.getCredit id =
    if id ∈ ids then
      (before.ledger.getCredit id).map fun credit => { credit with status := .retired }
    else before.ledger.getCredit id
  roles : after.roles = before.roles

theorem Retires.nil (registry : Registry.State) : Retires [] registry registry :=
  ⟨List.nodup_nil, by simp, by simp, rfl⟩

/-- One more credit is retired: it was active, so it is not one of those before. -/
theorem Retires.snoc {ids : List BytesN32} {before middle after : Registry.State}
    (h : Retires ids before middle) {id : BytesN32} {credit : Registry.CreditMetadata}
    (stored : middle.ledger.getCredit id = some credit) (active : credit.status = .active)
    (retired : after = { middle with
      ledger := middle.ledger.setCredit id { credit with status := .retired } }) :
    Retires (ids ++ [id]) before after := by
  have unlisted : id ∉ ids := by
    intro listed
    obtain ⟨original, found, -⟩ := h.active id listed
    rw [h.getCredit, if_pos listed, found] at stored
    obtain rfl := Option.some.inj stored
    cases active
  have original : before.ledger.getCredit id = some credit := by
    rw [← stored, h.getCredit, if_neg unlisted]
  subst retired
  refine ⟨?_, ?_, ?_, h.roles⟩
  · exact List.nodup_append_comm.mp (List.nodup_cons.mpr ⟨unlisted, h.distinct⟩)
  · intro other listed
    rcases List.mem_append.mp listed with earlier | last
    · exact h.active other earlier
    · obtain rfl := List.mem_singleton.mp last
      exact ⟨credit, original, active⟩
  · intro other
    rw [Registry.Ledger.getCredit_setCredit]
    by_cases same : other = id
    · subst same
      simp [original]
    · simp [same, h.getCredit]

/-- A listed credit is retired afterwards. -/
theorem Retires.retired {ids : List BytesN32} {before after : Registry.State}
    (h : Retires ids before after) {id : BytesN32} (listed : id ∈ ids) :
    ∃ credit, after.ledger.getCredit id = some credit ∧ credit.status = .retired := by
  obtain ⟨credit, stored, -⟩ := h.active id listed
  exact ⟨{ credit with status := .retired }, by rw [h.getCredit, if_pos listed, stored]; rfl, rfl⟩

variable {net : Network} {foreign : Nat → ForeignReply} {u u' : World}

/-- Marking a credit as retired in the registry. -/
theorem client_markRetired {answer : Registry.Answer} {id : BytesN32}
    (h : net.client env foreign u net.registryId (.markRetired id) = some (answer, u')) :
    ∃ credit, u.registry.ledger.getCredit id = some credit ∧ credit.status = .active ∧
      u'.registry = { u.registry with
        ledger := u.registry.ledger.setCredit id { credit with status := .retired } } :=
  Registry.respond_markRetired_ok (Network.client_registry h)

/-- A successful call that names the registry retires the credits it lists. -/
theorem exec_retires {env' : Env} {call : Call} {ret : Ret}
    (named : ∀ registryId, call.registryId = some registryId → registryId = net.registryId)
    (h : exec sha256 (net.client env foreign) env' s u call = .ok (ret, s', u')) :
    Retires call.creditIds u.registry u'.registry := by
  cases call with
  | retire buyer creditId tonnes reason registryId nonce =>
      obtain rfl := named registryId rfl
      obtain ⟨-, credit, u₁, shown, -, -, marked⟩ := retire_ok h
      obtain ⟨same, -⟩ := Registry.respond_getCredit (Network.client_registry shown)
      obtain ⟨found, stored, active, retired⟩ := client_markRetired marked
      rw [same] at stored retired
      exact (Retires.nil _).snoc stored active retired
  | batchRetire buyer creditIds tonnes reason registryId nonce =>
      obtain rfl := named registryId rfl
      obtain ⟨-, lengths, start, acc, rfl, rfl, looped⟩ := batchRetire_ok h
      have loop : Retires ((creditIds.zip tonnes).zipIdx.map fun entry => entry.1.1)
          start.world.registry acc.world.registry := by
        refine foldlM_ok_induct (fun (entries : List ((BytesN32 × Int) × Nat)) acc =>
          Retires (entries.map fun entry => entry.1.1) start.world.registry acc.world.registry)
          looped ?_ ?_
        · exact Retires.nil _
        · intro earlier entry acc acc' _ loop iterated
          obtain ⟨credit, stored, active, retired⟩ := client_markRetired (batchOne_ok iterated)
          rw [List.map_append]
          exact loop.snoc stored active retired
      rw [entries_creditIds lengths] at loop
      exact loop
  | _ =>
      rw [exec_quiet rfl h]
      exact Retires.nil _

/-! ## Runs on the network -/

abbrev Joint := Network.Joint State

abbrev JointEvent := Event Joint (Network.Input Call) (Network.Output Ret)

/-- Retirement and the registry, from empty storage. -/
def system (net : Network) :
    Machine Joint (Network.Input Call) (Network.Output Ret) (Network.Failure RetirementError) :=
  net.machine (peer net.sha256)

/-- The event is not a call of Retirement that names another registry than `net`'s. -/
def Genuine (net : Network) (event : JointEvent) : Prop :=
  ∀ registryId ∈ event.input.call.bind Call.registryId, registryId = net.registryId

instance (net : Network) (event : JointEvent) : Decidable (Genuine net event) :=
  inferInstanceAs (Decidable (∀ registryId ∈ event.input.call.bind Call.registryId, _ = _))

theorem Genuine.registryId_eq {event : JointEvent} (genuine : Genuine net event) {env : Env}
    {call : Call} {foreign : Nat → ForeignReply} (named : event.input = .peer env call foreign)
    {registryId : Address} (names : call.registryId = some registryId) :
    registryId = net.registryId := by
  apply genuine registryId
  rw [named]
  exact names

/-- A registry that is initialised registers Retirement as its retirement contract. -/
def Trusting (net : Network) (event : JointEvent) : Prop :=
  ∀ retirementContract ∈ event.input.appoints, retirementContract = net.self

instance (net : Network) (event : JointEvent) : Decidable (Trusting net event) :=
  inferInstanceAs (Decidable (∀ retirementContract ∈ event.input.appoints, _ = _))

/-- What every invocation of the registry keeps, a transaction keeps. -/
theorem commits_keeps (P : Registry.State → Prop)
    (keep : ∀ s s' invocation ret, P s →
      Registry.exec net.sha256 s invocation = .ok (ret, s') → P s')
    {event : JointEvent} (before : P event.pre.registry) (commits : (system net).Commits event) :
    P event.post.registry := by
  cases named : event.input with
  | registry invocation =>
      obtain ⟨-, ret, success⟩ := Network.commits_registry commits named
      exact keep _ _ _ ret before success
  | peer env call foreign =>
      obtain ⟨ret, u, success, same⟩ := Network.commits_peer commits named
      rw [← same]
      refine exec_keeps (fun u => P u.registry) ?_ before success
      intro w w' contract request answer kept invoked
      exact Network.client_keeps P keep kept invoked

/-- A call on the registry it names retires the credits it lists. -/
theorem commits_retires {event : JointEvent} (genuine : Genuine net event)
    (commits : (system net).Commits event) {env : Env} {call : Call}
    {foreign : Nat → ForeignReply} (named : event.input = .peer env call foreign) :
    Retires call.creditIds event.pre.registry event.post.registry := by
  obtain ⟨ret, u, success, same⟩ := Network.commits_peer commits named
  rw [← same]
  exact exec_retires (fun registryId names => genuine.registryId_eq named names) success

/-! ## A network in operation -/

namespace Sample

/-- The sample registry at one address and its retirement contract at another. -/
def network : Network := ⟨BytesN32.mk, .contract 8, Registry.Sample.retirementContract⟩

/-- No contract of the adversary is invoked. -/
def nobody : Nat → ForeignReply := fun _ => ⟨[], none⟩

/-- The issuer's one active credit. -/
def issued : List (Network.Input Call) := Registry.Sample.approve.map .registry

/-- `signer` calls Retirement. -/
def call (signer : Address) (call : Call) : Network.Input Call :=
  .peer ⟨1735689600, fun a => a == signer⟩ call nobody

end Sample

end CarbonChain.Retirement
