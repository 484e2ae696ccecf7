import CarbonChain.Retirement.Contract

/-!
# Retirement: the records

Which records a call writes, under which ids, and what that does to the records already
stored. An id determines the position in a batch, the credit, the reason and the ledger
time of its record (`contracts/retirement/src/lib.rs:145-148`, `:236-240`), and nothing
else: the buyer and the tonnes are not in the preimage. So a stored record is replaced
exactly when a later call agrees with it on these four and differs in the buyer or the
tonnes.
-/

namespace CarbonChain.Retirement

open Registry (Client ScriptedCall)

/-- The records that a call writes, with their positions in a batch. -/
def Call.records (env : Env) : Call → List (Option Nat × RetirementRecord)
  | .retire buyer creditId tonnes reason _ _ =>
      [(none, ⟨creditId, buyer, tonnes, reason, env.timestamp⟩)]
  | .batchRetire buyer creditIds tonnes reason _ _ =>
      (creditIds.zip tonnes).zipIdx.map fun ((creditId, tonneAmount), i) =>
        (some i, ⟨creditId, buyer, tonneAmount, reason, env.timestamp⟩)
  | _ => []

/-- The buyer of a call that writes records. -/
def Call.buyer : Call → Option Address
  | .retire buyer _ _ _ _ _ | .batchRetire buyer _ _ _ _ _ => some buyer
  | _ => none

variable {sha256 : Bytes → BytesN32}

/-- Writes records under their ids. -/
def storeAll (sha256 : Bytes → BytesN32) (retirement : Store BytesN32 RetirementRecord)
    (records : List (Option Nat × RetirementRecord)) : Store BytesN32 RetirementRecord :=
  records.foldl (fun store r => store.insert (retirementId sha256 r.1 r.2) r.2) retirement

/-- The two records have the same position, credit, reason and ledger time. -/
def SameKey (x y : Option Nat × RetirementRecord) : Prop :=
  x.1 = y.1 ∧ x.2.creditId = y.2.creditId ∧ x.2.reason = y.2.reason ∧
    x.2.retiredAt = y.2.retiredAt

instance (x y : Option Nat × RetirementRecord) : Decidable (SameKey x y) :=
  inferInstanceAs (Decidable (_ ∧ _))

/-! ## Ids -/

theorem preimage_append_eq (r r' : RetirementRecord) (rest rest' : Bytes) :
    preimage r ++ rest = preimage r' ++ rest' ↔
      r.creditId = r'.creditId ∧ r.reason = r'.reason ∧ r.retiredAt = r'.retiredAt ∧
        rest = rest' := by
  unfold preimage
  simp only [List.append_assoc, ScVal.toXdr_append_eq, ScVal.bytes.injEq, ScVal.string.injEq,
    ScVal.u64.injEq]

theorem retirementId_eq (inj : Function.Injective sha256) {x y : Option Nat × RetirementRecord} :
    retirementId sha256 x.1 x.2 = retirementId sha256 y.1 y.2 ↔ SameKey x y := by
  obtain ⟨p, r⟩ := x
  obtain ⟨q, r'⟩ := y
  have bare := preimage_append_eq r r' [] []
  simp only [List.append_nil] at bare
  cases p with
  | none =>
      cases q with
      | none => simp [retirementId, SameKey, inj.eq_iff, bare]
      | some j =>
          have longer := preimage_append_eq r r' [] (ScVal.u32 j).toXdr
          rw [List.append_nil] at longer
          simp [retirementId, SameKey, inj.eq_iff, longer, Ne.symm ScVal.toXdr_ne_nil]
  | some i =>
      cases q with
      | none =>
          have longer := preimage_append_eq r r' (ScVal.u32 i).toXdr []
          rw [List.append_nil] at longer
          simp [retirementId, SameKey, inj.eq_iff, longer]
      | some j =>
          simp only [retirementId, SameKey, inj.eq_iff, preimage_append_eq, ScVal.toXdr_eq,
            ScVal.u32.injEq, Option.some.injEq]
          constructor
          · rintro ⟨credit, reason, time, position⟩
            exact ⟨position, credit, reason, time⟩
          · rintro ⟨position, credit, reason, time⟩
            exact ⟨credit, reason, time, position⟩

/-- No two records of one call have the same key. -/
theorem Call.records_distinct (call : Call) (env : Env) :
    (call.records env).Pairwise fun x y => x.1 ≠ y.1 := by
  cases call with
  | batchRetire buyer creditIds tonnes reason registryId nonce =>
      unfold records
      rw [List.pairwise_map]
      have positions : ((creditIds.zip tonnes).zipIdx.map Prod.snd).Nodup := by
        rw [List.zipIdx_map_snd]
        exact List.nodup_range'
      rw [List.Nodup, List.pairwise_map] at positions
      exact positions.imp fun differ same => differ (Option.some.inj same)
  | retire buyer creditId tonnes reason registryId nonce => exact List.pairwise_singleton _ _
  | _ => exact List.Pairwise.nil

/-! ## Writing records -/

theorem storeAll_append (retirement : Store BytesN32 RetirementRecord)
    (xs ys : List (Option Nat × RetirementRecord)) :
    storeAll sha256 retirement (xs ++ ys) =
      storeAll sha256 (storeAll sha256 retirement xs) ys := by
  simp [storeAll, List.foldl_append]

/-- An id that no written record has keeps its record. -/
theorem lookup_storeAll_of_ne {retirement : Store BytesN32 RetirementRecord}
    {records : List (Option Nat × RetirementRecord)} {id : BytesN32}
    (other : ∀ x ∈ records, id ≠ retirementId sha256 x.1 x.2) :
    (storeAll sha256 retirement records).lookup id = retirement.lookup id := by
  induction records generalizing retirement with
  | nil => rfl
  | cons x rest ih =>
      have later := @ih (retirement.insert (retirementId sha256 x.1 x.2) x.2)
        fun y listed => other y (List.mem_cons_of_mem x listed)
      rw [Store.lookup_insert_ite, if_neg (other x List.mem_cons_self)] at later
      exact later

/-- Records of distinct positions are all there after they are written. -/
theorem lookup_storeAll_of_mem (inj : Function.Injective sha256)
    {retirement : Store BytesN32 RetirementRecord}
    {records : List (Option Nat × RetirementRecord)}
    (distinct : records.Pairwise fun x y => x.1 ≠ y.1) {x : Option Nat × RetirementRecord}
    (listed : x ∈ records) :
    (storeAll sha256 retirement records).lookup (retirementId sha256 x.1 x.2) = some x.2 := by
  induction records generalizing retirement with
  | nil => cases listed
  | cons first rest ih =>
      obtain ⟨apart, distinct⟩ := List.pairwise_cons.mp distinct
      rcases List.mem_cons.mp listed with rfl | later
      · have unwritten : ∀ y ∈ rest, retirementId sha256 x.1 x.2 ≠ retirementId sha256 y.1 y.2 := by
          intro y member same
          exact apart y member ((retirementId_eq inj).mp same).1
        exact (lookup_storeAll_of_ne unwritten).trans (by simp)
      · exact ih distinct later

/-- A record that is stored after a write was stored before or is one of those written. -/
theorem lookup_storeAll_cases (inj : Function.Injective sha256)
    {retirement : Store BytesN32 RetirementRecord}
    {records : List (Option Nat × RetirementRecord)}
    (distinct : records.Pairwise fun x y => x.1 ≠ y.1) {id : BytesN32}
    {record : RetirementRecord}
    (stored : (storeAll sha256 retirement records).lookup id = some record) :
    (∃ x ∈ records, id = retirementId sha256 x.1 x.2 ∧ record = x.2) ∨
      (∀ x ∈ records, id ≠ retirementId sha256 x.1 x.2) ∧ retirement.lookup id = some record := by
  by_cases written : ∃ x ∈ records, id = retirementId sha256 x.1 x.2
  · obtain ⟨x, listed, rfl⟩ := written
    rw [lookup_storeAll_of_mem inj distinct listed] at stored
    exact .inl ⟨x, listed, rfl, (Option.some.inj stored).symm⟩
  · have other : ∀ x ∈ records, id ≠ retirementId sha256 x.1 x.2 :=
      fun x listed same => written ⟨x, listed, same⟩
    rw [lookup_storeAll_of_ne other] at stored
    exact .inr ⟨other, stored⟩

/-! ## What a call writes -/

variable {W : Type} {invoke : Client W} {env : Env} {s s' : State} {w w' : W}

/-- The iterations done so far have written the records of their entries, in the store and
in the list of the account. -/
theorem batchLoop_records {buyer : Address} {reason : String} {registryId : Address}
    {start finish : BatchState W} {entries : List ((BytesN32 × Int) × Nat)}
    (h : entries.foldlM (batchOne sha256 invoke env buyer reason registryId) start = .ok finish) :
    let records := entries.map fun ((creditId, tonneAmount), i) =>
      (some i, (⟨creditId, buyer, tonneAmount, reason, env.timestamp⟩ : RetirementRecord))
    finish.retirement = storeAll sha256 start.retirement records ∧
      finish.list = start.list ++ records.map fun r => retirementId sha256 r.1 r.2 := by
  refine foldlM_ok_induct (fun entries finish =>
    let records := entries.map fun ((creditId, tonneAmount), i) =>
      (some i, (⟨creditId, buyer, tonneAmount, reason, env.timestamp⟩ : RetirementRecord))
    finish.retirement = storeAll sha256 start.retirement records ∧
      finish.list = start.list ++ records.map fun r => retirementId sha256 r.1 r.2) h
    ⟨rfl, by simp⟩ ?_
  intro earlier entry acc acc' _ ⟨written, listed⟩ iterated
  simp only [batchOne, bind_eq_ok, panicIf_eq_ok, exists_const, pure_eq_ok] at iterated
  obtain ⟨-, world, -, rfl⟩ := iterated
  refine ⟨?_, ?_⟩
  · rw [List.map_append, storeAll_append, ← written]
    rfl
  · simp only [List.map_append, ← List.append_assoc, ← listed]
    rfl

theorem exec_eq_ok {call : Call} {ret : Ret} :
    exec sha256 invoke env s w call = .ok (ret, s', w') ↔
      s.wasm = none ∧ dispatch sha256 invoke env s w call = .ok (ret, s', w') := by
  simp [exec]

/-- A single retirement stores its record under the id, and upgrades nothing. -/
theorem retire_stores {buyer : Address} {creditId : BytesN32} {tonnes : Int} {reason : String}
    {registryId : Address} {nonce : Nat} {id : BytesN32}
    (h : exec sha256 invoke env s w (.retire buyer creditId tonnes reason registryId nonce) =
      .ok (.id id, s', w')) :
    s'.wasm = none ∧
      s'.retirement.lookup id = some ⟨creditId, buyer, tonnes, reason, env.timestamp⟩ := by
  obtain ⟨installed, h⟩ := exec_eq_ok.mp h
  simp only [dispatch, map_eq_ok, retire, bind_eq_ok, rejectIf_eq_ok, panicIf_eq_ok,
    exists_const, Env.requireAuth_eq_ok, Prod.exists, pure_eq_ok, Prod.mk.injEq] at h
  obtain ⟨_, _, _, ⟨-, -, _, -, _, _, -, -, -, -, _, -, rfl, rfl, rfl⟩, same, rfl, rfl⟩ := h
  obtain rfl := Ret.id.inj same
  refine ⟨installed, ?_⟩
  rw [Store.lookup_insert_ite, if_pos rfl]

/-- A call stores its records and lists their ids under its buyer. -/
theorem exec_records {call : Call} {ret : Ret}
    (h : exec sha256 invoke env s w call = .ok (ret, s', w')) :
    s'.retirement = storeAll sha256 s.retirement (call.records env) ∧
      ∀ a, s'.getRetirementsByAccount a = s.getRetirementsByAccount a ++
        if call.buyer = some a then
          (call.records env).map fun r => retirementId sha256 r.1 r.2
        else [] := by
  have h := (exec_eq_ok.mp h).2
  cases call with
  | retire buyer creditId tonnes reason registryId nonce =>
      simp only [dispatch, map_eq_ok, retire, bind_eq_ok, rejectIf_eq_ok, panicIf_eq_ok,
        exists_const, Env.requireAuth_eq_ok, Prod.exists, pure_eq_ok, Prod.mk.injEq] at h
      obtain ⟨_, _, _, ⟨-, -, _, -, _, _, -, -, -, -, _, -, rfl, rfl, rfl⟩, -, rfl, -⟩ := h
      refine ⟨rfl, ?_⟩
      intro a
      by_cases own : buyer = a
      · subst own
        simp [State.getRetirementsByAccount, Call.buyer, Call.records]
      · simp [State.getRetirementsByAccount, Call.buyer, own, Ne.symm own]
  | batchRetire buyer creditIds tonnes reason registryId nonce =>
      simp only [dispatch, map_eq_ok, batchRetire, bind_eq_ok, rejectIf_eq_ok, panicIf_eq_ok,
        exists_const, Env.requireAuth_eq_ok, Prod.exists, pure_eq_ok, Prod.mk.injEq] at h
      obtain ⟨_, _, _, ⟨-, -, _, -, -, acc, looped, rfl, rfl, rfl⟩, -, rfl, -⟩ := h
      obtain ⟨written, listed⟩ := batchLoop_records looped
      refine ⟨written, ?_⟩
      intro a
      by_cases own : buyer = a
      · subst own
        simp only [State.getRetirementsByAccount, Call.buyer, Store.lookup_insert_ite, if_true,
          Option.getD_some]
        exact listed
      · simp [State.getRetirementsByAccount, Call.buyer, own, Ne.symm own]
  | _ =>
      simp only [dispatch, map_eq_ok, initializeContract, pause, unpause, setPaused, upgrade,
        proposeAdmin, acceptAdmin, bind_eq_ok, pure_eq_ok, Prod.mk.injEq] at h
      refine ⟨?_, ?_⟩
      · grind [Call.records, storeAll]
      · grind [Call.buyer, State.getRetirementsByAccount]

/-! ## Immutability over runs -/

abbrev Log := List (Event State (ScriptedCall Call) Ret)

/-- The records that the call of an event writes. -/
def recordsOf (event : Event State (ScriptedCall Call) Ret) :
    List (Option Nat × RetirementRecord) :=
  event.input.call.records event.input.env

theorem recordsOf_distinct (event : Event State (ScriptedCall Call) Ret) :
    (recordsOf event).Pairwise fun x y => x.1 ≠ y.1 :=
  event.input.call.records_distinct event.input.env

/-- No event changes the record stored under an id. -/
def Immutable (log : Log) : Prop :=
  ∀ event ∈ log, ∀ id record, event.pre.retirement.lookup id = some record →
    event.post.retirement.lookup id = some record

/-- Records of the two events with the same key are the same record: they have the same
buyer and tonnes. -/
def Agree (e e' : Event State (ScriptedCall Call) Ret) : Prop :=
  ∀ x ∈ recordsOf e, ∀ y ∈ recordsOf e', SameKey x y → x.2 = y.2

instance : DecidableRel Agree := fun e e' =>
  inferInstanceAs (Decidable (∀ x ∈ recordsOf e, ∀ y ∈ recordsOf e', SameKey x y → x.2 = y.2))

theorem committed_records {event : Event State (ScriptedCall Call) Ret}
    (commits : (peer sha256).alone.Commits event) :
    event.post.retirement = storeAll sha256 event.pre.retirement (recordsOf event) := by
  obtain ⟨n, success⟩ := Registry.Peer.alone_commits.mp commits
  exact (exec_records success).1

/-- Every stored record was written by a logged event. -/
theorem records_logged (inj : Function.Injective sha256) (inputs : List (ScriptedCall Call)) :
    ∀ id record, ((peer sha256).alone.state inputs).retirement.lookup id = some record →
      ∃ e ∈ (peer sha256).alone.log inputs, ∃ x ∈ recordsOf e,
        id = retirementId sha256 x.1 x.2 ∧ record = x.2 := by
  refine (peer sha256).alone.run_induct (fun log s => ∀ id record,
    s.retirement.lookup id = some record → ∃ e ∈ log, ∃ x ∈ recordsOf e,
      id = retirementId sha256 x.1 x.2 ∧ record = x.2) ?_ ?_ inputs
  · intro id record stored
    cases stored
  · intro log event ih commits id record stored
    rw [committed_records commits] at stored
    rcases lookup_storeAll_cases inj (recordsOf_distinct event) stored with
      ⟨x, listed, same, rfl⟩ | ⟨-, before⟩
    · exact ⟨event, by simp, x, listed, same, rfl⟩
    · obtain ⟨e, logged, facts⟩ := ih id record before
      exact ⟨e, List.mem_append_left _ logged, facts⟩

/-- While no record changes, every record that was written is still there, and all
records with one key agree. -/
theorem records_kept (inj : Function.Injective sha256) (inputs : List (ScriptedCall Call))
    (immutable : Immutable ((peer sha256).alone.log inputs)) :
    (∀ e ∈ (peer sha256).alone.log inputs, ∀ x ∈ recordsOf e,
      ((peer sha256).alone.state inputs).retirement.lookup (retirementId sha256 x.1 x.2) =
        some x.2) ∧
      ((peer sha256).alone.log inputs).Pairwise Agree := by
  refine (peer sha256).alone.run_induct (fun log s => Immutable log →
    (∀ e ∈ log, ∀ x ∈ recordsOf e, s.retirement.lookup (retirementId sha256 x.1 x.2) =
      some x.2) ∧ log.Pairwise Agree) ?_ ?_ inputs immutable
  · intro _
    exact ⟨by simp, List.Pairwise.nil⟩
  · intro log event ih commits immutable
    obtain ⟨there, agree⟩ := ih fun e logged => immutable e (List.mem_append_left _ logged)
    have still := immutable event (by simp)
    have written : ∀ x ∈ recordsOf event,
        event.post.retirement.lookup (retirementId sha256 x.1 x.2) = some x.2 := by
      intro x listed
      rw [committed_records commits]
      exact lookup_storeAll_of_mem inj (recordsOf_distinct event) listed
    refine ⟨?_, ?_⟩
    · intro e logged x listed
      rcases List.mem_append.mp logged with before | last
      · exact still _ _ (there e before x listed)
      · obtain rfl := List.mem_singleton.mp last
        exact written x listed
    · refine Machine.pairwise_snoc.mpr ⟨agree, ?_⟩
      intro e logged x listed y listed' same
      -- the earlier record is still stored when the later one is written to its id
      have earlier := still _ _ (there e logged x listed)
      rw [(retirementId_eq inj).mpr same, written y listed'] at earlier
      exact (Option.some.inj earlier).symm

/-- Retirement records are immutable in exactly the runs in which no two successful calls
write records of the same position, credit, reason and ledger time with another buyer or
other tonnes. -/
theorem immutable_iff_agree (inj : Function.Injective sha256)
    (inputs : List (ScriptedCall Call)) :
    Immutable ((peer sha256).alone.log inputs) ↔
      ((peer sha256).alone.log inputs).Pairwise Agree := by
  constructor
  · exact fun immutable => (records_kept inj inputs immutable).2
  · intro agree event logged id record stored
    obtain ⟨before, after, split⟩ := List.append_of_mem logged
    obtain ⟨earlier, later, -, logged', reached, commits⟩ := (peer sha256).alone.log_split split
    rw [← reached] at stored
    obtain ⟨e, listed, x, written, rfl, rfl⟩ := records_logged inj earlier id record stored
    rw [reached] at stored
    rw [committed_records commits]
    by_cases rewritten : ∃ y ∈ recordsOf event,
        retirementId sha256 x.1 x.2 = retirementId sha256 y.1 y.2
    · obtain ⟨y, member, same⟩ := rewritten
      rw [split, ← logged', List.pairwise_append] at agree
      have equal := agree.2.2 e listed event (by simp) x written y member
        ((retirementId_eq inj).mp same)
      rw [same, lookup_storeAll_of_mem inj (recordsOf_distinct event) member, equal]
    · rw [lookup_storeAll_of_ne fun y member same => rewritten ⟨y, member, same⟩]
      exact stored

namespace Sample

def buyer : Address := .account 4

def otherBuyer : Address := .account 5

/-- A registry that shows every credit as active and owned by `owner`, and lets it be
marked as retired. -/
def obliging (owner : Address) : Registry.Script := fun _ _ request =>
  match request with
  | .getCredit _ =>
      some (.credit ⟨"project-1", owner, owner, 2024, "VCS", "NG", 1000000, "ipfs", .active, 0⟩)
  | .markRetired _ => some .unit
  | _ => none

/-- `signer` retires the credit `[7]` at `timestamp`, naming the obliging registry. -/
def retire (signer : Address) (timestamp : Nat) : ScriptedCall Call :=
  ⟨⟨timestamp, fun a => a == signer⟩,
    .retire signer ⟨[7]⟩ 1000000 "offset" (.contract 66) 0, obliging signer⟩

end Sample

set_option maxRecDepth 100000 in
theorem retire_later_immutable :
    Immutable ((peer BytesN32.mk).alone.log
        [Sample.retire Sample.buyer 100, Sample.retire Sample.otherBuyer 101]) :=
  (immutable_iff_agree BytesN32.mk_injective _).mpr (by decide)

set_option maxRecDepth 100000 in
/-- The second call, in the same ledger, takes over the record of the first. -/
theorem retire_same_ledger_overwrites :
    Function.Injective BytesN32.mk ∧
      ¬ Immutable ((peer BytesN32.mk).alone.log
        [Sample.retire Sample.buyer 100, Sample.retire Sample.otherBuyer 100]) := by
  refine ⟨BytesN32.mk_injective, ?_⟩
  intro immutable
  have agree := (records_kept BytesN32.mk_injective _ immutable).2
  revert agree
  decide

end CarbonChain.Retirement
