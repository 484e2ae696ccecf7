import CarbonChain.Certificates.Agreement
import CarbonChain.Credits.Listing
import CarbonChain.Misc.Keyed
import CarbonChain.Misc.Logs

/-!
# The listings of the retirements

The repository of the service (`api/src/retirement/retirement.repository.ts:23-66`) is a `Map`,
which keeps its keys in the order in which they came. The listings cut their pages out of its
values (`retirement.service.ts:180-195`). With this order the service goes the same way as
with the finite map that it stands for.
-/

namespace CarbonChain.Certificates

open Credits (PageResult paginate paginate_succ)
open Retirement (Joint)
open Stellar (Rpc)

/-- The values of the `Map`, in its order. A value stands under its own id. -/
structure InMemoryRetirementRepository where
  store : List RetirementEntity
  distinct : (store.map RetirementEntity.id).Nodup

namespace InMemoryRetirementRepository

/-- The repository at the start. -/
def empty : InMemoryRetirementRepository := ⟨[], List.nodup_nil⟩

variable (repo : InMemoryRetirementRepository)

/-- `save` (26-29): an id that is there keeps its place. -/
def save (record : RetirementEntity) : InMemoryRetirementRepository :=
  ⟨Keyed.upsert RetirementEntity.id record.id record repo.store,
    Keyed.nodup_upsert repo.distinct rfl⟩

/-- `findById` (31-33). -/
def findById (id : Written BytesN32) : Option RetirementEntity :=
  repo.store.find? (·.id = id)

/-- `findByBuyer` (35-44). -/
def findByBuyer (buyer : Written Address) (page limit : Int) : PageResult RetirementEntity :=
  paginate (repo.store.filter (·.buyer = buyer)) page limit

/-- `findAll` (46-51). -/
def findAll (page limit : Int) : PageResult RetirementEntity :=
  paginate repo.store page limit

theorem findById_save (record : RetirementEntity) (id : Written BytesN32) :
    (repo.save record).findById id =
      if id = record.id then some record else repo.findById id :=
  Keyed.find?_upsert repo.distinct rfl id

theorem findById_eq_some_iff {id : Written BytesN32} {e : RetirementEntity} :
    repo.findById id = some e ↔ e ∈ repo.store ∧ e.id = id :=
  Keyed.find?_eq_some_iff repo.distinct

end InMemoryRetirementRepository

/-- The page with its entities as records. -/
def recordsOf (result : PageResult RetirementEntity) : PageResult ApiRecord :=
  ⟨result.data.map entityToRecord, result.total, result.page, result.limit⟩

/-- `listRetirements` of the service (180-186). -/
def listRetirements (repo : InMemoryRetirementRepository) (page limit : Int) :
    PageResult ApiRecord :=
  recordsOf (repo.findAll page limit)

/-- `getRetirementsByAccount` of the service (188-195). -/
def getRetirementsByAccount (repo : InMemoryRetirementRepository) (account : Written Address)
    (page limit : Int) : PageResult ApiRecord :=
  recordsOf (repo.findByBuyer account page limit)

/-! ## The service with its order -/

/-- What `retire` returns and, before that, saves. -/
def retiring (config : Config) (dto : RetireDto) (rpc : Rpc BytesN32) (now : Nat) :
    Stellar.Result (Retired × RetirementEntity) := do
  submit config dto
  let response ← Stellar.invokeContract rpc
  let retirementId := retirementIdOf response
  let entity := dto.entity retirementId now
  let emitted : CreditRetiredEvent :=
    { retirementId, creditId := dto.creditId, buyer := dto.buyerPublicKey,
      tonnesRetired := dto.tonnes, retiredAt := entity.retiredAt }
  return (⟨retirementId, "", emitted⟩, entity)

/-- The chain, and the repository in its order. -/
structure Indexed where
  chain : Joint
  repo : InMemoryRetirementRepository

/-- As `exec`, over the repository in its order. -/
def Indexed.exec (config : Config) (s : Indexed) : Step → Except Unit (Option Retired × Indexed)
  | .transaction input =>
      match (Retirement.system config.network).exec s.chain input with
      | .ok (_, chain) => .ok (none, { s with chain })
      | .error _ => .error ()
  | .retire dto execution rpc now =>
      let chain := (execute config s.chain dto execution).1
      match retiring config dto rpc now with
      | .ok (retired, entity) => .ok (some retired, ⟨chain, s.repo.save entity⟩)
      | .error _ => .ok (none, ⟨chain, s.repo⟩)

/-- The service and the contracts from their start. -/
def indexed (config : Config) : Machine Indexed Step (Option Retired) Unit where
  init := ⟨(Retirement.system config.network).init, .empty⟩
  exec := Indexed.exec config

variable {config : Config}

theorem retire_eq (repo : Repository) (dto : RetireDto) (rpc : Rpc BytesN32) (now : Nat) :
    retire config repo dto rpc now =
      (retiring config dto rpc now).map fun (retired, entity) => (retired, repo.save entity) := by
  unfold retire retiring
  cases submit config dto with
  | error failure => rfl
  | ok submitted => cases Stellar.invokeContract rpc <;> rfl

theorem retiring_eq_ok {dto : RetireDto} {rpc : Rpc BytesN32} {now : Nat} {retired : Retired}
    {entity : RetirementEntity} (h : retiring config dto rpc now = .ok (retired, entity)) :
    entity = dto.entity retired.retirementId now := by
  simp only [retiring, bind_eq_ok, pure_eq_ok, Prod.mk.injEq] at h
  obtain ⟨-, -, response, -, rfl, rfl⟩ := h
  rfl

/-! ## What the order stands for -/

/-- The states have the same chain, and the repositories the same entities under the same ids. -/
structure Represents (s : Indexed) (t : State) : Prop where
  chain : s.chain = t.chain
  entities : ∀ id, s.repo.findById id = t.repo.findById id

theorem represents_exec (config : Config) (s : Indexed) (t : State) (step : Step)
    (same : Represents s t) :
    Machine.Alike Represents (s.exec config step) (exec config t step) := by
  cases step with
  | transaction input =>
      simp only [Indexed.exec, exec, same.chain]
      cases (Retirement.system config.network).exec t.chain input with
      | error _ => exact .error
      | ok result => exact .ok ⟨rfl, same.entities⟩
  | retire dto execution rpc now =>
      simp only [Indexed.exec, exec, retire_eq, same.chain]
      cases retiring config dto rpc now with
      | error _ => exact .ok ⟨rfl, same.entities⟩
      | ok result =>
          refine .ok ⟨rfl, ?_⟩
          intro id
          rw [InMemoryRetirementRepository.findById_save, Repository.findById, Repository.save,
            Store.lookup_insert_ite, same.entities id]
          rfl

/-- The service with its order is the service: it has the same chain and finds the same entities,
and its calls return the same. -/
theorem indexed_represents (config : Config) (inputs : List Step) :
    Represents ((indexed config).state inputs) ((service config).state inputs) ∧
      Machine.calls ((indexed config).log inputs) = Machine.calls ((service config).log inputs) :=
  (indexed config).simulates (service config) Represents ⟨rfl, fun _ => rfl⟩
    (represents_exec config) inputs

/-! ## The records that stand -/

abbrev IndexedEvent := Event Indexed Step (Option Retired)

/-- The entity that a call of `retire` has saved. -/
def saves (event : IndexedEvent) : Option RetirementEntity :=
  match event.input, event.output with
  | .retire dto _ _ now, some retired => some (dto.entity retired.retirementId now)
  | _, _ => none

/-- What an event writes under an id. -/
def writes (event : IndexedEvent) (id : Written BytesN32) : Option (Option RetirementEntity) :=
  ((saves event).filter (·.id = id)).map some

/-- A call has saved the entity, and no later one has saved another under its id. -/
def Stands (log : List IndexedEvent) (e : RetirementEntity) : Prop :=
  ∃ before event after, log = before ++ event :: after ∧ saves event = some e ∧
    ∀ later ∈ after, ∀ e' ∈ saves later, e'.id ≠ e.id

/-- A call saves what it has retired, and nothing else touches the repository. -/
theorem indexed_commits {event : IndexedEvent} (commits : (indexed config).Commits event) :
    event.post.repo = (saves event).elim event.pre.repo event.pre.repo.save := by
  obtain ⟨pre, input, output, post⟩ := event
  change Indexed.exec config pre input = .ok (output, post) at commits
  cases input with
  | transaction input =>
      simp only [Indexed.exec] at commits
      split at commits
      · cases commits
        rfl
      · cases commits
  | retire dto execution rpc now =>
      simp only [Indexed.exec] at commits
      split at commits
      · next retired entity done =>
          cases commits
          rw [retiring_eq_ok done]
          rfl
      · cases commits
        rfl

/-- The repository has under each id the last entity that was saved there. -/
theorem findById_eq_held (inputs : List Step) (id : Written BytesN32) :
    ((indexed config).state inputs).repo.findById id =
      Latest.held writes ((indexed config).log inputs) id := by
  refine (indexed config).run_induct
    (fun log s => s.repo.findById id = Latest.held writes log id) rfl ?_ inputs
  intro log event kept commits
  rw [indexed_commits commits, Latest.held_snoc, Latest.written, ← kept, writes]
  cases saves event with
  | none => rfl
  | some e =>
      show (event.pre.repo.save e).findById id = _
      rw [InMemoryRetirementRepository.findById_save]
      by_cases same : e.id = id
      · simp [Option.filter_some, same]
      · simp [Option.filter_some, same, Ne.symm same]

theorem writes_eq_some_iff {event : IndexedEvent} {e : RetirementEntity} :
    writes event e.id = some (some e) ↔ saves event = some e := by
  unfold writes
  cases saves event with
  | none => simp
  | some e' => simp [Option.filter_eq_some_iff]

theorem writes_eq_none_iff {event : IndexedEvent} {id : Written BytesN32} :
    writes event id = none ↔ ∀ e ∈ saves event, e.id ≠ id := by
  simp [writes, Option.filter_eq_none_iff]

/-- The stored entities are those that calls have saved and no later call has overwritten. -/
theorem mem_store_iff_stands {inputs : List Step} {e : RetirementEntity} :
    e ∈ ((indexed config).state inputs).repo.store ↔ Stands ((indexed config).log inputs) e := by
  have found := @InMemoryRetirementRepository.findById_eq_some_iff
    ((indexed config).state inputs).repo e.id e
  rw [findById_eq_held, Latest.held_eq_some_iff] at found
  simp only [writes_eq_some_iff, writes_eq_none_iff, and_true] at found
  exact found.symm

/-! ## The listings -/

theorem entityToRecord_injective : Function.Injective entityToRecord := by
  rintro ⟨⟩ ⟨⟩ same
  cases same
  rfl

/-- A page of the listings, counted from 0. -/
theorem recordsOf_paginate (entities : List RetirementEntity) (n size : Nat) :
    recordsOf (paginate entities (n + 1) size) =
      ⟨Paging.slice (entities.map entityToRecord) (n * size) ((n + 1) * size),
        (entities.map entityToRecord).length, n + 1, size⟩ := by
  rw [paginate_succ]
  simp [recordsOf, Paging.slice]

/-- After every run, the pages of an account's listing make up one list, with no id twice: it has
the retirements that were saved for the account and not overwritten since, and each of them is
what `getRetirement` serves for its id, whatever the chain holds. -/
theorem accounts_listed (config : Config) (inputs : List Step) (account : Written Address)
    (size : Nat) (positive : 1 ≤ size) :
    ∃ (listed : List ApiRecord) (pages : Nat → List ApiRecord),
      (∀ n : Nat, getRetirementsByAccount ((indexed config).state inputs).repo account (n + 1)
        size = ⟨pages n, listed.length, n + 1, size⟩) ∧
      (List.range ((listed.length + size - 1) / size)).flatMap pages = listed ∧
      (listed.map ApiRecord.id).Nodup ∧
      (∀ e, entityToRecord e ∈ listed ↔
        e.buyer = account ∧ Stands ((indexed config).log inputs) e) ∧
      ∀ record ∈ listed, ∀ newAccount simulated, getRetirement newAccount
        ((service config).state inputs).chain ((service config).state inputs).repo simulated
          record.id = .ok record := by
  let repo := ((indexed config).state inputs).repo
  let kept := repo.store.filter (·.buyer = account)
  let listed := kept.map entityToRecord
  refine ⟨listed, fun n => Paging.slice listed (n * size) ((n + 1) * size), ?_, ?_, ?_, ?_, ?_⟩
  · intro n
    exact recordsOf_paginate kept n size
  · rw [Paging.flatMap_slice, List.take_of_length_le (Paging.le_ceil_mul listed.length positive)]
  · have ids : listed.map ApiRecord.id = kept.map RetirementEntity.id := List.map_map
    rw [ids]
    exact repo.distinct.sublist (List.filter_sublist.map RetirementEntity.id)
  · intro e
    rw [List.mem_map_of_injective entityToRecord_injective, List.mem_filter,
      mem_store_iff_stands, and_comm, decide_eq_true_iff]
  · intro record member newAccount simulated
    obtain ⟨e, kept_, rfl⟩ := List.mem_map.mp member
    have stored := (List.mem_filter.mp kept_).1
    apply getRetirement_indexed
    rw [← (indexed_represents config inputs).1.entities]
    exact repo.findById_eq_some_iff.mpr ⟨stored, rfl⟩

namespace Sample

/-- The service tries again after its transaction has failed. -/
def again : List Step :=
  [.retire retireOne (some run) (found ⟨.success, some recordId⟩) 1735689602]

end Sample

open CarbonChain.Registry.Sample (issuer) in
open CarbonChain.Certificates.Sample in
set_option maxRecDepth 100000 in
/-- Both calls are listed for the issuer, each under its own id. -/
theorem triedAgain_listed :
    ∃ listed : List ApiRecord, listed.map ApiRecord.id = [unknown, .canonical recordId] ∧
      ∀ record ∈ listed, ∀ newAccount simulated, getRetirement newAccount
        ((service deployed).state (failed ++ again)).chain
        ((service deployed).state (failed ++ again)).repo simulated record.id = .ok record := by
  obtain ⟨listed, pages, answers, together, -, -, served⟩ :=
    accounts_listed deployed (failed ++ again) (.canonical issuer) 20 (by decide)
  have first : getRetirementsByAccount ((indexed deployed).state (failed ++ again)).repo
      (.canonical issuer) 1 20 = ⟨pages 0, listed.length, 1, 20⟩ := answers 0
  have total : listed.length = 2 := by
    have same : _ = listed.length := congrArg PageResult.total first
    rw [← same]
    decide
  have whole : pages 0 = listed := by
    rw [total] at together
    simpa using together
  have data : _ = pages 0 := congrArg PageResult.data first
  refine ⟨listed, ?_, served⟩
  rw [← whole, ← data]
  decide

/-! ## Reading on while retirements go on -/

/-- A retirement is added at the end, or takes the place of the one with its id. -/
theorem ids_grow (config : Config) (earlier later : List Step) :
    ((indexed config).state earlier).repo.store.map RetirementEntity.id <+:
      ((indexed config).state (earlier ++ later)).repo.store.map RetirementEntity.id := by
  refine (indexed config).relates (fun _ => True)
    (fun s s' => s.repo.store.map RetirementEntity.id <+: s'.repo.store.map RetirementEntity.id)
    trivial (fun _ => List.prefix_rfl) (fun _ _ _ => List.IsPrefix.trans) ?_ earlier later
  intro event _ commits
  refine ⟨trivial, ?_⟩
  rw [indexed_commits commits]
  cases saves event with
  | none => exact List.prefix_rfl
  | some e => exact Keyed.prefix_upsert rfl

/-- A reader asks for all retirements page by page, while others come in between the requests.
The pages have every id that was there at the start, in the order of the repository, and no id
twice. -/
theorem reading_consistent (config : Config) (runs : Nat → List Step)
    (grows : ∀ n, runs n <+: runs (n + 1)) (size count : Nat)
    (enough : (listRetirements ((indexed config).state (runs 0)).repo 1 size).total ≤
      count * size) :
    let ids (n : Nat) := ((indexed config).state (runs n)).repo.store.map RetirementEntity.id
    let read := (List.range count).flatMap fun n =>
      (listRetirements ((indexed config).state (runs n)).repo (n + 1) size).data.map ApiRecord.id
    (ids 0).Sublist read ∧ read.Sublist (ids count) ∧ read.Nodup := by
  intro ids read
  have growing : ∀ n, ids n <+: ids (n + 1) := by
    intro n
    obtain ⟨later, extended⟩ := grows n
    have grown := ids_grow config (runs n) later
    rw [extended] at grown
    exact grown
  have pages : read = Paging.readUpTo ids size count := by
    unfold read Paging.readUpTo
    apply List.flatMap_congr
    intro n _
    unfold listRetirements InMemoryRetirementRepository.findAll
    rw [recordsOf_paginate, Paging.slice, List.map_drop, List.map_take, List.map_map]
    rfl
  have enough_ : (ids 0).length ≤ count * size := by
    rw [List.length_map]
    exact enough
  obtain ⟨started, ended⟩ := @Paging.sublist_readUpTo _ ids size growing count
  rw [List.take_of_length_le enough_] at started
  have part : read.Sublist (ids count) := pages ▸ ended.trans (List.take_sublist _ _)
  exact ⟨pages ▸ started, part, ((indexed config).state (runs count)).repo.distinct.sublist part⟩

open CarbonChain.Certificates.Sample in
set_option maxRecDepth 100000 in
/-- A reader who asks for the first page before the second call, and for the second page after it,
reads both ids. -/
theorem triedAgain_read :
    let read := (List.range 2).flatMap fun n =>
      (listRetirements ((indexed deployed).state (failed ++ again.take n)).repo (n + 1) 1).data.map
        ApiRecord.id
    read = [unknown, .canonical recordId] ∧ read.Nodup := by
  intro read
  have grows : ∀ n, failed ++ again.take n <+: failed ++ again.take (n + 1) := by
    intro n
    rw [List.prefix_append_right_inj]
    exact List.take_prefix_take_left (Nat.le_succ n)
  obtain ⟨-, -, distinct⟩ := reading_consistent deployed (fun n => failed ++ again.take n) grows 1 2
    (by decide)
  exact ⟨by decide, distinct⟩

end CarbonChain.Certificates
