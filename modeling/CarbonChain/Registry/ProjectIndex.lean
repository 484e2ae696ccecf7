import CarbonChain.Registry.Permanence

/-!
# CreditRegistry: the credits of a project

The list under `DataKey::ProjectCredits` (`contracts/credit_registry/src/storage.rs:58-71`)
is kept apart from the credits and is written by the three ways in which a credit comes
into being. It is, in every reachable state, the list of all credits ever produced, cut
down to those whose record names the project.
-/

namespace CarbonChain.Registry

variable {sha256 : Bytes → BytesN32}

/-- The project of the credit stored under an id. -/
def Ledger.projectOf (ledger : Ledger) (id : BytesN32) : Option String :=
  (ledger.getCredit id).map CreditMetadata.projectId

namespace Ledger

variable (ledger : Ledger) (id other : BytesN32)

theorem projectOf_eq_some {ledger : Ledger} {id : BytesN32} {projectId : String} :
    ledger.projectOf id = some projectId ↔
      ∃ credit, ledger.getCredit id = some credit ∧ credit.projectId = projectId :=
  Option.map_eq_some_iff

theorem projectOf_of_stored {ledger : Ledger} {id : BytesN32} {credit : CreditMetadata}
    (stored : ledger.getCredit id = some credit) : ledger.projectOf id = some credit.projectId :=
  projectOf_eq_some.mpr ⟨credit, stored, rfl⟩

@[simp] theorem projectOf_setCredit (credit : CreditMetadata) :
    (ledger.setCredit id credit).projectOf other =
      if other = id then some credit.projectId else ledger.projectOf other := by
  unfold projectOf
  rw [getCredit_setCredit]
  split <;> rfl

@[simp] theorem projectOf_addCreditToProject (projectId : String) :
    (ledger.addCreditToProject projectId id).projectOf = ledger.projectOf := rfl

@[simp] theorem projectOf_setCreditByProjectVintage (projectId : String) (vintageYear : Nat) :
    (ledger.setCreditByProjectVintage projectId vintageYear id).projectOf = ledger.projectOf := rfl

@[simp] theorem getCreditsByProject_setCredit (credit : CreditMetadata) :
    (ledger.setCredit id credit).getCreditsByProject = ledger.getCreditsByProject := rfl

@[simp] theorem getCreditsByProject_advance (n : Nat) :
    (ledger.advance n).getCreditsByProject = ledger.getCreditsByProject := rfl

@[simp] theorem getCreditsByProject_withDispute (dispute : Store BytesN32 String) :
    (ledger.withDispute dispute).getCreditsByProject = ledger.getCreditsByProject := rfl

@[simp] theorem getCreditsByProject_setCreditByProjectVintage (projectId : String)
    (vintageYear : Nat) : (ledger.setCreditByProjectVintage projectId vintageYear
      id).getCreditsByProject = ledger.getCreditsByProject := rfl

@[simp] theorem getCreditsByProject_setCreditApprovals (approvals : List Address) :
    (ledger.setCreditApprovals id approvals).getCreditsByProject =
      ledger.getCreditsByProject := rfl

@[simp] theorem getCreditsByProject_removeCreditApprovals :
    (ledger.removeCreditApprovals id).getCreditsByProject = ledger.getCreditsByProject := rfl

@[simp] theorem getCreditsByProject_addCreditToProject (projectId project : String) :
    (ledger.addCreditToProject projectId id).getCreditsByProject project =
      ledger.getCreditsByProject project ++ if projectId = project then [id] else [] := by
  simp only [getCreditsByProject, addCreditToProject, Store.lookup_insert_ite]
  by_cases same : projectId = project
  · subst same
    simp
  · simp [same, Ne.symm same]

end Ledger

/-- Retiring the sources of a merge leaves the project lists alone. -/
theorem retireLoop_getCreditsByProject {ids : List BytesN32} {before after : Ledger}
    (h : ids.foldlM retireOne before = .ok after) :
    after.getCreditsByProject = before.getCreditsByProject :=
  retireLoop_keeps (fun acc => acc.getCreditsByProject = before.getCreditsByProject)
    (fun _ _ _ _ same => same) rfl h

theorem RetireLoop.projectOf {ids : List BytesN32} {before after : Ledger}
    (loop : RetireLoop ids before after) : after.projectOf = before.projectOf := by
  funext id
  unfold Ledger.projectOf
  rw [loop.getCredit]
  split
  · rw [Option.map_map]
    rfl
  · rfl

/-- The ids that the events of a log produced, in order of creation. -/
def createdIds (log : List (Event State Invocation Ret)) : List BytesN32 :=
  log.flatMap fun event => producedIds event.input.call event.output

theorem createdIds_snoc (log : List (Event State Invocation Ret))
    (event : Event State Invocation Ret) : createdIds (log ++ [event]) =
      createdIds log ++ producedIds event.input.call event.output := by
  simp [createdIds]

namespace Effect

variable {env : Env} {s : State} {call : Call} {ret : Ret} {after : Ledger}

/-- A call appends to the list of a project the ids that it produces for the project. -/
theorem getCreditsByProject (inj : Function.Injective sha256) (derived : s.ledger.Derived sha256)
    (effect : Effect sha256 env s call ret after) (projectId : String) :
    after.getCreditsByProject projectId = s.ledger.getCreditsByProject projectId ++
      (producedIds call ret).filter fun id => after.projectOf id = some projectId := by
  cases effect with
  | unchanged _ _ quiet => simp [producedIds_of_quiet quiet]
  | submitted _ sub newId submission hasAdmin authorised positive unique newDerived =>
      rw [producedIds_of_submission submission]
      simp [Submission.credit, List.filter_cons]
  | restatused _ target found status dispute there change trusted =>
      simp [change.producedIds]
  | split caller target splitTonnes nonce original child1Id child2Id authorised there owned
      positive proper derived1 derived2 =>
      obtain ⟨siblings, absent1, absent2⟩ := derived.children inj derived1 derived2
      have ne1 := Ledger.ne_of_absent there absent1
      have ne2 := Ledger.ne_of_absent there absent2
      by_cases same : original.projectId = projectId <;>
        simp [producedIds, siblings, ne1, ne2, same]
  | merged caller ids mergedId merged _ authorised several owner active tonnes sources newDerived
      retired =>
      rw [(retireLoop_ok retired).projectOf, retireLoop_getCreditsByProject retired]
      simp [producedIds, List.filter_cons]
  | _ => simp [producedIds]

/-- The ids that a call produces are stored after it. -/
theorem produced_stored (effect : Effect sha256 env s call ret after) {id : BytesN32}
    (produced : id ∈ producedIds call ret) : after.getCredit id ≠ none := by
  cases effect with
  | unchanged _ _ quiet => simp [producedIds_of_quiet quiet] at produced
  | submitted _ sub newId submission hasAdmin authorised positive unique newDerived =>
      rw [producedIds_of_submission submission] at produced
      simp [List.mem_singleton.mp produced]
  | restatused _ target found status dispute there change trusted =>
      simp [change.producedIds] at produced
  | split caller target splitTonnes nonce original child1Id child2Id authorised there owned
      positive proper derived1 derived2 =>
      simp only [producedIds, List.mem_cons, List.not_mem_nil, or_false] at produced
      simp only [Ledger.getCredit_setCredit, Ledger.getCredit_addCreditToProject]
      grind
  | merged caller ids mergedId merged _ authorised several owner active tonnes sources newDerived
      retired =>
      simp only [producedIds, List.mem_singleton] at produced
      rw [(retireLoop_ok retired).getCredit]
      split <;> simp [produced]
  | _ => simp [producedIds] at produced

/-- What is stored after a call was stored before it or is produced by it. -/
theorem stored_iff (inj : Function.Injective sha256) (derived : s.ledger.Derived sha256)
    (effect : Effect sha256 env s call ret after) (id : BytesN32) :
    after.getCredit id ≠ none ↔
      s.ledger.getCredit id ≠ none ∨ id ∈ producedIds call ret := by
  constructor
  · intro stored
    by_cases known : s.ledger.getCredit id = none
    · obtain ⟨credit, there⟩ := Option.ne_none_iff_exists'.mp stored
      exact .inr (effect.created known there).1.produced
    · exact .inl known
  · rintro (stored | produced)
    · exact effect.stays_stored inj derived stored
    · exact effect.produced_stored produced

/-- A stored credit stays with its project. -/
theorem projectOf_stays (inj : Function.Injective sha256) (derived : s.ledger.Derived sha256)
    (effect : Effect sha256 env s call ret after) {id : BytesN32}
    (stored : s.ledger.getCredit id ≠ none) : after.projectOf id = s.ledger.projectOf id := by
  obtain ⟨credit, found⟩ := Option.ne_none_iff_exists'.mp stored
  obtain ⟨credit', there, same, -⟩ := effect.continues inj derived id credit found
  rw [Ledger.projectOf_of_stored there, Ledger.projectOf_of_stored found, same.projectId]

end Effect

/-- The stored credits are those that the log produced, each once, and the list of every
project is made of those that belong to it. -/
structure ProjectsIndexed (sha256 : Bytes → BytesN32) (log : List (Event State Invocation Ret))
    (s : State) : Prop where
  derived : s.ledger.Derived sha256
  stored : ∀ id, s.ledger.getCredit id ≠ none ↔ id ∈ createdIds log
  once : (createdIds log).Nodup
  listed : ∀ projectId, s.ledger.getCreditsByProject projectId =
    (createdIds log).filter fun id => s.ledger.projectOf id = some projectId

theorem ProjectsIndexed.step (inj : Function.Injective sha256)
    {log : List (Event State Invocation Ret)} {event : Event State Invocation Ret}
    (inv : ProjectsIndexed sha256 log event.pre) (commits : (machine sha256).Commits event) :
    ProjectsIndexed sha256 (log ++ [event]) event.post := by
  have effect := exec_effect sha256 event.pre commits
  have produced := effect.produced_fresh inj inv.derived
  refine ⟨effect.derived inv.derived, ?_, ?_, ?_⟩
  · intro id
    rw [effect.stored_iff inj inv.derived, inv.stored, createdIds_snoc, List.mem_append]
  · rw [createdIds_snoc, List.nodup_append']
    refine ⟨inv.once, produced.1, ?_⟩
    intro id before now
    exact (inv.stored id).mpr before (produced.2 id now)
  · intro projectId
    rw [effect.getCreditsByProject inj inv.derived, inv.listed, createdIds_snoc,
      List.filter_append]
    congr 1
    apply List.filter_congr
    intro id before
    rw [effect.projectOf_stays inj inv.derived ((inv.stored id).mpr before)]

theorem projectsIndexed (inj : Function.Injective sha256) (inputs : List Invocation) :
    ProjectsIndexed sha256 ((machine sha256).log inputs) ((machine sha256).state inputs) := by
  refine (machine sha256).run_induct (fun log s => ProjectsIndexed sha256 log s) ?_ ?_ inputs
  · refine ⟨derived_init, ?_, List.nodup_nil, fun _ => rfl⟩
    intro id
    have absent : (machine sha256).init.ledger.getCredit id = none := rfl
    simp [absent, createdIds]
  · exact fun log event inv commits => inv.step inj commits

theorem mem_getExpiredCredits {s : State} {projectId : String} {id : BytesN32} :
    id ∈ getExpiredCredits s projectId ↔
      id ∈ s.ledger.getCreditsByProject projectId ∧
        ∃ credit, s.ledger.getCredit id = some credit ∧ credit.status = .expired := by
  unfold getExpiredCredits
  rw [List.mem_filter]
  refine and_congr_right fun _ => ?_
  cases s.ledger.getCredit id <;> simp

/-- The project index is complete and free of duplicates: the list of a project is that of
the credits created in the run, in order of creation and cut down to those whose record
names the project. So it has each stored credit of the project once and nothing else, and
`get_expired_credits` has each expired credit of the project once and nothing else. -/
theorem project_index_exact (inj : Function.Injective sha256) (inputs : List Invocation)
    (projectId : String) :
    let s := (machine sha256).state inputs
    s.ledger.getCreditsByProject projectId = (createdIds ((machine sha256).log inputs)).filter
        (fun id => s.ledger.projectOf id = some projectId) ∧
      (s.ledger.getCreditsByProject projectId).Nodup ∧
      (∀ id, id ∈ s.ledger.getCreditsByProject projectId ↔
        ∃ credit, s.ledger.getCredit id = some credit ∧ credit.projectId = projectId) ∧
      (getExpiredCredits s projectId).Nodup ∧
      ∀ id, id ∈ getExpiredCredits s projectId ↔
        ∃ credit, s.ledger.getCredit id = some credit ∧ credit.projectId = projectId ∧
          credit.status = .expired := by
  intro s
  have inv := projectsIndexed inj inputs
  have once : (s.ledger.getCreditsByProject projectId).Nodup := by
    rw [inv.listed]
    exact inv.once.filter _
  have complete : ∀ id, id ∈ s.ledger.getCreditsByProject projectId ↔
      ∃ credit, s.ledger.getCredit id = some credit ∧ credit.projectId = projectId := by
    intro id
    rw [inv.listed, List.mem_filter, ← inv.stored, decide_eq_true_eq, Ledger.projectOf_eq_some]
    constructor
    · exact And.right
    · rintro ⟨credit, there, its⟩
      refine ⟨?_, credit, there, its⟩
      rw [there]
      exact Option.some_ne_none credit
  refine ⟨inv.listed projectId, once, complete, once.filter _, ?_⟩
  intro id
  rw [mem_getExpiredCredits, complete]
  constructor
  · rintro ⟨⟨credit, there, its⟩, other, found, expired⟩
    obtain rfl := Option.some.inj (found.symm.trans there)
    exact ⟨other, there, its, expired⟩
  · rintro ⟨credit, there, its, expired⟩
    exact ⟨⟨credit, there, its⟩, credit, there, expired⟩

set_option maxRecDepth 100000 in
/-- The split of the sample credit lists the credit and its two children. -/
theorem split_project_index :
    ((machine BytesN32.mk).state Sample.split).ledger.getCreditsByProject "project-1" =
        [Sample.credit 0, creditId BytesN32.mk (.bytes (Sample.credit 0)) 1,
          creditId BytesN32.mk (.bytes (Sample.credit 0)) 2] ∧
      (((machine BytesN32.mk).state Sample.split).ledger.getCreditsByProject
        "project-1").Nodup :=
  ⟨rfl, (project_index_exact BytesN32.mk_injective Sample.split "project-1").2.1⟩

end CarbonChain.Registry
