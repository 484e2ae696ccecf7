import CarbonChain.Registry.Tonnes
import Mathlib.Algebra.BigOperators.Ring.List

/-!
# CreditRegistry: the unit convention

Amounts are stored in micro-tonnes and are documented
(`contracts/credit_registry/src/lib.rs:13-15`) to be positive multiples of
`MIN_CREDIT_UNIT`, a tenth of a tonne. The constant is declared and never read: the entry
points check that amounts are positive, and no more.
-/

namespace CarbonChain.Registry

variable {sha256 : Bytes → BytesN32}

/-- `MIN_CREDIT_UNIT`. -/
def minCreditUnit : Int := 100000

/-- Every stored amount is a multiple of the unit. -/
def Ledger.Whole (ledger : Ledger) : Prop :=
  ∀ id credit, ledger.getCredit id = some credit → minCreditUnit ∣ credit.tonnes

/-- Every stored amount is a positive multiple of the unit. -/
def Ledger.InUnits (ledger : Ledger) : Prop :=
  ∀ id credit, ledger.getCredit id = some credit →
    0 < credit.tonnes ∧ minCreditUnit ∣ credit.tonnes

/-- The amount that a call gives for a credit it creates. -/
def Call.amount : Call → Option Int
  | .submitCredit _ _ _ _ _ tonnes _ _ | .submitCreditWithSession _ _ _ _ _ _ tonnes _ _ =>
      some tonnes
  | .splitCredit _ _ splitTonnes _ => some splitTonnes
  | _ => none

/-- The amount that the call gives, if any, is a multiple of the unit. -/
def Call.InUnits (call : Call) : Prop :=
  ∀ amount, call.amount = some amount → minCreditUnit ∣ amount

instance (call : Call) : Decidable call.InUnits :=
  decidable_of_iff (∀ amount ∈ call.amount, minCreditUnit ∣ amount) Iff.rfl

theorem amount_of_submission {call : Call} {sub : Submission}
    (submission : call.submission = some sub) : call.amount = some sub.tonnes := by
  cases call <;> cases submission <;> rfl

theorem inUnits_of_none {call : Call} (nothing : call.amount = none) : call.InUnits := by
  intro amount given
  rw [nothing] at given
  cases given

theorem inUnits_iff_of_some {call : Call} {amount : Int} (given : call.amount = some amount) :
    call.InUnits ↔ minCreditUnit ∣ amount := by
  unfold Call.InUnits
  rw [given]
  simp

theorem amount_of_quiet {call : Call} (quiet : call.onCredits = false) : call.amount = none := by
  cases call <;> first | rfl | cases quiet

theorem StatusChange.amount {call : Call} {id : BytesN32} {old new : CreditStatus}
    (change : StatusChange call id old new) : call.amount = none := by
  cases change <;> rfl

/-! ## What a write does to the amounts -/

theorem inUnits_iff {ledger : Ledger} : ledger.InUnits ↔ ledger.Positive ∧ ledger.Whole :=
  ⟨fun units => ⟨fun id credit stored => (units id credit stored).1,
    fun id credit stored => (units id credit stored).2⟩,
    fun parts id credit stored => ⟨parts.1 id credit stored, parts.2 id credit stored⟩⟩

/-- A credit under a new id adds its amount. -/
theorem whole_new (ledger : Ledger) {id : BytesN32} {credit : CreditMetadata}
    (absent : ledger.getCredit id = none) :
    (ledger.setCredit id credit).Whole ↔ ledger.Whole ∧ minCreditUnit ∣ credit.tonnes := by
  constructor
  · intro whole
    refine ⟨?_, whole id credit (by simp)⟩
    intro other found stored
    exact whole other found (by simp [(Ledger.ne_of_absent stored absent).symm, stored])
  · rintro ⟨whole, unit⟩ other found stored
    rw [Ledger.getCredit_setCredit] at stored
    split at stored
    · obtain rfl := Option.some.inj stored
      exact unit
    · exact whole other found stored

/-- Rewriting a stored credit with its amount changes nothing. -/
theorem whole_rewrite (ledger : Ledger) {id : BytesN32} {credit : CreditMetadata}
    (credit' : CreditMetadata) (stored : ledger.getCredit id = some credit)
    (same : credit'.tonnes = credit.tonnes) :
    (ledger.setCredit id credit').Whole ↔ ledger.Whole := by
  constructor
  · intro whole other found there
    by_cases its : other = id
    · subst its
      obtain rfl := Option.some.inj (stored.symm.trans there)
      rw [← same]
      exact whole other credit' (by simp)
    · exact whole other found (by simp [its, there])
  · intro whole other found there
    rw [Ledger.getCredit_setCredit] at there
    split at there
    · obtain rfl := Option.some.inj there
      rw [same]
      exact whole id credit stored
    · exact whole other found there

theorem retireLoop_whole {ids : List BytesN32} {before after : Ledger}
    (h : ids.foldlM retireOne before = .ok after) : after.Whole ↔ before.Whole := by
  apply retireLoop_keeps (fun acc => acc.Whole ↔ before.Whole) _ Iff.rfl h
  intro acc id credit stored same
  exact (whole_rewrite acc { credit with status := .retired } stored rfl).trans same

/-- The sum of stored amounts that are multiples of the unit is one. -/
theorem Ledger.Whole.dvd_sum {ledger : Ledger} (whole : ledger.Whole) (ids : List BytesN32) :
    minCreditUnit ∣ (ids.map ledger.tonnesOf).sum := by
  apply List.dvd_sum
  intro amount listed
  obtain ⟨id, -, rfl⟩ := List.mem_map.mp listed
  unfold Ledger.tonnesOf
  cases stored : ledger.getCredit id with
  | none => exact dvd_zero _
  | some credit => exact whole id credit stored

/-- Two new credits that share the amount of a stored one are of whole amounts if and only if
one of them is. -/
theorem whole_split {ledger : Ledger} {id child1Id child2Id : BytesN32}
    {original child1 child2 : CreditMetadata} (original' : CreditMetadata) (projectId : String)
    (whole : ledger.Whole) (there : ledger.getCredit id = some original)
    (siblings : child1Id ≠ child2Id) (absent1 : ledger.getCredit child1Id = none)
    (absent2 : ledger.getCredit child2Id = none)
    (shared : child2.tonnes = original.tonnes - child1.tonnes)
    (same : original'.tonnes = original.tonnes) :
    (((((ledger.setCredit child1Id child1).addCreditToProject projectId child1Id).setCredit
      child2Id child2).addCreditToProject projectId child2Id).setCredit id original').Whole ↔
        minCreditUnit ∣ child1.tonnes := by
  have ne1 := (Ledger.ne_of_absent there absent1).symm
  have ne2 := (Ledger.ne_of_absent there absent2).symm
  let first := (ledger.setCredit child1Id child1).addCreditToProject projectId child1Id
  let second := (first.setCredit child2Id child2).addCreditToProject projectId child2Id
  have absent : first.getCredit child2Id = none := by simp [first, siblings.symm, absent2]
  have stays : second.getCredit id = some original := by simp [second, first, ne1, ne2, there]
  have parts : second.Whole ↔ (ledger.Whole ∧ minCreditUnit ∣ child1.tonnes) ∧
      minCreditUnit ∣ child2.tonnes :=
    (whole_new first absent).trans (and_congr_left' (whole_new ledger absent1))
  refine (whole_rewrite second original' stays same).trans (parts.trans ?_)
  constructor
  · exact fun all => all.1.2
  · intro unit
    refine ⟨⟨whole, unit⟩, ?_⟩
    rw [shared]
    exact dvd_sub (whole id original there) unit

/-! ## Step lemmas -/

/-- From amounts in units, a call leaves the amounts in units if and only if the amount that
it gives is in units. -/
theorem Effect.whole_iff {env : Env} {s : State} {call : Call} {ret : Ret} {after : Ledger}
    (inj : Function.Injective sha256) (derived : s.ledger.Derived sha256)
    (whole : s.ledger.Whole) (effect : Effect sha256 env s call ret after) :
    after.Whole ↔ call.InUnits := by
  cases effect with
  | unchanged _ _ quiet => exact iff_of_true whole (inUnits_of_none (amount_of_quiet quiet))
  | submitted _ sub newId submission hasAdmin authorised positive unique newDerived =>
      have absent : (s.ledger.advance 1).getCredit newId = none := derived.next inj newDerived
      rw [inUnits_iff_of_some (amount_of_submission submission)]
      exact (whole_new _ absent).trans (and_iff_right whole)
  | approved verifier target nonce found authorised registered there pending first short =>
      refine iff_of_true ?_ (inUnits_of_none rfl)
      exact (whole_rewrite (s.ledger.setCreditApprovals target _) found there rfl).mpr whole
  | minted verifier target nonce found authorised registered there pending first enough =>
      refine iff_of_true ?_ (inUnits_of_none rfl)
      exact (whole_rewrite (s.ledger.setCreditApprovals target _)
        { found with status := .active } there rfl).mpr whole
  | restatused _ target found status dispute there change trusted =>
      refine iff_of_true ?_ (inUnits_of_none change.amount)
      exact (whole_rewrite s.ledger { found with status } there rfl).mpr whole
  | transferred sender recipient target nonce found authorised there owned =>
      refine iff_of_true ?_ (inUnits_of_none rfl)
      exact (whole_rewrite s.ledger { found with owner := recipient } there rfl).mpr whole
  | split caller target splitTonnes nonce original child1Id child2Id authorised there owned
      positive proper derived1 derived2 =>
      obtain ⟨siblings, absent1, absent2⟩ := derived.children inj derived1 derived2
      rw [inUnits_iff_of_some rfl]
      have advanced : (s.ledger.advance 2).Whole := whole
      exact whole_split _ _ advanced there siblings absent1 absent2 rfl rfl
  | merged caller ids mergedId merged _ authorised several owner active tonnes sources newDerived
      retired =>
      have absent : (s.ledger.advance 1).getCredit mergedId = none := derived.next inj newDerived
      refine iff_of_true ?_ (inUnits_of_none rfl)
      rw [retireLoop_whole retired]
      refine (whole_new _ absent).mpr ⟨whole, ?_⟩
      rw [tonnes]
      exact whole.dvd_sum ids

/-! ## Runs -/

/-- Every stored amount is a positive multiple of `MIN_CREDIT_UNIT`, at every moment, in
exactly the runs whose successful submissions and splits all give a multiple of it. -/
theorem in_units_iff (inj : Function.Injective sha256) (inputs : List Invocation) :
    (machine sha256).Always (fun _ s => s.ledger.InUnits) inputs ↔
      Machine.Admits (fun _ event => event.input.call.InUnits) ((machine sha256).log inputs) := by
  have nothing : ∀ id credit, (machine sha256).init.ledger.getCredit id ≠ some credit :=
    fun _ _ stored => by cases stored
  have start : (machine sha256).init.ledger.InUnits :=
    fun id credit stored => absurd stored (nothing id credit)
  refine (machine sha256).always_iff_admits
    (fun _ s => s.ledger.Derived sha256 ∧ s.ledger.InUnits) ?_ start ?_ ?_ inputs
  · exact ⟨derived_init, start⟩
  · intro log event ⟨derived, units⟩ commits
    have effect := exec_effect sha256 event.pre commits
    obtain ⟨positive, whole⟩ := inUnits_iff.mp units
    rw [inUnits_iff, ← effect.whole_iff inj derived whole]
    exact and_iff_right (effect.positive inj derived positive)
  · intro log event ⟨derived, units⟩ given commits
    have effect := exec_effect sha256 event.pre commits
    obtain ⟨positive, whole⟩ := inUnits_iff.mp units
    exact ⟨effect.derived derived, inUnits_iff.mpr ⟨effect.positive inj derived positive,
      (effect.whole_iff inj derived whole).mpr given⟩⟩

namespace Sample

/-- The submission of one micro-tonne for 2024. -/
def submitMicro : Invocation :=
  call issuer (.submitCredit issuer "project-1" 2024 "VCS" "NG" 1 "ipfs" 0)

/-- The issuer splits one micro-tonne off its credit of one tonne. -/
def splitMicro : Invocation :=
  call issuer (.splitCredit issuer (credit 0) 1 1)

end Sample

set_option maxRecDepth 100000 in
/-- One tonne is submitted and split in halves, which are merged again. -/
theorem splitAndMerge_in_units :
    (machine BytesN32.mk).Always (fun _ s => s.ledger.InUnits) Sample.splitAndMerge := by
  apply (in_units_iff BytesN32.mk_injective _).mpr
  have each : ∀ event ∈ (machine BytesN32.mk).log Sample.splitAndMerge,
      event.input.call.InUnits := by
    decide
  exact Machine.admits_forall.mpr each

set_option maxRecDepth 100000 in
/-- One micro-tonne is submitted, or split off a tonne. -/
theorem micro_not_in_units :
    Function.Injective BytesN32.mk ∧
      (¬ (machine BytesN32.mk).Always (fun _ s => s.ledger.InUnits)
        (Sample.setup 1 ++ [Sample.submitMicro])) ∧
      ¬ (machine BytesN32.mk).Always (fun _ s => s.ledger.InUnits)
        (Sample.setup 1 ++ [Sample.submit 0, Sample.splitMicro]) := by
  refine ⟨BytesN32.mk_injective, ?_, ?_⟩
  · intro units
    have now := units _ [] (List.append_nil _).symm (Sample.credit 0) _ rfl
    exact absurd now.2 (by decide)
  · intro units
    have now := units _ [] (List.append_nil _).symm
      (creditId BytesN32.mk (.bytes (Sample.credit 0)) 1) _ rfl
    exact absurd now.2 (by decide)

end CarbonChain.Registry
