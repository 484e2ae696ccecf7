import CarbonChain.Registry.Evolution

/-!
# CreditRegistry: one live credit line for each project and vintage

`submit_credit` looks (`contracts/credit_registry/src/lib.rs:315-405`) at the one id that
is indexed under the project and the vintage, and every submission overwrites that entry.
The check therefore covers all live credits of the vintage exactly as long as the indexed
credit is live whenever another one is. Nothing else maintains the index: a call that takes
the indexed credit out of circulation, or that revives another one, can leave it stale.
-/

namespace CarbonChain.Registry

namespace Ledger

variable (ledger : Ledger)

/-- The id is the one indexed under the project and the vintage of its credit. -/
def Indexed (id : BytesN32) : Prop :=
  ∃ credit, ledger.getCredit id = some credit ∧
    ledger.getCreditByProjectVintage credit.projectId credit.vintageYear = some id

/-- The id is indexed and its credit is live. -/
def LiveIndexed (id : BytesN32) : Prop :=
  ∃ credit, ledger.getCredit id = some credit ∧ credit.status.isLive = true ∧
    ledger.getCreditByProjectVintage credit.projectId credit.vintageYear = some id

/-- Another credit of the same project and vintage is live. -/
def OtherLive (id : BytesN32) : Prop :=
  ∃ credit other otherCredit, ledger.getCredit id = some credit ∧ other ≠ id ∧
    ledger.getCredit other = some otherCredit ∧ otherCredit.status.isLive = true ∧
    otherCredit.projectId = credit.projectId ∧ otherCredit.vintageYear = credit.vintageYear

/-- The duplicate check finds a live credit for the project and the vintage of the id. -/
def DuplicateOf (id : BytesN32) : Prop :=
  ∃ credit, ledger.getCredit id = some credit ∧
    ledger.duplicateExists credit.projectId credit.vintageYear = true

end Ledger

/-- The credits that a call takes out of circulation, if they are live. -/
def Call.withdraws : Call → List BytesN32
  | .flagCredit _ id _ _ | .markRetired id | .expireCredit _ id | .disputeCredit _ id _
  | .splitCredit _ id _ _ => [id]
  | .mergeCredits _ ids => ids
  | _ => []

/-- The call continues the credits it withdraws under new ids. -/
def Call.renews : Call → Bool
  | .splitCredit .. | .mergeCredits .. => true
  | _ => false

/-- The call does not leave the index stale: an indexed live credit is withdrawn only if
nothing live remains of its vintage, and a credit is restored only if it is indexed or
the indexed one is live. -/
structure KeepsIndex (ledger : Ledger) (call : Call) : Prop where
  withdraws : ∀ id ∈ call.withdraws, ledger.LiveIndexed id →
    call.renews = false ∧ ¬ ledger.OtherLive id
  restores : ∀ id, call.restores = some id → ledger.Indexed id ∨ ledger.DuplicateOf id

theorem Ledger.duplicateExists_iff {ledger : Ledger} {projectId : String} {vintageYear : Nat} :
    ledger.duplicateExists projectId vintageYear = true ↔
      ∃ id credit, ledger.getCreditByProjectVintage projectId vintageYear = some id ∧
        ledger.getCredit id = some credit ∧ credit.status.isLive = true := by
  unfold duplicateExists
  constructor
  · intro found
    split at found
    · cases found
    · next id indexed =>
        split at found
        · cases found
        · next credit stored => exact ⟨id, credit, indexed, stored, found⟩
  · rintro ⟨id, credit, indexed, stored, live⟩
    simp [indexed, stored, live]

/-! ## The index -/

variable {sha256 : Bytes → BytesN32}

/-- Only a submission writes the index. -/
theorem Effect.index {env : Env} {s : State} {call : Call} {ret : Ret} {after : Ledger}
    (effect : Effect sha256 env s call ret after) (noSubmission : call.submission = none) :
    after.getCreditByProjectVintage = s.ledger.getCreditByProjectVintage := by
  cases effect with
  | submitted _ sub newId submission hasAdmin authorised positive unique newDerived =>
      rw [noSubmission] at submission
      cases submission
  | merged caller ids mergedId merged _ authorised several owner active tonnes sources newDerived
      retired =>
      funext projectId vintageYear
      unfold Ledger.getCreditByProjectVintage
      rw [(retireLoop_ok retired).creditByProjectVintage]
      rfl
  | _ => rfl

/-- A submission puts its pending credit under the project and the vintage, where the
check found nothing live. -/
theorem Effect.submission_index {env : Env} {s : State} {call : Call} {ret : Ret}
    {after : Ledger} (effect : Effect sha256 env s call ret after) {sub : Submission}
    (submission : call.submission = some sub) :
    s.ledger.duplicateExists sub.projectId sub.vintageYear = false ∧
      ∃ id, after.getCredit id = some (sub.credit env) ∧
        ∀ projectId vintageYear, after.getCreditByProjectVintage projectId vintageYear =
          if (projectId, vintageYear) = (sub.projectId, sub.vintageYear) then some id
          else s.ledger.getCreditByProjectVintage projectId vintageYear := by
  cases effect with
  | submitted _ sub' newId submission' hasAdmin authorised positive unique newDerived =>
      obtain rfl := Option.some.inj (submission'.symm.trans submission)
      refine ⟨unique, newId, by simp, ?_⟩
      intro projectId vintageYear
      simp [Ledger.getCreditByProjectVintage, Ledger.setCreditByProjectVintage,
        Ledger.addCreditToProject, Ledger.setCredit, Ledger.advance]
  | unchanged _ _ quiet =>
      rw [submission_of_quiet quiet] at submission
      cases submission
  | restatused _ target found status dispute there change trusted =>
      rw [change.submission] at submission
      cases submission
  | _ => cases submission

/-- A call that does not submit for a project and vintage leaves their entry alone. -/
theorem Effect.index_kept {env : Env} {s : State} {call : Call} {ret : Ret} {after : Ledger}
    (effect : Effect sha256 env s call ret after) {projectId : String} {vintageYear : Nat}
    (other : ∀ sub, call.submission = some sub →
      (projectId, vintageYear) ≠ (sub.projectId, sub.vintageYear)) :
    after.getCreditByProjectVintage projectId vintageYear =
      s.ledger.getCreditByProjectVintage projectId vintageYear := by
  cases submission : call.submission with
  | none => rw [effect.index submission]
  | some sub =>
      obtain ⟨-, id, -, index⟩ := effect.submission_index submission
      rw [index, if_neg (other sub submission)]

namespace Evolves

variable {s : State} {env : Env} {call : Call} {id : BytesN32}
  {credit credit' : CreditMetadata}

/-- A live credit that is not live any more was withdrawn. -/
theorem withdrawn (h : Evolves s env call id credit credit')
    (before : credit.status.isLive = true) (after : credit'.status.isLive = false) :
    id ∈ call.withdraws := by
  cases h with
  | same => simp [before] at after
  | minted verifier nonce named pending registered first enough => cases after
  | restatused status change =>
      generalize credit.status = old at change before
      cases change <;> simp_all [Call.withdraws, CreditStatus.isLive]
  | transferred recipient nonce named authorised => simp [before] at after
  | split splitTonnes nonce named authorised => simp [named, Call.withdraws]
  | merged ids named authorised listed active => simpa [named, Call.withdraws] using listed

/-- A credit that becomes live was restored. -/
theorem restored (h : Evolves s env call id credit credit')
    (before : credit.status.isLive = false) (after : credit'.status.isLive = true) :
    call.restores = some id := by
  cases h with
  | same => simp [before] at after
  | minted verifier nonce named pending registered first enough =>
      simp [pending, CreditStatus.isLive] at before
  | restatused status change =>
      generalize credit.status = old at change before
      cases change <;> simp_all [Call.restores, CreditStatus.isLive]
  | transferred recipient nonce named authorised => simp [before] at after
  | split splitTonnes nonce named authorised => cases after
  | merged ids named authorised listed active => cases after

end Evolves

theorem withdraws_of_restores {call : Call} {id : BytesN32} (h : call.restores = some id) :
    call.withdraws = [] := by
  cases call <;> first | rfl | cases h

/-! ## The invariant -/

/-- The index names credits of the right project and vintage, and wherever a credit is
live the duplicate check finds one. -/
structure IndexInv (ledger : Ledger) : Prop where
  named : ∀ projectId vintageYear id,
    ledger.getCreditByProjectVintage projectId vintageYear = some id →
      ∃ credit, ledger.getCredit id = some credit ∧ credit.projectId = projectId ∧
        credit.vintageYear = vintageYear
  covered : ∀ id credit, ledger.getCredit id = some credit → credit.status.isLive = true →
    ledger.duplicateExists credit.projectId credit.vintageYear = true

/-- The indexed credit that the check finds is the one indexed for its own vintage. -/
theorem IndexInv.indexed {ledger : Ledger} (inv : IndexInv ledger) {projectId : String}
    {vintageYear : Nat} (found : ledger.duplicateExists projectId vintageYear = true) :
    ∃ id credit, ledger.getCreditByProjectVintage projectId vintageYear = some id ∧
      ledger.getCredit id = some credit ∧ credit.status.isLive = true ∧
      credit.projectId = projectId ∧ credit.vintageYear = vintageYear := by
  obtain ⟨id, credit, indexed, stored, live⟩ := Ledger.duplicateExists_iff.mp found
  obtain ⟨same, there, project, vintage⟩ := inv.named projectId vintageYear id indexed
  obtain rfl := Option.some.inj (there.symm.trans stored)
  exact ⟨id, same, indexed, stored, live, project, vintage⟩

/-- A vintage whose entry stays is covered after the call if it was before: either the
indexed credit is still live, or it was withdrawn and `clash` finds it live again. -/
theorem IndexInv.persists {env : Env} {s : State} {call : Call} {ret : Ret} {after : Ledger}
    (inj : Function.Injective sha256) (derived : s.ledger.Derived sha256)
    (inv : IndexInv s.ledger) (effect : Effect sha256 env s call ret after) {projectId : String}
    {vintageYear : Nat}
    (index : after.getCreditByProjectVintage projectId vintageYear =
      s.ledger.getCreditByProjectVintage projectId vintageYear)
    (covered : s.ledger.duplicateExists projectId vintageYear = true)
    (clash : ∀ covering before, s.ledger.getCredit covering = some before →
      s.ledger.LiveIndexed covering → before.projectId = projectId →
      before.vintageYear = vintageYear → covering ∈ call.withdraws →
      ∃ found, after.getCredit covering = some found ∧ found.status.isLive = true) :
    after.duplicateExists projectId vintageYear = true := by
  obtain ⟨covering, before, indexed, there, liveBefore, project, vintage⟩ := inv.indexed covered
  obtain ⟨now, thereNow, evolves⟩ := effect.evolves inj derived there
  rw [Ledger.duplicateExists_iff, index]
  cases liveNow : now.status.isLive with
  | true => exact ⟨covering, now, indexed, thereNow, liveNow⟩
  | false =>
      have liveIndexed : s.ledger.LiveIndexed covering := by
        refine ⟨before, there, liveBefore, ?_⟩
        rw [project, vintage]
        exact indexed
      have withdrawn := evolves.withdrawn liveBefore liveNow
      obtain ⟨found, thereFound, liveFound⟩ :=
        clash covering before there liveIndexed project vintage withdrawn
      exact ⟨covering, found, indexed, thereFound, liveFound⟩

/-- An older credit that is live after the call: it was live before, so that no other live
credit of its vintage can have been withdrawn, or it was restored. -/
theorem IndexInv.covered_known {env : Env} {s : State} {call : Call} {ret : Ret}
    {after : Ledger} (inj : Function.Injective sha256) (derived : s.ledger.Derived sha256)
    (inv : IndexInv s.ledger) (keeps : KeepsIndex s.ledger call)
    (effect : Effect sha256 env s call ret after) {id : BytesN32}
    {before credit : CreditMetadata} (known : s.ledger.getCredit id = some before)
    (stored : after.getCredit id = some credit) (live : credit.status.isLive = true)
    (index : after.getCreditByProjectVintage credit.projectId credit.vintageYear =
      s.ledger.getCreditByProjectVintage credit.projectId credit.vintageYear) :
    after.duplicateExists credit.projectId credit.vintageYear = true := by
  obtain ⟨now, there, evolves⟩ := effect.evolves inj derived known
  obtain rfl := Option.some.inj (there.symm.trans stored)
  obtain ⟨lot, -⟩ := evolves.constant
  cases liveBefore : before.status.isLive with
  | true =>
      have covered := inv.covered id before known liveBefore
      rw [← lot.projectId, ← lot.vintageYear] at covered
      refine inv.persists inj derived effect index covered ?_
      intro covering found thereFound liveIndexed project vintage withdrawn
      -- the withdrawn credit is this one, since no other of the vintage is live
      by_cases same : covering = id
      · exact ⟨now, same ▸ there, live⟩
      · have others := (keeps.withdraws covering withdrawn liveIndexed).2
        exact absurd ⟨found, id, before, thereFound, Ne.symm same, known, liveBefore,
          (project.trans lot.projectId).symm, (vintage.trans lot.vintageYear).symm⟩ others
  | false =>
      have restored := evolves.restored liveBefore live
      rcases keeps.restores id restored with ⟨_, same, indexed⟩ | ⟨_, same, covered⟩
      · obtain rfl := Option.some.inj (same.symm.trans known)
        rw [← lot.projectId, ← lot.vintageYear] at indexed
        rw [Ledger.duplicateExists_iff, index]
        exact ⟨id, now, indexed, there, live⟩
      · obtain rfl := Option.some.inj (same.symm.trans known)
        rw [← lot.projectId, ← lot.vintageYear] at covered
        refine inv.persists inj derived effect index covered ?_
        intro covering found thereFound liveIndexed project vintage withdrawn
        rw [withdraws_of_restores restored] at withdrawn
        cases withdrawn

/-- A new credit that is no submission is of the vintage of a live older one. -/
theorem IndexInv.covered_new {env : Env} {s : State} {call : Call} {ret : Ret} {after : Ledger}
    (inj : Function.Injective sha256) (derived : s.ledger.Derived sha256)
    (inv : IndexInv s.ledger) (keeps : KeepsIndex s.ledger call)
    (effect : Effect sha256 env s call ret after) {id : BytesN32} {credit : CreditMetadata}
    (fresh : s.ledger.getCredit id = none) (stored : after.getCredit id = some credit)
    (live : credit.status.isLive = true)
    (other : ∀ sub, call.submission = some sub →
      (credit.projectId, credit.vintageYear) ≠ (sub.projectId, sub.vintageYear)) :
    after.duplicateExists credit.projectId credit.vintageYear = true := by
  have index := effect.index_kept other
  -- a call that makes new credits of a vintage withdraws no live indexed credit
  have persists : call.renews = true →
      s.ledger.duplicateExists credit.projectId credit.vintageYear = true →
        after.duplicateExists credit.projectId credit.vintageYear = true := by
    intro renews covered
    refine inv.persists inj derived effect index covered ?_
    intro covering before there liveIndexed project vintage withdrawn
    have nothing := (keeps.withdraws covering withdrawn liveIndexed).1
    rw [renews] at nothing
    cases nothing
  cases (effect.created fresh stored).1 with
  | submitted sub submission hasAdmin positive returned => exact absurd rfl (other sub submission)
  | child caller parent child1Id child2Id splitTonnes part nonce original named returned
    isChild there owned positive =>
      apply persists
      · rw [named]
        rfl
      · exact inv.covered parent original there live
  | merged caller ids credit named returned several active tonnes sources =>
      obtain ⟨first, listed⟩ :=
        List.exists_mem_of_length_pos (Nat.lt_of_lt_of_le Nat.two_pos several)
      obtain ⟨source, there, -, liveSource, lot⟩ := sources first listed
      apply persists
      · rw [named]
        rfl
      · rw [← lot.projectId, ← lot.vintageYear]
        exact inv.covered first source there (by rw [liveSource]; rfl)

/-- A call that submits nothing for the vintage and keeps the index keeps the coverage. -/
theorem IndexInv.covered_step {env : Env} {s : State} {call : Call} {ret : Ret} {after : Ledger}
    (inj : Function.Injective sha256) (derived : s.ledger.Derived sha256)
    (inv : IndexInv s.ledger) (keeps : KeepsIndex s.ledger call)
    (effect : Effect sha256 env s call ret after) {id : BytesN32} {credit : CreditMetadata}
    (stored : after.getCredit id = some credit) (live : credit.status.isLive = true)
    (other : ∀ sub, call.submission = some sub →
      (credit.projectId, credit.vintageYear) ≠ (sub.projectId, sub.vintageYear)) :
    after.duplicateExists credit.projectId credit.vintageYear = true := by
  cases known : s.ledger.getCredit id with
  | some before =>
      exact inv.covered_known inj derived keeps effect known stored live (effect.index_kept other)
  | none => exact inv.covered_new inj derived keeps effect known stored live other

theorem IndexInv.step {env : Env} {s : State} {call : Call} {ret : Ret} {after : Ledger}
    (inj : Function.Injective sha256) (derived : s.ledger.Derived sha256)
    (inv : IndexInv s.ledger) (keeps : KeepsIndex s.ledger call)
    (effect : Effect sha256 env s call ret after) : IndexInv after := by
  have named : ∀ projectId vintageYear id,
      s.ledger.getCreditByProjectVintage projectId vintageYear = some id →
        ∃ credit, after.getCredit id = some credit ∧ credit.projectId = projectId ∧
          credit.vintageYear = vintageYear := by
    intro projectId vintageYear id indexed
    obtain ⟨before, there, project, vintage⟩ := inv.named projectId vintageYear id indexed
    obtain ⟨now, thereNow, evolves⟩ := effect.evolves inj derived there
    obtain ⟨lot, -⟩ := evolves.constant
    exact ⟨now, thereNow, lot.projectId.trans project, lot.vintageYear.trans vintage⟩
  cases submission : call.submission with
  | none =>
      refine ⟨?_, ?_⟩
      · rw [effect.index submission]
        exact named
      · intro id credit stored live
        refine inv.covered_step inj derived keeps effect stored live ?_
        intro sub submits
        rw [submission] at submits
        cases submits
  | some sub =>
      obtain ⟨-, newId, there, index⟩ := effect.submission_index submission
      refine ⟨?_, ?_⟩
      · intro projectId vintageYear id indexed
        rw [index] at indexed
        split at indexed
        · next same =>
            obtain rfl := Option.some.inj indexed
            obtain ⟨rfl, rfl⟩ := Prod.mk.inj same
            exact ⟨_, there, rfl, rfl⟩
        · exact named projectId vintageYear id indexed
      · intro id credit stored live
        by_cases same : (credit.projectId, credit.vintageYear) = (sub.projectId, sub.vintageYear)
        · rw [Ledger.duplicateExists_iff, index, if_pos same]
          exact ⟨newId, sub.credit env, rfl, there, rfl⟩
        · refine inv.covered_step inj derived keeps effect stored live ?_
          intro sub' submits
          obtain rfl := Option.some.inj (submission.symm.trans submits)
          exact same

/-! ## Runs -/

/-- No double issuance: in every run that keeps the index, a live credit of a project and
vintage makes every submission for them fail. -/
theorem live_vintage_refuses_submission (inj : Function.Injective sha256)
    (inputs : List Invocation)
    (kept : ∀ event ∈ (machine sha256).log inputs,
      KeepsIndex event.pre.ledger event.input.call)
    {id : BytesN32} {credit : CreditMetadata}
    (stored : ((machine sha256).state inputs).ledger.getCredit id = some credit)
    (live : credit.status = .pending ∨ credit.status = .active)
    (env : Env) (call : Call) {sub : Submission} (submission : call.submission = some sub)
    (project : sub.projectId = credit.projectId) (vintage : sub.vintageYear = credit.vintageYear)
    (result : Ret × State) :
    exec sha256 ((machine sha256).state inputs) ⟨env, call⟩ ≠ .ok result := by
  have inv := (machine sha256).run_induct_of
    (fun _ event => KeepsIndex event.pre.ledger event.input.call)
    (fun _ s => s.ledger.Derived sha256 ∧ IndexInv s.ledger)
    ⟨derived_init,
      fun projectId vintageYear id indexed => (by cases indexed),
      fun id credit stored => (by cases stored)⟩
    (fun log event inv keeps commits =>
      have effect := exec_effect sha256 event.pre commits
      ⟨effect.derived inv.1, inv.2.step inj inv.1 keeps effect⟩)
    inputs (Machine.admits_forall.mpr kept)
  intro success
  have isLive : credit.status.isLive = true := by
    rcases live with pending | active
    · rw [pending]
      rfl
    · rw [active]
      rfl
  have found := inv.2.covered id credit stored isLive
  have unique := ((exec_effect sha256 _ success).submission_index submission).1
  rw [project, vintage, found] at unique
  cases unique

namespace Sample

/-- One active credit, split in two. -/
def split : List Invocation :=
  approve ++ [call issuer (.splitCredit issuer (credit 0) 500000 1)]

end Sample

set_option maxRecDepth 100000 in
theorem approve_refuses_submission :
    (∃ credit, ((machine BytesN32.mk).state Sample.approve).ledger.getCredit (Sample.credit 0) =
      some credit ∧ credit.status = .active) ∧
    ∀ result, exec BytesN32.mk ((machine BytesN32.mk).state Sample.approve) (Sample.submit 1) ≠
      .ok result := by
  have still : ∀ event ∈ (machine BytesN32.mk).log Sample.approve,
      event.input.call.withdraws = [] ∧ event.input.call.restores = none := by
    decide
  have kept : ∀ event ∈ (machine BytesN32.mk).log Sample.approve,
      KeepsIndex event.pre.ledger event.input.call := by
    intro event logged
    obtain ⟨nothing, none⟩ := still event logged
    refine ⟨?_, ?_⟩
    · intro id withdrawn
      rw [nothing] at withdrawn
      cases withdrawn
    · intro id restored
      rw [none] at restored
      cases restored
  obtain ⟨credit, stored, active, project, vintage⟩ : ∃ credit,
      ((machine BytesN32.mk).state Sample.approve).ledger.getCredit (Sample.credit 0) =
        some credit ∧
      credit.status = .active ∧ "project-1" = credit.projectId ∧ 2024 = credit.vintageYear :=
    ⟨_, rfl, rfl, rfl, rfl⟩
  refine ⟨⟨credit, stored, active⟩, fun result => ?_⟩
  exact live_vintage_refuses_submission BytesN32.mk_injective Sample.approve kept stored
    (.inr active) _ _ rfl project vintage result

set_option maxRecDepth 100000 in
/-- The half is active, and the vintage is submitted once more. -/
theorem split_admits_submission :
    Function.Injective BytesN32.mk ∧
      ∃ half, ((machine BytesN32.mk).state Sample.split).ledger.getCredit
        (creditId BytesN32.mk (.bytes (Sample.credit 0)) 1) = some half ∧
      half.status = .active ∧ half.projectId = "project-1" ∧ half.vintageYear = 2024 ∧
      ∃ result, exec BytesN32.mk ((machine BytesN32.mk).state Sample.split) (Sample.submit 2) =
        .ok result := by
  exact ⟨BytesN32.mk_injective, _, rfl, rfl, rfl, rfl, _, rfl⟩

end CarbonChain.Registry
