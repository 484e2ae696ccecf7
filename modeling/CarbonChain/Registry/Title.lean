import CarbonChain.Registry.Evolution

/-!
# CreditRegistry: chains of title

The owner of a credit is found by following its transfers
(`contracts/credit_registry/src/lib.rs:525-541`) from the one who brought the credit into
being. Each transfer is from the owner of that moment, who authorised it.
-/

namespace CarbonChain.Registry

variable {sha256 : Bytes → BytesN32}

/-- The transfers lead from the owner `a` to the owner `b`, each from the owner it finds. -/
def Leads : Address → List (Address × Address) → Address → Prop
  | a, [], b => a = b
  | a, (sender, recipient) :: rest, b => sender = a ∧ Leads recipient rest b

theorem Leads.snoc {a b c : Address} {deeds : List (Address × Address)} (leads : Leads a deeds b) :
    Leads a (deeds ++ [(b, c)]) c := by
  induction deeds generalizing a with
  | nil =>
      obtain rfl : a = b := leads
      exact ⟨rfl, rfl⟩
  | cons deed rest ih => exact ⟨leads.1, ih leads.2⟩

/-- The transfer of the credit `id` that a call makes, by its sender and its recipient. -/
def Call.deed (id : BytesN32) : Call → Option (Address × Address)
  | .transferCredit sender recipient target _ =>
      if target = id then some (sender, recipient) else none
  | _ => none

/-- The transfers of a credit in a log, in order. -/
def deedsOf (id : BytesN32) (log : List (Event State Invocation Ret)) :
    List (Address × Address) :=
  log.filterMap fun event => event.input.call.deed id

/-- Who owns the credits that a call brings into being. -/
def Call.founder : Call → Option Address
  | .submitCredit issuer .. | .submitCreditWithSession _ issuer .. => some issuer
  | .splitCredit caller .. | .mergeCredits caller .. => some caller
  | _ => none

theorem founder_of_submission {call : Call} {sub : Submission}
    (submission : call.submission = some sub) : call.founder = some sub.issuer := by
  cases call <;> cases submission <;> rfl

theorem deed_eq_some {call : Call} {id : BytesN32} {a b : Address} :
    call.deed id = some (a, b) ↔ ∃ nonce, call = .transferCredit a b id nonce := by
  cases call <;> simp [Call.deed]
  grind

theorem deedsOf_snoc (id : BytesN32) (log : List (Event State Invocation Ret))
    (event : Event State Invocation Ret) :
    deedsOf id (log ++ [event]) = deedsOf id log ++ (event.input.call.deed id).toList := by
  unfold deedsOf
  rw [List.filterMap_append]
  cases deed : event.input.call.deed id <;> simp [deed]

/-! ## What a call does -/

/-- A transfer is from the owner, who authorises it, and to the owner after it. -/
theorem Effect.deed {env : Env} {s : State} {call : Call} {ret : Ret} {after : Ledger}
    (effect : Effect sha256 env s call ret after) {id : BytesN32} {a b : Address}
    (deed : call.deed id = some (a, b)) :
    env.auth a = true ∧ ∃ credit, s.ledger.getCredit id = some credit ∧ credit.owner = a ∧
      after.getCredit id = some { credit with owner := b } := by
  obtain ⟨nonce, rfl⟩ := deed_eq_some.mp deed
  cases effect with
  | transferred _ _ _ _ credit authorised stored owned =>
      exact ⟨authorised, credit, stored, owned, by simp⟩
  | unchanged _ _ quiet => cases quiet
  | submitted _ sub newId submission hasAdmin authorised positive unique newDerived =>
      cases submission
  | restatused _ target found status dispute there change trusted => cases change

/-- Without a transfer of it a stored credit keeps its owner. -/
theorem Evolves.owner_of_no_deed {s : State} {env : Env} {call : Call} {id : BytesN32}
    {credit credit' : CreditMetadata} (h : Evolves s env call id credit credit')
    (none : call.deed id = none) : credit'.owner = credit.owner := by
  rcases h.owner_cases with same | ⟨-, nonce, named⟩
  · exact same
  · rw [deed_eq_some.mpr ⟨nonce, named⟩] at none
    cases none

/-- A new credit is owned by the founder that its call names, who authorises the call. -/
theorem Effect.founded {env : Env} {s : State} {call : Call} {ret : Ret} {after : Ledger}
    (effect : Effect sha256 env s call ret after) {id : BytesN32} {credit : CreditMetadata}
    (absent : s.ledger.getCredit id = none) (stored : after.getCredit id = some credit) :
    call.founder = some credit.owner ∧ env.auth credit.owner = true := by
  have created := (effect.created absent stored).1
  cases effect with
  | unchanged _ _ quiet => rw [absent] at stored; cases stored
  | submitted _ sub newId submission hasAdmin authorised positive unique newDerived =>
      cases created with
      | submitted sub' submission' hasAdmin positive returned =>
          obtain rfl := Option.some.inj (submission.symm.trans submission')
          exact ⟨founder_of_submission submission, authorised⟩
      | child caller parent child1Id child2Id splitTonnes part nonce original named =>
          rw [named] at submission
          cases submission
      | merged caller ids credit named =>
          rw [named] at submission
          cases submission
  | split caller target splitTonnes nonce original child1Id child2Id authorised there owned
      positive proper derived1 derived2 =>
      cases created with
      | submitted sub' submission' hasAdmin positive returned => cases submission'
      | child caller' parent child1Id child2Id splitTonnes part nonce original named =>
          cases named
          exact ⟨rfl, authorised⟩
      | merged caller ids credit named => cases named
  | merged caller ids mergedId merged _ authorised several owner active tonnes sources newDerived
      retired =>
      rw [(retireLoop_ok retired).getCredit] at stored
      simp only [Ledger.getCredit_setCredit, Ledger.getCredit_addCreditToProject,
        Ledger.getCredit_advance, absent] at stored
      have unlisted : id ∉ ids := by
        intro listed
        obtain ⟨source, found, -⟩ := sources id listed
        rw [absent] at found
        cases found
      rw [if_neg unlisted] at stored
      split at stored
      · obtain rfl := Option.some.inj stored
        rw [owner]
        exact ⟨rfl, authorised⟩
      · cases stored
  | approved | minted | restatused | transferred => cases created <;> simp_all [Call.submission]

/-! ## Runs -/

/-- The title of `owner` to a credit: one event of the log brings the credit into being, with
the authority of its founder, no transfer comes before it, and the transfers after it lead from
the founder to `owner`. -/
def Titled (id : BytesN32) (log : List (Event State Invocation Ret)) (owner : Address) : Prop :=
  ∃ before creation after founder, log = before ++ creation :: after ∧
    creation.pre.ledger.getCredit id = none ∧ creation.post.ledger.getCredit id ≠ none ∧
    creation.input.call.founder = some founder ∧ creation.input.env.auth founder = true ∧
    deedsOf id before = [] ∧ Leads founder (deedsOf id after) owner

theorem Titled.snoc {id : BytesN32} {log : List (Event State Invocation Ret)} {a b : Address}
    (titled : Titled id log a) (event : Event State Invocation Ret)
    (led : event.input.call.deed id = none ∧ b = a ∨ event.input.call.deed id = some (a, b)) :
    Titled id (log ++ [event]) b := by
  obtain ⟨before, creation, after, founder, rfl, absent, stored, founds, authorised, untouched,
    leads⟩ := titled
  refine ⟨before, creation, after ++ [event], founder, by simp, absent, stored, founds,
    authorised, untouched, ?_⟩
  rw [deedsOf_snoc]
  rcases led with ⟨none, rfl⟩ | deed
  · rw [none, Option.toList_none, List.append_nil]
    exact leads
  · rw [deed, Option.toList_some]
    exact leads.snoc

/-- In every run, each stored credit is owned by the one that its chain of transfers leads to,
and each transfer was authorised by its sender. -/
theorem chain_of_title (inj : Function.Injective sha256) (inputs : List Invocation) :
    (∀ id credit, ((machine sha256).state inputs).ledger.getCredit id = some credit →
      Titled id ((machine sha256).log inputs) credit.owner) ∧
    ∀ event ∈ (machine sha256).log inputs, ∀ id, ∀ deed ∈ event.input.call.deed id,
      event.input.env.auth deed.1 = true := by
  have kept := (machine sha256).run_induct (fun log s => s.ledger.Derived sha256 ∧
    (∀ id, s.ledger.getCredit id = none → deedsOf id log = []) ∧
    (∀ id credit, s.ledger.getCredit id = some credit → Titled id log credit.owner) ∧
    ∀ event ∈ log, ∀ id, ∀ deed ∈ event.input.call.deed id,
      event.input.env.auth deed.1 = true) ?_ ?_ inputs
  · exact kept.2.2
  · refine ⟨derived_init, fun _ _ => rfl, ?_, by simp⟩
    intro id credit stored
    cases stored
  · intro log event ⟨derived, untouched, titled, authorised⟩ commits
    have effect := exec_effect sha256 event.pre commits
    refine ⟨effect.derived derived, ?_, ?_, ?_⟩
    · intro id absent
      rw [deedsOf_snoc]
      cases before : event.pre.ledger.getCredit id with
      | some credit =>
          obtain ⟨credit', stored, -⟩ := effect.evolves inj derived before
          rw [absent] at stored
          cases stored
      | none =>
          cases named : event.input.call.deed id with
          | none => simp [untouched id before]
          | some deed =>
              obtain ⟨-, credit, stored, -⟩ := effect.deed named
              rw [before] at stored
              cases stored
    · intro id credit' stored'
      cases before : event.pre.ledger.getCredit id with
      | some credit =>
          obtain ⟨credit'', there, evolves⟩ := effect.evolves inj derived before
          obtain rfl := Option.some.inj (there.symm.trans stored')
          apply (titled id credit before).snoc event
          cases named : event.input.call.deed id with
          | none => exact .inl ⟨rfl, evolves.owner_of_no_deed named⟩
          | some deed =>
              obtain ⟨-, found, stored, owned, moved⟩ := effect.deed named
              obtain rfl := Option.some.inj (stored.symm.trans before)
              obtain rfl := Option.some.inj (moved.symm.trans stored')
              refine .inr (congrArg some ?_)
              rw [owned]
      | none =>
          obtain ⟨founds, authorised⟩ := effect.founded before stored'
          refine ⟨log, event, [], credit'.owner, rfl, before, ?_, founds, authorised,
            untouched id before, rfl⟩
          rw [stored']
          exact Option.some_ne_none credit'
    · intro e logged id deed named
      rcases List.mem_append.mp logged with before | last
      · exact authorised e before id deed named
      · rw [List.mem_singleton.mp last] at named ⊢
        exact (effect.deed named).1

namespace Sample

def buyer : Address := .account 4

/-- One active credit, which its issuer sells and its buyer gives back. -/
def sellAndReturn : List Invocation :=
  approve ++
    [call issuer (.transferCredit issuer buyer (credit 0) 1),
     call buyer (.transferCredit buyer issuer (credit 0) 0)]

end Sample

set_option maxRecDepth 100000 in
theorem sellAndReturn_titled :
    ∃ owner, Titled (Sample.credit 0) ((machine BytesN32.mk).log Sample.sellAndReturn) owner := by
  have stored : ((machine BytesN32.mk).state Sample.sellAndReturn).ledger.getCredit
      (Sample.credit 0) ≠ none := by decide
  obtain ⟨credit, there⟩ := Option.ne_none_iff_exists'.mp stored
  exact ⟨credit.owner,
    (chain_of_title BytesN32.mk_injective Sample.sellAndReturn).1 (Sample.credit 0) credit there⟩

end CarbonChain.Registry
