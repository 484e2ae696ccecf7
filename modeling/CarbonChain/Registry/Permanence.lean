import CarbonChain.Registry.Vintage

/-!
# CreditRegistry: what stays

A stored credit stays stored with everything but its owner and its status, and `Retired` is
its last status. A call changes only the credits it names and those it produces, and what
it produces is new. Whether a retired credit is inert is another matter: seven of the nine
entry points that take a credit check its status, `transfer_credit`
(`contracts/credit_registry/src/lib.rs:525-541`) and `split_credit` (`:545-595`) do not.
-/

namespace CarbonChain.Registry

variable {sha256 : Bytes → BytesN32}

/-! ## Stored credits -/

/-- The two credits agree on everything but the owner and the status. -/
structure SameData (credit credit' : CreditMetadata) : Prop where
  projectId : credit.projectId = credit'.projectId
  issuer : credit.issuer = credit'.issuer
  vintageYear : credit.vintageYear = credit'.vintageYear
  methodology : credit.methodology = credit'.methodology
  geography : credit.geography = credit'.geography
  tonnes : credit.tonnes = credit'.tonnes
  ipfsHash : credit.ipfsHash = credit'.ipfsHash
  issuedAt : credit.issuedAt = credit'.issuedAt

theorem SameData.refl (credit : CreditMetadata) : SameData credit credit :=
  ⟨rfl, rfl, rfl, rfl, rfl, rfl, rfl, rfl⟩

theorem SameData.trans {first second third : CreditMetadata} (h : SameData first second)
    (h' : SameData second third) : SameData first third :=
  ⟨h.projectId.trans h'.projectId, h.issuer.trans h'.issuer, h.vintageYear.trans h'.vintageYear,
    h.methodology.trans h'.methodology, h.geography.trans h'.geography, h.tonnes.trans h'.tonnes,
    h.ipfsHash.trans h'.ipfsHash, h.issuedAt.trans h'.issuedAt⟩

theorem Evolves.sameData {s : State} {env : Env} {call : Call} {id : BytesN32}
    {credit credit' : CreditMetadata} (h : Evolves s env call id credit credit') :
    SameData credit' credit := by
  cases h <;> exact ⟨rfl, rfl, rfl, rfl, rfl, rfl, rfl, rfl⟩

/-- Every credit of the earlier ledger is in the later one with the same data, and is
retired there if it was retired. -/
def Ledger.Continues (before after : Ledger) : Prop :=
  ∀ id credit, before.getCredit id = some credit → ∃ credit',
    after.getCredit id = some credit' ∧ SameData credit' credit ∧
      (credit.status = .retired → credit'.status = .retired)

theorem Ledger.Continues.refl (ledger : Ledger) : ledger.Continues ledger :=
  fun _ credit stored => ⟨credit, stored, SameData.refl credit, fun retired => retired⟩

theorem Ledger.Continues.trans {first second third : Ledger} (h : first.Continues second)
    (h' : second.Continues third) : first.Continues third := by
  intro id credit stored
  obtain ⟨between, stored', same, stays⟩ := h id credit stored
  obtain ⟨last, stored'', same', stays'⟩ := h' id between stored'
  exact ⟨last, stored'', same'.trans same, fun retired => stays' (stays retired)⟩

theorem Ledger.Continues.stored {before after : Ledger} (h : before.Continues after)
    {id : BytesN32} (stored : before.getCredit id ≠ none) : after.getCredit id ≠ none := by
  rcases Option.ne_none_iff_exists'.mp stored with ⟨credit, found⟩
  rcases h id credit found with ⟨credit', there, -⟩
  rw [there]
  exact Option.some_ne_none credit'

theorem Ledger.Continues.tonnesOf {before after : Ledger} (h : before.Continues after)
    {id : BytesN32} (stored : before.getCredit id ≠ none) :
    after.tonnesOf id = before.tonnesOf id := by
  rcases Option.ne_none_iff_exists'.mp stored with ⟨credit, found⟩
  rcases h id credit found with ⟨credit', there, same, -⟩
  unfold Ledger.tonnesOf
  rw [there, found]
  exact same.tonnes

theorem Effect.continues {env : Env} {s : State} {call : Call} {ret : Ret} {after : Ledger}
    (inj : Function.Injective sha256) (derived : s.ledger.Derived sha256)
    (effect : Effect sha256 env s call ret after) : s.ledger.Continues after := by
  intro id credit stored
  obtain ⟨credit', there, evolves⟩ := effect.evolves inj derived stored
  exact ⟨credit', there, evolves.sameData, evolves.retired_stays⟩

theorem Effect.stays_retired {env : Env} {s : State} {call : Call} {ret : Ret} {after : Ledger}
    (inj : Function.Injective sha256) (derived : s.ledger.Derived sha256)
    (effect : Effect sha256 env s call ret after) {id : BytesN32}
    (retired : s.ledger.statusOf id = some .retired) : after.statusOf id = some .retired := by
  obtain ⟨credit, stored, status⟩ := Ledger.statusOf_eq_some.mp retired
  obtain ⟨credit', there, -, stays⟩ := effect.continues inj derived id credit stored
  exact Ledger.statusOf_eq_some.mpr ⟨credit', there, stays status⟩

theorem Effect.stays_stored {env : Env} {s : State} {call : Call} {ret : Ret} {after : Ledger}
    (inj : Function.Injective sha256) (derived : s.ledger.Derived sha256)
    (effect : Effect sha256 env s call ret after) {id : BytesN32}
    (stored : s.ledger.getCredit id ≠ none) : after.getCredit id ≠ none :=
  (effect.continues inj derived).stored stored

/-- A run continues the ledger of each of its states. -/
theorem continues_of_run (inj : Function.Injective sha256) (earlier later : List Invocation) :
    ((machine sha256).state earlier).ledger.Continues
      ((machine sha256).state (earlier ++ later)).ledger := by
  apply (machine sha256).relates (fun s => s.ledger.Derived sha256)
    (fun s s' => s.ledger.Continues s'.ledger)
  · exact derived_init
  · exact fun s => Ledger.Continues.refl s.ledger
  · exact fun _ _ _ first second => first.trans second
  · intro event derived commits
    have effect := exec_effect sha256 event.pre commits
    exact ⟨effect.derived derived, effect.continues inj derived⟩

/-- Retired is terminal and credit data is immutable: a credit that is stored at some moment
of a run is stored at every later one, with the same data, and is retired there if it was
retired. -/
theorem stored_credit_stays (inj : Function.Injective sha256) (earlier later : List Invocation)
    {id : BytesN32} {credit : CreditMetadata}
    (stored : ((machine sha256).state earlier).ledger.getCredit id = some credit) :
    ∃ credit', ((machine sha256).state (earlier ++ later)).ledger.getCredit id = some credit' ∧
      SameData credit' credit ∧ (credit.status = .retired → credit'.status = .retired) :=
  continues_of_run inj earlier later id credit stored

namespace Sample

/-- The issuer transfers the credit that it has split already. -/
def transferParent : Invocation :=
  call issuer (.transferCredit issuer verifier (credit 0) 2)

end Sample

set_option maxRecDepth 100000 in
theorem split_parent_stays :
    ∃ credit', ((machine BytesN32.mk).state
        (Sample.split ++ [Sample.transferParent])).ledger.getCredit (Sample.credit 0) =
          some credit' ∧
      credit'.status = .retired := by
  obtain ⟨credit, stored, retired⟩ : ∃ credit,
      ((machine BytesN32.mk).state Sample.split).ledger.getCredit (Sample.credit 0) =
        some credit ∧ credit.status = .retired :=
    ⟨_, rfl, rfl⟩
  obtain ⟨credit', there, -, stays⟩ :=
    stored_credit_stays BytesN32.mk_injective Sample.split [Sample.transferParent] stored
  exact ⟨credit', there, stays retired⟩

/-! ## What a call names and produces -/

/-- The credits that a call takes as its subject or among its inputs. -/
def Call.creditArguments : Call → List BytesN32
  | .approveAndMint _ id _ | .flagCredit _ id _ _ | .markRetired id | .transferCredit _ _ id _
  | .splitCredit _ id _ _ | .expireCredit _ id | .disputeCredit _ id _
  | .resolveDispute _ id _ => [id]
  | .mergeCredits _ ids => ids
  | _ => []

/-- The credit ids that a call produces, read off what it returns. -/
def producedIds : Call → Ret → List BytesN32
  | .submitCredit .., .id id | .submitCreditWithSession .., .id id
  | .mergeCredits .., .id id => [id]
  | .splitCredit .., .pair child1Id child2Id => [child1Id, child2Id]
  | _, _ => []

theorem producedIds_of_submission {call : Call} {sub : Submission} {id : BytesN32}
    (submission : call.submission = some sub) : producedIds call (.id id) = [id] := by
  cases call <;> first | rfl | cases submission

theorem producedIds_of_quiet {call : Call} {ret : Ret} (quiet : call.onCredits = false) :
    producedIds call ret = [] := by
  cases call <;> first | rfl | cases quiet

theorem StatusChange.producedIds {call : Call} {id : BytesN32} {old new : CreditStatus}
    (change : StatusChange call id old new) (ret : Ret) : producedIds call ret = [] := by
  cases change <;> rfl

theorem creditArguments_of_submission {call : Call} {sub : Submission}
    (submission : call.submission = some sub) : call.creditArguments = [] := by
  cases call <;> first | rfl | cases submission

theorem creditArguments_of_quiet {call : Call} (quiet : call.onCredits = false) :
    call.creditArguments = [] := by
  cases call <;> first | rfl | cases quiet

theorem StatusChange.creditArguments {call : Call} {id : BytesN32} {old new : CreditStatus}
    (change : StatusChange call id old new) : call.creditArguments = [id] := by
  cases change <;> rfl

/-- A credit that the call does not name does not change. -/
theorem Evolves.eq_of_unnamed {s : State} {env : Env} {call : Call} {id : BytesN32}
    {credit credit' : CreditMetadata} (h : Evolves s env call id credit credit')
    (unnamed : id ∉ call.creditArguments) : credit' = credit := by
  cases h with
  | same => rfl
  | minted verifier nonce named pending registered first enough =>
      simp [named, Call.creditArguments] at unnamed
  | restatused status change => simp [change.creditArguments] at unnamed
  | transferred recipient nonce named authorised =>
      simp [named, Call.creditArguments] at unnamed
  | split splitTonnes nonce named authorised => simp [named, Call.creditArguments] at unnamed
  | merged ids named authorised listed active =>
      simp [named, Call.creditArguments, listed] at unnamed

/-- A credit that a call brings into being has an id that the call produces. -/
theorem Created.produced {s : State} {env : Env} {call : Call} {ret : Ret} {id : BytesN32}
    {credit : CreditMetadata} (h : Created s env call ret id credit) :
    id ∈ producedIds call ret := by
  cases h with
  | submitted sub submission hasAdmin positive returned =>
      rw [returned, producedIds_of_submission submission]
      exact List.mem_singleton_self id
  | child caller parent child1Id child2Id splitTonnes part nonce original named returned isChild
      stored owned positive =>
      rw [named, returned]
      simpa [producedIds] using isChild
  | merged caller ids credit named returned several active tonnes sources =>
      rw [named, returned]
      exact List.mem_singleton_self id

/-- A call leaves the record of every credit alone that it neither names nor produces. -/
theorem Effect.frame {env : Env} {s : State} {call : Call} {ret : Ret} {after : Ledger}
    (inj : Function.Injective sha256) (derived : s.ledger.Derived sha256)
    (effect : Effect sha256 env s call ret after) {id : BytesN32}
    (unnamed : id ∉ call.creditArguments) (unproduced : id ∉ producedIds call ret) :
    after.getCredit id = s.ledger.getCredit id := by
  cases known : s.ledger.getCredit id with
  | some credit =>
      obtain ⟨credit', there, evolves⟩ := effect.evolves inj derived known
      rw [there, evolves.eq_of_unnamed unnamed]
  | none =>
      by_contra stored
      obtain ⟨credit, there⟩ := Option.ne_none_iff_exists'.mp stored
      exact unproduced (effect.created known there).1.produced

/-- The ids that a call produces are distinct, and nothing was stored under them. -/
theorem Effect.produced_fresh {env : Env} {s : State} {call : Call} {ret : Ret} {after : Ledger}
    (inj : Function.Injective sha256) (derived : s.ledger.Derived sha256)
    (effect : Effect sha256 env s call ret after) :
    (producedIds call ret).Nodup ∧
      ∀ id ∈ producedIds call ret, s.ledger.getCredit id = none := by
  cases effect with
  | submitted _ sub newId submission hasAdmin authorised positive unique newDerived =>
      rw [producedIds_of_submission submission]
      refine ⟨List.nodup_singleton newId, ?_⟩
      intro id listed
      rw [List.mem_singleton.mp listed]
      exact derived.next inj newDerived
  | split caller target splitTonnes nonce original child1Id child2Id authorised there owned
      positive proper derived1 derived2 =>
      obtain ⟨siblings, absent1, absent2⟩ := derived.children inj derived1 derived2
      refine ⟨by simp [producedIds, siblings], ?_⟩
      intro id listed
      simp only [producedIds, List.mem_cons, List.not_mem_nil, or_false] at listed
      rcases listed with rfl | rfl
      · exact absent1
      · exact absent2
  | merged caller ids mergedId merged _ authorised several owner active tonnes sources newDerived
      retired =>
      refine ⟨List.nodup_singleton mergedId, ?_⟩
      intro id listed
      rw [List.mem_singleton.mp listed]
      exact derived.next inj newDerived
  | unchanged _ _ quiet => simp [producedIds_of_quiet quiet]
  | restatused _ target found status dispute there change trusted =>
      simp [change.producedIds]
  | _ => simp [producedIds]

/-- Credit ids are fresh and operations touch only the credits they name: the ids that an
event of a run produces are distinct and none was stored, and the event changes no record
but those of the credits it names or produces. -/
theorem produced_fresh_and_frame (inj : Function.Injective sha256) (inputs : List Invocation)
    {event : Event State Invocation Ret} (logged : event ∈ (machine sha256).log inputs) :
    (producedIds event.input.call event.output).Nodup ∧
      (∀ id ∈ producedIds event.input.call event.output,
        event.pre.ledger.getCredit id = none) ∧
      ∀ id, id ∉ event.input.call.creditArguments →
        id ∉ producedIds event.input.call event.output →
          event.post.ledger.getCredit id = event.pre.ledger.getCredit id := by
  obtain ⟨derived, commits⟩ := derived_of_logged logged
  have effect := exec_effect sha256 event.pre commits
  obtain ⟨distinct, fresh⟩ := effect.produced_fresh inj derived
  exact ⟨distinct, fresh, fun id => effect.frame inj derived⟩

set_option maxRecDepth 100000 in
/-- The split of the sample credit produces two ids under which nothing was stored. -/
theorem split_produces_fresh :
    ∃ event ∈ (machine BytesN32.mk).log Sample.split,
      producedIds event.input.call event.output =
        [creditId BytesN32.mk (.bytes (Sample.credit 0)) 1,
          creditId BytesN32.mk (.bytes (Sample.credit 0)) 2] ∧
      (producedIds event.input.call event.output).Nodup ∧
      ∀ id ∈ producedIds event.input.call event.output,
        event.pre.ledger.getCredit id = none := by
  obtain ⟨event, logged, produced⟩ : ∃ event ∈ (machine BytesN32.mk).log Sample.split,
      producedIds event.input.call event.output =
        [creditId BytesN32.mk (.bytes (Sample.credit 0)) 1,
          creditId BytesN32.mk (.bytes (Sample.credit 0)) 2] :=
    ⟨_, List.getElem_mem (n := 7) (by decide), rfl⟩
  have fresh := produced_fresh_and_frame BytesN32.mk_injective Sample.split logged
  exact ⟨event, logged, produced, fresh.1, fresh.2.1⟩

/-! ## Calls on retired credits -/

/-- The guards that `transfer_credit` and `split_credit` share. -/
structure Acts (env : Env) (s : State) (caller : Address) (nonce : Nat) : Prop where
  current : s.roles.wasm = none
  unpaused : s.roles.paused = false
  authorised : env.auth caller = true
  numbered : s.getNonce caller = nonce
  room : nonce + 1 < 2 ^ 64

/-- The call transfers or splits a credit, and its guards, none of which reads the status of
the credit, let it through. -/
def PassesOn (env : Env) (s : State) : Call → Prop
  | .transferCredit sender _ id nonce =>
      Acts env s sender nonce ∧ ∃ credit, s.ledger.getCredit id = some credit ∧
        credit.owner = sender
  | .splitCredit caller id splitTonnes nonce =>
      Acts env s caller nonce ∧ s.ledger.creditNonce + 2 < 2 ^ 64 ∧
        ∃ credit, s.ledger.getCredit id = some credit ∧ credit.owner = caller ∧
          0 < splitTonnes ∧ splitTonnes < credit.tonnes
  | _ => False

theorem transferCredit_succeeds {env : Env} {s : State} {sender recipient : Address}
    {id : BytesN32} {nonce : Nat} :
    (∃ result, exec sha256 s ⟨env, .transferCredit sender recipient id nonce⟩ = .ok result) ↔
      PassesOn env s (.transferCredit sender recipient id nonce) := by
  constructor
  · rintro ⟨⟨ret, s'⟩, success⟩
    obtain ⟨current, dispatched⟩ := (exec_eq_ok sha256 s).mp success
    simp only [dispatch, Result.unit_eq_ok, transferCredit, State.consumeNonce, bind_eq_ok,
      rejectIf_eq_ok, Env.requireAuth_eq_ok, exists_const, okOr_eq_ok, pure_eq_ok, not_not,
      ne_eq, consumeNonce_eq_ok] at dispatched
    obtain ⟨⟨unpaused, authorised, nonces, ⟨numbered, room, -⟩, credit, stored, owned, -⟩, -⟩ :=
      dispatched
    have numbered' : s.getNonce sender = nonce := numbered
    rw [numbered] at room
    exact ⟨⟨current, by simpa using unpaused, authorised, numbered', room⟩, credit, stored, owned⟩
  · rintro ⟨acts, credit, stored, owned⟩
    have numbered : nonceOf s.nonce sender = nonce := acts.numbered
    have room : nonceOf s.nonce sender + 1 < 2 ^ 64 := by
      rw [numbered]
      exact acts.room
    have success : ∃ s', transferCredit env s sender recipient id nonce = .ok s' := by
      simp only [transferCredit, State.consumeNonce, bind_eq_ok, rejectIf_eq_ok,
        Env.requireAuth_eq_ok, exists_const, okOr_eq_ok, pure_eq_ok, not_not, ne_eq,
        consumeNonce_eq_ok]
      exact ⟨_, by simp [acts.unpaused], acts.authorised, _, ⟨numbered, room, rfl⟩, credit,
        stored, owned, rfl⟩
    obtain ⟨s', success⟩ := success
    refine ⟨(.unit, s'), (exec_eq_ok sha256 s).mpr ⟨acts.current, ?_⟩⟩
    exact Result.unit_eq_ok.mpr ⟨success, rfl⟩

theorem splitCredit_succeeds {env : Env} {s : State} {caller : Address} {id : BytesN32}
    {splitTonnes : Int} {nonce : Nat} :
    (∃ result, exec sha256 s ⟨env, .splitCredit caller id splitTonnes nonce⟩ = .ok result) ↔
      PassesOn env s (.splitCredit caller id splitTonnes nonce) := by
  constructor
  · rintro ⟨⟨ret, s'⟩, success⟩
    obtain ⟨current, dispatched⟩ := (exec_eq_ok sha256 s).mp success
    simp only [dispatch, Result.pair_eq_ok, splitCredit, State.consumeNonce, bind_eq_ok,
      rejectIf_eq_ok, Env.requireAuth_eq_ok, exists_const, okOr_eq_ok, pure_eq_ok, not_not,
      ne_eq, consumeNonce_eq_ok, not_or, Ledger.nextCreditId_eq_ok, Prod.exists,
      Prod.mk.injEq] at dispatched
    obtain ⟨_, _, ⟨unpaused, authorised, nonces, ⟨numbered, room, -⟩, credit, stored, owned,
      ⟨positive, proper⟩, _, _, ⟨-, -, rfl⟩, _, _, ⟨counter, -, -⟩, -⟩, -⟩ := dispatched
    have numbered' : s.getNonce caller = nonce := numbered
    rw [numbered] at room
    rw [Ledger.creditNonce_advance] at counter
    refine ⟨⟨current, by simpa using unpaused, authorised, numbered', room⟩, ?_, credit, stored,
      owned, ?_, ?_⟩
    · omega
    · omega
    · omega
  · rintro ⟨acts, counter, credit, stored, owned, positive, proper⟩
    have numbered : nonceOf s.nonce caller = nonce := acts.numbered
    have room : nonceOf s.nonce caller + 1 < 2 ^ 64 := by
      rw [numbered]
      exact acts.room
    have first : s.ledger.creditNonce + 1 < 2 ^ 64 := by omega
    have second : (s.ledger.advance 1).creditNonce + 1 < 2 ^ 64 := by
      rw [Ledger.creditNonce_advance]
      omega
    have within : ¬ splitTonnes ≤ 0 ∧ ¬ splitTonnes ≥ credit.tonnes := by omega
    have success : ∃ children s',
        splitCredit sha256 env s caller id splitTonnes nonce = .ok (children, s') := by
      simp only [splitCredit, State.consumeNonce, bind_eq_ok, rejectIf_eq_ok,
        Env.requireAuth_eq_ok, exists_const, okOr_eq_ok, pure_eq_ok, not_not, ne_eq,
        consumeNonce_eq_ok, not_or, Ledger.nextCreditId_eq_ok, Prod.exists]
      exact ⟨_, _, _, by simp [acts.unpaused], acts.authorised, _, ⟨numbered, room, rfl⟩,
        credit, stored, owned, within, _, _, ⟨first, rfl, rfl⟩, _, _, ⟨second, rfl, rfl⟩, rfl⟩
    obtain ⟨⟨child1Id, child2Id⟩, s', success⟩ := success
    refine ⟨(.pair child1Id child2Id, s'), (exec_eq_ok sha256 s).mpr ⟨acts.current, ?_⟩⟩
    exact Result.pair_eq_ok.mpr ⟨child1Id, child2Id, success, rfl⟩

/-- A successful call that takes a retired credit transfers it or splits it. -/
theorem Effect.retired_argument {env : Env} {s : State} {call : Call} {ret : Ret} {after : Ledger}
    (effect : Effect sha256 env s call ret after) {id : BytesN32} {credit : CreditMetadata}
    (stored : s.ledger.getCredit id = some credit) (retired : credit.status = .retired)
    (named : id ∈ call.creditArguments) :
    (∃ sender recipient nonce, call = .transferCredit sender recipient id nonce) ∨
      ∃ caller splitTonnes nonce, call = .splitCredit caller id splitTonnes nonce := by
  cases effect with
  | unchanged _ _ quiet =>
      rw [creditArguments_of_quiet quiet] at named
      cases named
  | submitted _ sub newId submission hasAdmin authorised positive unique newDerived =>
      rw [creditArguments_of_submission submission] at named
      cases named
  | approved verifier target nonce found authorised registered there pending first short =>
      obtain rfl := List.mem_singleton.mp named
      obtain rfl := Option.some.inj (there.symm.trans stored)
      simp [retired] at pending
  | minted verifier target nonce found authorised registered there pending first enough =>
      obtain rfl := List.mem_singleton.mp named
      obtain rfl := Option.some.inj (there.symm.trans stored)
      simp [retired] at pending
  | restatused _ target found status dispute there change trusted =>
      rw [change.creditArguments] at named
      obtain rfl := List.mem_singleton.mp named
      obtain rfl := Option.some.inj (there.symm.trans stored)
      rw [retired] at change
      cases change <;> contradiction
  | transferred sender recipient target nonce found authorised there owned =>
      obtain rfl := List.mem_singleton.mp named
      exact .inl ⟨sender, recipient, nonce, rfl⟩
  | split caller target splitTonnes nonce original child1Id child2Id authorised there owned
      positive proper derived1 derived2 =>
      obtain rfl := List.mem_singleton.mp named
      exact .inr ⟨caller, splitTonnes, nonce, rfl⟩
  | merged caller ids mergedId merged _ authorised several owner active tonnes sources newDerived
      retired' =>
      obtain ⟨source, found, -, live, -⟩ := sources id named
      obtain rfl := Option.some.inj (found.symm.trans stored)
      simp [retired] at live

/-- In every reachable state a call that takes a retired credit fails if and only if it is not
a transfer or a split that the guards of these two let through. -/
theorem retired_inert_iff (inputs : List Invocation) {id : BytesN32} {credit : CreditMetadata}
    (stored : ((machine sha256).state inputs).ledger.getCredit id = some credit)
    (retired : credit.status = .retired) (env : Env) {call : Call}
    (named : id ∈ call.creditArguments) :
    (∀ result, exec sha256 ((machine sha256).state inputs) ⟨env, call⟩ ≠ .ok result) ↔
      ¬ PassesOn env ((machine sha256).state inputs) call := by
  rw [← not_exists, not_iff_not]
  constructor
  · rintro ⟨⟨ret, s'⟩, success⟩
    have effect := exec_effect sha256 _ success
    rcases effect.retired_argument stored retired named with
      ⟨sender, recipient, nonce, rfl⟩ | ⟨caller, splitTonnes, nonce, rfl⟩
    · exact transferCredit_succeeds.mp ⟨_, success⟩
    · exact splitCredit_succeeds.mp ⟨_, success⟩
  · intro passes
    cases call with
    | transferCredit sender recipient target nonce => exact transferCredit_succeeds.mpr passes
    | splitCredit caller target splitTonnes nonce => exact splitCredit_succeeds.mpr passes
    | _ => cases passes

set_option maxRecDepth 100000 in
/-- The parent of the split cannot be flagged, and the verifier, who is not its owner, cannot
transfer it. -/
theorem split_parent_refuses :
    (∀ result, exec BytesN32.mk ((machine BytesN32.mk).state Sample.split) (Sample.call
      Sample.verifier (.flagCredit Sample.verifier (Sample.credit 0) "late" 1)) ≠ .ok result) ∧
    ∀ result, exec BytesN32.mk ((machine BytesN32.mk).state Sample.split) (Sample.call
      Sample.verifier (.transferCredit Sample.verifier Sample.issuer (Sample.credit 0) 1)) ≠
        .ok result := by
  obtain ⟨credit, stored, retired, owned⟩ : ∃ credit,
      ((machine BytesN32.mk).state Sample.split).ledger.getCredit (Sample.credit 0) =
        some credit ∧ credit.status = .retired ∧ credit.owner = Sample.issuer :=
    ⟨_, rfl, rfl, rfl⟩
  refine ⟨?_, ?_⟩
  · apply (retired_inert_iff Sample.split stored retired _ (List.mem_singleton_self _)).mpr
    exact fun passes => passes
  · apply (retired_inert_iff Sample.split stored retired _ (List.mem_singleton_self _)).mpr
    rintro ⟨-, other, found, its⟩
    obtain rfl := Option.some.inj (found.symm.trans stored)
    rw [owned] at its
    exact absurd its (by decide)

set_option maxRecDepth 100000 in
/-- The issuer transfers the parent of the split, and it splits it once more. -/
theorem split_parent_passes_on :
    Function.Injective BytesN32.mk ∧
      (∃ credit, ((machine BytesN32.mk).state Sample.split).ledger.getCredit (Sample.credit 0) =
        some credit ∧ credit.status = .retired) ∧
      (∃ result, exec BytesN32.mk ((machine BytesN32.mk).state Sample.split)
        Sample.transferParent = .ok result) ∧
      ∃ result, exec BytesN32.mk ((machine BytesN32.mk).state Sample.split) (Sample.call
        Sample.issuer (.splitCredit Sample.issuer (Sample.credit 0) 300000 2)) = .ok result :=
  ⟨BytesN32.mk_injective, ⟨_, rfl, rfl⟩, ⟨_, rfl⟩, _, rfl⟩

end CarbonChain.Registry
