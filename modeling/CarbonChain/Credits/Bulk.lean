import CarbonChain.Credits.Service

/-!
# Reading in bulk

`getBulkCredits` (`api/src/credits/credits.service.ts:149-172`) reads its credits one after
the other through `getCredit` and skips those that fail. Each read may write to the cache
that the next one reads.
-/

namespace CarbonChain.Credits

open CreditsService

/-- `BadRequestException` with its message. -/
inductive BadRequestException where
  | badRequest (message : String)
  deriving DecidableEq, Repr

namespace CreditsService

variable (service : CreditsService) (repo : InMemoryCreditRepository)

/-- One iteration of the loop, which catches the error of a read. -/
def readOne (results : List Answer × Cache) (creditId : String) : List Answer × Cache :=
  match service.getCredit repo results.2 creditId with
  | .ok (credit, cache) => (results.1 ++ [credit], cache)
  | .error _ => results

/-- `getBulkCredits` (149-172): at most a hundred credits, in the order in which they are asked
for. -/
def getBulkCredits (cache : Cache) (creditIds : Option (List String)) :
    Outcome BadRequestException (List Answer × Cache) := do
  let creditIds := creditIds.getD []
  rejectIf (creditIds.length = 0) (.badRequest "Credit IDs array cannot be empty")
  rejectIf (creditIds.length > 100) (.badRequest "Maximum 100 credits per bulk request")
  return creditIds.foldl (service.readOne repo) ([], cache)

/-- What `getCredit` answers by itself, if it does not throw. -/
def answerOf (cache : Cache) (creditId : String) : Option Answer :=
  (service.getCredit repo cache creditId).toOption.map Prod.fst

end CreditsService

variable {service : CreditsService} {repo : InMemoryCreditRepository} {cache after : Cache}
  {creditId : String} {answer : Answer}

theorem answerOf_of_ok (answered : service.getCredit repo cache creditId = .ok (answer, after)) :
    service.answerOf repo cache creditId = some answer := by
  rw [answerOf, answered]
  rfl

theorem answerOf_of_error {failure : Fail HttpException}
    (failed : service.getCredit repo cache creditId = .error failure) :
    service.answerOf repo cache creditId = none := by
  rw [answerOf, failed]
  rfl

/-- An answer depends on the cache only in what it has for the credit. -/
theorem answerOf_congr {cache' : Cache}
    (same : cache'.get (creditKey creditId) = cache.get (creditKey creditId)) :
    service.answerOf repo cache' creditId = service.answerOf repo cache creditId := by
  unfold answerOf getCredit
  rw [same]
  cases cache.get (creditKey creditId) with
  | some cached => rfl
  | none =>
      cases repo.findById creditId with
      | some indexed => rfl
      | none =>
          cases service.readContract creditId with
          | error message => rfl
          | ok retval => cases retval <;> rfl

/-- `getCredit` leaves the cache, or stores its answer. -/
theorem getCredit_after (answered : service.getCredit repo cache creditId = .ok (answer, after)) :
    after = cache ∨ after = cache.set (creditKey creditId) answer := by
  unfold getCredit at answered
  cases cached : cache.get (creditKey creditId) with
  | some old =>
      simp only [cached, pure_eq_ok, Prod.mk.injEq] at answered
      exact .inl answered.2.symm
  | none =>
      cases found : repo.findById creditId with
      | some indexed =>
          simp only [cached, found, pure_eq_ok, Prod.mk.injEq] at answered
          obtain ⟨rfl, rfl⟩ := answered
          exact .inr rfl
      | none =>
          cases read : service.readContract creditId with
          | error message => simp [cached, found, read] at answered
          | ok retval =>
              simp only [cached, found, read, bind_eq_ok, okOr_eq_ok, pure_eq_ok,
                Prod.mk.injEq] at answered
              obtain ⟨metadata, -, rfl, rfl⟩ := answered
              exact .inr rfl

theorem creditKey_inj {id id' : String} : creditKey id = creditKey id' ↔ id = id' := by
  rw [creditKey, creditKey, String.append_right_inj]

/-- Reading a credit changes no answer for any credit. -/
theorem answerOf_after (answered : service.getCredit repo cache creditId = .ok (answer, after))
    (other : String) : service.answerOf repo after other = service.answerOf repo cache other := by
  rcases getCredit_after answered with rfl | rfl
  · rfl
  · by_cases same : other = creditId
    · subst same
      cases connection : cache.client with
      | none =>
          apply answerOf_congr
          rw [Caching.CacheService.get_set, if_pos rfl, connection,
            Caching.CacheService.get_of_disconnected connection]
          rfl
      | some entries =>
          have connected : cache.client ≠ none := by
            rw [connection]
            exact Option.some_ne_none entries
          have again : service.getCredit repo (cache.set (creditKey other) answer) other =
              .ok (answer, cache.set (creditKey other) answer) :=
            getCredit_again connected answered
          rw [answerOf_of_ok again, answerOf_of_ok answered]
    · apply answerOf_congr
      rw [Caching.CacheService.get_set, if_neg (mt creditKey_inj.mp same)]

/-- What the loop has read of the credits. -/
structure ReadAll (service : CreditsService) (repo : InMemoryCreditRepository) (cache : Cache)
    (creditIds : List String) (results : List Answer × Cache) : Prop where
  answers : results.1 = creditIds.filterMap (service.answerOf repo cache)
  same : ∀ id, service.answerOf repo results.2 id = service.answerOf repo cache id
  kept : ∀ key, key ∉ creditIds.map creditKey → results.2.get key = cache.get key

theorem readAll (creditIds : List String) :
    ReadAll service repo cache creditIds (creditIds.foldl (service.readOne repo) ([], cache)) := by
  induction creditIds using List.reverseRecOn with
  | nil => exact ⟨rfl, fun _ => rfl, fun _ _ => rfl⟩
  | append_singleton creditIds last ih =>
      rw [List.foldl_append, List.foldl_cons, List.foldl_nil]
      generalize creditIds.foldl (service.readOne repo) ([], cache) = results at ih
      unfold readOne
      cases read : service.getCredit repo results.2 last with
      | error failure =>
          have skipped : service.answerOf repo cache last = none := by
            rw [← ih.same last]
            exact answerOf_of_error read
          refine ⟨?_, ih.same, ?_⟩
          · rw [ih.answers]
            simp [skipped]
          · intro key unlisted
            rw [List.map_append, List.mem_append, not_or] at unlisted
            exact ih.kept key unlisted.1
      | ok result =>
          obtain ⟨credit, after⟩ := result
          have answered : service.answerOf repo cache last = some credit := by
            rw [← ih.same last]
            exact answerOf_of_ok read
          refine ⟨?_, ?_, ?_⟩
          · rw [ih.answers]
            simp [answered]
          · intro id
            exact (answerOf_after read id).trans (ih.same id)
          · intro key unlisted
            rw [List.map_append, List.mem_append, not_or] at unlisted
            rw [← ih.kept key unlisted.1]
            rcases getCredit_after read with rfl | rfl
            · rfl
            · rw [Caching.CacheService.get_set, if_neg (by simpa using unlisted.2)]

/-- Reading in bulk succeeds for one to a hundred credits. It answers what reading each of them
by itself would, in the order in which they are asked for and without those that fail; whatever
it stores on the way, it changes no later answer and touches no other key. -/
theorem bulk_agrees (service : CreditsService) (repo : InMemoryCreditRepository) (cache : Cache)
    (creditIds : Option (List String)) :
    ((∃ result, service.getBulkCredits repo cache creditIds = .ok result) ↔
      ∃ ids, creditIds = some ids ∧ 1 ≤ ids.length ∧ ids.length ≤ 100) ∧
    ∀ ids results after, creditIds = some ids →
      service.getBulkCredits repo cache creditIds = .ok (results, after) →
        results = ids.filterMap (service.answerOf repo cache) ∧
        (∀ id, service.answerOf repo after id = service.answerOf repo cache id) ∧
        ∀ key, key ∉ ids.map creditKey → after.get key = cache.get key := by
  refine ⟨?_, ?_⟩
  · simp only [getBulkCredits, bind_eq_ok, rejectIf_eq_ok, exists_const, pure_eq_ok]
    cases creditIds with
    | none => simp
    | some ids =>
        simp only [Option.getD_some, Option.some.injEq, exists_eq_left']
        constructor
        · rintro ⟨-, nonempty, few, -⟩
          omega
        · rintro ⟨nonempty, few⟩
          exact ⟨_, by omega, by omega, rfl⟩
  · rintro ids results after rfl answered
    simp only [getBulkCredits, bind_eq_ok, rejectIf_eq_ok, exists_const, pure_eq_ok,
      Option.getD_some] at answered
    obtain ⟨-, -, read⟩ := answered
    have all := @readAll service repo cache ids
    rw [read] at all
    exact ⟨all.answers, all.same, all.kept⟩

end CarbonChain.Credits
