import CarbonChain.Credits.Listing
import CarbonChain.Misc.ReadThrough

/-!
# How old an answer of the credits service is

Requests for credits (`api/src/credits/credits.service.ts:106-147`) and for listings
overlap with each other, with writes to the off-chain repository, with what happens on the
chain and with evictions. The entries of the cache expire, and Redis may fail at any
command; `CacheService` then answers as for a miss, or does nothing. Time is in
milliseconds.
-/

namespace CarbonChain.Credits

open ReadThrough CreditsService

/-- `CREDIT_TTL` (`api/src/credits/credits.service.ts:22`), in seconds. -/
def creditTtl : Nat := 120

/-- What the service reads: the repository, and what the contract has for a credit. -/
structure Sources where
  repo : InMemoryCreditRepository
  readContract : String → Except String (Option CreditMetadata)

/-- `GET /credits/:id` or `GET /credits`. -/
inductive Question where
  | credit (id : String)
  | listing (filter : ListCreditsFilter)

/-- The off-chain index comes first. -/
def readIndex (creditId : String) (sources : Sources) : Reading Answer :=
  match sources.repo.findById creditId with
  | some indexed => .value (.credit (entityToMetadata indexed))
  | none => .absent

/-- The fallback to the chain, whose errors are not caught. -/
def readChain (creditId : String) (sources : Sources) : Reading Answer :=
  match sources.readContract creditId with
  | .ok (some metadata) => .value (.credit metadata)
  | .ok none | .error _ => .failure

/-- The page that `listCredits` cuts out of the repository. -/
def readListing (service : CreditsService) (filter : ListCreditsFilter) (sources : Sources) :
    Reading Answer :=
  match service.listCredits sources.repo ⟨none⟩ filter with
  | .ok (answer, _) => .value answer
  | .error _ => .failure

/-- Where the answer to a question is cached. -/
def questionKey (service : CreditsService) : Question → String
  | .credit id => creditKey id
  | .listing filter => listingKey service filter

/-- The service at its cache. -/
def reading (service : CreditsService) : Service Question String Answer Sources where
  key := questionKey service
  ttl := 1000 * creditTtl
  sources
    | .credit id => [readIndex id, readChain id]
    | .listing filter => [readListing service filter]

/-! ## The sources of an answer -/

/-- The sources have this answer to the question, each asked by itself. -/
inductive Has (service : CreditsService) (sources : Sources) : Question → Answer → Prop where
  | indexed (id : String) (credit : CreditEntity) (found : sources.repo.findById id = some credit) :
      Has service sources (.credit id) (.credit (entityToMetadata credit))
  | onChain (id : String) (metadata : CreditMetadata)
      (read : sources.readContract id = .ok (some metadata)) :
      Has service sources (.credit id) (.credit metadata)
  | listed (filter : ListCreditsFilter) (answer : Answer)
      (page : service.listCredits sources.repo ⟨none⟩ filter = .ok (answer, ⟨none⟩)) :
      Has service sources (.listing filter) answer

theorem readIndex_eq_value {id : String} {sources : Sources} {answer : Answer} :
    readIndex id sources = .value answer ↔
      ∃ credit, sources.repo.findById id = some credit ∧
        answer = .credit (entityToMetadata credit) := by
  unfold readIndex
  cases found : sources.repo.findById id with
  | none => simp
  | some credit => simp [eq_comm]

theorem readIndex_eq_absent {id : String} {sources : Sources} :
    readIndex id sources = .absent ↔ sources.repo.findById id = none := by
  unfold readIndex
  cases found : sources.repo.findById id with
  | none => simp
  | some credit => simp

theorem readChain_eq_value {id : String} {sources : Sources} {answer : Answer} :
    readChain id sources = .value answer ↔
      ∃ metadata, sources.readContract id = .ok (some metadata) ∧ answer = .credit metadata := by
  unfold readChain
  cases read : sources.readContract id with
  | error message => simp
  | ok retval =>
      cases retval with
      | none => simp
      | some metadata => simp [eq_comm]

theorem listCredits_disconnected {service : CreditsService} {repo : InMemoryCreditRepository}
    {filter : ListCreditsFilter} {answer : Answer} {after : Cache}
    (answered : service.listCredits repo ⟨none⟩ filter = .ok (answer, after)) :
    after = ⟨none⟩ := by
  unfold listCredits at answered
  simp only [Caching.CacheService.get_of_disconnected] at answered
  obtain ⟨filtered, -, stored⟩ := bind_eq_ok.mp answered
  exact ((Prod.mk.inj (pure_eq_ok.mp stored)).2).symm

theorem has_of_fetches {service : CreditsService} {sources : Sources} {question : Question}
    {answer : Answer}
    (read : ∃ source ∈ (reading service).sources question, source sources = .value answer) :
    Has service sources question answer := by
  obtain ⟨source, listed, value⟩ := read
  cases question with
  | credit id =>
      rcases List.mem_pair.mp listed with rfl | rfl
      · obtain ⟨credit, found, rfl⟩ := readIndex_eq_value.mp value
        exact .indexed id credit found
      · obtain ⟨metadata, read, rfl⟩ := readChain_eq_value.mp value
        exact .onChain id metadata read
  | listing filter =>
      rw [List.mem_singleton.mp listed] at value
      unfold readListing at value
      split at value
      · next answer' after answered =>
          cases value
          rw [listCredits_disconnected answered] at answered
          exact .listed filter _ answered
      · cases value

/-- On a miss, `getCredit` answers with what the first source has that knows of the credit, and
stores that. -/
theorem getCredit_of_miss {service : CreditsService} {repo : InMemoryCreditRepository}
    {cache after : Cache} {id : String} {answer : Answer}
    (miss : cache.get (creditKey id) = none) :
    service.getCredit repo cache id = .ok (answer, after) ↔
      (readIndex id ⟨repo, service.readContract⟩ = .value answer ∨
        readIndex id ⟨repo, service.readContract⟩ = .absent ∧
          readChain id ⟨repo, service.readContract⟩ = .value answer) ∧
      after = cache.set (creditKey id) answer := by
  rw [readIndex_eq_value, readIndex_eq_absent, readChain_eq_value]
  unfold getCredit
  rw [miss]
  cases found : repo.findById id with
  | some credit =>
      simp only [pure_eq_ok, Prod.mk.injEq]
      grind
  | none =>
      cases read : service.readContract id with
      | error message => simp [read]
      | ok retval =>
          simp only [bind_eq_ok, okOr_eq_ok, pure_eq_ok, Prod.mk.injEq]
          grind

/-! ## Keys -/

/-- A credit has its own key, unless its id passes for a listing's. -/
theorem question_of_key {service : CreditsService} {question : Question} {id : String}
    (plain : ¬ "list:".toList <+: id.toList)
    (same : questionKey service question = creditKey id) : question = .credit id := by
  cases question with
  | credit other =>
      have same : "credits:" ++ other = "credits:" ++ id := same
      rw [String.append_right_inj] at same
      rw [same]
  | listing filter =>
      have matched := globMatches_listCreditsKey
        (service.stringify { filter with status := some (effectiveStatus filter) })
      have same : listCreditsKey
        (service.stringify { filter with status := some (effectiveStatus filter) }) =
          creditKey id := same
      rw [same, globMatches_creditKey] at matched
      exact absurd matched plain

/-! ## Answers -/

/-- A step of the service. -/
abbrev Served := StepEvent Question String Answer Sources

/-- The request `n` for the question was made, and then the sources had the answer. -/
def ReadBy (service : CreditsService) (log : List Served) (n : Nat) (question : Question)
    (answer : Answer) : Prop :=
  ∃ before event after, log = before ++ event :: after ∧ Asked before n question ∧
    Has service event.pre.world question answer

/-- A request for the question stored the answer under the key less than two minutes before
`now`, after reading it; the key was not deleted since. -/
def Cached (service : CreditsService) (log : List Served) (now : Nat) (key : String)
    (question : Question) (answer : Answer) : Prop :=
  ∃ before event after n, log = before ++ event :: after ∧ Stores event n question answer ∧
    questionKey service question = key ∧ ReadBy service before n question answer ∧
    (∀ later ∈ after, ¬ Touches (reading service) later key) ∧
    event.pre.now ≤ now ∧ now < event.pre.now + 1000 * creditTtl

theorem readBy_of_fetchedBy {service : CreditsService} {log : List Served} {n : Nat}
    {question : Question} {answer : Answer}
    (fetched : FetchedBy (reading service) log n question answer) :
    ReadBy service log n question answer := by
  obtain ⟨before, event, after, split, asked, -, read⟩ := fetched
  exact ⟨before, event, after, split, asked, has_of_fetches read⟩

/-- Whatever overlaps, an answer is one that the sources had after its request was made, or one
that a request for the same key stored less than two minutes ago and that was not evicted
since. For a credit that request was for the same credit, unless the id passes for the key of a
listing. -/
theorem answers_fresh (service : CreditsService) (start : Sources)
    (inputs : List (Input Question String Sources)) {before after : List Served} {event : Served}
    (split : (machine (reading service) start).log inputs = before ++ event :: after)
    {question : Question} {answer : Answer}
    (answered : event.output = .answered question answer) :
    (∃ n, ReadBy service before n question answer ∧
        ∃ reachable, event.input = .proceed n reachable) ∨
      ∃ asked, Cached service before event.pre.now (questionKey service question) asked answer ∧
        ∀ id, question = .credit id → ¬ "list:".toList <+: id.toList → asked = .credit id := by
  rcases answers_sourced start inputs split answered with
    ⟨n, reachable, proceeds, own⟩ | ⟨-, expiresAt, unexpired, stored⟩
  · exact .inl ⟨n, readBy_of_fetchedBy own, reachable, proceeds⟩
  · obtain ⟨first, store, later, n, asked, split', stores, same, fetched, untouched, earlier,
      expires⟩ := stored
    refine .inr ⟨asked, ⟨first, store, later, n, split', stores, same,
      readBy_of_fetchedBy fetched, untouched, earlier, ?_⟩, ?_⟩
    · rw [expires] at unexpired
      exact unexpired
    · rintro id rfl plain
      exact question_of_key plain same

namespace Sample

/-- The second request for the credit is a minute after the first. -/
def twice : List (Input Question String Sources) :=
  [.ask (.credit "C-1") true, .proceed 0 true, .proceed 0 true, .wait 60000,
   .ask (.credit "C-1") true]

def sources : Sources := ⟨index, fun _ => .ok none⟩

end Sample

open CarbonChain.Credits.Sample in
/-- The second answer comes from the cache, the first from the index. -/
theorem twice_fresh : ∃ before event,
    (machine (reading api) sources).log twice = before ++ [event] ∧
      (∃ asked, Cached api before 60000 (creditKey "C-1") asked
          (.credit (entityToMetadata (credit "C-1" "VM1" "300" .active))) ∧
        asked = .credit "C-1") := by
  obtain ⟨before, event, split, answered, input, now⟩ : ∃ before event,
      (machine (reading api) sources).log twice = before ++ event :: [] ∧
        event.output = .answered (.credit "C-1")
          (.credit (entityToMetadata (credit "C-1" "VM1" "300" .active))) ∧
        event.input = .ask (.credit "C-1") true ∧ event.pre.now = 60000 :=
    ⟨_, _, rfl, rfl, rfl, rfl⟩
  refine ⟨before, event, split, ?_⟩
  rcases answers_fresh api sources twice split answered with
    ⟨n, -, reachable, proceeds⟩ | ⟨asked, cached, its⟩
  · rw [input] at proceeds
    cases proceeds
  · rw [now] at cached
    exact ⟨asked, cached, its "C-1" rfl (by decide)⟩

end CarbonChain.Credits
