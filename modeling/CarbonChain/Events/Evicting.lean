import CarbonChain.Credits.Listing
import CarbonChain.Events.Indexing

/-!
# Evicting credits on events

The indexer evicts the listings on an event of a credit status change, and means to evict
the credit as well. It looks its id up (`api/src/events/events.service.ts:87-97`) under
`credit_id` in the data of the event, where the parser puts the topics and the value and
nothing else. So the cache keeps the credit, and `CreditsService` goes on serving it.
-/

namespace CarbonChain.Events

open Caching Credits

/-- What an action of the indexer does to the cache. -/
def Action.evict (cache : Cache) : Action → Cache
  | .del key => cache.del [key]
  | .delPattern pattern => cache.delPattern pattern
  | .triggerWebhooks _ _ => cache

/-- The cache after `indexContractEvents` on the events that were fetched. -/
def cacheAfter (contractId : ContractId) (events : List EventResponse) (service : EventsService)
    (cache : Cache) : Cache :=
  (indexContractEvents contractId events service).2.foldl Action.evict cache

/-- The event is one of a credit status change. -/
def ChangesStatus (event : EventResponse) : Prop :=
  parseEventType event ∈ creditStatusChangeEvents

instance (event : EventResponse) : Decidable (ChangesStatus event) :=
  inferInstanceAs (Decidable (_ ∈ _))

/-- No credit id is found in the data of an event; only the listings are evicted. -/
theorem eventActions_eq (contractId : ContractId) (event : EventResponse) :
    eventActions contractId event =
      (if ChangesStatus event then [.delPattern "credits:list:*"] else []) ++
        [.triggerWebhooks (parseEventType event) (sorobanEvent contractId event)] := by
  have unfound : (sorobanEvent contractId event).data.lookup "credit_id" = none := rfl
  simp only [eventActions, invalidations, unfound, List.nil_append]
  rfl

/-- What one event leaves in the cache. -/
theorem get_eventActions (contractId : ContractId) (event : EventResponse) (cache : Cache)
    (key : String) :
    ((eventActions contractId event).foldl Action.evict cache).get key =
      if ChangesStatus event ∧ globMatches "credits:list:*".toList key.toList then none
      else cache.get key := by
  rw [eventActions_eq]
  by_cases changes : ChangesStatus event
  · rw [if_pos changes]
    show (cache.delPattern "credits:list:*").get key = _
    rw [CacheService.get_delPattern]
    simp only [changes, true_and]
  · rw [if_neg changes, if_neg fun both => changes both.1]
    rfl

/-- What the events leave in the cache: everything but the listings, and these if no event is
one of a credit status change. -/
theorem get_cacheAfter (contractId : ContractId) (events : List EventResponse)
    (service : EventsService) (cache : Cache) (key : String) :
    (cacheAfter contractId events service cache).get key =
      if (∃ event ∈ events, ChangesStatus event) ∧
        globMatches "credits:list:*".toList key.toList then none
      else cache.get key := by
  show ((events.flatMap (eventActions contractId)).foldl Action.evict cache).get key = _
  induction events generalizing cache with
  | nil => simp
  | cons event events ih =>
      rw [List.flatMap_cons, List.foldl_append, ih, get_eventActions]
      by_cases listing : globMatches "credits:list:*".toList key.toList
      · by_cases changes : ChangesStatus event <;> simp only [listing, changes, and_true,
          List.mem_cons, exists_eq_or_imp, true_or, false_or, if_true, if_false, ite_self]
      · rw [if_neg fun both => listing both.2, if_neg fun both => listing both.2,
          if_neg fun both => listing both.2]

/-- An event of a credit status change evicts every listing. -/
theorem listings_evicted (contractId : ContractId) {events : List EventResponse}
    (service : EventsService) (cache : Cache)
    (occurs : ∃ event ∈ events, ChangesStatus event) (filter : String) :
    (cacheAfter contractId events service cache).get (listCreditsKey filter) = none := by
  rw [get_cacheAfter, if_pos ⟨occurs, globMatches_listCreditsKey filter⟩]

/-- Whatever the events are, the cache keeps a credit, unless its key is one of a listing. -/
theorem credit_kept (contractId : ContractId) (events : List EventResponse)
    (service : EventsService) (cache : Cache) {creditId : String}
    (plain : ¬ "list:".toList <+: creditId.toList) :
    (cacheAfter contractId events service cache).get (creditKey creditId) =
      cache.get (creditKey creditId) := by
  rw [get_cacheAfter, if_neg fun both => plain ((globMatches_creditKey creditId).mp both.2)]

/-- So `getCredit` answers with what was cached before the events. -/
theorem getCredit_stale (credits : CreditsService) (repo : InMemoryCreditRepository)
    (contractId : ContractId) (events : List EventResponse) (service : EventsService)
    (cache : Cache) {creditId : String} {answer : Answer}
    (plain : ¬ "list:".toList <+: creditId.toList)
    (cached : cache.get (creditKey creditId) = some answer) :
    credits.getCredit repo (cacheAfter contractId events service cache) creditId =
      .ok (answer, cacheAfter contractId events service cache) := by
  unfold CreditsService.getCredit
  rw [credit_kept contractId events service cache plain, cached]
  rfl

/-- While `listCredits` answers with what the repository has after the events. -/
theorem listCredits_fresh (credits : CreditsService) {repo : InMemoryCreditRepository}
    {filter : ListCreditsFilter} (contractId : ContractId) {events : List EventResponse}
    (service : EventsService) (cache : Cache) (occurs : ∃ event ∈ events, ChangesStatus event)
    (small : repo.credits.length ≤ 1000000)
    (tonnes : ∀ credit ∈ repo.credits, (Text.bigInt credit.tonnes).isSome)
    (readable : Readable filter) :
    ∃ after, credits.listCredits repo (cacheAfter contractId events service cache) filter =
      .ok (.listing (paginate ((matching credits repo filter).map entityToMetadata) filter.page
        filter.limit), after) :=
  ⟨_, listCredits_of_miss small tonnes readable
    (listings_evicted contractId service cache occurs _)⟩

/-- After the events of a poll, one of which is of a credit status change, nothing is cached for
a credit or for a listing if and only if nothing was cached for the credit before, or its key is
one of a listing. -/
theorem evicted_iff (contractId : ContractId) (events : List EventResponse)
    (service : EventsService) (cache : Cache) (creditId : String) {event : EventResponse}
    (listed : event ∈ events) (changes : ChangesStatus event) :
    Evicted (cacheAfter contractId events service cache) creditId ↔
      cache.get (creditKey creditId) = none ∨ "list:".toList <+: creditId.toList := by
  have occurs : ∃ event ∈ events, ChangesStatus event := ⟨event, listed, changes⟩
  constructor
  · intro evicted
    by_cases listing : "list:".toList <+: creditId.toList
    · exact .inr listing
    · rw [← credit_kept contractId events service cache listing]
      exact .inl evicted.credit
  · intro either
    refine ⟨?_, listings_evicted contractId service cache occurs⟩
    rw [get_cacheAfter]
    rcases either with uncached | listing
    · rw [uncached, ite_self]
    · rw [if_pos ⟨occurs, (globMatches_creditKey creditId).mpr listing⟩]

namespace Sample

def flagged : EventResponse := ⟨"0", 7, [.string "CreditFlagged"], some "C-ACTIVE"⟩

def metadata : CreditMetadata where
  id := "C-ACTIVE"
  projectId := "PROJ-1"
  issuer := "ISS-1"
  vintageYear := 2021
  methodology := "M1"
  geography := "G1"
  tonnes := "100000"
  ipfsHash := "QmActive"
  status := .active
  issuedAt := 0

def cached : Cache := ⟨some [("credits:C-ACTIVE", .credit metadata)]⟩

end Sample

open Sample in
/-- The cache still holds the credit that an event says is flagged. -/
theorem flagged_not_evicted :
    ChangesStatus flagged ∧ flagged.value = some "C-ACTIVE" ∧
      ¬ Evicted (cacheAfter registry [flagged] ⟨0, ∅⟩ cached) "C-ACTIVE" := by
  refine ⟨by decide, rfl, ?_⟩
  intro evicted
  have kept : (cacheAfter registry [flagged] ⟨0, ∅⟩ cached).get "credits:C-ACTIVE" =
      some (.credit metadata) := by decide
  exact absurd (kept.symm.trans evicted.credit) (by simp)

open Sample in
/-- A cache without the credit has neither the credit nor a listing afterwards. -/
theorem evicted_iff_flagged :
    Evicted (cacheAfter registry [flagged] ⟨0, ∅⟩ cached) "C-FLAGGED" :=
  (evicted_iff registry [flagged] ⟨0, ∅⟩ cached "C-FLAGGED" List.mem_cons_self
    (by decide)).mpr (.inl (by decide))

end CarbonChain.Events
