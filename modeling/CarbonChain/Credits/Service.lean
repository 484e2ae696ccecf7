import CarbonChain.Common.Cache
import CarbonChain.Misc.Outcome
import CarbonChain.Misc.Paging
import CarbonChain.Misc.Text
import Mathlib.Data.List.Nodup

/-!
# The credits service

`CreditsService` of `api/src/credits/credits.service.ts` reads credits from the off-chain
repository, next to the cache. What reading the contract gives for a credit, `toLowerCase`
and `JSON.stringify` on a filter are its parameters. The in-memory repository never fails.
The write to the contract is in `Credits.Issuing`, the reading in bulk in `Credits.Bulk`.
-/

namespace CarbonChain.Credits

open Caching

/-- `CreditStatus` (`shared.ts:4-9`). -/
inductive CreditStatus where
  | pending
  | active
  | retired
  | flagged
  deriving DecidableEq, Repr

/-- The string that a status is. -/
def CreditStatus.text : CreditStatus → String
  | .pending => "Pending"
  | .active => "Active"
  | .retired => "Retired"
  | .flagged => "Flagged"

/-- What the repository keeps of a credit (`credit.entity.ts`). -/
structure CreditEntity where
  id : String
  projectId : String
  issuer : String
  vintageYear : Int
  methodology : String
  geography : String
  tonnes : String
  ipfsHash : String
  status : CreditStatus
  issuedAt : Int
  deriving DecidableEq, Repr

/-- What the service answers for a credit (`shared.ts:11-22`). -/
structure CreditMetadata where
  id : String
  projectId : String
  issuer : String
  vintageYear : Int
  methodology : String
  geography : String
  tonnes : String
  ipfsHash : String
  status : CreditStatus
  issuedAt : Int
  deriving DecidableEq, Repr

/-- `entityToMetadata` (303-316). -/
def entityToMetadata (entity : CreditEntity) : CreditMetadata where
  id := entity.id
  projectId := entity.projectId
  issuer := entity.issuer
  vintageYear := entity.vintageYear
  methodology := entity.methodology
  geography := entity.geography
  tonnes := entity.tonnes
  ipfsHash := entity.ipfsHash
  status := entity.status
  issuedAt := entity.issuedAt

/-! ## The repository -/

/-- `PageResult` (`credit.repository.ts:5-10`). -/
structure PageResult (α : Type) where
  data : List α
  total : Nat
  page : Int
  limit : Int
  deriving DecidableEq, Repr

/-- `items.slice(start, stop)`; a negative position counts from the end. -/
def slice {α : Type} (items : List α) (start stop : Int) : List α :=
  let position (i : Int) : Nat := (if i < 0 then items.length + i else i).toNat
  Paging.slice items (position start) (position stop)

/-- `paginate` (`credit.repository.ts:80-92`). -/
def paginate {α : Type} (items : List α) (page limit : Int) : PageResult α :=
  let offset := (page - 1) * limit
  ⟨slice items offset (offset + limit), items.length, page, limit⟩

/-- The `Map` of the credits by their ids (`credit.repository.ts:39-40`), in insertion order.
-/
structure InMemoryCreditRepository where
  credits : List CreditEntity
  distinct : (credits.map CreditEntity.id).Nodup

namespace InMemoryCreditRepository

/-- The repository at the start. -/
def empty : InMemoryCreditRepository := ⟨[], List.nodup_nil⟩

/-- The credits after one is stored: a credit with its id is replaced where it stands. -/
def stored (credits : List CreditEntity) (credit : CreditEntity) : List CreditEntity :=
  if credit.id ∈ credits.map CreditEntity.id then
    credits.map fun c => if c.id = credit.id then credit else c
  else credits ++ [credit]

theorem distinct_stored {credits : List CreditEntity}
    (distinct : (credits.map CreditEntity.id).Nodup) (credit : CreditEntity) :
    ((stored credits credit).map CreditEntity.id).Nodup := by
  unfold stored
  split
  · have same : ((fun c => c.id) ∘ fun c => if c.id = credit.id then credit else c) =
        CreditEntity.id := by
      funext c
      by_cases replaced : c.id = credit.id <;> simp [replaced]
    rw [List.map_map, same]
    exact distinct
  · rename_i fresh
    rw [List.map_append, List.map_singleton, List.nodup_append_comm]
    exact List.nodup_cons.mpr ⟨fresh, distinct⟩

/-- `save` (`credit.repository.ts:42-45`). -/
def save (repo : InMemoryCreditRepository) (credit : CreditEntity) : InMemoryCreditRepository :=
  ⟨stored repo.credits credit, distinct_stored repo.distinct credit⟩

/-- `findById` (`credit.repository.ts:47-49`). -/
def findById (repo : InMemoryCreditRepository) (id : String) : Option CreditEntity :=
  repo.credits.find? (·.id = id)

/-- `findAll` (`credit.repository.ts:62-67`). -/
def findAll (repo : InMemoryCreditRepository) (page limit : Int) : PageResult CreditEntity :=
  paginate repo.credits page limit

end InMemoryCreditRepository

/-! ## The service -/

/-- `ListCreditsFilter` (34-43). -/
structure ListCreditsFilter where
  methodology : Option String
  geography : Option String
  vintageYear : Option Int
  status : Option String
  minTonnes : Option String
  maxTonnes : Option String
  page : Int
  limit : Int
  deriving DecidableEq, Repr

/-- What the cache holds, an answer of `getCredit` or one of `listCredits`. It is read back as
what it is asked for. -/
inductive Answer where
  | credit (metadata : CreditMetadata)
  | listing (page : PageResult CreditMetadata)
  deriving DecidableEq, Repr

/-- The cache of the service. -/
abbrev Cache := CacheService Answer

/-- `NotFoundException`; any other error is an internal one. -/
inductive HttpException where
  | notFound (message : String)
  | internal (message : String)
  deriving DecidableEq, Repr

abbrev Result (α : Type) := Outcome HttpException α

/-- What the service uses of the language and of the chain: `readContract` gives the credit of
an id in the contract, if there is one, or the message of its error. -/
structure CreditsService where
  toLowerCase : String → String
  stringify : ListCreditsFilter → String
  readContract : String → Except String (Option CreditMetadata)

/-- `CREDIT_KEY` (20). -/
def creditKey (id : String) : String := "credits:" ++ id

/-- `LIST_CREDITS_KEY` (21). -/
def listCreditsKey (filter : String) : String := "credits:list:" ++ filter

namespace CreditsService

variable (service : CreditsService) (repo : InMemoryCreditRepository)

/-- `getCredit` (106-147): the cache answers first, then the off-chain index, then the chain.
-/
def getCredit (cache : Cache) (creditId : String) : Result (Answer × Cache) :=
  match cache.get (creditKey creditId) with
  | some cached => return (cached, cache)
  | none =>
      match repo.findById creditId with
      | some indexed =>
          let metadata := entityToMetadata indexed
          return (.credit metadata, cache.set (creditKey creditId) (.credit metadata))
      | none =>
          match service.readContract creditId with
          | .error message => .error (.error (.internal message))
          | .ok retval => do
              let metadata ← okOr retval
                (.notFound ("Credit with ID " ++ creditId ++ " not found on-chain"))
              return (.credit metadata, cache.set (creditKey creditId) (.credit metadata))

/-- A value that counts as given, which is any but the one that is false in a condition. -/
def given {α : Type} [DecidableEq α] (falsy : α) (value : Option α) : Option α :=
  value.filter (· ≠ falsy)

/-- `if (criterion) { filtered = filtered.filter(..); }`. -/
def narrow {α : Type} (criterion : Option α) (test : α → CreditMetadata → Bool)
    (filtered : List CreditMetadata) : List CreditMetadata :=
  match criterion with
  | some a => filtered.filter (test a)
  | none => filtered

/-- `BigInt(s)`. -/
def toBigInt (s : String) : Result Int :=
  okOr (Text.bigInt s) (.internal ("Cannot convert " ++ s ++ " to a BigInt"))

/-- `filtered.filter(c => ..)` with a test that may throw. -/
def filterAll (test : CreditMetadata → Result Bool) :
    List CreditMetadata → Result (List CreditMetadata)
  | [] => return []
  | c :: filtered => do
      let keep ← test c
      let rest ← filterAll test filtered
      return if keep then c :: rest else rest

/-- `if (bound) { const val = BigInt(bound); filtered = filtered.filter(c => BigInt(c.tonnes)
.. val); }`. -/
def narrowTonnes (bound : Option String) (test : (tonnes val : Int) → Bool)
    (filtered : List CreditMetadata) : Result (List CreditMetadata) :=
  match bound with
  | some bound => do
      let val ← toBigInt bound
      filterAll (fun c => (test · val) <$> toBigInt c.tonnes) filtered
  | none => return filtered

/-- `filter.status`, or `Active` where no status is given (186-188). -/
def effectiveStatus (filter : ListCreditsFilter) : String :=
  (given "" filter.status).getD CreditStatus.active.text

/-- The secondary filters of `listCredits` (216-247), one after the other. -/
def secondaryFilters (filter : ListCreditsFilter) (filtered : List CreditMetadata) :
    Result (List CreditMetadata) := do
  let filtered := narrow (given "" filter.status) (fun status c => c.status.text = status) filtered
  let filtered := narrow (given "" filter.methodology)
    (fun methodology c => service.toLowerCase c.methodology = service.toLowerCase methodology)
    filtered
  let filtered := narrow (given "" filter.geography)
    (fun geography c => service.toLowerCase c.geography = service.toLowerCase geography) filtered
  let filtered := narrow (given 0 filter.vintageYear)
    (fun vintageYear c => c.vintageYear = vintageYear) filtered
  let filtered ← narrowTonnes (given "" filter.minTonnes) (fun tonnes val => tonnes ≥ val) filtered
  narrowTonnes (given "" filter.maxTonnes) (fun tonnes val => tonnes ≤ val) filtered

/-- `listCredits` (174-256): the page is cut out of all credits of the index that pass the
filters. -/
def listCredits (cache : Cache) (filter : ListCreditsFilter) : Result (Answer × Cache) := do
  let filter := { filter with status := some (effectiveStatus filter) }
  let cacheKey := listCreditsKey (service.stringify filter)
  match cache.get cacheKey with
  | some cached => return (cached, cache)
  | none =>
      let allCredits := (repo.findAll 1 1000000).data.map entityToMetadata
      let filtered ← service.secondaryFilters filter allCredits
      let start := (filter.page - 1) * filter.limit
      let result : PageResult CreditMetadata :=
        ⟨slice filtered start (start + filter.limit), filtered.length, filter.page, filter.limit⟩
      return (.listing result, cache.set cacheKey (.listing result))

/-- `invalidateCreditCache` (262-266). -/
def invalidateCreditCache (cache : Cache) (creditId : String) : Cache :=
  (cache.del [creditKey creditId]).delPattern "credits:list:*"

end CreditsService

/-! ## What is cached -/

/-- An answer of `getCredit` is cached while there is a connection. -/
theorem get_of_getCredit {service : CreditsService} {repo : InMemoryCreditRepository}
    {cache after : Cache} {creditId : String} {answer : Answer}
    (connected : cache.client ≠ none)
    (answered : service.getCredit repo cache creditId = .ok (answer, after)) :
    after.get (creditKey creditId) = some answer := by
  obtain ⟨entries, connection⟩ := Option.ne_none_iff_exists'.mp connected
  have stored (metadata : CreditMetadata) :
      (cache.set (creditKey creditId) (.credit metadata)).get (creditKey creditId) =
        some (.credit metadata) := by
    rw [CacheService.get_set, if_pos rfl, connection, Option.map_some]
  unfold CreditsService.getCredit at answered
  cases cached : cache.get (creditKey creditId) with
  | some old =>
      simp only [cached, pure_eq_ok, Prod.mk.injEq] at answered
      obtain ⟨rfl, rfl⟩ := answered
      exact cached
  | none =>
      cases found : repo.findById creditId with
      | some indexed =>
          simp only [cached, found, pure_eq_ok, Prod.mk.injEq] at answered
          obtain ⟨rfl, rfl⟩ := answered
          exact stored (entityToMetadata indexed)
      | none =>
          cases read : service.readContract creditId with
          | error message => simp [cached, found, read] at answered
          | ok retval =>
              simp only [cached, found, read, bind_eq_ok, okOr_eq_ok, pure_eq_ok,
                Prod.mk.injEq] at answered
              obtain ⟨metadata, -, rfl, rfl⟩ := answered
              exact stored metadata

/-- A credit that was answered once is answered so again, whatever the repository and the
contract hold by then. -/
theorem getCredit_again {service service' : CreditsService}
    {repo repo' : InMemoryCreditRepository} {cache after : Cache} {creditId : String}
    {answer : Answer} (connected : cache.client ≠ none)
    (answered : service.getCredit repo cache creditId = .ok (answer, after)) :
    service'.getCredit repo' after creditId = .ok (answer, after) := by
  unfold CreditsService.getCredit
  rw [get_of_getCredit connected answered]
  rfl

/-! ## Eviction -/

/-- Nothing is cached for the credit, nor for any listing. -/
structure Evicted (cache : Cache) (creditId : String) : Prop where
  credit : cache.get (creditKey creditId) = none
  listings : ∀ filter, cache.get (listCreditsKey filter) = none

/-- The pattern of the listings matches the keys that start with what comes before its
wildcard. -/
theorem globMatches_listings (key : String) :
    globMatches "credits:list:*".toList key.toList ↔ "credits:list:".toList <+: key.toList :=
  globMatches_star (show '*' ∉ "credits:list:".toList by decide) key.toList

theorem globMatches_listCreditsKey (filter : String) :
    globMatches "credits:list:*".toList (listCreditsKey filter).toList := by
  rw [globMatches_listings, listCreditsKey, String.toList_append]
  exact List.prefix_append _ _

/-- The key of a credit is taken for one of a listing where its id starts with `list:`. -/
theorem globMatches_creditKey (id : String) :
    globMatches "credits:list:*".toList (creditKey id).toList ↔
      "list:".toList <+: id.toList := by
  have split : "credits:list:".toList = "credits:".toList ++ "list:".toList := by decide
  rw [globMatches_listings, creditKey, String.toList_append, split, List.prefix_append_right_inj]

/-- The service's own invalidation evicts the credit and the listings. -/
theorem evicted_invalidateCreditCache (cache : Cache) (creditId : String) :
    Evicted (CreditsService.invalidateCreditCache cache creditId) creditId where
  credit := by
    rw [CreditsService.invalidateCreditCache, CacheService.get_delPattern, CacheService.get_del,
      if_pos List.mem_cons_self, ite_self]
  listings filter := by
    rw [CreditsService.invalidateCreditCache, CacheService.get_delPattern,
      if_pos (globMatches_listCreditsKey filter)]

end CarbonChain.Credits
