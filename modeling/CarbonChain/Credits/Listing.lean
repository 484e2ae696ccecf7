import CarbonChain.Credits.Service

/-!
# The pages of a listing

`listCredits` (`api/src/credits/credits.service.ts:174-256`) narrows the credits of the
repository criterion by criterion and cuts a page out of what remains. Each criterion is a
filter on its own, so that together they keep the credits that satisfy all of them, in the
order of the repository; the pages are consecutive slices.
-/

namespace CarbonChain.Credits

open Caching CreditsService

/-- The credit satisfies all criteria of the filter that are given; an empty text and the year 0
are not. Methodology and geography are compared in lower case, tonnes as integers. -/
@[mk_iff] structure Satisfies (toLowerCase : String → String) (filter : ListCreditsFilter)
    (credit : CreditEntity) : Prop where
  status : credit.status.text = effectiveStatus filter
  methodology : ∀ methodology ∈ given "" filter.methodology,
    toLowerCase credit.methodology = toLowerCase methodology
  geography : ∀ geography ∈ given "" filter.geography,
    toLowerCase credit.geography = toLowerCase geography
  vintageYear : ∀ vintageYear ∈ given 0 filter.vintageYear, credit.vintageYear = vintageYear
  minTonnes : ∀ bound ∈ given "" filter.minTonnes, ∀ val ∈ Text.bigInt bound,
    ∀ tonnes ∈ Text.bigInt credit.tonnes, tonnes ≥ val
  maxTonnes : ∀ bound ∈ given "" filter.maxTonnes, ∀ val ∈ Text.bigInt bound,
    ∀ tonnes ∈ Text.bigInt credit.tonnes, tonnes ≤ val

instance (toLowerCase : String → String) (filter : ListCreditsFilter) :
    DecidablePred (Satisfies toLowerCase filter) :=
  fun credit => decidable_of_iff' _ (satisfies_iff toLowerCase filter credit)

/-- The stored credits that satisfy the filter, in insertion order. -/
def matching (service : CreditsService) (repo : InMemoryCreditRepository)
    (filter : ListCreditsFilter) : List CreditEntity :=
  repo.credits.filter (Satisfies service.toLowerCase filter ·)

/-- The bounds that are given are read by `BigInt`. -/
structure Readable (filter : ListCreditsFilter) : Prop where
  minTonnes : ∀ bound ∈ given "" filter.minTonnes, (Text.bigInt bound).isSome
  maxTonnes : ∀ bound ∈ given "" filter.maxTonnes, (Text.bigInt bound).isSome

/-! ## One criterion -/

theorem narrow_eq {α : Type} (criterion : Option α) (test : α → CreditMetadata → Bool)
    (credits : List CreditMetadata) :
    narrow criterion test credits = credits.filter fun c => ∀ a ∈ criterion, test a c := by
  cases criterion with
  | none => simp [narrow]
  | some a => simp [narrow]

theorem toBigInt_eq {s : String} {n : Int} (read : Text.bigInt s = some n) :
    toBigInt s = .ok n := by
  rw [toBigInt, read]
  rfl

/-- A test that throws for none of the credits filters them. -/
theorem filterAll_eq {test : CreditMetadata → Result Bool} {p : CreditMetadata → Bool}
    {credits : List CreditMetadata} (tested : ∀ c ∈ credits, test c = .ok (p c)) :
    filterAll test credits = .ok (credits.filter p) := by
  induction credits with
  | nil => rfl
  | cons c credits ih =>
      rw [filterAll, tested c List.mem_cons_self,
        ih fun c' listed => tested c' (List.mem_cons_of_mem c listed), List.filter_cons]
      rfl

theorem narrowTonnes_eq {bound : Option String} (test : (tonnes val : Int) → Bool)
    {credits : List CreditMetadata} (bounded : ∀ b ∈ bound, (Text.bigInt b).isSome)
    (readable : ∀ c ∈ credits, (Text.bigInt c.tonnes).isSome) :
    narrowTonnes bound test credits = .ok (credits.filter fun c =>
      ∀ b ∈ bound, ∀ val ∈ Text.bigInt b, ∀ tonnes ∈ Text.bigInt c.tonnes, test tonnes val) := by
  cases bound with
  | none => simp [narrowTonnes, pure, Except.pure]
  | some b =>
      obtain ⟨val, read⟩ := Option.isSome_iff_exists.mp (bounded b rfl)
      have tested : ∀ c ∈ credits, ((test · val) <$> toBigInt c.tonnes : Result Bool) =
          .ok (decide (∀ tonnes ∈ Text.bigInt c.tonnes, test tonnes val)) := by
        intro c listed
        obtain ⟨tonnes, amount⟩ := Option.isSome_iff_exists.mp (readable c listed)
        rw [toBigInt_eq amount, amount]
        simp [Functor.map, Except.map]
      rw [narrowTonnes, toBigInt_eq read]
      show filterAll _ credits = _
      rw [filterAll_eq tested]
      simp [read]

/-! ## The listing -/

/-- A page of a list at positions that are not negative. -/
theorem slice_eq {α : Type} (items : List α) (start stop : Nat) :
    slice items (start : Int) (stop : Int) = Paging.slice items start stop := by
  have position (i : Nat) : (if (i : Int) < 0 then items.length + (i : Int) else i).toNat = i := by
    rw [if_neg (by omega), Int.toNat_natCast]
  simp only [slice, position]

/-- The repository returns all credits where they are no more than it is asked for. -/
theorem findAll_data {repo : InMemoryCreditRepository} (small : repo.credits.length ≤ 1000000) :
    (repo.findAll 1 1000000).data = repo.credits := by
  show slice repo.credits ((0 : Nat) : Int) ((1000000 : Nat) : Int) = _
  rw [slice_eq, Paging.slice, List.take_of_length_le small, List.drop_zero]

theorem effectiveStatus_ne_empty (filter : ListCreditsFilter) : effectiveStatus filter ≠ "" := by
  unfold effectiveStatus
  cases status : given "" filter.status with
  | none => decide
  | some s => simpa using (Option.filter_eq_some_iff.mp status).2

variable {service : CreditsService} {repo : InMemoryCreditRepository} {cache : Cache}
  {filter : ListCreditsFilter}

/-- The secondary filters keep the credits that satisfy all criteria. -/
theorem secondaryFilters_eq {credits : List CreditEntity}
    (tonnes : ∀ credit ∈ credits, (Text.bigInt credit.tonnes).isSome)
    (readable : Readable filter) :
    service.secondaryFilters { filter with status := some (effectiveStatus filter) }
      (credits.map entityToMetadata) =
        .ok ((credits.filter (Satisfies service.toLowerCase filter ·)).map entityToMetadata) := by
  have read : ∀ c ∈ credits.map entityToMetadata, (Text.bigInt c.tonnes).isSome := by
    intro c listed
    obtain ⟨credit, stored, rfl⟩ := List.mem_map.mp listed
    exact tonnes credit stored
  have given_status : given "" (some (effectiveStatus filter)) = some (effectiveStatus filter) := by
    simp [given, effectiveStatus_ne_empty filter]
  unfold secondaryFilters
  simp only [narrow_eq, given_status, List.filter_filter]
  rw [narrowTonnes_eq _ readable.minTonnes fun c listed => read c (List.mem_filter.mp listed).1]
  show narrowTonnes _ _ _ = _
  rw [List.filter_filter, narrowTonnes_eq _ readable.maxTonnes
    fun c listed => read c (List.mem_filter.mp listed).1]
  rw [List.filter_filter, List.filter_map]
  refine congrArg (fun kept : List CreditEntity => Except.ok (kept.map entityToMetadata)) ?_
  apply List.filter_congr
  intro credit _
  rw [Bool.eq_iff_iff]
  simp only [Function.comp_apply, Bool.and_eq_true, decide_eq_true_eq, satisfies_iff,
    Option.mem_some_iff, forall_eq']
  constructor
  · rintro ⟨maxTonnes, minTonnes, vintageYear, geography, methodology, status⟩
    exact ⟨status, methodology, geography, vintageYear, minTonnes, maxTonnes⟩
  · rintro ⟨status, methodology, geography, vintageYear, minTonnes, maxTonnes⟩
    exact ⟨maxTonnes, minTonnes, vintageYear, geography, methodology, status⟩

/-- Where the answer to a filter is cached. -/
def listingKey (service : CreditsService) (filter : ListCreditsFilter) : String :=
  listCreditsKey (service.stringify { filter with status := some (effectiveStatus filter) })

/-- What `listCredits` answers with, and caches, on a miss: a page of the credits that match. -/
theorem listCredits_of_miss (small : repo.credits.length ≤ 1000000)
    (tonnes : ∀ credit ∈ repo.credits, (Text.bigInt credit.tonnes).isSome)
    (readable : Readable filter) (miss : cache.get (listingKey service filter) = none) :
    let page := paginate ((matching service repo filter).map entityToMetadata) filter.page
      filter.limit
    service.listCredits repo cache filter =
      .ok (.listing page, cache.set (listingKey service filter) (.listing page)) := by
  intro page
  unfold listingKey at miss
  simp only [listCredits, miss, findAll_data small, secondaryFilters_eq tonnes readable]
  rfl

/-! ## The pages -/

/-- The filter at a page, counted from 0, with pages of the size. -/
def atPage (filter : ListCreditsFilter) (n size : Nat) : ListCreditsFilter :=
  { filter with page := n + 1, limit := size }

theorem satisfies_atPage (toLowerCase : String → String) (n size : Nat) (credit : CreditEntity) :
    Satisfies toLowerCase (atPage filter n size) credit ↔ Satisfies toLowerCase filter credit := by
  rw [satisfies_iff, satisfies_iff]
  rfl

theorem matching_atPage (service : CreditsService) (repo : InMemoryCreditRepository)
    (filter : ListCreditsFilter) (n size : Nat) :
    matching service repo (atPage filter n size) = matching service repo filter := by
  simp only [matching, satisfies_atPage]

/-- A page, counted from 0, is a slice at positions that are not negative. -/
theorem paginate_succ {α : Type} (items : List α) (n size : Nat) :
    paginate items (n + 1) size =
      ⟨Paging.slice items (n * size) ((n + 1) * size), items.length, n + 1, size⟩ := by
  have start : ((n : Int) + 1 - 1) * size = ((n * size : Nat) : Int) := by
    rw [Int.add_sub_cancel, Int.natCast_mul]
  have stop : ((n * size : Nat) : Int) + size = (((n + 1) * size : Nat) : Int) := by
    rw [Nat.add_one_mul, Int.natCast_add]
  simp only [paginate, start, stop, slice_eq]

/-- Without a cache, the pages of a listing are made up of the stored credits that satisfy the
filter, in insertion order and each once. -/
theorem pages_partition (service : CreditsService) (repo : InMemoryCreditRepository)
    (filter : ListCreditsFilter) (size : Nat) (small : repo.credits.length ≤ 1000000)
    (tonnes : ∀ credit ∈ repo.credits, Text.IsDecimal credit.tonnes)
    (minTonnes : ∀ bound ∈ given "" filter.minTonnes, Text.IsDecimal bound)
    (maxTonnes : ∀ bound ∈ given "" filter.maxTonnes, Text.IsDecimal bound)
    (positive : 1 ≤ size) :
    let total := (matching service repo filter).length
    let pageCount := (total + size - 1) / size
    ∃ pages : Nat → List CreditMetadata,
      (∀ n, service.listCredits repo ⟨none⟩ (atPage filter n size) =
        .ok (.listing ⟨pages n, total, n + 1, size⟩, ⟨none⟩)) ∧
      (List.range pageCount).flatMap pages =
        (matching service repo filter).map entityToMetadata ∧
      (∀ n ≥ pageCount, pages n = []) ∧
      ((matching service repo filter).map CreditEntity.id).Nodup := by
  intro total pageCount
  let listed := (matching service repo filter).map entityToMetadata
  have count : listed.length = total := List.length_map _
  have enough : total ≤ pageCount * size := Paging.le_ceil_mul total positive
  refine ⟨fun n => Paging.slice listed (n * size) ((n + 1) * size), ?_, ?_, ?_, ?_⟩
  · intro n
    have amounts : ∀ credit ∈ repo.credits, (Text.bigInt credit.tonnes).isSome :=
      fun credit stored => Text.isSome_bigInt (tonnes credit stored)
    have readable : Readable (atPage filter n size) :=
      ⟨fun b given => Text.isSome_bigInt (minTonnes b given),
        fun b given => Text.isSome_bigInt (maxTonnes b given)⟩
    rw [listCredits_of_miss small amounts readable (CacheService.get_of_disconnected rfl _),
      matching_atPage]
    show Except.ok (Answer.listing (paginate listed (n + 1) size), _) = _
    rw [paginate_succ, count]
    rfl
  · rw [Paging.flatMap_slice, List.take_of_length_le (count ▸ enough)]
  · intro n past
    apply Paging.slice_nil
    calc min ((n + 1) * size) listed.length ≤ total := by rw [count]; exact Nat.min_le_right _ _
      _ ≤ pageCount * size := enough
      _ ≤ n * size := Nat.mul_le_mul_right size past
  · exact repo.distinct.sublist (List.filter_sublist.map CreditEntity.id)

namespace Sample

/-- `JSON.stringify` on a filter without characters to escape: the criteria that it has, in the
order of `api/src/credits/credits.controller.ts:53-62`. -/
def stringify (filter : ListCreditsFilter) : String :=
  let text (name : String) (value : Option String) : List String :=
    (value.map fun s => "\"" ++ name ++ "\":\"" ++ s ++ "\"").toList
  let number (name : String) (value : Option Int) : List String :=
    (value.map fun n => "\"" ++ name ++ "\":" ++ toString n).toList
  let entries := text "methodology" filter.methodology ++ text "geography" filter.geography ++
    number "vintageYear" filter.vintageYear ++ text "status" filter.status ++
    text "minTonnes" filter.minTonnes ++ text "maxTonnes" filter.maxTonnes ++
    number "page" (some filter.page) ++ number "limit" (some filter.limit)
  "\x7b" ++ ",".intercalate entries ++ "\x7d"

def api : CreditsService where
  toLowerCase s := String.ofList (s.toList.map Char.toLower)
  stringify := stringify
  readContract _ := .ok none

def credit (id methodology tonnes : String) (status : CreditStatus) : CreditEntity where
  id := id
  projectId := "PROJ-1"
  issuer := "ISS-1"
  vintageYear := 2021
  methodology := methodology
  geography := "BR"
  tonnes := tonnes
  ipfsHash := "QmCredit"
  status := status
  issuedAt := 0

/-- The third credit is stored again, with other tonnes. -/
def index : InMemoryCreditRepository :=
  ((((InMemoryCreditRepository.empty.save (credit "C-1" "VM1" "300" .active)).save
    (credit "C-2" "VM2" "400" .active)).save (credit "C-3" "Vm1" "90" .active)).save
    (credit "C-4" "VM1" "500" .retired)).save (credit "C-3" "Vm1" "1000" .active)

def filterVm1 : ListCreditsFilter where
  methodology := some "vm1"
  geography := none
  vintageYear := none
  status := none
  minTonnes := some "250"
  maxTonnes := none
  page := 1
  limit := 10

end Sample

open Sample in
/-- The two credits that match are on two pages of one credit each. -/
theorem pages_partition_sample :
    (matching api index filterVm1).map CreditEntity.id = ["C-1", "C-3"] ∧
      ∃ pages : Nat → List CreditMetadata,
        (∀ n, api.listCredits index ⟨none⟩ (atPage filterVm1 n 1) =
          .ok (.listing ⟨pages n, 2, n + 1, 1⟩, ⟨none⟩)) ∧
        ((List.range 2).flatMap pages).map CreditMetadata.id = ["C-1", "C-3"] := by
  have found : (matching api index filterVm1).map CreditEntity.id = ["C-1", "C-3"] := by decide
  have total : (matching api index filterVm1).length = 2 := by
    rw [← List.length_map (f := CreditEntity.id), found]
    rfl
  obtain ⟨pages, answers, together, -⟩ := pages_partition api index filterVm1 1
    (by decide) (by decide) (by decide) (by decide) (by decide)
  refine ⟨found, pages, ?_, ?_⟩
  · rw [total] at answers
    exact answers
  · rw [total] at together
    rw [show 2 = (2 + 1 - 1) / 1 from rfl, together, List.map_map]
    exact found

end CarbonChain.Credits
