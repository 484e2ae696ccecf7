import CarbonChain.Credits.Freshness
import CarbonChain.Stellar.Service

/-!
# Issued credits

`issueCredit` (`api/src/credits/credits.service.ts:62-104`) is the one operation that writes to
the off-chain index. What it stores is
pending, and nothing in the service changes it afterwards, whatever becomes of the credit on
the chain. The listings, which are of active credits unless asked otherwise, read that index.
-/

namespace CarbonChain.Credits

open ReadThrough CreditsService
open Stellar (Rpc)

/-- The request of a credit (24-32). -/
structure IssueCreditDto where
  issuerPublicKey : String
  projectId : String
  vintageYear : Int
  methodology : String
  geography : String
  tonnes : String
  ipfsHash : String
  deriving DecidableEq

/-- `nativeToScVal` takes a key for an address or throws; the key pair may not be configured. -/
structure Signing where
  isAddress : String → Bool
  adminKeypair : Option String

/-- What is stored for a credit issued at the time `now` in seconds. -/
def IssueCreditDto.entity (dto : IssueCreditDto) (creditId : String) (now : Nat) :
    CreditEntity where
  id := creditId
  projectId := dto.projectId
  issuer := dto.issuerPublicKey
  vintageYear := dto.vintageYear
  methodology := dto.methodology
  geography := dto.geography
  tonnes := dto.tonnes
  ipfsHash := dto.ipfsHash
  status := .pending
  issuedAt := now

/-- `issueCredit` (62-104), with what the servers answer; a returned id is given in hex.
`nativeToScVal` throws for tonnes that are no `i128`. -/
def issueCredit (signing : Signing) (repo : InMemoryCreditRepository) (dto : IssueCreditDto)
    (rpc : Rpc String) (now : Nat) : Stellar.Result (String × InMemoryCreditRepository) := do
  rejectIf (!signing.isAddress dto.issuerPublicKey) "Unsupported address type"
  let tonnes ← okOr (Text.bigInt dto.tonnes) ("Cannot convert " ++ dto.tonnes ++ " to a BigInt")
  panicIf (¬ FitsSigned 128 tonnes)
  let _ ← okOr signing.adminKeypair
    "Admin keypair is not initialized. Check ADMIN_SECRET_KEY in .env"
  let response ← Stellar.invokeContract rpc
  let creditId := response.returnValue.getD "unknown"
  return (creditId, repo.save (dto.entity creditId now))

/-! ## The index -/

/-- The two indexes differ by a call of `issueCredit`, if at all. -/
def Issues (signing : Signing) (before after : InMemoryCreditRepository) : Prop :=
  after = before ∨ ∃ dto rpc now creditId,
    issueCredit signing before dto rpc now = .ok (creditId, after)

/-- Only `issueCredit` changes the index. -/
def IssuesOnly (signing : Signing) (event : Served) : Prop :=
  ∀ world, event.input = .change world → Issues signing event.pre.world.repo world.repo

/-- A call of `issueCredit` has stored the credit. -/
def Issued (signing : Signing) (log : List Served) (credit : CreditEntity) : Prop :=
  ∃ event ∈ log, ∃ dto rpc now creditId,
    issueCredit signing event.pre.world.repo dto rpc now =
      .ok (creditId, event.post.world.repo) ∧ credit = dto.entity creditId now

theorem mem_save {repo : InMemoryCreditRepository} {credit other : CreditEntity}
    (listed : other ∈ (repo.save credit).credits) : other ∈ repo.credits ∨ other = credit := by
  have listed : other ∈ InMemoryCreditRepository.stored repo.credits credit := listed
  unfold InMemoryCreditRepository.stored at listed
  split at listed
  · obtain ⟨old, there, same⟩ := List.mem_map.mp listed
    split at same
    · exact .inr same.symm
    · rw [← same]
      exact .inl there
  · rcases List.mem_append.mp listed with before | new
    · exact .inl before
    · exact .inr (List.mem_singleton.mp new)

theorem issueCredit_saves {signing : Signing} {repo after : InMemoryCreditRepository}
    {dto : IssueCreditDto} {rpc : Rpc String} {now : Nat} {creditId : String}
    (issued : issueCredit signing repo dto rpc now = .ok (creditId, after)) :
    after = repo.save (dto.entity creditId now) := by
  simp only [issueCredit, bind_eq_ok, pure_eq_ok, Prod.mk.injEq] at issued
  obtain ⟨-, -, -, -, -, -, -, -, response, -, same, stored⟩ := issued
  rw [← stored, ← same]

/-- Every stored credit was issued. -/
def AllIssued (signing : Signing) (log : List Served) (repo : InMemoryCreditRepository) : Prop :=
  ∀ credit ∈ repo.credits, Issued signing log credit

theorem Issued.snoc {signing : Signing} {log : List Served} {credit : CreditEntity}
    (issued : Issued signing log credit) (event : Served) :
    Issued signing (log ++ [event]) credit := by
  obtain ⟨earlier, logged, issues⟩ := issued
  exact ⟨earlier, List.mem_append_left _ logged, issues⟩

theorem Issued.status {signing : Signing} {log : List Served} {credit : CreditEntity}
    (issued : Issued signing log credit) : credit.status = .pending := by
  obtain ⟨-, -, dto, -, now, creditId, -, rfl⟩ := issued
  rfl

theorem AllIssued.step {signing : Signing} {service : CreditsService} {start : Sources}
    {log : List Served} {event : Served} (issued : AllIssued signing log event.pre.world.repo)
    (only : IssuesOnly signing event)
    (commits : (machine (reading service) start).Commits event) :
    AllIssued signing (log ++ [event]) event.post.world.repo := by
  intro credit listed
  rcases (step_of_exec commits).world with same | changes
  · rw [same] at listed
    exact (issued credit listed).snoc event
  · rcases only _ changes with same | ⟨dto, rpc, now, creditId, success⟩
    · rw [same] at listed
      exact (issued credit listed).snoc event
    · rw [issueCredit_saves success] at listed
      rcases mem_save listed with before | new
      · exact (issued credit before).snoc event
      · exact ⟨event, List.mem_concat_self, dto, rpc, now, creditId, success, new⟩

/-! ## Listings of an index of pending credits -/

/-- Nothing is left of an empty list. -/
theorem narrowTonnes_nil {bound : Option String} {test : (tonnes val : Int) → Bool}
    {filtered : List CreditMetadata} (h : narrowTonnes bound test [] = .ok filtered) :
    filtered = [] := by
  cases bound with
  | none => exact (pure_eq_ok.mp h).symm
  | some text =>
      obtain ⟨val, -, filters⟩ := bind_eq_ok.mp h
      exact (Except.ok.inj filters).symm

/-- Nothing is left of credits that are of another status. -/
theorem secondaryFilters_empty {service : CreditsService} {filter : ListCreditsFilter}
    {credits filtered : List CreditMetadata}
    (other : ∀ c ∈ credits, c.status.text ≠ effectiveStatus filter)
    (h : service.secondaryFilters { filter with status := some (effectiveStatus filter) } credits =
      .ok filtered) : filtered = [] := by
  have given_status : given "" (some (effectiveStatus filter)) = some (effectiveStatus filter) := by
    simp [given, effectiveStatus_ne_empty filter]
  have dropped : narrow (given "" (some (effectiveStatus filter)))
      (fun status c => c.status.text = status) credits = [] := by
    rw [given_status, narrow, List.filter_eq_nil_iff]
    intro c listed
    simpa using other c listed
  have rest : ∀ {α : Type} (criterion : Option α) (test : α → CreditMetadata → Bool),
      narrow criterion test [] = [] := by
    intro α criterion test
    rw [narrow_eq, List.filter_nil]
  simp only [secondaryFilters, dropped, rest] at h
  obtain ⟨bounded, lower, upper⟩ := bind_eq_ok.mp h
  rw [narrowTonnes_nil lower] at upper
  exact narrowTonnes_nil upper

/-- A listing of another status than all credits have is empty. -/
theorem readListing_empty {service : CreditsService} {filter : ListCreditsFilter}
    {sources : Sources} {page : PageResult CreditMetadata} {status : CreditStatus}
    (uniform : ∀ credit ∈ sources.repo.credits, credit.status = status)
    (other : effectiveStatus filter ≠ status.text)
    (read : readListing service filter sources = .value (.listing page)) :
    page.data = [] ∧ page.total = 0 := by
  unfold readListing at read
  split at read
  · next answer after answered =>
      cases read
      unfold listCredits at answered
      simp only [Caching.CacheService.get_of_disconnected] at answered
      obtain ⟨filtered, filters, result⟩ := bind_eq_ok.mp answered
      obtain ⟨result, -⟩ := Prod.mk.inj (pure_eq_ok.mp result)
      have empty : filtered = [] := by
        refine secondaryFilters_empty ?_ filters
        intro c listed
        obtain ⟨credit, sliced, rfl⟩ := List.mem_map.mp listed
        have stored : credit ∈ sources.repo.credits :=
          List.mem_of_mem_take (List.mem_of_mem_drop sliced)
        rw [entityToMetadata, uniform credit stored]
        exact other.symm
      cases result
      rw [empty]
      refine ⟨?_, rfl⟩
      simp [slice, Paging.slice]
  · cases read

/-! ## Runs -/

/-- The index of every state of the log holds issued credits. -/
theorem allIssued_run {signing : Signing} {service : CreditsService} {start : Sources}
    (empty : start.repo = .empty) (inputs : List (Input Question String Sources))
    (only : ∀ event ∈ (machine (reading service) start).log inputs, IssuesOnly signing event) :
    AllIssued signing ((machine (reading service) start).log inputs)
      ((machine (reading service) start).state inputs).world.repo ∧
    ∀ event ∈ (machine (reading service) start).log inputs,
      ∀ credit ∈ event.pre.world.repo.credits, credit.status = .pending := by
  refine (machine (reading service) start).run_induct_of (fun _ event => IssuesOnly signing event)
    (fun log s => AllIssued signing log s.world.repo ∧
      ∀ event ∈ log, ∀ credit ∈ event.pre.world.repo.credits, credit.status = .pending)
    ?_ ?_ inputs (Machine.admits_forall.mpr only)
  · refine ⟨?_, by simp⟩
    intro credit listed
    have start_empty : (machine (reading service) start).init.world.repo = .empty := empty
    rw [start_empty] at listed
    cases listed
  · intro log event ⟨issued, earlier⟩ issues commits
    refine ⟨issued.step issues commits, ?_⟩
    intro e logged credit listed
    rcases List.mem_append.mp logged with before | last
    · exact earlier e before credit listed
    · obtain rfl := List.mem_singleton.mp last
      exact (issued credit listed).status

/-- Listings that are asked for under one key are of one status: `JSON.stringify` writes it. -/
def KeysTellStatus (service : CreditsService) (log : List Served) : Prop :=
  ∀ event ∈ log, ∀ other ∈ log, ∀ filter filter' reachable reachable',
    event.input = .ask (.listing filter) reachable →
    other.input = .ask (.listing filter') reachable' →
    listingKey service filter = listingKey service filter' →
    effectiveStatus filter = effectiveStatus filter'

/-- A listing that a request has read while all credits were pending is empty, unless it asked
for pending credits. -/
theorem fetched_empty {service : CreditsService} {log : List Served}
    (pending : ∀ event ∈ log, ∀ credit ∈ event.pre.world.repo.credits, credit.status = .pending)
    {n : Nat} {filter : ListCreditsFilter} {page : PageResult CreditMetadata}
    (other : effectiveStatus filter ≠ CreditStatus.pending.text)
    (fetched : FetchedBy (reading service) log n (.listing filter) (.listing page)) :
    page.data = [] ∧ page.total = 0 := by
  obtain ⟨before, event, after, split, -, -, source, listed, read⟩ := fetched
  rw [List.mem_singleton.mp listed] at read
  exact readListing_empty (pending event (by rw [split]; simp)) other read

/-- A request for a credit reads no listing. -/
theorem question_of_listing {service : CreditsService} {log : List Served} {n : Nat}
    {question : Question} {page : PageResult CreditMetadata}
    (fetched : FetchedBy (reading service) log n question (.listing page)) :
    ∃ filter, question = .listing filter := by
  obtain ⟨before, event, after, -, -, -, read⟩ := fetched
  cases has_of_fetches read with
  | listed filter => exact ⟨filter, rfl⟩

namespace Sample

def signing : Signing := ⟨fun key => key == "GISSUER", some "GADMIN"⟩

def dto : IssueCreditDto := ⟨"GISSUER", "PROJ-1", 2021, "VCS", "BR", "1000000", "QmCredit"⟩

/-- The servers answer that the credit was submitted. -/
def submitted : Rpc String where
  loadAccount := .ok ()
  simulateTransaction := .ok none
  sendTransaction := .ok (.pending, "hash")
  getTransaction _ := .ok ⟨.success, some "037176a1"⟩

def issuedIndex : InMemoryCreditRepository :=
  InMemoryCreditRepository.empty.save (dto.entity "037176a1" 1735689600)

def everything : ListCreditsFilter where
  methodology := none
  geography := none
  vintageYear := none
  status := none
  minTonnes := none
  maxTonnes := none
  page := 1
  limit := 10

/-- The credit is active on the chain. -/
def onChain (_ : String) : Except String (Option CreditMetadata) :=
  .ok (some { entityToMetadata (dto.entity "037176a1" 1735689600) with status := .active })

def unissued : Sources := ⟨.empty, fun _ => .ok none⟩

/-- A credit is issued and becomes active on the chain, and all credits are listed. -/
def issueAndList : List (Input Question String Sources) :=
  [.change ⟨issuedIndex, onChain⟩, .ask (.listing everything) true, .proceed 0 true,
   .proceed 0 true]

end Sample

end CarbonChain.Credits
