import CarbonChain.Misc.Feed
import CarbonChain.Misc.Machine
import CarbonChain.Misc.Store
import Mathlib.Logic.Function.Basic

/-!
# The event indexer

`EventsService` of `api/src/events/events.service.ts` polls the events of the configured
contracts one after the other, from one ledger cursor on, puts them into a map and hands
each to `triggerWebhooks`. The chain is a feed for each contract;
`StellarService.getContractEvents` reads a window of it, and returns nothing when the
request fails. A poll is a sequence of fetches, between which the chain goes on; the polls
themselves come one after the other. Timestamps do not appear, since nothing reads them,
nor does `clearEvents`, which no poll calls. The cache service catches its own errors.
-/

namespace CarbonChain.Events

/-- The id of a contract: a strkey, which is in base 32. -/
@[ext] structure ContractId where
  strkey : String
  dashless : '-' ∉ strkey.toList
  deriving DecidableEq

/-- A topic of an event, a string or an `xdr.ScVal`. -/
inductive Topic where
  | string (s : String)
  | scVal (xdr : String)
  deriving DecidableEq

/-- `rpc.Api.EventResponse`. -/
structure EventResponse where
  id : String
  ledger : Nat
  topic : List Topic
  value : Option String
  deriving DecidableEq

/-- A value of the record `data`. -/
inductive Datum where
  | topics (topic : List Topic)
  | value (value : Option String)
  | text (s : String)
  deriving DecidableEq

/-- `SorobanEvent` (9-16) without its time. -/
structure SorobanEvent where
  id : String
  type : String
  contractId : ContractId
  ledger : Nat
  data : List (String × Datum)
  deriving DecidableEq

/-- The events of one contract on the chain. The ledger and the id tell them apart. -/
abbrev ContractEvents :=
  Feed EventResponse (Nat × String) EventResponse.ledger fun e => (e.ledger, e.id)

/-! ## The service -/

/-- What a poll does outside the service: it evicts from the cache, by key or by pattern, and
calls `triggerWebhooks`. -/
inductive Action where
  | del (key : String)
  | delPattern (pattern : String)
  | triggerWebhooks (eventType : String) (eventData : SorobanEvent)
  deriving DecidableEq

/-- The cursor and the map of the indexed events (29-30). -/
structure EventsService where
  lastLedger : Nat
  events : Store String SorobanEvent

/-- Event types that indicate a credit status change (19-24). -/
def creditStatusChangeEvents : List String :=
  ["CreditMinted", "CreditRetired", "CreditFlagged", "CreditRevoked"]

/-- `parseEventType` (116-125): a first topic that is no string is `unknown`. -/
def parseEventType (event : EventResponse) : String :=
  match event.topic with
  | .string firstTopic :: _ => firstTopic
  | _ => "unknown"

/-- `parseEventData` (132-139). -/
def parseEventData (event : EventResponse) : List (String × Datum) :=
  [("topic", .topics event.topic), ("value", .value event.value)]

/-- `${contractId}-${event.ledger}-${event.id}` (72). -/
def eventId (contractId : ContractId) (event : EventResponse) : String :=
  contractId.strkey ++ "-" ++ toString event.ledger ++ "-" ++ event.id

/-- What is indexed for an event (73-80). -/
def sorobanEvent (contractId : ContractId) (event : EventResponse) : SorobanEvent where
  id := eventId contractId event
  type := parseEventType event
  contractId := contractId
  ledger := event.ledger
  data := parseEventData event

/-- The evictions for an event of a credit status change (88-97). -/
def invalidations (event : SorobanEvent) : List Action :=
  if event.type ∈ creditStatusChangeEvents then
    (match event.data.lookup "credit_id" with
      | some (.text creditId) => if creditId = "" then [] else [.del ("credits:" ++ creditId)]
      | _ => []) ++ [.delPattern "credits:list:*"]
  else []

/-- What the loop of `indexContractEvents` does outside the service for one event. -/
def eventActions (contractId : ContractId) (event : EventResponse) : List Action :=
  let indexed := sorobanEvent contractId event
  invalidations indexed ++ [.triggerWebhooks indexed.type indexed]

/-- What the loop stores for one event. -/
def EventsService.store (contractId : ContractId) (service : EventsService)
    (event : EventResponse) : EventsService :=
  { service with
    events := service.events.insert (eventId contractId event) (sorobanEvent contractId event) }

/-- `getContractEvents` (`stellar.service.ts:225-247`); a request that fails returns no events.
-/
def getContractEvents (contractEvents : ContractEvents) (startLedger : Nat) (answered : Bool) :
    List EventResponse :=
  if answered then contractEvents.window 100 startLedger else []

/-- `indexContractEvents` (64-114) on the events that were fetched. -/
def indexContractEvents (contractId : ContractId) (events : List EventResponse)
    (service : EventsService) : EventsService × List Action :=
  let indexed := events.foldl (EventsService.store contractId) service
  let service :=
    match (events.map EventResponse.ledger).max? with
    | some last => { indexed with lastLedger := last }
    | none => indexed
  (service, events.flatMap (eventActions contractId))

/-! ## Runs -/

/-- The contract ids of the configuration; an id that is not set is passed over. -/
structure Config where
  creditRegistry : Option ContractId
  retirement : Option ContractId
  marketplace : Option ContractId
  mrvOracle : Option ContractId

/-- The contracts of a poll in their order (46-51). -/
def Config.contractIds (config : Config) : List ContractId :=
  [config.creditRegistry, config.retirement, config.marketplace, config.mrvOracle].filterMap id

/-- The chain, the service, and the contracts that the poll under way has yet to fetch. -/
structure State where
  chain : ContractId → ContractEvents
  service : EventsService
  remaining : List ContractId

/-- What happens on the chain and in the polls. -/
inductive Step where
  | emit (contractId : ContractId) (event : EventResponse)
  | poll
  | fetch (answered : Bool)

/-- The chain accepts an event, a poll starts after the one before it has ended, or the poll
under way indexes the next contract. -/
def exec (config : Config) (s : State) : Step → Except Unit (List Action × State)
  | .emit contractId event =>
      if accepts : (s.chain contractId).Accepts event then
        .ok ([], { s with
          chain := Function.update s.chain contractId
            ((s.chain contractId).append event accepts) })
      else .error ()
  | .poll =>
      match s.remaining with
      | [] => .ok ([], { s with remaining := config.contractIds })
      | _ :: _ => .error ()
  | .fetch answered =>
      match s.remaining with
      | [] => .error ()
      | contractId :: remaining =>
          let events :=
            getContractEvents (s.chain contractId) s.service.lastLedger answered
          let (service, actions) := indexContractEvents contractId events s.service
          .ok (actions, { s with service, remaining })

/-- The indexer from its start, next to a chain without events. -/
def indexer (config : Config) : Machine State Step (List Action) Unit where
  init := ⟨fun _ => .empty, ⟨0, ∅⟩, []⟩
  exec := exec config

end CarbonChain.Events
