import CarbonChain.Events.Service

/-!
# The webhooks service

`WebhooksService` of `api/src/webhooks/webhooks.service.ts` posts events to subscribers,
and its `retryFailedDeliveries` posts again what is pending. Its methods run inside
`indexEvents`, which a cron job starts every 30 seconds, whether or not the run before has
ended. Every `await` is a point where another run can go on: a run is a task, which stands
at an `await`, and a step resumes one task up to its next `await`. Webhooks and deliveries
are objects that the maps and the tasks refer to, so a deleted webhook lives on in the
tasks that hold it. Ids, the clock and the outcomes of the posts come from outside.
-/

namespace CarbonChain.Webhooks

open Events (SorobanEvent)

/-- A reference to an object: its place among the objects of its kind. -/
abbrev Ref := Nat

/-- `Webhook` (4-12); times are in milliseconds. -/
structure Webhook where
  id : String
  url : String
  events : List String
  active : Bool
  createdAt : Nat
  lastTriggeredAt : Option Nat
  failureCount : Nat
  deriving DecidableEq

/-- The status of a delivery (18). -/
inductive DeliveryStatus where
  | pending
  | success
  | failed
  deriving DecidableEq

/-- `WebhookDelivery` (14-22). -/
structure WebhookDelivery where
  id : String
  webhookId : String
  eventId : String
  status : DeliveryStatus
  attempts : Nat
  lastAttemptAt : Option Nat
  nextRetryAt : Option Nat
  deriving DecidableEq

/-- `MAX_RETRIES` (29). -/
def maxRetries : Nat := 5

/-- `RETRY_DELAY_MS` (30). -/
def retryDelayMs : Nat := 5000

/-- `Map.prototype.set`: a key that is there keeps its place. -/
def mapSet (map : List (String × Ref)) (key : String) (ref : Ref) : List (String × Ref) :=
  if map.any (·.1 == key) then
    map.map fun entry => if entry.1 = key then (key, ref) else entry
  else map ++ [(key, ref)]

/-- The attempt that waits for its POST: the webhook and the delivery. -/
structure Attempt where
  webhook : Ref
  delivery : Ref
  deriving DecidableEq

/-- Where a run of `indexEvents` stands. In its loop a task waits for the POST of an attempt,
or its attempt has returned and the loop goes on. The events are those that the run has yet
to trigger the webhooks for. -/
inductive Task where
  | indexing (events : List SorobanEvent)
  | triggering (attempt : Option Attempt) (remaining : List Ref) (eventType : String)
      (eventData : SorobanEvent) (events : List SorobanEvent)
  | retrying (attempt : Option Attempt) (remaining : List Ref)
  | done
  deriving DecidableEq

/-- The objects, the two maps, and the runs. -/
structure State where
  webhookObjects : List Webhook
  deliveryObjects : List WebhookDelivery
  webhooks : List (String × Ref)
  deliveries : List (String × Ref)
  tasks : List Task

/-- What is posted as `data`. -/
inductive Body where
  | event (eventData : SorobanEvent)
  | retry (deliveryId : String)
  deriving DecidableEq

/-- A POST that starts. -/
structure Post where
  delivery : Ref
  url : String
  type : String
  data : Body
  timestamp : Nat
  deriving DecidableEq

/-- What comes from outside as a task goes on: the time, the random part of an id, and
whether the POST that it waits for succeeded. -/
structure Reply where
  now : Nat
  deliveryId : String
  succeeded : Bool

variable (reply : Reply) (s : State)

/-! ## Attempts -/

/-- `attemptDelivery` up to its POST (95-103). -/
def attemptDelivery (webhook delivery : Ref) (eventType : String) (data : Body) :
    State × Attempt × Post :=
  let deliveryObjects := s.deliveryObjects.modify delivery fun d =>
    { d with attempts := d.attempts + 1, lastAttemptAt := some reply.now }
  let url := s.webhookObjects[webhook]?.elim "" Webhook.url
  ({ s with deliveryObjects }, ⟨webhook, delivery⟩,
    ⟨delivery, url, eventType, data, reply.now⟩)

/-- The status of a delivery whose POST failed (115-125). -/
def WebhookDelivery.afterFailure (d : WebhookDelivery) : WebhookDelivery :=
  if d.attempts < maxRetries then
    { d with
      status := .pending
      nextRetryAt := some (reply.now + retryDelayMs * d.attempts) }
  else { d with status := .failed }

/-- `attemptDelivery` after its POST (105-130). -/
def settleAttempt (attempt : Attempt) : State :=
  if reply.succeeded then
    { s with
      deliveryObjects := s.deliveryObjects.modify attempt.delivery fun d =>
        { d with status := .success }
      webhookObjects := s.webhookObjects.modify attempt.webhook fun w =>
        { w with lastTriggeredAt := some reply.now, failureCount := 0 } }
  else
    let exhausted := s.deliveryObjects[attempt.delivery]?.any fun d => maxRetries ≤ d.attempts
    { s with
      deliveryObjects := s.deliveryObjects.modify attempt.delivery fun d => d.afterFailure reply
      webhookObjects := s.webhookObjects.modify attempt.webhook fun w =>
        { w with
          failureCount := w.failureCount + 1
          active := if exhausted then false else w.active } }

/-! ## Triggering -/

/-- The webhooks that `triggerWebhooks` goes through (62-64). -/
def matchingWebhooks (eventType : String) : List Ref :=
  (s.webhooks.map Prod.snd).filter fun webhook =>
    s.webhookObjects[webhook]?.any fun w => w.active && w.events.contains eventType

/-- `deliverWebhook` (71-87) up to the POST. -/
def deliverWebhook (webhook : Ref) (eventType : String) (eventData : SorobanEvent) :
    State × Attempt × Post :=
  let delivery := s.deliveryObjects.length
  let created : WebhookDelivery :=
    { id := reply.deliveryId
      webhookId := s.webhookObjects[webhook]?.elim "" Webhook.id
      eventId := if eventData.id = "" then "unknown" else eventData.id
      status := .pending
      attempts := 0
      lastAttemptAt := none
      nextRetryAt := none }
  let s := { s with
    deliveryObjects := s.deliveryObjects ++ [created]
    deliveries := mapSet s.deliveries reply.deliveryId delivery }
  attemptDelivery reply s webhook delivery eventType (.event eventData)

/-- The loop of `triggerWebhooks` (66-68) from its next iteration on. -/
def triggerLoop (remaining : List Ref) (eventType : String) (eventData : SorobanEvent)
    (events : List SorobanEvent) : State × Task × Option Post :=
  match remaining with
  | [] => (s, .indexing events, none)
  | webhook :: remaining =>
      let (s, attempt, post) := deliverWebhook reply s webhook eventType eventData
      (s, .triggering (some attempt) remaining eventType eventData events, some post)

/-! ## Retrying -/

/-- The deliveries that `retryFailedDeliveries` goes through (142-149). -/
def pendingDeliveries : List Ref :=
  (s.deliveries.map Prod.snd).filter fun delivery =>
    s.deliveryObjects[delivery]?.any fun d =>
      d.status == .pending && d.nextRetryAt.any (· ≤ reply.now) && d.attempts < maxRetries

/-- `this.webhooks.get(delivery.webhookId)`. -/
def State.webhookOf (delivery : Ref) : Option Ref :=
  s.deliveryObjects[delivery]?.bind fun d => s.webhooks.lookup d.webhookId

/-- The loop of `retryFailedDeliveries` (151-158) from its next iteration on. It passes at once
over a delivery whose webhook is deleted. -/
def retryLoop : List Ref → State × Task × Option Post
  | [] => (s, .done, none)
  | delivery :: remaining =>
      match s.webhookOf delivery with
      | none => retryLoop remaining
      | some webhook =>
          let deliveryId := s.deliveryObjects[delivery]?.elim "" WebhookDelivery.id
          let (s, attempt, post) :=
            attemptDelivery reply s webhook delivery "retry" (.retry deliveryId)
          (s, .retrying (some attempt) remaining, some post)

/-! ## Runs -/

/-- A task goes on to its next `await`. -/
def resumeTask : Task → State × Task × Option Post
  | .indexing (event :: events) =>
      triggerLoop reply s (matchingWebhooks s event.type) event.type event events
  | .indexing [] => retryLoop reply s (pendingDeliveries reply s)
  | .triggering (some attempt) remaining eventType eventData events =>
      (settleAttempt reply s attempt, .triggering none remaining eventType eventData events, none)
  | .triggering none remaining eventType eventData events =>
      triggerLoop reply s remaining eventType eventData events
  | .retrying (some attempt) remaining =>
      (settleAttempt reply s attempt, .retrying none remaining, none)
  | .retrying none remaining => retryLoop reply s remaining
  | .done => (s, .done, none)

/-- A call of the service, or what a run of `indexEvents` does. -/
inductive Step where
  | registerWebhook (id url : String) (events : List String) (now : Nat)
  | deleteWebhook (id : String)
  | indexEvents (events : List SorobanEvent)
  | resume (task : Nat) (reply : Reply)

/-- The service is called, a run starts, or a run goes on. -/
def exec (s : State) : Step → Except Unit (Option Post × State)
  | .registerWebhook id url events now =>
      let webhook : Webhook :=
        { id, url, events, active := true, createdAt := now, lastTriggeredAt := none,
          failureCount := 0 }
      .ok (none, { s with
        webhookObjects := s.webhookObjects ++ [webhook]
        webhooks := mapSet s.webhooks id s.webhookObjects.length })
  | .deleteWebhook id =>
      .ok (none, { s with webhooks := s.webhooks.filter (·.1 != id) })
  | .indexEvents events => .ok (none, { s with tasks := s.tasks ++ [.indexing events] })
  | .resume i reply =>
      match s.tasks[i]? with
      | none => .error ()
      | some task =>
          let (s, task, post) := resumeTask reply s task
          .ok (post, { s with tasks := s.tasks.set i task })

/-- The service from its start. -/
def service : Machine State Step (Option Post) Unit where
  init := ⟨[], [], [], [], []⟩
  exec := exec

end CarbonChain.Webhooks
