import CarbonChain.Webhooks.Overlap

/-!
# One call after another

The calls of the service, each run to its end before the next one starts. A call posts to
one webhook after the other and waits for each POST. What a retry posts
(`api/src/webhooks/webhooks.service.ts:151-158`) is made up anew, and neither does it have
the event of the delivery nor does it look at whether the webhook is active.
-/

namespace CarbonChain.Webhooks

open Events (SorobanEvent)

/-- What comes from outside as a POST starts and as it ends. -/
structure Exchange where
  start : Reply
  finish : Reply

/-- A POST, the webhook it went to and whether it succeeded. -/
structure Sent where
  webhook : Ref
  post : Post
  succeeded : Bool

/-- `attemptDelivery`, to its end. -/
def attempt (exchange : Exchange) (s : State) (webhook delivery : Ref) (eventType : String)
    (data : Body) : State × Sent :=
  let started := attemptDelivery exchange.start s webhook delivery eventType data
  (settleAttempt exchange.finish started.1 started.2.1,
    ⟨webhook, started.2.2, exchange.finish.succeeded⟩)

/-- `deliverWebhook`, to its end. -/
def deliver (exchange : Exchange) (s : State) (webhook : Ref) (eventType : String)
    (eventData : SorobanEvent) : State × Sent :=
  let started := deliverWebhook exchange.start s webhook eventType eventData
  (settleAttempt exchange.finish started.1 started.2.1,
    ⟨webhook, started.2.2, exchange.finish.succeeded⟩)

/-- The loop of `triggerWebhooks`, from its `n`-th POST on. -/
def triggerEach (exchanges : Nat → Exchange) (eventType : String) (eventData : SorobanEvent) :
    List Ref → Nat → State → State × List Sent
  | [], _, s => (s, [])
  | webhook :: remaining, n, s =>
      let delivered := deliver (exchanges n) s webhook eventType eventData
      let rest := triggerEach exchanges eventType eventData remaining (n + 1) delivered.1
      (rest.1, delivered.2 :: rest.2)

/-- The loop of `retryFailedDeliveries`, from its `n`-th POST on. -/
def retryEach (exchanges : Nat → Exchange) : List Ref → Nat → State → State × List Sent
  | [], _, s => (s, [])
  | delivery :: remaining, n, s =>
      match s.webhookOf delivery with
      | none => retryEach exchanges remaining n s
      | some webhook =>
          let deliveryId := s.deliveryObjects[delivery]?.elim "" WebhookDelivery.id
          let retried := attempt (exchanges n) s webhook delivery "retry" (.retry deliveryId)
          let rest := retryEach exchanges remaining (n + 1) retried.1
          (rest.1, retried.2 :: rest.2)

/-- The calls, with what comes from outside for each of their POSTs. -/
inductive Call where
  | registerWebhook (id url : String) (events : List String) (now : Nat)
  | deleteWebhook (id : String)
  | triggerWebhooks (eventType : String) (eventData : SorobanEvent) (exchanges : Nat → Exchange)
  | retryFailedDeliveries (reply : Reply) (exchanges : Nat → Exchange)

/-- A call returns after its last POST. -/
def call (s : State) : Call → Except Unit (List Sent × State)
  | .registerWebhook id url events now =>
      (fun result => ([], result.2)) <$> exec s (.registerWebhook id url events now)
  | .deleteWebhook id => (fun result => ([], result.2)) <$> exec s (.deleteWebhook id)
  | .triggerWebhooks eventType eventData exchanges =>
      let triggered := triggerEach exchanges eventType eventData (matchingWebhooks s eventType) 0 s
      .ok (triggered.2, triggered.1)
  | .retryFailedDeliveries reply exchanges =>
      let retried := retryEach exchanges (pendingDeliveries reply s) 0 s
      .ok (retried.2, retried.1)

/-- The service from its start, one call after another. -/
def sequential : Machine State Call (List Sent) Unit where
  init := service.init
  exec := call

abbrev CallEvent := Event State Call (List Sent)

/-! ## Tasks that go on alone -/

/-- A task with no other one between its turns. -/
def resumeAlone (s : State) (task : Task) : List Reply → State × Task × List Post
  | [] => (s, task, [])
  | reply :: replies =>
      let resumed := resumeTask reply s task
      let rest := resumeAlone resumed.1 resumed.2.1 replies
      (rest.1, rest.2.1, resumed.2.2.toList ++ rest.2.2)

/-- The turns of `m` POSTs from the `n`-th one on. -/
def turns (exchanges : Nat → Exchange) (n : Nat) : Nat → List Reply
  | 0 => []
  | m + 1 => (exchanges n).start :: (exchanges n).finish :: turns exchanges (n + 1) m

/-- The loop of `triggerWebhooks` is a task that goes on alone. -/
theorem triggerEach_alone (exchanges : Nat → Exchange) (eventType : String)
    (eventData : SorobanEvent) (events : List SorobanEvent) (webhooks : List Ref) (n : Nat)
    (s : State) :
    resumeAlone s (.triggering none webhooks eventType eventData events)
        (turns exchanges n webhooks.length) =
      ((triggerEach exchanges eventType eventData webhooks n s).1,
        .triggering none [] eventType eventData events,
        (triggerEach exchanges eventType eventData webhooks n s).2.map Sent.post) := by
  induction webhooks generalizing n s with
  | nil => rfl
  | cons webhook remaining ih =>
      simp only [List.length_cons, turns, resumeAlone, resumeTask, triggerLoop, triggerEach, ih]
      rfl

/-- A deleted webhook takes no turn. -/
theorem resumeAlone_deleted {s : State} {delivery : Ref} (deleted : s.webhookOf delivery = none)
    (remaining : List Ref) {replies : List Reply} (some_turn : replies ≠ []) :
    resumeAlone s (.retrying none (delivery :: remaining)) replies =
      resumeAlone s (.retrying none remaining) replies := by
  cases replies with
  | nil => exact absurd rfl some_turn
  | cons reply replies => simp only [resumeAlone, resumeTask, retryLoop, deleted]

/-- So is the loop of `retryFailedDeliveries`, which ends at the turn after its last POST. -/
theorem retryEach_alone (exchanges : Nat → Exchange) (deliveries : List Ref) (n : Nat) (s : State)
    (last : Reply) :
    resumeAlone s (.retrying none deliveries)
        (turns exchanges n (retryEach exchanges deliveries n s).2.length ++ [last]) =
      ((retryEach exchanges deliveries n s).1, .done,
        (retryEach exchanges deliveries n s).2.map Sent.post) := by
  induction deliveries generalizing n s with
  | nil => rfl
  | cons delivery remaining ih =>
      cases webhook : s.webhookOf delivery with
      | none =>
          simp only [retryEach, webhook]
          rw [resumeAlone_deleted webhook remaining (by simp)]
          exact ih n s
      | some webhook' =>
          simp only [retryEach, webhook, List.length_cons, turns, List.cons_append, resumeAlone,
            resumeTask, retryLoop, attempt, ih]
          rfl

/-! ## What a POST leaves alone -/

/-- The webhook is active. -/
def State.active (s : State) (webhook : Ref) : Bool := s.webhookObjects[webhook]?.any Webhook.active

/-- The map of the webhooks and the objects in it stay, and none is activated. -/
structure Keeps (s s' : State) : Prop where
  webhooks : s'.webhooks = s.webhooks
  known : s'.webhookObjects.length = s.webhookObjects.length
  active : ∀ w, s'.active w = true → s.active w = true

theorem Keeps.refl (s : State) : Keeps s s := ⟨rfl, rfl, fun _ active => active⟩

theorem Keeps.trans {s s' s'' : State} (first : Keeps s s') (second : Keeps s' s'') :
    Keeps s s'' :=
  ⟨second.webhooks.trans first.webhooks, second.known.trans first.known,
    fun w active => first.active w (second.active w active)⟩

theorem active_of_modify {objects : List Webhook} {f : Webhook → Webhook}
    (calm : ∀ webhook, (f webhook).active = true → webhook.active = true) {changed w : Ref}
    (active : (objects.modify changed f)[w]?.any Webhook.active = true) :
    objects[w]?.any Webhook.active = true := by
  rw [List.getElem?_modify] at active
  cases stored : objects[w]? with
  | none => simp [stored] at active
  | some webhook =>
      rw [stored] at active
      simp only [Option.map_eq_map, Option.map_some, Option.any_some] at active ⊢
      split at active
      · exact calm webhook active
      · exact active

theorem settleAttempt_keeps (reply : Reply) (s : State) (waiting : Attempt) :
    Keeps s (settleAttempt reply s waiting) := by
  unfold settleAttempt
  split
  · refine ⟨rfl, List.length_modify .., ?_⟩
    intro w active
    refine active_of_modify ?_ active
    exact fun _ active => active
  · refine ⟨rfl, List.length_modify .., ?_⟩
    intro w active
    refine active_of_modify ?_ active
    intro webhook active
    dsimp only at active
    split at active
    · cases active
    · exact active

theorem attempt_keeps (exchange : Exchange) (s : State) (webhook delivery : Ref)
    (eventType : String) (data : Body) :
    Keeps s (attempt exchange s webhook delivery eventType data).1 := by
  have started : Keeps s (attemptDelivery exchange.start s webhook delivery eventType data).1 :=
    ⟨rfl, rfl, fun _ active => active⟩
  exact started.trans (settleAttempt_keeps _ _ _)

theorem deliver_keeps (exchange : Exchange) (s : State) (webhook : Ref) (eventType : String)
    (eventData : SorobanEvent) : Keeps s (deliver exchange s webhook eventType eventData).1 := by
  have started : Keeps s (deliverWebhook exchange.start s webhook eventType eventData).1 :=
    ⟨rfl, rfl, fun _ active => active⟩
  exact started.trans (settleAttempt_keeps _ _ _)

/-- The webhook of a delivery does not change as the delivery is attempted. -/
theorem webhookOf_modify {s s' : State} {delivery d : Ref}
    {f : WebhookDelivery → WebhookDelivery} (same : ∀ d, (f d).webhookId = d.webhookId)
    (webhooks : s'.webhooks = s.webhooks)
    (objects : s'.deliveryObjects = s.deliveryObjects.modify delivery f) :
    s'.webhookOf d = s.webhookOf d := by
  unfold State.webhookOf
  rw [webhooks, objects, List.getElem?_modify]
  cases s.deliveryObjects[d]? with
  | none => rfl
  | some stored =>
      simp only [Option.map_eq_map, Option.map_some, Option.bind_some]
      split
      · rw [same]
      · rfl

theorem settleAttempt_webhookOf (reply : Reply) (s : State) (waiting : Attempt) (d : Ref) :
    (settleAttempt reply s waiting).webhookOf d = s.webhookOf d := by
  refine webhookOf_modify ?_ (settleAttempt_keeps reply s waiting).webhooks
    (settleAttempt_deliveryObjects waiting)
  intro delivery
  unfold WebhookDelivery.settle WebhookDelivery.afterFailure
  split
  · rfl
  · split <;> rfl

theorem attempt_webhookOf (exchange : Exchange) (s : State) (webhook delivery : Ref)
    (eventType : String) (data : Body) (d : Ref) :
    (attempt exchange s webhook delivery eventType data).1.webhookOf d = s.webhookOf d := by
  refine (settleAttempt_webhookOf _ _ _ d).trans ?_
  refine webhookOf_modify ?_ rfl rfl
  exact fun _ => rfl

theorem settleAttempt_deliveries (reply : Reply) (s : State) (waiting : Attempt) :
    (settleAttempt reply s waiting).deliveryObjects.length = s.deliveryObjects.length := by
  rw [settleAttempt_deliveryObjects, List.length_modify]

/-! ## What the calls post -/

/-- A triggering posts to its webhooks the event of the call, each time for a new delivery. -/
structure Triggers (s s' : State) (eventType : String) (eventData : SorobanEvent)
    (webhooks : List Ref) (sent : List Sent) : Prop where
  keeps : Keeps s s'
  receivers : sent.map Sent.webhook = webhooks
  carries : ∀ x ∈ sent, x.post.type = eventType ∧ x.post.data = .event eventData
  deliveries : s'.deliveryObjects.length = s.deliveryObjects.length + webhooks.length
  new : ∀ x ∈ sent, s.deliveryObjects.length ≤ x.post.delivery ∧
    x.post.delivery < s'.deliveryObjects.length

theorem deliver_deliveries (exchange : Exchange) (s : State) (webhook : Ref) (eventType : String)
    (eventData : SorobanEvent) :
    (deliver exchange s webhook eventType eventData).1.deliveryObjects.length =
      s.deliveryObjects.length + 1 := by
  refine (settleAttempt_deliveries _ _ _).trans ?_
  show ((s.deliveryObjects ++ [_]).modify _ _).length = _
  rw [List.length_modify, List.length_append, List.length_singleton]

theorem triggerEach_triggers (exchanges : Nat → Exchange) (eventType : String)
    (eventData : SorobanEvent) (webhooks : List Ref) (n : Nat) (s : State) :
    Triggers s (triggerEach exchanges eventType eventData webhooks n s).1 eventType eventData
      webhooks (triggerEach exchanges eventType eventData webhooks n s).2 := by
  induction webhooks generalizing n s with
  | nil => exact ⟨.refl s, rfl, nofun, rfl, nofun⟩
  | cons webhook remaining ih =>
      have kept := deliver_keeps (exchanges n) s webhook eventType eventData
      have longer := deliver_deliveries (exchanges n) s webhook eventType eventData
      have rest := ih (n + 1) (deliver (exchanges n) s webhook eventType eventData).1
      have longer' := rest.deliveries
      rw [longer] at longer'
      refine ⟨kept.trans rest.keeps, congrArg _ rest.receivers, ?_, ?_, ?_⟩
      · intro x given
        rcases List.mem_cons.mp given with rfl | later
        · exact ⟨rfl, rfl⟩
        · exact rest.carries x later
      · refine longer'.trans ?_
        rw [List.length_cons]
        omega
      · intro x given
        rcases List.mem_cons.mp given with rfl | later
        · refine ⟨le_refl _, ?_⟩
          show s.deliveryObjects.length < _
          refine Nat.lt_of_lt_of_eq ?_ longer'.symm
          omega
        · have new := rest.new x later
          rw [longer] at new
          exact ⟨by omega, new.2⟩

/-- A retry posts once for each of its deliveries whose webhook is not deleted, and says which
delivery it retries. -/
structure Retries (s s' : State) (deliveries : List Ref) (exchanges : Nat → Exchange) (n : Nat)
    (sent : List Sent) : Prop where
  keeps : Keeps s s'
  receivers : sent.map Sent.webhook = deliveries.filterMap s.webhookOf
  outcomes : ∀ k x, sent[k]? = some x → x.succeeded = (exchanges (n + k)).finish.succeeded
  retried : ∀ x ∈ sent, ∃ deliveryId, x.post.data = .retry deliveryId
  deliveries : s'.deliveryObjects.length = s.deliveryObjects.length
  known : ∀ x ∈ sent, x.post.delivery < s.deliveryObjects.length

theorem attempt_deliveries (exchange : Exchange) (s : State) (webhook delivery : Ref)
    (eventType : String) (data : Body) :
    (attempt exchange s webhook delivery eventType data).1.deliveryObjects.length =
      s.deliveryObjects.length := by
  refine (settleAttempt_deliveries _ _ _).trans ?_
  exact List.length_modify ..

theorem retryEach_retries (exchanges : Nat → Exchange) (deliveries : List Ref) (n : Nat)
    (s : State) :
    Retries s (retryEach exchanges deliveries n s).1 deliveries exchanges n
      (retryEach exchanges deliveries n s).2 := by
  induction deliveries generalizing n s with
  | nil => exact ⟨.refl s, rfl, nofun, nofun, rfl, nofun⟩
  | cons delivery remaining ih =>
      rw [retryEach]
      cases found : s.webhookOf delivery with
      | none =>
          have rest := ih n s
          refine ⟨rest.keeps, ?_, rest.outcomes, rest.retried, rest.deliveries, rest.known⟩
          rw [List.filterMap_cons_none found]
          exact rest.receivers
      | some webhook =>
          have known : delivery < s.deliveryObjects.length := by
            by_contra beyond
            rw [State.webhookOf, List.getElem?_eq_none (Nat.le_of_not_lt beyond)] at found
            cases found
          dsimp only
          generalize s.deliveryObjects[delivery]?.elim "" WebhookDelivery.id = deliveryId
          have kept := attempt_keeps (exchanges n) s webhook delivery "retry"
            (.retry deliveryId)
          have same := attempt_deliveries (exchanges n) s webhook delivery "retry"
            (.retry deliveryId)
          have owners := attempt_webhookOf (exchanges n) s webhook delivery "retry"
            (.retry deliveryId)
          have rest := ih (n + 1)
            (attempt (exchanges n) s webhook delivery "retry" (.retry deliveryId)).1
          refine ⟨kept.trans rest.keeps, ?_, ?_, ?_, rest.deliveries.trans same, ?_⟩
          · have later := rest.receivers
            rw [funext owners] at later
            rw [List.filterMap_cons_some found, List.map_cons, later]
            rfl
          · intro k x given
            cases k with
            | zero =>
                cases given
                rfl
            | succ k =>
                have there := rest.outcomes k x given
                rwa [Nat.add_right_comm] at there
          · intro x given
            rcases List.mem_cons.mp given with rfl | later
            · exact ⟨deliveryId, rfl⟩
            · exact rest.retried x later
          · intro x given
            rcases List.mem_cons.mp given with rfl | later
            · exact known
            · have there := rest.known x later
              rwa [same] at there

/-- What a call does. -/
inductive CallEffect (s : State) : Call → List Sent → State → Prop where
  | registered (id url : String) (events : List String) (now : Nat) (webhook : Webhook)
      (s' : State) (objects : s'.webhookObjects = s.webhookObjects ++ [webhook])
      (webhooks : s'.webhooks = mapSet s.webhooks id s.webhookObjects.length)
      (deliveries : s'.deliveryObjects = s.deliveryObjects) :
      CallEffect s (.registerWebhook id url events now) [] s'
  | deleted (id : String) (s' : State) (objects : s'.webhookObjects = s.webhookObjects)
      (webhooks : s'.webhooks = s.webhooks.filter (·.1 != id))
      (deliveries : s'.deliveryObjects = s.deliveryObjects) :
      CallEffect s (.deleteWebhook id) [] s'
  | triggered (eventType : String) (eventData : SorobanEvent) (exchanges : Nat → Exchange)
      (sent : List Sent) (s' : State)
      (triggers : Triggers s s' eventType eventData (matchingWebhooks s eventType) sent) :
      CallEffect s (.triggerWebhooks eventType eventData exchanges) sent s'
  | retried (reply : Reply) (exchanges : Nat → Exchange) (sent : List Sent) (s' : State)
      (retries : Retries s s' (pendingDeliveries reply s) exchanges 0 sent) :
      CallEffect s (.retryFailedDeliveries reply exchanges) sent s'

theorem call_effect {s s' : State} {input : Call} {sent : List Sent}
    (h : call s input = .ok (sent, s')) : CallEffect s input sent s' := by
  cases input with
  | registerWebhook id url events now =>
      cases h
      exact .registered id url events now _ _ rfl rfl rfl
  | deleteWebhook id =>
      cases h
      exact .deleted id _ rfl rfl rfl
  | triggerWebhooks eventType eventData exchanges =>
      cases h
      exact .triggered _ _ _ _ _ (triggerEach_triggers exchanges eventType eventData _ 0 s)
  | retryFailedDeliveries reply exchanges =>
      cases h
      exact .retried _ _ _ _ (retryEach_retries exchanges _ 0 s)

/-! ## What a delivered webhook carries -/

/-- A POST that succeeded for a delivery of a triggering has the type and the data of its
event. -/
def Carries (log : List CallEvent) : Prop :=
  ∀ event ∈ log, ∀ eventType eventData exchanges,
    event.input = .triggerWebhooks eventType eventData exchanges →
    ∀ d, event.pre.deliveryObjects.length ≤ d → d < event.post.deliveryObjects.length →
      ∀ later ∈ log, ∀ x ∈ later.output, x.post.delivery = d → x.succeeded = true →
        x.post.type = eventType ∧ x.post.data = .event eventData

/-- No POST of a retry succeeds. -/
def RetriesFail (event : CallEvent) : Prop :=
  ∀ reply exchanges, event.input = .retryFailedDeliveries reply exchanges →
    ∀ k < ((pendingDeliveries reply event.pre).filterMap event.pre.webhookOf).length,
      (exchanges k).finish.succeeded = false

/-- Every delivery was created by a triggering of the log, and every POST of the log is one of a
delivery. -/
structure Delivers (log : List CallEvent) (s : State) : Prop where
  created : ∀ d < s.deliveryObjects.length, ∃ event ∈ log, ∃ eventType eventData exchanges,
    event.input = .triggerWebhooks eventType eventData exchanges ∧
      event.pre.deliveryObjects.length ≤ d ∧ d < event.post.deliveryObjects.length
  known : ∀ event ∈ log, ∀ x ∈ event.output, x.post.delivery < s.deliveryObjects.length
  grows : ∀ event ∈ log, event.post.deliveryObjects.length ≤ s.deliveryObjects.length

/-- A call creates deliveries only by triggering, and its POSTs are of deliveries. -/
theorem CallEffect.deliveries {s s' : State} {input : Call} {sent : List Sent}
    (effect : CallEffect s input sent s') :
    s.deliveryObjects.length ≤ s'.deliveryObjects.length ∧
      (∀ x ∈ sent, x.post.delivery < s'.deliveryObjects.length) ∧
      (s.deliveryObjects.length < s'.deliveryObjects.length →
        ∃ eventType eventData exchanges,
          input = .triggerWebhooks eventType eventData exchanges) := by
  cases effect with
  | registered id url events now webhook _ objects webhooks deliveries =>
      rw [deliveries]
      exact ⟨le_refl _, nofun, fun more => absurd more (lt_irrefl _)⟩
  | deleted id _ objects webhooks deliveries =>
      rw [deliveries]
      exact ⟨le_refl _, nofun, fun more => absurd more (lt_irrefl _)⟩
  | triggered eventType eventData exchanges _ _ triggers =>
      refine ⟨?_, fun x given => (triggers.new x given).2, fun _ => ⟨_, _, _, rfl⟩⟩
      rw [triggers.deliveries]
      exact Nat.le_add_right _ _
  | retried reply exchanges _ _ retries =>
      rw [retries.deliveries]
      exact ⟨le_refl _, retries.known, fun more => absurd more (lt_irrefl _)⟩

theorem Delivers.step {log : List CallEvent} {event : CallEvent} (delivers : Delivers log event.pre)
    (commits : sequential.Commits event) : Delivers (log ++ [event]) event.post := by
  rcases (call_effect commits).deliveries with ⟨grows, known, triggering⟩
  constructor
  · intro d stored
    by_cases old : d < event.pre.deliveryObjects.length
    · rcases delivers.created d old with ⟨e, logged, created⟩
      exact ⟨e, List.mem_append_left _ logged, created⟩
    · have new := Nat.le_of_not_lt old
      rcases triggering (Nat.lt_of_le_of_lt new stored) with
        ⟨eventType, eventData, exchanges, input⟩
      exact ⟨event, List.mem_concat_self, eventType, eventData, exchanges, input, new, stored⟩
  · intro e logged x given
    rcases List.mem_append.mp logged with earlier | last
    · exact Nat.lt_of_lt_of_le (delivers.known e earlier x given) grows
    · rw [List.mem_singleton.mp last] at given
      exact known x given
  · intro e logged
    rcases List.mem_append.mp logged with earlier | last
    · exact (delivers.grows e earlier).trans grows
    · rw [List.mem_singleton.mp last]

/-- A retry whose POSTs all fail delivers nothing. -/
theorem RetriesFail.unsuccessful {event : CallEvent} (fail : RetriesFail event)
    (commits : sequential.Commits event) {x : Sent} (given : x ∈ event.output)
    (old : x.post.delivery < event.pre.deliveryObjects.length) : x.succeeded = false := by
  rcases event with ⟨s, input, sent, s'⟩
  have effect := call_effect commits
  dsimp only at effect given old
  cases effect with
  | registered id url events now webhook _ objects webhooks deliveries => cases given
  | deleted id _ objects webhooks deliveries => cases given
  | triggered eventType eventData exchanges _ _ triggers =>
      exact absurd old (Nat.not_lt.mpr (triggers.new x given).1)
  | retried reply exchanges _ _ retries =>
      rcases List.mem_iff_getElem?.mp given with ⟨k, there⟩
      have count := congrArg List.length retries.receivers
      rw [List.length_map] at count
      have inside := (List.getElem?_eq_some_iff.mp there).1
      rw [retries.outcomes k x there, Nat.zero_add]
      exact fail reply exchanges rfl k (count ▸ inside)

/-- A triggering posts its event. -/
theorem carries_own {event : CallEvent} (commits : sequential.Commits event)
    {eventType : String} {eventData : SorobanEvent} {exchanges : Nat → Exchange}
    (input : event.input = .triggerWebhooks eventType eventData exchanges) {x : Sent}
    (given : x ∈ event.output) :
    x.post.type = eventType ∧ x.post.data = .event eventData := by
  rcases event with ⟨s, _, sent, s'⟩
  have effect := call_effect commits
  dsimp only at effect input given
  subst input
  cases effect with
  | triggered _ _ _ _ _ triggers => exact triggers.carries x given

theorem Delivers.carries_step {log : List CallEvent} {event : CallEvent}
    (delivers : Delivers log event.pre) (carries : Carries log) (fail : RetriesFail event)
    (commits : sequential.Commits event) : Carries (log ++ [event]) := by
  intro e logged eventType eventData exchanges input d from_ below later logged' x given its
    succeeded
  rcases List.mem_append.mp logged with earlier | last
  · rcases List.mem_append.mp logged' with earlier' | last'
    · exact carries e earlier eventType eventData exchanges input d from_ below later earlier' x
        given its succeeded
    · -- the POST is a retry of a delivery that was there before, and it failed
      rw [List.mem_singleton.mp last'] at given
      have old := Nat.lt_of_lt_of_le below (delivers.grows e earlier)
      rw [← its] at old
      rw [fail.unsuccessful commits given old] at succeeded
      cases succeeded
  · rw [List.mem_singleton.mp last] at input from_ below
    rcases List.mem_append.mp logged' with earlier' | last'
    · have old := delivers.known later earlier' x given
      rw [its] at old
      exact absurd old (Nat.not_lt.mpr from_)
    · rw [List.mem_singleton.mp last'] at given
      exact carries_own commits input given

/-- A POST of a retry that succeeds does not carry the event of its delivery. -/
theorem Delivers.fail_of_carries {log : List CallEvent} {event : CallEvent}
    (delivers : Delivers log event.pre) (commits : sequential.Commits event)
    (carries : Carries (log ++ [event])) : RetriesFail event := by
  intro reply exchanges input k inside
  rcases event with ⟨s, _, sent, s'⟩
  have effect := call_effect commits
  dsimp only at effect input inside delivers
  subst input
  cases effect with
  | retried _ _ _ _ retries =>
      rw [← retries.receivers, List.length_map] at inside
      have there := List.getElem?_eq_getElem inside
      have given := List.mem_of_getElem? there
      have outcome := retries.outcomes k _ there
      rw [Nat.zero_add] at outcome
      rw [← outcome, ← Bool.not_eq_true]
      intro succeeded
      rcases delivers.created _ (retries.known _ given) with
        ⟨e, logged, eventType, eventData, exchanges', input, from_, below⟩
      have event := (carries e (List.mem_append_left _ logged) eventType eventData exchanges' input
        _ from_ below _ List.mem_concat_self _ given rfl succeeded).2
      rcases retries.retried _ given with ⟨deliveryId, data⟩
      rw [data] at event
      cases event

/-- At every moment of a run of calls, what succeeded carries the event of its delivery, in
exactly the runs in which no POST of a retry succeeds. -/
theorem carries_iff (inputs : List Call) :
    sequential.Always (fun log _ => Carries log) inputs ↔
      ∀ event ∈ sequential.log inputs, RetriesFail event := by
  rw [← Machine.admits_forall]
  refine sequential.always_iff_admits (fun log s => Delivers log s ∧ Carries log) ⟨?_, nofun⟩ nofun
    ?_ ?_ inputs
  · exact ⟨nofun, nofun, nofun⟩
  · rintro log event ⟨delivers, carries⟩ commits
    constructor
    · exact delivers.fail_of_carries commits
    · exact fun fail => delivers.carries_step carries fail commits
  · rintro log event ⟨delivers, carries⟩ fail commits
    exact ⟨delivers.step commits, delivers.carries_step carries fail commits⟩

namespace Sample

/-- A POST that starts and ends at one time, of the delivery with an id if it is a new one. -/
def exchange (deliveryId : String) (now : Nat) (succeeded : Bool) : Exchange :=
  ⟨⟨now, deliveryId, succeeded⟩, ⟨now, deliveryId, succeeded⟩⟩

def register : Call := .registerWebhook "webhook_0" "url" ["CreditMinted"] 0

/-- A triggering whose POST fails. -/
def triggerFails (deliveryId : String) (now : Nat) : Call :=
  .triggerWebhooks "CreditMinted" minted fun _ => exchange deliveryId now false

/-- A retry whose POSTs have one outcome. -/
def retry (now : Nat) (succeeded : Bool) : Call :=
  .retryFailedDeliveries ⟨now, "", succeeded⟩ fun _ => exchange "" now succeeded

/-- A delivery that fails at first and succeeds when it is retried. -/
def failThenSucceed : List Call := [register, triggerFails "delivery_1" 0, retry 10000 true]

end Sample

/-- The POST that succeeds has the type of a retry. -/
theorem failThenSucceed_not_carries :
    ¬ sequential.Always (fun log _ => Carries log) Sample.failThenSucceed := by
  intro always
  have carries := always Sample.failThenSucceed [] (List.append_nil _).symm
  have posted := carries _ (List.getElem_mem (n := 1) (by decide)) "CreditMinted" Sample.minted _
    rfl 0 (by decide) (by decide) _ (List.getElem_mem (n := 2) (by decide)) _ List.mem_cons_self
    rfl rfl
  exact absurd posted.1 (by decide)

/-! ## Webhooks that are deactivated or deleted -/

/-- The webhook is not active when the call returns, or the call deletes it. -/
def Ends (event : CallEvent) (w : Ref) : Prop :=
  w < event.post.webhookObjects.length ∧ event.post.active w = false ∨
    ∃ id, event.input = .deleteWebhook id ∧ event.pre.webhooks.lookup id = some w

/-- No call after one that ends a webhook posts to it. -/
def Silent (log : List CallEvent) : Prop :=
  log.Pairwise fun event later => ∀ w, Ends event w → ∀ x ∈ later.output, x.webhook ≠ w

/-- The deliveries that a retry posts are those of active webhooks. -/
def RetriesActive (event : CallEvent) : Prop :=
  ∀ reply exchanges, event.input = .retryFailedDeliveries reply exchanges →
    ∀ d ∈ pendingDeliveries reply event.pre, ∀ w, event.pre.webhookOf d = some w →
      event.pre.active w = true

/-- The webhooks that the map has. -/
def State.listed (s : State) : List Ref := s.webhooks.map Prod.snd

/-- The webhook exists, and is not active or not in the map. -/
def Gone (s : State) (w : Ref) : Prop :=
  w < s.webhookObjects.length ∧ (s.active w = false ∨ w ∉ s.listed)

/-- The objects in the map exist and are in it under one key, the log has the webhooks that are
not active, and those that it ends are gone. -/
structure Lists (log : List CallEvent) (s : State) : Prop where
  known : ∀ w ∈ s.listed, w < s.webhookObjects.length
  keyed : ∀ e ∈ s.webhooks, ∀ e' ∈ s.webhooks, e.2 = e'.2 → e.1 = e'.1
  inactive : ∀ w, w < s.webhookObjects.length → s.active w = false → ∃ event ∈ log, Ends event w
  ended : ∀ event ∈ log, ∀ w, Ends event w → Gone s w

theorem mem_mapSet {map : List (String × Ref)} {key : String} {ref : Ref} {entry : String × Ref}
    (member : entry ∈ mapSet map key ref) : entry = (key, ref) ∨ entry ∈ map := by
  unfold mapSet at member
  split at member
  · rcases List.mem_map.mp member with ⟨before, there, rfl⟩
    split
    · exact .inl rfl
    · exact .inr there
  · rcases List.mem_append.mp member with before | new
    · exact .inr before
    · exact .inl (List.mem_singleton.mp new)

theorem active_of_getElem? {s s' : State} {w : Ref}
    (same : s'.webhookObjects[w]? = s.webhookObjects[w]?) : s'.active w = s.active w := by
  unfold State.active
  rw [same]

theorem State.mem_listed {s : State} {w : Ref} : w ∈ s.listed ↔ ∃ key, (key, w) ∈ s.webhooks := by
  simp [State.listed]

theorem mem_of_lookup {map : List (String × Ref)} {key : String} {w : Ref}
    (found : map.lookup key = some w) : (key, w) ∈ map := by
  rcases List.lookup_eq_some_iff.mp found with ⟨before, after, split, -⟩
  rw [split]
  simp

theorem Keeps.gone {s s' : State} (keeps : Keeps s s') {w : Ref} (gone : Gone s w) :
    Gone s' w := by
  refine ⟨by rw [keeps.known]; exact gone.1, ?_⟩
  refine gone.2.imp ?_ ?_
  · intro inactive
    rw [← Bool.not_eq_true] at inactive ⊢
    exact fun active => inactive (keeps.active w active)
  · unfold State.listed
    rw [keeps.webhooks]
    exact id

/-- A call activates no webhook, takes none into the map that was there before, and keeps the
objects. -/
theorem CallEffect.gone {s s' : State} {input : Call} {sent : List Sent}
    (effect : CallEffect s input sent s') {w : Ref} (gone : Gone s w) : Gone s' w := by
  rcases gone with ⟨known, gone⟩
  cases effect with
  | registered id url events now webhook _ objects webhooks deliveries =>
      have same : s'.active w = s.active w := by
        apply active_of_getElem?
        rw [objects, List.getElem?_append_left known]
      refine ⟨?_, ?_⟩
      · rw [objects, List.length_append]
        exact Nat.lt_add_right _ known
      · rw [same]
        refine gone.imp_right ?_
        intro unlisted listed
        rcases State.mem_listed.mp listed with ⟨key, entry⟩
        rw [webhooks] at entry
        rcases mem_mapSet entry with new | old
        · cases new
          exact absurd known (lt_irrefl _)
        · exact unlisted (State.mem_listed.mpr ⟨key, old⟩)
  | deleted id _ objects webhooks deliveries =>
      have same : s'.active w = s.active w := active_of_getElem? (by rw [objects])
      refine ⟨by rwa [objects], ?_⟩
      rw [same]
      refine gone.imp_right ?_
      intro unlisted listed
      rcases State.mem_listed.mp listed with ⟨key, entry⟩
      rw [webhooks] at entry
      exact unlisted (State.mem_listed.mpr ⟨key, List.mem_of_mem_filter entry⟩)
  | triggered eventType eventData exchanges _ _ triggers =>
      exact triggers.keeps.gone ⟨known, gone⟩
  | retried reply exchanges _ _ retries => exact retries.keeps.gone ⟨known, gone⟩

/-- What a call takes into the map is new. -/
theorem CallEffect.entries {s s' : State} {input : Call} {sent : List Sent}
    (effect : CallEffect s input sent s') {entry : String × Ref} (member : entry ∈ s'.webhooks) :
    entry ∈ s.webhooks ∨ ∃ id url events now, input = .registerWebhook id url events now ∧
      entry = (id, s.webhookObjects.length) ∧
        s'.webhookObjects.length = s.webhookObjects.length + 1 := by
  cases effect with
  | registered id url events now webhook _ objects webhooks deliveries =>
      rw [webhooks] at member
      rcases mem_mapSet member with new | old
      · refine .inr ⟨id, url, events, now, rfl, new, ?_⟩
        rw [objects, List.length_append, List.length_singleton]
      · exact .inl old
  | deleted id _ objects webhooks deliveries =>
      rw [webhooks] at member
      exact .inl (List.mem_of_mem_filter member)
  | triggered eventType eventData exchanges _ _ triggers =>
      rw [triggers.keeps.webhooks] at member
      exact .inl member
  | retried reply exchanges _ _ retries =>
      rw [retries.keeps.webhooks] at member
      exact .inl member

theorem CallEffect.objects {s s' : State} {input : Call} {sent : List Sent}
    (effect : CallEffect s input sent s') :
    s.webhookObjects.length ≤ s'.webhookObjects.length := by
  cases effect with
  | registered id url events now webhook _ objects webhooks deliveries =>
      rw [objects, List.length_append]
      exact Nat.le_add_right _ _
  | deleted id _ objects webhooks deliveries => rw [objects]
  | triggered eventType eventData exchanges _ _ triggers => rw [triggers.keeps.known]
  | retried reply exchanges _ _ retries => rw [retries.keeps.known]

/-- A deleted webhook is not in the map any more. -/
theorem Lists.deleted {log : List CallEvent} {s s' : State} {id : String} {sent : List Sent}
    (lists : Lists log s) (effect : CallEffect s (.deleteWebhook id) sent s') {w : Ref}
    (found : s.webhooks.lookup id = some w) : Gone s' w := by
  have entry := mem_of_lookup found
  cases effect with
  | deleted _ _ objects webhooks deliveries =>
      refine ⟨?_, .inr ?_⟩
      · rw [objects]
        exact lists.known w (State.mem_listed.mpr ⟨id, entry⟩)
      · intro listed
        rcases State.mem_listed.mp listed with ⟨key, other⟩
        rw [webhooks] at other
        rcases List.mem_filter.mp other with ⟨other, apart⟩
        rw [lists.keyed _ other _ entry rfl] at apart
        simp at apart

theorem Lists.step {log : List CallEvent} {event : CallEvent} (lists : Lists log event.pre)
    (commits : sequential.Commits event) : Lists (log ++ [event]) event.post := by
  have effect := call_effect commits
  constructor
  · intro w listed
    rcases State.mem_listed.mp listed with ⟨key, entry⟩
    rcases effect.entries entry with old | ⟨id, url, events, now, -, new, longer⟩
    · have known := lists.known w (State.mem_listed.mpr ⟨key, old⟩)
      exact Nat.lt_of_lt_of_le known effect.objects
    · cases new
      rw [longer]
      exact Nat.lt_succ_self _
  · intro entry member other member' same
    have known : ∀ entry ∈ event.pre.webhooks, entry.2 < event.pre.webhookObjects.length :=
      fun entry old => lists.known _ (State.mem_listed.mpr ⟨entry.1, old⟩)
    rcases effect.entries member with old | ⟨id, url, events, now, input, new, -⟩
    · rcases effect.entries member' with old' | ⟨id, url, events, now, input, new, -⟩
      · exact lists.keyed entry old other old' same
      · have below := known entry old
        rw [same, new] at below
        exact absurd below (lt_irrefl _)
    · rcases effect.entries member' with old' | ⟨_, _, _, _, input', new', -⟩
      · have below := known other old'
        rw [← same, new] at below
        exact absurd below (lt_irrefl _)
      · rw [input] at input'
        cases input'
        rw [new, new']
  · intro w known inactive
    exact ⟨event, List.mem_concat_self, .inl ⟨known, inactive⟩⟩
  · intro e logged w ends
    rcases List.mem_append.mp logged with earlier | last
    · exact effect.gone (lists.ended e earlier w ends)
    · rw [List.mem_singleton.mp last] at ends
      rcases ends with ⟨known, inactive⟩ | ⟨id, input, found⟩
      · exact ⟨known, .inl inactive⟩
      · rw [input] at effect
        exact lists.deleted effect found

theorem mem_matchingWebhooks {s : State} {eventType : String} {w : Ref}
    (listed : w ∈ matchingWebhooks s eventType) : w ∈ s.listed ∧ s.active w = true := by
  rcases List.mem_filter.mp listed with ⟨there, fits⟩
  refine ⟨there, ?_⟩
  unfold State.active
  rw [Option.any_eq_true] at fits ⊢
  rcases fits with ⟨webhook, stored, fits⟩
  rw [Bool.and_eq_true] at fits
  exact ⟨webhook, stored, fits.1⟩

theorem listed_of_webhookOf {s : State} {d w : Ref} (found : s.webhookOf d = some w) :
    w ∈ s.listed := by
  rcases Option.bind_eq_some_iff.mp found with ⟨delivery, -, entry⟩
  exact State.mem_listed.mpr ⟨_, mem_of_lookup entry⟩

/-- A call posts to no webhook that is gone if the deliveries it retries are those of active
webhooks. -/
theorem RetriesActive.spares {event : CallEvent} (active : RetriesActive event)
    (commits : sequential.Commits event) {w : Ref} (gone : Gone event.pre w) :
    ∀ x ∈ event.output, x.webhook ≠ w := by
  rintro x given rfl
  rcases event with ⟨s, input, sent, s'⟩
  have effect := call_effect commits
  dsimp only at effect given gone
  have posted := List.mem_map_of_mem (f := Sent.webhook) given
  cases effect with
  | registered id url events now webhook _ objects webhooks deliveries => cases given
  | deleted id _ objects webhooks deliveries => cases given
  | triggered eventType eventData exchanges _ _ triggers =>
      rw [triggers.receivers] at posted
      rcases mem_matchingWebhooks posted with ⟨listed, on⟩
      rcases gone.2 with off | unlisted
      · rw [on] at off
        cases off
      · exact unlisted listed
  | retried reply exchanges _ _ retries =>
      rw [retries.receivers] at posted
      rcases List.mem_filterMap.mp posted with ⟨d, due, found⟩
      have on := active reply exchanges rfl d due x.webhook found
      rcases gone.2 with off | unlisted
      · rw [on] at off
        cases off
      · exact unlisted (listed_of_webhookOf found)

theorem silent_snoc {log : List CallEvent} {event : CallEvent} :
    Silent (log ++ [event]) ↔ Silent log ∧
      ∀ e ∈ log, ∀ w, Ends e w → ∀ x ∈ event.output, x.webhook ≠ w := by
  unfold Silent
  exact Machine.pairwise_snoc

/-- A retry of a delivery whose webhook is not active posts to a webhook that an earlier call
ended. -/
theorem Lists.active_of_silent {log : List CallEvent} {event : CallEvent}
    (lists : Lists log event.pre) (commits : sequential.Commits event)
    (silent : Silent (log ++ [event])) : RetriesActive event := by
  intro reply exchanges input d due w found
  rcases event with ⟨s, _, sent, s'⟩
  have effect := call_effect commits
  dsimp only at effect input lists due found ⊢
  subst input
  cases effect with
  | retried _ _ _ _ retries =>
      have posted : w ∈ sent.map Sent.webhook := by
        rw [retries.receivers]
        exact List.mem_filterMap.mpr ⟨d, due, found⟩
      rcases List.mem_map.mp posted with ⟨x, given, rfl⟩
      by_contra off
      rw [Bool.not_eq_true] at off
      have known := lists.known x.webhook (listed_of_webhookOf found)
      rcases lists.inactive x.webhook known off with ⟨e, logged, ends⟩
      exact (silent_snoc.mp silent).2 e logged x.webhook ends x given rfl

/-- At every moment of a run of calls, no webhook is posted to after it was deactivated or
deleted, in exactly the runs in which no retry finds a due delivery of a webhook that is not
active. -/
theorem silent_iff (inputs : List Call) :
    sequential.Always (fun log _ => Silent log) inputs ↔
      ∀ event ∈ sequential.log inputs, RetriesActive event := by
  rw [← Machine.admits_forall]
  refine sequential.always_iff_admits (fun log s => Lists log s ∧ Silent log) ⟨?_, .nil⟩ .nil
    ?_ ?_ inputs
  · exact ⟨nofun, nofun, nofun, nofun⟩
  · rintro log event ⟨lists, silent⟩ commits
    constructor
    · exact lists.active_of_silent commits
    · intro active
      exact silent_snoc.mpr ⟨silent, fun e logged w ends =>
        active.spares commits (lists.ended e logged w ends)⟩
  · rintro log event ⟨lists, silent⟩ active commits
    refine ⟨lists.step commits, silent_snoc.mpr ⟨silent, ?_⟩⟩
    exact fun e logged w ends => active.spares commits (lists.ended e logged w ends)

namespace Sample

/-- The first of two deliveries exhausts its retries while the second one is pending. -/
def exhaust : List Call :=
  [register, triggerFails "delivery_1" 0, retry 10000 false, retry 30000 false, retry 50000 false,
    triggerFails "delivery_2" 60000, retry 80000 false, retry 100000 false]

end Sample

/-- The webhook is deactivated by the first delivery, and the second one is posted again. -/
theorem exhaust_not_silent :
    ¬ sequential.Always (fun log _ => Silent log) Sample.exhaust := by
  intro always
  have silent := always Sample.exhaust [] (List.append_nil _).symm
  have spared := List.pairwise_iff_getElem.mp silent 6 7 (by decide) (by decide) (by decide) 0
    (.inl ⟨by decide, rfl⟩) _ List.mem_cons_self
  exact spared rfl

end CarbonChain.Webhooks
