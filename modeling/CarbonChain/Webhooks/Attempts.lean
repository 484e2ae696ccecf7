import CarbonChain.Webhooks.Service

/-!
# What a run does to the deliveries

`exec_effect` says once what a step of the service does to the delivery objects and to the
POSTs in flight: a run that goes on settles the attempt that it waits for, starts the first
attempt of a new delivery, retries a delivery, or does none of these.
-/

namespace CarbonChain.Webhooks

variable (reply : Reply) (s : State)

/-- The attempt whose POST a task waits for. -/
def Task.attempt : Task → Option Attempt
  | .triggering attempt _ _ _ _ | .retrying attempt _ => attempt
  | _ => none

/-- The delivery whose POST the `i`-th run waits for. -/
def State.flight (i : Nat) : Option Ref :=
  (s.tasks[i]?.bind Task.attempt).map Attempt.delivery

/-- The status of a delivery object. -/
def State.statusOf (delivery : Ref) : Option DeliveryStatus :=
  s.deliveryObjects[delivery]?.map WebhookDelivery.status

/-- The first delivery of a list whose webhook is not deleted. -/
def State.firstOf (deliveries : List Ref) : Option Ref :=
  deliveries.find? fun delivery => (s.webhookOf delivery).isSome

/-- The delivery that a task retries when it goes on. -/
def State.nextRetry : Task → Option Ref
  | .indexing [] => s.firstOf (pendingDeliveries reply s)
  | .retrying none remaining => s.firstOf remaining
  | _ => none

/-- A delivery as its next attempt starts. -/
def WebhookDelivery.start (d : WebhookDelivery) : WebhookDelivery :=
  { d with attempts := d.attempts + 1, lastAttemptAt := some reply.now }

/-- A delivery as its POST ends. -/
def WebhookDelivery.settle (d : WebhookDelivery) : WebhookDelivery :=
  if reply.succeeded then { d with status := .success } else d.afterFailure reply

/-- What comes of a task that waits for `waits` and would retry `next`: the delivery objects,
the attempt that it waits for after it, and the POST that starts. -/
inductive Resumes (waits : Option Attempt) (next : Option Ref) :
    List WebhookDelivery → Option Attempt → Option Post → Prop where
  | passed (free : waits = none) (idle : next = none) :
      Resumes waits next s.deliveryObjects none none
  | settled (attempt : Attempt) (waiting : waits = some attempt) (idle : next = none) :
      Resumes waits next
        (s.deliveryObjects.modify attempt.delivery (WebhookDelivery.settle reply)) none none
  | triggered (created : WebhookDelivery) (attempt : Attempt) (post : Post)
      (free : waits = none) (idle : next = none)
      (fresh : attempt.delivery = s.deliveryObjects.length)
      (posted : post.delivery = attempt.delivery)
      (pending : created.status = .pending) (unposted : created.attempts = 0) :
      Resumes waits next
        ((s.deliveryObjects ++ [created]).modify attempt.delivery (WebhookDelivery.start reply))
        (some attempt) (some post)
  | retried (attempt : Attempt) (post : Post)
      (free : waits = none) (taken : next = some attempt.delivery)
      (stored : s.deliveryObjects[attempt.delivery]? ≠ none)
      (posted : post.delivery = attempt.delivery) :
      Resumes waits next
        (s.deliveryObjects.modify attempt.delivery (WebhookDelivery.start reply))
        (some attempt) (some post)

/-- What a step of the service does to the delivery objects and the POSTs in flight. -/
inductive Effect : Step → Option Post → State → Prop where
  | outside (step : Step) (s' : State) (calls : ∀ i reply, step ≠ .resume i reply)
      (objects : s'.deliveryObjects = s.deliveryObjects) (flights : s'.flight = s.flight) :
      Effect step none s'
  | resumed (i : Nat) (reply : Reply) (task : Task) (attempt : Option Attempt)
      (post : Option Post) (s' : State) (running : s.tasks[i]? = some task)
      (resumes : Resumes reply s task.attempt (s.nextRetry reply task) s'.deliveryObjects
        attempt post)
      (flights : s'.flight = Function.update s.flight i (attempt.map Attempt.delivery)) :
      Effect (.resume i reply) post s'

variable {reply s}

theorem settleAttempt_deliveryObjects (attempt : Attempt) :
    (settleAttempt reply s attempt).deliveryObjects =
      s.deliveryObjects.modify attempt.delivery (WebhookDelivery.settle reply) := by
  unfold settleAttempt WebhookDelivery.settle
  split <;> rfl

theorem settleAttempt_tasks (attempt : Attempt) :
    (settleAttempt reply s attempt).tasks = s.tasks := by
  unfold settleAttempt
  split <;> rfl

theorem triggerLoop_resumes (remaining : List Ref) (eventType : String)
    (eventData : Events.SorobanEvent) (events : List Events.SorobanEvent) :
    Resumes reply s none none
      (triggerLoop reply s remaining eventType eventData events).1.deliveryObjects
      (triggerLoop reply s remaining eventType eventData events).2.1.attempt
      (triggerLoop reply s remaining eventType eventData events).2.2 := by
  cases remaining with
  | nil => exact .passed rfl rfl
  | cons webhook remaining =>
      exact .triggered _ ⟨webhook, s.deliveryObjects.length⟩ _ rfl rfl rfl rfl rfl rfl

theorem triggerLoop_tasks (remaining : List Ref) (eventType : String)
    (eventData : Events.SorobanEvent) (events : List Events.SorobanEvent) :
    (triggerLoop reply s remaining eventType eventData events).1.tasks = s.tasks := by
  cases remaining <;> rfl

theorem retryLoop_resumes (remaining : List Ref) :
    Resumes reply s none (s.firstOf remaining) (retryLoop reply s remaining).1.deliveryObjects
      (retryLoop reply s remaining).2.1.attempt (retryLoop reply s remaining).2.2 := by
  induction remaining with
  | nil => exact .passed rfl rfl
  | cons delivery remaining ih =>
      cases found : s.webhookOf delivery with
      | none =>
          have next : s.firstOf (delivery :: remaining) = s.firstOf remaining := by
            simp [State.firstOf, found]
          have loop : retryLoop reply s (delivery :: remaining) = retryLoop reply s remaining := by
            rw [retryLoop, found]
          rw [next, loop]
          exact ih
      | some webhook =>
          have next : s.firstOf (delivery :: remaining) = some delivery := by
            simp [State.firstOf, found]
          have stored : s.deliveryObjects[delivery]? ≠ none := by
            intro absent
            rw [State.webhookOf, absent] at found
            cases found
          rw [retryLoop, found, next]
          exact .retried ⟨webhook, delivery⟩ _ rfl rfl stored rfl

theorem retryLoop_tasks (remaining : List Ref) :
    (retryLoop reply s remaining).1.tasks = s.tasks := by
  induction remaining with
  | nil => rfl
  | cons delivery remaining ih =>
      rw [retryLoop]
      split
      · exact ih
      · rfl

theorem resumeTask_resumes (task : Task) :
    Resumes reply s task.attempt (s.nextRetry reply task)
      (resumeTask reply s task).1.deliveryObjects (resumeTask reply s task).2.1.attempt
      (resumeTask reply s task).2.2 := by
  cases task with
  | indexing events =>
      cases events with
      | nil => exact retryLoop_resumes _
      | cons event events => exact triggerLoop_resumes _ _ _ _
  | triggering attempt remaining eventType eventData events =>
      cases attempt with
      | none => exact triggerLoop_resumes _ _ _ _
      | some attempt =>
          simp only [resumeTask, settleAttempt_deliveryObjects]
          exact .settled attempt rfl rfl
  | retrying attempt remaining =>
      cases attempt with
      | none => exact retryLoop_resumes _
      | some attempt =>
          simp only [resumeTask, settleAttempt_deliveryObjects]
          exact .settled attempt rfl rfl
  | done => exact .passed rfl rfl

theorem resumeTask_tasks (task : Task) : (resumeTask reply s task).1.tasks = s.tasks := by
  unfold resumeTask
  split
  · exact triggerLoop_tasks _ _ _ _
  · exact retryLoop_tasks _
  · exact settleAttempt_tasks _
  · exact triggerLoop_tasks _ _ _ _
  · exact settleAttempt_tasks _
  · exact retryLoop_tasks _
  · rfl

theorem exec_effect {step : Step} {post : Option Post} {s' : State}
    (h : exec s step = .ok (post, s')) : Effect s step post s' := by
  cases step with
  | registerWebhook id url events now =>
      cases h
      exact .outside _ _ (by simp) rfl rfl
  | deleteWebhook id =>
      cases h
      exact .outside _ _ (by simp) rfl rfl
  | indexEvents events =>
      cases h
      refine .outside _ _ (by simp) rfl ?_
      funext i
      -- the new run waits for nothing
      simp only [State.flight, List.getElem?_append, List.getElem?_singleton]
      split
      · rfl
      · rename_i beyond
        rw [List.getElem?_eq_none (Nat.le_of_not_lt beyond)]
        split <;> rfl
  | resume i reply =>
      rw [exec] at h
      split at h
      · cases h
      · rename_i task running
        have resumes : Resumes reply s task.attempt (s.nextRetry reply task)
            (resumeTask reply s task).1.deliveryObjects (resumeTask reply s task).2.1.attempt
            (resumeTask reply s task).2.2 := resumeTask_resumes task
        have tasks : (resumeTask reply s task).1.tasks = s.tasks := resumeTask_tasks task
        generalize resumeTask reply s task = result at h resumes tasks
        cases h
        refine .resumed i reply task _ _ _ running resumes ?_
        funext j
        obtain ⟨inside, -⟩ := List.getElem?_eq_some_iff.mp running
        rw [Function.update_apply]
        by_cases here : j = i
        · simp [State.flight, tasks, here, inside]
        · simp [State.flight, tasks, here, List.getElem?_set_ne (Ne.symm here)]

/-- A run goes on whenever there is one. -/
theorem exec_resumes {i : Nat} {task : Task} (running : s.tasks[i]? = some task)
    (reply : Reply) :
    ∃ post s', exec s (.resume i reply) = .ok (post, s') := by
  rw [exec, running]
  exact ⟨_, _, rfl⟩

end CarbonChain.Webhooks
