import CarbonChain.Events.Notifying
import CarbonChain.Webhooks.Sequential

/-!
# From the chain to the subscribers

The cron job (`api/src/events/events.service.ts:43-62`) polls the contracts one after the
other. For each event that a fetch returns it goes through the webhooks and posts the event
to those that are subscribed to its type; at the end of the poll it retries what is due.
Here the indexer and the webhooks run as one, and a poll ends before the next one starts.
-/

namespace CarbonChain.Notifications

open Events (Action Config ContractId EventResponse SorobanEvent eventActions eventId
  parseEventType sorobanEvent)
open Webhooks (Exchange Keeps Ref Reply Sent call matchingWebhooks triggerEach)

/-- The indexer, the webhooks, and whether a poll is under way. -/
structure State where
  indexer : Events.State
  webhooks : Webhooks.State
  polling : Bool

/-- The chain and the subscribers act, or the cron job goes on. For each event of a fetch there
are the exchanges of its POSTs. -/
inductive Step where
  | emit (contractId : ContractId) (event : EventResponse)
  | registerWebhook (id url : String) (events : List String) (now : Nat)
  | deleteWebhook (id : String)
  | poll
  | fetch (answered : Bool) (exchanges : Nat → Nat → Exchange)
  | retryFailedDeliveries (reply : Reply) (exchanges : Nat → Exchange)

/-- The actions of a fetch, one after the other; the evictions do not concern the webhooks. -/
def perform (exchanges : Nat → Nat → Exchange) :
    List Action → Nat → Webhooks.State → List Sent × Webhooks.State
  | [], _, s => ([], s)
  | .triggerWebhooks eventType eventData :: actions, n, s =>
      let triggered :=
        triggerEach (exchanges n) eventType eventData (matchingWebhooks s eventType) 0 s
      let rest := perform exchanges actions (n + 1) triggered.1
      (triggered.2 ++ rest.1, rest.2)
  | .del _ :: actions, n, s => perform exchanges actions n s
  | .delPattern _ :: actions, n, s => perform exchanges actions n s

/-- The actions of a fetch are performed before the next step. -/
def exec (config : Config) (s : State) : Step → Except Unit (List Sent × State)
  | .emit contractId event =>
      match Events.exec config s.indexer (.emit contractId event) with
      | .ok (_, indexer) => .ok ([], { s with indexer })
      | .error _ => .error ()
  | .registerWebhook id url events now =>
      match call s.webhooks (.registerWebhook id url events now) with
      | .ok (sent, webhooks) => .ok (sent, { s with webhooks })
      | .error _ => .error ()
  | .deleteWebhook id =>
      match call s.webhooks (.deleteWebhook id) with
      | .ok (sent, webhooks) => .ok (sent, { s with webhooks })
      | .error _ => .error ()
  | .poll =>
      if s.polling then .error ()
      else
        match Events.exec config s.indexer .poll with
        | .ok (_, indexer) => .ok ([], { s with indexer, polling := true })
        | .error _ => .error ()
  | .fetch answered exchanges =>
      match Events.exec config s.indexer (.fetch answered) with
      | .ok (actions, indexer) =>
          let (sent, webhooks) := perform exchanges actions 0 s.webhooks
          .ok (sent, { s with indexer, webhooks })
      | .error _ => .error ()
  | .retryFailedDeliveries reply exchanges =>
      if s.polling ∧ s.indexer.remaining = [] then
        match call s.webhooks (.retryFailedDeliveries reply exchanges) with
        | .ok (sent, webhooks) => .ok (sent, { s with webhooks, polling := false })
        | .error _ => .error ()
      else .error ()

/-- The indexer and the webhooks from their start. -/
def notifier (config : Config) : Machine State Step (List Sent) Unit where
  init := ⟨(Events.indexer config).init, Webhooks.sequential.init, false⟩
  exec := exec config

abbrev NotifierEvent := Event State Step (List Sent)

/-! ## Who is subscribed -/

section Webhooks

variable {s s' : Webhooks.State} {eventType : String}

/-- A change of an object that leaves what it is subscribed to and whether it is active leaves
who is subscribed. -/
theorem matchingWebhooks_modify {changed : Ref} {f : Webhooks.Webhook → Webhooks.Webhook}
    (calm : ∀ w, (f w).active = w.active ∧ (f w).events = w.events)
    (webhooks : s'.webhooks = s.webhooks)
    (objects : s'.webhookObjects = s.webhookObjects.modify changed f) :
    matchingWebhooks s' eventType = matchingWebhooks s eventType := by
  unfold matchingWebhooks
  rw [webhooks, objects]
  apply List.filter_congr
  intro webhook _
  rw [List.getElem?_modify]
  cases s.webhookObjects[webhook]? with
  | none => rfl
  | some w =>
      simp only [Option.map_eq_map, Option.map_some, Option.any_some]
      split
      · rw [(calm w).1, (calm w).2]
      · rfl

/-- The attempt of a new delivery is its first, so that it does not deactivate the webhook. -/
theorem matchingWebhooks_deliver (exchange : Exchange) (s : Webhooks.State) (webhook : Ref)
    (type : String) (eventData : SorobanEvent) :
    matchingWebhooks (Webhooks.deliver exchange s webhook type eventData).1 eventType =
      matchingWebhooks s eventType := by
  unfold Webhooks.deliver Webhooks.settleAttempt
  dsimp only
  split
  · refine matchingWebhooks_modify ?_ rfl rfl
    exact fun w => ⟨rfl, rfl⟩
  · refine matchingWebhooks_modify ?_ rfl rfl
    intro w
    simp [Webhooks.deliverWebhook, Webhooks.attemptDelivery, Webhooks.maxRetries]

theorem matchingWebhooks_triggerEach (exchanges : Nat → Exchange) (type : String)
    (eventData : SorobanEvent) (webhooks : List Ref) (n : Nat) (s : Webhooks.State) :
    matchingWebhooks (triggerEach exchanges type eventData webhooks n s).1 eventType =
      matchingWebhooks s eventType := by
  induction webhooks generalizing n s with
  | nil => rfl
  | cons webhook remaining ih =>
      rw [triggerEach]
      dsimp only
      rw [ih, matchingWebhooks_deliver]

end Webhooks

/-! ## What a fetch posts -/

/-- The POSTs of the triggerings for some events of a contract: for each event those to the
webhooks that are subscribed to its type, in their order. -/
structure Posts (c : ContractId) (events : List EventResponse) (s s' : Webhooks.State)
    (sent : List Sent) : Prop where
  keeps : Keeps s s'
  carries : ∀ x ∈ sent, ∃ e ∈ events,
    x.post.type = parseEventType e ∧ x.post.data = .event (sorobanEvent c e)
  receivers : ∀ e ∈ events,
    (sent.filter (·.post.data = .event (sorobanEvent c e))).map Sent.webhook =
      matchingWebhooks s (parseEventType e)

theorem perform_evictions (exchanges : Nat → Nat → Exchange) {evictions : List Action}
    (evict : evictions.filterMap Action.triggers = []) (actions : List Action) (n : Nat)
    (s : Webhooks.State) :
    perform exchanges (evictions ++ actions) n s = perform exchanges actions n s := by
  induction evictions with
  | nil => rfl
  | cons action rest ih =>
      cases action with
      | del key => exact ih evict
      | delPattern pattern => exact ih evict
      | triggerWebhooks type data => cases evict

theorem perform_event (exchanges : Nat → Nat → Exchange) (c : ContractId) (e : EventResponse)
    (actions : List Action) (n : Nat) (s : Webhooks.State) :
    perform exchanges (eventActions c e ++ actions) n s =
      perform exchanges (.triggerWebhooks (parseEventType e) (sorobanEvent c e) :: actions) n
        s := by
  rw [eventActions, List.append_assoc]
  exact perform_evictions exchanges (Events.invalidations_trigger_nothing _) _ n s

/-- Events of one contract with different ids differ in what is posted. -/
theorem sorobanEvent_ne {c : ContractId} {e e' : EventResponse}
    (apart : eventId c e ≠ eventId c e') : sorobanEvent c e ≠ sorobanEvent c e' :=
  fun same => apart (congrArg SorobanEvent.id same)

theorem perform_posts (exchanges : Nat → Nat → Exchange) (c : ContractId)
    {events : List EventResponse} (distinct : (events.map (eventId c)).Nodup) (n : Nat)
    (s : Webhooks.State) :
    Posts c events s (perform exchanges (events.flatMap (eventActions c)) n s).2
      (perform exchanges (events.flatMap (eventActions c)) n s).1 := by
  induction events generalizing n s with
  | nil => exact ⟨.refl s, nofun, nofun⟩
  | cons e rest ih =>
      obtain ⟨new, distinct⟩ := List.nodup_cons.mp distinct
      rw [List.flatMap_cons, perform_event, perform]
      dsimp only
      have triggers := Webhooks.triggerEach_triggers (exchanges n) (parseEventType e)
        (sorobanEvent c e) (matchingWebhooks s (parseEventType e)) 0 s
      have subscribed := fun type => @matchingWebhooks_triggerEach type (exchanges n)
        (parseEventType e) (sorobanEvent c e) (matchingWebhooks s (parseEventType e)) 0 s
      generalize triggerEach (exchanges n) (parseEventType e) (sorobanEvent c e)
        (matchingWebhooks s (parseEventType e)) 0 s = triggered at triggers subscribed ⊢
      have later := ih distinct (n + 1) triggered.1
      have apart : ∀ e' ∈ rest, sorobanEvent c e ≠ sorobanEvent c e' := by
        intro e' listed
        exact sorobanEvent_ne fun same => new (same ▸ List.mem_map_of_mem listed)
      refine ⟨triggers.keeps.trans later.keeps, ?_, ?_⟩
      · intro x given
        rcases List.mem_append.mp given with now | then_
        · exact ⟨e, List.mem_cons_self, triggers.carries x now⟩
        · obtain ⟨e', listed, carried⟩ := later.carries x then_
          exact ⟨e', List.mem_cons_of_mem e listed, carried⟩
      · intro e' listed
        rw [List.filter_append, List.map_append]
        rcases List.mem_cons.mp listed with rfl | listed
        · have own : triggered.2.filter (·.post.data = .event (sorobanEvent c e')) = triggered.2 :=
            List.filter_eq_self.mpr fun x now => by simp [(triggers.carries x now).2]
          have others : (perform exchanges (rest.flatMap (eventActions c)) (n + 1)
              triggered.1).1.filter (·.post.data = .event (sorobanEvent c e')) = [] := by
            refine List.filter_eq_nil_iff.mpr fun x then_ => ?_
            obtain ⟨e'', listed, -, carried⟩ := later.carries x then_
            simpa [carried] using (apart e'' listed).symm
          rw [own, others, List.map_nil, List.append_nil, triggers.receivers]
        · have others : triggered.2.filter (·.post.data = .event (sorobanEvent c e')) = [] :=
            List.filter_eq_nil_iff.mpr fun x now => by
              simpa [(triggers.carries x now).2] using apart e' listed
          rw [others, List.map_nil, List.nil_append, later.receivers e' listed, subscribed]

/-! ## The map of the webhooks -/

/-- No id and no object is in the map twice, and its objects exist. -/
structure Distinct (s : Webhooks.State) : Prop where
  ids : (s.webhooks.map Prod.fst).Nodup
  objects : s.listed.Nodup
  known : ∀ w ∈ s.listed, w < s.webhookObjects.length

theorem ids_mapSet {map : List (String × Ref)} (ids : (map.map Prod.fst).Nodup) (key : String)
    (ref : Ref) : ((Webhooks.mapSet map key ref).map Prod.fst).Nodup := by
  unfold Webhooks.mapSet
  split
  · have same : (map.map fun entry => if entry.1 = key then (key, ref) else entry).map Prod.fst =
        map.map Prod.fst := by
      rw [List.map_map]
      apply List.map_congr_left
      intro entry _
      dsimp only [Function.comp_apply]
      split
      · next same => exact same.symm
      · rfl
    rw [same]
    exact ids
  · next absent =>
      rw [List.map_append, List.map_singleton, ← List.concat_eq_append, List.nodup_concat]
      refine ⟨?_, ids⟩
      intro present
      obtain ⟨entry, listed, same⟩ := List.mem_map.mp present
      exact absent (List.any_eq_true.mpr ⟨entry, listed, by simpa using same⟩)

/-- A new object takes the place of the one under its id, or the last place. -/
theorem objects_mapSet {map : List (String × Ref)} (ids : (map.map Prod.fst).Nodup)
    (objects : (map.map Prod.snd).Nodup) (key : String) {ref : Ref}
    (new : ref ∉ map.map Prod.snd) : ((Webhooks.mapSet map key ref).map Prod.snd).Nodup := by
  unfold Webhooks.mapSet
  split
  · rw [List.map_map]
    unfold List.Nodup at ids objects ⊢
    rw [List.pairwise_map] at ids objects ⊢
    refine (ids.and objects).imp_of_mem ?_
    rintro a b listed listed' ⟨apart, apart'⟩
    have fresh : ∀ entry ∈ map, ref ≠ entry.2 :=
      fun entry member same => new (same ▸ List.mem_map_of_mem member)
    dsimp only [Function.comp_apply]
    split
    · next same =>
        rw [if_neg fun same' => apart (same.trans same'.symm)]
        exact fresh b listed'
    · split
      · exact (fresh a listed).symm
      · exact apart'
  · rw [List.map_append, List.map_singleton, ← List.concat_eq_append, List.nodup_concat]
    exact ⟨new, objects⟩

theorem Distinct.of_keeps {s s' : Webhooks.State} (distinct : Distinct s) (keeps : Keeps s s') :
    Distinct s' := by
  obtain ⟨ids, objects, known⟩ := distinct
  unfold Webhooks.State.listed at objects known
  rw [← keeps.webhooks] at ids objects known
  rw [← keeps.known] at known
  exact ⟨ids, objects, known⟩

theorem Distinct.call {s s' : Webhooks.State} {input : Webhooks.Call} {sent : List Sent}
    (distinct : Distinct s) (h : call s input = .ok (sent, s')) : Distinct s' := by
  have effect := Webhooks.call_effect h
  cases effect with
  | registered id url events now webhook _ objects webhooks deliveries =>
      have new : s.webhookObjects.length ∉ s.listed :=
        fun listed => Nat.lt_irrefl _ (distinct.known _ listed)
      refine ⟨?_, ?_, ?_⟩
      · rw [webhooks]
        exact ids_mapSet distinct.ids id _
      · rw [Webhooks.State.listed, webhooks]
        exact objects_mapSet distinct.ids distinct.objects id new
      · intro w listed
        obtain ⟨key, entry⟩ := Webhooks.State.mem_listed.mp listed
        rw [webhooks] at entry
        rw [objects, List.length_append, List.length_singleton]
        rcases Webhooks.mem_mapSet entry with same | old
        · cases same
          exact Nat.lt_succ_self _
        · have known := distinct.known w (Webhooks.State.mem_listed.mpr ⟨key, old⟩)
          exact Nat.lt_succ_of_lt known
  | deleted id _ objects webhooks deliveries =>
      have part : s'.webhooks.Sublist s.webhooks := by
        rw [webhooks]
        exact List.filter_sublist
      refine ⟨distinct.ids.sublist (part.map _), distinct.objects.sublist (part.map _), ?_⟩
      intro w listed
      rw [objects]
      exact distinct.known w ((part.map Prod.snd).subset listed)
  | triggered eventType eventData exchanges _ _ triggers => exact distinct.of_keeps triggers.keeps
  | retried reply exchanges _ _ retries => exact distinct.of_keeps retries.keeps

/-! ## What a step does -/

/-- The step of the indexer that a step makes. -/
def Step.indexing : Step → Option Events.Step
  | .emit contractId event => some (.emit contractId event)
  | .poll => some .poll
  | .fetch answered _ => some (.fetch answered)
  | _ => none

/-- The event is a fetch of the contract that returns `e`. -/
def Indexes (event : NotifierEvent) (c : ContractId) (e : EventResponse) : Prop :=
  ∃ answered, event.input.indexing = some (.fetch answered) ∧
    event.pre.indexer.remaining.head? = some c ∧ e ∈ event.pre.indexer.batch c answered

variable {config : Config} {s s' : State} {input : Step} {sent : List Sent}

/-- What a step does: to the chain or the cursor, to the webhooks, or, as a fetch, to both. -/
inductive Effect (config : Config) (s : State) : Step → List Sent → State → Prop where
  | indexed (step : Step) (st : Events.Step) (indexing : step.indexing = some st)
      (other : ∀ answered, st ≠ .fetch answered) (actions : List Action) (indexer : Events.State)
      (ran : Events.exec config s.indexer st = .ok (actions, indexer)) (polling : Bool) :
      Effect config s step [] { s with indexer, polling }
  | called (step : Step) (indexing : step.indexing = none) (input : Webhooks.Call)
      (sent : List Sent) (webhooks : Webhooks.State)
      (ran : call s.webhooks input = .ok (sent, webhooks))
      (silent : ∀ x ∈ sent, ∀ data, x.post.data ≠ .event data) (polling : Bool) :
      Effect config s step sent { s with webhooks, polling }
  | fetched (answered : Bool) (exchanges : Nat → Nat → Exchange) (c : ContractId)
      (next : s.indexer.remaining.head? = some c) (actions : List Action)
      (indexer : Events.State)
      (ran : Events.exec config s.indexer (.fetch answered) = .ok (actions, indexer))
      (webhooks : Webhooks.State) (sent : List Sent)
      (posts : Posts c (s.indexer.batch c answered) s.webhooks webhooks sent) :
      Effect config s (.fetch answered exchanges) sent { s with indexer, webhooks }

theorem retry_silent {s s' : Webhooks.State} {reply : Reply} {exchanges : Nat → Exchange}
    (h : call s (.retryFailedDeliveries reply exchanges) = .ok (sent, s')) :
    ∀ x ∈ sent, ∀ data, x.post.data ≠ .event data := by
  intro x given data carried
  have effect := Webhooks.call_effect h
  cases effect with
  | retried _ _ _ _ retries =>
      obtain ⟨deliveryId, retried⟩ := retries.retried x given
      rw [retried] at carried
      cases carried

theorem exec_effect (h : exec config s input = .ok (sent, s')) :
    Effect config s input sent s' := by
  cases input with
  | emit contractId event =>
      simp only [exec] at h
      split at h
      · next actions indexer ran =>
          cases h
          exact .indexed _ (.emit contractId event) rfl (by simp) actions indexer ran s.polling
      · cases h
  | registerWebhook id url events now =>
      simp only [exec] at h
      split at h
      · next sent webhooks ran =>
          cases h
          refine .called _ rfl _ _ _ ran ?_ s.polling
          cases ran
          exact nofun
      · cases h
  | deleteWebhook id =>
      simp only [exec] at h
      split at h
      · next sent webhooks ran =>
          cases h
          refine .called _ rfl _ _ _ ran ?_ s.polling
          cases ran
          exact nofun
      · cases h
  | poll =>
      simp only [exec] at h
      split at h
      · cases h
      · split at h
        · next actions indexer ran =>
            cases h
            exact .indexed _ .poll rfl (by simp) actions indexer ran true
        · cases h
  | fetch answered exchanges =>
      simp only [exec] at h
      split at h
      · next actions indexer ran =>
          cases h
          have effect := Events.exec_effect ran
          cases effect with
          | fetched c rest _ next =>
              have head : s.indexer.remaining.head? = some c := by rw [next, List.head?_cons]
              have distinct := Events.batch_distinct s.indexer c answered
              exact .fetched answered exchanges c head _ _ ran _ _
                (perform_posts exchanges c distinct 0 s.webhooks)
      · cases h
  | retryFailedDeliveries reply exchanges =>
      simp only [exec] at h
      split at h
      · split at h
        · next sent webhooks ran =>
            cases h
            exact .called _ rfl _ _ _ ran (retry_silent ran) false
        · cases h
      · cases h

theorem Effect.distinct (effect : Effect config s input sent s') (distinct : Distinct s.webhooks) :
    Distinct s'.webhooks := by
  cases effect with
  | indexed => exact distinct
  | called _ _ input _ _ ran => exact distinct.call ran
  | fetched answered exchanges c next actions indexer ran webhooks _ posts =>
      exact distinct.of_keeps posts.keeps

/-- What a step does to the indexer is a step of the indexer, or nothing. -/
theorem Effect.indexer (effect : Effect config s input sent s') :
    (∃ st actions, input.indexing = some st ∧
      Events.exec config s.indexer st = .ok (actions, s'.indexer)) ∨
    input.indexing = none ∧ s'.indexer = s.indexer := by
  cases effect with
  | indexed _ st indexing _ actions _ ran => exact .inl ⟨st, actions, indexing, ran⟩
  | called _ indexing => exact .inr ⟨indexing, rfl⟩
  | fetched answered exchanges c next actions indexer ran => exact .inl ⟨_, actions, rfl, ran⟩

/-! ## Runs -/

/-- The events of the chain that are in the map of the indexer came from fetches of the log, and
what fetches returned stays on the chain. -/
structure Tracked (config : Config) (log : List NotifierEvent) (s : State) : Prop where
  sound : s.indexer.Sound
  distinct : Distinct s.webhooks
  configured : ∀ c ∈ s.indexer.remaining, c ∈ config.contractIds
  present : ∀ c e, s.indexer.Present c e → ∃ event ∈ log, ∃ e', Indexes event c e' ∧
    eventId c e' = eventId c e
  kept : ∀ event ∈ log, ∀ c e, Indexes event c e → e ∈ (s.indexer.chain c).entries

section Indexer

variable {s s' : Events.State} {st : Events.Step} {actions : List Action}

theorem chain_grows (effect : Events.Effect config s st actions s') {c : ContractId}
    {e : EventResponse} (listed : e ∈ (s.chain c).entries) : e ∈ (s'.chain c).entries := by
  cases effect with
  | emitted c' x accepts =>
      dsimp only
      by_cases same : c = c'
      · subst same
        rw [Function.update_self, Feed.mem_append]
        exact .inl listed
      · rw [Function.update_of_ne same]
        exact listed
  | polled idle => exact listed
  | fetched c' rest answered next => exact listed

theorem remaining_configured (effect : Events.Effect config s st actions s')
    (configured : ∀ c ∈ s.remaining, c ∈ config.contractIds) :
    ∀ c ∈ s'.remaining, c ∈ config.contractIds := by
  cases effect with
  | emitted c' x accepts => exact configured
  | polled idle => exact fun _ listed => listed
  | fetched c' rest answered next =>
      intro c later
      apply configured
      rw [next]
      exact List.mem_cons_of_mem c' later

/-- What comes into the map is what a fetch returns. -/
theorem present_cases (effect : Events.Effect config s st actions s') {c : ContractId}
    {e : EventResponse} (present : s'.Present c e) :
    s.Present c e ∨ ∃ answered, st = .fetch answered ∧ s.remaining.head? = some c ∧
      ∃ e' ∈ s.batch c answered, eventId c e' = eventId c e := by
  cases effect with
  | emitted c' x accepts => exact .inl present
  | polled idle => exact .inl present
  | fetched c' rest answered next =>
      rcases (Events.indexContractEvents_lookup _ _ _ _).mp present with before | ⟨e', read, same⟩
      · exact .inl before
      · obtain rfl := (Events.eventId_inj.mp same).1
        exact .inr ⟨answered, rfl, by rw [next, List.head?_cons], e', read, same⟩

end Indexer

/-- A fetch returns events that are on the chain. -/
theorem Indexes.listed {event : NotifierEvent} {c : ContractId} {e : EventResponse}
    (indexes : Indexes event c e) : e ∈ (event.pre.indexer.chain c).entries := by
  obtain ⟨answered, -, -, read⟩ := indexes
  exact (Feed.mem_of_window (Events.mem_batch read).2).1

theorem Tracked.step {log : List NotifierEvent} {event : NotifierEvent}
    (tracked : Tracked config log event.pre) (commits : (notifier config).Commits event) :
    Tracked config (log ++ [event]) event.post := by
  have effect := exec_effect commits
  have distinct := effect.distinct tracked.distinct
  rcases effect.indexer with ⟨st, actions, indexing, ran⟩ | ⟨indexing, same⟩
  · have moved := Events.exec_effect ran
    refine ⟨moved.sound tracked.sound, distinct,
      remaining_configured moved tracked.configured, ?_, ?_⟩
    · intro c e present
      rcases present_cases moved present with before | ⟨answered, rfl, next, e', read, its⟩
      · obtain ⟨earlier, logged, e', indexes, its⟩ := tracked.present c e before
        exact ⟨earlier, List.mem_append_left _ logged, e', indexes, its⟩
      · exact ⟨event, List.mem_concat_self, e', ⟨answered, indexing, next, read⟩, its⟩
    · intro earlier logged c e indexes
      apply chain_grows moved
      rcases List.mem_append.mp logged with before | last
      · exact tracked.kept earlier before c e indexes
      · rw [List.mem_singleton.mp last] at indexes
        exact indexes.listed
  · refine ⟨?_, distinct, ?_, ?_, ?_⟩
    · rw [same]
      exact tracked.sound
    · rw [same]
      exact tracked.configured
    · intro c e present
      rw [same] at present
      obtain ⟨earlier, logged, found⟩ := tracked.present c e present
      exact ⟨earlier, List.mem_append_left _ logged, found⟩
    · intro earlier logged c e indexes
      rw [same]
      rcases List.mem_append.mp logged with before | last
      · exact tracked.kept earlier before c e indexes
      · rw [List.mem_singleton.mp last] at indexes
        exact indexes.listed

theorem tracked (config : Config) (inputs : List Step) :
    Tracked config ((notifier config).log inputs) ((notifier config).state inputs) := by
  refine (notifier config).run_induct (Tracked config) ?_
    (fun _ _ tracked commits => tracked.step commits) inputs
  refine ⟨Events.sound_init config, ⟨List.nodup_nil, List.nodup_nil, nofun⟩, nofun, ?_, nofun⟩
  exact fun c e present => absurd rfl present

/-- The step of the indexer keeps up with the chain. -/
def KeepsUp (config : Config) (event : NotifierEvent) : Prop :=
  ∀ st, event.input.indexing = some st →
    Events.KeepsUp config ⟨event.pre.indexer, st, [], event.post.indexer⟩

instance (config : Config) (event : NotifierEvent) : Decidable (KeepsUp config event) :=
  inferInstanceAs (Decidable (∀ st ∈ event.input.indexing, Events.KeepsUp config _))

theorem complete (inputs : List Step)
    (keepsUp : ∀ event ∈ (notifier config).log inputs, KeepsUp config event) :
    ((notifier config).state inputs).indexer.Complete config := by
  refine ((notifier config).run_induct_of (fun _ event => KeepsUp config event)
    (fun _ s => s.indexer.Sound ∧ s.indexer.Complete config) ?_ ?_ inputs
    (Machine.admits_forall.mpr keepsUp)).2
  · exact ⟨Events.sound_init config, fun _ _ _ _ before => absurd before (Nat.not_lt_zero _)⟩
  · rintro log event ⟨sound, complete⟩ keepsUp commits
    rcases (exec_effect commits).indexer with ⟨st, actions, indexing, ran⟩ | ⟨-, same⟩
    · refine ⟨(Events.exec_effect ran).sound sound, ?_⟩
      let moved : Event Events.State Events.Step (List Action) :=
        ⟨event.pre.indexer, st, actions, event.post.indexer⟩
      exact (@Events.complete_step config moved sound complete ran).mpr (keepsUp st indexing)
    · rw [same]
      exact ⟨sound, complete⟩

/-- In every run, a fetch posts each event that it returns to exactly the webhooks that are
subscribed to its type at that time, once to each, and nothing else posts an event: what is
posted is on the chain, of a configured contract. In the runs that keep up, each event of a
configured contract below the cursor has been fetched, and so posted to all of its subscribers. -/
theorem events_notified (config : Config) (inputs : List Step) :
    (∀ event ∈ (notifier config).log inputs,
      (∀ type, (matchingWebhooks event.pre.webhooks type).Nodup) ∧
      (∀ c e, Indexes event c e →
        (event.output.filter (·.post.data = .event (sorobanEvent c e))).map Sent.webhook =
          matchingWebhooks event.pre.webhooks (parseEventType e)) ∧
      ∀ x ∈ event.output, ∀ data, x.post.data = .event data →
        ∃ c ∈ config.contractIds, ∃ e ∈ (event.pre.indexer.chain c).entries,
          Indexes event c e ∧ data = sorobanEvent c e ∧ x.post.type = parseEventType e) ∧
    ((∀ event ∈ (notifier config).log inputs, KeepsUp config event) →
      ∀ c ∈ config.contractIds, ∀ e ∈ (((notifier config).state inputs).indexer.chain c).entries,
        e.ledger < ((notifier config).state inputs).indexer.service.lastLedger →
          ∃ event ∈ (notifier config).log inputs, Indexes event c e) := by
  constructor
  · intro event logged
    obtain ⟨before, after, split⟩ := List.append_of_mem logged
    obtain ⟨earlier, later, -, -, reached, commits⟩ := (notifier config).log_split split
    have before := tracked config earlier
    rw [reached] at before
    refine ⟨fun type => before.distinct.objects.sublist List.filter_sublist, ?_⟩
    have effect := exec_effect commits
    rcases event with ⟨s, input, sent, s'⟩
    dsimp only at before effect ⊢
    cases effect with
    | indexed _ st indexing other =>
        refine ⟨?_, nofun⟩
        rintro c e ⟨answered, fetches, -, -⟩
        rw [indexing] at fetches
        exact absurd (Option.some.inj fetches) (other answered)
    | called _ indexing input _ webhooks ran silent =>
        refine ⟨?_, fun x given data carried => absurd carried (silent x given data)⟩
        rintro c e ⟨answered, fetches, -, -⟩
        rw [indexing] at fetches
        cases fetches
    | fetched answered exchanges c next actions indexer ran webhooks _ posts =>
        refine ⟨?_, ?_⟩
        · rintro c' e ⟨answered', fetches, next', read⟩
          cases fetches
          obtain rfl := Option.some.inj (next.symm.trans next')
          exact posts.receivers e read
        · intro x given data carried
          obtain ⟨e, read, type, carries⟩ := posts.carries x given
          rw [carries] at carried
          cases carried
          refine ⟨c, before.configured c (List.mem_of_head? next), e, ?_,
            ⟨answered, rfl, next, read⟩, rfl, type⟩
          exact (Feed.mem_of_window (Events.mem_batch read).2).1
  · intro keepsUp c configured e listed below
    have after := tracked config inputs
    have present := complete inputs keepsUp c configured e listed below
    obtain ⟨event, logged, e', indexes, same⟩ := after.present c e present
    have its := (Events.eventId_inj.mp same).2
    have found := List.inj_on_of_nodup_map
      (((notifier config).state inputs).indexer.chain c).distinct
      (after.kept event logged c e' indexes) listed (Prod.ext its.1 its.2)
    exact ⟨event, logged, found ▸ indexes⟩

namespace Sample

open Events.Sample (registry minted)

/-- The registry emits one more event after the first. -/
def mintedNext : EventResponse := { minted with id := "11-1", ledger := 11 }

/-- A webhook is registered, the registry emits two events, and a poll runs to its end. -/
def pollOnce : List Step :=
  [.registerWebhook "webhook_0" "url" ["CreditMinted"] 0, .emit registry minted,
   .emit registry mintedNext, .poll,
   .fetch true fun n _ => Webhooks.Sample.exchange s!"delivery_{n}" 0 true,
   .fetch true fun n _ => Webhooks.Sample.exchange s!"delivery_{n}" 0 true,
   .retryFailedDeliveries ⟨0, "", true⟩ fun _ => Webhooks.Sample.exchange "" 0 true]

end Sample

open Events.Sample (registry minted) in
/-- The run keeps up, and the event below the cursor was posted to the one webhook. -/
theorem pollOnce_notified :
    (∀ event ∈ (notifier Events.Sample.config).log Sample.pollOnce,
      KeepsUp Events.Sample.config event) ∧
    ∃ event ∈ (notifier Events.Sample.config).log Sample.pollOnce, Indexes event registry minted ∧
      (event.output.filter (·.post.data = .event (sorobanEvent registry minted))).map
        Sent.webhook = matchingWebhooks event.pre.webhooks "CreditMinted" := by
  have keepsUp : ∀ event ∈ (notifier Events.Sample.config).log Sample.pollOnce,
      KeepsUp Events.Sample.config event := by decide
  obtain ⟨posts, completes⟩ := events_notified Events.Sample.config Sample.pollOnce
  obtain ⟨event, logged, indexes⟩ :=
    completes keepsUp registry (by decide) minted (by decide) (by decide)
  exact ⟨keepsUp, event, logged, indexes, (posts event logged).2.1 registry minted indexes⟩

end CarbonChain.Notifications
