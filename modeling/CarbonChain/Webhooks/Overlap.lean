import CarbonChain.Events.Indexing
import CarbonChain.Misc.Keyed
import CarbonChain.Webhooks.Attempts

/-!
# Overlapping runs

`retryFailedDeliveries` (`api/src/webhooks/webhooks.service.ts:141-159`) goes through the
deliveries that were pending before its first POST, and looks at none of them again. While
one of its POSTs is in flight another run can post the same delivery, settle it, or take it
into a list of its own.
-/

namespace CarbonChain.Webhooks

abbrev Log := List (Event State Step (Option Post))

/-- The deliveries that were posted, once for each POST. -/
def posted (log : Log) : List Ref :=
  log.filterMap fun event => event.output.map Post.delivery

/-- Deliveries are attempted at most `MAX_RETRIES` times, and their end is final. -/
structure Reliable (log : Log) : Prop where
  bounded : ∀ d, (posted log).count d ≤ maxRetries
  closed : log.Pairwise fun event later => ∀ d,
    event.post.statusOf d = some .success → later.output.map Post.delivery ≠ some d
  final : log.Pairwise fun event later => ∀ d status,
    event.post.statusOf d = some status → status ≠ .pending → later.post.statusOf d = some status

/-- A delivery that a task takes for a retry is pending, and no POST of it is in flight. -/
def Rechecks (event : Event State Step (Option Post)) : Prop :=
  ∀ i reply, event.input = .resume i reply → ∀ task, event.pre.tasks[i]? = some task →
    ∀ d, event.pre.nextRetry reply task = some d →
      event.pre.statusOf d = some .pending ∧ ∀ j, event.pre.flight j ≠ some d

/-- A POST in flight ends. -/
def Lands (event : Event State Step (Option Post)) : Prop :=
  ∃ i reply, event.input = .resume i reply ∧ event.pre.flight i ≠ none

/-- The log stays reliable whatever comes of the POSTs in flight. -/
def LandsReliably (inputs : List Step) : Prop :=
  ∀ landings landed, service.log (inputs ++ landings) = service.log inputs ++ landed →
    (∀ event ∈ landed, Lands event) → Reliable (service.log (inputs ++ landings))

theorem posted_snoc (log : Log) (event : Event State Step (Option Post)) :
    posted (log ++ [event]) = posted log ++ (event.output.map Post.delivery).toList := by
  unfold posted
  cases h : event.output <;> simp [h]

theorem reliable_snoc {log : Log} {event : Event State Step (Option Post)} :
    Reliable (log ++ [event]) ↔ Reliable log ∧
      (∀ d, (posted (log ++ [event])).count d ≤ maxRetries) ∧
      (∀ e ∈ log, ∀ d, e.post.statusOf d = some .success →
        event.output.map Post.delivery ≠ some d) ∧
      (∀ e ∈ log, ∀ d status, e.post.statusOf d = some status → status ≠ .pending →
        event.post.statusOf d = some status) := by
  constructor
  · rintro ⟨bounded, closed, final⟩
    rw [Machine.pairwise_snoc] at closed final
    refine ⟨⟨?_, closed.1, final.1⟩, bounded, ?_, ?_⟩
    · intro d
      have more := bounded d
      rw [posted_snoc, List.count_append] at more
      omega
    · exact closed.2
    · exact final.2
  · rintro ⟨reliable, bounded, closed, final⟩
    refine ⟨bounded, ?_, ?_⟩
    · exact Machine.pairwise_snoc.mpr ⟨reliable.closed, closed⟩
    · exact Machine.pairwise_snoc.mpr ⟨reliable.final, final⟩

/-! ## One delivery -/

/-- What holds of a delivery with a POST in flight or none. -/
def WebhookDelivery.Fits (d : WebhookDelivery) (flying : Prop) : Prop :=
  d.attempts ≤ maxRetries ∧
    match d.status with
    | .pending => flying ∨ d.attempts < maxRetries
    | .success => ¬ flying
    | .failed => ¬ flying ∧ maxRetries ≤ d.attempts

theorem WebhookDelivery.Fits.settle {d : WebhookDelivery} {flying : Prop} (fits : d.Fits flying)
    (reply : Reply) : (d.settle reply).Fits False := by
  have bounded := fits.1
  unfold WebhookDelivery.settle WebhookDelivery.afterFailure
  split
  · exact ⟨bounded, not_false⟩
  · split
    · rename_i few
      exact ⟨bounded, .inr few⟩
    · rename_i many
      exact ⟨bounded, not_false, Nat.le_of_not_lt many⟩

theorem WebhookDelivery.Fits.start {d : WebhookDelivery} (fits : d.Fits False)
    (pending : d.status = .pending) (reply : Reply) : (d.start reply).Fits True := by
  obtain ⟨-, open_⟩ := fits
  simp only [pending, false_or] at open_
  refine ⟨open_, ?_⟩
  simp only [WebhookDelivery.start, pending]
  exact .inl trivial

/-- A delivery whose POST is in flight is pending. -/
theorem WebhookDelivery.Fits.pending {d : WebhookDelivery} {flying : Prop} (fits : d.Fits flying)
    (flies : flying) : d.status = .pending := by
  obtain ⟨-, fits⟩ := fits
  cases status : d.status with
  | pending => rfl
  | success => simp only [status] at fits; exact absurd flies fits
  | failed => simp only [status] at fits; exact absurd flies fits.1

/-! ## All deliveries -/

/-- The deliveries count the POSTs and fit what is in flight. -/
structure Tracked (posts : List Ref) (objects : List WebhookDelivery)
    (flight : Nat → Option Ref) : Prop where
  counted : ∀ d : Ref, posts.count d = objects[d]?.elim 0 WebhookDelivery.attempts
  fits : ∀ (d : Ref) (delivery : WebhookDelivery), objects[d]? = some delivery →
    delivery.Fits (∃ i, flight i = some d)
  stored : ∀ i d, flight i = some d → objects[d]? ≠ none
  single : ∀ i j d, flight i = some d → flight j = some d → i = j

variable {posts : List Ref} {objects : List WebhookDelivery} {flight : Nat → Option Ref}

/-- The flights of other deliveries stay as they are. -/
theorem update_eq_some_iff {i : Nat} {next : Option Ref} {d : Ref} (old : flight i ≠ some d)
    (new : next ≠ some d) (j : Nat) :
    Function.update flight i next j = some d ↔ flight j = some d := by
  rw [Function.update_apply]
  split
  · rename_i same
    rw [same]
    exact iff_of_false new old
  · rfl

theorem WebhookDelivery.settle_attempts (d : WebhookDelivery) (reply : Reply) :
    (d.settle reply).attempts = d.attempts := by
  unfold WebhookDelivery.settle WebhookDelivery.afterFailure
  split
  · rfl
  · split <;> rfl

/-- One delivery changes, with its flights and its POSTs; the others stay as they are. -/
theorem Tracked.update (tracked : Tracked posts objects flight) {d : Ref}
    {change : WebhookDelivery → WebhookDelivery} {posts' : List Ref} {flight' : Nat → Option Ref}
    (others : ∀ e, d ≠ e → ∀ j, flight' j = some e ↔ flight j = some e)
    (counted : ∀ e : Ref, posts'.count e =
      (objects.modify d change)[e]?.elim 0 WebhookDelivery.attempts)
    (fits : ∀ delivery, objects[d]? = some delivery →
      (change delivery).Fits (∃ j, flight' j = some d))
    (stored : ∀ j, flight' j = some d → objects[d]? ≠ none)
    (single : ∀ j k, flight' j = some d → flight' k = some d → j = k) :
    Tracked posts' (objects.modify d change) flight' := by
  refine ⟨counted, ?_, ?_, ?_⟩
  · intro e after found
    rw [List.getElem?_modify] at found
    obtain ⟨before, there, rfl⟩ := Option.map_eq_some_iff.mp found
    by_cases here : d = e
    · subst here
      rw [if_pos rfl]
      exact fits before there
    · rw [if_neg here, exists_congr (others e here)]
      exact tracked.fits e before there
  · intro j e h
    rw [List.getElem?_modify]
    by_cases here : d = e
    · subst here
      simpa using stored j h
    · simpa using tracked.stored j e ((others e here j).mp h)
  · intro j k e hj hk
    by_cases here : d = e
    · subst here
      exact single j k hj hk
    · exact tracked.single j k e ((others e here j).mp hj) ((others e here k).mp hk)

theorem Tracked.settle (tracked : Tracked posts objects flight) {i : Nat} {d : Ref}
    (flies : flight i = some d) (reply : Reply) :
    Tracked posts (objects.modify d (WebhookDelivery.settle reply))
      (Function.update flight i none) := by
  have landed : ∀ j, Function.update flight i none j ≠ some d := by
    intro j h
    rw [Function.update_apply] at h
    split at h
    · cases h
    · rename_i apart
      exact apart (tracked.single j i d h flies)
  apply tracked.update
  · intro e other
    apply update_eq_some_iff
    · rw [flies]
      exact fun same => other (Option.some.inj same)
    · exact (Option.some_ne_none e).symm
  · intro e
    rw [tracked.counted, List.getElem?_modify]
    cases objects[e]? with
    | none => rfl
    | some delivery =>
        simp only [Option.map_eq_map, Option.map_some]
        split
        · exact (delivery.settle_attempts reply).symm
        · rfl
  · intro delivery there
    have grounded : ¬ ∃ j, Function.update flight i none j = some d := fun ⟨j, h⟩ => landed j h
    rw [eq_false grounded]
    exact (tracked.fits d delivery there).settle reply
  · exact fun j h => absurd h (landed j)
  · exact fun j k h => absurd h (landed j)

/-- A POST of a delivery starts that is pending and has none in flight. -/
theorem Tracked.start (tracked : Tracked posts objects flight) {i : Nat} {d : Ref}
    {delivery : WebhookDelivery} (free : flight i = none) (found : objects[d]? = some delivery)
    (pending : delivery.status = .pending) (grounded : ∀ j, flight j ≠ some d) (reply : Reply) :
    Tracked (posts ++ [d]) (objects.modify d (WebhookDelivery.start reply))
      (Function.update flight i (some d)) := by
  have only : ∀ j, Function.update flight i (some d) j = some d → j = i := by
    intro j h
    by_contra other
    rw [Function.update_of_ne other] at h
    exact grounded j h
  apply tracked.update
  · intro e other
    apply update_eq_some_iff
    · rw [free]
      exact (Option.some_ne_none e).symm
    · exact fun same => other (Option.some.inj same)
  · intro e
    rw [List.count_append, tracked.counted, List.getElem?_modify]
    by_cases here : d = e
    · subst here
      simp [found, WebhookDelivery.start]
    · simp [here]
  · intro before there
    obtain rfl := Option.some.inj (found.symm.trans there)
    have fits := tracked.fits d delivery found
    have idle : ¬ ∃ j, flight j = some d := fun ⟨j, h⟩ => grounded j h
    have flies : ∃ j, Function.update flight i (some d) j = some d := ⟨i, by simp⟩
    rw [eq_false idle] at fits
    rw [eq_true flies]
    exact fits.start pending reply
  · intro j _
    rw [found]
    exact Option.some_ne_none delivery
  · intro j k hj hk
    rw [only j hj, only k hk]

theorem Tracked.create (tracked : Tracked posts objects flight) (created : WebhookDelivery)
    (pending : created.status = .pending) (unposted : created.attempts = 0) :
    Tracked posts (objects ++ [created]) flight := by
  have unknown : objects[objects.length]? = none := List.getElem?_eq_none (Nat.le_refl _)
  constructor
  · intro d
    rw [Positions.getElem?_snoc]
    split
    · rename_i new
      rw [new, tracked.counted, unknown]
      exact unposted.symm
    · exact tracked.counted d
  · intro d delivery found
    rw [Positions.getElem?_snoc] at found
    split at found
    · obtain rfl := Option.some.inj found
      refine ⟨?_, ?_⟩
      · rw [unposted]
        decide
      · simp only [pending, unposted]
        exact .inr (by decide)
    · exact tracked.fits d delivery found
  · intro i d h
    rw [Positions.getElem?_snoc]
    split
    · exact Option.some_ne_none _
    · exact tracked.stored i d h
  · exact tracked.single

theorem Tracked.grounded_new (tracked : Tracked posts objects flight) (j : Nat) :
    flight j ≠ some objects.length := by
  intro h
  exact tracked.stored j _ h (List.getElem?_eq_none (Nat.le_refl _))

/-! ## One step -/

variable {log : Log} {event : Event State Step (Option Post)}

/-- The deliveries of a state, and the ends that the log records are those of the state. -/
structure Follows (log : Log) (s : State) : Prop where
  tracked : Tracked (posted log) s.deliveryObjects s.flight
  ended : ∀ d status, status ≠ .pending →
    (s.statusOf d = some status ↔ ∃ e ∈ log, e.post.statusOf d = some status)

theorem State.statusOf_eq_some {s : State} {d : Ref} {status : DeliveryStatus} :
    s.statusOf d = some status ↔
      ∃ delivery, s.deliveryObjects[d]? = some delivery ∧ delivery.status = status := by
  unfold State.statusOf
  rw [Option.map_eq_some_iff]

theorem State.flight_of_running {s : State} {i : Nat} {task : Task}
    (running : s.tasks[i]? = some task) : s.flight i = task.attempt.map Attempt.delivery := by
  rw [State.flight, running]
  rfl

/-- What a step posts is pending if the step rechecks. -/
theorem Follows.pending_of_posts (follows : Follows log event.pre) (rechecks : Rechecks event)
    (commits : service.Commits event) {d : Ref} {status : DeliveryStatus}
    (posts : event.output.map Post.delivery = some d)
    (found : event.pre.statusOf d = some status) : status = .pending := by
  obtain ⟨s, step, output, s'⟩ := event
  have effect := exec_effect commits
  dsimp only at effect posts found follows
  cases effect with
  | outside _ _ calls objects flights => cases posts
  | resumed i reply task attempt post _ running resumes flights =>
      generalize s'.deliveryObjects = objects at resumes
      cases resumes with
      | passed free idle => cases posts
      | settled attempt waiting idle => cases posts
      | triggered created attempt post free idle fresh posted pending unposted =>
          obtain rfl := Option.some.inj posts
          rw [posted, fresh, State.statusOf, List.getElem?_eq_none (Nat.le_refl _)] at found
          cases found
      | retried attempt post free taken stored posted =>
          obtain rfl := Option.some.inj posts
          have pending := (rechecks i reply rfl task running _ taken).1
          rw [posted, pending] at found
          exact (Option.some.inj found).symm

/-- A step changes the status of pending deliveries only. -/
theorem Follows.final (follows : Follows log event.pre) (commits : service.Commits event)
    {d : Ref} {status : DeliveryStatus} (found : event.pre.statusOf d = some status)
    (ended : status ≠ .pending) : event.post.statusOf d = some status := by
  obtain ⟨s, step, output, s'⟩ := event
  have effect := exec_effect commits
  dsimp only at effect found follows ⊢
  obtain ⟨delivery, there, rfl⟩ := State.statusOf_eq_some.mp found
  rw [State.statusOf_eq_some]
  cases effect with
  | outside _ _ calls objects flights =>
      rw [objects]
      exact ⟨delivery, there, rfl⟩
  | resumed i reply task attempt post _ running resumes flights =>
      generalize s'.deliveryObjects = objects at resumes
      cases resumes with
      | passed free idle => exact ⟨delivery, there, rfl⟩
      | settled attempt waiting idle =>
          have flies : s.flight i = some attempt.delivery := by
            rw [State.flight_of_running running, waiting]
            rfl
          have other : attempt.delivery ≠ d := by
            rintro rfl
            exact ended ((follows.tracked.fits _ delivery there).pending ⟨i, flies⟩)
          rw [List.getElem?_modify_ne _ _ other]
          exact ⟨delivery, there, rfl⟩
      | triggered created attempt post free idle fresh posted pending unposted =>
          have other : attempt.delivery ≠ d := by
            rintro rfl
            rw [fresh, List.getElem?_eq_none (Nat.le_refl _)] at there
            cases there
          rw [fresh] at other
          rw [fresh, List.getElem?_modify_ne _ _ other, Positions.getElem?_snoc, if_neg other.symm]
          exact ⟨delivery, there, rfl⟩
      | retried attempt post free taken stored posted =>
          rw [List.getElem?_modify, there]
          refine ⟨_, rfl, ?_⟩
          split <;> rfl

theorem Follows.step (follows : Follows log event.pre) (rechecks : Rechecks event)
    (commits : service.Commits event) : Follows (log ++ [event]) event.post := by
  constructor
  · obtain ⟨s, step, output, s'⟩ := event
    have effect := exec_effect commits
    have tracked := follows.tracked
    rw [posted_snoc]
    dsimp only at effect tracked ⊢
    cases effect with
    | outside _ _ calls objects flights =>
        rw [objects, flights]
        simpa using tracked
    | resumed i reply task attempt post _ running resumes flights =>
        have now := State.flight_of_running running
        rw [flights]
        generalize s'.deliveryObjects = objects at resumes
        cases resumes with
        | passed free idle =>
            have same : Function.update s.flight i none = s.flight := by
              rw [Function.update_eq_self_iff, now, free]
              rfl
            simpa [same] using tracked
        | settled attempt waiting idle =>
            rw [waiting] at now
            simpa using tracked.settle now reply
        | triggered created attempt post free idle fresh posted pending unposted =>
            rw [free] at now
            have stored : (s.deliveryObjects ++ [created])[attempt.delivery]? = some created := by
              rw [Positions.getElem?_snoc, if_pos fresh]
            have grounded : ∀ j, s.flight j ≠ some attempt.delivery := by
              rw [fresh]
              exact tracked.grounded_new
            have started := (tracked.create created pending unposted).start now stored pending
              grounded reply
            simpa [posted] using started
        | retried attempt post free taken stored posted =>
            rw [free] at now
            obtain ⟨pending, grounded⟩ := rechecks i reply rfl task running _ taken
            obtain ⟨delivery, found, status⟩ := State.statusOf_eq_some.mp pending
            simpa [posted] using tracked.start now found status grounded reply
  · intro d status unpending
    constructor
    · intro found
      exact ⟨event, List.mem_concat_self, found⟩
    · rintro ⟨e, logged, found⟩
      rcases List.mem_append.mp logged with earlier | last
      · exact follows.final commits ((follows.ended d status unpending).mpr ⟨e, earlier, found⟩)
          unpending
      · rw [List.mem_singleton.mp last] at found
        exact found

theorem Follows.bounded {s : State} (follows : Follows log s) (d : Ref) :
    (posted log).count d ≤ maxRetries := by
  rw [follows.tracked.counted]
  cases found : s.deliveryObjects[d]? with
  | none => exact Nat.zero_le _
  | some delivery => exact (follows.tracked.fits d delivery found).1

theorem Follows.reliable_step (follows : Follows log event.pre) (reliable : Reliable log)
    (rechecks : Rechecks event) (commits : service.Commits event) :
    Reliable (log ++ [event]) := by
  refine reliable_snoc.mpr ⟨reliable, (follows.step rechecks commits).bounded, ?_, ?_⟩
  · intro e logged d success posts
    have before := (follows.ended d .success (by decide)).mpr ⟨e, logged, success⟩
    exact absurd (follows.pending_of_posts rechecks commits posts before) (by decide)
  · intro e logged d status found ended
    exact follows.final commits ((follows.ended d status ended).mpr ⟨e, logged, found⟩) ended

theorem follows_init : Follows [] service.init := by
  refine ⟨⟨?_, ?_, ?_, ?_⟩, ?_⟩ <;> simp [service, posted, State.flight, State.statusOf]

theorem reliable_nil : Reliable [] :=
  ⟨fun _ => Nat.zero_le _, .nil, .nil⟩

/-- A run whose steps all recheck is reliable. -/
theorem reliable_of_rechecks (inputs : List Step)
    (rechecks : Machine.Admits (fun _ event => Rechecks event) (service.log inputs)) :
    Follows (service.log inputs) (service.state inputs) ∧ Reliable (service.log inputs) :=
  service.run_induct_of (fun _ event => Rechecks event)
    (fun log s => Follows log s ∧ Reliable log) ⟨follows_init, reliable_nil⟩
    (fun _ _ inv rechecks commits =>
      ⟨inv.1.step rechecks commits, inv.1.reliable_step inv.2 rechecks commits⟩) inputs rechecks

/-! ## When a step does not recheck -/

/-- A step that ends a POST retries nothing. -/
theorem Lands.rechecks (lands : Lands event) : Rechecks event := by
  obtain ⟨i, reply, input, flies⟩ := lands
  intro i' reply' input' task running d taken
  rw [input] at input'
  cases input'
  rw [State.flight_of_running running] at flies
  have idle : event.pre.nextRetry reply task = none := by
    cases task with
    | indexing events => exact absurd rfl flies
    | triggering attempt remaining eventType eventData events => rfl
    | retrying attempt remaining =>
        cases attempt with
        | none => exact absurd rfl flies
        | some attempt => rfl
    | done => rfl
  rw [idle] at taken
  cases taken

/-- The POST that a run waits for ends, as the reply says. -/
theorem exec_lands {s : State} {i : Nat} {d : Ref} {delivery : WebhookDelivery}
    (flies : s.flight i = some d) (found : s.deliveryObjects[d]? = some delivery)
    (reply : Reply) :
    ∃ s', service.exec s (.resume i reply) = .ok (none, s') ∧
      s'.deliveryObjects[d]? = some (delivery.settle reply) ∧
        ∀ j, j ≠ i → s'.flight j = s.flight j := by
  obtain ⟨attempt, waiting, rfl⟩ := Option.map_eq_some_iff.mp flies
  obtain ⟨task, running, waits⟩ := Option.bind_eq_some_iff.mp waiting
  obtain ⟨post, s', success⟩ := exec_resumes running reply
  have effect := exec_effect success
  cases effect with
  | outside _ _ calls objects flights => exact absurd rfl (calls i reply)
  | resumed _ _ task' _ _ _ running' resumes flights =>
      rw [running] at running'
      obtain rfl := Option.some.inj running'
      rw [waits] at resumes
      generalize objects : s'.deliveryObjects = after at resumes
      cases resumes with
      | passed free idle => cases free
      | settled attempt' waiting idle =>
          obtain rfl := Option.some.inj waiting
          refine ⟨s', success, ?_, ?_⟩
          · rw [objects, List.getElem?_modify_eq, found]
            rfl
          · intro j other
            rw [flights, Function.update_of_ne other]
      | triggered created attempt' post free idle fresh posted pending unposted => cases free
      | retried attempt' post free taken stored posted => cases free

theorem WebhookDelivery.afterFailure_status (d : WebhookDelivery) (reply : Reply) :
    (d.afterFailure reply).status ≠ .success := by
  unfold WebhookDelivery.afterFailure
  split <;> simp

/-- If two POSTs of a delivery are in flight, their ends can differ, and the later one is
kept. -/
theorem lands_twice {inputs : List Step} {i j : Nat} {d : Ref} (apart : i ≠ j)
    (stored : (service.state inputs).deliveryObjects[d]? ≠ none)
    (first : (service.state inputs).flight i = some d)
    (second : (service.state inputs).flight j = some d) : ¬ LandsReliably inputs := by
  intro reliable
  obtain ⟨delivery, found⟩ := Option.ne_none_iff_exists'.mp stored
  let accepted : Reply := ⟨0, "", true⟩
  let refused : Reply := ⟨0, "", false⟩
  obtain ⟨s₁, ends₁, found₁, others⟩ := exec_lands second found accepted
  rw [← others i apart] at first
  obtain ⟨s₂, ends₂, found₂, -⟩ := exec_lands first found₁ refused
  obtain ⟨state₁, log₁⟩ := service.snoc_of_ok ends₁
  rw [← state₁] at ends₂ first
  obtain ⟨state₂, log₂⟩ := service.snoc_of_ok ends₂
  rw [log₁, List.append_assoc, List.append_assoc] at log₂
  have kept := reliable _ _ log₂ (by
    intro event landed
    rcases List.mem_pair.mp landed with rfl | rfl
    · exact ⟨j, accepted, rfl, by simp [second]⟩
    · exact ⟨i, refused, rfl, by simp [first]⟩)
  rw [log₂] at kept
  have ends := (List.pairwise_append.mp kept.final).2.1
  have accepted_first : s₁.statusOf d = some .success := by
    rw [State.statusOf, found₁]
    rfl
  have final := (List.pairwise_cons.mp ends).1 _ List.mem_cons_self d .success accepted_first
    (by decide)
  rw [State.statusOf, found₂] at final
  exact WebhookDelivery.afterFailure_status _ refused (Option.some.inj final)

/-- What a step posts is pending if the log stays reliable. -/
theorem Follows.pending_of_reliable (follows : Follows log event.pre)
    (reliable : Reliable (log ++ [event])) {d : Ref} {status : DeliveryStatus}
    (posts : event.output.map Post.delivery = some d)
    (found : event.pre.statusOf d = some status) : status = .pending := by
  obtain ⟨-, bounded, closed, -⟩ := reliable_snoc.mp reliable
  cases status with
  | pending => rfl
  | success =>
      -- an earlier step ended it, and this one posts it
      obtain ⟨e, logged, success⟩ := (follows.ended d .success (by decide)).mp found
      exact absurd posts (closed e logged d success)
  | failed =>
      -- it was posted five times before
      obtain ⟨delivery, there, failed⟩ := State.statusOf_eq_some.mp found
      have fits := (follows.tracked.fits d delivery there).2
      simp only [failed] at fits
      have more := bounded d
      rw [posted_snoc, List.count_append, follows.tracked.counted, there, posts] at more
      simp at more
      omega

/-- A step rechecks if the log stays reliable whatever comes of the POSTs then in flight. -/
theorem Follows.rechecks_of_landsReliably {inputs : List Step} {step : Step}
    {output : Option Post} {s' : State}
    (follows : Follows (service.log inputs) (service.state inputs))
    (committed : service.exec (service.state inputs) step = .ok (output, s'))
    (reliable : LandsReliably (inputs ++ [step])) :
    Rechecks ⟨service.state inputs, step, output, s'⟩ := by
  rintro i reply rfl task running d taken
  obtain ⟨state, log⟩ := service.snoc_of_ok committed
  have now := reliable [] [] (by simp) (by simp)
  rw [List.append_nil, log] at now
  have effect : Effect (service.state inputs) (.resume i reply) output s' := exec_effect committed
  cases effect with
  | outside _ _ calls objects flights => exact absurd rfl (calls i reply)
  | resumed _ _ task' attempt post _ running' resumes flights =>
      dsimp only at running taken
      rw [running] at running'
      obtain rfl := Option.some.inj running'
      rw [taken] at resumes
      generalize objects : s'.deliveryObjects = after at resumes
      cases resumes with
      | passed free idle => cases idle
      | settled attempt waiting idle => cases idle
      | triggered created attempt post free idle fresh posted pending unposted => cases idle
      | retried attempt post free same stored posted =>
          obtain rfl := Option.some.inj same
          obtain ⟨delivery, found⟩ := Option.ne_none_iff_exists'.mp stored
          have status := State.statusOf_eq_some.mpr ⟨delivery, found, rfl⟩
          rw [follows.pending_of_reliable now (congrArg some posted) status] at status
          refine ⟨status, ?_⟩
          intro j flies
          have idle : (service.state inputs).flight i = none := by
            rw [State.flight_of_running running, free]
            rfl
          have apart : i ≠ j := by
            rintro rfl
            rw [idle] at flies
            cases flies
          apply lands_twice apart _ _ _ reliable
          · exact attempt.delivery
          · rw [state, objects, List.getElem?_modify_eq, found]
            exact Option.some_ne_none _
          · rw [state, flights, Function.update_self]
            rfl
          · rw [state, flights, Function.update_of_ne apart.symm]
            exact flies

/-- A run is reliable at every moment, whatever comes of the POSTs then in flight, if and
only if every delivery that one of its steps takes for a retry is pending and has no POST in
flight. -/
theorem lands_reliably_iff (inputs : List Step) :
    (∀ earlier later, inputs = earlier ++ later → LandsReliably earlier) ↔
      Machine.Admits (fun _ event => Rechecks event) (service.log inputs) := by
  constructor
  · intro reliable
    induction inputs using List.reverseRecOn with
    | nil => exact Machine.admits_nil _
    | append_singleton inputs step ih =>
        have earlier := ih fun first rest split =>
          reliable first (rest ++ [step]) (by rw [split, List.append_assoc])
        cases committed : service.exec (service.state inputs) step with
        | error failure =>
            rw [(service.snoc_of_error committed).2]
            exact earlier
        | ok result =>
            obtain ⟨output, s'⟩ := result
            have follows := (reliable_of_rechecks inputs earlier).1
            have lands := reliable (inputs ++ [step]) [] (List.append_nil _).symm
            rw [(service.snoc_of_ok committed).2, Machine.admits_snoc]
            exact ⟨earlier, follows.rechecks_of_landsReliably committed lands⟩
  · rintro rechecks earlier later rfl landings landed split lands
    obtain ⟨more, extended⟩ := service.log_append earlier later
    rw [extended] at rechecks
    apply (reliable_of_rechecks (earlier ++ landings) _).2
    rw [split]
    exact rechecks.left.append fun event listed _ => (lands event listed).rechecks

/-- Runs whose steps recheck are reliable at every moment. The condition is exact: a run is
reliable at every moment whatever comes of the POSTs then in flight if and only if its steps
recheck. -/
theorem reliable_while_rechecking (inputs : List Step) :
    (Machine.Admits (fun _ event => Rechecks event) (service.log inputs) →
      service.Always (fun log _ => Reliable log) inputs) ∧
    ((∀ earlier later, inputs = earlier ++ later → LandsReliably earlier) ↔
      Machine.Admits (fun _ event => Rechecks event) (service.log inputs)) := by
  refine ⟨?_, lands_reliably_iff inputs⟩
  rintro rechecks earlier later rfl
  obtain ⟨more, extended⟩ := service.log_append earlier later
  rw [extended] at rechecks
  exact (reliable_of_rechecks earlier rechecks.left).2

namespace Sample

def minted : Events.SorobanEvent :=
  ⟨"CREGISTRY-10-10-1", "CreditMinted", Events.Sample.registry, 10, []⟩

def reply (now : Nat) (succeeded : Bool) : Reply := ⟨now, "delivery_0", succeeded⟩

/-- The first POST of a delivery fails. Two runs retry it at once: the first POST succeeds,
the second fails, and a third run posts it again. -/
def overlapping : List Step :=
  [.registerWebhook "webhook_0" "url" ["CreditMinted"] 0,
    .indexEvents [minted], .resume 0 (reply 0 true), .resume 0 (reply 0 false),
    .resume 0 (reply 0 true), .resume 0 (reply 0 true),
    .indexEvents [], .resume 1 (reply 30000 true),
    .indexEvents [], .resume 2 (reply 60000 true),
    .resume 1 (reply 61000 true), .resume 2 (reply 62000 false),
    .indexEvents [], .resume 3 (reply 90000 true)]

end Sample

/-- A delivery that succeeded becomes pending, and is posted again. -/
theorem overlapping_not_reliable :
    ¬ service.Always (fun log _ => Reliable log) Sample.overlapping := by
  intro always
  have now := always Sample.overlapping [] (List.append_nil _).symm
  have closed := now.closed.imp fun apart => apart 0
  exact absurd closed (by decide)

end CarbonChain.Webhooks
