import CarbonChain.Events.Indexing

/-!
# How often an event triggers the webhooks

A fetch (`api/src/events/events.service.ts:64-114`) starts at the ledger of the cursor,
which is the last ledger that was indexed, and triggers the webhooks for whatever it
returns, without a look at the map.
-/

namespace CarbonChain.Events

/-- What the indexer has logged. -/
abbrev Log := List (Event State Step (List Action))

/-- The event that an action triggers the webhooks for. -/
def Action.triggers : Action → Option String
  | .triggerWebhooks _ eventData => some eventData.id
  | _ => none

/-- The ids of the events that the webhooks were triggered for, one for each time. -/
def triggered (log : Log) : List String :=
  log.flatMap fun event => event.output.filterMap Action.triggers

/-- The webhooks were triggered at most once for each event. -/
def TriggeredOnce (log : Log) : Prop :=
  (triggered log).Nodup

/-- An answered fetch of a contract finds no event of it in the map that is at the ledger of
the cursor. -/
def FetchesNew (event : Event State Step (List Action)) : Prop :=
  event.input = .fetch true → ∀ c, event.pre.remaining.head? = some c →
    ∀ e ∈ (event.pre.chain c).entries, e.ledger = event.pre.service.lastLedger →
      ¬ event.pre.Present c e

theorem invalidations_trigger_nothing (event : SorobanEvent) :
    (invalidations event).filterMap Action.triggers = [] := by
  unfold invalidations
  split
  · split
    · split <;> rfl
    · rfl
  · rfl

theorem eventActions_triggers (c : ContractId) (events : List EventResponse) :
    (events.flatMap (eventActions c)).filterMap Action.triggers = events.map (eventId c) := by
  induction events with
  | nil => rfl
  | cons e rest ih =>
      rw [List.flatMap_cons, List.filterMap_append, ih, eventActions, List.filterMap_append,
        invalidations_trigger_nothing]
      rfl

theorem triggered_snoc (log : Log) (event : Event State Step (List Action)) :
    triggered (log ++ [event]) =
      triggered log ++ event.output.filterMap Action.triggers := by
  simp [triggered]

/-- The events of a batch have different ids. -/
theorem batch_distinct (s : State) (c : ContractId) (answered : Bool) :
    ((s.batch c answered).map (eventId c)).Nodup := by
  unfold State.batch getContractEvents
  split
  · have keys : (((s.chain c).window 100 s.service.lastLedger).map
        fun e => (e.ledger, e.id)).Nodup := Feed.window_distinct
    refine List.Nodup.map_on ?_ (List.Nodup.of_map _ keys)
    intro e read e' read' same
    obtain ⟨-, ledgers, ids⟩ := eventId_inj.mp same
    exact List.inj_on_of_nodup_map keys read read' (Prod.ext ledgers ids)
  · exact List.nodup_nil

/-- The map holds the events that triggered the webhooks. -/
structure Notified (log : Log) (s : State) : Prop where
  sound : s.Sound
  stored : ∀ key, key ∈ triggered log ↔ s.service.events.lookup key ≠ none

/-- What a fetch returns is in the map already if and only if it is at the cursor. -/
theorem State.Sound.batch_new_iff {s : State} (sound : s.Sound) (c : ContractId) :
    (∀ e ∈ s.batch c true, ¬ s.Present c e) ↔
      ∀ e ∈ (s.chain c).entries, e.ledger = s.service.lastLedger → ¬ s.Present c e := by
  constructor
  · intro new e listed its present
    obtain ⟨window, -⟩ := sound.mem_window listed present
    rw [its] at window
    exact new e window present
  · intro new e read present
    obtain ⟨listed, from_⟩ := Feed.mem_of_window (mem_batch read).2
    obtain ⟨-, le⟩ := sound.mem_window listed present
    exact new e listed (Nat.le_antisymm le from_) present

theorem Notified.step {config : Config} {log : Log} {event : Event State Step (List Action)}
    (notified : Notified log event.pre) (commits : (indexer config).Commits event) :
    Notified (log ++ [event]) event.post := by
  obtain ⟨s, step, actions, s'⟩ := event
  have effect := exec_effect commits
  refine ⟨effect.sound notified.sound, ?_⟩
  intro key
  rw [triggered_snoc, List.mem_append, notified.stored]
  dsimp only at effect ⊢
  cases effect with
  | emitted c e accepts => simp
  | polled idle => simp
  | fetched c rest answered next =>
      rw [eventActions_triggers, List.mem_map, indexContractEvents_lookup]

/-- From logs that trigger once, a step triggers once if and only if it fetches only new
events. -/
theorem Notified.once_step {config : Config} {log : Log} {event : Event State Step (List Action)}
    (notified : Notified log event.pre) (once : TriggeredOnce log)
    (commits : (indexer config).Commits event) :
    TriggeredOnce (log ++ [event]) ↔ FetchesNew event := by
  obtain ⟨s, step, actions, s'⟩ := event
  have effect := exec_effect commits
  unfold TriggeredOnce FetchesNew at *
  rw [triggered_snoc]
  dsimp only at effect notified ⊢
  cases effect with
  | emitted c e accepts => exact iff_of_true (by simpa using once) (by simp)
  | polled idle => exact iff_of_true (by simpa using once) (by simp)
  | fetched c rest answered next =>
      have apart : (triggered log ++ (s.batch c answered).map (eventId c)).Nodup ↔
          ∀ e ∈ s.batch c answered, ¬ s.Present c e := by
        rw [List.nodup_append']
        constructor
        · rintro ⟨-, -, disjoint⟩ e read present
          exact disjoint ((notified.stored _).mpr present) (List.mem_map_of_mem read)
        · intro new
          refine ⟨once, batch_distinct s c answered, ?_⟩
          intro key before now
          obtain ⟨e, read, rfl⟩ := List.mem_map.mp now
          exact new e read ((notified.stored _).mp before)
      rw [eventActions_triggers, apart, next]
      cases answered with
      | false => exact iff_of_true (fun e read => absurd (mem_batch read).1 (by decide)) (by simp)
      | true =>
          rw [notified.sound.batch_new_iff]
          simp

/-- The webhooks are triggered at most once for each event, at every moment, in exactly the
runs in which no answered fetch of a contract finds one of its events in the map that is at
the ledger of the cursor. -/
theorem triggered_once_iff (config : Config) (inputs : List Step) :
    (indexer config).Always (fun log _ => TriggeredOnce log) inputs ↔
      Machine.Admits (fun _ event => FetchesNew event) ((indexer config).log inputs) := by
  have start : TriggeredOnce [] := List.nodup_nil
  refine (indexer config).always_iff_admits
    (fun log s => Notified log s ∧ TriggeredOnce log) ?_ start ?_ ?_ inputs
  · refine ⟨⟨sound_init config, ?_⟩, start⟩
    intro key
    have empty : (indexer config).init.service.events.lookup key = none := rfl
    simp [triggered, empty]
  · exact fun log event inv commits => inv.1.once_step inv.2 commits
  · intro log event inv new commits
    exact ⟨inv.1.step commits, (inv.1.once_step inv.2 commits).mpr new⟩

namespace Sample

/-- The registry emits one event, and two polls fetch the events of the registry. -/
def polledTwice : List Step :=
  [.emit registry minted, .poll, .fetch true, .fetch true, .poll, .fetch true]

end Sample

/-- The second poll triggers the webhooks for the event again. -/
theorem polledTwice_not_once :
    ¬ (indexer Sample.config).Always (fun log _ => TriggeredOnce log) Sample.polledTwice := by
  intro once
  have now := once Sample.polledTwice [] (List.append_nil _).symm
  exact absurd now (by unfold TriggeredOnce; decide)

end CarbonChain.Events
