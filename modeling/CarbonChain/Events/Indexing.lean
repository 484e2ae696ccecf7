import CarbonChain.Events.Service
import Std.Data.String.ToNat

/-!
# What the indexer has seen

The ids under which events are stored (`api/src/events/events.service.ts:72-82`) tell the
events of all contracts apart. The map has, at every moment, exactly events that are on the
chain and that some fetch returned; the cursor is at or after all of them and never goes
back.
-/

namespace CarbonChain.Events

/-! ## Event ids -/

/-- Of two lists cut at their first dash, the parts can be told. -/
theorem cut_at_dash {first first' rest rest' : List Char} (dashless : '-' ∉ first)
    (dashless' : '-' ∉ first') (same : first ++ '-' :: rest = first' ++ '-' :: rest') :
    first = first' ∧ rest = rest' := by
  induction first generalizing first' with
  | nil =>
      cases first' with
      | nil => simpa using same
      | cons c shorter' => grind
  | cons c shorter ih =>
      cases first' with
      | nil => grind
      | cons c' shorter' => grind

theorem dash_notMem_toString (n : Nat) : '-' ∉ (toString n).toList := by
  intro dash
  rw [Nat.toString_eq_repr, Nat.toList_repr] at dash
  simpa using Nat.isDigit_of_mem_toDigits (by decide) (by decide) dash

theorem eventId_inj {c c' : ContractId} {e e' : EventResponse} :
    eventId c e = eventId c' e' ↔ c = c' ∧ e.ledger = e'.ledger ∧ e.id = e'.id := by
  constructor
  · intro same
    have chars := congrArg String.toList same
    simp only [eventId, String.toList_append, List.append_assoc] at chars
    obtain ⟨strkeys, chars⟩ := cut_at_dash c.dashless c'.dashless chars
    obtain ⟨ledgers, ids⟩ := cut_at_dash (dash_notMem_toString _) (dash_notMem_toString _) chars
    refine ⟨ContractId.ext (String.toList_inj.mp strkeys), ?_, String.toList_inj.mp ids⟩
    exact Nat.repr_injective (String.toList_inj.mp ledgers)
  · rintro ⟨rfl, ledger, id⟩
    simp [eventId, ledger, id]

/-! ## One step -/

/-- The event is in the events map. -/
def State.Present (s : State) (c : ContractId) (e : EventResponse) : Prop :=
  s.service.events.lookup (eventId c e) ≠ none

/-- The events that the next fetch of a contract returns. -/
def State.batch (s : State) (c : ContractId) (answered : Bool) : List EventResponse :=
  getContractEvents (s.chain c) s.service.lastLedger answered

@[simp] theorem store_lastLedger (c : ContractId) (events : List EventResponse)
    (service : EventsService) :
    (events.foldl (EventsService.store c) service).lastLedger = service.lastLedger := by
  induction events generalizing service with
  | nil => rfl
  | cons e rest ih =>
      rw [List.foldl_cons, ih]
      rfl

theorem store_lookup (c : ContractId) (events : List EventResponse) (service : EventsService)
    (key : String) :
    (events.foldl (EventsService.store c) service).events.lookup key ≠ none ↔
      service.events.lookup key ≠ none ∨ ∃ e ∈ events, eventId c e = key := by
  induction events generalizing service with
  | nil => simp
  | cons e rest ih =>
      rw [List.foldl_cons, ih, EventsService.store, Store.lookup_insert_ite]
      by_cases its : key = eventId c e
      · simp [its]
      · simp [its, Ne.symm its]

theorem indexContractEvents_lookup (c : ContractId) (events : List EventResponse)
    (service : EventsService) (key : String) :
    (indexContractEvents c events service).1.events.lookup key ≠ none ↔
      service.events.lookup key ≠ none ∨ ∃ e ∈ events, eventId c e = key := by
  rw [← store_lookup]
  unfold indexContractEvents
  split <;> rfl

/-- The cursor moves to the last ledger of the batch, if there is one. -/
theorem indexContractEvents_lastLedger (c : ContractId) (events : List EventResponse)
    (service : EventsService) :
    (indexContractEvents c events service).1.lastLedger =
      (events.map EventResponse.ledger).max?.getD service.lastLedger := by
  unfold indexContractEvents
  split
  · next last found => rw [found, Option.getD_some]
  · next none => rw [none, Option.getD_none, store_lastLedger]

/-- What a step does to the system. -/
inductive Effect (config : Config) (s : State) : Step → List Action → State → Prop where
  | emitted (c : ContractId) (e : EventResponse) (accepts : (s.chain c).Accepts e) :
      Effect config s (.emit c e) []
        { s with chain := Function.update s.chain c ((s.chain c).append e accepts) }
  | polled (idle : s.remaining = []) :
      Effect config s .poll [] { s with remaining := config.contractIds }
  | fetched (c : ContractId) (rest : List ContractId) (answered : Bool)
      (next : s.remaining = c :: rest) :
      Effect config s (.fetch answered) ((s.batch c answered).flatMap (eventActions c))
        { s with
          service := (indexContractEvents c (s.batch c answered) s.service).1
          remaining := rest }

theorem exec_effect {config : Config} {s s' : State} {step : Step} {actions : List Action}
    (h : exec config s step = .ok (actions, s')) : Effect config s step actions s' := by
  cases step with
  | emit c e =>
      simp only [exec] at h
      split at h
      · next accepts =>
          cases h
          exact .emitted c e accepts
      · cases h
  | poll =>
      simp only [exec] at h
      split at h
      · next idle =>
          cases h
          exact .polled idle
      · cases h
  | fetch answered =>
      simp only [exec] at h
      split at h
      · cases h
      · next c rest next_ =>
          cases h
          exact .fetched c rest answered next_

theorem mem_batch {s : State} {c : ContractId} {answered : Bool} {e : EventResponse}
    (h : e ∈ s.batch c answered) :
    answered = true ∧ e ∈ (s.chain c).window 100 s.service.lastLedger := by
  unfold State.batch getContractEvents at h
  split at h
  · next answers => exact ⟨answers, h⟩
  · cases h

/-- The cursor after a fetch is the last ledger of the batch, or where it was. -/
theorem cursor_cases (s : State) (c : ContractId) (answered : Bool) :
    (indexContractEvents c (s.batch c answered) s.service).1.lastLedger = s.service.lastLedger ∨
      ∃ last ∈ s.batch c answered,
        (indexContractEvents c (s.batch c answered) s.service).1.lastLedger = last.ledger := by
  rw [indexContractEvents_lastLedger]
  cases found : ((s.batch c answered).map EventResponse.ledger).max? with
  | none => exact .inl rfl
  | some ledger =>
      obtain ⟨last, read, its⟩ := List.mem_map.mp (List.max?_mem found)
      exact .inr ⟨last, read, its.symm⟩

theorem le_cursor {s : State} {c : ContractId} {answered : Bool} {e : EventResponse}
    (read : e ∈ s.batch c answered) :
    e.ledger ≤ (indexContractEvents c (s.batch c answered) s.service).1.lastLedger := by
  rw [indexContractEvents_lastLedger]
  cases found : ((s.batch c answered).map EventResponse.ledger).max? with
  | none =>
      rw [List.max?_eq_none_iff, List.map_eq_nil_iff] at found
      rw [found] at read
      cases read
  | some ledger => exact (List.max?_eq_some_iff.mp found).2 _ (List.mem_map_of_mem read)

/-- A fetch returns every event of its contract from the cursor on that comes before one it
returns. -/
theorem mem_batch_of_before {s : State} {c : ContractId} {answered : Bool} {e last : EventResponse}
    (read : last ∈ s.batch c answered) (listed : e ∈ (s.chain c).entries)
    (from_ : s.service.lastLedger ≤ e.ledger) (before : e.ledger < last.ledger) :
    e ∈ s.batch c answered := by
  obtain ⟨answers, window⟩ := mem_batch read
  rw [State.batch, getContractEvents, if_pos answers]
  exact Feed.mem_window_of_lt window listed from_ before

/-- The cursor never goes back. -/
theorem cursor_le (s : State) (c : ContractId) (answered : Bool) :
    s.service.lastLedger ≤
      (indexContractEvents c (s.batch c answered) s.service).1.lastLedger := by
  rcases cursor_cases s c answered with same | ⟨last, read, moved⟩
  · rw [same]
  · rw [moved]
    exact (Feed.mem_of_window (mem_batch read).2).2

/-! ## Runs -/

/-- Whatever is in the map is an event of the chain that is at the cursor or before it, and
that a fetch from its own ledger returns. -/
def State.Sound (s : State) : Prop :=
  ∀ key, s.service.events.lookup key ≠ none → ∃ c e, key = eventId c e ∧
    e ∈ (s.chain c).window 100 e.ledger ∧ e.ledger ≤ s.service.lastLedger

theorem State.Sound.of_present {s : State} (sound : s.Sound) {c : ContractId} {e : EventResponse}
    (present : s.Present c e) : ∃ x ∈ (s.chain c).window 100 e.ledger,
      (x.ledger, x.id) = (e.ledger, e.id) ∧ e.ledger ≤ s.service.lastLedger := by
  obtain ⟨c', x, same, read, le⟩ := sound _ present
  obtain ⟨rfl, ledgers, ids⟩ := eventId_inj.mp same
  rw [ledgers] at *
  exact ⟨x, read, by rw [ids], le⟩

/-- An event of the chain that is in the map is returned from its own ledger. -/
theorem State.Sound.mem_window {s : State} (sound : s.Sound) {c : ContractId} {e : EventResponse}
    (listed : e ∈ (s.chain c).entries) (present : s.Present c e) :
    e ∈ (s.chain c).window 100 e.ledger ∧ e.ledger ≤ s.service.lastLedger := by
  obtain ⟨x, read, same, le⟩ := sound.of_present present
  have its := List.inj_on_of_nodup_map (s.chain c).distinct (Feed.mem_of_window read).1 listed same
  rw [its] at read
  exact ⟨read, le⟩

/-- What the chain accepts is not in the map yet. -/
theorem State.Sound.not_present {s : State} (sound : s.Sound) {c : ContractId}
    {e : EventResponse} (accepts : (s.chain c).Accepts e) : ¬ s.Present c e := by
  intro present
  obtain ⟨x, read, same, -⟩ := sound.of_present present
  apply accepts.2
  exact List.mem_map.mpr ⟨x, (Feed.mem_of_window read).1, same⟩

theorem Effect.sound {config : Config} {s s' : State} {step : Step} {actions : List Action}
    (effect : Effect config s step actions s') (sound : s.Sound) : s'.Sound := by
  intro key stored
  cases effect with
  | emitted c x accepts =>
      obtain ⟨c', e, its, read, le⟩ := sound key stored
      refine ⟨c', e, its, ?_, le⟩
      dsimp only
      by_cases same : c' = c
      · subst same
        rw [Function.update_self]
        exact Feed.mem_window_append accepts read
      · rw [Function.update_of_ne same]
        exact read
  | polled idle => exact sound key stored
  | fetched c rest answered next =>
      rw [indexContractEvents_lookup] at stored
      rcases stored with before | ⟨e, read, its⟩
      · obtain ⟨c', e, its, read, le⟩ := sound key before
        exact ⟨c', e, its, read, le.trans (cursor_le s c answered)⟩
      · obtain ⟨-, window⟩ := mem_batch read
        have from_ := (Feed.mem_of_window window).2
        exact ⟨c, e, its.symm, Feed.mem_window_of_le window from_ (le_refl _), le_cursor read⟩

theorem sound_init (config : Config) : (indexer config).init.Sound :=
  fun _ stored => absurd rfl stored

/-! ## Skipped events -/

/-- Every event of a configured contract whose ledger is below the cursor is in the map. -/
def State.Complete (config : Config) (s : State) : Prop :=
  ∀ c ∈ config.contractIds, ∀ e ∈ (s.chain c).entries, e.ledger < s.service.lastLedger →
    s.Present c e

/-- No configured contract emits an event below the cursor, and when a fetch returns events of
a contract, the events of the other configured ones below the last of them are in the map. -/
def KeepsUp (config : Config) (event : Event State Step (List Action)) : Prop :=
  match event.input with
  | .emit c e => c ∈ config.contractIds → event.pre.service.lastLedger ≤ e.ledger
  | .poll => True
  | .fetch answered => ∀ c, event.pre.remaining.head? = some c →
      ∀ last ∈ event.pre.batch c answered, ∀ other ∈ config.contractIds, other ≠ c →
        ∀ e ∈ (event.pre.chain other).entries, e.ledger < last.ledger →
          event.pre.Present other e

instance (config : Config) (event : Event State Step (List Action)) :
    Decidable (KeepsUp config event) :=
  match event with
  | ⟨pre, .emit c e, _, _⟩ =>
      inferInstanceAs (Decidable (c ∈ config.contractIds → pre.service.lastLedger ≤ e.ledger))
  | ⟨_, .poll, _, _⟩ => inferInstanceAs (Decidable True)
  | ⟨pre, .fetch answered, _, _⟩ =>
      inferInstanceAs (Decidable (∀ c ∈ pre.remaining.head?, ∀ last ∈ pre.batch c answered,
        ∀ other ∈ config.contractIds, other ≠ c → ∀ e ∈ (pre.chain other).entries,
          e.ledger < last.ledger → pre.service.events.lookup (eventId other e) ≠ none))

theorem complete_step {config : Config} {event : Event State Step (List Action)}
    (sound : event.pre.Sound) (complete : event.pre.Complete config)
    (commits : (indexer config).Commits event) :
    event.post.Complete config ↔ KeepsUp config event := by
  obtain ⟨s, step, actions, s'⟩ := event
  have effect := exec_effect commits
  dsimp only at sound complete effect
  unfold KeepsUp
  dsimp only
  cases effect with
  | emitted c x accepts =>
      constructor
      · intro after configured
        by_contra below
        apply sound.not_present accepts
        apply after c configured x
        · dsimp only
          rw [Function.update_self, Feed.mem_append]
          exact .inr rfl
        · exact Nat.lt_of_not_le below
      · intro above c' configured e listed before
        dsimp only at listed
        by_cases same : c' = c
        · subst same
          rw [Function.update_self, Feed.mem_append] at listed
          rcases listed with earlier | rfl
          · exact complete c' configured e earlier before
          · exact absurd (above configured) (Nat.not_le_of_lt before)
        · rw [Function.update_of_ne same] at listed
          exact complete c' configured e listed before
  | polled idle => exact iff_of_true complete trivial
  | fetched c rest answered next =>
      have present_iff : ∀ other e, State.Present
          { s with service := (indexContractEvents c (s.batch c answered) s.service).1,
                   remaining := rest } other e ↔
            s.Present other e ∨ ∃ x ∈ s.batch c answered, eventId c x = eventId other e :=
        fun other e => indexContractEvents_lookup c _ _ _
      rw [next]
      constructor
      · intro after c' head last read other configured different e listed before
        obtain rfl := Option.some.inj head
        have present := after other configured e listed (before.trans_le (le_cursor read))
        rcases (present_iff other e).mp present with already | ⟨x, -, same⟩
        · exact already
        · exact absurd (eventId_inj.mp same).1.symm different
      · intro keepsUp other configured e listed before
        rw [present_iff]
        by_cases below : e.ledger < s.service.lastLedger
        · exact .inl (complete other configured e listed below)
        · rcases cursor_cases s c answered with same | ⟨last, read, moved⟩
          · rw [same] at before
            exact absurd before below
          · rw [moved] at before
            by_cases its : other = c
            · subst its
              exact .inr ⟨e, mem_batch_of_before read listed (Nat.le_of_not_lt below) before, rfl⟩
            · exact .inl (keepsUp c rfl last read other configured its e listed before)

/-- At every moment all events of the configured contracts below the cursor are in the map, in
exactly the runs that keep up: no configured contract emits an event below the cursor, and
whenever a fetch returns events of a contract, all events of the other ones below the last
of them are in the map already. -/
theorem complete_iff (config : Config) (inputs : List Step) :
    (indexer config).Always (fun _ s => s.Complete config) inputs ↔
      Machine.Admits (fun _ event => KeepsUp config event) ((indexer config).log inputs) := by
  have start : (indexer config).init.Complete config :=
    fun _ _ _ _ before => absurd before (Nat.not_lt_zero _)
  refine (indexer config).always_iff_admits
    (fun _ s => s.Sound ∧ s.Complete config) ?_ start ?_ ?_ inputs
  · exact ⟨sound_init config, start⟩
  · exact fun log event inv commits => complete_step inv.1 inv.2 commits
  · intro log event inv keepsUp commits
    exact ⟨(exec_effect commits).sound inv.1, (complete_step inv.1 inv.2 commits).mpr keepsUp⟩

namespace Sample

def registry : ContractId := ⟨"CREGISTRY", by decide⟩

def retirement : ContractId := ⟨"CRETIREMENT", by decide⟩

/-- Two of the four contracts are configured. -/
def config : Config := ⟨some registry, some retirement, none, none⟩

def minted : EventResponse := ⟨"10-1", 10, [.string "CreditMinted"], none⟩

def retired : EventResponse := ⟨"5-1", 5, [.string "CreditRetired"], none⟩

/-- The retirement contract emits an event before the registry does, and a poll fetches the
events of the registry first. -/
def overtaken : List Step :=
  [.emit retirement retired, .emit registry minted, .poll, .fetch true, .fetch true]

end Sample

/-- The poll misses the event of the retirement contract, and the cursor is past it. -/
theorem overtaken_not_complete :
    ¬ (indexer Sample.config).Always (fun _ s => s.Complete Sample.config) Sample.overtaken := by
  intro complete
  have now := complete Sample.overtaken [] (List.append_nil _).symm Sample.retirement
    (by decide) Sample.retired (by decide) (by decide)
  exact now (by decide)

end CarbonChain.Events
