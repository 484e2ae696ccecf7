import CarbonChain.Misc.Machine
import CarbonChain.Misc.Store

/-!
# Reading through a cache

A service answers questions from a cache whose entries live for a fixed time. On a miss it
consults its sources one after the other, stores what the first of them has, and answers with
it. Requests overlap: between two steps of one of them, others may step, the sources may
change, entries may be deleted and time may pass. The cache may be out of reach at any step; a
lookup is then a miss, and nothing is stored or deleted.

An answer is never older than the life of an entry, counted from the moment at which its
request stored it.
-/

namespace CarbonChain.ReadThrough

/-- What a source has for a question. -/
inductive Reading (V : Type) where
  | value (value : V)
  | absent
  | failure
  deriving DecidableEq

/-- The sources of a service read the world `W` as it is when they are consulted. -/
structure Service (Q K V W : Type) where
  key : Q → K
  ttl : Nat
  sources : Q → List (W → Reading V)

/-- The next step of a request: consult the `i`-th source, or store a value. -/
inductive Stage (V : Type) where
  | consulting (i : Nat)
  | storing (value : V)

/-- The cache keeps its values with the times at which they expire. -/
structure State (Q K V W : Type) where
  now : Nat
  world : W
  entries : Store K (V × Nat)
  requests : Store Nat (Q × Stage V)
  requestCount : Nat

/-- The steps; `reachable` tells whether the cache answers. -/
inductive Input (Q K W : Type) where
  | wait (duration : Nat)
  | change (world : W)
  | ask (question : Q) (reachable : Bool)
  | proceed (request : Nat) (reachable : Bool)
  | delete (keys : List K) (reachable : Bool)

/-- What a step shows of a request. -/
inductive Output (Q V : Type) where
  | done
  | missed (request : Nat)
  | fetched (question : Q) (value : V)
  | failed (question : Q)
  | answered (question : Q) (value : V)
  deriving DecidableEq

variable {Q K V W : Type} [DecidableEq K]

/-- The value under a key that has not expired. -/
def State.get (s : State Q K V W) (key : K) : Option V :=
  (s.entries.lookup key).bind fun entry => if s.now < entry.2 then some entry.1 else none

/-- The entries without those of the keys. -/
def deleteAll (keys : List K) (entries : Store K (V × Nat)) : Store K (V × Nat) :=
  keys.foldl (fun entries key => entries.erase key) entries

@[simp] theorem lookup_deleteAll (keys : List K) (entries : Store K (V × Nat)) (key : K) :
    (deleteAll keys entries).lookup key = if key ∈ keys then none else entries.lookup key := by
  unfold deleteAll
  induction keys generalizing entries with
  | nil => simp
  | cons first rest ih =>
      rw [List.foldl_cons, ih, Store.lookup_erase_ite]
      by_cases listed : key ∈ rest <;> by_cases same : key = first <;> simp [listed, same]

variable (service : Service Q K V W)

/-- What the `i`-th source has; after the last one there is nothing. -/
def Service.read (world : W) (question : Q) (i : Nat) : Option (Reading V) :=
  (service.sources question)[i]?.map fun source => source world

/-- The request `n` consults the `i`-th source. -/
def consult (s : State Q K V W) (n : Nat) (question : Q) (i : Nat) :
    Output Q V × State Q K V W :=
  match service.read s.world question i with
  | some (.value value) =>
      (.fetched question value,
        { s with requests := s.requests.insert n (question, .storing value) })
  | some .absent =>
      (.done, { s with requests := s.requests.insert n (question, .consulting (i + 1)) })
  | some .failure | none => (.failed question, { s with requests := s.requests.erase n })

/-- The request `n` stores the value and answers with it. -/
def settle (s : State Q K V W) (n : Nat) (question : Q) (value : V) (reachable : Bool) :
    Output Q V × State Q K V W :=
  (.answered question value,
    { s with
      entries := if reachable then
          s.entries.insert (service.key question) (value, s.now + service.ttl)
        else s.entries
      requests := s.requests.erase n })

/-- A step of the world, of a request or of the cache. -/
def exec (s : State Q K V W) : Input Q K W → Except Unit (Output Q V × State Q K V W)
  | .wait duration => .ok (.done, { s with now := s.now + duration })
  | .change world => .ok (.done, { s with world })
  | .ask question reachable =>
      match if reachable then s.get (service.key question) else none with
      | some value => .ok (.answered question value, s)
      | none => .ok (.missed s.requestCount,
          { s with
            requests := s.requests.insert s.requestCount (question, .consulting 0)
            requestCount := s.requestCount + 1 })
  | .proceed n reachable =>
      match s.requests.lookup n with
      | none => .error ()
      | some (question, .consulting i) => .ok (consult service s n question i)
      | some (question, .storing value) => .ok (settle service s n question value reachable)
  | .delete keys reachable =>
      .ok (.done, if reachable then { s with entries := deleteAll keys s.entries } else s)

/-- The service with an empty cache and no requests. -/
def machine (world : W) : Machine (State Q K V W) (Input Q K W) (Output Q V) Unit where
  init := ⟨0, world, ∅, ∅, 0⟩
  exec := exec service

/-! ## What the events of a run do -/

variable {service}

abbrev StepEvent (Q K V W : Type) := Event (State Q K V W) (Input Q K W) (Output Q V)

/-- The question was asked, missed the cache and became the request `n`. -/
def Asked (log : List (StepEvent Q K V W)) (n : Nat) (question : Q) : Prop :=
  ∃ event ∈ log, (∃ reachable, event.input = .ask question reachable) ∧
    event.output = .missed n

/-- The request `n`, asked before, read the value from a source of its question. -/
def FetchedBy (service : Service Q K V W) (log : List (StepEvent Q K V W)) (n : Nat)
    (question : Q) (value : V) : Prop :=
  ∃ before event after, log = before ++ event :: after ∧ Asked before n question ∧
    (∃ reachable, event.input = .proceed n reachable) ∧
    ∃ source ∈ service.sources question, source event.pre.world = .value value

/-- The request `n` stores its answer in the cache. -/
def Stores (event : StepEvent Q K V W) (n : Nat) (question : Q) (value : V) : Prop :=
  event.input = .proceed n true ∧ event.output = .answered question value

/-- The event deletes or replaces what the cache has under the key. -/
def Touches (service : Service Q K V W) (event : StepEvent Q K V W) (key : K) : Prop :=
  (∃ keys, event.input = .delete keys true ∧ key ∈ keys) ∨
    ∃ n question value, Stores event n question value ∧ service.key question = key

/-- The value is from the last event of the log that touched the key: a request stored it at a
time not later than `now`, after reading it from a source, and it expires at `expiresAt`. -/
def StoredIn (service : Service Q K V W) (log : List (StepEvent Q K V W)) (now : Nat) (key : K)
    (value : V) (expiresAt : Nat) : Prop :=
  ∃ before event after n question, log = before ++ event :: after ∧
    Stores event n question value ∧ service.key question = key ∧
    FetchedBy service before n question value ∧
    (∀ later ∈ after, ¬ Touches service later key) ∧
    event.pre.now ≤ now ∧ expiresAt = event.pre.now + service.ttl

section

variable {log : List (StepEvent Q K V W)} {event : StepEvent Q K V W} {n : Nat} {question : Q}
  {value : V}

omit [DecidableEq K]

theorem Asked.snoc (asked : Asked log n question) : Asked (log ++ [event]) n question := by
  obtain ⟨earlier, logged, asks⟩ := asked
  exact ⟨earlier, List.mem_append_left _ logged, asks⟩

theorem FetchedBy.snoc (fetched : FetchedBy service log n question value) :
    FetchedBy service (log ++ [event]) n question value := by
  obtain ⟨before, fetch, after, split, fetches⟩ := fetched
  exact ⟨before, fetch, after ++ [event], by simp [split], fetches⟩

theorem StoredIn.snoc {now now' : Nat} {key : K} {expiresAt : Nat}
    (stored : StoredIn service log now key value expiresAt)
    (untouched : ¬ Touches service event key) (passed : now ≤ now') :
    StoredIn service (log ++ [event]) now' key value expiresAt := by
  obtain ⟨before, store, after, n, question, split, stores, same, fetched, untouched', earlier,
    expires⟩ := stored
  refine ⟨before, store, after ++ [event], n, question, by simp [split], stores, same, fetched,
    ?_, earlier.trans passed, expires⟩
  intro later listed
  rcases List.mem_append.mp listed with old | new
  · exact untouched' later old
  · rw [List.mem_singleton.mp new]
    exact untouched

end

/-! ## One step -/

/-- What one step does. -/
inductive Step (service : Service Q K V W) (s s' : State Q K V W) :
    Input Q K W → Output Q V → Prop where
  | waits (duration : Nat) (passed : s' = { s with now := s.now + duration }) :
      Step service s s' (.wait duration) .done
  | changes (world : W) (changed : s' = { s with world }) : Step service s s' (.change world) .done
  | hits (question : Q) (value : V) (found : s.get (service.key question) = some value)
      (same : s' = s) : Step service s s' (.ask question true) (.answered question value)
  | misses (question : Q) (reachable : Bool)
      (added : s' = { s with
        requests := s.requests.insert s.requestCount (question, .consulting 0)
        requestCount := s.requestCount + 1 }) :
      Step service s s' (.ask question reachable) (.missed s.requestCount)
  | turns (n : Nat) (reachable : Bool) (question : Q) (i : Nat)
      (waiting : s.requests.lookup n = some (question, .consulting i))
      (turned : s' = { s with requests := s.requests.insert n (question, .consulting (i + 1)) }) :
      Step service s s' (.proceed n reachable) .done
  | fetches (n : Nat) (reachable : Bool) (question : Q) (value : V) (i : Nat)
      (waiting : s.requests.lookup n = some (question, .consulting i))
      (source : ∃ source ∈ service.sources question, source s.world = .value value)
      (kept : s' = { s with requests := s.requests.insert n (question, .storing value) }) :
      Step service s s' (.proceed n reachable) (.fetched question value)
  | fails (n : Nat) (reachable : Bool) (question : Q)
      (dropped : s' = { s with requests := s.requests.erase n }) :
      Step service s s' (.proceed n reachable) (.failed question)
  | settles (n : Nat) (reachable : Bool) (question : Q) (value : V)
      (waiting : s.requests.lookup n = some (question, .storing value))
      (settled : s' = (settle service s n question value reachable).2) :
      Step service s s' (.proceed n reachable) (.answered question value)
  | deletes (keys : List K) (reachable : Bool)
      (deleted : s' = if reachable then { s with entries := deleteAll keys s.entries } else s) :
      Step service s s' (.delete keys reachable) .done

theorem step_of_exec {s s' : State Q K V W} {input : Input Q K W} {output : Output Q V}
    (h : exec service s input = .ok (output, s')) : Step service s s' input output := by
  cases input with
  | wait duration =>
      cases h
      exact .waits duration rfl
  | change world =>
      cases h
      exact .changes world rfl
  | ask question reachable =>
      simp only [exec] at h
      split at h
      · next value found =>
          cases h
          cases reachable with
          | false => cases found
          | true => exact .hits question value found rfl
      · cases h
        exact .misses question reachable rfl
  | proceed n reachable =>
      simp only [exec] at h
      split at h
      · cases h
      · next question i waiting =>
          simp only [consult] at h
          split at h
          · next value read =>
              cases h
              obtain ⟨source, listed, read⟩ := Option.map_eq_some_iff.mp read
              exact .fetches n reachable question value i waiting
                ⟨source, List.mem_of_getElem? listed, read⟩ rfl
          · cases h
            exact .turns n reachable question i waiting rfl
          · cases h
            exact .fails n reachable question rfl
          · cases h
            exact .fails n reachable question rfl
      · next question value waiting =>
          cases h
          exact .settles n reachable question value waiting rfl
  | delete keys reachable =>
      cases h
      exact .deletes keys reachable rfl

section

variable {s s' : State Q K V W} {input : Input Q K W} {output : Output Q V}

theorem Step.later (step : Step service s s' input output) : s.now ≤ s'.now := by
  cases step with
  | waits duration passed =>
      rw [passed]
      exact Nat.le_add_right _ _
  | changes _ same | hits _ _ _ same | misses _ _ same | turns _ _ _ _ _ same
  | fetches _ _ _ _ _ _ _ same | fails _ _ _ same => rw [same]
  | settles _ _ _ _ _ same =>
      rw [same]
      rfl
  | deletes keys reachable same =>
      rw [same]
      cases reachable <;> rfl

/-- The world changes only as a step says. -/
theorem Step.world (step : Step service s s' input output) :
    s'.world = s.world ∨ input = .change s'.world := by
  cases step with
  | changes world changed =>
      rw [changed]
      exact .inr rfl
  | waits _ same | hits _ _ _ same | misses _ _ same | turns _ _ _ _ _ same
  | fetches _ _ _ _ _ _ _ same | fails _ _ _ same | settles _ _ _ _ _ same =>
      rw [same]
      exact .inl rfl
  | deletes keys reachable same =>
      rw [same]
      cases reachable <;> exact .inl rfl

/-- An entry was there before, under a key that the step does not touch, or the step stores
it. -/
theorem Step.entries (step : Step service s s' input output) {key : K} {entry : V × Nat}
    (found : s'.entries.lookup key = some entry) :
    s.entries.lookup key = some entry ∧ ¬ Touches service ⟨s, input, output, s'⟩ key ∨
      ∃ n question value, s.requests.lookup n = some (question, .storing value) ∧
        Stores ⟨s, input, output, s'⟩ n question value ∧ service.key question = key ∧
        entry = (value, s.now + service.ttl) := by
  cases step with
  | waits _ same | changes _ same | hits _ _ _ same | misses _ _ same | turns _ _ _ _ _ same
  | fetches _ _ _ _ _ _ _ same | fails _ _ _ same =>
      subst same
      exact .inl ⟨found, by simp [Touches, Stores]⟩
  | settles n reachable question value waiting settled =>
      subst settled
      cases reachable with
      | false => exact .inl ⟨found, by simp [Touches, Stores]⟩
      | true =>
          simp only [settle, if_true, Store.lookup_insert_ite] at found
          split at found
          · next same =>
              cases found
              exact .inr ⟨n, question, value, waiting, ⟨rfl, rfl⟩, same.symm, rfl⟩
          · next differs =>
              refine .inl ⟨found, ?_⟩
              simp only [Touches, Stores, reduceCtorEq, false_and, exists_false, false_or,
                Input.proceed.injEq, Output.answered.injEq]
              rintro ⟨_, _, _, ⟨-, rfl, -⟩, same⟩
              exact differs same.symm
  | deletes keys reachable deleted =>
      subst deleted
      cases reachable with
      | false => exact .inl ⟨found, by simp [Touches, Stores]⟩
      | true =>
          simp only [if_true, lookup_deleteAll] at found
          split at found
          · cases found
          · next unlisted => exact .inl ⟨found, by simp [Touches, Stores, unlisted]⟩

/-- A request was asked before or is asked by the step, and a value that it is about to store
was fetched before or is fetched by the step. -/
theorem Step.requests (step : Step service s s' input output) {n : Nat} {question : Q}
    {stage : Stage V} (waiting : s'.requests.lookup n = some (question, stage)) :
    s.requests.lookup n = some (question, stage) ∨
      ((∃ reachable, input = .ask question reachable) ∧ output = .missed n ∧
        ∀ value, stage ≠ .storing value) ∨
      ∃ i, s.requests.lookup n = some (question, .consulting i) ∧
        ∀ value, stage = .storing value → (∃ reachable, input = .proceed n reachable) ∧
          ∃ source ∈ service.sources question, source s.world = .value value := by
  cases step with
  | waits _ same | changes _ same | hits _ _ _ same =>
      subst same
      exact .inl waiting
  | misses asked reachable added =>
      subst added
      simp only [Store.lookup_insert_ite] at waiting
      split at waiting
      · next same =>
          cases waiting
          exact .inr (.inl ⟨⟨reachable, rfl⟩, by rw [same], by simp⟩)
      · exact .inl waiting
  | turns m reachable asked i before turned =>
      subst turned
      simp only [Store.lookup_insert_ite] at waiting
      split at waiting
      · next same =>
          cases waiting
          rw [same]
          exact .inr (.inr ⟨i, before, by simp⟩)
      · exact .inl waiting
  | fetches m reachable asked fetched i before source kept =>
      subst kept
      simp only [Store.lookup_insert_ite] at waiting
      split at waiting
      · next same =>
          cases waiting
          rw [same]
          refine .inr (.inr ⟨i, before, ?_⟩)
          rintro value stores
          cases stores
          exact ⟨⟨reachable, rfl⟩, source⟩
      · exact .inl waiting
  | fails m reachable asked dropped =>
      subst dropped
      simp only [Store.lookup_erase_ite] at waiting
      split at waiting
      · cases waiting
      · exact .inl waiting
  | settles m reachable asked value before settled =>
      subst settled
      simp only [settle, Store.lookup_erase_ite] at waiting
      split at waiting
      · cases waiting
      · exact .inl waiting
  | deletes keys reachable deleted =>
      subst deleted
      cases reachable <;> exact .inl waiting

end

/-! ## Runs -/

/-- Every entry was stored by the last event that touched its key; every request was asked, and
read what it is about to store. -/
structure Sourced (service : Service Q K V W) (log : List (StepEvent Q K V W))
    (s : State Q K V W) : Prop where
  entries : ∀ key value expiresAt, s.entries.lookup key = some (value, expiresAt) →
    StoredIn service log s.now key value expiresAt
  asked : ∀ n question stage, s.requests.lookup n = some (question, stage) →
    Asked log n question
  fetched : ∀ n question value, s.requests.lookup n = some (question, .storing value) →
    FetchedBy service log n question value

theorem sourced_init (world : W) : Sourced service [] (machine service world).init where
  entries key value expiresAt found := by cases found
  asked n question stage waiting := by cases waiting
  fetched n question value waiting := by cases waiting

theorem Sourced.step {log : List (StepEvent Q K V W)} {event : StepEvent Q K V W}
    (sourced : Sourced service log event.pre)
    (step : Step service event.pre event.post event.input event.output) :
    Sourced service (log ++ [event]) event.post where
  entries key value expiresAt found := by
    rcases step.entries found with ⟨before, untouched⟩ |
      ⟨n, question, _, waiting, stores, same, its⟩
    · exact (sourced.entries key value expiresAt before).snoc untouched step.later
    · cases its
      exact ⟨log, event, [], n, question, rfl, stores, same,
        sourced.fetched n question value waiting, by simp, step.later, rfl⟩
  asked n question stage waiting := by
    rcases step.requests waiting with before | ⟨asks, missed, -⟩ | ⟨i, before, -⟩
    · exact (sourced.asked n question stage before).snoc
    · exact ⟨event, List.mem_concat_self, asks, missed⟩
    · exact (sourced.asked n question _ before).snoc
  fetched n question value waiting := by
    rcases step.requests waiting with before | ⟨-, -, idle⟩ | ⟨i, before, fetches⟩
    · exact (sourced.fetched n question value before).snoc
    · exact absurd rfl (idle value)
    · obtain ⟨proceeds, source⟩ := fetches value rfl
      exact ⟨log, event, [], rfl, sourced.asked n question _ before, proceeds, source⟩

theorem sourced_run (world : W) (inputs : List (Input Q K W)) :
    Sourced service ((machine service world).log inputs)
      ((machine service world).state inputs) :=
  (machine service world).run_induct (fun log s => Sourced service log s) (sourced_init world)
    (fun _ _ sourced commits => sourced.step (step_of_exec commits)) inputs

/-- Every answer was read by its own request after it was asked, or it is in the cache: a
request stored it under the same key after reading it, no event has touched the key since, and
it has not outlived its time. -/
theorem answers_sourced (world : W) (inputs : List (Input Q K W))
    {before after : List (StepEvent Q K V W)} {event : StepEvent Q K V W}
    (split : (machine service world).log inputs = before ++ event :: after) {question : Q}
    {value : V} (answered : event.output = .answered question value) :
    (∃ n reachable, event.input = .proceed n reachable ∧
        FetchedBy service before n question value) ∨
      event.input = .ask question true ∧ ∃ expiresAt, event.pre.now < expiresAt ∧
        StoredIn service before event.pre.now (service.key question) value expiresAt := by
  obtain ⟨earlier, later, -, logged, reached, commits⟩ := (machine service world).log_split split
  have sourced : Sourced service before event.pre := by
    rw [← logged, ← reached]
    exact sourced_run world earlier
  obtain ⟨s, input, output, s'⟩ := event
  dsimp only at answered sourced ⊢
  subst answered
  cases step_of_exec commits with
  | hits _ _ found same =>
      obtain ⟨⟨stored, expiresAt⟩, present, valid⟩ := Option.bind_eq_some_iff.mp found
      split at valid
      · next unexpired =>
          cases valid
          exact .inr ⟨rfl, expiresAt, unexpired, sourced.entries _ _ _ present⟩
      · cases valid
  | settles n reachable _ _ waiting _ =>
      exact .inl ⟨n, reachable, rfl, sourced.fetched n question value waiting⟩

end CarbonChain.ReadThrough
