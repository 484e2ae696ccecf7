import CarbonChain.Misc.Machine
import CarbonChain.Misc.Store
import CarbonChain.Misc.Text
import CarbonChain.Misc.Windows
import Mathlib.Algebra.Order.Group.Int
import Mathlib.Algebra.Order.Ring.Int

/-!
# The rate limiter

`ThrottlerGuard` of `api/src/common/throttler.guard.ts` keeps a hit record for every
address and path: how many requests it admitted in the current window and when that window
ends. A request in the window is refused once the limit is reached; the first request after
its end starts the next window. The guard is a machine whose inputs are the requests with
the clock they find, and what it logs are the admitted ones.
-/

namespace CarbonChain.Throttler

open Windows

/-- The options of a route (13-18): the requests allowed in a window, and its duration in
milliseconds. -/
structure ThrottleOptions where
  limit : Nat
  ttl : Int
  deriving DecidableEq

/-- `HitRecord` (32-35). -/
structure HitRecord where
  count : Nat
  resetAt : Int
  deriving DecidableEq

/-- The message and the status of an exception. -/
structure HttpException where
  response : String
  status : Nat
  deriving DecidableEq

/-- What the guard reads of a request: the header `x-forwarded-for`, the address of the socket
and the path. -/
structure Request where
  forwardedFor : Option String
  remoteAddress : Option String
  path : String
  deriving DecidableEq

/-- A request with the options that the decorator `Throttle` set on its handler and on the
class of its handler. -/
structure ExecutionContext where
  handlerOptions : Option ThrottleOptions
  classOptions : Option ThrottleOptions
  request : Request
  deriving DecidableEq

/-- The options of the handler come before those of its class (49-51). -/
def ExecutionContext.options (context : ExecutionContext) : Option ThrottleOptions :=
  context.handlerOptions <|> context.classOptions

/-- Whom a request counts for (56-61): the first address that the header names comes before
that of the socket. -/
def Request.ip (request : Request) : String :=
  match request.forwardedFor with
  | some addresses => Text.trim (Text.firstPart ',' addresses)
  | none => request.remoteAddress.getD "unknown"

/-- `${ip}:${req.path}`. -/
def Request.key (request : Request) : String := request.ip ++ ":" ++ request.path

/-- The `store` of the guard. -/
abbrev HitStore := Store String HitRecord

/-- What a request past the limit is refused with (73-76). -/
def tooManyRequests : HttpException := ⟨"Too Many Requests", 429⟩

/-- `canActivate` (48-81), at the clock `now`. -/
def canActivate (store : HitStore) (context : ExecutionContext) (now : Int) :
    Except HttpException (Bool × HitStore) :=
  match context.options with
  | none => .ok (true, store)
  | some options =>
      let key := context.request.key
      let fresh := store.insert key ⟨1, now + options.ttl⟩
      match store.lookup key with
      | none => .ok (true, fresh)
      | some record =>
          if now > record.resetAt then .ok (true, fresh)
          else if record.count ≥ options.limit then .error tooManyRequests
          else .ok (true, store.insert key { record with count := record.count + 1 })

/-- A request with the clock it finds. -/
structure Arrival where
  context : ExecutionContext
  now : Int
  deriving DecidableEq

/-- What an arrival counts under. -/
def Arrival.key (arrival : Arrival) : String := arrival.context.request.key

/-- The guard from its start, without hit records. -/
def guard : Machine HitStore Arrival Bool HttpException where
  init := ∅
  exec store arrival := canActivate store arrival.context arrival.now

/-- When the requests for the key were admitted, in order. -/
def admitted (key : String) (log : List (Event HitStore Arrival Bool)) : List Int :=
  (log.filter (·.input.key = key)).map (·.input.now)

/-- The clock does not go back, and the requests for the key all come with the options. -/
structure Serves (key : String) (options : ThrottleOptions) (inputs : List Arrival) : Prop where
  nondecreasing : inputs.Pairwise fun earlier later => earlier.now ≤ later.now
  same : ∀ arrival ∈ inputs, arrival.key = key → arrival.context.options = some options

theorem Serves.left {key : String} {options : ThrottleOptions} {inputs more : List Arrival}
    (serves : Serves key options (inputs ++ more)) : Serves key options inputs where
  nondecreasing := (List.pairwise_append.mp serves.nondecreasing).1
  same arrival listed := serves.same arrival (List.mem_append_left more listed)

theorem admitted_snoc (key : String) (log : List (Event HitStore Arrival Bool))
    (event : Event HitStore Arrival Bool) :
    admitted key (log ++ [event]) =
      admitted key log ++ if event.input.key = key then [event.input.now] else [] := by
  unfold admitted
  rw [List.filter_append, List.map_append]
  by_cases same : event.input.key = key <;> simp [same]

/-! ## One request -/

/-- What an admitted request writes under its key. -/
def hit (options : ThrottleOptions) (record : Option HitRecord) (now : Int) : HitRecord :=
  match record with
  | none => ⟨1, now + options.ttl⟩
  | some r => if now > r.resetAt then ⟨1, now + options.ttl⟩ else { r with count := r.count + 1 }

/-- A request with options is admitted if the window has ended or has room for it. -/
theorem canActivate_eq_ok {store post : HitStore} {context : ExecutionContext} {now : Int}
    {options : ThrottleOptions} {output : Bool} (found : context.options = some options) :
    canActivate store context now = .ok (output, post) ↔
      (∀ r ∈ store.lookup context.request.key, r.resetAt < now ∨ r.count < options.limit) ∧
      output = true ∧
      store.insert context.request.key
        (hit options (store.lookup context.request.key) now) = post := by
  unfold canActivate hit
  rw [found]
  cases stored : store.lookup context.request.key with
  | none => simp [stored, eq_comm]
  | some r =>
      by_cases ended : now > r.resetAt
      · simp [stored, ended, eq_comm]
      · by_cases full : r.count ≥ options.limit
        · simp [stored, ended, full]
        · have room : r.count < options.limit := by omega
          simp [stored, ended, full, room, eq_comm]

/-- A request leaves the records of the other keys as they are. -/
theorem canActivate_other {store post : HitStore} {context : ExecutionContext} {now : Int}
    {output : Bool} {key : String} (ok : canActivate store context now = .ok (output, post))
    (other : context.request.key ≠ key) : post.lookup key = store.lookup key := by
  cases found : context.options with
  | none =>
      rw [canActivate, found] at ok
      cases ok
      rfl
  | some options =>
      obtain ⟨-, -, rfl⟩ := (canActivate_eq_ok found).mp ok
      rw [Finmap.lookup_insert_of_ne _ other.symm]

/-! ## The record and the admitted requests -/

/-- What the record of a key says about the times its requests were admitted at: the end of the
current window and how many of them are in it. No window has more of them than allowed. -/
structure Tracks (options : ThrottleOptions) (times : List Int) (record : Option HitRecord) :
    Prop where
  bounded : Bounded options.limit options.ttl times
  unopened : record = none → times = []
  current : ∀ r ∈ record, ∃ s ∈ (openings options.ttl times).getLast?,
    r.resetAt = s + options.ttl ∧ r.count = within options.ttl s times

variable {options : ThrottleOptions} {times : List Int} {record : Option HitRecord} {now : Int}

theorem tracks_nil (options : ThrottleOptions) : Tracks options [] none where
  bounded := by simp [Bounded, openings]
  unopened _ := rfl
  current := by simp

/-- The record of a key whose next window is opened. -/
theorem Tracks.opens (tracks : Tracks options times record) (positive : 1 ≤ options.limit)
    (nonneg : 0 ≤ options.ttl) (sorted : times.Pairwise (· ≤ ·))
    (past : ∀ s ∈ (openings options.ttl times).getLast?, s + options.ttl < now) :
    Tracks options (times ++ [now]) (some ⟨1, now + options.ttl⟩) where
  bounded := tracks.bounded.open_ positive nonneg sorted past
  unopened := by simp
  current := by
    intro r stored
    obtain rfl := Option.some.inj stored
    refine ⟨now, ?_, rfl, ?_⟩
    · rw [openings_of_past past]
      exact List.getLast?_concat
    · exact (within_of_past nonneg sorted past).symm

/-- An admitted request keeps the record in step. -/
theorem Tracks.admit (tracks : Tracks options times record) (positive : 1 ≤ options.limit)
    (nonneg : 0 ≤ options.ttl) (sorted : (times ++ [now]).Pairwise (· ≤ ·))
    (admits : ∀ r ∈ record, r.resetAt < now ∨ r.count < options.limit) :
    Tracks options (times ++ [now]) (some (hit options record now)) := by
  obtain ⟨earlier, -, below⟩ := List.pairwise_append.mp sorted
  cases record with
  | none =>
      apply tracks.opens positive nonneg earlier
      simp [tracks.unopened rfl, openings]
  | some r =>
      obtain ⟨s, last, ends, counts⟩ := tracks.current r rfl
      by_cases ended : now > r.resetAt
      · rw [show hit options (some r) now = ⟨1, now + options.ttl⟩ from if_pos ended]
        apply tracks.opens positive nonneg earlier
        intro s' last'
        rw [Option.mem_unique last' last, ← ends]
        exact ended
      · rw [show hit options (some r) now = ⟨r.count + 1, r.resetAt⟩ from if_neg ended]
        have opened : s ∈ times := openings_subset _ times s (List.mem_of_getLast? last)
        have after : s ≤ now := below s opened now List.mem_cons_self
        have inside : now ≤ s + options.ttl := by omega
        have room : r.count < options.limit := (admits r rfl).resolve_left ended
        refine ⟨?_, by simp, ?_⟩
        · exact tracks.bounded.join nonneg last after inside (counts ▸ room)
        · intro r' stored
          obtain rfl := Option.some.inj stored
          refine ⟨s, ?_, ends, ?_⟩
          · rw [openings_of_current last inside]
            exact last
          · rw [within_snoc, if_pos ⟨after, inside⟩, counts]

/-! ## Runs -/

/-- The requests for a key are admitted at the times of some of the requests, in order. -/
theorem admitted_sublist (key : String) (inputs : List Arrival) :
    (admitted key (guard.log inputs)).Sublist (inputs.map Arrival.now) := by
  induction inputs using List.reverseRecOn with
  | nil => exact List.nil_sublist _
  | append_singleton inputs arrival ih =>
      rw [List.map_append]
      cases activated : guard.exec (guard.state inputs) arrival with
      | error failure =>
          rw [(guard.snoc_of_error activated).2]
          exact ih.trans (List.sublist_append_left _ _)
      | ok result =>
          rw [(guard.snoc_of_ok activated).2, admitted_snoc]
          apply ih.append
          split
          · exact .refl _
          · exact List.nil_sublist _

theorem Serves.sorted {key : String} {inputs : List Arrival}
    (serves : Serves key options inputs) : (inputs.map Arrival.now).Pairwise (· ≤ ·) :=
  List.pairwise_map.mpr serves.nondecreasing

/-- The record of a key is in step with the admitted requests after every run. -/
theorem tracks {key : String} {inputs : List Arrival} (positive : 1 ≤ options.limit)
    (nonneg : 0 ≤ options.ttl) (serves : Serves key options inputs) :
    Tracks options (admitted key (guard.log inputs)) ((guard.state inputs).lookup key) := by
  induction inputs using List.reverseRecOn with
  | nil => exact tracks_nil options
  | append_singleton inputs arrival ih =>
      have before := ih serves.left
      cases activated : guard.exec (guard.state inputs) arrival with
      | error failure =>
          rw [(guard.snoc_of_error activated).1, (guard.snoc_of_error activated).2]
          exact before
      | ok result =>
          obtain ⟨output, post⟩ := result
          have sublist := admitted_sublist key (inputs ++ [arrival])
          rw [(guard.snoc_of_ok activated).2] at sublist ⊢
          rw [(guard.snoc_of_ok activated).1]
          rw [admitted_snoc] at sublist ⊢
          by_cases same : arrival.key = key
          · rw [if_pos same] at sublist ⊢
            have found := serves.same arrival List.mem_concat_self same
            obtain ⟨admits, -, rfl⟩ := (canActivate_eq_ok found).mp activated
            subst same
            rw [show arrival.context.request.key = arrival.key from rfl, Finmap.lookup_insert]
            exact before.admit positive nonneg (serves.sorted.sublist sublist) admits
          · rw [if_neg same, List.append_nil, canActivate_other activated same]
            exact before

/-- The guard admits no more than the limit in a window, admits a request if and only if the
window has ended or has room for it, and so admits no more than twice the limit in any closed
interval of the length of a window. -/
theorem rate_limited {key : String} {inputs : List Arrival} (positive : 1 ≤ options.limit)
    (nonneg : 0 ≤ options.ttl) (serves : Serves key options inputs) :
    let times := admitted key (guard.log inputs)
    (∀ s ∈ openings options.ttl times, within options.ttl s times ≤ options.limit) ∧
    (∀ arrival, Serves key options (inputs ++ [arrival]) → arrival.key = key →
      ((∃ post, guard.exec (guard.state inputs) arrival = .ok (true, post)) ↔
        ∀ s ∈ (openings options.ttl times).getLast?,
          s + options.ttl < arrival.now ∨ within options.ttl s times < options.limit)) ∧
    ∀ a, within options.ttl a times ≤ 2 * options.limit := by
  intro times
  have step := tracks positive nonneg serves
  have sorted := serves.sorted.sublist (admitted_sublist key inputs)
  refine ⟨step.bounded, ?_, step.bounded.interval nonneg sorted⟩
  intro arrival later same
  have found := later.same arrival List.mem_concat_self same
  have admits : (∃ post, guard.exec (guard.state inputs) arrival = .ok (true, post)) ↔
      ∀ r ∈ (guard.state inputs).lookup key,
        r.resetAt < arrival.now ∨ r.count < options.limit := by
    subst same
    constructor
    · rintro ⟨post, activated⟩
      exact ((canActivate_eq_ok found).mp activated).1
    · exact fun admits => ⟨_, (canActivate_eq_ok found).mpr ⟨admits, rfl, rfl⟩⟩
  rw [admits]
  cases record : (guard.state inputs).lookup key with
  | none =>
      have empty : times = [] := step.unopened record
      simp [empty, openings]
  | some r =>
      obtain ⟨s, last, ends, counts⟩ := step.current r record
      rw [Option.mem_def.mp last]
      simp [ends, counts, times]

namespace Sample

def perSecond : ThrottleOptions := ⟨1, 1000⟩

def at_ (address : String) (now : Int) : Arrival where
  context := ⟨some perSecond, none, ⟨none, some address, "/auth/challenge"⟩⟩
  now := now

end Sample

open Sample in
/-- One request is admitted, a second one in its window is refused, and the next one after the
window is admitted. -/
theorem rate_limited_per_second :
    let inputs := [at_ "9.9.9.9" 0, at_ "5.6.7.8" 0, at_ "9.9.9.9" 1000, at_ "9.9.9.9" 1001]
    admitted "9.9.9.9:/auth/challenge" (guard.log inputs) = [0, 1001] ∧
      within 1000 1 (admitted "9.9.9.9:/auth/challenge" (guard.log inputs)) ≤ 2 * 1 := by
  intro inputs
  have serves : Serves "9.9.9.9:/auth/challenge" perSecond inputs := ⟨by decide, by decide⟩
  have positive : 1 ≤ perSecond.limit := by decide
  have nonneg : 0 ≤ perSecond.ttl := by decide
  exact ⟨by decide, (rate_limited positive nonneg serves).2.2 1⟩

end CarbonChain.Throttler
