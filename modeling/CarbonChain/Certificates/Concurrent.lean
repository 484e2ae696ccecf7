import CarbonChain.Certificates.Verification
import CarbonChain.Misc.Keyed

/-!
# Calls of `retire` at once

`retire` (`api/src/retirement/retirement.service.ts:90-149`) awaits the chain, and then the
repository, before it emits `CreditRetired`. Other calls go on meanwhile. The repository keeps
one entity for each id, and every call whose response has no return value saves under
`'unknown'`.
-/

namespace CarbonChain.Certificates

open Positions
open Stellar (Rpc GetTransactionResponse)

/-- The event of a call that has its id and its time. -/
def RetireDto.event (dto : RetireDto) (retirementId : Written BytesN32) (now : Nat) :
    CreditRetiredEvent where
  retirementId := retirementId
  creditId := dto.creditId
  buyer := dto.buyerPublicKey
  tonnesRetired := dto.tonnes
  retiredAt := (dto.entity retirementId now).retiredAt

/-- Where a call of `retire` stands: it awaits `invokeContract`, or `save` with the outcome of
the write, or it has returned or thrown. -/
inductive Task where
  | invoking (dto : RetireDto)
  | saving (dto : RetireDto) (retirementId : Written BytesN32) (now : Nat) (written : Bool)
  | done

/-- The calls of `retire` in the order in which they came, and the repository they share. -/
structure Calls where
  repo : Repository
  tasks : List Task

/-- What a call does to the repository and the emitter between two `await`s. -/
inductive Effect where
  | save (record : RetirementEntity) (written : Bool)
  | emit (event : CreditRetiredEvent)

/-- What comes from outside as a call goes on: what the servers answer, the time, and whether
the write succeeds. -/
structure Reply where
  rpc : Rpc BytesN32
  now : Nat
  written : Bool

/-- No server answers. -/
instance : Inhabited Reply :=
  ⟨⟨⟨.error .trap, .error .trap, .error .trap, fun _ => .error .trap⟩, 0, true⟩⟩

/-- A call comes, and waits for `invokeContract` unless it throws before. -/
def startTask (config : Config) (dto : RetireDto) : Task :=
  match submit config dto with
  | .ok _ => .invoking dto
  | .error _ => .done

/-- A call goes on to its next `await`. -/
def resumeTask (reply : Reply) (repo : Repository) : Task → Repository × Task × Option Effect
  | .invoking dto =>
      match Stellar.invokeContract reply.rpc with
      | .error _ => (repo, .done, none)
      | .ok response =>
          let retirementId := retirementIdOf response
          let entity := dto.entity retirementId reply.now
          (if reply.written then repo.save entity else repo,
            .saving dto retirementId reply.now reply.written, some (.save entity reply.written))
  | .saving dto retirementId now written =>
      if written then (repo, .done, some (.emit (dto.event retirementId now)))
      else (repo, .done, none)
  | .done => (repo, .done, none)

/-- A call of `retire` comes, or one goes on. -/
inductive Turn where
  | retire (dto : RetireDto)
  | resume (call : Nat) (reply : Reply)

/-- A call is started, or one goes on with what it awaited. -/
def turn (config : Config) (s : Calls) : Turn → Except Unit (Option Effect × Calls)
  | .retire dto => .ok (none, { s with tasks := s.tasks ++ [startTask config dto] })
  | .resume call reply =>
      match s.tasks[call]? with
      | none => .error ()
      | some task =>
          let (repo, task, effect) := resumeTask reply s.repo task
          .ok (effect, ⟨repo, s.tasks.set call task⟩)

/-- The calls of a service that starts with an empty repository. -/
def calls (config : Config) : Machine Calls Turn (Option Effect) Unit where
  init := ⟨∅, []⟩
  exec := turn config

abbrev CallsEvent := Event Calls Turn (Option Effect)

variable {config : Config}

/-! ## What holds of the events -/

/-- The call emits `CreditRetired`. -/
def Emits (event : CallsEvent) (call : Nat) : Prop :=
  ∃ reply emitted, event.input = .resume call reply ∧ event.output = some (.emit emitted)

/-- The write of the call fails. -/
def FailsToWrite (event : CallsEvent) (call : Nat) : Prop :=
  ∃ reply record, event.input = .resume call reply ∧ event.output = some (.save record false)

/-- `findById` yields a record with the data of the event. -/
def Persisted (repo : Repository) (emitted : CreditRetiredEvent) : Prop :=
  ∃ record, repo.findById emitted.retirementId = some record ∧
    record.creditId = emitted.creditId ∧ record.buyer = emitted.buyer ∧
    record.tonnesRetired = emitted.tonnesRetired ∧ record.retiredAt = emitted.retiredAt

/-- Calls emit at most once, not after their write failed, and what is persisted. -/
structure EmitsPersisted (log : List CallsEvent) : Prop where
  once : log.Pairwise fun event later => ∀ call, Emits event call → ¬ Emits later call
  written : log.Pairwise fun event later => ∀ call, FailsToWrite event call →
    ¬ Emits later call
  persisted : ∀ event ∈ log, ∀ emitted, event.output = some (.emit emitted) →
    Persisted event.pre.repo emitted

/-- The same, whichever call goes on next. -/
def EmitsPersistedNext (config : Config) (inputs : List Turn) : Prop :=
  ∀ call reply, EmitsPersisted ((calls config).log (inputs ++ [.resume call reply]))

/-- A call that writes finds no other one that wrote under the same id and has not emitted yet,
unless their events are the same. -/
def Separate (event : CallsEvent) : Prop :=
  ∀ call reply dto response, event.input = .resume call reply →
    event.pre.tasks[call]? = some (.invoking dto) → reply.rpc.Responds response →
    reply.written = true → ∀ (other : Nat) (dto' : RetireDto) (now : Nat),
      event.pre.tasks[other]? = some (.saving dto' (retirementIdOf response) now true) →
        dto'.event (retirementIdOf response) now = dto.event (retirementIdOf response) reply.now

/-! ## A call alone -/

/-- With no other call between its turns, and a write that succeeds, a call does what `retire`
does. -/
theorem retire_eq_turns (repo : Repository) (dto : RetireDto) (reply : Reply)
    (written : reply.written = true) :
    match retire config repo dto reply.rpc reply.now with
    | .error _ => resumeTask reply repo (startTask config dto) = (repo, .done, none)
    | .ok (retired, repo') =>
        ∃ waiting entity,
          resumeTask reply repo (startTask config dto) =
            (repo', waiting, some (.save entity true)) ∧
          ∀ later, resumeTask later repo' waiting =
            (repo', .done, some (.emit retired.emitted)) := by
  unfold retire startTask
  cases submit config dto with
  | error failure => rfl
  | ok submitted =>
      simp only [resumeTask]
      cases Stellar.invokeContract reply.rpc with
      | error failure => rfl
      | ok response =>
          refine ⟨.saving dto (retirementIdOf response) reply.now true,
            dto.entity (retirementIdOf response) reply.now, ?_, ?_⟩
          · simp only [written, if_true]
          · intro later
            rfl

/-! ## One turn -/

/-- The call emits nothing any more: it returned or threw, or its write failed. -/
def Task.Spent : Task → Prop
  | .invoking _ => False
  | .saving _ _ _ written => written = false
  | .done => True

/-- What a turn can do. -/
inductive Turns (config : Config) (s : Calls) : Turn → Option Effect → Calls → Prop where
  | called (dto : RetireDto) :
      Turns config s (.retire dto) none ⟨s.repo, s.tasks ++ [startTask config dto]⟩
  | threw (call : Nat) (reply : Reply) (dto : RetireDto)
      (running : s.tasks[call]? = some (.invoking dto))
      (unanswered : ∀ response, ¬ reply.rpc.Responds response) :
      Turns config s (.resume call reply) none ⟨s.repo, s.tasks.set call .done⟩
  | wrote (call : Nat) (reply : Reply) (dto : RetireDto)
      (response : GetTransactionResponse BytesN32)
      (running : s.tasks[call]? = some (.invoking dto))
      (responds : reply.rpc.Responds response) (written : reply.written = true) :
      Turns config s (.resume call reply)
        (some (.save (dto.entity (retirementIdOf response) reply.now) true))
        ⟨s.repo.save (dto.entity (retirementIdOf response) reply.now),
          s.tasks.set call (.saving dto (retirementIdOf response) reply.now true)⟩
  | lost (call : Nat) (reply : Reply) (dto : RetireDto)
      (response : GetTransactionResponse BytesN32)
      (running : s.tasks[call]? = some (.invoking dto))
      (responds : reply.rpc.Responds response) (written : reply.written = false) :
      Turns config s (.resume call reply)
        (some (.save (dto.entity (retirementIdOf response) reply.now) false))
        ⟨s.repo, s.tasks.set call (.saving dto (retirementIdOf response) reply.now false)⟩
  | emitted (call : Nat) (reply : Reply) (dto : RetireDto) (retirementId : Written BytesN32)
      (now : Nat) (running : s.tasks[call]? = some (.saving dto retirementId now true)) :
      Turns config s (.resume call reply) (some (.emit (dto.event retirementId now)))
        ⟨s.repo, s.tasks.set call .done⟩
  | spent (call : Nat) (reply : Reply) (task : Task) (running : s.tasks[call]? = some task)
      (spent : task.Spent) :
      Turns config s (.resume call reply) none ⟨s.repo, s.tasks.set call .done⟩

theorem turn_turns {s s' : Calls} {input : Turn} {effect : Option Effect}
    (h : turn config s input = .ok (effect, s')) : Turns config s input effect s' := by
  cases input with
  | retire dto =>
      cases h
      exact .called dto
  | resume call reply =>
      simp only [turn] at h
      split at h
      · cases h
      · rename_i task running
        cases task with
        | invoking dto =>
            simp only [resumeTask] at h
            split at h
            · rename_i failure threw
              cases h
              refine .threw call reply dto running ?_
              intro response responds
              rw [← Stellar.invokeContract_eq_ok, threw] at responds
              cases responds
            · rename_i response answered
              have responds := Stellar.invokeContract_eq_ok.mp answered
              cases written : reply.written with
              | true =>
                  rw [written] at h
                  cases h
                  exact .wrote call reply dto response running responds written
              | false =>
                  rw [written] at h
                  cases h
                  exact .lost call reply dto response running responds written
        | saving dto retirementId now written =>
            cases written with
            | true =>
                cases h
                exact .emitted call reply dto retirementId now running
            | false =>
                cases h
                exact .spent call reply _ running rfl
        | done =>
            cases h
            exact .spent call reply _ running trivial

/-- A new call does not await its write. -/
theorem saving_of_concat {tasks : List Task} {dto dto' : RetireDto} {call : Nat}
    {retirementId : Written BytesN32} {now : Nat} {written : Bool}
    (waiting : (tasks ++ [startTask config dto])[call]? =
      some (.saving dto' retirementId now written)) :
    tasks[call]? = some (.saving dto' retirementId now written) := by
  rcases getElem?_of_snoc waiting with before | ⟨-, new⟩
  · exact before
  · unfold startTask at new
    split at new <;> cases new

/-- A call that emits nothing any more. -/
def Calls.Spent (s : Calls) (call : Nat) : Prop :=
  ∃ task, s.tasks[call]? = some task ∧ task.Spent

section

variable {s s' : Calls} {input : Turn} {effect : Option Effect}

/-- A spent call stays spent. -/
theorem Turns.stays_spent (turns : Turns config s input effect s') {call : Nat}
    (spent : s.Spent call) : s'.Spent call := by
  obtain ⟨task, running, ended⟩ := spent
  -- a call that goes on is another one, or it is done
  have goes_on : ∀ {call' task' next}, s.tasks[call']? = some task' →
      (task'.Spent → next = .done) →
        ∃ task, (s.tasks.set call' next)[call]? = some task ∧ task.Spent := by
    intro call' task' next running' done
    rw [getElem?_set_of_some running']
    split
    · rename_i here
      rw [← here, running] at running'
      obtain rfl := Option.some.inj running'
      rw [done ended]
      exact ⟨.done, rfl, trivial⟩
    · exact ⟨task, running, ended⟩
  cases turns with
  | called dto => exact ⟨task, getElem?_snoc_of_some running _, ended⟩
  | threw call' reply dto running' unanswered => exact goes_on running' fun _ => rfl
  | wrote call' reply dto response running' responds written => exact goes_on running' False.elim
  | lost call' reply dto response running' responds written => exact goes_on running' False.elim
  | emitted call' reply dto retirementId now running' => exact goes_on running' fun _ => rfl
  | spent call' reply task' running' ended' => exact goes_on running' fun _ => rfl

/-- A call emits its own event, after its write, and is done. -/
theorem Turns.emits (turns : Turns config s input effect s') {emitted : CreditRetiredEvent}
    (emits : effect = some (.emit emitted)) :
    ∃ call reply dto retirementId now, input = .resume call reply ∧
      s.tasks[call]? = some (.saving dto retirementId now true) ∧
      emitted = dto.event retirementId now ∧ s'.Spent call := by
  cases turns with
  | emitted call reply dto retirementId now running =>
      cases emits
      refine ⟨call, reply, dto, retirementId, now, rfl, running, rfl, .done, ?_, trivial⟩
      rw [getElem?_set_of_some running, if_pos rfl]
  | called dto => cases emits
  | threw call reply dto running unanswered => cases emits
  | wrote call reply dto response running responds written => cases emits
  | lost call reply dto response running responds written => cases emits
  | spent call reply task running ended => cases emits

theorem Turns.fails_to_write (turns : Turns config s input effect s') {call : Nat}
    (fails : FailsToWrite ⟨s, input, effect, s'⟩ call) : s'.Spent call := by
  obtain ⟨reply, record, resumed, output⟩ := fails
  dsimp only at resumed output
  cases turns with
  | lost call' reply' dto response running responds written =>
      cases resumed
      refine ⟨.saving dto (retirementIdOf response) reply.now false, ?_, rfl⟩
      rw [getElem?_set_of_some running, if_pos rfl]
  | called dto => cases resumed
  | threw call' reply' dto running unanswered => cases output
  | wrote call' reply' dto response running responds written => cases output
  | emitted call' reply' dto retirementId now running => cases output
  | spent call' reply' task running ended => cases output

end

/-! ## What is written -/

/-- The event of every call that wrote and has not emitted yet is persisted. -/
def Ready (s : Calls) : Prop :=
  ∀ (call : Nat) (dto : RetireDto) (retirementId : Written BytesN32) (now : Nat),
    s.tasks[call]? = some (.saving dto retirementId now true) →
      Persisted s.repo (dto.event retirementId now)

/-- After a write, an event with the same id is persisted if it is the event of the entity, and
another one if it was before. -/
theorem persisted_save_iff (repo : Repository) (dto dto' : RetireDto)
    (retirementId retirementId' : Written BytesN32) (now now' : Nat) :
    Persisted (repo.save (dto.entity retirementId now)) (dto'.event retirementId' now') ↔
      if retirementId' = retirementId then
        dto'.event retirementId' now' = dto.event retirementId now
      else Persisted repo (dto'.event retirementId' now') := by
  simp only [Persisted, Repository.findById, Repository.save, Store.lookup_insert_ite,
    RetireDto.event, RetireDto.entity]
  split
  · rename_i same
    simp [same, eq_comm]
  · rfl

/-- The tasks that are ready stay so if none of them writes. -/
theorem Ready.set {s : Calls} (ready : Ready s) {call : Nat} {task next : Task}
    (running : s.tasks[call]? = some task)
    (quiet : ∀ dto retirementId now, next ≠ .saving dto retirementId now true) :
    Ready ⟨s.repo, s.tasks.set call next⟩ := by
  intro other dto retirementId now waiting
  rw [getElem?_set_of_some running] at waiting
  split at waiting
  · exact absurd (Option.some.inj waiting) (quiet dto retirementId now)
  · exact ready other dto retirementId now waiting

theorem Ready.write_iff {s : Calls} (ready : Ready s) {call : Nat} {dto : RetireDto}
    (running : s.tasks[call]? = some (.invoking dto)) (retirementId : Written BytesN32)
    (now : Nat) :
    Ready ⟨s.repo.save (dto.entity retirementId now),
        s.tasks.set call (.saving dto retirementId now true)⟩ ↔
      ∀ (other : Nat) (dto' : RetireDto) (now' : Nat),
        s.tasks[other]? = some (.saving dto' retirementId now' true) →
          dto'.event retirementId now' = dto.event retirementId now := by
  constructor
  · intro after other dto' now' waiting
    have apart : other ≠ call := by
      intro same
      rw [same, running] at waiting
      cases waiting
    have persisted := after other dto' retirementId now' (by
      rw [getElem?_set_of_some running, if_neg apart]
      exact waiting)
    rw [persisted_save_iff, if_pos rfl] at persisted
    exact persisted
  · intro agree other dto' retirementId' now' waiting
    rw [persisted_save_iff]
    rw [getElem?_set_of_some running] at waiting
    split at waiting
    · cases waiting
      rw [if_pos rfl]
    · split
      · rename_i same
        rw [same] at waiting ⊢
        exact agree other dto' now' waiting
      · exact ready other dto' retirementId' now' waiting

section

variable {s s' : Calls} {input : Turn} {effect : Option Effect}

/-- From states that are ready, a turn leads to such a state if and only if it is separate. -/
theorem Turns.ready_iff (turns : Turns config s input effect s') (ready : Ready s) :
    Ready s' ↔ Separate ⟨s, input, effect, s'⟩ := by
  cases turns with
  | wrote call reply dto response running responds written =>
      rw [ready.write_iff running]
      constructor
      · intro agree call' reply' dto' response' resumed running' responds' _
        cases resumed
        dsimp only at running'
        rw [running] at running'
        cases running'
        rw [← responds.unique responds']
        exact agree
      · intro separate
        exact separate call reply dto response rfl running responds written
  | called dto =>
      refine iff_of_true ?_ ?_
      · intro call dto' retirementId now waiting
        exact ready call dto' retirementId now (saving_of_concat waiting)
      · intro call reply dto' response resumed
        cases resumed
  | threw call reply dto running unanswered =>
      refine iff_of_true (ready.set running fun _ _ _ => Task.noConfusion) ?_
      intro call' reply' dto' response resumed _ responds
      cases resumed
      exact absurd responds (unanswered response)
  | lost call reply dto response running responds written =>
      refine iff_of_true (ready.set running ?_) ?_
      · intro dto' retirementId now same
        cases same
      · intro call' reply' dto' response' resumed _ _ written'
        cases resumed
        rw [written] at written'
        cases written'
  | emitted call reply dto retirementId now running =>
      refine iff_of_true (ready.set running fun _ _ _ => Task.noConfusion) ?_
      intro call' reply' dto' response resumed running'
      cases resumed
      dsimp only at running'
      rw [running] at running'
      cases running'
  | spent call reply task running ended =>
      refine iff_of_true (ready.set running fun _ _ _ => Task.noConfusion) ?_
      intro call' reply' dto' response resumed running'
      cases resumed
      dsimp only at running'
      rw [running] at running'
      obtain rfl := Option.some.inj running'
      exact ended.elim

end

/-! ## Runs -/

/-- The calls that emitted or failed to write are spent. -/
def Closed (log : List CallsEvent) (s : Calls) : Prop :=
  ∀ event ∈ log, ∀ call, Emits event call ∨ FailsToWrite event call → s.Spent call

variable {log : List CallsEvent} {event : CallsEvent}

theorem Closed.snoc (closed : Closed log event.pre) (commits : (calls config).Commits event) :
    Closed (log ++ [event]) event.post := by
  have turns : Turns config event.pre event.input event.output event.post := turn_turns commits
  intro e logged call last
  rcases List.mem_append.mp logged with before | now
  · exact turns.stays_spent (closed e before call last)
  · rw [List.mem_singleton.mp now] at last
    rcases last with ⟨reply, emitted, resumed, output⟩ | fails
    · obtain ⟨call', reply', dto, retirementId, now, resumed', -, -, spent⟩ :=
        turns.emits output
      rw [resumed] at resumed'
      cases resumed'
      exact spent
    · exact turns.fails_to_write fails

theorem closed_run (inputs : List Turn) :
    Closed ((calls config).log inputs) ((calls config).state inputs) := by
  apply (calls config).run_induct Closed
  · intro event logged
    cases logged
  · intro log event closed commits
    exact closed.snoc commits

theorem emitsPersisted_snoc :
    EmitsPersisted (log ++ [event]) ↔ EmitsPersisted log ∧
      (∀ e ∈ log, ∀ call, Emits e call ∨ FailsToWrite e call → ¬ Emits event call) ∧
      ∀ emitted, event.output = some (.emit emitted) → Persisted event.pre.repo emitted := by
  constructor
  · intro emits
    obtain ⟨once, again⟩ := Machine.pairwise_snoc.mp emits.once
    obtain ⟨written, lost⟩ := Machine.pairwise_snoc.mp emits.written
    refine ⟨⟨once, written, ?_⟩, ?_, ?_⟩
    · intro e logged
      exact emits.persisted e (List.mem_append_left _ logged)
    · intro e logged call last
      rcases last with emitted | failed
      · exact again e logged call emitted
      · exact lost e logged call failed
    · exact emits.persisted event List.mem_concat_self
  · intro ⟨emits, apart, persisted⟩
    refine ⟨Machine.pairwise_snoc.mpr ⟨emits.once, ?_⟩,
      Machine.pairwise_snoc.mpr ⟨emits.written, ?_⟩, ?_⟩
    · intro e logged call emitted
      exact apart e logged call (.inl emitted)
    · intro e logged call failed
      exact apart e logged call (.inr failed)
    · intro e logged
      rcases List.mem_append.mp logged with before | now
      · exact emits.persisted e before
      · rw [List.mem_singleton.mp now]
        exact persisted

theorem EmitsPersisted.snoc (emits : EmitsPersisted log) (closed : Closed log event.pre)
    (ready : Ready event.pre) (commits : (calls config).Commits event) :
    EmitsPersisted (log ++ [event]) := by
  have turns : Turns config event.pre event.input event.output event.post := turn_turns commits
  refine emitsPersisted_snoc.mpr ⟨emits, ?_, ?_⟩
  · intro e logged call last again
    obtain ⟨reply, emitted, resumed, output⟩ := again
    obtain ⟨task, running, ended⟩ := closed e logged call last
    obtain ⟨call', reply', dto, retirementId, now, resumed', waiting, -, -⟩ :=
      turns.emits output
    rw [resumed] at resumed'
    cases resumed'
    rw [running] at waiting
    obtain rfl := Option.some.inj waiting
    cases ended
  · intro emitted output
    obtain ⟨call, reply, dto, retirementId, now, -, waiting, rfl, -⟩ := turns.emits output
    exact ready call dto retirementId now waiting

/-- Whichever call goes on next emits what is persisted if and only if all that wait are
ready. -/
theorem emitsPersistedNext_iff (inputs : List Turn) :
    EmitsPersistedNext config inputs ↔
      EmitsPersisted ((calls config).log inputs) ∧ Ready ((calls config).state inputs) := by
  constructor
  · intro next
    refine ⟨?_, ?_⟩
    · -- nothing goes on at a number that no call has
      have beyond : (calls config).exec ((calls config).state inputs)
          (.resume ((calls config).state inputs).tasks.length default) = .error () := by
        simp only [calls, turn]
        rw [List.getElem?_eq_none (Nat.le_refl _)]
      rw [← ((calls config).snoc_of_error beyond).2]
      exact next _ _
    · intro call dto retirementId now waiting
      have emits : (calls config).exec ((calls config).state inputs) (.resume call default) =
          .ok (some (.emit (dto.event retirementId now)),
            ⟨((calls config).state inputs).repo,
              ((calls config).state inputs).tasks.set call .done⟩) := by
        simp only [calls, turn] at waiting ⊢
        rw [waiting]
        rfl
      have persisted := next call default
      rw [((calls config).snoc_of_ok emits).2, emitsPersisted_snoc] at persisted
      exact persisted.2.2 _ rfl
  · intro ⟨emits, ready⟩ call reply
    cases committed : (calls config).exec ((calls config).state inputs) (.resume call reply) with
    | error failure =>
        rw [((calls config).snoc_of_error committed).2]
        exact emits
    | ok result =>
        obtain ⟨effect, s'⟩ := result
        rw [((calls config).snoc_of_ok committed).2]
        exact emits.snoc (closed_run inputs) ready committed

/-- A run emits what is persisted, whichever call goes on next at any moment, if and only if
the calls in it that write are separate. -/
theorem emits_persisted_iff (inputs : List Turn) :
    ((∀ event ∈ (calls config).log inputs, Separate event) →
      (calls config).Always (fun log _ => EmitsPersisted log) inputs) ∧
    ((∀ earlier later, inputs = earlier ++ later → EmitsPersistedNext config earlier) ↔
      ∀ event ∈ (calls config).log inputs, Separate event) := by
  have exact_ : (calls config).Always (fun log s => EmitsPersisted log ∧ Ready s) inputs ↔
      ∀ event ∈ (calls config).log inputs, Separate event := by
    rw [← Machine.admits_forall]
    have start : Ready (calls config).init := by
      intro call dto retirementId now waiting
      cases waiting
    have nothing : EmitsPersisted [] := ⟨.nil, .nil, fun _ logged => nomatch logged⟩
    apply (calls config).always_iff_admits
      (fun log s => Closed log s ∧ EmitsPersisted log ∧ Ready s)
    · exact ⟨(fun _ logged => nomatch logged : Closed [] _), nothing, start⟩
    · exact ⟨nothing, start⟩
    · intro log event ⟨closed, emits, ready⟩ commits
      rw [(turn_turns commits).ready_iff ready]
      exact and_iff_right (emits.snoc closed ready commits)
    · intro log event ⟨closed, emits, ready⟩ separate commits
      exact ⟨closed.snoc commits, emits.snoc closed ready commits,
        ((turn_turns commits).ready_iff ready).mpr separate⟩
  refine ⟨?_, ?_⟩
  · intro separate earlier later split
    exact (exact_.mpr separate earlier later split).1
  · rw [← exact_]
    simp only [emitsPersistedNext_iff]
    rfl

/-! ## Distinct return values -/

/-- The entities that are saved have distinct ids, but for `'unknown'`. -/
def DistinctIds (log : List CallsEvent) : Prop :=
  log.Pairwise fun event later => ∀ record record' written written',
    event.output = some (.save record written) → later.output = some (.save record' written') →
      record.id = record'.id → record'.id = unknown

/-- Every call that awaits its write has called `save`. -/
def Saved (log : List CallsEvent) (s : Calls) : Prop :=
  ∀ (call : Nat) (dto : RetireDto) (retirementId : Written BytesN32) (now : Nat)
    (written : Bool), s.tasks[call]? = some (.saving dto retirementId now written) →
      ∃ event ∈ log, event.output = some (.save (dto.entity retirementId now) written)

theorem Saved.snoc (saved : Saved log event.pre) (commits : (calls config).Commits event) :
    Saved (log ++ [event]) event.post := by
  obtain ⟨s, input, effect, s'⟩ := event
  have turns : Turns config s input effect s' := turn_turns commits
  intro call dto retirementId now written waiting
  have earlier : s.tasks[call]? = some (.saving dto retirementId now written) →
      ∃ e ∈ log ++ [⟨s, input, effect, s'⟩],
        e.output = some (.save (dto.entity retirementId now) written) := by
    intro waited
    obtain ⟨e, logged, output⟩ := saved call dto retirementId now written waited
    exact ⟨e, List.mem_append_left _ logged, output⟩
  -- the call that goes on awaits its write only if it has just called `save`
  have goes_on : ∀ {call' task next}, s.tasks[call']? = some task →
      (next = .saving dto retirementId now written →
        effect = some (.save (dto.entity retirementId now) written)) →
      (s.tasks.set call' next)[call]? = some (.saving dto retirementId now written) →
        ∃ e ∈ log ++ [⟨s, input, effect, s'⟩],
          e.output = some (.save (dto.entity retirementId now) written) := by
    intro call' task next running saves waiting
    rw [getElem?_set_of_some running] at waiting
    split at waiting
    · exact ⟨_, List.mem_concat_self, saves (Option.some.inj waiting)⟩
    · exact earlier waiting
  cases turns with
  | called dto' => exact earlier (saving_of_concat waiting)
  | threw call' reply dto' running unanswered =>
      exact goes_on running Task.noConfusion waiting
  | wrote call' reply dto' response running responds succeeds =>
      refine goes_on running ?_ waiting
      intro same
      cases same
      rfl
  | lost call' reply dto' response running responds fails =>
      refine goes_on running ?_ waiting
      intro same
      cases same
      rfl
  | emitted call' reply dto' retirementId' now' running =>
      exact goes_on running Task.noConfusion waiting
  | spent call' reply task running ended =>
      exact goes_on running Task.noConfusion waiting

/-- With distinct return values, only the calls that save under `'unknown'` may not be
separate. -/
theorem separate_of_distinct {inputs : List Turn}
    (distinct : DistinctIds ((calls config).log inputs))
    (logged : event ∈ (calls config).log inputs)
    (named : ∀ record, event.output = some (.save record true) → record.id ≠ unknown) :
    Separate event := by
  obtain ⟨before, after, split⟩ := List.append_of_mem logged
  obtain ⟨earlier, later, -, reached, start, commits⟩ := (calls config).log_split split
  have saved : Saved before event.pre := by
    rw [← reached, ← start]
    apply (calls config).run_induct Saved
    · intro call dto retirementId now written waiting
      cases waiting
    · intro log event saved commits
      exact saved.snoc commits
  rw [split] at distinct
  obtain ⟨-, -, apart⟩ := List.pairwise_append.mp distinct
  intro call reply dto response resumed running responds written other dto' now waiting
  obtain ⟨e, listed, output⟩ := saved other dto' (retirementIdOf response) now true waiting
  have saves : event.output =
      some (.save (dto.entity (retirementIdOf response) reply.now) true) := by
    have ran : turn config event.pre event.input = .ok (event.output, event.post) := commits
    rw [resumed] at ran
    simp only [turn, running, resumeTask, Stellar.invokeContract_eq_ok.mpr responds,
      written] at ran
    exact (Prod.mk.inj (Except.ok.inj ran)).1.symm
  exact absurd (apart e listed event List.mem_cons_self _ _ true true output saves rfl)
    (named _ saves)

namespace Sample

open Registry.Sample (credit)

/-- Another credit of the issuer is to be retired. -/
def retireOther : RetireDto := { retireOne with creditId := .canonical (credit 1) }

/-- The transaction fails, and the write succeeds. -/
def unanswered : Reply := ⟨found ⟨.failed, none⟩, 1735689601, true⟩

/-- Two calls whose transactions fail write one after the other, and the first one goes on. -/
def overlapping : List Turn :=
  [.retire retireOne, .retire retireOther, .resume 0 unanswered, .resume 1 unanswered,
    .resume 0 unanswered]

end Sample

set_option maxRecDepth 100000 in
/-- The event names the first credit, and the record under `'unknown'` the second one. -/
theorem overlapping_not_persisted :
    ¬ (calls Sample.deployed).Always (fun log _ => EmitsPersisted log) Sample.overlapping := by
  intro always
  have emits := always Sample.overlapping [] (List.append_nil _).symm
  obtain ⟨record, found, sameCredit, -⟩ := emits.persisted
    (((calls Sample.deployed).log Sample.overlapping).get ⟨4, by decide⟩) (List.get_mem _ _)
    (Sample.retireOne.event unknown 1735689601) rfl
  have other : record = Sample.retireOther.entity unknown 1735689601 :=
    (Option.some.inj found).symm
  rw [other] at sameCredit
  exact absurd sameCredit (by decide)

end CarbonChain.Certificates
