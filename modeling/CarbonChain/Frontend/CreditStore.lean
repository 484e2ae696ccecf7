import CarbonChain.Credits.Service
import CarbonChain.Misc.Machine
import Mathlib.Data.Option.Basic

/-!
# The credit store

`CreditStore.loadByProject` (`frontend/src/app/core/store/credit.store.ts:59-73`) awaits
the ids of a project and then their credits, and writes the signals when it ends. Calls of
it overlap: the responses to their requests arrive in any order, and a call goes on at some
time after the promise that it awaits is settled. Nothing in the signals says which call
wrote them, so the call that ends last has them.
-/

namespace CarbonChain.Frontend

open Credits (CreditMetadata)

/-- `LoadingState` (6). -/
inductive LoadingState where
  | idle
  | loading
  | loaded
  | error
  deriving DecidableEq, Repr

/-- What a promise is rejected with, an `Error` or anything else. -/
inductive Rejection where
  | error (message : String)
  | other
  deriving DecidableEq, Repr

/-- `err instanceof Error ? err.message : text`. -/
def Rejection.messageOr (text : String) : Rejection → String
  | .error message => message
  | .other => text

/-- The message that `loadByProject` shows for a rejection (69). -/
def Rejection.message : Rejection → String := messageOr "Failed to load credits."

/-- What a promise is settled with. -/
abbrev Response (α : Type) := Except Rejection α

/-- `api.getCredit(id)`, with its response once that has arrived. -/
structure Request where
  id : String
  response : Option (Response CreditMetadata)

/-- Where a call stands: it awaits `listCreditsByProject`, or `Promise.all` of its requests with
the first rejection among them, or it has ended. -/
inductive Progress where
  | listing (response : Option (Response (List String)))
  | fetching (requests : List Request) (rejection : Option Rejection)
  | loaded (credits : List CreditMetadata)
  | failed (rejection : Rejection)

/-- The call has ended. -/
def Progress.settled : Progress → Bool
  | .listing _ | .fetching _ _ => false
  | .loaded _ | .failed _ => true

/-- `Promise.all`, once it is settled: with the first rejection, or with all credits. -/
def promiseAll (requests : List Request) (rejection : Option Rejection) :
    Option (Response (List CreditMetadata)) :=
  match rejection with
  | some rejection => some (.error rejection)
  | none => (requests.mapM fun (request : Request) => request.response.bind Except.toOption).map .ok

/-- `Promise.all` gives the responses to all requests, in their order. -/
theorem promiseAll_eq_ok {requests : List Request} {rejection : Option Rejection}
    {credits : List CreditMetadata} :
    promiseAll requests rejection = some (.ok credits) ↔
      rejection = none ∧ requests.map Request.response = credits.map fun c => some (.ok c) := by
  cases rejection with
  | some rejection => simp [promiseAll]
  | none =>
      simp only [promiseAll, Option.map_eq_some_iff, Except.ok.injEq, exists_eq_right, true_and]
      induction requests generalizing credits with
      | nil => cases credits <;> simp
      | cons request requests ih =>
          have received (credit : CreditMetadata) :
              request.response.bind Except.toOption = some credit ↔
                request.response = some (.ok credit) := by
            rcases request.response with _ | _ | _ <;> simp [Except.toOption]
          cases credits <;> simp [List.mapM_cons, Option.bind_eq_some_iff, received, ih]

/-- How a call ends when it goes on, unless it is to await more. -/
def Progress.ending : Progress → Option (Response (List CreditMetadata))
  | .listing (some (.error rejection)) => some (.error rejection)
  | .listing _ => none
  | .fetching requests rejection => promiseAll requests rejection
  | .loaded _ | .failed _ => none

/-- A call of `loadByProject`. -/
structure Call where
  projectId : String
  progress : Progress

/-- The signals, and the calls in the order in which they were started. -/
structure CreditStore where
  credits : List CreditMetadata
  loadingState : LoadingState
  error : Option String
  calls : List Call

namespace CreditStore

variable (s : CreditStore)

/-- A call stands at the progress. -/
def move (i : Nat) (call : Call) (progress : Progress) : CreditStore :=
  { s with calls := s.calls.set i { call with progress } }

/-- What a call writes when it ends. -/
def finish (i : Nat) (call : Call) : Response (List CreditMetadata) → CreditStore
  | .ok credits => { s.move i call (.loaded credits) with credits, loadingState := .loaded }
  | .error rejection =>
      { s.move i call (.failed rejection) with
        error := some rejection.message, loadingState := .error }

end CreditStore

/-- A call is started, a response to its first request or to its `k`-th request for a credit
arrives, or it goes on. -/
inductive Step where
  | loadByProject (projectId : String)
  | listed (i : Nat) (response : Response (List String))
  | fetched (i k : Nat) (response : Response CreditMetadata)
  | resume (i : Nat)

/-- The requests and the first rejection after a response; `none` if it was there already. -/
def receive (requests : List Request) (rejection : Option Rejection) (k : Nat)
    (response : Response CreditMetadata) : Option Progress :=
  match requests[k]? with
  | some ⟨id, none⟩ =>
      let failure :=
        match response with
        | .ok _ => none
        | .error rejection => some rejection
      some (.fetching (requests.set k ⟨id, some response⟩) (rejection <|> failure))
  | _ => none

/-- What a step makes of the progress of a call, other than its end. -/
def Step.advance : Step → Progress → Option Progress
  | .listed _ response, .listing none => some (.listing (some response))
  | .fetched _ k response, .fetching requests rejection => receive requests rejection k response
  | .resume _, .listing (some (.ok ids)) => some (.fetching (ids.map (⟨·, none⟩)) none)
  | _, _ => none

/-- A call awaits more after a step. -/
def CreditStore.goOn (s : CreditStore) (step : Step) (i : Nat) : Option CreditStore := do
  let call ← s.calls[i]?
  let progress ← step.advance call.progress
  return s.move i call progress

/-- A call ends. -/
def CreditStore.settle (s : CreditStore) (i : Nat) : Option CreditStore := do
  let call ← s.calls[i]?
  let ending ← call.progress.ending
  return s.finish i call ending

/-- `loadByProject` (59-62) starts by awaiting the ids of the project. -/
def CreditStore.step (s : CreditStore) (step : Step) : Option CreditStore :=
  match step with
  | .loadByProject projectId => some { s with
      loadingState := .loading, error := none,
      calls := s.calls ++ [⟨projectId, .listing none⟩] }
  | .listed i _ | .fetched i _ _ => s.goOn step i
  | .resume i => s.goOn step i <|> s.settle i

/-- The store from its start. -/
def creditStore : Machine CreditStore Step Unit Unit where
  init := ⟨[], .idle, none, []⟩
  exec s step :=
    match s.step step with
    | some s' => .ok ((), s')
    | none => .error ()

/-! ## The last call wins -/

/-- Once all calls have ended, the store has what the call that was started last has fetched, if
it succeeded; and it is not loaded while that call is outstanding. -/
structure LastWins (s : CreditStore) : Prop where
  shown : ∀ last ∈ s.calls.getLast?, (∀ call ∈ s.calls, call.progress.settled) →
    ∀ credits, last.progress = .loaded credits → s.credits = credits ∧ s.loadingState = .loaded
  waits : ∀ last ∈ s.calls.getLast?, ¬ last.progress.settled → s.loadingState ≠ .loaded

/-- All calls but the `i`-th have ended. -/
def OthersSettled (calls : List Call) (i : Nat) : Prop :=
  ∀ j call, j ≠ i → calls[j]? = some call → call.progress.settled

/-- A call that ends after a later one was started ends in turn: it succeeds only after the last
one has ended, and where it is the only one outstanding and the last one has succeeded, it
fetches the same credits. -/
def InTurn (event : Event CreditStore Step Unit) : Prop :=
  ∀ i call ending last, event.input = .resume i → event.pre.calls[i]? = some call →
    call.progress.ending = some ending → i + 1 < event.pre.calls.length →
    event.pre.calls.getLast? = some last →
    (∀ credits, ending = .ok credits → last.progress.settled) ∧
      ∀ kept, last.progress = .loaded kept → OthersSettled event.pre.calls i → ending = .ok kept

/-! ## One step -/

theorem receive_settled {requests : List Request} {rejection : Option Rejection} {k : Nat}
    {response : Response CreditMetadata} {progress : Progress}
    (received : receive requests rejection k response = some progress) :
    progress.settled = false := by
  unfold receive at received
  split at received
  · cases received
    rfl
  · cases received

/-- A step that is no end leaves the call outstanding. -/
theorem advance_spec {step : Step} {progress progress' : Progress}
    (advanced : step.advance progress = some progress') :
    progress.settled = false ∧ progress'.settled = false ∧
      ∀ i, step = .resume i → progress.ending = none := by
  unfold Step.advance at advanced
  split at advanced
  · cases advanced
    exact ⟨rfl, rfl, fun _ _ => rfl⟩
  · exact ⟨rfl, receive_settled advanced, by simp⟩
  · cases advanced
    exact ⟨rfl, rfl, fun _ _ => rfl⟩
  · cases advanced

theorem goOn_spec {s s' : CreditStore} {step : Step} {i : Nat} (goes : s.goOn step i = some s') :
    ∃ call progress, s.calls[i]? = some call ∧ s' = s.move i call progress ∧
      call.progress.settled = false ∧ progress.settled = false ∧
      ∀ j, step = .resume j → call.progress.ending = none := by
  simp only [CreditStore.goOn, Option.bind_eq_bind, Option.bind_eq_some_iff, Option.pure_def,
    Option.some.injEq] at goes
  obtain ⟨call, found, progress, advanced, rfl⟩ := goes
  obtain ⟨before, after, open_⟩ := advance_spec advanced
  exact ⟨call, progress, found, rfl, before, after, open_⟩

/-- What a step can do: start a call, let one await more, or end one. -/
theorem step_cases {s s' : CreditStore} {step : Step} (ok : s.step step = some s') :
    (∃ projectId, step = .loadByProject projectId ∧
      s' = { s with
        loadingState := .loading, error := none,
        calls := s.calls ++ [⟨projectId, .listing none⟩] }) ∨
    (∃ i call progress, s.calls[i]? = some call ∧ s' = s.move i call progress ∧
      call.progress.settled = false ∧ progress.settled = false ∧
      ∀ j, step = .resume j → j = i ∧ call.progress.ending = none) ∨
    (∃ i call ending, step = .resume i ∧ s.calls[i]? = some call ∧
      call.progress.ending = some ending ∧ s' = s.finish i call ending) := by
  cases step with
  | loadByProject projectId =>
      cases ok
      exact .inl ⟨projectId, rfl, rfl⟩
  | listed i response =>
      obtain ⟨call, progress, found, moved, before, after, -⟩ := goOn_spec ok
      exact .inr (.inl ⟨i, call, progress, found, moved, before, after, by simp⟩)
  | fetched i k response =>
      obtain ⟨call, progress, found, moved, before, after, -⟩ := goOn_spec ok
      exact .inr (.inl ⟨i, call, progress, found, moved, before, after, by simp⟩)
  | resume i =>
      rcases (Option.orElse_eq_some _ _ _).mp ok with goes | ⟨-, settles⟩
      · obtain ⟨call, progress, found, moved, before, after, open_⟩ := goOn_spec goes
        refine .inr (.inl ⟨i, call, progress, found, moved, before, after, ?_⟩)
        intro j same
        exact ⟨(Step.resume.inj same).symm, open_ j same⟩
      · simp only [CreditStore.settle, Option.bind_eq_bind, Option.bind_eq_some_iff,
          Option.pure_def, Option.some.injEq] at settles
        obtain ⟨call, found, ending, ends, rfl⟩ := settles
        exact .inr (.inr ⟨i, call, ending, rfl, found, ends, rfl⟩)

/-! ## The last call after a step -/

theorem getLast?_set_of_lt {α : Type} {l : List α} {i : Nat} (earlier : i + 1 < l.length) (a : α) :
    (l.set i a).getLast? = l.getLast? := by
  rw [List.getLast?_eq_getElem?, List.getLast?_eq_getElem?, List.length_set,
    List.getElem?_set_ne (by omega)]

theorem getLast?_set_last {α : Type} {l : List α} {i : Nat} (last : i + 1 = l.length) (a : α) :
    (l.set i a).getLast? = some a := by
  rw [List.getLast?_eq_getElem?, List.length_set, ← last, Nat.add_sub_cancel,
    List.getElem?_set_self (by omega)]

variable {s : CreditStore} {i : Nat} {call : Call}

/-- The calls have all ended after one of them has, if the others have. -/
theorem settled_set {call' : Call} (found : s.calls[i]? = some call)
    (settled : call'.progress.settled = true) :
    (∀ c ∈ s.calls.set i call', c.progress.settled = true) ↔ OthersSettled s.calls i := by
  constructor
  · intro all j c other listed
    apply all c
    rw [← List.getElem?_set_ne (Ne.symm other)] at listed
    exact List.mem_of_getElem? listed
  · intro others c listed
    obtain ⟨j, found'⟩ := List.mem_iff_getElem?.mp listed
    by_cases same : j = i
    · subst same
      rw [List.getElem?_set_self (List.getElem?_eq_some_iff.mp found).1] at found'
      rw [← Option.some.inj found']
      exact settled
    · rw [List.getElem?_set_ne (Ne.symm same)] at found'
      exact others j c same found'

/-- A call that is started leaves the store loading. -/
theorem lastWins_start (s : CreditStore) (projectId : String) (error : Option String) :
    LastWins { s with
      loadingState := .loading, error, calls := s.calls ++ [⟨projectId, .listing none⟩] } where
  shown := by
    intro last _ all
    have settled := all ⟨projectId, .listing none⟩ (List.mem_append_right _ List.mem_cons_self)
    cases settled
  waits := by simp

/-- A call that awaits more leaves the signals, and stays outstanding. -/
theorem LastWins.move (wins : LastWins s) (found : s.calls[i]? = some call) {progress : Progress}
    (before : call.progress.settled = false) (after : progress.settled = false) :
    LastWins (s.move i call progress) where
  shown := by
    intro last _ all
    have inside := (List.getElem?_eq_some_iff.mp found).1
    have settled := all { call with progress } (List.mem_set inside _)
    rw [after] at settled
    cases settled
  waits := by
    intro last newest outstanding
    by_cases earlier : i + 1 < s.calls.length
    · apply wins.waits last _ outstanding
      rw [CreditStore.move, getLast?_set_of_lt earlier] at newest
      exact newest
    · have final : i + 1 = s.calls.length := by
        have inside := (List.getElem?_eq_some_iff.mp found).1
        omega
      apply wins.waits call
      · rw [List.getLast?_eq_getElem?, ← final, Nat.add_sub_cancel]
        exact found
      · simp [before]

/-! ## The end of a call -/

/-- Where a call stands after its end. -/
def ended : Response (List CreditMetadata) → Progress
  | .ok credits => .loaded credits
  | .error rejection => .failed rejection

theorem ended_settled (ending : Response (List CreditMetadata)) : (ended ending).settled := by
  cases ending <;> rfl

theorem finish_calls (s : CreditStore) (i : Nat) (call : Call)
    (ending : Response (List CreditMetadata)) :
    (s.finish i call ending).calls = s.calls.set i { call with progress := ended ending } := by
  cases ending <;> rfl

/-- The store is loaded after a successful end only. -/
theorem finish_loaded (s : CreditStore) (i : Nat) (call : Call)
    (ending : Response (List CreditMetadata)) :
    (s.finish i call ending).loadingState = .loaded ↔ ∃ credits, ending = .ok credits := by
  cases ending <;> simp [CreditStore.finish]

/-- The store has the credits of the call that has just ended. -/
theorem finish_shows (s : CreditStore) (i : Nat) (call : Call)
    (ending : Response (List CreditMetadata)) (kept : List CreditMetadata) :
    (s.finish i call ending).credits = kept ∧ (s.finish i call ending).loadingState = .loaded ↔
      ending = .ok kept := by
  cases ending <;> simp [CreditStore.finish]

/-- The call that was started last always ends in turn. -/
theorem lastWins_finish_last (final : i + 1 = s.calls.length) (call : Call)
    (ending : Response (List CreditMetadata)) : LastWins (s.finish i call ending) := by
  have newest : (s.finish i call ending).calls.getLast? =
      some { call with progress := ended ending } := by
    rw [finish_calls, getLast?_set_last final]
  constructor
  · intro last isLast _ credits loaded
    rw [newest, Option.mem_some_iff] at isLast
    subst isLast
    rw [finish_shows]
    cases ending with
    | ok fetched => exact congrArg Except.ok (Progress.loaded.inj loaded)
    | error rejection => cases loaded
  · intro last isLast outstanding
    rw [newest, Option.mem_some_iff] at isLast
    subst isLast
    exact absurd (ended_settled ending) outstanding

/-- An earlier call ends in turn if and only if it waits for the last one to end, and leaves
what that one has fetched. -/
theorem lastWins_finish_iff (found : s.calls[i]? = some call) (earlier : i + 1 < s.calls.length)
    (ending : Response (List CreditMetadata)) :
    LastWins (s.finish i call ending) ↔ ∀ last ∈ s.calls.getLast?,
      (∀ credits, ending = .ok credits → last.progress.settled) ∧
        ∀ kept, last.progress = .loaded kept → OthersSettled s.calls i → ending = .ok kept := by
  have newest : (s.finish i call ending).calls.getLast? = s.calls.getLast? := by
    rw [finish_calls, getLast?_set_of_lt earlier]
  have all : (∀ c ∈ (s.finish i call ending).calls, c.progress.settled) ↔
      OthersSettled s.calls i := by
    rw [finish_calls]
    exact settled_set found (ended_settled ending)
  constructor
  · rintro ⟨shown, waits⟩ last isLast
    rw [← newest] at isLast
    constructor
    · intro credits succeeded
      by_contra outstanding
      exact waits last isLast outstanding ((finish_loaded s i call ending).mpr ⟨_, succeeded⟩)
    · intro kept loaded others
      exact (finish_shows s i call ending kept).mp (shown last isLast (all.mpr others) kept loaded)
  · intro inTurn
    constructor
    · intro last isLast settled kept loaded
      rw [newest] at isLast
      exact (finish_shows s i call ending kept).mpr
        ((inTurn last isLast).2 kept loaded (all.mp settled))
    · intro last isLast outstanding loaded
      rw [newest] at isLast
      obtain ⟨credits, succeeded⟩ := (finish_loaded s i call ending).mp loaded
      exact outstanding ((inTurn last isLast).1 credits succeeded)

/-! ## Runs -/

theorem commits_iff {event : Event CreditStore Step Unit} :
    creditStore.Commits event ↔ event.pre.step event.input = some event.post := by
  unfold Machine.Commits creditStore
  cases stepped : event.pre.step event.input <;> simp [stepped]

/-- From a store that has what the last call fetched, a step keeps it so if and only if the call
that it ends, if any, ends in turn. -/
theorem lastWins_iff_inTurn {event : Event CreditStore Step Unit} (wins : LastWins event.pre)
    (commits : creditStore.Commits event) : LastWins event.post ↔ InTurn event := by
  obtain ⟨s, step, output, s'⟩ := event
  have stepped : s.step step = some s' := commits_iff.mp commits
  rcases step_cases stepped with ⟨projectId, rfl, rfl⟩ |
    ⟨i, call, progress, found, rfl, before, after, open_⟩ |
    ⟨i, call, ending, rfl, found, ends, rfl⟩
  · refine iff_of_true (lastWins_start s projectId none) ?_
    intro i call ending last resumed
    cases resumed
  · refine iff_of_true (wins.move found before after) ?_
    intro j call' ending last resumed found' ends
    obtain ⟨rfl, none_⟩ := open_ j resumed
    obtain rfl := Option.some.inj (found.symm.trans found')
    rw [none_] at ends
    cases ends
  · by_cases earlier : i + 1 < s.calls.length
    · show LastWins (s.finish i call ending) ↔ _
      rw [lastWins_finish_iff found earlier]
      constructor
      · intro inTurn j call' ending' last resumed found' ends' _ newest
        obtain rfl := Step.resume.inj resumed
        obtain rfl := Option.some.inj (found.symm.trans found')
        obtain rfl := Option.some.inj (ends.symm.trans ends')
        exact inTurn last newest
      · intro inTurn last newest
        exact inTurn i call ending last rfl found ends earlier newest
    · have final : i + 1 = s.calls.length := by
        have inside := (List.getElem?_eq_some_iff.mp found).1
        omega
      refine iff_of_true (lastWins_finish_last final call ending) ?_
      intro j call' ending' last resumed _ _ later
      obtain rfl := Step.resume.inj resumed
      exact absurd later earlier

theorem lastWins_init : LastWins creditStore.init where
  shown := by
    intro last newest
    cases newest
  waits := by
    intro last newest
    cases newest

/-- All calls but the one that was started last have ended. -/
def Sequential (s : CreditStore) : Prop :=
  ∀ i call, s.calls[i]? = some call → i + 1 < s.calls.length → call.progress.settled

/-- A call that has ended does not end again. -/
theorem ending_of_settled {progress : Progress} (settled : progress.settled) :
    progress.ending = none := by
  cases progress with
  | listing response => cases settled
  | fetching requests rejection => cases settled
  | loaded credits => rfl
  | failed rejection => rfl

theorem Sequential.inTurn {event : Event CreditStore Step Unit}
    (sequential : Sequential event.pre) : InTurn event := by
  intro i call ending last _ found ends earlier
  rw [ending_of_settled (sequential i call found earlier)] at ends
  cases ends

theorem Sequential.set (sequential : Sequential s) (found : s.calls[i]? = some call)
    {call' : Call} (outstanding : call.progress.settled = false) :
    ∀ j c, (s.calls.set i call')[j]? = some c → j + 1 < (s.calls.set i call').length →
      c.progress.settled := by
  intro j c found' earlier
  rw [List.length_set] at earlier
  by_cases same : i = j
  · subst same
    have settled := sequential i call found earlier
    rw [outstanding] at settled
    cases settled
  · rw [List.getElem?_set_ne same] at found'
    exact sequential j c found' earlier

/-- Where a call is started only after all earlier ones have ended, they go on ending one after
the other. -/
theorem Sequential.step {event : Event CreditStore Step Unit} (sequential : Sequential event.pre)
    (alone : ∀ projectId, event.input = .loadByProject projectId →
      ∀ call ∈ event.pre.calls, call.progress.settled)
    (commits : creditStore.Commits event) : Sequential event.post := by
  obtain ⟨s, step, output, s'⟩ := event
  have stepped : s.step step = some s' := commits_iff.mp commits
  rcases step_cases stepped with ⟨projectId, rfl, rfl⟩ |
    ⟨i, call, progress, found, rfl, before, -, -⟩ | ⟨i, call, ending, rfl, found, ends, rfl⟩
  · intro j c found earlier
    rw [List.length_append, List.length_singleton] at earlier
    rw [List.getElem?_append_left (by omega)] at found
    exact alone projectId rfl c (List.mem_of_getElem? found)
  · exact sequential.set found before
  · have outstanding : call.progress.settled = false := by
      by_contra settled
      rw [ending_of_settled (by simpa using settled)] at ends
      cases ends
    unfold Sequential
    rw [finish_calls]
    exact sequential.set found outstanding

/-- The last call wins where no calls overlap. -/
theorem lastWins_of_alone (inputs : List Step)
    (alone : ∀ event ∈ creditStore.log inputs, ∀ projectId,
      event.input = .loadByProject projectId → ∀ call ∈ event.pre.calls, call.progress.settled) :
    LastWins (creditStore.state inputs) := by
  have both : Sequential (creditStore.state inputs) ∧ LastWins (creditStore.state inputs) := by
    refine creditStore.run_induct_of _ (fun _ s => Sequential s ∧ LastWins s) ?_ ?_ inputs
      (Machine.admits_forall.mpr alone)
    · refine ⟨?_, lastWins_init⟩
      intro i call found
      cases found
    · rintro log event ⟨sequential, wins⟩ alone commits
      exact ⟨sequential.step alone commits,
        (lastWins_iff_inTurn wins commits).mpr sequential.inTurn⟩
  exact both.2

/-- In a run the last call wins at every moment if and only if all calls end in turn. -/
theorem lastWins_iff (inputs : List Step) :
    creditStore.Always (fun _ s => LastWins s) inputs ↔
      ∀ event ∈ creditStore.log inputs, InTurn event := by
  rw [← Machine.admits_forall]
  apply creditStore.always_iff_admits (fun _ s => LastWins s) lastWins_init lastWins_init
  · exact fun _ _ wins commits => lastWins_iff_inTurn wins commits
  · exact fun _ _ wins inTurn commits => (lastWins_iff_inTurn wins commits).mpr inTurn

namespace Sample

def credit (id projectId : String) : CreditMetadata where
  id := id
  projectId := projectId
  issuer := "GISSUER"
  vintageYear := 2023
  methodology := "VCS"
  geography := "BR"
  tonnes := "2000000"
  ipfsHash := "bafybei123"
  status := .active
  issuedAt := 1700000000

/-- The responses to the call for `P2` arrive before those to the earlier call for `P1`. -/
def overtaken : List Step :=
  [.loadByProject "P1", .loadByProject "P2",
    .listed 1 (.ok ["c2"]), .resume 1, .fetched 1 0 (.ok (credit "c2" "P2")), .resume 1,
    .listed 0 (.ok ["c1"]), .resume 0, .fetched 0 0 (.ok (credit "c1" "P1")), .resume 0]

end Sample

open Sample in
/-- Both calls have ended, and the store shows the credit of the project that was requested
first. -/
theorem overtaken_not_lastWins :
    ¬ creditStore.Always (fun _ s => LastWins s) overtaken := by
  intro always
  have wins := always overtaken [] (List.append_nil _).symm
  have calls : (creditStore.state overtaken).calls =
      [⟨"P1", .loaded [credit "c1" "P1"]⟩, ⟨"P2", .loaded [credit "c2" "P2"]⟩] := rfl
  have shows : (creditStore.state overtaken).credits = [credit "c1" "P1"] := rfl
  have shown := wins.shown ⟨"P2", .loaded [credit "c2" "P2"]⟩ (by rw [calls]; rfl)
    (by rw [calls]; decide) _ rfl
  rw [shows] at shown
  exact absurd shown.1 (by decide)

end CarbonChain.Frontend
