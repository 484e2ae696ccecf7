import CarbonChain.Frontend.CreditStore
import CarbonChain.Misc.Keyed
import CarbonChain.Misc.Logs
import CarbonChain.Misc.Store

/-!
# What the credit store shows

All actions of `CreditStore` (`frontend/src/app/core/store/credit.store.ts`) together:
`loadOne` fetches one credit and merges it into the list, `reset` empties it, and neither
stops the calls that are under way. Calls of both kinds overlap in any way. What is shown
under an id is what the last action that wrote it has left there.
-/

namespace CarbonChain.Frontend

open Credits (CreditMetadata)

/-- A call of `loadOne`: it awaits `api.getCredit(id)`, whose response comes before it ends. -/
structure Single where
  id : String
  response : Option (Response CreditMetadata)
  ended : Bool

/-- The message that `loadOne` shows for a rejection (90). -/
def Rejection.messageFor (id : String) : Rejection → String :=
  messageOr s!"Failed to load credit {id}."

/-- The store with its selection and the calls of `loadOne` in the order of their start. -/
structure WholeStore where
  store : CreditStore
  selectedId : Option String
  singles : List Single

namespace WholeStore

variable (s : WholeStore)

/-! ## Derived signals -/

/-- The list of the store. -/
def credits : List CreditMetadata := s.store.credits

/-- The credit that is selected (30-32). -/
def selected : Option CreditMetadata := s.credits.find? fun c => some c.id = s.selectedId

/-- The credits under their projects (46-54). -/
def creditsByProject : Store String (List CreditMetadata) :=
  s.credits.foldl
    (fun map credit =>
      map.insert credit.projectId ((map.lookup credit.projectId).getD [] ++ [credit])) ∅

/-! ## Actions -/

/-- What a call of `loadOne` (76-94) writes when it ends. -/
def finishOne (id : String) : Response CreditMetadata → CreditStore
  | .ok credit => { s.store with
      credits := Keyed.upsert CreditMetadata.id id credit s.store.credits, loadingState := .loaded }
  | .error rejection => { s.store with
      error := some (rejection.messageFor id), loadingState := .error }

/-- `reset` (102-107). -/
def reset : WholeStore := { s with
  store := { s.store with credits := [], loadingState := .idle, error := none }
  selectedId := none }

end WholeStore

/-- An action of the store, a response to the request of a `loadOne`, or the end of one. -/
inductive Action where
  | project (step : Step)
  | loadOne (id : String)
  | received (i : Nat) (response : Response CreditMetadata)
  | resumeOne (i : Nat)
  | select (id : Option String)
  | reset

/-- What an action does; `none` if it cannot happen. -/
def WholeStore.step (s : WholeStore) : Action → Option WholeStore
  | .project step => (s.store.step step).map fun store => { s with store }
  | .loadOne id => some { s with
      store := { s.store with loadingState := .loading, error := none }
      singles := s.singles ++ [⟨id, none, false⟩] }
  | .received i response =>
      match s.singles[i]? with
      | some ⟨id, none, ended⟩ =>
          some { s with singles := s.singles.set i ⟨id, some response, ended⟩ }
      | _ => none
  | .resumeOne i =>
      match s.singles[i]? with
      | some ⟨id, some response, false⟩ => some { s with
          store := s.finishOne id response
          singles := s.singles.set i ⟨id, some response, true⟩ }
      | _ => none
  | .select id => some { s with selectedId := id }
  | .reset => some s.reset

/-- The store from its start. -/
def wholeStore : Machine WholeStore Action Unit Unit where
  init := ⟨creditStore.init, none, []⟩
  exec s action :=
    match s.step action with
    | some s' => .ok ((), s')
    | none => .error ()

abbrev StoreEvent := Event WholeStore Action Unit

theorem wholeStore_commits_iff {event : StoreEvent} :
    wholeStore.Commits event ↔ event.pre.step event.input = some event.post := by
  unfold Machine.Commits wholeStore
  cases stepped : event.pre.step event.input <;> simp [stepped]

/-! ## What the API answers and what actions write -/

/-- The API lists no id twice, and answers a request with the credit of the id asked for. -/
def answered (event : StoreEvent) : Bool :=
  match event.input with
  | .project (.listed _ (.ok ids)) => decide ids.Nodup
  | .project (.fetched i k (.ok credit)) =>
      match event.pre.store.calls[i]? with
      | some ⟨_, .fetching requests _⟩ => requests[k]?.all fun request => credit.id = request.id
      | _ => true
  | .received i (.ok credit) => event.pre.singles[i]?.all fun single => credit.id = single.id
  | _ => true

/-- The API answers as it is asked. -/
def Answers (event : StoreEvent) : Prop := answered event = true

instance (event : StoreEvent) : Decidable (Answers event) :=
  inferInstanceAs (Decidable (answered event = true))

/-- What an event writes under an id: a credit, or that there is none. -/
def writes (event : StoreEvent) (id : String) : Option (Option CreditMetadata) :=
  match event.input with
  | .project (.resume i) =>
      match event.pre.store.calls[i]? with
      | some call =>
          match call.progress.ending with
          | some (.ok credits) => some (credits.find? (·.id = id))
          | _ => none
      | none => none
  | .resumeOne i =>
      match event.pre.singles[i]? with
      | some ⟨asked, some (.ok credit), false⟩ => if id = asked then some (some credit) else none
      | _ => none
  | .reset => some none
  | _ => none

/-! ## Invariants -/

/-- A project load fetches no id twice, and has what it asked for. -/
def Progress.Keyed : Progress → Prop
  | .listing (some (.ok ids)) => ids.Nodup
  | .fetching requests _ => (requests.map Request.id).Nodup ∧
      ∀ request ∈ requests, ∀ credit, request.response = some (.ok credit) →
        credit.id = request.id
  | _ => True

theorem goOn_advances {s s' : CreditStore} {step : Step} {i : Nat}
    (goes : s.goOn step i = some s') :
    ∃ call progress, s.calls[i]? = some call ∧ step.advance call.progress = some progress ∧
      s' = s.move i call progress := by
  simp only [CreditStore.goOn, Option.bind_eq_bind, Option.bind_eq_some_iff, Option.pure_def,
    Option.some.injEq] at goes
  obtain ⟨call, found, progress, advanced, rfl⟩ := goes
  exact ⟨call, progress, found, advanced, rfl⟩

/-- A response to a request that was made leaves what is fetched keyed. -/
theorem receive_keyed {requests : List Request} {rejection : Option Rejection} {k : Nat}
    {response : Response CreditMetadata} {progress : Progress}
    (received : receive requests rejection k response = some progress)
    (keyed : (Progress.fetching requests rejection).Keyed)
    (answers : ∀ credit request, response = .ok credit → requests[k]? = some request →
      credit.id = request.id) : progress.Keyed := by
  unfold receive at received
  split at received
  · next id found =>
      obtain rfl := Option.some.inj received
      obtain ⟨distinct, own⟩ := keyed
      have inside := (List.getElem?_eq_some_iff.mp found).1
      have ids : (requests.set k ⟨id, some response⟩).map Request.id = requests.map Request.id := by
        apply List.ext_getElem?
        intro j
        rw [List.map_set, List.getElem?_set]
        split
        · next same =>
            subst same
            have there := (List.getElem?_eq_some_iff.mp found).2
            simp [inside, there]
        · rfl
      refine ⟨by rw [ids]; exact distinct, ?_⟩
      intro request listed credit got
      rcases List.mem_or_eq_of_mem_set listed with before | rfl
      · exact own request before credit got
      · exact answers credit ⟨id, none⟩ (Option.some.inj got) found
  · cases received

/-- What a step makes of a project load that goes on. -/
theorem advance_keyed {event : StoreEvent} {step : Step} (named : event.input = .project step)
    {i : Nat} (its : step = .resume i ∨ (∃ response, step = .listed i response) ∨
      ∃ k response, step = .fetched i k response)
    {call : Call} {progress : Progress} (found : event.pre.store.calls[i]? = some call)
    (advanced : step.advance call.progress = some progress) (keyed : call.progress.Keyed)
    (answers : Answers event) : progress.Keyed := by
  unfold Answers answered at answers
  rw [named] at answers
  unfold Step.advance at advanced
  split at advanced
  · next j response before =>
      obtain rfl := Option.some.inj advanced
      cases response with
      | ok ids =>
          have distinct : ids.Nodup := of_decide_eq_true answers
          exact distinct
      | error rejection => trivial
  · next j k response requests rejection before =>
      rw [before] at keyed
      refine receive_keyed advanced keyed ?_
      intro credit request got there
      subst got
      have same : j = i := by
        rcases its with its | ⟨_, its⟩ | ⟨_, _, its⟩ <;> cases its
        rfl
      subst same
      obtain ⟨projectId, progress⟩ := call
      dsimp only at before
      subst before
      simpa [found, there] using answers
  · next j ids before =>
      obtain rfl := Option.some.inj advanced
      rw [before] at keyed
      have keyed : ids.Nodup := keyed
      refine ⟨?_, ?_⟩
      · rw [List.map_map]
        simpa [Function.comp_def] using keyed
      · intro request listed credit got
        obtain ⟨id, -, rfl⟩ := List.mem_map.mp listed
        cases got
  · cases advanced

/-- The list and the registers that the log has written agree. -/
structure Shown (log : List StoreEvent) (s : WholeStore) : Prop where
  calls : ∀ call ∈ s.store.calls, call.progress.Keyed
  singles : ∀ single ∈ s.singles, ∀ credit, single.response = some (.ok credit) →
    credit.id = single.id
  distinct : (s.credits.map CreditMetadata.id).Nodup
  held : ∀ credit id, credit ∈ s.credits ∧ credit.id = id ↔
    Latest.held writes log id = some credit

/-- A project load that succeeds has each credit under its id. -/
theorem Progress.Keyed.loads {progress : Progress} (keyed : progress.Keyed)
    {credits : List CreditMetadata} (ends : progress.ending = some (.ok credits)) :
    (credits.map CreditMetadata.id).Nodup := by
  cases progress with
  | listing response => rcases response with _ | _ | _ <;> cases ends
  | fetching requests rejection =>
      obtain ⟨-, responses⟩ := promiseAll_eq_ok.mp ends
      obtain ⟨distinct, own⟩ := keyed
      have ids : credits.map CreditMetadata.id = requests.map Request.id := by
        apply List.ext_getElem?
        intro j
        have received := congrArg (fun list => list[j]?) responses
        simp only [List.getElem?_map] at received ⊢
        cases asked : requests[j]? with
        | none =>
            rw [asked, Option.map_none, eq_comm, Option.map_eq_none_iff] at received
            rw [received]
            rfl
        | some request =>
            rw [asked, Option.map_some, eq_comm, Option.map_eq_some_iff] at received
            obtain ⟨credit, there, got⟩ := received
            rw [there, Option.map_some, Option.map_some,
              own request (List.mem_of_getElem? asked) credit got.symm]
      rw [ids]
      exact distinct
  | loaded credits => cases ends
  | failed rejection => cases ends

section Step

variable {log : List StoreEvent} {event : StoreEvent}

/-- An event that writes nothing leaves the list alone. -/
theorem Shown.frame (shown : Shown log event.pre)
    (calls : ∀ call ∈ event.post.store.calls, call.progress.Keyed)
    (singles : ∀ single ∈ event.post.singles, ∀ credit,
      single.response = some (.ok credit) → credit.id = single.id)
    (kept : event.post.credits = event.pre.credits) (unwritten : ∀ id, writes event id = none) :
    Shown (log ++ [event]) event.post := by
  refine ⟨calls, singles, ?_, ?_⟩
  · rw [kept]
    exact shown.distinct
  · intro credit id
    rw [kept, Latest.held_snoc, Latest.written, unwritten, Option.getD_none]
    exact shown.held credit id

/-- A call that awaits more, or has ended, is as keyed as the others. -/
theorem keyed_set {calls : List Call} (keyed : ∀ call ∈ calls, call.progress.Keyed) {i : Nat}
    {call : Call} {progress : Progress} (its : progress.Keyed) :
    ∀ c ∈ calls.set i { call with progress }, c.progress.Keyed := by
  intro c listed
  rcases List.mem_or_eq_of_mem_set listed with before | rfl
  · exact keyed c before
  · exact its

/-- A step of a project load that is no end. -/
theorem Shown.goOn (shown : Shown log event.pre) (answers : Answers event) {step : Step} {i : Nat}
    (named : event.input = .project step)
    (its : step = .resume i ∨ (∃ response, step = .listed i response) ∨
      ∃ k response, step = .fetched i k response)
    {store : CreditStore} (goes : event.pre.store.goOn step i = some store)
    (reached : event.post = { event.pre with store }) : Shown (log ++ [event]) event.post := by
  obtain ⟨call, progress, found, advanced, rfl⟩ := goOn_advances goes
  have keyed := shown.calls call (List.mem_of_getElem? found)
  have keyed' := advance_keyed named its found advanced keyed answers
  obtain ⟨-, -, open_⟩ := advance_spec advanced
  apply shown.frame
  · rw [reached]
    exact keyed_set shown.calls keyed'
  · rw [reached]
    exact shown.singles
  · rw [reached]
    rfl
  · intro id
    unfold writes
    rw [named]
    rcases its with rfl | ⟨response, rfl⟩ | ⟨k, response, rfl⟩
    · simp [found, open_ i rfl]
    · rfl
    · rfl

/-- The end of a project load. -/
theorem Shown.settle (shown : Shown log event.pre) {i : Nat}
    (named : event.input = .project (.resume i)) {store : CreditStore}
    (settles : event.pre.store.settle i = some store)
    (reached : event.post = { event.pre with store }) : Shown (log ++ [event]) event.post := by
  simp only [CreditStore.settle, Option.bind_eq_bind, Option.bind_eq_some_iff, Option.pure_def,
    Option.some.injEq] at settles
  obtain ⟨call, found, ending, ends, rfl⟩ := settles
  cases ending with
  | error rejection =>
      apply shown.frame
      · rw [reached]
        exact keyed_set shown.calls trivial
      · rw [reached]
        exact shown.singles
      · rw [reached]
        rfl
      · intro id
        unfold writes
        rw [named]
        simp [found, ends]
  | ok credits =>
      have distinct := (shown.calls call (List.mem_of_getElem? found)).loads ends
      have shows : event.post.credits = credits := by
        rw [reached]
        rfl
      refine ⟨?_, ?_, ?_, ?_⟩
      · rw [reached]
        exact keyed_set shown.calls trivial
      · rw [reached]
        exact shown.singles
      · rw [shows]
        exact distinct
      · intro credit id
        have wrote : writes event id = some (credits.find? (·.id = id)) := by
          unfold writes
          rw [named]
          simp [found, ends]
        rw [shows, Latest.held_snoc, Latest.written, wrote, Option.getD_some,
          Keyed.find?_eq_some_iff distinct]

/-- The end of a `loadOne`. -/
theorem Shown.finishOne (shown : Shown log event.pre) {i : Nat} {id : String}
    {response : Response CreditMetadata} (named : event.input = .resumeOne i)
    (found : event.pre.singles[i]? = some ⟨id, some response, false⟩)
    (reached : event.post = { event.pre with
      store := event.pre.finishOne id response
      singles := event.pre.singles.set i ⟨id, some response, true⟩ }) :
    Shown (log ++ [event]) event.post := by
  have own := shown.singles _ (List.mem_of_getElem? found)
  have singles : ∀ single ∈ event.post.singles, ∀ credit,
      single.response = some (.ok credit) → credit.id = single.id := by
    rw [reached]
    intro single listed credit got
    rcases List.mem_or_eq_of_mem_set listed with before | rfl
    · exact shown.singles single before credit got
    · exact own credit got
  cases response with
  | error rejection =>
      apply shown.frame
      · rw [reached]
        exact shown.calls
      · exact singles
      · rw [reached]
        rfl
      · intro key
        unfold writes
        rw [named]
        simp [found]
  | ok credit =>
      have its : credit.id = id := own credit rfl
      have shows : event.post.credits =
          Keyed.upsert CreditMetadata.id id credit event.pre.credits := by
        rw [reached]
        rfl
      refine ⟨?_, singles, ?_, ?_⟩
      · rw [reached]
        exact shown.calls
      · rw [shows]
        exact Keyed.nodup_upsert shown.distinct its
      · intro other key
        have wrote : writes event key = if key = id then some (some credit) else none := by
          unfold writes
          rw [named]
          simp [found]
        rw [shows, Keyed.mem_upsert shown.distinct, Latest.held_snoc, Latest.written, wrote]
        by_cases same : key = id
        · subst same
          simp only [if_true, Option.getD_some, Option.some.injEq]
          constructor
          · rintro ⟨rfl | ⟨-, apart⟩, here⟩
            · rfl
            · exact absurd here apart
          · rintro rfl
            exact ⟨.inl rfl, its⟩
        · rw [if_neg same, Option.getD_none, ← shown.held]
          constructor
          · rintro ⟨rfl | ⟨listed, -⟩, here⟩
            · exact absurd (here.symm.trans its) same
            · exact ⟨listed, here⟩
          · rintro ⟨listed, here⟩
            refine ⟨.inr ⟨listed, ?_⟩, here⟩
            rw [here]
            exact same

theorem Shown.step (shown : Shown log event.pre) (answers : Answers event)
    (commits : wholeStore.Commits event) : Shown (log ++ [event]) event.post := by
  have stepped := wholeStore_commits_iff.mp commits
  have unwritten : (∀ i, event.input ≠ .project (.resume i)) → (∀ i, event.input ≠ .resumeOne i) →
      event.input ≠ .reset → ∀ id, writes event id = none := by
    intro load single reset id
    unfold writes
    split
    · next i named => exact absurd named (load i)
    · next i named => exact absurd named (single i)
    · next named => exact absurd named reset
    · rfl
  cases named : event.input with
  | project step =>
      rw [named] at stepped
      obtain ⟨store, steps, reached⟩ := Option.map_eq_some_iff.mp stepped
      cases step with
      | loadByProject projectId =>
          have started := Option.some.inj steps
          apply shown.frame
          · rw [← reached, ← started]
            intro call listed
            rcases List.mem_append.mp listed with before | last
            · exact shown.calls call before
            · rw [List.mem_singleton.mp last]
              trivial
          · rw [← reached]
            exact shown.singles
          · rw [← reached, ← started]
            rfl
          · exact unwritten (by simp [named]) (by simp [named]) (by simp [named])
      | listed i response =>
          exact shown.goOn answers named (.inr (.inl ⟨response, rfl⟩)) steps reached.symm
      | fetched i k response =>
          exact shown.goOn answers named (.inr (.inr ⟨k, response, rfl⟩)) steps reached.symm
      | resume i =>
          rcases (Option.orElse_eq_some _ _ _).mp steps with goes | ⟨-, settles⟩
          · exact shown.goOn answers named (.inl rfl) goes reached.symm
          · exact shown.settle named settles reached.symm
  | loadOne id =>
      rw [named] at stepped
      have reached := Option.some.inj stepped
      apply shown.frame
      · rw [← reached]
        exact shown.calls
      · rw [← reached]
        intro single listed credit got
        rcases List.mem_append.mp listed with before | last
        · exact shown.singles single before credit got
        · rw [List.mem_singleton.mp last] at got
          cases got
      · rw [← reached]
        rfl
      · exact unwritten (by simp [named]) (by simp [named]) (by simp [named])
  | received i response =>
      rw [named] at stepped
      simp only [WholeStore.step] at stepped
      split at stepped
      · next id ended found =>
          have reached := Option.some.inj stepped
          apply shown.frame
          · rw [← reached]
            exact shown.calls
          · rw [← reached]
            intro single listed credit got
            rcases List.mem_or_eq_of_mem_set listed with before | rfl
            · exact shown.singles single before credit got
            · obtain rfl := Option.some.inj got
              unfold Answers answered at answers
              rw [named] at answers
              simpa [found] using answers
          · rw [← reached]
            rfl
          · exact unwritten (by simp [named]) (by simp [named]) (by simp [named])
      · cases stepped
  | resumeOne i =>
      rw [named] at stepped
      simp only [WholeStore.step] at stepped
      split at stepped
      · next id response found => exact shown.finishOne named found (Option.some.inj stepped).symm
      · cases stepped
  | select id =>
      rw [named] at stepped
      have reached := Option.some.inj stepped
      apply shown.frame
      · rw [← reached]
        exact shown.calls
      · rw [← reached]
        exact shown.singles
      · rw [← reached]
        rfl
      · exact unwritten (by simp [named]) (by simp [named]) (by simp [named])
  | reset =>
      rw [named] at stepped
      have reached := Option.some.inj stepped
      have shows : event.post.credits = [] := by
        rw [← reached]
        rfl
      refine ⟨?_, ?_, ?_, ?_⟩
      · rw [← reached]
        exact shown.calls
      · rw [← reached]
        exact shown.singles
      · rw [shows]
        exact List.nodup_nil
      · intro credit id
        have wrote : writes event id = some none := by
          unfold writes
          rw [named]
        rw [shows, Latest.held_snoc, Latest.written, wrote]
        simp

end Step

/-! ## Runs -/

theorem shown_of_run (inputs : List Action)
    (answers : ∀ event ∈ wholeStore.log inputs, Answers event) :
    Shown (wholeStore.log inputs) (wholeStore.state inputs) := by
  refine wholeStore.run_induct_of (fun _ event => Answers event) Shown ?_
    (fun _ _ shown answers commits => shown.step answers commits) inputs
    (Machine.admits_forall.mpr answers)
  refine ⟨?_, ?_, List.nodup_nil, ?_⟩
  · intro call listed
    cases listed
  · intro single listed
    cases listed
  · intro credit id
    simp [Latest.held, wholeStore, creditStore, WholeStore.credits]

/-- The groups of the credits by project. -/
theorem lookup_creditsByProject (s : WholeStore) (projectId : String) :
    s.creditsByProject.lookup projectId =
      if s.credits.filter (·.projectId = projectId) = [] then none
      else some (s.credits.filter (·.projectId = projectId)) := by
  unfold WholeStore.creditsByProject
  induction s.credits using List.reverseRecOn with
  | nil => simp
  | append_singleton credits credit ih =>
      rw [List.foldl_append, List.foldl_cons, List.foldl_nil, Store.lookup_insert_ite,
        List.filter_append]
      by_cases its : credit.projectId = projectId
      · rw [its, if_pos rfl, ih]
        split <;> simp_all
      · rw [if_neg (Ne.symm its), ih]
        simp [its]

/-- However the calls overlap, as long as the API answers with what was asked, the list has no id
twice, and what it has under an id is what the last action that wrote there has left: the end of
a load of its project or of the credit itself, with no later end of a load and no reset. The
selection and the groups by project are those of this list. -/
theorem shown_is_last_written (inputs : List Action)
    (answers : ∀ event ∈ wholeStore.log inputs, Answers event) :
    ((wholeStore.state inputs).credits.map CreditMetadata.id).Nodup ∧
    (∀ credit, credit ∈ (wholeStore.state inputs).credits ↔
      ∃ before event after, wholeStore.log inputs = before ++ event :: after ∧
        writes event credit.id = some (some credit) ∧
        ∀ later ∈ after, writes later credit.id = none) ∧
    (∀ credit, (wholeStore.state inputs).selected = some credit ↔
      credit ∈ (wholeStore.state inputs).credits ∧
        (wholeStore.state inputs).selectedId = some credit.id) ∧
    ∀ projectId, ((wholeStore.state inputs).creditsByProject.lookup projectId).getD [] =
      (wholeStore.state inputs).credits.filter (·.projectId = projectId) := by
  have shown : Shown (wholeStore.log inputs) (wholeStore.state inputs) :=
    shown_of_run inputs answers
  refine ⟨shown.distinct, ?_, ?_, ?_⟩
  · intro credit
    rw [← Latest.held_eq_some_iff, ← shown.held]
    simp
  · intro credit
    unfold WholeStore.selected
    cases (wholeStore.state inputs).selectedId with
    | none =>
        constructor
        · intro found
          simpa using List.find?_some found
        · rintro ⟨-, other⟩
          cases other
    | some id =>
        have found := Keyed.find?_eq_some_iff (k := id) (x := credit) shown.distinct
        simpa [eq_comm] using found
  · intro projectId
    rw [lookup_creditsByProject]
    split
    · next none => rw [none, Option.getD_none]
    · rfl

namespace Sample

/-- A credit is loaded while the load of its project is under way, and has changed since. -/
def merged : List Action :=
  [.project (.loadByProject "P1"), .loadOne "c1", .project (.listed 0 (.ok ["c1", "c2"])),
    .project (.resume 0), .project (.fetched 0 1 (.ok (credit "c2" "P1"))),
    .project (.fetched 0 0 (.ok (credit "c1" "P1"))), .project (.resume 0), .select (some "c1"),
    .received 0 (.ok { credit "c1" "P1" with status := .retired }), .resumeOne 0]

end Sample

open CarbonChain.Frontend.Sample in
/-- The project load has left `c2`, the single one `c1`, which is selected. -/
theorem merged_shown :
    (wholeStore.state merged).selected = some { credit "c1" "P1" with status := .retired } := by
  have answers : ∀ event ∈ wholeStore.log merged, Answers event := by decide
  refine ((shown_is_last_written merged answers).2.2.1 _).mpr ⟨?_, rfl⟩
  have shows : (wholeStore.state merged).credits =
      [{ credit "c1" "P1" with status := .retired }, credit "c2" "P1"] := rfl
  rw [shows]
  exact List.mem_cons_self

end CarbonChain.Frontend
