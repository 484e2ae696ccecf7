import Mathlib.Data.List.Induction

/-!
# Transactional machines

A machine executes one invocation at a time. A failing invocation is rolled back
and leaves no trace; a successful one is committed and recorded in the log with
the states around it. A run is the fold of any list of invocations, so a
theorem about every list is a theorem about every run of any length and order.
`run_induct` is the rule for invariants: it carries a relation between the log
and the state through one committed invocation at a time.
-/

namespace CarbonChain

/-- A committed invocation with its output and the states around it. -/
structure Event (S I O : Type) where
  pre : S
  input : I
  output : O
  post : S

/-- A system from its initial state, whose inputs succeed with an output or fail. -/
structure Machine (S I O E : Type) where
  init : S
  exec : S → I → Except E (O × S)

namespace Machine

variable {S I O E : Type} (M : Machine S I O E)

/-- The event is what the machine does on its input in its pre-state. -/
def Commits (event : Event S I O) : Prop :=
  M.exec event.pre event.input = .ok (event.output, event.post)

/-- One invocation, with the rollback of a failing one. -/
def step (current : S × List (Event S I O)) (input : I) : S × List (Event S I O) :=
  match M.exec current.1 input with
  | .ok (output, post) => (post, current.2 ++ [⟨current.1, input, output, post⟩])
  | .error _ => current

/-- The state and the log after some inputs. -/
def run (inputs : List I) : S × List (Event S I O) :=
  inputs.foldl M.step (M.init, [])

/-- The state a run reaches. -/
def state (inputs : List I) : S := (M.run inputs).1

/-- The committed invocations of a run, in order. -/
def log (inputs : List I) : List (Event S I O) := (M.run inputs).2

theorem run_snoc (inputs : List I) (input : I) :
    M.run (inputs ++ [input]) = M.step (M.run inputs) input := by
  simp [run, List.foldl_append]

theorem state_nil : M.state [] = M.init := rfl

theorem log_nil : M.log [] = [] := rfl

/-- A committed invocation extends the run by its event. -/
theorem snoc_of_ok {inputs : List I} {input : I} {output : O} {post : S}
    (committed : M.exec (M.state inputs) input = .ok (output, post)) :
    M.state (inputs ++ [input]) = post ∧
      M.log (inputs ++ [input]) = M.log inputs ++ [⟨M.state inputs, input, output, post⟩] := by
  unfold state at committed
  unfold state log
  rw [run_snoc, step, committed]
  exact ⟨rfl, rfl⟩

/-- A failing invocation changes neither the state nor the log. -/
theorem snoc_of_error {inputs : List I} {input : I} {failure : E}
    (failed : M.exec (M.state inputs) input = .error failure) :
    M.state (inputs ++ [input]) = M.state inputs ∧
      M.log (inputs ++ [input]) = M.log inputs := by
  unfold state at failed
  unfold state log
  rw [run_snoc, step, failed]
  exact ⟨rfl, rfl⟩

/-- Induction on runs: what holds initially of the empty log and is carried by
every committed invocation holds of the log and the state of every run. -/
theorem run_induct (P : List (Event S I O) → S → Prop) (start : P [] M.init)
    (carry : ∀ log event, P log event.pre → M.Commits event → P (log ++ [event]) event.post)
    (inputs : List I) : P (M.log inputs) (M.state inputs) := by
  induction inputs using List.reverseRecOn with
  | nil => exact start
  | append_singleton inputs input ih =>
      cases committed : M.exec (M.state inputs) input with
      | ok result =>
          obtain ⟨output, post⟩ := result
          rw [(M.snoc_of_ok committed).1, (M.snoc_of_ok committed).2]
          exact carry (M.log inputs) ⟨M.state inputs, input, output, post⟩ ih committed
      | error failure =>
          rw [(M.snoc_of_error committed).1, (M.snoc_of_error committed).2]
          exact ih

/-- What some event of a longer log has, an earlier event or the last one has. -/
theorem exists_snoc {P : Event S I O → Prop} {log : List (Event S I O)} {event : Event S I O} :
    (∃ e ∈ log ++ [event], P e) ↔ (∃ e ∈ log, P e) ∨ P event := by
  constructor
  · rintro ⟨e, logged, holds⟩
    rcases List.mem_append.mp logged with before | last
    · exact .inl ⟨e, before, holds⟩
    · rw [List.mem_singleton.mp last] at holds
      exact .inr holds
  · rintro (⟨e, logged, holds⟩ | holds)
    · exact ⟨e, List.mem_append_left _ logged, holds⟩
    · exact ⟨event, List.mem_concat_self, holds⟩

/-- A relation between earlier and later events holds along a longer log if it holds along the
log, and between its events and the last one. -/
theorem pairwise_snoc {R : Event S I O → Event S I O → Prop} {log : List (Event S I O)}
    {event : Event S I O} :
    (log ++ [event]).Pairwise R ↔ log.Pairwise R ∧ ∀ e ∈ log, R e event := by
  rw [List.pairwise_append]
  simp

/-- Every event of the log meets the condition `C` on the log before it. -/
def Admits (C : List (Event S I O) → Event S I O → Prop) (log : List (Event S I O)) : Prop :=
  ∀ before event after, log = before ++ event :: after → C before event

theorem admits_nil (C : List (Event S I O) → Event S I O → Prop) : Admits C [] := by
  intro before event after split
  simp at split

theorem admits_snoc {C : List (Event S I O) → Event S I O → Prop} {log : List (Event S I O)}
    {event : Event S I O} : Admits C (log ++ [event]) ↔ Admits C log ∧ C log event := by
  constructor
  · intro admitted
    refine ⟨?_, admitted log event [] rfl⟩
    intro before earlier after split
    exact admitted before earlier (after ++ [event]) (by simp [split])
  · rintro ⟨admitted, last⟩ before e after split
    rcases List.eq_nil_or_concat after with rfl | ⟨rest, final, rfl⟩
    · obtain ⟨rfl, single⟩ := List.append_inj' split rfl
      obtain rfl := (List.cons.inj single).1
      exact last
    · rw [List.concat_eq_append, ← List.cons_append, ← List.append_assoc] at split
      obtain ⟨shorter, -⟩ := List.append_inj' split rfl
      exact admitted before e rest shorter

theorem Admits.left {C : List (Event S I O) → Event S I O → Prop} {log more : List (Event S I O)}
    (admitted : Admits C (log ++ more)) : Admits C log := by
  rintro before event after rfl
  exact admitted before event (after ++ more) (by simp)

/-- A log meets a condition if a first part of it does and all later events do whatever comes
before them. -/
theorem Admits.append {C : List (Event S I O) → Event S I O → Prop}
    {log more : List (Event S I O)} (admitted : Admits C log)
    (each : ∀ event ∈ more, ∀ before, C before event) : Admits C (log ++ more) := by
  induction more using List.reverseRecOn with
  | nil =>
      rw [List.append_nil]
      exact admitted
  | append_singleton more last ih =>
      rw [← List.append_assoc, admits_snoc]
      refine ⟨ih fun event listed => each event (List.mem_append_left _ listed), ?_⟩
      exact each last List.mem_concat_self _

/-- A condition that each event meets whatever comes before it. -/
theorem admits_of_forall {C : List (Event S I O) → Event S I O → Prop} {log : List (Event S I O)}
    (each : ∀ event ∈ log, ∀ before, C before event) : Admits C log := by
  rintro before event after rfl
  exact each event (by simp) before

theorem admits_forall {C : Event S I O → Prop} {log : List (Event S I O)} :
    Admits (fun _ event => C event) log ↔ ∀ event ∈ log, C event := by
  constructor
  · intro admitted event logged
    rcases List.append_of_mem logged with ⟨before, after, split⟩
    exact admitted before event after split
  · exact fun each => admits_of_forall fun event logged _ => each event logged

/-- A condition on what an event names is met by a log whose events name nothing. -/
theorem admits_of_none {A : Type} {f : Event S I O → Option A}
    {C : List (Event S I O) → Event S I O → A → Prop} {log : List (Event S I O)}
    (none_named : ∀ event ∈ log, f event = none) :
    Admits (fun before event => ∀ a, f event = some a → C before event a) log := by
  apply admits_of_forall
  intro event logged before a named
  rw [none_named event logged] at named
  cases named

/-- Induction on the runs whose events all meet a condition. -/
theorem run_induct_of (C : List (Event S I O) → Event S I O → Prop)
    (P : List (Event S I O) → S → Prop) (start : P [] M.init)
    (carry : ∀ log event, P log event.pre → C log event → M.Commits event →
      P (log ++ [event]) event.post)
    (inputs : List I) (admitted : Admits C (M.log inputs)) :
    P (M.log inputs) (M.state inputs) := by
  refine M.run_induct (fun log state => Admits C log → P log state) (fun _ => start) ?_ inputs
    admitted
  intro log event ih commits admitted
  obtain ⟨earlier, last⟩ := admits_snoc.mp admitted
  exact carry log event (ih earlier) last commits

/-- An invariant: it holds initially and every committed invocation keeps it. -/
theorem invariant (P : S → Prop) (start : P M.init)
    (keep : ∀ event, P event.pre → M.Commits event → P event.post) (inputs : List I) :
    P (M.state inputs) :=
  M.run_induct (fun _ state => P state) start (fun _ event => keep event) inputs

/-- Every event of a log was committed from the state its prefix reached, and
the log before it is the log of that prefix. -/
theorem log_split {inputs : List I} {before after : List (Event S I O)} {event : Event S I O}
    (split : M.log inputs = before ++ event :: after) :
    ∃ earlier later : List I, inputs = earlier ++ later ∧ M.log earlier = before ∧
      M.state earlier = event.pre ∧ M.Commits event := by
  induction inputs using List.reverseRecOn generalizing after with
  | nil =>
      rw [log_nil] at split
      simp at split
  | append_singleton inputs input ih =>
      cases committed : M.exec (M.state inputs) input with
      | error failure =>
          rw [(M.snoc_of_error committed).2] at split
          obtain ⟨earlier, later, rfl, logged, reached, commits⟩ := ih split
          exact ⟨earlier, later ++ [input], by simp, logged, reached, commits⟩
      | ok result =>
          obtain ⟨output, post⟩ := result
          rw [(M.snoc_of_ok committed).2] at split
          rcases List.eq_nil_or_concat after with rfl | ⟨rest, last, rfl⟩
          · obtain ⟨logged, single⟩ := List.append_inj' split rfl
            obtain rfl := (List.cons.inj single).1
            exact ⟨inputs, [input], rfl, logged, rfl, committed⟩
          · rw [List.concat_eq_append, ← List.cons_append, ← List.append_assoc] at split
            obtain ⟨shorter, -⟩ := List.append_inj' split rfl
            obtain ⟨earlier, later, rfl, logged, reached, commits⟩ := ih shorter
            exact ⟨earlier, later ++ [input], by simp, logged, reached, commits⟩

/-- An invocation adds nothing to the log, or an event with its input. -/
theorem log_snoc (inputs : List I) (input : I) :
    ∃ last, M.log (inputs ++ [input]) = M.log inputs ++ last ∧
      ∀ event ∈ last, event.input = input := by
  cases committed : M.exec (M.state inputs) input with
  | error failure =>
      refine ⟨[], ?_, by simp⟩
      rw [(M.snoc_of_error committed).2, List.append_nil]
  | ok result =>
      obtain ⟨output, post⟩ := result
      exact ⟨_, (M.snoc_of_ok committed).2, by simp⟩

/-- A longer run extends the log. -/
theorem log_append (earlier later : List I) :
    ∃ more, M.log (earlier ++ later) = M.log earlier ++ more := by
  induction later using List.reverseRecOn with
  | nil => exact ⟨[], by simp⟩
  | append_singleton later input ih =>
      obtain ⟨more, extended⟩ := ih
      obtain ⟨last, logged, -⟩ := M.log_snoc (earlier ++ later) input
      rw [← List.append_assoc, logged, extended, List.append_assoc]
      exact ⟨more ++ last, rfl⟩

/-- Every logged input is one of the run's. -/
theorem input_mem {inputs : List I} {event : Event S I O} (logged : event ∈ M.log inputs) :
    event.input ∈ inputs := by
  induction inputs using List.reverseRecOn with
  | nil => cases logged
  | append_singleton inputs input ih =>
      obtain ⟨last, extended, only⟩ := M.log_snoc inputs input
      rw [extended] at logged
      rcases List.mem_append.mp logged with before | new
      · exact List.mem_append_left _ (ih before)
      · rw [only event new]
        exact List.mem_concat_self

/-- An invariant holds in the pre-state of every logged event. -/
theorem invariant_pre (P : S → Prop) (start : P M.init)
    (keep : ∀ event, P event.pre → M.Commits event → P event.post) {inputs : List I}
    {event : Event S I O} (logged : event ∈ M.log inputs) :
    P event.pre ∧ M.Commits event := by
  obtain ⟨before, after, split⟩ := List.append_of_mem logged
  obtain ⟨earlier, later, -, -, reached, commits⟩ := M.log_split split
  rw [← reached]
  exact ⟨M.invariant P start keep earlier, commits⟩

/-- What every run with the condition keeps holds in the pre-state of an event, for the log
before it. -/
theorem induct_split_of (C : List (Event S I O) → Event S I O → Prop)
    (P : List (Event S I O) → S → Prop) (start : P [] M.init)
    (carry : ∀ log event, P log event.pre → C log event → M.Commits event →
      P (log ++ [event]) event.post)
    {inputs : List I} (admitted : Admits C (M.log inputs)) {before after : List (Event S I O)}
    {event : Event S I O} (split : M.log inputs = before ++ event :: after) :
    P before event.pre ∧ C before event ∧ M.Commits event := by
  obtain ⟨earlier, later, -, logged, reached, commits⟩ := M.log_split split
  refine ⟨?_, admitted before event after split, commits⟩
  rw [← reached, ← logged]
  apply M.run_induct_of C P start carry earlier
  intro first e rest shorter
  apply admitted first e (rest ++ event :: after)
  rw [split, ← logged, shorter, List.append_assoc, List.cons_append]

/-- The same for a logged event. -/
theorem induct_pre_of (C : List (Event S I O) → Event S I O → Prop)
    (P : List (Event S I O) → S → Prop) (start : P [] M.init)
    (carry : ∀ log event, P log event.pre → C log event → M.Commits event →
      P (log ++ [event]) event.post)
    {inputs : List I} (admitted : Admits C (M.log inputs)) {event : Event S I O}
    (logged : event ∈ M.log inputs) :
    ∃ before after, M.log inputs = before ++ event :: after ∧ P before event.pre ∧
      C before event ∧ M.Commits event := by
  obtain ⟨before, after, split⟩ := List.append_of_mem logged
  exact ⟨before, after, split, M.induct_split_of C P start carry admitted split⟩

/-! ## Relations along a run -/

/-- A preorder that every committed invocation follows, from states with the invariant,
relates each state of a run to every later one. -/
theorem relates (Inv : S → Prop) (R : S → S → Prop) (start : Inv M.init)
    (refl : ∀ s, R s s) (trans : ∀ s t u, R s t → R t u → R s u)
    (keep : ∀ event, Inv event.pre → M.Commits event → Inv event.post ∧ R event.pre event.post)
    (earlier later : List I) : R (M.state earlier) (M.state (earlier ++ later)) := by
  have invariant := M.invariant Inv start fun event inv commits => (keep event inv commits).1
  induction later using List.reverseRecOn with
  | nil =>
      rw [List.append_nil]
      exact refl (M.state earlier)
  | append_singleton later input ih =>
      rw [← List.append_assoc]
      cases committed : M.exec (M.state (earlier ++ later)) input with
      | error failure =>
          rw [(M.snoc_of_error committed).1]
          exact ih
      | ok result =>
          obtain ⟨output, post⟩ := result
          rw [(M.snoc_of_ok committed).1]
          have step := keep ⟨M.state (earlier ++ later), input, output, post⟩
            (invariant (earlier ++ later)) committed
          exact trans _ _ _ ih step.2

/-! ## Exact conditions

A property of runs often holds in exactly the runs whose events all meet a condition. It is
enough that each event, from a log and a state as such runs have them, has the property if
and only if it meets the condition. -/

/-- `P` holds of the log and the state at every moment of the run. -/
def Always (P : List (Event S I O) → S → Prop) (inputs : List I) : Prop :=
  ∀ earlier later, inputs = earlier ++ later → P (M.log earlier) (M.state earlier)

theorem always_snoc {P : List (Event S I O) → S → Prop} {inputs : List I} {input : I} :
    M.Always P (inputs ++ [input]) ↔
      M.Always P inputs ∧ P (M.log (inputs ++ [input])) (M.state (inputs ++ [input])) := by
  constructor
  · intro always
    refine ⟨?_, ?_⟩
    · rintro earlier later rfl
      exact always earlier (later ++ [input]) (List.append_assoc _ _ _)
    · exact always (inputs ++ [input]) [] (List.append_nil _).symm
  · rintro ⟨before, last⟩ earlier later split
    rcases List.eq_nil_or_concat later with rfl | ⟨rest, final, rfl⟩
    · rw [List.append_nil] at split
      rw [← split]
      exact last
    · rw [List.concat_eq_append, ← List.append_assoc] at split
      obtain ⟨shorter, -⟩ := List.append_inj' split rfl
      exact before earlier rest shorter

/-- What holds of the empty log always holds if and only if every event brings it about. -/
theorem always_iff {P : List (Event S I O) → S → Prop} (start : P [] M.init) (inputs : List I) :
    M.Always P inputs ↔
      Admits (fun log event => P (log ++ [event]) event.post) (M.log inputs) := by
  induction inputs using List.reverseRecOn with
  | nil =>
      constructor
      · exact fun _ => admits_nil _
      · intro _ earlier later split
        rw [(List.append_eq_nil_iff.mp split.symm).1]
        exact start
  | append_singleton inputs input ih =>
      rw [always_snoc, ih]
      cases committed : M.exec (M.state inputs) input with
      | error failure =>
          obtain ⟨sameState, sameLog⟩ := M.snoc_of_error committed
          rw [sameState, sameLog]
          constructor
          · exact And.left
          · intro admitted
            have now := ih.mpr admitted inputs [] (List.append_nil _).symm
            exact ⟨admitted, now⟩
      | ok result =>
          obtain ⟨output, post⟩ := result
          obtain ⟨state, log⟩ := M.snoc_of_ok committed
          rw [state, log, admits_snoc]

/-- In the runs that meet the assumption `A`, all events have the property `P` if and only if
all meet the condition `C`. -/
theorem admits_iff (A P C : List (Event S I O) → Event S I O → Prop)
    (Inv : List (Event S I O) → S → Prop) (start : Inv [] M.init)
    (exact_ : ∀ log event, Inv log event.pre → A log event → M.Commits event →
      (P log event ↔ C log event))
    (keep : ∀ log event, Inv log event.pre → A log event → C log event → M.Commits event →
      Inv (log ++ [event]) event.post)
    (inputs : List I) (assumed : Admits A (M.log inputs)) :
    Admits P (M.log inputs) ↔ Admits C (M.log inputs) := by
  have both : (Admits P (M.log inputs) ↔ Admits C (M.log inputs)) ∧
      (Admits C (M.log inputs) → Inv (M.log inputs) (M.state inputs)) := by
    refine M.run_induct_of A (fun log state => (Admits P log ↔ Admits C log) ∧
      (Admits C log → Inv log state)) ?_ ?_ inputs assumed
    · exact ⟨⟨fun _ => admits_nil C, fun _ => admits_nil P⟩, fun _ => start⟩
    · intro log event ⟨same, inv⟩ assumed commits
      rw [admits_snoc, admits_snoc, same]
      refine ⟨and_congr_right ?_, ?_⟩
      · intro admitted
        exact exact_ log event (inv admitted) assumed commits
      · rintro ⟨admitted, here⟩
        exact keep log event (inv admitted) assumed here commits
  exact both.1

/-- What holds initially always holds in exactly the runs whose events all meet the condition
`C`, where each event brings it about if and only if it meets `C`. All events are assumed to
meet `A`. -/
theorem always_iff_admits_of {P : List (Event S I O) → S → Prop}
    {C : List (Event S I O) → Event S I O → Prop} (A : Event S I O → Prop)
    (Inv : List (Event S I O) → S → Prop) (start : Inv [] M.init) (initially : P [] M.init)
    (exact_ : ∀ log event, Inv log event.pre → A event → M.Commits event →
      (P (log ++ [event]) event.post ↔ C log event))
    (keep : ∀ log event, Inv log event.pre → A event → C log event → M.Commits event →
      Inv (log ++ [event]) event.post)
    (inputs : List I) (assumed : ∀ event ∈ M.log inputs, A event) :
    M.Always P inputs ↔ Admits C (M.log inputs) := by
  rw [M.always_iff initially inputs]
  apply M.admits_iff (fun _ event => A event) _ _ Inv start exact_ keep
  exact admits_of_forall fun event logged _ => assumed event logged

/-- The same without an assumption. -/
theorem always_iff_admits {P : List (Event S I O) → S → Prop}
    {C : List (Event S I O) → Event S I O → Prop} (Inv : List (Event S I O) → S → Prop)
    (start : Inv [] M.init) (initially : P [] M.init)
    (exact_ : ∀ log event, Inv log event.pre → M.Commits event →
      (P (log ++ [event]) event.post ↔ C log event))
    (keep : ∀ log event, Inv log event.pre → C log event → M.Commits event →
      Inv (log ++ [event]) event.post)
    (inputs : List I) : M.Always P inputs ↔ Admits C (M.log inputs) :=
  M.always_iff_admits_of (fun _ => True) Inv start initially
    (fun log event inv _ => exact_ log event inv) (fun log event inv _ => keep log event inv)
    inputs (fun _ _ => trivial)

/-! ## Machines side by side

Two machines on the same inputs, one with more detail in its states than the other. Where each
invocation of related states fails on both sides, or succeeds on both with one output and related
states again, the runs stay related and their logs have the same inputs and outputs.
-/

variable {T F : Type}

/-- Both results are failures, or successes with one output and related states. -/
inductive Alike (R : S → T → Prop) : Except E (O × S) → Except F (O × T) → Prop where
  | ok {output : O} {s : S} {t : T} (related : R s t) : Alike R (.ok (output, s)) (.ok (output, t))
  | error {e : E} {f : F} : Alike R (.error e) (.error f)

/-- The calls of a log, with what they returned. -/
def calls (log : List (Event S I O)) : List (I × O) :=
  log.map fun event => (event.input, event.output)

/-- The rule for two machines: one related step after the other. -/
theorem simulates (N : Machine T I O F) (R : S → T → Prop)
    (start : R M.init N.init)
    (alike : ∀ s t input, R s t → Alike R (M.exec s input) (N.exec t input)) (inputs : List I) :
    R (M.state inputs) (N.state inputs) ∧ calls (M.log inputs) = calls (N.log inputs) := by
  induction inputs using List.reverseRecOn with
  | nil => exact ⟨start, rfl⟩
  | append_singleton inputs input ih =>
      obtain ⟨related, same⟩ := ih
      have both := alike (M.state inputs) (N.state inputs) input related
      cases left_ : M.exec (M.state inputs) input with
      | error e =>
          cases right_ : N.exec (N.state inputs) input with
          | error f =>
              rw [(M.snoc_of_error left_).1, (M.snoc_of_error left_).2,
                (N.snoc_of_error right_).1, (N.snoc_of_error right_).2]
              exact ⟨related, same⟩
          | ok result =>
              rw [left_, right_] at both
              cases both
      | ok result =>
          obtain ⟨output, s⟩ := result
          cases right_ : N.exec (N.state inputs) input with
          | error f =>
              rw [left_, right_] at both
              cases both
          | ok result =>
              obtain ⟨output', t⟩ := result
              rw [left_, right_] at both
              cases both with
              | ok after =>
                  rw [(M.snoc_of_ok left_).1, (M.snoc_of_ok left_).2,
                    (N.snoc_of_ok right_).1, (N.snoc_of_ok right_).2]
                  refine ⟨after, ?_⟩
                  simp only [calls, List.map_append, List.map_cons, List.map_nil]
                  exact congrArg (· ++ [(input, output)]) same

end Machine

end CarbonChain
