import CarbonChain.Misc.Machine

/-!
# Handing over an office

An office is found by its first holder and then handed over in two steps: the holder
nominates a successor, who accepts. The nomination is kept in the state and outlives
the invocation that makes it. `orderly_iff` says what a machine whose steps obey these
moves still leaves open: whether a founding can come a second time. Where it cannot,
`succession` says that the office passes from hand to hand, each time by the acceptance of
the last nomination.
-/

namespace CarbonChain

/-- What an invocation does to an office. -/
inductive Move (A : Type) where
  | found (a : A)
  | nominate (holder successor : A)
  | accept (successor : A)
  | other

/-- Where an office is kept in a state, and what the inputs do to it. -/
structure Office (S I A : Type) where
  holder : S → Option A
  nominee : S → Option A
  move : I → Move A
  consents : I → A → Prop

namespace Office

variable {S I O E A : Type} (office : Office S I A)

/-- The event does to the office what its move says. -/
def Obeys (event : Event S I O) : Prop :=
  match office.move event.input with
  | .found a =>
      office.holder event.post = some a ∧ office.nominee event.post = office.nominee event.pre
  | .nominate a x =>
      office.holder event.pre = some a ∧ office.holder event.post = some a ∧
        office.nominee event.post = some x
  | .accept x =>
      office.nominee event.pre = some x ∧ office.consents event.input x ∧
        office.holder event.post = some x ∧ office.nominee event.post = none
  | .other =>
      office.holder event.post = office.holder event.pre ∧
        office.nominee event.post = office.nominee event.pre

/-- The office is vacant initially, and every committed invocation obeys its move. -/
structure KeptBy (M : Machine S I O E) : Prop where
  vacant : office.holder M.init = none
  unnominated : office.nominee M.init = none
  obeys : ∀ event, M.Commits event → office.Obeys event

/-- The office is founded. -/
def Founds (event : Event S I O) : Prop :=
  ∃ a, office.move event.input = .found a

def Founded (log : List (Event S I O)) : Prop :=
  ∃ event ∈ log, office.Founds event

/-- In the log, `a` nominated `x` and has held the office ever since. -/
def Nominated (log : List (Event S I O)) (a x : A) : Prop :=
  ∃ before nomination after, log = before ++ nomination :: after ∧
    office.move nomination.input = .nominate a x ∧
    ∀ event ∈ after, office.holder event.post = some a

/-- The event hands the office over, after the log, to someone who accepts it and whom
the holder of that moment nominated. -/
def HandsOver (log : List (Event S I O)) (event : Event S I O) : Prop :=
  ∃ a x, office.holder event.pre = some a ∧ office.Nominated log a x ∧
    office.move event.input = .accept x ∧ office.consents event.input x ∧
    office.holder event.post = some x

/-- Once it is founded, the office is not founded again and its holder changes only by a
handover. -/
def Orderly (log : List (Event S I O)) (event : Event S I O) : Prop :=
  office.Founded log → ¬ office.Founds event ∧
    (office.holder event.post ≠ office.holder event.pre → office.HandsOver log event)

/-- Somebody is nominated. -/
def Nominates (event : Event S I O) : Prop :=
  ∃ a x, office.move event.input = .nominate a x

/-- A nominee accepts. -/
def Accepts (event : Event S I O) : Prop :=
  ∃ x, office.move event.input = .accept x

/-- The last nomination of the log is of `x` by `a`, who has held the office ever since, and
nobody has accepted it. -/
def Pending (log : List (Event S I O)) (a x : A) : Prop :=
  ∃ before nomination after, log = before ++ nomination :: after ∧
    office.move nomination.input = .nominate a x ∧
    ∀ event ∈ after, office.holder event.post = some a ∧ ¬ office.Nominates event ∧
      ¬ office.Accepts event

/-- The event accepts, with the consent of the nominee, the pending nomination of the log,
whose author holds the office until then. -/
def Succeeds (log : List (Event S I O)) (event : Event S I O) : Prop :=
  ∃ a x, office.move event.input = .accept x ∧ office.consents event.input x ∧
    office.Pending log a x ∧ office.holder event.pre = some a ∧
    office.holder event.post = some x

/-- The office is founded once, its holder changes afterwards only by an acceptance, and
every acceptance is of the pending nomination. -/
structure Succession (log : List (Event S I O)) (event : Event S I O) : Prop where
  once : office.Founds event → ¬ office.Founded log
  changes : office.Founded log → office.holder event.post ≠ office.holder event.pre →
    office.Accepts event
  accepts : office.Accepts event → office.Succeeds log event

/-! ## Holders and nominees -/

variable {office} {M : Machine S I O E}

theorem Founded.snoc {log : List (Event S I O)} (h : office.Founded log) (event : Event S I O) :
    office.Founded (log ++ [event]) :=
  Machine.exists_snoc.mpr (.inl h)

theorem founded_of_snoc {log : List (Event S I O)} {event : Event S I O}
    (h : office.Founded (log ++ [event])) : office.Founded log ∨ office.Founds event :=
  Machine.exists_snoc.mp h

/-- A nomination stays pending while its author holds the office and nobody is nominated or
accepts. -/
theorem Pending.snoc {log : List (Event S I O)} {a x : A} (h : office.Pending log a x)
    {event : Event S I O} (holds : office.holder event.post = some a)
    (moved : office.move event.input = .other) : office.Pending (log ++ [event]) a x := by
  rcases h with ⟨before, nomination, after, rfl, nominates, held⟩
  refine ⟨before, nomination, after ++ [event], by simp, nominates, ?_⟩
  intro later listed
  rcases List.mem_append.mp listed with earlier | last
  · exact held later earlier
  · rw [List.mem_singleton.mp last]
    refine ⟨holds, ?_, ?_⟩
    · rintro ⟨b, y, nominates⟩
      rw [moved] at nominates
      cases nominates
    · rintro ⟨y, accepts⟩
      rw [moved] at accepts
      cases accepts

theorem Pending.nominated {log : List (Event S I O)} {a x : A} (h : office.Pending log a x) :
    office.Nominated log a x := by
  rcases h with ⟨before, nomination, after, split, nominates, held⟩
  exact ⟨before, nomination, after, split, nominates, fun event listed => (held event listed).1⟩

/-- The office is held once it is founded, and nobody is nominated before. -/
structure Tenure (office : Office S I A) (log : List (Event S I O)) (s : S) : Prop where
  held : office.Founded log → office.holder s ≠ none
  holder : office.holder s ≠ none → office.Founded log
  nominee : office.nominee s ≠ none → office.Founded log

theorem Tenure.step {log : List (Event S I O)} {event : Event S I O}
    (tenure : office.Tenure log event.pre) (obeys : office.Obeys event) :
    office.Tenure (log ++ [event]) event.post := by
  unfold Obeys at obeys
  cases moved : office.move event.input with
  | found a =>
      rw [moved] at obeys
      have founded : office.Founded (log ++ [event]) := ⟨event, by simp, a, moved⟩
      exact ⟨fun _ => by simp [obeys.1], fun _ => founded, fun _ => founded⟩
  | nominate a x =>
      rw [moved] at obeys
      have founded := (tenure.holder (by simp [obeys.1])).snoc event
      exact ⟨fun _ => by simp [obeys.2.1], fun _ => founded, fun _ => founded⟩
  | accept x =>
      rw [moved] at obeys
      have founded := (tenure.nominee (by simp [obeys.1])).snoc event
      exact ⟨fun _ => by simp [obeys.2.2.1], fun _ => founded, fun _ => founded⟩
  | other =>
      rw [moved] at obeys
      refine ⟨?_, ?_, ?_⟩
      · intro founded
        rw [obeys.1]
        rcases founded_of_snoc founded with earlier | ⟨a, founds⟩
        · exact tenure.held earlier
        · rw [moved] at founds
          cases founds
      · intro held
        rw [obeys.1] at held
        exact (tenure.holder held).snoc event
      · intro nominated
        rw [obeys.2] at nominated
        exact (tenure.nominee nominated).snoc event

theorem KeptBy.tenure (kept : office.KeptBy M) (inputs : List I) :
    office.Tenure (M.log inputs) (M.state inputs) := by
  refine M.run_induct (fun log s => office.Tenure log s) ?_ ?_ inputs
  · refine ⟨?_, ?_, ?_⟩
    · rintro ⟨event, logged, -⟩
      cases logged
    · intro held
      exact absurd kept.vacant held
    · intro nominated
      exact absurd kept.unnominated nominated
  · exact fun log event tenure commits => tenure.step (kept.obeys event commits)

/-- Whoever is nominated, the present holder nominated last. -/
def Awaits (office : Office S I A) (log : List (Event S I O)) (s : S) : Prop :=
  ∀ x, office.nominee s = some x → ∃ a, office.holder s = some a ∧ office.Pending log a x

theorem Awaits.step {log : List (Event S I O)} {event : Event S I O}
    (awaits : office.Awaits log event.pre) (obeys : office.Obeys event)
    (once : office.Founds event → office.holder event.pre = none) :
    office.Awaits (log ++ [event]) event.post := by
  intro x nominated
  unfold Obeys at obeys
  cases moved : office.move event.input with
  | found a =>
      -- the office was vacant, so no nomination is pending
      rw [moved] at obeys
      rw [obeys.2] at nominated
      rcases awaits x nominated with ⟨b, held, -⟩
      rw [once ⟨a, moved⟩] at held
      cases held
  | nominate a y =>
      rw [moved] at obeys
      rw [obeys.2.2] at nominated
      obtain rfl := Option.some.inj nominated
      exact ⟨a, obeys.2.1, log, event, [], rfl, moved, by simp⟩
  | accept y =>
      rw [moved] at obeys
      rw [obeys.2.2.2] at nominated
      cases nominated
  | other =>
      rw [moved] at obeys
      rw [obeys.2] at nominated
      rcases awaits x nominated with ⟨a, held, pending⟩
      have holds : office.holder event.post = some a := obeys.1.trans held
      exact ⟨a, holds, pending.snoc holds moved⟩

/-- In a run that only ever founds a vacant office, the nominee is the one whom the present
holder nominated last. -/
theorem KeptBy.awaits (kept : office.KeptBy M) (inputs : List I)
    (once : ∀ event ∈ M.log inputs, office.Founds event → office.holder event.pre = none) :
    office.Awaits (M.log inputs) (M.state inputs) := by
  refine M.run_induct_of (fun _ event => office.Founds event → office.holder event.pre = none)
    (fun log s => office.Awaits log s) ?_ ?_ inputs
    (Machine.admits_forall.mpr once)
  · intro x nominated
    rw [kept.unnominated] at nominated
    cases nominated
  · exact fun log event awaits once commits => awaits.step (kept.obeys event commits) once

/-- Whoever is nominated, the present holder nominated. -/
def Current (office : Office S I A) (log : List (Event S I O)) (s : S) : Prop :=
  ∀ x, office.nominee s = some x → ∃ a, office.holder s = some a ∧ office.Nominated log a x

/-- In a run that only ever founds a vacant office, the present holder nominated the
nominee. -/
theorem KeptBy.current (kept : office.KeptBy M) (inputs : List I)
    (once : ∀ event ∈ M.log inputs, office.Founds event → office.holder event.pre = none) :
    office.Current (M.log inputs) (M.state inputs) := by
  intro x nominated
  rcases kept.awaits inputs once x nominated with ⟨a, held, pending⟩
  exact ⟨a, held, pending.nominated⟩

/-- A log in which the office is founded twice is not in order. -/
theorem not_orderly {log before after : List (Event S I O)} {event : Event S I O}
    (split : log = before ++ event :: after) (founded : office.Founded before)
    (again : office.Founds event) : ¬ Machine.Admits office.Orderly log :=
  fun orderly => (orderly before event after split founded).1 again

/-- A change of the holder that is no founding hands the office over. -/
theorem Current.handsOver {log : List (Event S I O)} {event : Event S I O}
    (current : office.Current log event.pre) (obeys : office.Obeys event)
    (unfounding : ¬ office.Founds event)
    (changed : office.holder event.post ≠ office.holder event.pre) :
    office.HandsOver log event := by
  unfold Obeys at obeys
  cases moved : office.move event.input with
  | found a => exact absurd ⟨a, moved⟩ unfounding
  | nominate a x =>
      rw [moved] at obeys
      exact absurd (obeys.2.1.trans obeys.1.symm) changed
  | accept x =>
      rw [moved] at obeys
      rcases obeys with ⟨nominated, consents, holds, -⟩
      rcases current x nominated with ⟨a, held, nomination⟩
      exact ⟨a, x, held, nomination, moved, consents, holds⟩
  | other =>
      rw [moved] at obeys
      exact absurd obeys.1 changed

/-- The office passes in order exactly if it is never founded while someone holds it. -/
theorem KeptBy.orderly_iff (kept : office.KeptBy M) (inputs : List I) :
    Machine.Admits office.Orderly (M.log inputs) ↔
      ∀ event ∈ M.log inputs, office.Founds event → office.holder event.pre = none := by
  constructor
  · intro orderly event logged founds
    by_contra held
    rcases List.append_of_mem logged with ⟨before, after, split⟩
    rcases M.log_split split with ⟨earlier, later, -, rfl, reached, -⟩
    rw [← reached] at held
    have founded := (kept.tenure earlier).holder held
    exact (orderly _ event after split founded).1 founds
  · intro once before event after split founded
    rcases M.log_split split with ⟨earlier, later, -, rfl, reached, commits⟩
    have logged : event ∈ M.log inputs := by simp [split]
    have unfounding : ¬ office.Founds event := by
      intro founds
      have vacant := once event logged founds
      rw [← reached] at vacant
      exact (kept.tenure earlier).held founded vacant
    refine ⟨unfounding, fun changed => ?_⟩
    have current := kept.current earlier fun e here =>
      once e (by rw [split]; exact List.mem_append_left _ here)
    rw [reached] at current
    exact current.handsOver (kept.obeys event commits) unfounding changed

/-- A machine that only ever founds a vacant office passes it on in succession. -/
theorem KeptBy.succession (kept : office.KeptBy M)
    (once : ∀ event, M.Commits event → office.Founds event → office.holder event.pre = none)
    (inputs : List I) : Machine.Admits office.Succession (M.log inputs) := by
  intro before event after split
  rcases M.log_split split with ⟨earlier, later, -, rfl, reached, commits⟩
  have vacant : ∀ e ∈ M.log earlier, office.Founds e → office.holder e.pre = none := by
    intro e logged
    rcases List.append_of_mem logged with ⟨first, rest, shorter⟩
    rcases M.log_split shorter with ⟨-, -, -, -, -, commits⟩
    exact once e commits
  have tenure := kept.tenure earlier
  have awaits := kept.awaits earlier vacant
  have obeys := kept.obeys event commits
  rw [reached] at tenure awaits
  unfold Obeys at obeys
  refine ⟨?_, ?_, ?_⟩
  · intro founds founded
    exact tenure.held founded (once event commits founds)
  · intro founded changed
    cases moved : office.move event.input with
    | found a => exact absurd (once event commits ⟨a, moved⟩) (tenure.held founded)
    | nominate a x =>
        rw [moved] at obeys
        exact absurd (obeys.2.1.trans obeys.1.symm) changed
    | accept x => exact ⟨x, moved⟩
    | other =>
        rw [moved] at obeys
        exact absurd obeys.1 changed
  · rintro ⟨x, moved⟩
    rw [moved] at obeys
    rcases obeys with ⟨nominated, consents, holds, -⟩
    rcases awaits x nominated with ⟨a, held, pending⟩
    exact ⟨a, x, moved, consents, pending, held, holds⟩

end Office

end CarbonChain
