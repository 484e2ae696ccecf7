import Mathlib.Algebra.Order.Group.Unbundled.Int
import CarbonChain.Misc.Recent
import CarbonChain.MrvOracle.Contract

/-!
# The readings of a project

Every accepted reading (`contracts/mrv_oracle/src/lib.rs:191-253`) becomes the latest one
of its project and the last of its history, which holds the last hundred. The flag of a
reading compares it with the reading that was accepted before it, whether or not the
history still holds that one, and whichever of the two was measured later.
-/

namespace CarbonChain.MrvOracle

open Registry (Client Peer ScriptedCall)

abbrev ReadingEvent := Event State (ScriptedCall Call) Ret

/-- The reading that a call which returns `ret` has stored. -/
def Call.reading : Call → Ret → Option MrvDataPoint
  | .updateMrvData oracle projectId tonnes timestamp _ _, .bool anomaly =>
      some { oracle, projectId, tonnes, recordedAt := timestamp, anomaly }
  | _, _ => none

/-- The reading that an event accepts. -/
def reading (event : ReadingEvent) : Option MrvDataPoint :=
  event.input.call.reading event.output

/-- The readings accepted for a project, in order. -/
def readingsOf (log : List ReadingEvent) (projectId : String) : List MrvDataPoint :=
  (log.filterMap reading).filter fun point => point.projectId = projectId

/-- The reading differs by more than a fifth from a previous one that is not zero. -/
def Deviates (previous new : Int) : Prop :=
  previous ≠ 0 ∧ |previous| < 5 * |new - previous|

/-- The reading is flagged as the previous one says, and not if there is none. -/
def Flagged (previous : Option MrvDataPoint) (point : MrvDataPoint) : Prop :=
  match previous with
  | none => point.anomaly = false
  | some p => point.anomaly = true ↔ Deviates p.tonnes point.tonnes

/-- The comparison of the reading with the previous one stays within 128 bits. -/
structure Comparable (previous new : Int) : Prop where
  difference : FitsSigned 128 (new - previous)
  diff : FitsSigned 128 |new - previous|
  diffTimes5 : FitsSigned 128 (|new - previous| * 5)
  previous : FitsSigned 128 |previous|

@[simp] theorem int128_eq_ok {a b : Int} : int128 a = .ok b ↔ FitsSigned 128 a ∧ a = b := by
  simp [int128]

theorem detectAnomaly_eq_ok {s : State} {projectId : String} {tonnes : Int} {anomaly : Bool} :
    detectAnomaly s projectId tonnes = .ok anomaly ↔
      match s.latest.lookup projectId with
      | none => anomaly = false
      | some p => p.tonnes = 0 ∧ anomaly = false ∨
          p.tonnes ≠ 0 ∧ Comparable p.tonnes tonnes ∧
            (anomaly = true ↔ |p.tonnes| < 5 * |tonnes - p.tonnes|) := by
  unfold detectAnomaly
  cases s.latest.lookup projectId with
  | none =>
      show (pure false : Result Bool) = .ok anomaly ↔ anomaly = false
      rw [pure_eq_ok, eq_comm]
  | some p =>
      by_cases zero : p.tonnes = 0
      · simp only [zero, if_true, pure_eq_ok, true_and, ne_eq, not_true_eq_false, false_and,
          or_false]
        exact eq_comm
      · simp only [zero, if_false, bind_eq_ok, int128_eq_ok, rejectIf_eq_ok, pure_eq_ok,
          Int.natCast_natAbs, not_not, exists_const, false_and, false_or, not_false_eq_true,
          true_and, ne_eq, gt_iff_lt]
        have flagged : ∀ d : Int, decide (|p.tonnes| < d * 5) = anomaly ↔
            (anomaly = true ↔ |p.tonnes| < 5 * d) := by
          intro d
          rw [mul_comm d 5]
          cases anomaly <;> simp
        constructor
        · intro detected
          rcases detected with
            ⟨_, ⟨difference, rfl⟩, _, ⟨diff, rfl⟩, diffTimes5, _, ⟨previous, rfl⟩, flag⟩
          exact ⟨⟨difference, diff, diffTimes5, previous⟩, (flagged _).mp flag⟩
        · intro compared
          rcases compared with ⟨fits, flag⟩
          exact ⟨_, ⟨fits.difference, rfl⟩, _, ⟨fits.diff, rfl⟩, fits.diffTimes5, _,
            ⟨fits.previous, rfl⟩, (flagged _).mpr flag⟩

/-- `detect_anomaly` flags the reading as the latest one of the project says. -/
theorem detectAnomaly_flagged {s : State} {point : MrvDataPoint}
    (h : detectAnomaly s point.projectId point.tonnes = .ok point.anomaly) :
    Flagged (s.latest.lookup point.projectId) point := by
  rw [detectAnomaly_eq_ok] at h
  unfold Flagged Deviates
  cases latest : s.latest.lookup point.projectId with
  | none =>
      rw [latest] at h
      exact h
  | some p =>
      rw [latest] at h
      rcases h with ⟨zero, unflagged⟩ | ⟨nonzero, _, flag⟩
      · simp [zero, unflagged]
      · simp [nonzero, flag]

variable {W : Type} {invoke : Client W} {env : Env} {s s' : State} {w w' : W}

/-- The storage after a reading. -/
def State.record (s : State) (nonce : Nat) (point : MrvDataPoint) : State :=
  { s with
    nonce := s.nonce.insert point.oracle (nonce + 1)
    latest := s.latest.insert point.projectId point
    history := s.history.insert point.projectId
      (Recent.record maxHistory (s.getHistory point.projectId) point) }

/-- What `update_mrv_data` checks and writes. -/
theorem updateMrvData_eq_ok {oracle : Address} {projectId : String} {tonnes : Int}
    {timestamp : Nat} {registryId : Address} {nonce : Nat} {anomaly : Bool} :
    updateMrvData invoke env s w oracle projectId tonnes timestamp registryId nonce =
        .ok (anomaly, s', w') ↔
      s.paused = false ∧ env.auth oracle = true ∧ oracle ∈ s.oracleSet ∧
        s.getNonce oracle = nonce ∧ nonce + 1 < 2 ^ 64 ∧ timestamp ≤ env.timestamp ∧
        (∃ credits, invoke w registryId (.listCreditsByProject projectId) =
          some (.ids credits, w') ∧ credits ≠ []) ∧
        detectAnomaly s projectId tonnes = .ok anomaly ∧
        s' = s.record nonce { oracle, projectId, tonnes, recordedAt := timestamp, anomaly } := by
  simp only [updateMrvData, State.consumeNonce, bind_eq_ok, rejectIf_eq_ok,
    Env.requireAuth_eq_ok, exists_const, consumeNonce_eq_ok, Prod.exists, pure_eq_ok,
    Prod.mk.injEq, not_not, Client.listCreditsByProject_eq_ok, Bool.not_eq_true, gt_iff_lt,
    Nat.not_lt, List.isEmpty_eq_false_iff]
  constructor
  · intro success
    rcases success with ⟨unpaused, authorised, registered, _, ⟨numbered, room, rfl⟩, past, credits,
      _, listed, known, _, detected, rfl, stored, rfl⟩
    rw [numbered] at room stored
    exact ⟨unpaused, authorised, registered, numbered, room, past, ⟨credits, listed, known⟩,
      detected, stored.symm⟩
  · intro checked
    rcases checked with ⟨unpaused, authorised, registered, numbered, room, past,
      ⟨credits, listed, known⟩, detected, stored⟩
    have numbered : nonceOf s.nonce oracle = nonce := numbered
    refine ⟨unpaused, authorised, registered, _, ⟨numbered, by omega, rfl⟩, past, credits, _,
      listed, known, _, detected, rfl, ?_, rfl⟩
    rw [stored, numbered]
    rfl

theorem exec_updateMrvData {oracle : Address} {projectId : String} {tonnes : Int}
    {timestamp : Nat} {registryId : Address} {nonce : Nat} {ret : Ret}
    (h : exec invoke env s w
      (.updateMrvData oracle projectId tonnes timestamp registryId nonce) = .ok (ret, s', w')) :
    ∃ anomaly, ret = .bool anomaly ∧
      updateMrvData invoke env s w oracle projectId tonnes timestamp registryId nonce =
        .ok (anomaly, s', w') := by
  have dispatched := (exec_eq_ok.mp h).2
  simp only [dispatch, map_eq_ok, Prod.exists, Prod.mk.injEq] at dispatched
  rcases dispatched with ⟨anomaly, _, _, success, rfl, rfl, rfl⟩
  exact ⟨anomaly, rfl, success⟩

/-- Only a submission changes the readings and the nonces. -/
theorem exec_unread {call : Call} {ret : Ret}
    (unread : ∀ oracle projectId tonnes timestamp registryId nonce,
      call ≠ .updateMrvData oracle projectId tonnes timestamp registryId nonce)
    (h : exec invoke env s w call = .ok (ret, s', w')) :
    s'.latest = s.latest ∧ s'.history = s.history ∧ s'.nonce = s.nonce := by
  have dispatched := (exec_eq_ok.mp h).2
  cases call with
  | updateMrvData oracle projectId tonnes timestamp registryId nonce =>
      exact absurd rfl (unread oracle projectId tonnes timestamp registryId nonce)
  | _ =>
      simp only [dispatch, initializeContract, pause, unpause, setPaused, upgrade, proposeAdmin,
        acceptAdmin, registerOracle, map_eq_ok, bind_eq_ok, pure_eq_ok, Prod.mk.injEq,
        ite_eq_iff] at dispatched
      grind

/-- A call stores the reading that it accepts, flagged, and no other. -/
theorem exec_reading {call : Call} {ret : Ret}
    (h : exec invoke env s w call = .ok (ret, s', w')) :
    match call.reading ret with
    | none => s'.latest = s.latest ∧ s'.history = s.history
    | some point =>
        Flagged (s.latest.lookup point.projectId) point ∧
        s'.latest = s.latest.insert point.projectId point ∧
        s'.history = s.history.insert point.projectId
          (Recent.record maxHistory (s.getHistory point.projectId) point) := by
  cases call with
  | updateMrvData oracle projectId tonnes timestamp registryId nonce =>
      rcases exec_updateMrvData h with ⟨anomaly, rfl, success⟩
      rcases updateMrvData_eq_ok.mp success with ⟨-, -, -, -, -, -, -, detected, rfl⟩
      let point : MrvDataPoint := ⟨oracle, projectId, tonnes, timestamp, anomaly⟩
      have flagged : Flagged (s.latest.lookup point.projectId) point :=
        detectAnomaly_flagged detected
      exact ⟨flagged, rfl, rfl⟩
  | _ =>
      have same := exec_unread (by simp) h
      exact ⟨same.1, same.2.1⟩

/-- The first reading is unflagged, and each other one is flagged as the one before it says. -/
structure FlagsFollow (readings : List MrvDataPoint) : Prop where
  first : ∀ r ∈ readings.head?, r.anomaly = false
  later : readings.IsChain fun r r' => r'.anomaly = true ↔ Deviates r.tonnes r'.tonnes

theorem FlagsFollow.concat {readings : List MrvDataPoint} {point : MrvDataPoint}
    (follow : FlagsFollow readings) (flagged : Flagged readings.getLast? point) :
    FlagsFollow (readings ++ [point]) := by
  rcases List.eq_nil_or_concat readings with rfl | ⟨earlier, previous, rfl⟩
  · refine ⟨?_, List.isChain_singleton point⟩
    intro r head
    rw [← Option.some.inj head]
    exact flagged
  · rw [List.concat_eq_append] at *
    rw [List.getLast?_concat] at flagged
    refine ⟨?_, ?_⟩
    · intro r head
      rw [List.head?_append_of_ne_nil _ (by simp)] at head
      exact follow.first r head
    · apply follow.later.append (List.isChain_singleton point)
      intro r last r' head
      rw [List.getLast?_concat] at last
      rw [← Option.some.inj last, ← Option.some.inj head]
      exact flagged

/-- The stored readings are those of the log. -/
structure Follows (log : List ReadingEvent) (s : State) : Prop where
  history : ∀ projectId, s.getHistory projectId = (readingsOf log projectId).rtake maxHistory
  latest : ∀ projectId, s.latest.lookup projectId = (readingsOf log projectId).getLast?
  flags : ∀ projectId, FlagsFollow (readingsOf log projectId)

theorem readingsOf_snoc_of_none {log : List ReadingEvent} {event : ReadingEvent}
    (unread : reading event = none) (projectId : String) :
    readingsOf (log ++ [event]) projectId = readingsOf log projectId := by
  simp [readingsOf, List.filterMap_append, unread]

theorem readingsOf_snoc_of_some {log : List ReadingEvent} {event : ReadingEvent}
    {point : MrvDataPoint} (accepted : reading event = some point) (projectId : String) :
    readingsOf (log ++ [event]) projectId =
      if point.projectId = projectId then readingsOf log projectId ++ [point]
      else readingsOf log projectId := by
  unfold readingsOf
  rw [List.filterMap_append, List.filter_append]
  by_cases same : point.projectId = projectId
  · simp [accepted, same]
  · simp [accepted, same]

theorem State.getHistory_of_inserted {s s' : State} {projectId : String}
    {history : List MrvDataPoint} (inserted : s'.history = s.history.insert projectId history)
    (other : String) :
    s'.getHistory other = if other = projectId then history else s.getHistory other := by
  unfold getHistory
  rw [inserted, Store.lookup_insert_ite]
  split <;> rfl

theorem follows_init : Follows [] peer.alone.init := by
  refine ⟨fun _ => rfl, fun _ => rfl, ?_⟩
  intro projectId
  refine ⟨?_, List.isChain_nil⟩
  intro r head
  cases head

theorem Follows.step {log : List ReadingEvent} {event : ReadingEvent}
    (follows : Follows log event.pre) (commits : peer.alone.Commits event) :
    Follows (log ++ [event]) event.post := by
  rcases Peer.alone_commits.mp commits with ⟨n, success⟩
  have stored := exec_reading success
  cases accepted : event.input.call.reading event.output with
  | none =>
      rw [accepted] at stored
      refine ⟨?_, ?_, ?_⟩ <;> intro projectId <;> rw [readingsOf_snoc_of_none accepted]
      · unfold State.getHistory
        rw [stored.2]
        exact follows.history projectId
      · rw [stored.1]
        exact follows.latest projectId
      · exact follows.flags projectId
  | some point =>
      rw [accepted] at stored
      rcases stored with ⟨flagged, latest, history⟩
      refine ⟨?_, ?_, ?_⟩ <;> intro projectId <;> rw [readingsOf_snoc_of_some accepted]
      · rw [State.getHistory_of_inserted history]
        by_cases same : point.projectId = projectId
        · rw [if_pos same, if_pos same.symm, same, follows.history]
          exact Recent.record_rtake (by decide) _ point
        · rw [if_neg same, if_neg (Ne.symm same)]
          exact follows.history projectId
      · rw [latest, Store.lookup_insert_ite]
        by_cases same : point.projectId = projectId
        · rw [if_pos same, if_pos same.symm, List.getLast?_concat]
        · rw [if_neg same, if_neg (Ne.symm same)]
          exact follows.latest projectId
      · by_cases same : point.projectId = projectId
        · rw [if_pos same]
          rw [same, follows.latest] at flagged
          exact (follows.flags projectId).concat flagged
        · rw [if_neg same]
          exact follows.flags projectId

theorem follows_of_run (inputs : List (ScriptedCall Call)) :
    Follows (peer.alone.log inputs) (peer.alone.state inputs) :=
  peer.alone.run_induct Follows follows_init (fun _ _ follows commits => follows.step commits)
    inputs

theorem getLatest_of_stored {projectId : String} {point : MrvDataPoint}
    (stored : s.latest.lookup projectId = some point) :
    getLatest s projectId = .ok (some point) := by
  simp [getLatest, stored]

theorem getLatest_eq_some {projectId : String} {point : MrvDataPoint} :
    getLatest s projectId = .ok (some point) ↔ s.latest.lookup projectId = some point := by
  constructor
  · intro read
    simp only [getLatest, bind_eq_ok, rejectIf_eq_ok, exists_const, pure_eq_ok] at read
    exact read.2
  · exact getLatest_of_stored

/-- A reading of one project leaves the readings of every other project alone. -/
theorem other_project_kept {event : ReadingEvent} (commits : peer.alone.Commits event)
    {point : MrvDataPoint} (accepted : reading event = some point) {projectId : String}
    (other : point.projectId ≠ projectId) :
    event.post.getHistory projectId = event.pre.getHistory projectId ∧
      getLatest event.post projectId = getLatest event.pre projectId := by
  rcases Peer.alone_commits.mp commits with ⟨n, success⟩
  have stored := exec_reading success
  rw [show event.input.call.reading event.output = some point from accepted] at stored
  rcases stored with ⟨-, latest, history⟩
  refine ⟨?_, ?_⟩
  · rw [State.getHistory_of_inserted history, if_neg (Ne.symm other)]
  · simp [getLatest, latest, history, Ne.symm other]

/-- The history of a project is a faithful window on its readings: in every run it holds the
last hundred of the readings accepted for the project, in order, the latest one is the last of
them, readings of other projects leave both alone, and each reading but the first is flagged
if and only if it deviates from the one accepted before it. -/
theorem history_is_window (inputs : List (ScriptedCall Call)) (projectId : String) :
    (peer.alone.state inputs).getHistory projectId =
      (readingsOf (peer.alone.log inputs) projectId).rtake maxHistory ∧
    (∀ r ∈ (readingsOf (peer.alone.log inputs) projectId).getLast?,
      getLatest (peer.alone.state inputs) projectId = .ok (some r)) ∧
    (∀ event ∈ peer.alone.log inputs, ∀ point ∈ reading event, point.projectId ≠ projectId →
      event.post.getHistory projectId = event.pre.getHistory projectId ∧
        getLatest event.post projectId = getLatest event.pre projectId) ∧
    (∀ r ∈ (readingsOf (peer.alone.log inputs) projectId).head?, r.anomaly = false) ∧
    (readingsOf (peer.alone.log inputs) projectId).IsChain fun r r' =>
      r'.anomaly = true ↔ r.tonnes ≠ 0 ∧ 5 * |r'.tonnes - r.tonnes| > |r.tonnes| := by
  have follows := follows_of_run inputs
  refine ⟨follows.history projectId, ?_, ?_, (follows.flags projectId).first,
    (follows.flags projectId).later⟩
  · intro r last
    apply getLatest_of_stored
    rw [follows.latest]
    exact last
  · intro event logged point accepted other
    have pre := peer.alone.invariant_pre (fun _ => True) trivial (fun _ _ _ => trivial) logged
    exact other_project_kept pre.2 accepted other

/-! ## The order of measurement -/

/-- No reading of the history was measured after the latest one. -/
def Newest (projectId : String) (s : State) : Prop :=
  ∀ latest, getLatest s projectId = .ok (some latest) →
    ∀ point ∈ s.getHistory projectId, point.recordedAt ≤ latest.recordedAt

/-- The readings of a project are in the order of measurement. -/
def Ordered (readings : List MrvDataPoint) : Prop :=
  readings.Pairwise fun r r' => r.recordedAt ≤ r'.recordedAt

theorem Follows.newest_iff {log : List ReadingEvent} (follows : Follows log s)
    {projectId : String} :
    Newest projectId s ↔ ∀ latest ∈ (readingsOf log projectId).getLast?,
      ∀ point ∈ (readingsOf log projectId).rtake maxHistory,
        point.recordedAt ≤ latest.recordedAt := by
  unfold Newest
  rw [follows.history]
  simp only [getLatest_eq_some, follows.latest, Option.mem_def]

/-- After a reading the latest one is the newest if and only if it extends the order. -/
theorem Follows.newest_step {log : List ReadingEvent} {event : ReadingEvent}
    (after : Follows (log ++ [event]) event.post) (before : Follows log event.pre)
    {projectId : String} (newest : Newest projectId event.pre)
    (ordered : Ordered (readingsOf log projectId)) :
    Newest projectId event.post ↔ Ordered (readingsOf (log ++ [event]) projectId) := by
  have unchanged : readingsOf (log ++ [event]) projectId = readingsOf log projectId →
      (Newest projectId event.post ↔ Ordered (readingsOf (log ++ [event]) projectId)) := by
    intro same
    rw [after.newest_iff, same, ← before.newest_iff]
    exact iff_of_true newest ordered
  cases accepted : reading event with
  | none => exact unchanged (readingsOf_snoc_of_none accepted projectId)
  | some point =>
      have readings : readingsOf (log ++ [event]) projectId = _ :=
        readingsOf_snoc_of_some accepted projectId
      by_cases same : point.projectId = projectId
      · rw [if_pos same] at readings
        rw [after.newest_iff, readings, List.getLast?_concat]
        simp only [Option.mem_def, Option.some.injEq, forall_eq']
        rw [Recent.newest_iff MrvDataPoint.recordedAt (by decide) ordered]
        unfold Ordered
        rw [List.pairwise_append]
        simp [show (readingsOf log projectId).Pairwise _ from ordered]
      · rw [if_neg same] at readings
        exact unchanged readings

theorem ordered_of_snoc {log : List ReadingEvent} {event : ReadingEvent} {projectId : String}
    (ordered : Ordered (readingsOf (log ++ [event]) projectId)) :
    Ordered (readingsOf log projectId) := by
  unfold readingsOf at ordered
  rw [List.filterMap_append, List.filter_append] at ordered
  exact (List.pairwise_append.mp ordered).1

/-- In every run the latest reading of a project is the last of its history, the one that was
accepted last. It is always the newest of the history in exactly the runs in which the readings
of the project are accepted in the order of measurement. -/
theorem latest_newest_iff (inputs : List (ScriptedCall Call)) (projectId : String) :
    (∀ latest, getLatest (peer.alone.state inputs) projectId = .ok (some latest) →
      ((peer.alone.state inputs).getHistory projectId).getLast? = some latest ∧
        (readingsOf (peer.alone.log inputs) projectId).getLast? = some latest) ∧
    (peer.alone.Always (fun _ s => Newest projectId s) inputs ↔
      Ordered (readingsOf (peer.alone.log inputs) projectId)) := by
  refine ⟨?_, ?_⟩
  · intro latest read
    have follows := follows_of_run inputs
    rw [getLatest_eq_some, follows.latest] at read
    refine ⟨?_, read⟩
    rw [follows.history, Recent.getLast?_rtake (by decide)]
    exact read
  · have start : Newest projectId peer.alone.init := by
      intro latest read point listed
      cases listed
    rw [peer.alone.always_iff start inputs]
    -- what holds as long as the readings are ordered carries the equivalence along the run
    refine (peer.alone.run_induct (fun log s => Follows log s ∧
      (Machine.Admits (fun _ event => Newest projectId event.post) log ↔
        Ordered (readingsOf log projectId)) ∧
      (Ordered (readingsOf log projectId) → Newest projectId s)) ?_ ?_ inputs).2.1
    · refine ⟨follows_init, ?_, fun _ => start⟩
      exact iff_of_true (Machine.admits_nil _) List.Pairwise.nil
    · intro log event inv commits
      rcases inv with ⟨before, same, newest⟩
      have after := before.step commits
      have step := fun ordered => after.newest_step before (newest ordered) ordered
      refine ⟨after, ?_, ?_⟩
      · rw [Machine.admits_snoc, same]
        constructor
        · exact fun ⟨ordered, now⟩ => (step ordered).mp now
        · intro ordered
          have earlier := ordered_of_snoc ordered
          exact ⟨earlier, (step earlier).mpr ordered⟩
      · exact fun ordered => (step (ordered_of_snoc ordered)).mpr ordered

namespace Sample

/-- A registry that lists one credit for every project. -/
def listing : Registry.Script := fun _ _ request =>
  match request with
  | .listCreditsByProject _ => some (.ids [Registry.Sample.credit 0])
  | _ => none

def oracle : Address := .account 7

/-- `signer` calls the contract at the start of 2025. -/
def call (signer : Address) (call : Call) : ScriptedCall Call :=
  ⟨⟨1735689600, fun a => a == signer⟩, call, listing⟩

def setup : List (ScriptedCall Call) :=
  [call Registry.Sample.admin (.initializeContract Registry.Sample.admin),
   call Registry.Sample.admin (.registerOracle Registry.Sample.admin oracle)]

/-- The oracle submits a reading of the sample project. -/
def update (tonnes : Int) (timestamp nonce : Nat) : ScriptedCall Call :=
  call oracle (.updateMrvData oracle "project-1" tonnes timestamp (.contract 8) nonce)

/-- The second reading was measured a day before the first one. -/
def outOfOrder : List (ScriptedCall Call) :=
  setup ++ [update 1000000 1735689600 0, update 1500000 1735603200 1]

end Sample

set_option maxRecDepth 100000 in
/-- The latest reading is a day older than the one before it, which it is flagged against. -/
theorem outOfOrder_not_newest :
    ¬ Newest "project-1" (peer.alone.state Sample.outOfOrder) := by
  intro newest
  have late := newest ⟨Sample.oracle, "project-1", 1500000, 1735603200, true⟩ rfl
    ⟨Sample.oracle, "project-1", 1000000, 1735689600, false⟩ (by decide)
  exact absurd late (by decide)

end CarbonChain.MrvOracle
