import CarbonChain.Misc.Logs
import CarbonChain.MrvOracle.Readings

/-!
# Who submits readings

An oracle is registered by the admin (`contracts/mrv_oracle/src/lib.rs:162-177`) and stays
one for good: no entry point removes it. A reading is accepted with the authority of its
oracle, and its nonce is the number of readings that the contract has accepted from that
oracle before.
-/

namespace CarbonChain.MrvOracle

open Registry (Client Peer ScriptedCall)
open Roster (Change changed replay)

/-- The oracle that a call adds. -/
def Call.oracleChange : Call → Option (Change Address)
  | .registerOracle _ oracle => some (.add oracle)
  | _ => none

/-- The admin registers an oracle. -/
def Registers (event : ReadingEvent) (oracle : Address) : Prop :=
  ∃ admin, event.input.call = .registerOracle admin oracle ∧
    event.pre.admin = some admin ∧ event.input.env.auth admin = true

/-- The number of readings accepted from an oracle. -/
def acceptedFrom (log : List ReadingEvent) (oracle : Address) : Nat :=
  (log.filterMap reading).countP fun point => point.oracle = oracle

variable {W : Type} {invoke : Client W} {env : Env} {s s' : State} {w w' : W} {call : Call}
  {ret : Ret}

theorem exec_oracleSet (h : exec invoke env s w call = .ok (ret, s', w')) :
    s'.oracleSet = changed s.oracleSet call.oracleChange := by
  have dispatched := (exec_eq_ok.mp h).2
  cases call with
  | updateMrvData oracle projectId tonnes timestamp registryId nonce =>
      obtain ⟨anomaly, rfl, success⟩ := exec_updateMrvData h
      obtain ⟨-, -, -, -, -, -, -, -, rfl⟩ := updateMrvData_eq_ok.mp success
      rfl
  | registerOracle admin oracle =>
      simp only [dispatch, registerOracle, map_eq_ok, bind_eq_ok] at dispatched
      obtain ⟨⟨added, post⟩, ⟨-, -, rest⟩, same⟩ := dispatched
      obtain ⟨-, rfl, -⟩ := same
      by_cases listed : oracle ∈ s.oracleSet
      · rw [if_pos listed, pure_eq_ok] at rest
        cases rest
        simp [changed, Call.oracleChange, Change.apply, listed]
      · rw [if_neg listed, pure_eq_ok] at rest
        cases rest
        simp [changed, Call.oracleChange, Change.apply, listed]
  | _ =>
      simp only [dispatch, initializeContract, pause, unpause, setPaused, upgrade, proposeAdmin,
        acceptAdmin, map_eq_ok, bind_eq_ok, pure_eq_ok, Prod.mk.injEq] at dispatched
      simp only [changed, Call.oracleChange, Option.elim_none]
      grind

/-- Only the admin registers. -/
theorem exec_registerOracle {admin oracle : Address}
    (h : exec invoke env s w (.registerOracle admin oracle) = .ok (ret, s', w')) :
    s.admin = some admin ∧ env.auth admin = true := by
  have dispatched := (exec_eq_ok.mp h).2
  simp only [dispatch, registerOracle, State.requireAdmin, map_eq_ok, bind_eq_ok,
    requireAdmin_eq_ok] at dispatched
  grind

/-- A call that accepts a reading carries the nonce of its oracle, and no other call writes a
nonce. -/
theorem exec_submission (h : exec invoke env s w call = .ok (ret, s', w')) :
    match call.reading ret with
    | none => s'.nonce = s.nonce
    | some point =>
        env.auth point.oracle = true ∧ point.oracle ∈ s.oracleSet ∧
        point.recordedAt ≤ env.timestamp ∧
        (∃ registryId, call = .updateMrvData point.oracle point.projectId point.tonnes
          point.recordedAt registryId (s.getNonce point.oracle)) ∧
        s'.nonce = s.nonce.insert point.oracle (s.getNonce point.oracle + 1) := by
  cases call with
  | updateMrvData oracle projectId tonnes timestamp registryId nonce =>
      obtain ⟨anomaly, rfl, success⟩ := exec_updateMrvData h
      obtain ⟨-, authorised, registered, rfl, -, past, -, -, rfl⟩ :=
        updateMrvData_eq_ok.mp success
      exact ⟨authorised, registered, past, ⟨registryId, rfl⟩, rfl⟩
  | _ => exact (exec_unread (by simp) h).2.2

/-! ## Runs -/

/-- The oracles are those of the log, and each nonce counts readings. -/
structure Attributed (log : List ReadingEvent) (s : State) : Prop where
  oracles : s.oracleSet = replay (log.filterMap fun event => event.input.call.oracleChange)
  counts : ∀ oracle, s.getNonce oracle = acceptedFrom log oracle

theorem acceptedFrom_snoc (log : List ReadingEvent) (event : ReadingEvent) (oracle : Address) :
    acceptedFrom (log ++ [event]) oracle =
      acceptedFrom log oracle + if (reading event).any (·.oracle = oracle) then 1 else 0 := by
  unfold acceptedFrom
  rw [List.filterMap_append, List.countP_append]
  cases accepted : reading event with
  | none => simp [accepted]
  | some point => simp [accepted, List.countP_singleton]

theorem Attributed.step {log : List ReadingEvent} {event : ReadingEvent}
    (attributed : Attributed log event.pre) (commits : peer.alone.Commits event) :
    Attributed (log ++ [event]) event.post := by
  obtain ⟨n, success⟩ := Peer.alone_commits.mp commits
  refine ⟨?_, ?_⟩
  · rw [exec_oracleSet success, Roster.replay_snoc, attributed.oracles]
  · intro oracle
    rw [acceptedFrom_snoc, ← attributed.counts oracle]
    have written := exec_submission success
    cases accepted : event.input.call.reading event.output with
    | none =>
        rw [accepted] at written
        rw [State.getNonce, written, show reading event = none from accepted]
        rfl
    | some point =>
        rw [accepted] at written
        rw [State.getNonce, written.2.2.2.2, nonceOf_insert,
          show reading event = some point from accepted]
        by_cases same : oracle = point.oracle
        · simp [same]
        · simp [same, Ne.symm same, State.getNonce]

theorem attributed_of_run (inputs : List (ScriptedCall Call)) :
    Attributed (peer.alone.log inputs) (peer.alone.state inputs) :=
  peer.alone.run_induct Attributed ⟨rfl, fun _ => rfl⟩
    (fun _ _ attributed commits => attributed.step commits) inputs

/-- An oracle of a run is one that the admin of its time has registered. -/
theorem mem_oracleSet_iff (inputs : List (ScriptedCall Call)) (oracle : Address) :
    oracle ∈ (peer.alone.state inputs).oracleSet ↔
      ∃ event ∈ peer.alone.log inputs, Registers event oracle := by
  rw [(attributed_of_run inputs).oracles, Roster.mem_replay_iff]
  constructor
  · rintro ⟨before, event, after, split, ⟨change, changes, admits⟩, -⟩
    obtain ⟨-, -, -, -, -, commits⟩ := peer.alone.log_split split
    obtain ⟨n, success⟩ := Peer.alone_commits.mp commits
    refine ⟨event, by rw [split]; simp, ?_⟩
    cases named : event.input.call with
    | registerOracle admin registered =>
        rw [named] at changes success
        cases changes
        obtain rfl : registered = oracle := admits
        exact ⟨admin, named, exec_registerOracle success⟩
    | _ =>
        rw [named] at changes
        cases changes
  · rintro ⟨event, logged, admin, named, -⟩
    obtain ⟨before, after, split⟩ := List.append_of_mem logged
    refine ⟨before, event, after, split, ⟨.add oracle, by rw [named]; rfl, rfl⟩, ?_⟩
    -- no call removes an oracle
    intro later listed change changes expels
    cases named : later.input.call <;> rw [named] at changes <;> cases changes
    exact expels

/-- In every run, whatever the callees answer, the oracles are those that an admin has registered,
for good. Each accepted reading was authorised by its oracle, which had been registered before,
was measured by then, and carries as its nonce how many readings of that oracle came before. -/
theorem readings_attributed (inputs : List (ScriptedCall Call)) :
    (∀ oracle, oracle ∈ (peer.alone.state inputs).oracleSet ↔
      ∃ event ∈ peer.alone.log inputs, Registers event oracle) ∧
    ∀ before event after point, peer.alone.log inputs = before ++ event :: after →
      reading event = some point →
        event.input.env.auth point.oracle = true ∧
        (∃ registration ∈ before, Registers registration point.oracle) ∧
        point.recordedAt ≤ event.input.env.timestamp ∧
        ∃ registryId, event.input.call = .updateMrvData point.oracle point.projectId point.tonnes
          point.recordedAt registryId (acceptedFrom before point.oracle) := by
  refine ⟨mem_oracleSet_iff inputs, ?_⟩
  intro before event after point split accepted
  obtain ⟨earlier, -, -, rfl, reached, commits⟩ := peer.alone.log_split split
  obtain ⟨n, success⟩ := Peer.alone_commits.mp commits
  have submitted := exec_submission success
  rw [show event.input.call.reading event.output = some point from accepted] at submitted
  obtain ⟨authorised, registered, past, ⟨registryId, carries⟩, -⟩ := submitted
  rw [← reached] at registered carries
  rw [(attributed_of_run earlier).counts] at carries
  exact ⟨authorised, (mem_oracleSet_iff earlier point.oracle).mp registered, past, registryId,
    carries⟩

end CarbonChain.MrvOracle
