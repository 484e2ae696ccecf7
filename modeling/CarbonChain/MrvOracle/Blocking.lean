import Mathlib.Algebra.Order.Group.Abs
import Mathlib.Algebra.Order.Ring.Int
import CarbonChain.MrvOracle.Readings

/-!
# Readings that block a project

A reading is compared with the latest one (`contracts/mrv_oracle/src/lib.rs:387-401`) of
its project in 128-bit arithmetic, and a comparison that overflows refuses the new reading.
Nothing bounds the readings that are accepted, so one of them can be so far from all usual
amounts that every later reading of a usual amount is refused.
-/

namespace CarbonChain.MrvOracle

open Registry (Client Peer ScriptedCall)

/-- The largest amount that the registry accepts for a credit. -/
def maxTonnes : Int := 1000000000000000

/-- The contract accepts every reading of a usual amount for the project, if it is not paused,
the oracle is registered and authorises the call, the nonce is current, the timestamp is not in
the future and the registry lists a credit of the project. -/
def Accepts (s : State) (projectId : String) : Prop :=
  ∀ {W : Type} (invoke : Client W) (env : Env) (w w' : W) (oracle : Address) (tonnes : Int)
    (timestamp : Nat) (registryId : Address) (nonce : Nat) (credits : List BytesN32),
    0 ≤ tonnes → tonnes ≤ maxTonnes → s.paused = false → oracle ∈ s.oracleSet →
    env.auth oracle = true → s.getNonce oracle = nonce → timestamp ≤ env.timestamp →
    invoke w registryId (.listCreditsByProject projectId) = some (.ids credits, w') →
    credits ≠ [] →
    ∃ result, updateMrvData invoke env s w oracle projectId tonnes timestamp registryId nonce =
      .ok result

/-- Five times the distance between the reading and any usual amount is within 128 bits. -/
def Near (tonnes : Int) : Prop :=
  5 * tonnes < 2 ^ 127 ∧ 5 * (maxTonnes - tonnes) < 2 ^ 127

/-- The call submits no reading that is far from the usual amounts, nor does it use up the
nonces of its oracle. -/
def Call.Harmless : Call → Prop
  | .updateMrvData _ _ tonnes _ _ nonce => Near tonnes ∧ nonce + 2 < 2 ^ 64
  | _ => True

/-! ## When a reading is accepted -/

theorem fitsSigned_128 {a : Int} : FitsSigned 128 a ↔ -2 ^ 127 ≤ a ∧ a < 2 ^ 127 := Iff.rfl

/-- Usual amounts can be compared with a reading that is near them. -/
theorem Near.comparable {previous tonnes : Int} (near : Near previous) (nonneg : 0 ≤ tonnes)
    (usual : tonnes ≤ maxTonnes) : Comparable previous tonnes := by
  rcases near with ⟨upper, lower⟩
  unfold maxTonnes at usual lower
  have apart : |tonnes - previous| ≤ (2 ^ 127 - 1) / 5 := abs_le.mpr ⟨by omega, by omega⟩
  have size : |previous| < 2 ^ 127 := abs_lt.mpr ⟨by omega, by omega⟩
  have := abs_nonneg (tonnes - previous)
  have := abs_nonneg previous
  constructor <;> rw [fitsSigned_128]
  · omega
  · omega
  · omega
  · omega

/-- A reading that both ends of the usual amounts can be compared with is near them. -/
theorem near_of_comparable {previous : Int} (zero : Comparable previous 0)
    (largest : Comparable previous maxTonnes) : Near previous := by
  have below := zero.diffTimes5
  have above := largest.diffTimes5
  rw [fitsSigned_128] at below above
  have := neg_le_abs (0 - previous)
  have := le_abs_self (maxTonnes - previous)
  unfold Near
  omega

/-! ## Runs -/

/-- What a state has after readings that are harmless. -/
structure Open (s : State) : Prop where
  nonces : ∀ a, s.getNonce a + 1 < 2 ^ 64
  near : ∀ projectId p, s.latest.lookup projectId = some p → Near p.tonnes

theorem Open.accepts {s : State} (isOpen : Open s) (projectId : String) : Accepts s projectId := by
  intro W invoke env w w' oracle tonnes timestamp registryId nonce credits nonneg usual unpaused
    registered authorised numbered past listed known
  have room := isOpen.nonces oracle
  rw [numbered] at room
  have detected : ∃ anomaly, detectAnomaly s projectId tonnes = .ok anomaly := by
    simp only [detectAnomaly_eq_ok]
    cases latest : s.latest.lookup projectId with
    | none => exact ⟨false, rfl⟩
    | some p =>
        by_cases zero : p.tonnes = 0
        · exact ⟨false, .inl ⟨zero, rfl⟩⟩
        · have fits := (isOpen.near projectId p latest).comparable nonneg usual
          exact ⟨decide (|p.tonnes| < 5 * |tonnes - p.tonnes|), .inr ⟨zero, fits, by simp⟩⟩
  rcases detected with ⟨anomaly, detected⟩
  exact ⟨_, updateMrvData_eq_ok.mpr ⟨unpaused, authorised, registered, numbered, room, past,
    ⟨credits, listed, known⟩, detected, rfl⟩⟩

theorem Open.step {event : ReadingEvent} (isOpen : Open event.pre)
    (harmless : event.input.call.Harmless) (commits : peer.alone.Commits event) :
    Open event.post := by
  rcases Peer.alone_commits.mp commits with ⟨n, success⟩
  generalize event.post = post at success
  cases named : event.input.call with
  | updateMrvData oracle projectId tonnes timestamp registryId nonce =>
      rw [named] at success harmless
      rcases exec_updateMrvData success with ⟨anomaly, -, success⟩
      rcases updateMrvData_eq_ok.mp success with ⟨-, -, -, -, -, -, -, -, rfl⟩
      refine ⟨?_, ?_⟩
      · intro a
        show nonceOf (event.pre.nonce.insert oracle (nonce + 1)) a + 1 < 2 ^ 64
        have before := isOpen.nonces a
        rw [nonceOf_insert]
        split
        · exact harmless.2
        · exact before
      · intro project p stored
        change (event.pre.latest.insert projectId _).lookup project = some p at stored
        rw [Store.lookup_insert_ite] at stored
        split at stored
        · rw [← Option.some.inj stored]
          exact harmless.1
        · exact isOpen.near project p stored
  | _ =>
      rw [named] at success
      have same := exec_unread (by simp) success
      refine ⟨?_, ?_⟩
      · intro a
        show nonceOf post.nonce a + 1 < 2 ^ 64
        rw [same.2.2]
        exact isOpen.nonces a
      · rw [same.1]
        exact isOpen.near

/-- An accepted reading is followed by an accepted one of every usual amount only if these can
be compared with it and its oracle has a nonce left. -/
theorem comparable_of_accepts {event : ReadingEvent} (commits : peer.alone.Commits event)
    {oracle : Address} {projectId : String} {tonnes : Int} {timestamp : Nat}
    {registryId : Address} {nonce : Nat}
    (named : event.input.call =
      .updateMrvData oracle projectId tonnes timestamp registryId nonce)
    (accepts : Accepts event.post projectId) {amount : Int} (nonneg : 0 ≤ amount)
    (usual : amount ≤ maxTonnes) :
    nonce + 2 < 2 ^ 64 ∧ (tonnes = 0 ∨ Comparable tonnes amount) := by
  rcases Peer.alone_commits.mp commits with ⟨n, success⟩
  generalize event.post = post at success accepts
  rw [named] at success
  rcases exec_updateMrvData success with ⟨anomaly, -, success⟩
  rcases updateMrvData_eq_ok.mp success with ⟨unpaused, -, registered, -, -, -, -, -, rfl⟩
  -- the oracle submits one more reading, and the registry lists a credit
  let listing : Client Unit := fun w _ _ => some (.ids [Registry.Sample.credit 0], w)
  have numbered : nonceOf (event.pre.nonce.insert oracle (nonce + 1)) oracle = nonce + 1 := by
    rw [nonceOf_insert, if_pos rfl]
  rcases accepts listing ⟨0, fun _ => true⟩ () () oracle amount 0 registryId (nonce + 1)
    [Registry.Sample.credit 0] nonneg usual unpaused registered rfl numbered (le_refl 0) rfl
    (by simp) with ⟨⟨flag, later, w⟩, again⟩
  rcases updateMrvData_eq_ok.mp again with ⟨-, -, -, -, room, -, -, detected, -⟩
  refine ⟨room, ?_⟩
  rw [detectAnomaly_eq_ok] at detected
  simp only [State.record, Store.lookup_insert_ite, if_true] at detected
  rcases detected with ⟨zero, -⟩ | ⟨-, fits, -⟩
  · exact .inl zero
  · exact .inr fits

/-- After a call that is not harmless some reading of a usual amount is refused. -/
theorem harmless_of_accepts {event : ReadingEvent} (commits : peer.alone.Commits event)
    (accepts : ∀ projectId, Accepts event.post projectId) : event.input.call.Harmless := by
  cases named : event.input.call with
  | updateMrvData oracle projectId tonnes timestamp registryId nonce =>
      have accepted : ∀ amount : Int, 0 ≤ amount → amount ≤ maxTonnes →
          nonce + 2 < 2 ^ 64 ∧ (tonnes = 0 ∨ Comparable tonnes amount) :=
        fun _ nonneg usual => comparable_of_accepts commits named (accepts projectId) nonneg usual
      have zero := accepted 0 (le_refl 0) (by decide)
      have largest := accepted maxTonnes (by decide) (le_refl _)
      refine ⟨?_, zero.1⟩
      rcases zero.2 with nothing | fits
      · rw [nothing]
        unfold Near
        decide
      · rcases largest.2 with nothing | fits'
        · rw [nothing]
          unfold Near
          decide
        · exact near_of_comparable fits fits'
  | _ => trivial

theorem open_init : Open peer.alone.init := by
  refine ⟨?_, ?_⟩
  · intro a
    show nonceOf ∅ a + 1 < 2 ^ 64
    simp [nonceOf]
  · intro projectId p stored
    cases stored

/-- No accepted reading blocks a project, at any moment of a run, in exactly the runs in which
every accepted reading is near the usual amounts and leaves its oracle a nonce. -/
theorem readings_never_block_iff (inputs : List (ScriptedCall Call)) :
    peer.alone.Always (fun _ s => ∀ projectId, Accepts s projectId) inputs ↔
      ∀ event ∈ peer.alone.log inputs, event.input.call.Harmless := by
  rw [← Machine.admits_forall]
  refine peer.alone.always_iff_admits (fun _ s => Open s) open_init open_init.accepts ?_ ?_ inputs
  · intro log event isOpen commits
    constructor
    · exact harmless_of_accepts commits
    · exact fun harmless => (isOpen.step harmless commits).accepts
  · exact fun log event isOpen harmless commits => isOpen.step harmless commits

namespace Sample

/-- The registered oracle submits a reading of 2 ^ 125 units. -/
def extreme : List (ScriptedCall Call) := setup ++ [update (2 ^ 125) 1735689600 0]

end Sample

set_option maxRecDepth 100000 in
/-- After a reading of 2 ^ 125 units the oracle cannot submit a reading of one tonne. -/
theorem extreme_blocks : ¬ Accepts (peer.alone.state Sample.extreme) "project-1" := by
  intro accepts
  let listing : Client Unit := fun w _ _ => some (.ids [Registry.Sample.credit 0], w)
  rcases accepts listing ⟨1735689600, fun _ => true⟩ () () Sample.oracle 1000000 1735689600
    (.contract 8) 1 [Registry.Sample.credit 0] (by decide) (by decide) rfl (by decide) rfl
    (by decide) (le_refl _) rfl (by simp) with ⟨result, accepted⟩
  have refused : updateMrvData listing ⟨1735689600, fun _ => true⟩ (peer.alone.state Sample.extreme)
      () Sample.oracle "project-1" 1000000 1735689600 (.contract 8) 1 =
      .error (.error .overflow) := rfl
  rw [refused] at accepted
  cases accepted

end CarbonChain.MrvOracle
