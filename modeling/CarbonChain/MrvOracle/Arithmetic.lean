import Mathlib.Algebra.Order.BigOperators.Group.List
import CarbonChain.MrvOracle.Readings

/-!
# The arithmetic of the oracle

Readings are any 128-bit amounts. The detection of anomalies
(`contracts/mrv_oracle/src/lib.rs:387-401`) and the aggregation (`:325-348`) compute with
them at the same width under overflow checks. Of the four operations of the detection, one
is a checked one that reports an overflow as an error, and the others trap. The aggregation
adds the readings up without a check of its own, so it traps where a partial sum does not
fit.
-/

namespace CarbonChain.MrvOracle

open Registry (Client Peer ScriptedCall)

/-! ## Detection -/

/-- The detection returns whether the reading deviates from the latest one, or reports an
overflow. -/
def DetectsExactly (s : State) (projectId : String) (tonnes : Int) : Prop :=
  (∃ anomaly, detectAnomaly s projectId tonnes = .ok anomaly ∧
    (anomaly = true ↔
      ∃ p, s.latest.lookup projectId = some p ∧ Deviates p.tonnes tonnes)) ∨
  detectAnomaly s projectId tonnes = .error (.error .overflow)

/-- The difference of the reading and the previous one, its absolute value and the absolute
value of the previous one fit, the last one only if it is needed. -/
def Detectable (previous new : Int) : Prop :=
  |new - previous| < 2 ^ 127 ∧ (|previous| < 2 ^ 127 ∨ 2 ^ 127 ≤ 5 * |new - previous|)

theorem int128_bind {α : Type} (a : Int) (f : Int → Result α) :
    (int128 a >>= f) = if FitsSigned 128 a then f a else .error .trap := by
  unfold int128 panicIf
  by_cases fits : FitsSigned 128 a
  · simp only [fits, not_true_eq_false, if_false, if_true]
    rfl
  · simp only [fits, not_false_eq_true, if_false, if_true]
    rfl

theorem rejectIf_bind {α : Type} (condition : Prop) [Decidable condition] (code : OracleError)
    (f : Unit → Result α) :
    (rejectIf condition code >>= f) = if condition then .error (.error code) else f () := by
  unfold rejectIf
  split <;> rfl

/-- The detection against a previous reading that is not zero. -/
theorem detectAnomaly_of_nonzero {s : State} {projectId : String} {tonnes : Int}
    {p : MrvDataPoint} (latest : s.latest.lookup projectId = some p) (nonzero : p.tonnes ≠ 0) :
    detectAnomaly s projectId tonnes =
      if FitsSigned 128 (tonnes - p.tonnes) then
        if FitsSigned 128 |tonnes - p.tonnes| then
          if ¬ FitsSigned 128 (|tonnes - p.tonnes| * 5) then .error (.error .overflow)
          else if FitsSigned 128 |p.tonnes| then
            .ok (decide (|tonnes - p.tonnes| * 5 > |p.tonnes|))
          else .error .trap
        else .error .trap
      else .error .trap := by
  simp only [detectAnomaly, latest, nonzero, if_false, int128_bind, rejectIf_bind,
    Int.natCast_natAbs]
  rfl

/-- Against a previous reading that is not zero, the detection ends without a trap if and only
if the two can be compared or the overflow is noticed. -/
theorem detectAnomaly_nonzero_ends {s : State} {projectId : String} {p : MrvDataPoint}
    (latest : s.latest.lookup projectId = some p) (nonzero : p.tonnes ≠ 0) (tonnes : Int) :
    (Comparable p.tonnes tonnes ∨ detectAnomaly s projectId tonnes = .error (.error .overflow)) ↔
      Detectable p.tonnes tonnes := by
  have lower := neg_le_abs (tonnes - p.tonnes)
  have upper := le_abs_self (tonnes - p.tonnes)
  have nonneg := abs_nonneg (tonnes - p.tonnes)
  have previousNonneg := abs_nonneg p.tonnes
  rw [detectAnomaly_of_nonzero latest nonzero]
  unfold Detectable
  constructor
  · rintro (comparable | overflows)
    · rcases comparable with ⟨-, diff, -, previous⟩
      exact ⟨diff.2, .inl previous.2⟩
    · split at overflows
      · split at overflows
        · next diff =>
            split at overflows
            · next large =>
                refine ⟨diff.2, .inr ?_⟩
                unfold FitsSigned at large
                omega
            · split at overflows <;> cases overflows
        · cases overflows
      · cases overflows
  · rintro ⟨diff, noticed⟩
    have difference : FitsSigned 128 (tonnes - p.tonnes) := by
      unfold FitsSigned
      omega
    have fits : FitsSigned 128 |tonnes - p.tonnes| := by
      unfold FitsSigned
      omega
    by_cases small : FitsSigned 128 (|tonnes - p.tonnes| * 5)
    · refine .inl ⟨difference, fits, small, ?_⟩
      unfold FitsSigned at small ⊢
      omega
    · refine .inr ?_
      rw [if_pos difference, if_pos fits, if_pos small]

/-- The detection is exact, or reports the overflow, if and only if the previous reading is
zero or absent or the two are detectable. Everywhere else it traps. -/
theorem detectsExactly_iff (s : State) (projectId : String) (tonnes : Int) :
    DetectsExactly s projectId tonnes ↔
      ∀ p, s.latest.lookup projectId = some p → p.tonnes ≠ 0 → Detectable p.tonnes tonnes := by
  unfold DetectsExactly
  simp only [detectAnomaly_eq_ok]
  cases latest : s.latest.lookup projectId with
  | none => simp
  | some p =>
      by_cases zero : p.tonnes = 0
      · simp [zero, Deviates]
      · have ends := detectAnomaly_nonzero_ends latest zero tonnes
        simp only [zero, false_and, false_or, not_false_eq_true, true_and, ne_eq,
          Option.some.injEq, exists_eq_left', forall_eq', true_implies, Deviates]
        rw [← ends]
        constructor
        · rintro (⟨anomaly, ⟨comparable, -⟩, -⟩ | overflows)
          · exact .inl comparable
          · exact .inr overflows
        · rintro (comparable | overflows)
          · refine .inl ⟨decide (|p.tonnes| < 5 * |tonnes - p.tonnes|), ⟨comparable, ?_⟩, ?_⟩ <;>
              simp
          · exact .inr overflows

namespace Sample

/-- The oracle submits a reading of minus one unit. -/
def negative : List (ScriptedCall Call) := setup ++ [update (-1) 1735689600 0]

end Sample

set_option maxRecDepth 100000 in
/-- After a reading of -1, the largest amount there is traps. -/
theorem negative_traps :
    ¬ DetectsExactly (peer.alone.state Sample.negative) "project-1" (2 ^ 127 - 1) := by
  have trapped : detectAnomaly (peer.alone.state Sample.negative) "project-1" (2 ^ 127 - 1) =
      .error .trap := rfl
  unfold DetectsExactly
  rw [trapped]
  simp

/-! ## Aggregation -/

/-- The retained readings that were measured in a range of time. -/
def measuredIn (fromTs toTs : Nat) (retained : List MrvDataPoint) : List MrvDataPoint :=
  retained.filter fun point => point.recordedAt ≥ fromTs && point.recordedAt ≤ toTs

/-- The exact sum of some readings. -/
def sumTonnes (points : List MrvDataPoint) : Int := (points.map MrvDataPoint.tonnes).sum

/-- The aggregation returns the sum and the average of `points`, which is between the smallest
and the largest of them. -/
def AggregatesExactly (s : State) (projectId : String) (fromTs toTs : Nat)
    (points : List MrvDataPoint) : Prop :=
  ∃ average, getMrvAggregate s projectId fromTs toTs = .ok (sumTonnes points, average) ∧
    average = (if points = [] then 0 else (sumTonnes points).tdiv points.length) ∧
    (points ≠ [] → ∀ low high, (∀ point ∈ points, low ≤ point.tonnes ∧ point.tonnes ≤ high) →
      low ≤ average ∧ average ≤ high)

theorem foldl_tonnes (points : List MrvDataPoint) (start : Int) :
    points.foldl (fun sum point => sum + point.tonnes) start = start + sumTonnes points := by
  induction points generalizing start with
  | nil => simp [sumTonnes]
  | cons point points ih =>
      rw [List.foldl_cons, ih]
      simp only [sumTonnes, List.map_cons, List.sum_cons]
      omega

/-- The loop of `get_mrv_aggregate` adds up to the exact sum if no partial sum overflows. -/
theorem sumLoop_eq_ok {points : List MrvDataPoint} {sum : Int} :
    points.foldlM (fun sum point => int128 (sum + point.tonnes)) 0 = .ok sum ↔
      (∀ first rest, points = first ++ rest → FitsSigned 128 (sumTonnes first)) ∧
        sumTonnes points = sum := by
  rw [foldlM_guarded (P := FitsSigned 128) (g := fun sum point => sum + point.tonnes)]
  · simp only [foldl_tonnes, zero_add]
    constructor
    · rintro ⟨fits, summed⟩
      refine ⟨?_, summed⟩
      intro first rest split
      cases first using List.reverseRecOn with
      | nil =>
          unfold FitsSigned
          decide
      | append_singleton first point =>
          have here := fits first point rest (by simp [split])
          simpa [sumTonnes] using here
    · rintro ⟨fits, summed⟩
      refine ⟨?_, summed⟩
      intro first point rest split
      have here := fits (first ++ [point]) rest (by simp [split])
      simpa [sumTonnes] using here
  · intro a point c
    rw [int128_eq_ok]
    constructor
    · rintro ⟨fits, rfl⟩
      exact ⟨fits, rfl⟩
    · rintro ⟨fits, rfl⟩
      exact ⟨fits, rfl⟩

theorem sum_bounds {points : List MrvDataPoint} {low high : Int}
    (bounded : ∀ point ∈ points, low ≤ point.tonnes ∧ point.tonnes ≤ high) :
    points.length * low ≤ sumTonnes points ∧ sumTonnes points ≤ points.length * high := by
  have each : ∀ amount ∈ points.map MrvDataPoint.tonnes, low ≤ amount ∧ amount ≤ high := by
    intro amount given
    rcases List.mem_map.mp given with ⟨point, member, rfl⟩
    exact bounded point member
  have above := List.card_nsmul_le_sum _ low fun amount given => (each amount given).1
  have below := List.sum_le_card_nsmul _ high fun amount given => (each amount given).2
  rw [List.length_map, nsmul_eq_mul] at above below
  exact ⟨above, below⟩

/-- A truncated average is between any two bounds of what is averaged. -/
theorem average_between {points : List MrvDataPoint} (nonempty : points ≠ []) {low high : Int}
    (bounded : ∀ point ∈ points, low ≤ point.tonnes ∧ point.tonnes ≤ high) :
    low ≤ (sumTonnes points).tdiv points.length ∧
      (sumTonnes points).tdiv points.length ≤ high := by
  have count : 0 < (points.length : Int) := by
    exact_mod_cast List.length_pos_iff.mpr nonempty
  rcases sum_bounds bounded with ⟨above, below⟩
  constructor
  · have divided := Int.tdiv_le_tdiv count above
    rwa [Int.mul_tdiv_cancel_left low (Int.ne_of_gt count)] at divided
  · have divided := Int.tdiv_le_tdiv count below
    rwa [Int.mul_tdiv_cancel_left high (Int.ne_of_gt count)] at divided

/-- The aggregation is exact if no partial sum overflows, and traps otherwise. -/
theorem aggregatesExactly_of_history (s : State) (projectId : String) (fromTs toTs : Nat) :
    AggregatesExactly s projectId fromTs toTs
        (measuredIn fromTs toTs (s.getHistory projectId)) ↔
      ∀ first rest, measuredIn fromTs toTs (s.getHistory projectId) = first ++ rest →
        FitsSigned 128 (sumTonnes first) := by
  generalize selected : measuredIn fromTs toTs (s.getHistory projectId) = points
  have computed : ∀ sum average : Int,
      getMrvAggregate s projectId fromTs toTs = .ok (sum, average) ↔
        points.foldlM (fun sum point => int128 (sum + point.tonnes)) 0 = .ok sum ∧
          (if points.length > 0 then sum.tdiv points.length else 0) = average := by
    intro sum average
    rw [← selected]
    simp only [getMrvAggregate, measuredIn, bind_eq_ok, pure_eq_ok, Prod.mk.injEq]
    constructor
    · rintro ⟨_, looped, rfl, averaged⟩
      exact ⟨looped, averaged⟩
    · rintro ⟨looped, averaged⟩
      exact ⟨sum, looped, rfl, averaged⟩
  have positive : points.length > 0 ↔ points ≠ [] := List.length_pos_iff
  constructor
  · rintro ⟨average, returned, -⟩
    exact (sumLoop_eq_ok.mp ((computed _ _).mp returned).1).1
  · intro fits
    refine ⟨_, (computed _ _).mpr ⟨sumLoop_eq_ok.mpr ⟨fits, rfl⟩, rfl⟩, ?_, ?_⟩
    · by_cases nothing : points = []
      · simp [nothing]
      · rw [if_pos (positive.mpr nothing), if_neg nothing]
    · intro nonempty low high bounded
      rw [if_pos (positive.mpr nonempty)]
      exact average_between nonempty bounded

/-- In every reachable state, the aggregation over a range of time is exact for the last
hundred accepted readings of the project if and only if no partial sum of those in the range
overflows. -/
theorem aggregatesExactly_iff (inputs : List (ScriptedCall Call)) (projectId : String)
    (fromTs toTs : Nat) :
    let retained := (readingsOf (peer.alone.log inputs) projectId).rtake maxHistory
    AggregatesExactly (peer.alone.state inputs) projectId fromTs toTs
        (measuredIn fromTs toTs retained) ↔
      ∀ first rest, measuredIn fromTs toTs retained = first ++ rest →
        FitsSigned 128 (sumTonnes first) := by
  intro retained
  have history : (peer.alone.state inputs).getHistory projectId = retained :=
    (follows_of_run inputs).history projectId
  rw [← history]
  exact aggregatesExactly_of_history _ projectId fromTs toTs

/-- Where no accepted reading is further than 2 ^ 120 units from zero, every aggregate is exact. -/
theorem aggregatesExactly_of_moderate (inputs : List (ScriptedCall Call)) (projectId : String)
    (moderate : ∀ point ∈ readingsOf (peer.alone.log inputs) projectId,
      -2 ^ 120 ≤ point.tonnes ∧ point.tonnes ≤ 2 ^ 120) (fromTs toTs : Nat) :
    AggregatesExactly (peer.alone.state inputs) projectId fromTs toTs
      (measuredIn fromTs toTs
        ((readingsOf (peer.alone.log inputs) projectId).rtake maxHistory)) := by
  rw [← (follows_of_run inputs).history projectId, aggregatesExactly_of_history,
    (follows_of_run inputs).history projectId]
  intro first rest split
  have short : first.length ≤ maxHistory := by
    calc first.length
        ≤ (first ++ rest).length := by simp
      _ ≤ ((readingsOf (peer.alone.log inputs) projectId).rtake maxHistory).length := by
          rw [← split]
          exact List.length_filter_le _ _
      _ ≤ maxHistory := by
          unfold List.rtake
          rw [List.length_drop]
          omega
  have each : ∀ point ∈ first, -2 ^ 120 ≤ point.tonnes ∧ point.tonnes ≤ 2 ^ 120 := by
    intro point member
    have selected : point ∈ first ++ rest := List.mem_append_left rest member
    rw [← split] at selected
    exact moderate point (Recent.mem_of_mem_rtake (List.mem_filter.mp selected).1)
  have bounds := sum_bounds each
  unfold maxHistory at short
  unfold FitsSigned
  omega

namespace Sample

/-- The oracle submits the same reading twice. -/
def large : List (ScriptedCall Call) :=
  setup ++ [update (2 ^ 126) 1735689600 0, update (2 ^ 126) 1735689600 1]

end Sample

set_option maxRecDepth 100000 in
/-- Two readings of 2 ^ 126 units cannot be added up. -/
theorem large_traps :
    ¬ AggregatesExactly (peer.alone.state Sample.large) "project-1" 0 1735689600
      (measuredIn 0 1735689600
        ((readingsOf (peer.alone.log Sample.large) "project-1").rtake maxHistory)) := by
  rintro ⟨average, returned, -⟩
  have trapped : getMrvAggregate (peer.alone.state Sample.large) "project-1" 0 1735689600 =
      .error .trap := rfl
  rw [trapped] at returned
  cases returned

end CarbonChain.MrvOracle
