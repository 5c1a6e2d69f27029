/-
# EffortController.VelocityFilter -- a smoothing filter with rounding in its loop

`updateJointStates` reads every joint's velocity through an exponential filter and rounds
the result to four decimals before it is fed back.  Where the measured velocity does not
change, one update takes three tenths off the filter's error, up to half of the last decimal
(`abs_filtered_sub_le`).  So the filter ends within `deadBand` of the velocity, and a filter
that has stopped is inside it (`near_of_filtered`).

The arithmetic is exact here.  How `updateJointStates` reaches the interfaces is modelled
with the handles, in `EffortControllerBase`.
-/
import Mathlib
import FrankaRos.Theory.Contraction

namespace FrankaRos.EffortController

open FrankaRos.Theory

set_option autoImplicit false

/-! ## The filter -/

section Filter

variable {R : Type} [Field R] [LinearOrder R] [FloorRing R]

/-- `std::round`: to the nearest integer, and halves away from zero. -/
def stdRound (x : R) : Int := if 0 ≤ x then round x else -round (-x)

/-- `m_dotq_alpha`. -/
def dotqAlpha : R := 0.3

structure JointStates (R : Type) (n : Nat) where
  jointPositions : Fin n → R
  jointVelocities : Fin n → R
  oldJointVelocities : Fin n → R

/-- The value of one joint's filter. -/
def filtered (velocity old : R) : R :=
  stdRound ((dotqAlpha * velocity + (1 - dotqAlpha) * old) * (10000 : Nat)) / (10000 : Nat)

/-- One round of the loop, with the values that the state interfaces hold. -/
def updateJoint {n : Nat} (positions velocities : Fin n → R) (s : JointStates R n) (i : Fin n) :
    JointStates R n :=
  let velocity := filtered (velocities i) (s.oldJointVelocities i)
  { jointPositions := Function.update s.jointPositions i (positions i)
    jointVelocities := Function.update s.jointVelocities i velocity
    oldJointVelocities := Function.update s.oldJointVelocities i velocity }

def updateJointStates {n : Nat} (positions velocities : Fin n → R) (s : JointStates R n) :
    JointStates R n :=
  (List.finRange n).foldl (updateJoint positions velocities) s

/-- The state after a number of updates; in the `k`-th the interfaces hold `measured k`. -/
def cycles {n : Nat} (measured : Nat → (Fin n → R) × (Fin n → R)) (s : JointStates R n) :
    Nat → JointStates R n
  | 0 => s
  | k + 1 => updateJointStates (measured k).1 (measured k).2 (cycles measured s k)

/-! ## One update -/

/-- The loop gives every joint of `l` its own values, and keeps the others. -/
theorem updateJoint_loop {n : Nat} {positions velocities : Fin n → R} {l : List (Fin n)}
    (differ : l.Nodup) (s : JointStates R n) :
    l.foldl (updateJoint positions velocities) s =
      { jointPositions := fun i => if i ∈ l then positions i else s.jointPositions i
        jointVelocities := fun i =>
          if i ∈ l then filtered (velocities i) (s.oldJointVelocities i) else s.jointVelocities i
        oldJointVelocities := fun i =>
          if i ∈ l then filtered (velocities i) (s.oldJointVelocities i)
          else s.oldJointVelocities i } := by
  induction l generalizing s with
  | nil => simp
  | cons i l ih =>
      obtain ⟨fresh, differ⟩ := List.nodup_cons.1 differ
      rw [List.foldl_cons, ih differ]
      simp only [updateJoint, JointStates.mk.injEq]
      refine ⟨?_, ?_, ?_⟩
      all_goals
        funext j
        by_cases same : j = i
        · subst same
          simp [fresh]
        · simp [same]

theorem updateJointStates_eq {n : Nat} (positions velocities : Fin n → R) (s : JointStates R n) :
    updateJointStates positions velocities s =
      { jointPositions := positions
        jointVelocities := fun i => filtered (velocities i) (s.oldJointVelocities i)
        oldJointVelocities := fun i => filtered (velocities i) (s.oldJointVelocities i) } := by
  rw [updateJointStates, updateJoint_loop (List.nodup_finRange n)]
  simp

/-- What is published is what is fed back. -/
theorem cycles_fed_back {n : Nat} (measured : Nat → (Fin n → R) × (Fin n → R))
    (s : JointStates R n) (k : Nat) :
    (cycles measured s (k + 1)).jointVelocities =
      (cycles measured s (k + 1)).oldJointVelocities := by
  rw [cycles, updateJointStates_eq]

end Filter

section Bounds

variable {R : Type} [Field R] [LinearOrder R] [IsStrictOrderedRing R] [FloorRing R]

/-! ## The error of an update -/

theorem abs_stdRound_sub_le (x : R) : |(stdRound x : R) - x| ≤ 1 / 2 := by
  unfold stdRound
  split
  · rw [abs_sub_comm]
    exact abs_sub_round x
  · have near := abs_sub_round (-x)
    push_cast
    rwa [show -(round (-x) : R) - x = -x - round (-x) by ring]

/-- The filter's error: three tenths of it are taken off, and the rounding adds at most half
of the last decimal. -/
theorem abs_filtered_sub_le (velocity old : R) :
    |filtered velocity old - velocity| ≤ 7 / 10 * |old - velocity| + 1 / 2 / 10000 := by
  generalize exact : (dotqAlpha * velocity + (1 - dotqAlpha) * old) * (10000 : Nat) = x
  have rounded := abs_stdRound_sub_le x
  have split : filtered velocity old - velocity =
      (stdRound x - x) / 10000 + 7 / 10 * (old - velocity) := by
    rw [filtered, exact, ← exact, dotqAlpha]
    push_cast
    ring
  have decimals : |((stdRound x : R) - x) / 10000| ≤ 1 / 2 / 10000 := by
    rw [abs_div, abs_of_pos (show (0 : R) < 10000 by norm_num)]
    exact div_le_div_of_nonneg_right rounded (by norm_num)
  have scaled : |7 / 10 * (old - velocity)| = 7 / 10 * |old - velocity| := by
    rw [abs_mul, abs_of_pos (show (0 : R) < 7 / 10 by norm_num)]
  rw [split]
  calc |((stdRound x : R) - x) / 10000 + 7 / 10 * (old - velocity)|
      ≤ |((stdRound x : R) - x) / 10000| + |7 / 10 * (old - velocity)| := abs_add_le _ _
    _ ≤ 7 / 10 * |old - velocity| + 1 / 2 / 10000 := by linarith

omit [FloorRing R] in
theorem deadBand_eq : deadBand (7 / 10) (1 / 2 / 10000) = (5 / 3 / 10000 : R) := by
  norm_num [deadBand]

/-! ## Where the filter stays -/

/-- A filter that an update does not move is inside the band. -/
theorem near_of_filtered {velocity old : R} (kept : filtered velocity old = old) :
    |old - velocity| ≤ 5 / 3 / 10000 := by
  have step := abs_filtered_sub_le velocity old
  rw [kept] at step
  rw [← deadBand_eq]
  exact le_deadBand (by norm_num) step

/-! ## A velocity that does not change -/

section Constant

variable {n : Nat} (positions : Nat → Fin n → R) (velocities : Fin n → R) (s : JointStates R n)

theorem cycles_shrinks (i : Fin n) :
    Shrinks (7 / 10) (1 / 2 / 10000) fun k =>
      |(cycles (fun k => (positions k, velocities)) s k).oldJointVelocities i - velocities i| := by
  refine ⟨by norm_num, by norm_num, fun k => ?_⟩
  rw [cycles, updateJointStates_eq]
  exact abs_filtered_sub_le _ _

end Constant

end Bounds

/-- **The filter converges to the band.**  One update shrinks the error of every joint; over
a run it never exceeds the larger of the band and the first error, and ends up as near to
the band as is asked; and a filter that has stopped is inside. -/
theorem velocityFilter_converges {n : Nat} (positions : Nat → Fin n → ℝ) (velocities : Fin n → ℝ)
    (s : JointStates ℝ n) (i : Fin n) :
    (∀ measured, |(updateJointStates measured velocities s).jointVelocities i - velocities i| ≤
        7 / 10 * |s.oldJointVelocities i - velocities i| + 1 / 2 / 10000) ∧
      (∀ k, |(cycles (fun k => (positions k, velocities)) s (k + 1)).jointVelocities i -
          velocities i| ≤ max |s.oldJointVelocities i - velocities i| (5 / 3 / 10000)) ∧
      (∃ N, ∀ k ≥ N, |(cycles (fun k => (positions k, velocities)) s k).jointVelocities i -
          velocities i| ≤ 5 / 3 / 10000 + 1 / 1000000) ∧
      ∀ measured, (updateJointStates measured velocities s).jointVelocities i =
          s.oldJointVelocities i → |s.oldJointVelocities i - velocities i| ≤ 5 / 3 / 10000 := by
  have shrinks := cycles_shrinks positions velocities s i
  refine ⟨fun measured => ?_, fun k => ?_, ?_, fun measured stopped => ?_⟩
  · rw [updateJointStates_eq]
    exact abs_filtered_sub_le _ _
  · rw [cycles_fed_back, ← deadBand_eq]
    exact shrinks.le_max (k + 1)
  · obtain ⟨N, within⟩ := shrinks.eventually_within (ε := 1 / 1000000) (by norm_num)
    refine ⟨N + 1, fun k late => ?_⟩
    obtain ⟨j, rfl⟩ : ∃ j, k = j + 1 := ⟨k - 1, by omega⟩
    rw [cycles_fed_back, ← deadBand_eq]
    exact within (j + 1) (by omega)
  · rw [updateJointStates_eq] at stopped
    exact near_of_filtered stopped

end FrankaRos.EffortController
