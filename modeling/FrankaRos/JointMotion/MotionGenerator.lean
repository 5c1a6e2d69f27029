/-
# JointMotion.MotionGenerator -- a joint motion that all joints finish together

The constructor computes the parameters of a profile for every joint that moves by more
than a threshold (`calculateSynchronizedValues`); a query evaluates one of its pieces for
every joint that does not move by less (`calculateDesiredValues`).  The members have no
initialiser, so a joint has a profile only once it has been assigned; reading one that has
not been is `none`.

The arithmetic is a parameter: `Floating` adds to the operations of a number type those of
`<cmath>`.  The assertions on the speed factor are left to the caller.
-/
import FrankaRos.Theory.Double
import Mathlib.Data.Rat.Sqrt

namespace FrankaRos.JointMotion

open FrankaRos.Theory

set_option autoImplicit false

set_option linter.unusedSectionVars false

universe u

/-- A literal, `std::abs`, `std::sqrt`, and `std::pow` with an exponent that is a literal. -/
class Floating (R : Type u) where
  lit : ℚ → R
  abs : R → R
  sqrt : R → R
  pow : R → Nat → R

open Floating

/-- The members `calculateSynchronizedValues` assigns for one joint. -/
structure JointProfile (R : Type u) where
  dqMaxSync : R
  t1Sync : R
  t2Sync : R
  tFSync : R
  q1 : R

structure MotionGenerator (R : Type u) where
  qStart : Fin 7 → R
  deltaQ : Fin 7 → R
  sync : Fin 7 → Option (JointProfile R)
  dqMax : Fin 7 → R
  ddqMaxStart : Fin 7 → R
  ddqMaxGoal : Fin 7 → R

section Code

variable {R : Type u} [Add R] [Sub R] [Mul R] [Div R] [LT R] [LE R] [DecidableLT R]
  [DecidableLE R] [Floating R]

/-- `kDeltaQMotionFinished`. -/
def deltaQMotionFinished : R := lit (1 / 1000000)

/-- `cwiseSign().cast<int>()`, as it is multiplied. -/
def sign (x : R) : R := if lit 0 < x then lit 1 else if x < lit 0 then lit (-1) else lit 0

/-- `maxCoeff()`. -/
def maxCoeff (v : Fin 7 → R) : R :=
  (List.finRange 7).foldl (fun largest i => if largest < v i then v i else largest) (v ⟨0, Nat.succ_pos 6⟩)

namespace MotionGenerator

/-- The speed a joint reaches on its own: the largest, or what the distance allows. -/
def dqMaxReach (s : MotionGenerator R) (i : Fin 7) : R :=
  if abs (s.deltaQ i) < lit (3 / 4) * (pow (s.dqMax i) 2 / s.ddqMaxStart i) +
      lit (3 / 4) * (pow (s.dqMax i) 2 / s.ddqMaxGoal i) then
    sqrt (lit (4 / 3) * s.deltaQ i * sign (s.deltaQ i) * (s.ddqMaxStart i * s.ddqMaxGoal i) /
      (s.ddqMaxStart i + s.ddqMaxGoal i))
  else s.dqMax i

/-- The first loop: the time each joint takes on its own. -/
def tF (s : MotionGenerator R) (i : Fin 7) : R :=
  if deltaQMotionFinished < abs (s.deltaQ i) then
    let t1 := lit (3 / 2) * s.dqMaxReach i / s.ddqMaxStart i
    let deltaT2 := lit (3 / 2) * s.dqMaxReach i / s.ddqMaxGoal i
    t1 / lit 2 + deltaT2 / lit 2 + abs (s.deltaQ i) / s.dqMaxReach i
  else lit 0

/-- The second loop: the profile of a joint that finishes after `maxTF`. -/
def syncProfile (s : MotionGenerator R) (maxTF : R) (i : Fin 7) : JointProfile R :=
  let paramA := lit (3 / 2) / lit 2 * (s.ddqMaxGoal i + s.ddqMaxStart i)
  let paramB := lit (-1) * maxTF * s.ddqMaxGoal i * s.ddqMaxStart i
  let paramC := abs (s.deltaQ i) * s.ddqMaxGoal i * s.ddqMaxStart i
  let delta := paramB * paramB - lit 4 * paramA * paramC
  let delta := if delta < lit 0 then lit 0 else delta
  let dqMaxSync := (lit (-1) * paramB - sqrt delta) / (lit 2 * paramA)
  let t1Sync := lit (3 / 2) * dqMaxSync / s.ddqMaxStart i
  let deltaT2Sync := lit (3 / 2) * dqMaxSync / s.ddqMaxGoal i
  let tFSync := t1Sync / lit 2 + deltaT2Sync / lit 2 + abs (s.deltaQ i / dqMaxSync)
  { dqMaxSync, t1Sync, tFSync
    t2Sync := tFSync - deltaT2Sync
    q1 := dqMaxSync * sign (s.deltaQ i) * (lit (1 / 2) * t1Sync) }

def calculateSynchronizedValues (s : MotionGenerator R) : MotionGenerator R :=
  let maxTF := maxCoeff s.tF
  { s with sync := fun i =>
      if deltaQMotionFinished < abs (s.deltaQ i) then some (s.syncProfile maxTF i) else s.sync i }

/-- `dq_max_` before it is scaled. -/
def declaredDqMax (i : Fin 7) : R := if i.val < 4 then lit 2 else lit (5 / 2)

/-- `ddq_max_start_` and `ddq_max_goal_` before they are scaled. -/
def declaredDdqMax : R := lit 5

/-- The constructor. -/
def construct (speedFactor : R) (qStart qGoal : Fin 7 → R) : MotionGenerator R :=
  calculateSynchronizedValues
    { qStart
      deltaQ := fun i => qGoal i - qStart i
      sync := fun _ => none
      dqMax := fun i => declaredDqMax i * speedFactor
      ddqMaxStart := fun _ => declaredDdqMax * speedFactor
      ddqMaxGoal := fun _ => declaredDdqMax * speedFactor }

/-- The pieces of a profile: the displacement at a time, and whether the joint has
finished. -/
def piece (p : JointProfile R) (deltaQ time : R) : R × Bool :=
  let tD := p.t2Sync - p.t1Sync
  let deltaT2Sync := p.tFSync - p.t2Sync
  if time < p.t1Sync then
    (lit (-1) / pow p.t1Sync 3 * p.dqMaxSync * sign deltaQ * (lit (1 / 2) * time - p.t1Sync) *
      pow time 3, false)
  else if p.t1Sync ≤ time ∧ time < p.t2Sync then
    (p.q1 + (time - p.t1Sync) * p.dqMaxSync * sign deltaQ, false)
  else if p.t2Sync ≤ time ∧ time < p.tFSync then
    (deltaQ + lit (1 / 2) *
      (lit 1 / pow deltaT2Sync 3 * (time - p.t1Sync - lit 2 * deltaT2Sync - tD) *
          pow (time - p.t1Sync - tD) 3 +
        (lit 2 * time - lit 2 * p.t1Sync - deltaT2Sync - lit 2 * tD)) *
      p.dqMaxSync * sign deltaQ, false)
  else (deltaQ, true)

/-- A piece of the joint's profile is evaluated. -/
def Evaluates (s : MotionGenerator R) (i : Fin 7) : Prop :=
  ¬ abs (s.deltaQ i) < deltaQMotionFinished

instance (s : MotionGenerator R) (i : Fin 7) : Decidable (s.Evaluates i) :=
  inferInstanceAs (Decidable (¬ _))

/-- One joint of `calculateDesiredValues`. -/
def desired (s : MotionGenerator R) (time : R) (i : Fin 7) : Option (R × Bool) :=
  if s.Evaluates i then (s.sync i).map fun p => piece p (s.deltaQ i) time
  else some (lit 0, true)

/-- The displacements at a time, and whether every joint has finished. -/
def calculateDesiredValues (s : MotionGenerator R) (time : R) : Option ((Fin 7 → R) × Bool) :=
  if defined : ∀ i, (s.desired time i).isSome = true then
    some (fun i => ((s.desired time i).get (defined i)).1,
      decide (∀ i, ((s.desired time i).get (defined i)).2 = true))
  else none

def getDesiredJointPositions (s : MotionGenerator R) (time : R) : Option ((Fin 7 → R) × Bool) :=
  (s.calculateDesiredValues time).map fun (deltaQD, finished) =>
    (fun i => s.qStart i + deltaQD i, finished)

/-! ## Which joints have a profile -/

theorem construct_sync (speedFactor : R) (qStart qGoal : Fin 7 → R) (i : Fin 7) :
    (∃ p, (construct speedFactor qStart qGoal).sync i = some p) ↔
      deltaQMotionFinished < abs (qGoal i - qStart i) := by
  unfold construct calculateSynchronizedValues
  simp only
  split
  · rename_i moves
    exact ⟨fun _ => moves, fun _ => ⟨_, rfl⟩⟩
  · rename_i stays
    exact ⟨nofun, fun moves => absurd moves stays⟩

theorem getDesiredJointPositions_iff (s : MotionGenerator R) (time : R) :
    (∃ r, s.getDesiredJointPositions time = some r) ↔
      ∀ i, s.Evaluates i → ∃ p, s.sync i = some p := by
  have each : ∀ i, (s.desired time i).isSome = true ↔ (s.Evaluates i → ∃ p, s.sync i = some p) := by
    intro i
    unfold desired
    split
    · rename_i evaluates
      simp [evaluates, Option.isSome_iff_exists]
    · rename_i still
      simp [still]
  simp only [← each]
  unfold getDesiredJointPositions calculateDesiredValues
  split
  · rename_i defined
    exact ⟨fun _ => defined, fun _ => ⟨_, rfl⟩⟩
  · rename_i undefined
    exact ⟨nofun, fun defined => absurd defined undefined⟩

/-- A query from the values of its joints. -/
theorem getDesiredJointPositions_eq {s : MotionGenerator R} {time : R} {values : Fin 7 → R × Bool}
    (desired : ∀ i, s.desired time i = some (values i)) :
    s.getDesiredJointPositions time = some (fun i => s.qStart i + (values i).1,
      decide (∀ i, (values i).2 = true)) := by
  have defined : ∀ i, (s.desired time i).isSome = true := fun i => by rw [desired i]; rfl
  rw [getDesiredJointPositions, calculateDesiredValues, dif_pos defined]
  simp only [desired, Option.get_some, Option.map_some]

end MotionGenerator

end Code

/-! ## On doubles -/

/-- A machine arithmetic with square roots and powers, whatever they are. -/
class RootArith (K : Type u) extends MachineArith K where
  sqrt : Double K → Double K
  pow : Double K → Nat → Double K

instance {K : Type u} [RootArith K] : Floating (Double K) where
  lit := Double.lit
  abs := Double.abs
  sqrt := RootArith.sqrt
  pow := RootArith.pow

section Doubles

variable {K : Type u} [RootArith K]

/-- Two numbers that are not the same are in order. -/
theorem lt_or_gt_iff {a b : Double K} :
    a < b ∨ b < a ↔ a.isNaN = false ∧ b.isNaN = false ∧ a ≠ b := by
  cases a <;> cases b <;>
    simp [Double.lt_def, Double.lt, Double.isNaN, lt_or_lt_iff_ne]

namespace MotionGenerator

/-- **Initialised profiles, exactly.**  Every profile that is evaluated has been assigned,
and every query has a value, if and only if the distance of no joint is a NaN or of the
size of the threshold. -/
theorem initialised_iff (speedFactor : Double K) (qStart qGoal : Fin 7 → Double K) :
    ((∀ i, (construct speedFactor qStart qGoal).Evaluates i →
          ∃ p, (construct speedFactor qStart qGoal).sync i = some p) ∧
        ∀ time, ∃ r, (construct speedFactor qStart qGoal).getDesiredJointPositions time = some r) ↔
      ∀ i, (qGoal i - qStart i).isNaN = false ∧
        Double.abs (qGoal i - qStart i) ≠ Double.lit (1 / 1000000) := by
  have assigned : (∀ i, (construct speedFactor qStart qGoal).Evaluates i →
      ∃ p, (construct speedFactor qStart qGoal).sync i = some p) ↔
        ∀ i, (qGoal i - qStart i).isNaN = false ∧
          Double.abs (qGoal i - qStart i) ≠ Double.lit (1 / 1000000) := by
    refine forall_congr' fun i => ?_
    have number : (Double.abs (qGoal i - qStart i)).isNaN = (qGoal i - qStart i).isNaN := by
      cases qGoal i - qStart i <;> rfl
    rw [construct_sync, ← number]
    have order := lt_or_gt_iff (a := Double.abs (qGoal i - qStart i))
      (b := Double.lit (1 / 1000000))
    rw [show (Double.lit (1 / 1000000) : Double K).isNaN = false from rfl] at order
    simp only [true_and] at order
    rw [← order]
    exact (or_iff_not_imp_left).symm
  simp only [getDesiredJointPositions_iff, forall_const, and_self, assigned]

end MotionGenerator

end Doubles

/-- Powers of rationals, and square roots of their squares. -/
instance : RootArith ℚ where
  sqrt
    | .fin x => .fin (Rat.sqrt x)
    | _ => .nan
  pow
    | .fin x, n => .fin (x ^ n)
    | _, _ => .nan

namespace MotionGenerator

/-- The first joint is to move by the threshold. -/
def thresholdMotion : MotionGenerator (Double ℚ) :=
  construct (Double.lit 1) (fun _ => 0) fun i => if i.val = 0 then Double.lit (1 / 1000000) else 0

/-- Its profile is evaluated at every time, and has never been assigned. -/
theorem not_initialised_threshold :
    thresholdMotion.Evaluates 0 ∧ (¬ ∃ p, thresholdMotion.sync 0 = some p) ∧
      ∀ time, thresholdMotion.getDesiredJointPositions time = none := by
  have evaluates : thresholdMotion.Evaluates 0 := by decide +kernel
  have unassigned : ¬ ∃ p, thresholdMotion.sync 0 = some p := by
    rw [thresholdMotion, construct_sync]
    decide +kernel
  refine ⟨evaluates, unassigned, fun time => ?_⟩
  cases read : thresholdMotion.getDesiredJointPositions time with
  | none => rfl
  | some r =>
      exact absurd ((getDesiredJointPositions_iff _ time).1 ⟨r, read⟩ 0 evaluates) unassigned

end MotionGenerator

end FrankaRos.JointMotion
