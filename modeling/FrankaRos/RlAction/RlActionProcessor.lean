/-
# RlAction.RlActionProcessor -- from the action of a policy to a target pose

`process` filters the action, turns its halves into a step and a rotation of the fingertip,
and limits both: the position to a box around a fixed frame, the yaw to what is near the yaw
the fingertip had at the first call.  Roll and pitch of the target are constants.

The arithmetic is exact, in any ordered field; `PI` and the functions of `<cmath>` are
parameters (`Trigonometry`).  `PI` is a literal, which stands for half a turn.  The loops of
`wrapToPi` end because it is positive.
-/
import FrankaRos.Theory.Turn
import Mathlib.Algebra.Quaternion
import Mathlib.LinearAlgebra.Matrix.Notation

namespace FrankaRos.RlAction

open FrankaRos.Theory AddCommGroup

set_option autoImplicit false

universe u

/-- `PI`, and the functions of `<cmath>` the processor calls. -/
class Trigonometry (R : Type u) [Zero R] [LT R] where
  pi : R
  pi_pos : 0 < pi
  sqrt : R → R
  sin : R → R
  cos : R → R
  asin : R → R
  atan2 : R → R → R

open Trigonometry

section Geometry

variable {R : Type u} [Field R] [LinearOrder R] [Trigonometry R]

def clamp (v lo hi : R) : R := max lo (min v hi)

omit [Field R] [Trigonometry R] in
theorem clamp_mem {v lo hi : R} (ordered : lo ≤ hi) : lo ≤ clamp v lo hi ∧ clamp v lo hi ≤ hi :=
  ⟨le_max_left _ _, max_le ordered (min_le_right _ _)⟩

/-! ## Rotations -/

/-- `normalize()` on a quaternion; what has no length is left as it is. -/
def normalizedQuat (q : Quaternion R) : Quaternion R :=
  let z := q.imI ^ 2 + q.imJ ^ 2 + q.imK ^ 2 + q.re ^ 2
  if 0 < z then ⟨q.re / sqrt z, q.imI / sqrt z, q.imJ / sqrt z, q.imK / sqrt z⟩ else q

/-- `squaredNorm()`. -/
def squaredNorm (v : Fin 3 → R) : R := v 0 ^ 2 + v 1 ^ 2 + v 2 ^ 2

/-- `normalized()` on a vector. -/
def normalized (v : Fin 3 → R) : Fin 3 → R :=
  if 0 < squaredNorm v then fun i => v i / sqrt (squaredNorm v) else v

/-- The quaternion of an `AngleAxisd`. -/
def angleAxis (angle : R) (axis : Fin 3 → R) : Quaternion R :=
  let ha := 0.5 * angle
  ⟨cos ha, sin ha * axis 0, sin ha * axis 1, sin ha * axis 2⟩

def quatFromAngleAxis (angle : R) (axisUnit : Fin 3 → R) : Quaternion R :=
  normalizedQuat (angleAxis angle (normalized axisUnit))

def quatFromEulerXYZ (roll pitch yaw : R) : Quaternion R :=
  normalizedQuat
    (angleAxis roll ![1, 0, 0] * angleAxis pitch ![0, 1, 0] * angleAxis yaw ![0, 0, 1])

/-- `toRotationMatrix()`. -/
def toRotationMatrix (q : Quaternion R) : Matrix (Fin 3) (Fin 3) R :=
  let tx := 2.0 * q.imI
  let ty := 2.0 * q.imJ
  let tz := 2.0 * q.imK
  !![1 - (ty * q.imJ + tz * q.imK), ty * q.imI - tz * q.re, tz * q.imI + ty * q.re;
    ty * q.imI + tz * q.re, 1 - (tx * q.imI + tz * q.imK), tz * q.imJ - tx * q.re;
    tz * q.imI - ty * q.re, tz * q.imJ + tx * q.re, 1 - (tx * q.imI + ty * q.imJ)]

/-- Roll, pitch and yaw.  Where the pitch is a right angle, the roll is put into the yaw. -/
def eulerXYZFromQuat (qIn : Quaternion R) : Fin 3 → R :=
  let r := toRotationMatrix (normalizedQuat qIn)
  let pitch := asin (clamp (r 0 2) (-1) 1)
  if 1e-9 < |cos pitch| then ![atan2 (-r 1 2) (r 2 2), pitch, atan2 (-r 0 1) (r 0 0)]
  else ![0, pitch, atan2 (r 1 0) (r 1 1)]

/-- The last of the three angles. -/
def yaw (q : Quaternion R) : R := eulerXYZFromQuat q 2

end Geometry

/-! ## Wrapping -/

section Wrapping

variable {R : Type u} [Field R] [LinearOrder R] [Trigonometry R]

theorem turn_pos [IsStrictOrderedRing R] : (0 : R) < 2 * pi := mul_pos two_pos pi_pos

/-- The first loop of `wrapToPi`. -/
def wrapDown [IsStrictOrderedRing R] [FloorSemiring R] (a : R) : R :=
  if pi < a then wrapDown (a - 2 * pi) else a
termination_by ⌈a / (2 * pi)⌉₊
decreasing_by
  rename_i above
  exact ceil_div_sub_lt turn_pos (pi_pos.trans above)

/-- The second loop of `wrapToPi`. -/
def wrapUp [IsStrictOrderedRing R] [FloorSemiring R] (a : R) : R :=
  if a < -pi then wrapUp (a + 2 * pi) else a
termination_by ⌈-a / (2 * pi)⌉₊
decreasing_by
  rename_i below
  rw [neg_add']
  exact ceil_div_sub_lt turn_pos (pi_pos.trans (lt_neg_of_lt_neg below))

def wrapToPi [IsStrictOrderedRing R] [FloorSemiring R] (a : R) : R := wrapUp (wrapDown a)

variable [IsStrictOrderedRing R] [FloorSemiring R]

/-- What the first loop takes off are full turns, and none too many. -/
theorem wrapDown_spec (a : R) :
    wrapDown a ≡ a [PMOD 2 * pi] ∧ wrapDown a ≤ pi ∧ (wrapDown a = a ∨ -pi < wrapDown a) := by
  fun_induction wrapDown a with
  | case1 a above ih =>
      obtain ⟨congruent, low, high⟩ := ih
      have turn : a - 2 * pi ≡ a [PMOD 2 * pi] := by
        rw [sub_modEq_iff_modEq_add]
        exact (add_modEq_left.2 self_modEq_zero).symm
      refine ⟨congruent.trans turn, low, .inr ?_⟩
      rcases high with same | high
      · rw [same]
        linarith
      · exact high
  | case2 a below => exact ⟨modEq_rfl, not_lt.1 below, .inl rfl⟩

/-- The second loop is the first one, mirrored. -/
theorem wrapUp_eq (a : R) : wrapUp a = -wrapDown (-a) := by
  fun_induction wrapUp a with
  | case1 a below ih =>
      rw [ih, wrapDown.eq_def (-a), if_pos (lt_neg_of_lt_neg below), neg_add']
  | case2 a above =>
      rw [wrapDown, if_neg fun below => above (lt_neg_of_lt_neg below), neg_neg]

theorem wrapToPi_modEq (a : R) : wrapToPi a ≡ a [PMOD 2 * pi] := by
  have down := (wrapDown_spec a).1
  have up := (wrapDown_spec (-wrapDown a)).1
  rw [wrapToPi, wrapUp_eq, ← neg_modEq_neg, neg_neg]
  exact up.trans (neg_modEq_neg.2 down)

/-- Both loops together leave an angle of at most half a turn. -/
theorem abs_wrapToPi_le (a : R) : |wrapToPi a| ≤ pi := by
  obtain ⟨-, high, -⟩ := wrapDown_spec a
  obtain ⟨-, low, high'⟩ := wrapDown_spec (-wrapDown a)
  rw [wrapToPi, wrapUp_eq, abs_neg, abs_le]
  refine ⟨?_, low⟩
  rcases high' with same | high'
  · rw [same]
    exact neg_le_neg high
  · exact high'.le

end Wrapping

/-! ## The processor -/

/-- The inputs, which the main loop writes, then the outputs, then the reference. -/
structure RlActionProcessor (R : Type u) [Field R] where
  policyAction : Fin 6 → R
  prevUsedAction : Fin 6 → R
  emaFactor : R
  fingertipPos : Fin 3 → R
  fingertipQuat : Quaternion R
  fixedPosActionFrame : Fin 3 → R
  posThreshold : Fin 3 → R
  rotThreshold : Fin 3 → R
  posActionBoundsLower : Fin 3 → R
  posActionBoundsUpper : Fin 3 → R
  unidirectionalRot : Bool
  usedAction : Fin 6 → R
  ctrlTargetFingertipMidpointPos : Fin 3 → R
  ctrlTargetFingertipMidpointQuat : Quaternion R
  ctrlTargetGripperDofPos : R
  referenceYawInitialized : Bool
  referenceYaw : R

namespace RlActionProcessor

section Process

variable {R : Type u} [Field R] [LinearOrder R] [Trigonometry R]

/-- The initialisers of the members. -/
def initial : RlActionProcessor R where
  policyAction := 0
  prevUsedAction := 0
  emaFactor := 0.2
  fingertipPos := 0
  fingertipQuat := 1
  fixedPosActionFrame := 0
  posThreshold := ![0.02, 0.02, 0.02]
  rotThreshold := ![0.097, 0.097, 0.097]
  posActionBoundsLower := ![-0.0075, -0.0075, -0.005]
  posActionBoundsUpper := ![0.0075, 0.0075, 0.05]
  unidirectionalRot := false
  usedAction := 0
  ctrlTargetFingertipMidpointPos := 0
  ctrlTargetFingertipMidpointQuat := 1
  ctrlTargetGripperDofPos := 0
  referenceYawInitialized := false
  referenceYaw := 0

/-- The yaw at the first call is the reference. -/
def captureReference (s : RlActionProcessor R) : RlActionProcessor R :=
  if s.referenceYawInitialized then s
  else
    { s with
      referenceYaw := yaw s.fingertipQuat
      referenceYawInitialized := true }

theorem captureReference_eq (s : RlActionProcessor R) :
    s.captureReference =
      { s with
        referenceYaw := if s.referenceYawInitialized then s.referenceYaw
          else yaw s.fingertipQuat
        referenceYawInitialized := true } := by
  unfold captureReference
  split
  · rename_i captured
    rw [← captured]
  · rfl

/-- The exponential moving average of the actions. -/
def filter (s : RlActionProcessor R) : RlActionProcessor R :=
  { s with
    usedAction := fun k => s.emaFactor * s.policyAction k + (1 - s.emaFactor) * s.prevUsedAction k }

/-- The position the first half of the action asks for, clamped to the box. -/
def targetPos (s : RlActionProcessor R) (i : Fin 3) : R :=
  let posAction := s.usedAction (i.castAdd 3) * s.posThreshold i
  let deltaPos := s.fingertipPos i + posAction - s.fixedPosActionFrame i
  s.fixedPosActionFrame i + clamp deltaPos (s.posActionBoundsLower i) (s.posActionBoundsUpper i)

/-- The second half of the action, scaled. -/
def rotActions (s : RlActionProcessor R) (i : Fin 3) : R :=
  let rotAction := s.usedAction (i.natAdd 3)
  (if s.unidirectionalRot ∧ i = 2 then -(rotAction + 1) * 0.5 else rotAction) * s.rotThreshold i

/-- The rotation the second half of the action asks for. -/
def rotActionsQuat (s : RlActionProcessor R) : Quaternion R :=
  let angle := sqrt (squaredNorm s.rotActions)
  if 1e-6 < angle then quatFromAngleAxis angle fun i => s.rotActions i / angle else 1

/-- The yaw the action asks for. -/
def rawTargetYaw (s : RlActionProcessor R) : R :=
  yaw (normalizedQuat (s.rotActionsQuat * s.fingertipQuat))

def yawLimit : R := 75 * pi / 180

variable [IsStrictOrderedRing R] [FloorSemiring R]

/-- The yaw of the target: what the action asks for, limited to what is near the reference. -/
def targetYaw (s : RlActionProcessor R) : R :=
  let deltaYaw := wrapToPi (s.rawTargetYaw - s.referenceYaw)
  wrapToPi (s.referenceYaw + clamp deltaYaw (-yawLimit) yawLimit)

/-- The outputs, from the filtered action. -/
def command (s : RlActionProcessor R) : RlActionProcessor R :=
  { s with
    ctrlTargetFingertipMidpointPos := s.targetPos
    ctrlTargetFingertipMidpointQuat := quatFromEulerXYZ 3.14159 0 s.targetYaw
    ctrlTargetGripperDofPos := 0 }

def process (s : RlActionProcessor R) : RlActionProcessor R := s.captureReference.filter.command

end Process

end RlActionProcessor

end FrankaRos.RlAction
