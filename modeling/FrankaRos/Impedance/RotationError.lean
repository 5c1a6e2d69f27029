/-
# Impedance.RotationError -- two ways to a rotation vector

The operational-space controller takes the angle of a rotation from the arc tangent of its
quaternion, the task controller from the arc cosine.  Both first turn the quaternion into
the half space of non-negative real parts, which settles its sign before anything else is
computed: a quaternion and its negative give one vector (`axisAngleFromQuatLikePython_neg`),
unless the real part is zero, where both stay as they are.

The shortest-path option of `computeTorque` negates the desired quaternion in front of
this, and only when the real part of the error is negative.  It changes nothing.
-/
import FrankaRos.Impedance.OscTorque
import FrankaRos.RlAction.ActionBounds

namespace FrankaRos.Impedance

open FrankaRos.Theory
open FrankaRos.RlAction (Trigonometry normalizedQuat squaredNorm clamp)
open FrankaRos.RlAction.Trigonometry

set_option autoImplicit false

set_option linter.unusedSectionVars false

/-- `quatToAxisAngle` of the task controller; `std::acos` is an argument. -/
def quatToAxisAngle {R : Type} [Field R] [LinearOrder R] [Trigonometry R] (acos : R → R)
    (qIn : Quaternion R) : Fin 3 → R :=
  let q := if qIn.re < 0 then -qIn else qIn
  let w := clamp q.re (-1) 1
  let angle := 2.0 * acos w
  let s := sqrt (max 0 (1 - w * w))
  let v := ![q.imI, q.imJ, q.imK]
  let axis := if s < 1e-8 then 0 else fun i => v i / s
  fun i => axis i * angle

/-! ## The sign of a quaternion -/

/-- A quaternion, turned into the half space of non-negative real parts. -/
def halfSpace {R : Type} [Field R] [LinearOrder R] (q : Quaternion R) : Quaternion R :=
  if q.re < 0 then -q else q

section Sign

variable {R : Type} [Field R] [LinearOrder R] [IsStrictOrderedRing R]

/-- It has lost its sign there. -/
theorem halfSpace_neg {q : Quaternion R} (rotated : q.re ≠ 0) : halfSpace (-q) = halfSpace q := by
  unfold halfSpace
  rw [Quaternion.re_neg, neg_neg]
  rcases rotated.lt_or_gt with negative | positive
  · rw [if_neg (by linarith), if_pos negative]
  · rw [if_pos (by linarith), if_neg (by linarith)]

theorem halfSpace_re_nonneg (q : Quaternion R) : 0 ≤ (halfSpace q).re := by
  unfold halfSpace
  split
  · rename_i negative
    rw [Quaternion.re_neg]
    linarith
  · rename_i nonneg
    exact not_lt.1 nonneg

variable [Trigonometry R]

/-- The squared length `normalizedQuat` divides by. -/
def squaredLength (q : Quaternion R) : R := q.imI ^ 2 + q.imJ ^ 2 + q.imK ^ 2 + q.re ^ 2

theorem squaredLength_neg (q : Quaternion R) : squaredLength (-q) = squaredLength q := by
  simp [squaredLength]

theorem normalizedQuat_of_pos {q : Quaternion R} (length : 0 < squaredLength q) :
    normalizedQuat q = ⟨q.re / sqrt (squaredLength q), q.imI / sqrt (squaredLength q),
      q.imJ / sqrt (squaredLength q), q.imK / sqrt (squaredLength q)⟩ :=
  if_pos length

theorem normalizedQuat_of_not_pos {q : Quaternion R} (none : ¬ 0 < squaredLength q) :
    normalizedQuat q = q :=
  if_neg none

theorem normalizedQuat_neg (q : Quaternion R) : normalizedQuat (-q) = -normalizedQuat q := by
  by_cases length : 0 < squaredLength q
  · rw [normalizedQuat_of_pos length, normalizedQuat_of_pos (by rwa [squaredLength_neg]),
      squaredLength_neg]
    exact QuaternionAlgebra.ext (neg_div _ _) (neg_div _ _) (neg_div _ _) (neg_div _ _)
  · rw [normalizedQuat_of_not_pos length, normalizedQuat_of_not_pos (by rwa [squaredLength_neg])]

/-- Normalising keeps the sign of the real part. -/
theorem normalizedQuat_re_ne_zero {q : Quaternion R} (root : ∀ z : R, 0 < z → 0 < sqrt z)
    (rotated : q.re ≠ 0) : (normalizedQuat q).re ≠ 0 := by
  by_cases length : 0 < squaredLength q
  · rw [normalizedQuat_of_pos length]
    exact div_ne_zero rotated (root _ length).ne'
  · rwa [normalizedQuat_of_not_pos length]

theorem axisAngleFromQuatLikePython_neg {q : Quaternion R} (rotated : (normalizedQuat q).re ≠ 0) :
    axisAngleFromQuatLikePython (-q) = axisAngleFromQuatLikePython q := by
  have same : halfSpace (normalizedQuat (-q)) = halfSpace (normalizedQuat q) := by
    rw [normalizedQuat_neg, halfSpace_neg rotated]
  unfold halfSpace at same
  simp only [axisAngleFromQuatLikePython, same]

theorem quatToAxisAngle_neg (acos : R → R) {q : Quaternion R} (rotated : q.re ≠ 0) :
    quatToAxisAngle acos (-q) = quatToAxisAngle acos q := by
  have same := halfSpace_neg rotated
  unfold halfSpace at same
  simp only [quatToAxisAngle, same]

/-- The shortest path is already taken where the real part of the error is not negative. -/
theorem dot_eq_re (p q : Quaternion R) : dot p q = (p * star q).re := by
  simp only [dot, Quaternion.re_mul, Quaternion.re_star, Quaternion.imI_star, Quaternion.imJ_star,
    Quaternion.imK_star]
  ring

/-- The option does not change the error of a pose. -/
theorem deltaPose_shortestPath (root : ∀ z : R, 0 < z → 0 < sqrt z) (cfg : OscConfig R)
    (shortest : Bool) (eeDes oMe : Pose R) :
    deltaPose { cfg with useQuatShortestPath := shortest } eeDes oMe =
      deltaPose cfg eeDes oMe := by
  have plain (option : Bool) :
      axisAngleFromQuatLikePython
          ((if option then flipQuatIfNeededShortestPath eeDes.rotation oMe.rotation
            else eeDes.rotation) * star oMe.rotation) =
        axisAngleFromQuatLikePython (eeDes.rotation * star oMe.rotation) := by
    cases option with
    | false => rfl
    | true =>
        rw [if_pos rfl, flipQuatIfNeededShortestPath]
        split
        · rfl
        · rename_i away
          -- the desired quaternion is negated, and the real part of the error is not zero
          rw [dot_eq_re] at away
          rw [neg_mul]
          exact axisAngleFromQuatLikePython_neg
            (normalizedQuat_re_ne_zero root (not_le.1 away).ne)
  simp only [deltaPose, plain]

end Sign

/-! ## Unit quaternions -/

section Unit

variable {q : Quaternion ℝ}

/-- The vector part. -/
def vectorPart (q : Quaternion ℝ) : Fin 3 → ℝ := ![q.imI, q.imJ, q.imK]

def IsUnitQuat (q : Quaternion ℝ) : Prop := squaredNorm (vectorPart q) + q.re ^ 2 = 1

theorem squaredNorm_vectorPart (q : Quaternion ℝ) :
    squaredNorm (vectorPart q) = q.imI ^ 2 + q.imJ ^ 2 + q.imK ^ 2 := rfl

theorem normalizedQuat_unit (unit : IsUnitQuat q) : normalizedQuat q = q := by
  have length : squaredLength q = 1 := unit
  have root : sqrt (1 : ℝ) = 1 := Real.sqrt_one
  rw [normalizedQuat_of_pos (length ▸ one_pos), length, root]
  ext <;> exact div_one _

theorem halfSpace_unit (unit : IsUnitQuat q) : IsUnitQuat (halfSpace q) := by
  unfold halfSpace IsUnitQuat at *
  split
  · simpa [squaredNorm_vectorPart] using unit
  · exact unit

theorem halfSpace_vectorPart (q : Quaternion ℝ) :
    squaredNorm (vectorPart (halfSpace q)) = squaredNorm (vectorPart q) := by
  unfold halfSpace
  split
  · simp [squaredNorm_vectorPart]
  · rfl

/-- The angle whose cosine and sine are the real part and the length of the vector part. -/
theorem atan2_eq_arccos {w s : ℝ} (nonneg : 0 ≤ w) (side : 0 ≤ s) (unit : s ^ 2 + w ^ 2 = 1) :
    atan2 s w = Real.arccos w := by
  have length : ‖(⟨w, s⟩ : ℂ)‖ = 1 := by
    rw [Complex.norm_def, Complex.normSq_mk]
    rw [show w * w + s * s = 1 by linarith, Real.sqrt_one]
  have root : s = √(1 - w ^ 2) := by
    rw [← unit, add_sub_cancel_right, Real.sqrt_sq side]
  show Complex.arg ⟨w, s⟩ = Real.arccos w
  rw [Complex.arg_of_re_nonneg nonneg, length, div_one, Real.arccos_eq_arcsin nonneg, ← root]

theorem axisAngleFromQuatLikePython_eq (q : Quaternion ℝ) :
    axisAngleFromQuatLikePython q =
      let p := halfSpace (normalizedQuat q)
      if √(squaredNorm (vectorPart p)) < 1e-8 then (2.0 : ℝ) • vectorPart p
      else fun i => vectorPart p i / √(squaredNorm (vectorPart p)) *
        (2.0 * atan2 √(squaredNorm (vectorPart p)) (clamp p.re (-1) 1)) := rfl

theorem quatToAxisAngle_eq (q : Quaternion ℝ) :
    quatToAxisAngle Real.arccos q =
      let p := halfSpace q
      let w := clamp p.re (-1) 1
      fun i => (if √(max 0 (1 - w * w)) < 1e-8 then 0
        else fun i => vectorPart p i / √(max 0 (1 - w * w))) i * (2.0 * Real.arccos w) := rfl

/-- Behind the half space the two agree on a unit quaternion: on its axis, and on twice the
angle of its vector part. -/
theorem rotationVector_unit {p : Quaternion ℝ} (unit : IsUnitQuat p) (nonneg : 0 ≤ p.re) :
    clamp p.re (-1) 1 = p.re ∧
      √(max 0 (1 - p.re * p.re)) = √(squaredNorm (vectorPart p)) ∧
      atan2 √(squaredNorm (vectorPart p)) p.re = Real.arccos p.re := by
  have split : squaredNorm (vectorPart p) = 1 - p.re * p.re := by
    have total : squaredNorm (vectorPart p) + p.re ^ 2 = 1 := unit
    linear_combination total
  have below : 0 ≤ squaredNorm (vectorPart p) := by
    rw [squaredNorm_vectorPart]
    positivity
  refine ⟨?_, ?_, atan2_eq_arccos nonneg (Real.sqrt_nonneg _) ?_⟩
  · have most : p.re ≤ 1 := by nlinarith
    rw [clamp, min_eq_left most, max_eq_right (by linarith)]
  · rw [← split, max_eq_right below]
  · rw [Real.sq_sqrt below]
    exact unit

/-- The rotation vector of a unit quaternion, as both compute it. -/
theorem rotationVectors_eq (unit : IsUnitQuat q)
    (far : (1e-8 : ℝ) ≤ √(squaredNorm (vectorPart q))) :
    axisAngleFromQuatLikePython q = (fun i => vectorPart (halfSpace q) i /
        √(squaredNorm (vectorPart q)) * (2 * Real.arccos (halfSpace q).re)) ∧
      quatToAxisAngle Real.arccos q = axisAngleFromQuatLikePython q := by
  have far' : (1e-8 : ℝ) ≤ √(squaredNorm (vectorPart (halfSpace q))) := by
    rwa [halfSpace_vectorPart]
  obtain ⟨clamped, root, angle⟩ :=
    rotationVector_unit (halfSpace_unit unit) (halfSpace_re_nonneg q)
  have two : (2.0 : ℝ) = 2 := by norm_num
  have python : axisAngleFromQuatLikePython q = fun i => vectorPart (halfSpace q) i /
      √(squaredNorm (vectorPart (halfSpace q))) * (2 * Real.arccos (halfSpace q).re) := by
    rw [axisAngleFromQuatLikePython_eq, normalizedQuat_unit unit]
    simp only [if_neg (not_lt.2 far'), clamped, angle, two]
  have task : quatToAxisAngle Real.arccos q = fun i => vectorPart (halfSpace q) i /
      √(squaredNorm (vectorPart (halfSpace q))) * (2 * Real.arccos (halfSpace q).re) := by
    rw [quatToAxisAngle_eq]
    simp only [clamped, root, if_neg (not_lt.2 far'), two]
  rw [halfSpace_vectorPart] at python task
  exact ⟨python, task.trans python.symm⟩

/-- A vector in the direction of `v` has the length of its factor. -/
theorem length_scaled {v : Fin 3 → ℝ} (some : 0 < √(squaredNorm v)) {c : ℝ} (nonneg : 0 ≤ c) :
    √(squaredNorm fun i => v i / √(squaredNorm v) * c) = c := by
  have below : 0 < squaredNorm v := Real.sqrt_pos.1 some
  have scaled : squaredNorm (fun i => v i / √(squaredNorm v) * c) =
      squaredNorm v / √(squaredNorm v) ^ 2 * c ^ 2 := by
    simp only [squaredNorm]
    ring
  rw [scaled, Real.sq_sqrt below.le, div_self below.ne', one_mul, Real.sqrt_sq nonneg]

theorem length_rotationVector (unit : IsUnitQuat q)
    (far : (1e-8 : ℝ) ≤ √(squaredNorm (vectorPart q))) :
    √(squaredNorm (axisAngleFromQuatLikePython q)) = 2 * Real.arccos (halfSpace q).re := by
  have some : 0 < √(squaredNorm (vectorPart (halfSpace q))) := by
    rw [halfSpace_vectorPart]
    exact lt_of_lt_of_le (by norm_num) far
  have angle : 0 ≤ 2 * Real.arccos (halfSpace q).re := mul_nonneg zero_le_two (Real.arccos_nonneg _)
  rw [(rotationVectors_eq unit far).1, ← halfSpace_vectorPart q]
  exact length_scaled some angle

/-- **Both compute one rotation vector**: of at most half a turn, the same for a quaternion
and its negative, and so, whatever the relative rotation is, the same error with and without
the shortest-path option. -/
theorem rotationErrors_agree (q : Quaternion ℝ) (unit : IsUnitQuat q)
    (far : (1e-8 : ℝ) ≤ √(squaredNorm (vectorPart q))) :
    quatToAxisAngle Real.arccos q = axisAngleFromQuatLikePython q ∧
      (0 ≤ √(squaredNorm (axisAngleFromQuatLikePython q)) ∧
        √(squaredNorm (axisAngleFromQuatLikePython q)) ≤ Real.pi) ∧
      (q.re = 0 ∨ axisAngleFromQuatLikePython (-q) = axisAngleFromQuatLikePython q ∧
        quatToAxisAngle Real.arccos (-q) = quatToAxisAngle Real.arccos q) ∧
      ∀ (cfg : OscConfig ℝ) (shortest : Bool) (eeDes oMe : Pose ℝ),
        deltaPose { cfg with useQuatShortestPath := shortest } eeDes oMe =
          deltaPose cfg eeDes oMe := by
  have quarter : Real.arccos (halfSpace q).re ≤ Real.pi / 2 :=
    Real.arccos_le_pi_div_two.2 (halfSpace_re_nonneg q)
  refine ⟨(rotationVectors_eq unit far).2, ⟨Real.sqrt_nonneg _, ?_⟩, ?_,
    deltaPose_shortestPath fun _ => Real.sqrt_pos.2⟩
  · rw [length_rotationVector unit far]
    linarith
  · refine or_iff_not_imp_left.2 fun rotated => ⟨axisAngleFromQuatLikePython_neg ?_,
      quatToAxisAngle_neg _ rotated⟩
    rwa [normalizedQuat_unit unit]

/-- A rotation about the first axis. -/
theorem rotationErrors_agree_first_axis :
    IsUnitQuat ⟨0.6, 0.8, 0, 0⟩ ∧
      quatToAxisAngle Real.arccos ⟨0.6, 0.8, 0, 0⟩ =
        axisAngleFromQuatLikePython ⟨0.6, 0.8, 0, 0⟩ := by
  have unit : IsUnitQuat ⟨0.6, 0.8, 0, 0⟩ := by
    show (0.8 : ℝ) ^ 2 + 0 ^ 2 + 0 ^ 2 + 0.6 ^ 2 = 1
    norm_num
  have far : (1e-8 : ℝ) ≤ √(squaredNorm (vectorPart ⟨0.6, 0.8, 0, 0⟩)) := by
    refine Real.le_sqrt_of_sq_le ?_
    show (1e-8 : ℝ) ^ 2 ≤ 0.8 ^ 2 + 0 ^ 2 + 0 ^ 2
    norm_num
  exact ⟨unit, (rotationErrors_agree _ unit far).1⟩

end Unit

end FrankaRos.Impedance
