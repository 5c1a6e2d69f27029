/-
# Controller.CylinderClearance -- how far a probe point is from the obstacle

`computeCylinderClearance` takes the obstacle for an upright cylinder of finite height and
returns the signed distance of a point to it, less the radius of the link, with `1e-8` added
under both of its roots.  The two cost `1e-4` each and never make the distance smaller
(`computeCylinderClearance_accurate`): the first moves the radial excess, in which the
distance is increasing and Lipschitz, the second is `smoothedDistance`.

`exactDistance` is the outside/inside form; outside, it is the distance to the nearest point
of the cylinder (`exactDistance_isLeast`).  `updateClearObs_accurate` carries the bound to
the observations of the policy.
-/
import FrankaRos.RlAction.ActionBounds
import FrankaRos.Theory.SignedDistance
import Mathlib

namespace FrankaRos.Controller

open FrankaRos.Theory
open FrankaRos.RlAction (Trigonometry clamp normalizedQuat toRotationMatrix)

set_option autoImplicit false

/-- The members `updateClearObsFromPinocchio` reads about the obstacle. -/
structure ObstacleModel (R : Type) where
  obstaclePosW : Fin 3 → R
  obstacleRadius : R
  obstacleHeight : R
  linkRadius : R

/-- What `FramePoses4Rt` returns of the four probe frames; of the last one the rotation is
read too, as a quaternion. -/
structure FramePoses (R : Type) [Field R] where
  translation : Fin 4 → Fin 3 → R
  handQuat : Quaternion R

/-! ## The code -/

namespace Vector3d

variable {R : Type} (v : Fin 3 → R)

/-- Eigen's `x()`, `y()` and `z()`. -/
def x : R := Matrix.vecHead v
def y : R := Matrix.vecHead (Matrix.vecTail v)
def z : R := Matrix.vecHead (Matrix.vecTail (Matrix.vecTail v))

@[simp] theorem x_vec (a b c : R) : x ![a, b, c] = a := rfl
@[simp] theorem y_vec (a b c : R) : y ![a, b, c] = b := rfl
@[simp] theorem z_vec (a b c : R) : z ![a, b, c] = c := rfl

end Vector3d

open Vector3d (x y z x_vec y_vec z_vec)

section Code

variable {R : Type} [Field R] [LinearOrder R] [Trigonometry R]

open FrankaRos.RlAction.Trigonometry

def computeCylinderClearance (p obstaclePos : Fin 3 → R)
    (obstacleRadius obstacleHeight linkRadius : R) : R :=
  let cylRadius := obstacleRadius
  let cylHalfH := 0.5 * obstacleHeight
  let dx := x p - x obstaclePos
  let dy := y p - y obstaclePos
  let radialDist := sqrt (dx * dx + dy * dy + 1e-8)
  let radialOut := radialDist - cylRadius
  let dz := |z p - z obstaclePos| - cylHalfH
  let outsideRadial := max radialOut 0
  let outsideVertical := max dz 0
  let outsideDist := sqrt (outsideRadial * outsideRadial + outsideVertical * outsideVertical + 1e-8)
  let insideDist := min (max radialOut dz) 0
  let sdfCylinder := outsideDist + insideDist
  sdfCylinder - linkRadius

def lerp (a b : Fin 3 → R) (t : R) : Fin 3 → R := fun i => (1 - t) * a i + t * b i

def handOffsetsLocal : List (Fin 3 → R) :=
  let sx := 0.04
  let sy := 0.04
  let sz := 0.03
  let tip := 0.22
  [![sx, 0, 0], ![-sx, 0, 0], ![0, sy, 0], ![0, -sy, 0], ![0, 0, sz], ![0, 0, -sz], ![0, 0, tip]]

/-- `probe_points_w_`. -/
def probePointsW (poses : FramePoses R) (fingertipPos : Fin 3 → R) : List (Fin 3 → R) :=
  let p2 := poses.translation 0
  let p4 := poses.translation 1
  let p6 := poses.translation 2
  let p7 := poses.translation 3
  let rHand := toRotationMatrix (normalizedQuat poses.handQuat)
  [p2, p4, p6, p7, fingertipPos] ++
    [lerp p2 p4 0.25, lerp p2 p4 0.50, lerp p2 p4 0.75] ++
    [lerp p4 p6 0.25, lerp p4 p6 0.50, lerp p4 p6 0.75] ++
    [lerp p6 p7 0.33, lerp p6 p7 0.66] ++
    handOffsetsLocal.map fun offLocal => p7 + rHand.mulVec offLocal

/-- The body of the last loop. -/
def clearObs (tanh : R → R) (o : ObstacleModel R) (point : Fin 3 → R) : R :=
  let scale := 0.2
  let clearance := computeCylinderClearance point o.obstaclePosW o.obstacleRadius o.obstacleHeight
    o.linkRadius
  clamp (tanh (clearance / scale)) (-5.0) 5.0

/-- `clear_obs_` after `updateClearObsFromPinocchio`.  Every number is finite here, and a
`float` as good as a `double`. -/
def updateClearObsFromPinocchio (tanh : R → R) (o : ObstacleModel R)
    (kinInitialized probeFrameIdsReady : Bool) (framePoses4Rt : Option (FramePoses R))
    (fingertipPos : Fin 3 → R) : List R :=
  if kinInitialized = false ∨ probeFrameIdsReady = false then List.replicate 20 0
  else
    match framePoses4Rt with
    | .none => List.replicate 20 0
    | some poses =>
        let points := probePointsW poses fingertipPos
        if points.length ≠ 20 then List.replicate 20 0
        else points.map (clearObs tanh o)

theorem probePointsW_length (poses : FramePoses R) (fingertipPos : Fin 3 → R) :
    (probePointsW poses fingertipPos).length = 20 := rfl

end Code

/-! ## The exact distance -/

/-- The distance of a point from the axis of the cylinder. -/
noncomputable def axisDistance (p obstaclePos : Fin 3 → ℝ) : ℝ :=
  √((x p - x obstaclePos) ^ 2 + (y p - y obstaclePos) ^ 2)

/-- The signed distance to the cylinder. -/
noncomputable def exactDistance (p obstaclePos : Fin 3 → ℝ) (radius height : ℝ) : ℝ :=
  signedDistance (axisDistance p obstaclePos - radius) (|z p - z obstaclePos| - 0.5 * height)

/-- What a computed clearance is to the exact one: never smaller, and larger by no more than
`band`; so it has the same sign outside of that band. -/
structure Accurate (band exact computed : ℝ) : Prop where
  lower : exact ≤ computed
  upper : computed ≤ exact + band
  positive : 0 < exact → 0 < computed
  negative : exact < -band → computed < 0

theorem accurate_of_mem {band exact computed : ℝ}
    (mem : exact ≤ computed ∧ computed ≤ exact + band) : Accurate band exact computed where
  lower := mem.1
  upper := mem.2
  positive clear := clear.trans_le mem.1
  negative deep := by linarith [mem.2]

theorem computeCylinderClearance_eq (p obstaclePos : Fin 3 → ℝ) (radius height link : ℝ) :
    computeCylinderClearance p obstaclePos radius height link =
      smoothedDistance 1e-4
        (√((x p - x obstaclePos) ^ 2 + (y p - y obstaclePos) ^ 2 + 1e-4 ^ 2) - radius)
        (|z p - z obstaclePos| - 0.5 * height) - link := by
  have small : (1e-8 : ℝ) = 1e-4 ^ 2 := by norm_num
  simp only [computeCylinderClearance, smoothedDistance, small, ← pow_two]
  rfl

/-- Each root moves the clearance by `1e-4` at most. -/
theorem computeCylinderClearance_mem (p obstaclePos : Fin 3 → ℝ) (radius height link : ℝ) :
    exactDistance p obstaclePos radius height - link ≤
        computeCylinderClearance p obstaclePos radius height link ∧
      computeCylinderClearance p obstaclePos radius height link ≤
        exactDistance p obstaclePos radius height - link + 2e-4 := by
  have small : (0 : ℝ) ≤ 1e-4 := by norm_num
  rw [computeCylinderClearance_eq, exactDistance, axisDistance]
  generalize planar_eq : (x p - x obstaclePos) ^ 2 + (y p - y obstaclePos) ^ 2 = planar
  generalize |z p - z obstaclePos| - 0.5 * height = dz
  have planar_nonneg : 0 ≤ planar := planar_eq ▸ add_nonneg (sq_nonneg _) (sq_nonneg _)
  -- the first root moves the radial excess
  have further : √planar - radius ≤ √(planar + 1e-4 ^ 2) - radius :=
    sub_le_sub_right (sqrt_le_sqrt_add_sq planar 1e-4) radius
  have little : √(planar + 1e-4 ^ 2) - radius ≤ √planar - radius + 1e-4 := by
    linarith [sqrt_add_sq_le planar_nonneg small]
  -- the second one the distance
  obtain ⟨above, near⟩ := smoothedDistance_mem small (√(planar + 1e-4 ^ 2) - radius) dz
  refine ⟨sub_le_sub_right ?_ link, ?_⟩
  · exact (signedDistance_mono further dz).trans above
  · have radial := (signedDistance_mono little dz).trans (signedDistance_add_le small _ dz)
    have both : smoothedDistance 1e-4 (√(planar + 1e-4 ^ 2) - radius) dz ≤
        signedDistance (√planar - radius) dz + 2e-4 :=
      calc smoothedDistance 1e-4 (√(planar + 1e-4 ^ 2) - radius) dz
          ≤ signedDistance (√(planar + 1e-4 ^ 2) - radius) dz + 1e-4 := near
        _ ≤ signedDistance (√planar - radius) dz + 1e-4 + 1e-4 := add_le_add_left radial _
        _ = signedDistance (√planar - radius) dz + 2e-4 := by
              rw [add_assoc]
              norm_num
    linarith

/-- **The clearance is accurate** to `2e-4`, and never too small. -/
theorem computeCylinderClearance_accurate (p obstaclePos : Fin 3 → ℝ) (radius height link : ℝ) :
    Accurate 2e-4 (exactDistance p obstaclePos radius height - link)
      (computeCylinderClearance p obstaclePos radius height link) :=
  accurate_of_mem (computeCylinderClearance_mem p obstaclePos radius height link)

/-! ## What the exact distance is -/

/-- The points of the cylinder. -/
def cylinder (obstaclePos : Fin 3 → ℝ) (radius height : ℝ) : Set (Fin 3 → ℝ) :=
  { p | axisDistance p obstaclePos ≤ radius ∧ |z p - z obstaclePos| ≤ 0.5 * height }

/-- The Euclidean distance. -/
noncomputable def pointDistance (p q : Fin 3 → ℝ) : ℝ :=
  √((x p - x q) ^ 2 + (y p - y q) ^ 2 + (z p - z q) ^ 2)

theorem mem_cylinder_iff (p obstaclePos : Fin 3 → ℝ) (radius height : ℝ) :
    p ∈ cylinder obstaclePos radius height ↔ exactDistance p obstaclePos radius height ≤ 0 := by
  rw [exactDistance, signedDistance_nonpos_iff, sub_nonpos, sub_nonpos]
  rfl

theorem axisDistance_le (p q obstaclePos : Fin 3 → ℝ) :
    axisDistance p obstaclePos ≤
      axisDistance q obstaclePos + √((x p - x q) ^ 2 + (y p - y q) ^ 2) := by
  have norm (a b : ℝ) : ‖(⟨a, b⟩ : ℂ)‖ = √(a ^ 2 + b ^ 2) := by
    rw [Complex.norm_def, Complex.normSq_mk, ← pow_two, ← pow_two]
  have triangle := norm_add_le (⟨x q - x obstaclePos, y q - y obstaclePos⟩ : ℂ)
    ⟨x p - x q, y p - y q⟩
  rw [norm, norm, show (⟨x q - x obstaclePos, y q - y obstaclePos⟩ + ⟨x p - x q, y p - y q⟩ : ℂ) =
    ⟨x p - x obstaclePos, y p - y obstaclePos⟩ by apply Complex.ext <;> simp, norm] at triangle
  exact triangle

/-- No point of the cylinder is nearer than the distance says. -/
theorem exactDistance_le_of_mem {p q obstaclePos : Fin 3 → ℝ} {radius height : ℝ}
    (mem : q ∈ cylinder obstaclePos radius height) :
    max (exactDistance p obstaclePos radius height) 0 ≤ pointDistance p q := by
  obtain ⟨planar, vertical⟩ := mem
  have radial : max (axisDistance p obstaclePos - radius) 0 ≤
      √((x p - x q) ^ 2 + (y p - y q) ^ 2) :=
    max_le (by linarith [axisDistance_le p q obstaclePos]) (Real.sqrt_nonneg _)
  have upright : max (|z p - z obstaclePos| - 0.5 * height) 0 ≤ |z p - z q| :=
    max_le (by linarith [abs_sub_le (z p) (z q) (z obstaclePos)]) (abs_nonneg _)
  rw [exactDistance, max_signedDistance_zero, pointDistance]
  refine Real.sqrt_le_sqrt (add_le_add ?_ ?_)
  · rw [← Real.sq_sqrt (add_nonneg (sq_nonneg (x p - x q)) (sq_nonneg (y p - y q)))]
    exact pow_le_pow_left₀ (le_max_right _ _) radial 2
  · rw [← sq_abs (z p - z q)]
    exact pow_le_pow_left₀ (le_max_right _ _) upright 2

/-- The point of the cylinder that is nearest to `p`. -/
noncomputable def nearest (p obstaclePos : Fin 3 → ℝ) (radius height : ℝ) : Fin 3 → ℝ :=
  let planar := shrink (axisDistance p obstaclePos) radius
  let upright := shrink |z p - z obstaclePos| (0.5 * height)
  ![x obstaclePos + planar * (x p - x obstaclePos), y obstaclePos + planar * (y p - y obstaclePos),
    z obstaclePos + upright * (z p - z obstaclePos)]

theorem sqrt_scaled {t : ℝ} (ht : 0 ≤ t) (x y : ℝ) :
    √((t * x) ^ 2 + (t * y) ^ 2) = t * √(x ^ 2 + y ^ 2) := by
  rw [mul_pow, mul_pow, ← mul_add, Real.sqrt_mul (sq_nonneg t), Real.sqrt_sq ht]

section Nearest

variable (p obstaclePos : Fin 3 → ℝ) {radius height : ℝ}

theorem nearest_mem (hr : 0 ≤ radius) (hh : 0 ≤ height) :
    nearest p obstaclePos radius height ∈ cylinder obstaclePos radius height := by
  have axis : 0 ≤ axisDistance p obstaclePos := Real.sqrt_nonneg _
  have half : 0 ≤ 0.5 * height := by positivity
  constructor
  · have scaled := sqrt_scaled (shrink_nonneg axis hr) (x p - x obstaclePos) (y p - y obstaclePos)
    rw [← axisDistance, shrink_mul axis hr] at scaled
    simp only [axisDistance, nearest, x_vec, y_vec, add_sub_cancel_left]
    exact scaled.trans_le (min_le_right _ _)
  · simp only [nearest, z_vec, add_sub_cancel_left]
    rw [abs_mul, abs_of_nonneg (shrink_nonneg (abs_nonneg _) half), shrink_mul (abs_nonneg _) half]
    exact min_le_right _ _

theorem pointDistance_nearest (hr : 0 ≤ radius) (hh : 0 ≤ height) :
    pointDistance p (nearest p obstaclePos radius height) =
      max (exactDistance p obstaclePos radius height) 0 := by
  have axis : 0 ≤ axisDistance p obstaclePos := Real.sqrt_nonneg _
  have half : 0 ≤ 0.5 * height := by positivity
  have square : axisDistance p obstaclePos ^ 2 =
      (x p - x obstaclePos) ^ 2 + (y p - y obstaclePos) ^ 2 :=
    Real.sq_sqrt (add_nonneg (sq_nonneg _) (sq_nonneg _))
  rw [exactDistance, max_signedDistance_zero, ← one_sub_shrink_mul axis hr,
    ← one_sub_shrink_mul (abs_nonneg _) half, mul_pow, mul_pow, sq_abs, square, pointDistance]
  simp only [nearest, x_vec, y_vec, z_vec]
  refine congrArg Real.sqrt ?_
  ring

/-- **Outside the cylinder** the distance is that to the nearest of its points. -/
theorem exactDistance_isLeast (hr : 0 ≤ radius) (hh : 0 ≤ height) :
    IsLeast (pointDistance p '' cylinder obstaclePos radius height)
      (max (exactDistance p obstaclePos radius height) 0) := by
  refine ⟨⟨_, nearest_mem p obstaclePos hr hh, pointDistance_nearest p obstaclePos hr hh⟩, ?_⟩
  rintro _ ⟨q, mem, rfl⟩
  exact exactDistance_le_of_mem mem

end Nearest

/-! ## The observations -/

/-- `tanh` moves no faster than its argument. -/
theorem lipschitzWith_tanh : LipschitzWith 1 Real.tanh := by
  have slope (x : ℝ) : HasDerivAt Real.tanh (1 / Real.cosh x ^ 2) x := by
    have quotient := (Real.hasDerivAt_sinh x).div (Real.hasDerivAt_cosh x) (Real.cosh_pos x).ne'
    have square : Real.cosh x * Real.cosh x - Real.sinh x * Real.sinh x = 1 := by
      rw [← pow_two, ← pow_two, Real.cosh_sq_sub_sinh_sq]
    rw [square] at quotient
    exact quotient.congr_of_eventuallyEq (.of_forall fun y => Real.tanh_eq_sinh_div_cosh y)
  refine lipschitzWith_of_nnnorm_deriv_le (fun x => (slope x).differentiableAt) fun x => ?_
  rw [(slope x).deriv, ← NNReal.coe_le_coe, coe_nnnorm, Real.norm_eq_abs,
    abs_of_nonneg (by positivity)]
  exact div_le_one_of_le₀ (one_le_pow₀ (Real.one_le_cosh x)) (by positivity)

/-- An observation is within a thousandth of what the exact clearance gives. -/
theorem clearObs_near (o : ObstacleModel ℝ) (point : Fin 3 → ℝ) :
    |clearObs Real.tanh o point - Real.tanh
      ((exactDistance point o.obstaclePosW o.obstacleRadius o.obstacleHeight - o.linkRadius) /
        0.2)| ≤ 1e-3 := by
  obtain ⟨lower, upper⟩ := computeCylinderClearance_mem point o.obstaclePosW o.obstacleRadius
    o.obstacleHeight o.linkRadius
  rw [clearObs]
  generalize computeCylinderClearance point o.obstaclePosW o.obstacleRadius o.obstacleHeight
    o.linkRadius = computed at *
  generalize exactDistance point o.obstaclePosW o.obstacleRadius o.obstacleHeight - o.linkRadius =
    exact at *
  -- the bounds of the clamp are further out than the values of `tanh`
  have inside : clamp (Real.tanh (computed / 0.2)) (-5.0) 5.0 = Real.tanh (computed / 0.2) := by
    have below := Real.tanh_lt_one (computed / 0.2)
    have above := Real.neg_one_lt_tanh (computed / 0.2)
    rw [clamp, min_eq_left (by linarith), max_eq_right (by linarith)]
  have moved := lipschitzWith_tanh.dist_le_mul (computed / 0.2) (exact / 0.2)
  rw [NNReal.coe_one, one_mul, Real.dist_eq, Real.dist_eq, ← sub_div, abs_div] at moved
  simp only [inside]
  refine moved.trans ?_
  rw [abs_of_pos (by norm_num : (0 : ℝ) < 0.2), div_le_iff₀ (by norm_num),
    abs_of_nonneg (sub_nonneg.2 lower)]
  linarith

/-- **The observations** of an update that finds the probe frames. -/
theorem updateClearObs_accurate (o : ObstacleModel ℝ) (poses : FramePoses ℝ)
    (fingertipPos : Fin 3 → ℝ) :
    List.Forall₂
      (fun point obs => |obs - Real.tanh
        ((exactDistance point o.obstaclePosW o.obstacleRadius o.obstacleHeight - o.linkRadius) /
          0.2)| ≤ 1e-3)
      (probePointsW poses fingertipPos)
      (updateClearObsFromPinocchio Real.tanh o true true (some poses) fingertipPos) := by
  rw [updateClearObsFromPinocchio, if_neg (by decide)]
  simp only [probePointsW_length, ne_eq, not_true_eq_false, if_false]
  rw [List.forall₂_map_right_iff]
  exact List.forall₂_same.2 fun point _ => clearObs_near o point

end FrankaRos.Controller
