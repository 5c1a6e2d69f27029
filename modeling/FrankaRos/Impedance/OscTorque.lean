/-
# Impedance.OscTorque -- the torque of the operational-space controller

`computeTorque` of `CartesianImpedanceOscRT` with its arithmetic, which is exact here, in
any ordered field.  What Pinocchio returns for a pair of joint vectors is an argument
(`OscDynamics`); `computeTorqueCalls` says how it is asked.  Eigen is a parameter: `Eigen`
has the three of its functions that this controller and the Cartesian impedance controller
call, and `Eigen.Exact` is what they do where nothing is rounded.

The controller solves with the joint inertia and with the inertia of the task, and never
inverts either.  `n7_eq` says what comes out of the two solves all the same.
-/
import FrankaRos.Theory.TaskSpace
import FrankaRos.Kinematics.CartesianImpedanceOscRT
import FrankaRos.RlAction.RlActionProcessor

namespace FrankaRos.Impedance

open Matrix
open FrankaRos.Theory FrankaRos.Kinematics
open FrankaRos.RlAction (Trigonometry normalizedQuat squaredNorm clamp)

set_option autoImplicit false

/-! ## Eigen -/

/-- `LDLT::solve`, `inverse`, and `GeneralizedSelfAdjointEigenSolver`: its eigenvectors and
eigenvalues, unless its `info` is not `Success`. -/
structure Eigen (R : Type) where
  solve {n p : Nat} (a : Matrix (Fin n) (Fin n) R) (b : Matrix (Fin n) (Fin p) R) :
    Matrix (Fin n) (Fin p) R
  inverse {n : Nat} (a : Matrix (Fin n) (Fin n) R) : Matrix (Fin n) (Fin n) R
  generalizedEigen {n : Nat} (a b : Matrix (Fin n) (Fin n) R) :
    Option (Matrix (Fin n) (Fin n) R × (Fin n → R))

/-- Linear systems are solved without rounding. -/
structure Eigen.Exact {R : Type} [Field R] [LinearOrder R] [StarRing R] (lib : Eigen R) : Prop where
  solves : ∀ {n p : Nat} {a : Matrix (Fin n) (Fin n) R}, a.PosDef →
    ∀ b : Matrix (Fin n) (Fin p) R, a * lib.solve a b = b
  inverts : ∀ {n : Nat} {a : Matrix (Fin n) (Fin n) R}, IsUnit a → a * lib.inverse a = 1

section Exact

variable {R : Type} [Field R] [LinearOrder R] [StarRing R] {lib : Eigen R} (exact : lib.Exact)

include exact

theorem Eigen.Exact.solve_eq {n p : Nat} {a : Matrix (Fin n) (Fin n) R} (definite : a.PosDef)
    (b : Matrix (Fin n) (Fin p) R) : lib.solve a b = a⁻¹ * b := by
  rw [← exact.solves definite b, nonsing_inv_mul_cancel_left _ _
    ((isUnit_iff_isUnit_det _).1 definite.isUnit), exact.solves definite b]

theorem Eigen.Exact.inverse_eq {n : Nat} {a : Matrix (Fin n) (Fin n) R} (regular : IsUnit a) :
    lib.inverse a = a⁻¹ :=
  (inv_eq_right_inv (exact.inverts regular)).symm

end Exact

/-! ## The controller -/

/-- A placement; its rotation is the quaternion Eigen makes of the matrix. -/
structure Pose (R : Type) [Field R] where
  translation : Fin 3 → R
  rotation : Quaternion R

/-- The rest of the configuration, without `dt`, which nothing reads. -/
structure OscConfig (R : Type) extends CartesianImpedanceOscConfig where
  kp6 : Fin 6 → R
  kd6 : Fin 6 → R
  kpNull : R
  kdNull : R
  qDefault : Fin 7 → R
  tauLimit : R
  useQuatShortestPath : Bool

/-- What Pinocchio returns.  `crba` fills the inertia on and above its diagonal. -/
structure OscDynamics (R : Type) [Field R] where
  oMe : Pose R
  j6 : Matrix (Fin 6) (Fin 7) R
  crba : Matrix (Fin 7) (Fin 7) R
  nle7 : Fin 7 → R
  g7 : Fin 7 → R

section Torque

variable {R : Type} [Field R] [LinearOrder R] [Trigonometry R]

open FrankaRos.RlAction.Trigonometry

/-- `Default()`. -/
def OscConfig.default : OscConfig R where
  kp6 := ![500.0, 500.0, 500.0, 100.0, 100.0, 100.0]
  kd6 := ![9.0, 9.0, 9.0, 2.0, 2.0, 2.0]
  kpNull := 0
  kdNull := 2.0 * sqrt 0
  qDefault := ![0, -0.785, 0, -2.356, 0, 1.571, 0.785]
  tauLimit := 100.0
  useQuatShortestPath := true

/-! ### The task -/

def dot (p q : Quaternion R) : R :=
  p.imI * q.imI + p.imJ * q.imJ + p.imK * q.imK + p.re * q.re

def flipQuatIfNeededShortestPath (qDes qCurr : Quaternion R) : Quaternion R :=
  if 0 ≤ dot qDes qCurr then qDes else -qDes

def axisAngleFromQuatLikePython (qErr : Quaternion R) : Fin 3 → R :=
  let q := normalizedQuat qErr
  let q := if q.re < 0 then -q else q
  let w := clamp q.re (-1) 1
  let v := ![q.imI, q.imJ, q.imK]
  let vNorm := sqrt (squaredNorm v)
  if vNorm < 1e-8 then (2.0 : R) • v
  else
    let angle := 2.0 * atan2 vNorm w
    fun i => v i / vNorm * angle

/-- `delta_pose_`: the error in position, then the one in rotation. -/
def deltaPose (cfg : OscConfig R) (eeDes oMe : Pose R) : Fin 6 → R :=
  let posError := eeDes.translation - oMe.translation
  let qDes :=
    if cfg.useQuatShortestPath then flipQuatIfNeededShortestPath eeDes.rotation oMe.rotation
    else eeDes.rotation
  let axisAngleError := axisAngleFromQuatLikePython (qDes * star oMe.rotation)
  (Fin.append posError axisAngleError : Fin (3 + 3) → R)

def wrench6 (cfg : OscConfig R) (dq7 : Fin 7 → R) (eeDes : Pose R) (given : OscDynamics R) :
    Fin 6 → R := fun k =>
  let v6 := given.j6 *ᵥ dq7
  cfg.kp6 k * deltaPose cfg eeDes given.oMe k + cfg.kd6 k * (-v6 k)

def tauTask (cfg : OscConfig R) (dq7 : Fin 7 → R) (eeDes : Pose R) (given : OscDynamics R) :
    Fin 7 → R :=
  given.j6ᵀ *ᵥ wrench6 cfg dq7 eeDes given

/-! ### The null space -/

/-- `M7_`, whose lower half is copied from the upper one. -/
def OscDynamics.m7 (given : OscDynamics R) : Matrix (Fin 7) (Fin 7) R :=
  .of fun i j => if j < i then given.crba j i else given.crba i j

/-- `N7_`, from the Jacobian and the inertia. -/
def n7 (lib : Eigen R) (j6 : Matrix (Fin 6) (Fin 7) R) (m7 : Matrix (Fin 7) (Fin 7) R) :
    Matrix (Fin 7) (Fin 7) R :=
  let x := lib.solve m7 j6ᵀ
  let a6 := j6 * x
  let jmInv := xᵀ
  let jEefInv := lib.solve a6 jmInv
  1 - j6ᵀ * jEefInv

variable [FloorRing R]

def fmod (x y : R) : R :=
  let turns : Int := if 0 ≤ x / y then ⌊x / y⌋ else ⌈x / y⌉
  x - turns * y

/-- The controller's own `wrapToPi`. -/
def wrapToPi (x : R) : R :=
  let twoPi := 2.0 * pi
  let x := fmod (x + pi) twoPi
  let x := if x < 0 then x + twoPi else x
  x - pi

/-- `u_null_`. -/
def uNull (cfg : OscConfig R) (q7 dq7 : Fin 7 → R) : Fin 7 → R := fun i =>
  let distDefault := wrapToPi (cfg.qDefault i - q7 i)
  cfg.kdNull * (-dq7 i) + cfg.kpNull * distDefault

def tauNull (lib : Eigen R) (cfg : OscConfig R) (q7 dq7 : Fin 7 → R) (given : OscDynamics R) :
    Fin 7 → R :=
  n7 lib given.j6 given.m7 *ᵥ (given.m7 *ᵥ uNull cfg q7 dq7)

/-! ### The total -/

def limited (lim tau : R) : R :=
  if lim < tau then lim else if tau < -lim then -lim else tau

/-- The torque and the wrench; zeros before a configuration. -/
def computeTorque (lib : Eigen R) (s : CartesianImpedanceOscRT) (cfg : OscConfig R)
    (q7 dq7 : Fin 7 → R) (eeDes : Pose R) (given : OscDynamics R) : (Fin 7 → R) × (Fin 6 → R) :=
  if s.configured = false then (0, 0)
  else
    let tauTotal :=
      tauTask cfg dq7 eeDes given + tauNull lib cfg q7 dq7 given + (given.nle7 - given.g7)
    (fun i => limited |cfg.tauLimit| (tauTotal i), wrench6 cfg dq7 eeDes given)

end Torque

/-! ## What the two solves compute -/

section Projection

variable {R : Type} [Field R] [LinearOrder R] [StarRing R] [TrivialStar R] {lib : Eigen R}

/-- **The projector of the controller is the one that leaves no trace in the task.** -/
theorem n7_eq (exact : lib.Exact) {j6 : Matrix (Fin 6) (Fin 7) R} {m7 : Matrix (Fin 7) (Fin 7) R}
    (fullRank : j6.rank = 6) (definite : m7.PosDef) : n7 lib j6 m7 = taskProjector j6 m7 := by
  have taskDefinite : (j6 * m7⁻¹ * j6ᵀ).PosDef := posDef_taskInertia definite fullRank
  have symmetric : m7ᵀ = m7 := by
    rw [← conjTranspose_eq_transpose_of_trivial]
    exact definite.isHermitian
  have solved : lib.solve m7 j6ᵀ = m7⁻¹ * j6ᵀ := exact.solve_eq definite _
  have inertia : j6 * lib.solve m7 j6ᵀ = j6 * m7⁻¹ * j6ᵀ := by rw [solved, Matrix.mul_assoc]
  have transposed : (lib.solve m7 j6ᵀ)ᵀ = j6 * m7⁻¹ := by
    rw [solved, transpose_mul, transpose_transpose, transpose_nonsing_inv, symmetric]
  refine eq_taskProjector taskDefinite.isUnit ?_
  rw [Matrix.mul_sub, Matrix.mul_one, ← Matrix.mul_assoc, sub_eq_zero, transposed, inertia]
  exact (exact.solves taskDefinite _).symm

end Projection

end FrankaRos.Impedance
