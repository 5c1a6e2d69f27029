/-
# Impedance.CartesianImpedance -- the torque of the Cartesian impedance controller

`computeTorque` of `CartesianImpedanceController`, for a chain of any number of joints, and
the damping design it calls, in exact arithmetic.  What KDL returns for the joints, and the
stiffness in the base link, are arguments (`ChainDynamics`).

`compute_correct_damping` takes a matrix for a quadratic form that the eigenvectors of
stiffness and inertia diagonalise.  Where the solver has normalised them by the inertia,
`computeCorrectDamping_eq` names that form by its entries.
-/
import FrankaRos.Impedance.OscTorque
import FrankaRos.RlAction.ActionBounds
import Mathlib

namespace FrankaRos.Impedance

open Matrix
open FrankaRos.Theory
open FrankaRos.RlAction (Trigonometry squaredNorm clamp)

set_option autoImplicit false

/-- The members `computeTorque` reads. -/
structure CartesianImpedanceController (R : Type) (n : Nat) where
  nullSpaceStiffness : R
  nullSpaceDamping : R
  qNs : Fin n → R
  compensateGravity : Bool
  compensateCoriolis : Bool
  compensateDJdq : Bool
  targetWrench : Fin 6 → R

/-- The joints, and what KDL returns for them.  The error is the position of the target
against the current frame, and the axis and angle of the rotation between them. -/
structure ChainDynamics (R : Type) (n : Nat) where
  q : Fin n → R
  qDot : Fin n → R
  jac : Matrix (Fin 6) (Fin n) R
  mass : Matrix (Fin n) (Fin n) R
  errorPosition : Fin 3 → R
  errorAxis : Fin 3 → R
  errorAngle : R
  baseLinkStiffness : Matrix (Fin 6) (Fin 6) R
  gravity : Fin n → R
  coriolis : Fin n → R
  jacDotQDot : Fin 6 → R

section Torque

variable {R : Type} [Field R] [LinearOrder R] [Trigonometry R]

open FrankaRos.RlAction.Trigonometry

/-! ## Damping -/

/-- `none` is the exception of a solver that failed. -/
def computeCorrectDamping {n : Nat} (lib : Eigen R) (lambda kD : Matrix (Fin n) (Fin n) R) (csi : R)
    (diagCorrection : Fin n → R) : Option (Matrix (Fin n) (Fin n) R) := do
  let (eigenvectors, eigenvalues) ← lib.generalizedEigen kD lambda
  let q := lib.inverse eigenvectorsᵀ
  let kD0 := diagonal eigenvalues
  let correction := diagonal diagCorrection
  let dD0 := (2.0 * csi) • kD0.map sqrt + correction
  return q * dD0 * qᵀ

/-! ## The task -/

/-- `Normalize` of KDL: the length and the direction, which is the first axis for a vector
that has none. -/
def normalize (v : Fin 3 → R) : R × (Fin 3 → R) :=
  let length := sqrt (squaredNorm v)
  if length < 1e-6 then (0, ![1, 0, 0]) else (length, fun i => v i / length)

def computeMotionError {n : Nat} (given : ChainDynamics R n) : Fin 6 → R :=
  let (distance, direction) := normalize given.errorPosition
  let angle := clamp given.errorAngle (-1) 1
  let distance := clamp distance (-1) 1
  (Fin.append (distance • direction) (angle • given.errorAxis) : Fin (3 + 3) → R)

/-- `Lambda`, the inertia of the task. -/
def lambda {n : Nat} (lib : Eigen R) (given : ChainDynamics R n) : Matrix (Fin 6) (Fin 6) R :=
  lib.inverse (given.jac * lib.inverse given.mass * given.jacᵀ)

/-- Three on the diagonal of the rotations. -/
def addedDamping : Fin 6 → R := fun i => if 3 ≤ i.val then 3.0 else 0

/-- The stiffness and the damping torque. -/
def tauTaskOf {n : Nat} (given : ChainDynamics R n) (dD : Matrix (Fin 6) (Fin 6) R) : Fin n → R :=
  let dD := dD + diagonal addedDamping
  given.jacᵀ *ᵥ (given.baseLinkStiffness *ᵥ computeMotionError given) +
    given.jacᵀ *ᵥ (-(dD *ᵥ (given.jac *ᵥ given.qDot)))

namespace CartesianImpedanceController

variable {n : Nat}

/-! ## The null space -/

/-- The projector, written out where the null-space torque is computed. -/
def projector (lib : Eigen R) (given : ChainDynamics R n) : Matrix (Fin n) (Fin n) R :=
  1 - given.jacᵀ * lambda lib given * given.jac * lib.inverse given.mass

def tauNull (lib : Eigen R) (c : CartesianImpedanceController R n) (given : ChainDynamics R n) :
    Fin n → R :=
  if 1e-6 < c.nullSpaceStiffness then
    projector lib given *ᵥ
      (c.nullSpaceStiffness • (-given.q + c.qNs) - c.nullSpaceDamping • given.qDot)
  else 0

/-! ## The total -/

/-- What is compensated of the dynamics. -/
def compensation (lib : Eigen R) (c : CartesianImpedanceController R n)
    (given : ChainDynamics R n) : Fin n → R :=
  let gravity := if c.compensateGravity then given.gravity else 0
  let coriolis := if c.compensateCoriolis then given.coriolis else 0
  let dJdq :=
    if c.compensateDJdq then given.jacᵀ *ᵥ (lambda lib given *ᵥ given.jacDotQDot) else 0
  gravity + coriolis + dJdq

def computeTorque (lib : Eigen R) (c : CartesianImpedanceController R n)
    (given : ChainDynamics R n) : Option (Fin n → R) := do
  let dD ← computeCorrectDamping lib (lambda lib given) given.baseLinkStiffness 1 0
  let tauExt := given.jacᵀ *ᵥ c.targetWrench
  return c.compensation lib given + (tauTaskOf given dD + c.tauNull lib given + tauExt)

end CartesianImpedanceController

end Torque

/-! ## Eigen without rounding -/

section Real

open Classical in
/-- Eigen on real numbers.  Its eigenvectors are normalised by the second matrix. -/
noncomputable def Eigen.real : Eigen ℝ where
  solve a b := a⁻¹ * b
  inverse a := a⁻¹
  generalizedEigen {n} a b :=
    if found : ∃ modes : Matrix (Fin n) (Fin n) ℝ × (Fin n → ℝ),
        modes.1ᵀ * b * modes.1 = 1 ∧ modes.1ᵀ * a * modes.1 = diagonal modes.2 then
      some found.choose
    else none

theorem Eigen.real_exact : Eigen.real.Exact where
  solves definite b := mul_nonsing_inv_cancel_left _ b ((isUnit_iff_isUnit_det _).1 definite.isUnit)
  inverts regular := mul_nonsing_inv _ ((isUnit_iff_isUnit_det _).1 regular)

theorem Eigen.real_generalizedEigen {n : Nat} {a b V : Matrix (Fin n) (Fin n) ℝ} {e : Fin n → ℝ}
    (normal : Vᵀ * b * V = 1) (diagonalised : Vᵀ * a * V = diagonal e) :
    ∃ V e, Eigen.real.generalizedEigen a b = some (V, e) ∧ Vᵀ * b * V = 1 ∧
      Vᵀ * a * V = diagonal e := by
  have found : ∃ modes : Matrix (Fin n) (Fin n) ℝ × (Fin n → ℝ),
      modes.1ᵀ * b * modes.1 = 1 ∧ modes.1ᵀ * a * modes.1 = diagonal modes.2 :=
    ⟨(V, e), normal, diagonalised⟩
  exact ⟨found.choose.1, found.choose.2, dif_pos found, found.choose_spec⟩

end Real

/-! ## What the inverses compute -/

section Projection

variable {R : Type} [Field R] [LinearOrder R] [StarRing R] [TrivialStar R] {lib : Eigen R} {n : Nat}

theorem CartesianImpedanceController.projector_eq (exact : lib.Exact) {given : ChainDynamics R n}
    (fullRank : given.jac.rank = 6) (definite : given.mass.PosDef) :
    projector lib given = taskProjector given.jac given.mass := by
  have taskDefinite : (given.jac * given.mass⁻¹ * given.jacᵀ).PosDef :=
    posDef_taskInertia definite fullRank
  rw [projector, lambda, exact.inverse_eq definite.isUnit, exact.inverse_eq taskDefinite.isUnit,
    taskProjector]
  simp only [Matrix.mul_assoc]

end Projection

section Modes

variable {lib : Eigen ℝ} {n : Nat} {inertia kD V : Matrix (Fin n) (Fin n) ℝ} {e : Fin n → ℝ}

/-- Without a correction, the damping has the entries `2 csi √e` in the dual basis. -/
theorem computeCorrectDamping_eq (exact : lib.Exact)
    (solved : lib.generalizedEigen kD inertia = some (V, e)) (normal : Vᵀ * inertia * V = 1)
    (csi : ℝ) :
    computeCorrectDamping lib inertia kD csi 0 = some (modal V fun i => 2 * csi * √(e i)) := by
  have regular : IsUnit Vᵀ := by
    rw [isUnit_iff_isUnit_det, det_transpose]
    exact isUnit_of_normal normal
  have entries : (diagonal e).map Real.sqrt = diagonal fun i => √(e i) := by
    rw [diagonal_map Real.sqrt_zero]
  have scaled : (2.0 * csi) • (diagonal fun i => √(e i)) = diagonal fun i => 2 * csi * √(e i) := by
    ext i j
    by_cases same : i = j
    · subst same
      norm_num
    · simp [same]
  have damping : computeCorrectDamping lib inertia kD csi 0 =
      some (Vᵀ⁻¹ * ((2.0 * csi) • (diagonal e).map Real.sqrt + diagonal 0) * Vᵀ⁻¹ᵀ) := by
    rw [← exact.inverse_eq regular]
    simp only [computeCorrectDamping, solved]
    rfl
  have uncorrected : diagonal (0 : Fin n → ℝ) = 0 := diagonal_zero
  rw [damping, entries, scaled, uncorrected, add_zero, transpose_nonsing_inv,
    transpose_transpose, modal]

/-- **The damping is a square root of the stiffness, scaled by the damping ratio.** -/
theorem damping_is_root (exact : lib.Exact) {csi : ℝ} (ratio : 0 ≤ csi)
    (semidefinite : kD.PosSemidef) (solved : lib.generalizedEigen kD inertia = some (V, e))
    (normal : Vᵀ * inertia * V = 1) (diagonalised : Vᵀ * kD * V = diagonal e) :
    ∃ D, computeCorrectDamping lib inertia kD csi 0 = some D ∧ D.IsSymm ∧ D.PosSemidef ∧
      D * inertia⁻¹ * D = (4 * csi ^ 2) • kD := by
  have nonneg : ∀ i, 0 ≤ e i := nonneg_of_diagonalised semidefinite diagonalised
  have damped : (modal V fun i => 2 * csi * √(e i)).PosSemidef :=
    posSemidef_modal fun i => mul_nonneg (mul_nonneg zero_le_two ratio) (Real.sqrt_nonneg _)
  refine ⟨_, computeCorrectDamping_eq exact solved normal csi, damped.isHermitian, damped, ?_⟩
  have squares : ∀ i, 2 * csi * √(e i) * (2 * csi * √(e i)) = 4 * csi ^ 2 * e i := fun i =>
    calc 2 * csi * √(e i) * (2 * csi * √(e i)) = 4 * csi ^ 2 * (√(e i) * √(e i)) := by ring
      _ = 4 * csi ^ 2 * e i := by rw [Real.mul_self_sqrt (nonneg i)]
  calc (modal V fun i => 2 * csi * √(e i)) * inertia⁻¹ * (modal V fun i => 2 * csi * √(e i))
      = modal V fun i => 4 * csi ^ 2 * e i := by
        rw [modal_mul_modal normal]
        exact congrArg (modal V) (funext squares)
    _ = (4 * csi ^ 2) • kD := by
        rw [modal_smul, ← eq_modal (isUnit_of_normal normal) diagonalised]

/-- Unit inertia, and a stiffness that differs from axis to axis. -/
theorem damping_is_root_diagonal :
    ∃ D, computeCorrectDamping Eigen.real 1 (diagonal ![1, 4, 9]) 1 0 = some D ∧ D.IsSymm ∧
      D.PosSemidef ∧ D * 1⁻¹ * D = (4 * (1 : ℝ) ^ 2) • diagonal ![1, 4, 9] := by
  obtain ⟨V, e, solved, normal, diagonalised⟩ :=
    @Eigen.real_generalizedEigen 3 (diagonal ![1, 4, 9]) 1 1 ![1, 4, 9] (by simp) (by simp)
  have stiff : (diagonal ![(1 : ℝ), 4, 9]).PosSemidef := by
    refine PosSemidef.diagonal fun i => ?_
    fin_cases i <;> norm_num
  exact damping_is_root Eigen.real_exact zero_le_one stiff solved normal diagonalised

end Modes

end FrankaRos.Impedance
