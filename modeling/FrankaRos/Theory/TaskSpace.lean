/-
# Theory.TaskSpace -- torques a task does not feel, and roots of its stiffness

`J` takes the velocities of the joints to those of a task, `M` is the inertia of the
joints.  A torque `τ` accelerates the task by `J * M⁻¹ * τ`; the torques the task can feel
are the combinations of the rows of `J`.  `taskProjector` takes these out of a torque.  What
is left is invisible (`mul_taskProjector`), and no other matrix that takes combinations of
rows of `J` out leaves something invisible (`eq_taskProjector`): whatever way such a
projector has been computed, it is this one.

The second part is a pair of quadratic forms that one basis `V` diagonalises: it makes the
inertia the identity and the stiffness `diagonal e`.  In the dual basis `(Vᵀ)⁻¹` the forms
multiply entry by entry across the inertia (`modal_mul_modal`), so entries that square to
those of the stiffness make a square root of it.
-/
import Mathlib.LinearAlgebra.Matrix.PosDef
import Mathlib.LinearAlgebra.Matrix.Rank

namespace FrankaRos.Theory

open Matrix

set_option autoImplicit false

section Projector

variable {m n R : Type*} [Fintype m] [Fintype n] [DecidableEq m] [DecidableEq n] [CommRing R]

/-- What takes out of a torque the part the task can feel. -/
noncomputable def taskProjector (J : Matrix m n R) (M : Matrix n n R) : Matrix n n R :=
  1 - Jᵀ * ((J * M⁻¹ * Jᵀ)⁻¹ * (J * M⁻¹))

variable {J : Matrix m n R} {M : Matrix n n R}

/-- What is left of a torque does not accelerate the task. -/
theorem mul_taskProjector (inertia : IsUnit (J * M⁻¹ * Jᵀ)) : J * M⁻¹ * taskProjector J M = 0 := by
  have cancels := mul_nonsing_inv_cancel_left (A := J * M⁻¹ * Jᵀ) (J * M⁻¹)
    ((isUnit_iff_isUnit_det _).1 inertia)
  rw [taskProjector, Matrix.mul_sub, Matrix.mul_one, ← Matrix.mul_assoc, cancels, sub_self]

/-- **Taking combinations of the rows out of a torque is invisible in one way only.** -/
theorem eq_taskProjector (inertia : IsUnit (J * M⁻¹ * Jᵀ)) {Y : Matrix m n R}
    (invisible : J * M⁻¹ * (1 - Jᵀ * Y) = 0) : 1 - Jᵀ * Y = taskProjector J M := by
  rw [Matrix.mul_sub, Matrix.mul_one, ← Matrix.mul_assoc, sub_eq_zero] at invisible
  have solved : Y = (J * M⁻¹ * Jᵀ)⁻¹ * (J * M⁻¹) :=
    calc Y = (J * M⁻¹ * Jᵀ)⁻¹ * (J * M⁻¹ * Jᵀ * Y) :=
          (nonsing_inv_mul_cancel_left _ _ ((isUnit_iff_isUnit_det _).1 inertia)).symm
      _ = (J * M⁻¹ * Jᵀ)⁻¹ * (J * M⁻¹) := by rw [← invisible]
  rw [taskProjector, solved]

theorem isIdempotentElem_taskProjector (inertia : IsUnit (J * M⁻¹ * Jᵀ)) :
    IsIdempotentElem (taskProjector J M) := by
  have nothing : Jᵀ * ((J * M⁻¹ * Jᵀ)⁻¹ * (J * M⁻¹)) * taskProjector J M = 0 := by
    rw [Matrix.mul_assoc, Matrix.mul_assoc, mul_taskProjector inertia, Matrix.mul_zero,
      Matrix.mul_zero]
  calc taskProjector J M * taskProjector J M
      = taskProjector J M - Jᵀ * ((J * M⁻¹ * Jᵀ)⁻¹ * (J * M⁻¹)) * taskProjector J M := by
        nth_rewrite 1 [taskProjector]
        rw [Matrix.sub_mul, Matrix.one_mul]
    _ = taskProjector J M := by rw [nothing, sub_zero]

end Projector

section Regular

variable {m n R : Type*} [Fintype m] [Fintype n] [DecidableEq n]
  [Field R] [LinearOrder R] [StarRing R] [TrivialStar R]

/-- A task whose rows are independent sees a positive definite inertia. -/
theorem posDef_taskInertia {J : Matrix m n R} {M : Matrix n n R} (definite : M.PosDef)
    (fullRank : J.rank = Fintype.card m) : (J * M⁻¹ * Jᵀ).PosDef := by
  have independent : LinearIndependent R J.row := by
    rw [linearIndependent_iff_card_eq_finrank_span, Set.finrank, ← rank_eq_finrank_span_row,
      fullRank]
  rw [← conjTranspose_eq_transpose_of_trivial]
  exact definite.inv.mul_mul_conjTranspose_same (vecMul_injective_iff.2 independent)

end Regular

section Modes

variable {n R : Type*} [Fintype n] [DecidableEq n] [CommRing R] {V : Matrix n n R}

/-- The quadratic form with the entries `d` in the dual basis of `V`. -/
noncomputable def modal (V : Matrix n n R) (d : n → R) : Matrix n n R :=
  Vᵀ⁻¹ * diagonal d * V⁻¹

variable {inertia : Matrix n n R}

theorem isUnit_of_normal (normal : Vᵀ * inertia * V = 1) : IsUnit V.det :=
  isUnit_det_of_left_inverse normal

theorem inv_eq_of_normal (normal : Vᵀ * inertia * V = 1) : inertia⁻¹ = V * Vᵀ := by
  have regular := isUnit_of_normal normal
  refine inv_eq_right_inv ?_
  have cancelled : Vᵀ * (inertia * (V * Vᵀ)) = Vᵀ := by
    rw [← Matrix.mul_assoc, ← Matrix.mul_assoc, normal, Matrix.one_mul]
  have transposed : IsUnit Vᵀ.det := by rwa [det_transpose]
  calc inertia * (V * Vᵀ) = Vᵀ⁻¹ * (Vᵀ * (inertia * (V * Vᵀ))) := by
        rw [nonsing_inv_mul_cancel_left _ _ transposed]
    _ = 1 := by rw [cancelled, nonsing_inv_mul _ transposed]

/-- A form that `V` diagonalises has its diagonal as its entries. -/
theorem eq_modal (regular : IsUnit V.det) {form : Matrix n n R} {d : n → R}
    (diagonalised : Vᵀ * form * V = diagonal d) : form = modal V d := by
  have transposed : IsUnit Vᵀ.det := by rwa [det_transpose]
  rw [modal, ← diagonalised, Matrix.mul_assoc Vᵀ, nonsing_inv_mul_cancel_left _ _ transposed,
    mul_nonsing_inv_cancel_right _ _ regular]

/-- **Across the inertia, forms multiply entry by entry.** -/
theorem modal_mul_modal (normal : Vᵀ * inertia * V = 1) (c d : n → R) :
    modal V c * inertia⁻¹ * modal V d = modal V fun i => c i * d i := by
  have regular := isUnit_of_normal normal
  have transposed : IsUnit Vᵀ.det := by rwa [det_transpose]
  calc modal V c * inertia⁻¹ * modal V d
      = Vᵀ⁻¹ * diagonal c * (V⁻¹ * V) * (Vᵀ * Vᵀ⁻¹) * (diagonal d * V⁻¹) := by
        rw [inv_eq_of_normal normal, modal, modal]
        simp only [Matrix.mul_assoc]
    _ = Vᵀ⁻¹ * (diagonal c * diagonal d) * V⁻¹ := by
        rw [nonsing_inv_mul _ regular, mul_nonsing_inv _ transposed, Matrix.mul_one,
          Matrix.mul_one]
        simp only [Matrix.mul_assoc]
    _ = modal V fun i => c i * d i := by rw [diagonal_mul_diagonal, modal]

theorem modal_smul (V : Matrix n n R) (c : R) (d : n → R) :
    modal V (fun i => c * d i) = c • modal V d := by
  have scaled : diagonal (fun i => c * d i) = c • diagonal d := by
    ext i j
    rw [Matrix.smul_apply, diagonal_apply, diagonal_apply, smul_ite, smul_zero, smul_eq_mul]
  rw [modal, scaled, Matrix.mul_smul, Matrix.smul_mul, modal]

/-- A form whose entries are not negative is positive semidefinite. -/
theorem posSemidef_modal [PartialOrder R] [StarRing R] [TrivialStar R] [StarOrderedRing R]
    {d : n → R} (nonneg : ∀ i, 0 ≤ d i) : (modal V d).PosSemidef := by
  have conjugated := (PosSemidef.diagonal nonneg).mul_mul_conjTranspose_same Vᵀ⁻¹
  rwa [conjTranspose_eq_transpose_of_trivial, transpose_nonsing_inv, transpose_transpose]
    at conjugated

/-- The entries of a positive semidefinite form are not negative. -/
theorem nonneg_of_diagonalised [PartialOrder R] [StarRing R] [TrivialStar R]
    {form : Matrix n n R} {d : n → R} (semidefinite : form.PosSemidef)
    (diagonalised : Vᵀ * form * V = diagonal d) (i : n) : 0 ≤ d i := by
  have conjugated := semidefinite.conjTranspose_mul_mul_same V
  rw [conjTranspose_eq_transpose_of_trivial, diagonalised] at conjugated
  simpa using conjugated.diag_nonneg (i := i)

end Modes

end FrankaRos.Theory
