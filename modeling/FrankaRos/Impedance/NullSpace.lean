/-
# Impedance.NullSpace -- the posture task does not disturb the Cartesian one

Both impedance controllers hold a posture in what the end effector leaves free.  One solves
with the inertias, the other inverts them, and they order their factors differently; both
projectors are `taskProjector` of the Jacobian and the inertia of the joints, so what
follows for one follows for the other.
-/
import FrankaRos.Impedance.CartesianImpedance

namespace FrankaRos.Impedance

open Matrix
open FrankaRos.Theory

set_option autoImplicit false

/-- A projected torque does not accelerate the task. -/
theorem mul_projected {m n : Nat} {J : Matrix (Fin m) (Fin n) ℝ} {M : Matrix (Fin n) (Fin n) ℝ}
    (fullRank : J.rank = m) (definite : M.PosDef) (tau : Fin n → ℝ) :
    (J * M⁻¹) *ᵥ (taskProjector J M *ᵥ tau) = 0 := by
  have inertia : (J * M⁻¹ * Jᵀ).PosDef :=
    posDef_taskInertia definite (by rw [fullRank, Fintype.card_fin])
  rw [mulVec_mulVec, mul_taskProjector inertia.isUnit, zero_mulVec]

open CartesianImpedanceController in
/-- **Null-space torque is invisible at the end effector, for both controllers.** -/
theorem nullSpace_invisible {lib : Eigen ℝ} (exact : lib.Exact) {n : Nat} (cfg : OscConfig ℝ)
    (q7 dq7 : Fin 7 → ℝ) {osc : OscDynamics ℝ} (oscRank : osc.j6.rank = 6)
    (oscDefinite : osc.m7.PosDef) (c : CartesianImpedanceController ℝ n)
    {chain : ChainDynamics ℝ n} (chainRank : chain.jac.rank = 6)
    (chainDefinite : chain.mass.PosDef) :
    ((osc.j6 * osc.m7⁻¹) *ᵥ Impedance.tauNull lib cfg q7 dq7 osc = 0 ∧
        IsIdempotentElem (n7 lib osc.j6 osc.m7)) ∧
      ((chain.jac * chain.mass⁻¹) *ᵥ c.tauNull lib chain = 0 ∧
        IsIdempotentElem (projector lib chain)) ∧
      ∀ same : ChainDynamics ℝ 7, same.jac = osc.j6 → same.mass = osc.m7 →
        projector lib same = n7 lib osc.j6 osc.m7 := by
  have oscProjector : n7 lib osc.j6 osc.m7 = taskProjector osc.j6 osc.m7 :=
    n7_eq exact oscRank oscDefinite
  have chainProjector : projector lib chain = taskProjector chain.jac chain.mass :=
    projector_eq exact chainRank chainDefinite
  refine ⟨⟨?_, ?_⟩, ⟨?_, ?_⟩, fun same sameJac sameMass => ?_⟩
  · rw [Impedance.tauNull, oscProjector]
    exact mul_projected oscRank oscDefinite _
  · rw [oscProjector]
    exact isIdempotentElem_taskProjector (posDef_taskInertia oscDefinite oscRank).isUnit
  · unfold CartesianImpedanceController.tauNull
    split
    · rw [chainProjector]
      exact mul_projected chainRank chainDefinite _
    · exact mulVec_zero _
  · rw [chainProjector]
    exact isIdempotentElem_taskProjector (posDef_taskInertia chainDefinite chainRank).isUnit
  · rw [oscProjector, projector_eq exact (by rwa [sameJac]) (by rwa [sameMass]), sameJac, sameMass]

/-! ## A concrete arm -/

/-- Six joints that move the end effector one axis each, and one that does not move it. -/
def axes : Matrix (Fin 6) (Fin 7) ℝ := (1 : Matrix (Fin 7) (Fin 7) ℝ).submatrix Fin.castSucc id

theorem rank_axes : axes.rank = 6 := by
  have gram : axes * axesᵀ = 1 := by
    rw [axes, transpose_submatrix, transpose_one,
      ← submatrix_mul _ _ _ _ _ Function.bijective_id, Matrix.one_mul,
      submatrix_one _ (Fin.castSucc_injective 6)]
  rw [← rank_self_mul_transpose, gram, rank_one, Fintype.card_fin]

def axesOsc : OscDynamics ℝ := ⟨⟨0, 1⟩, axes, 1, 0, 0⟩

def axesChain : ChainDynamics ℝ 7 :=
  ⟨fun _ => 1, fun _ => 1, axes, 1, 0, 0, 0, 1, 0, 0, 0⟩

theorem m7_axesOsc : axesOsc.m7 = 1 := by
  ext i j
  simp [OscDynamics.m7, axesOsc, Matrix.one_apply, eq_comm]

/-- A stiff posture. -/
def axesController : CartesianImpedanceController ℝ 7 := ⟨10, 6, 0, true, true, true, 0⟩

noncomputable def axesConfig : OscConfig ℝ := { OscConfig.default with kpNull := 10 }

theorem nullSpace_invisible_axes :
    (axesOsc.j6 * axesOsc.m7⁻¹) *ᵥ
        tauNull Eigen.real axesConfig (fun _ => 1) (fun _ => 1) axesOsc = 0 ∧
      (axesChain.jac * axesChain.mass⁻¹) *ᵥ axesController.tauNull Eigen.real axesChain = 0 := by
  have oscDefinite : axesOsc.m7.PosDef := by
    rw [m7_axesOsc]
    exact .one
  have chainDefinite : axesChain.mass.PosDef := Matrix.PosDef.one
  obtain ⟨⟨osc, -⟩, ⟨chain, -⟩, -⟩ :=
    @nullSpace_invisible Eigen.real Eigen.real_exact 7 axesConfig (fun _ => 1) (fun _ => 1) axesOsc
      rank_axes oscDefinite axesController axesChain rank_axes chainDefinite
  exact ⟨osc, chain⟩

end FrankaRos.Impedance
