/-
# Theory.RigidMotion -- frames, twists, and the twist a frame moves with

A frame is a rotation and a translation, a twist the velocity of a rigid body: that of the
point at its reference, and the angular one.  `Moves F t x` says with which twist `t`,
taken at the origin, a frame `F` moves at `x`.  What a moving frame carries along moves
with it (`Moves.carry`), and two motions one after the other add their twists
(`Moves.comp`).

Rotations enter by what is used of them: that they are orthogonal and keep vector products.
`axisRotation` is the rotation about a unit axis, which is one (`axisRotation_rotation`),
and turns with that axis (`hasDerivAt_axisRotation`).
-/
import Mathlib

namespace FrankaRos.Theory.Rigid

open Matrix

set_option autoImplicit false

universe u

/-! ## Frames and twists -/

section Frames

variable {R : Type u} [CommRing R]

abbrev Vec3 (R : Type u) := Fin 3 → R

structure Frame (R : Type u) where
  M : Matrix (Fin 3) (Fin 3) R
  p : Vec3 R

/-- The linear and the angular velocity. -/
abbrev Twist (R : Type u) := Vec3 R × Vec3 R

abbrev Twist.vel (t : Twist R) : Vec3 R := t.1

abbrev Twist.rot (t : Twist R) : Vec3 R := t.2

namespace Frame

def identity : Frame R := ⟨1, 0⟩

/-- The second frame is given in the first. -/
def comp (F G : Frame R) : Frame R := ⟨F.M * G.M, F.M *ᵥ G.p + F.p⟩

end Frame

namespace Twist

omit [CommRing R] in
@[simp] theorem vel_mk (v w : Vec3 R) : vel (v, w) = v := rfl

omit [CommRing R] in
@[simp] theorem rot_mk (v w : Vec3 R) : rot (v, w) = w := rfl

@[simp] theorem vel_add (t s : Twist R) : (t + s).vel = t.vel + s.vel := rfl

@[simp] theorem rot_add (t s : Twist R) : (t + s).rot = t.rot + s.rot := rfl

@[simp] theorem vel_smul (c : R) (t : Twist R) : vel (c • t) = c • t.vel := rfl

@[simp] theorem rot_smul (c : R) (t : Twist R) : rot (c • t) = c • t.rot := rfl

@[simp] theorem vel_zero : vel (0 : Twist R) = 0 := rfl

@[simp] theorem rot_zero : rot (0 : Twist R) = 0 := rfl

/-- The twist in another base. -/
def changeBase (M : Matrix (Fin 3) (Fin 3) R) (t : Twist R) : Twist R := (M *ᵥ t.vel, M *ᵥ t.rot)

/-- The product of two twists taken at one point. -/
def cross (t s : Twist R) : Twist R := (t.rot ⨯₃ s.vel + t.vel ⨯₃ s.rot, t.rot ⨯₃ s.rot)

/-- The twist at another point of the body, `d` away. -/
def changeRefPoint (t : Twist R) (d : Vec3 R) : Twist R := (t.vel + t.rot ⨯₃ d, t.rot)

theorem changeBase_add (M : Matrix (Fin 3) (Fin 3) R) (t s : Twist R) :
    (t + s).changeBase M = t.changeBase M + s.changeBase M := by
  simp [changeBase, mulVec_add]

theorem changeBase_smul (M : Matrix (Fin 3) (Fin 3) R) (c : R) (t : Twist R) :
    changeBase M (c • t) = c • t.changeBase M := by
  simp [changeBase, mulVec_smul]

@[simp] theorem changeBase_zero (M : Matrix (Fin 3) (Fin 3) R) :
    changeBase M (0 : Twist R) = 0 := by
  simp [changeBase]

@[simp] theorem changeBase_one (t : Twist R) : t.changeBase 1 = t := by
  simp [changeBase]

theorem changeRefPoint_add (t s : Twist R) (d : Vec3 R) :
    (t + s).changeRefPoint d = t.changeRefPoint d + s.changeRefPoint d := by
  simp only [changeRefPoint, Prod.fst_add, Prod.snd_add, map_add, LinearMap.add_apply,
    Prod.mk_add_mk]
  congr 1
  abel

theorem changeRefPoint_smul (c : R) (t : Twist R) (d : Vec3 R) :
    changeRefPoint (c • t) d = c • t.changeRefPoint d := by
  simp [changeRefPoint]

@[simp] theorem changeRefPoint_zero (d : Vec3 R) : changeRefPoint (0 : Twist R) d = 0 := by
  simp [changeRefPoint]

theorem changeRefPoint_changeRefPoint (t : Twist R) (d e : Vec3 R) :
    (t.changeRefPoint d).changeRefPoint e = t.changeRefPoint (d + e) := by
  simp [changeRefPoint, add_assoc]

@[simp] theorem changeRefPoint_zero_right (t : Twist R) : t.changeRefPoint 0 = t := by
  simp [changeRefPoint]

@[simp] theorem changeRefPoint_neg_self (t : Twist R) (d : Vec3 R) :
    (t.changeRefPoint (-d)).changeRefPoint d = t := by
  rw [changeRefPoint_changeRefPoint, neg_add_cancel, changeRefPoint_zero_right]

@[simp] theorem changeRefPoint_self_neg (t : Twist R) (d : Vec3 R) :
    (t.changeRefPoint d).changeRefPoint (-d) = t := by
  rw [changeRefPoint_changeRefPoint, add_neg_cancel, changeRefPoint_zero_right]

end Twist

/-- What is used of a rotation matrix. -/
structure Rotation (M : Matrix (Fin 3) (Fin 3) R) : Prop where
  orthogonal : Mᵀ * M = 1
  cross : ∀ v w, M *ᵥ (v ⨯₃ w) = (M *ᵥ v) ⨯₃ (M *ᵥ w)

namespace Rotation

variable {M N : Matrix (Fin 3) (Fin 3) R}

theorem one : Rotation (1 : Matrix (Fin 3) (Fin 3) R) := ⟨by simp, by simp⟩

theorem mul (rotM : Rotation M) (rotN : Rotation N) : Rotation (M * N) where
  orthogonal := by
    calc (M * N)ᵀ * (M * N) = Nᵀ * (Mᵀ * M) * N := by
          rw [transpose_mul, Matrix.mul_assoc, Matrix.mul_assoc, Matrix.mul_assoc]
      _ = 1 := by rw [rotM.orthogonal, Matrix.mul_one, rotN.orthogonal]
  cross v w := by
    rw [← mulVec_mulVec, rotN.cross, rotM.cross, mulVec_mulVec, mulVec_mulVec]

theorem changeBase_changeRefPoint (rot : Rotation M) (t : Twist R) (d : Vec3 R) :
    (t.changeRefPoint d).changeBase M = (t.changeBase M).changeRefPoint (M *ᵥ d) := by
  simp [Twist.changeBase, Twist.changeRefPoint, mulVec_add, rot.cross]

theorem transpose_mulVec_mulVec (rot : Rotation M) (v : Vec3 R) : Mᵀ *ᵥ (M *ᵥ v) = v := by
  rw [mulVec_mulVec, rot.orthogonal, one_mulVec]

theorem mulVec_transpose_mulVec (rot : Rotation M) (v : Vec3 R) : M *ᵥ (Mᵀ *ᵥ v) = v := by
  rw [mulVec_mulVec, mul_eq_one_comm.1 rot.orthogonal, one_mulVec]

/-- Its inverse is one, too. -/
theorem transpose (rot : Rotation M) : Rotation Mᵀ where
  orthogonal := by rw [transpose_transpose, mul_eq_one_comm.1 rot.orthogonal]
  cross v w := by
    have there := rot.cross (Mᵀ *ᵥ v) (Mᵀ *ᵥ w)
    rw [rot.mulVec_transpose_mulVec, rot.mulVec_transpose_mulVec] at there
    rw [← there, rot.transpose_mulVec_mulVec]

end Rotation

end Frames

/-! ## Moving frames -/

/-- Vector products follow the product rule. -/
theorem hasDerivAt_cross {f g : ℝ → Vec3 ℝ} {f' g' : Vec3 ℝ} {x : ℝ} (left : HasDerivAt f f' x)
    (right : HasDerivAt g g' x) : HasDerivAt (fun s => f s ⨯₃ g s) (f' ⨯₃ g x + f x ⨯₃ g') x := by
  rw [hasDerivAt_pi] at left right ⊢
  intro i
  simp only [cross_apply, Pi.add_apply]
  fin_cases i
  · exact (((left 1).mul (right 2)).sub ((left 2).mul (right 1))).congr_deriv (by simp; ring)
  · exact (((left 2).mul (right 0)).sub ((left 0).mul (right 2))).congr_deriv (by simp; ring)
  · exact (((left 0).mul (right 1)).sub ((left 1).mul (right 0))).congr_deriv (by simp; ring)

theorem hasDerivAt_twist {f : ℝ → Twist ℝ} {f' : Twist ℝ} {x : ℝ} :
    HasDerivAt f f' x ↔ HasDerivAt (fun s => (f s).vel) f'.vel x ∧
      HasDerivAt (fun s => (f s).rot) f'.rot x := by
  constructor
  · intro whole
    exact ⟨by simpa using whole.hasFDerivAt.fst.hasDerivAt,
      by simpa using whole.hasFDerivAt.snd.hasDerivAt⟩
  · rintro ⟨linear, angular⟩
    exact linear.prodMk angular

/-- A frame that moves at `x` with the twist `t`, taken at the origin. -/
structure Moves (F : ℝ → Frame ℝ) (t : Twist ℝ) (x : ℝ) : Prop where
  rotates : ∀ v, HasDerivAt (fun s => (F s).M *ᵥ v) (t.rot ⨯₃ ((F x).M *ᵥ v)) x
  shifts : HasDerivAt (fun s => (F s).p) (t.vel + t.rot ⨯₃ (F x).p) x

namespace Moves

theorem const (F : Frame ℝ) (x : ℝ) : Moves (fun _ => F) 0 x where
  rotates v := by simpa using hasDerivAt_const x (F.M *ᵥ v)
  shifts := by simpa using hasDerivAt_const x F.p

variable {F G : ℝ → Frame ℝ} {t s : Twist ℝ} {x : ℝ}

/-- What moves in a moving frame turns with it, on top of its own motion. -/
theorem carry (moves : Moves F t x) {g : ℝ → Vec3 ℝ} {g' : Vec3 ℝ} (inner : HasDerivAt g g' x) :
    HasDerivAt (fun y => (F y).M *ᵥ g y) (t.rot ⨯₃ ((F x).M *ᵥ g x) + (F x).M *ᵥ g') x := by
  -- the entries of the matrix, one product rule each
  have columns : ∀ k i, HasDerivAt (fun y => (F y).M i k)
      ((t.rot ⨯₃ ((F x).M *ᵥ Pi.single k 1)) i) x := by
    intro k i
    simpa using (hasDerivAt_pi.1 (moves.rotates (Pi.single k 1))) i
  have whole : ∀ y, (F y).M *ᵥ g y = ∑ k, g y k • ((F y).M *ᵥ Pi.single k 1) := by
    intro y
    ext i
    simp [mulVec, dotProduct, mul_comm]
  simp only [whole]
  have terms : HasDerivAt (fun y => ∑ k, g y k • ((F y).M *ᵥ Pi.single k 1))
      (∑ k, (g x k • (t.rot ⨯₃ ((F x).M *ᵥ Pi.single k 1)) +
        g' k • ((F x).M *ᵥ Pi.single k 1))) x := by
    apply HasDerivAt.fun_sum
    intro k _
    exact ((hasDerivAt_pi.1 inner k).fun_smul (moves.rotates (Pi.single k 1)))
  apply terms.congr_deriv
  rw [Finset.sum_add_distrib]
  congr 1
  · rw [map_sum]
    simp
  · ext i
    simp [mulVec, dotProduct, mul_comm]

/-- A twist carried along. -/
theorem carry_twist (moves : Moves F t x) {g : ℝ → Twist ℝ} {g' : Twist ℝ}
    (inner : HasDerivAt g g' x) :
    HasDerivAt (fun y => (g y).changeBase (F y).M)
      ((t.rot ⨯₃ ((g x).changeBase (F x).M).vel, t.rot ⨯₃ ((g x).changeBase (F x).M).rot) +
        g'.changeBase (F x).M) x :=
  (moves.carry (hasDerivAt_twist.1 inner).1).prodMk (moves.carry (hasDerivAt_twist.1 inner).2)

/-- Seen from a moving frame everything turns the other way. -/
theorem seen (moves : Moves F t x) {g : ℝ → Vec3 ℝ} {g' : Vec3 ℝ} (inner : HasDerivAt g g' x) :
    HasDerivAt (fun y => (F y).Mᵀ *ᵥ g y) ((F x).Mᵀ *ᵥ (g' - t.rot ⨯₃ g x)) x := by
  rw [hasDerivAt_pi]
  intro i
  have entry : ∀ y w, ((F y).Mᵀ *ᵥ w) i = ((F y).M *ᵥ Pi.single i 1) ⬝ᵥ w := by
    intro y w
    rw [mulVec_single_one]
    rfl
  simp only [entry]
  have product : HasDerivAt (fun y => ((F y).M *ᵥ Pi.single i 1) ⬝ᵥ g y)
      (∑ k, ((t.rot ⨯₃ ((F x).M *ᵥ Pi.single i 1)) k * g x k +
        ((F x).M *ᵥ Pi.single i 1) k * g' k)) x := by
    apply HasDerivAt.fun_sum
    intro k _
    exact (hasDerivAt_pi.1 (moves.rotates (Pi.single i 1)) k).mul (hasDerivAt_pi.1 inner k)
  apply product.congr_deriv
  generalize (F x).M *ᵥ Pi.single i 1 = e
  have turn : (t.rot ⨯₃ e) ⬝ᵥ g x = -(e ⬝ᵥ t.rot ⨯₃ g x) := by
    rw [dotProduct_comm, triple_product_permutation, triple_product_permutation,
      ← cross_anticomm, dotProduct_neg]
  rw [Finset.sum_add_distrib, dotProduct_sub, sub_eq_neg_add, ← turn]
  rfl

/-- Motions one after the other. -/
theorem comp (outer : Moves F t x) (inner : Moves G s x) (rot : Rotation (F x).M) :
    Moves (fun y => (F y).comp (G y))
      (t + ((s.changeBase (F x).M).changeRefPoint (-(F x).p))) x where
  rotates v := by
    have carried := outer.carry (inner.rotates v)
    simp only [Frame.comp, ← mulVec_mulVec]
    apply carried.congr_deriv
    simp [Twist.changeBase, Twist.changeRefPoint, rot.cross]
  shifts := by
    have carried := (outer.carry inner.shifts).add outer.shifts
    simp only [Frame.comp]
    apply carried.congr_deriv
    simp only [Twist.changeBase, Twist.changeRefPoint, Prod.fst_add, Prod.snd_add, mulVec_add,
      rot.cross, map_add, LinearMap.add_apply, map_neg]
    abel

/-- Run through by a parameter that itself moves. -/
theorem param {y : ℝ → ℝ} {y' : ℝ} (moves : Moves F t (y x)) (runs : HasDerivAt y y' x) :
    Moves (fun s => F (y s)) (y' • t) x where
  rotates v := by
    have chain := (moves.rotates v).scomp x runs
    simpa [Function.comp_def] using chain
  shifts := by
    have chain := moves.shifts.scomp x runs
    simpa [Function.comp_def] using chain

/-- The point at the frame moves with the twist taken there. -/
theorem position (moves : Moves F t x) :
    HasDerivAt (fun y => (F y).p) (t.changeRefPoint (F x).p).vel x := moves.shifts

end Moves

/-! ## Rotations about an axis -/

/-- The part along the axis stays, the rest turns in its plane. -/
noncomputable def axisRotation (axis : Vec3 ℝ) (angle : ℝ) : Matrix (Fin 3) (Fin 3) ℝ :=
  LinearMap.toMatrix' ((1 - Real.cos angle) • (LinearMap.toSpanSingleton ℝ (Vec3 ℝ) axis ∘ₗ
    dotProductBilin ℝ ℝ axis) + Real.cos angle • LinearMap.id + Real.sin angle • crossProduct axis)

theorem axisRotation_mulVec (axis : Vec3 ℝ) (angle : ℝ) (v : Vec3 ℝ) :
    axisRotation axis angle *ᵥ v = ((1 - Real.cos angle) * (axis ⬝ᵥ v)) • axis +
      Real.cos angle • v + Real.sin angle • (axis ⨯₃ v) := by
  rw [axisRotation, LinearMap.toMatrix'_mulVec]
  simp [mul_smul, dotProductBilin]

theorem transpose_axisRotation (axis : Vec3 ℝ) (angle : ℝ) :
    (axisRotation axis angle)ᵀ = axisRotation axis (-angle) := by
  ext i j
  rw [transpose_apply, axisRotation, axisRotation, LinearMap.toMatrix'_apply,
    LinearMap.toMatrix'_apply]
  fin_cases i <;> fin_cases j <;> simp [dotProductBilin, cross_apply, mul_comm]

section Unit

variable {axis : Vec3 ℝ} (unit : axis ⬝ᵥ axis = 1) (angle : ℝ)

include unit

/-- Nothing moves along the axis. -/
theorem axis_dot_axisRotation (v : Vec3 ℝ) :
    axis ⬝ᵥ (axisRotation axis angle *ᵥ v) = axis ⬝ᵥ v := by
  simp only [axisRotation_mulVec, dotProduct_add, dotProduct_smul, unit, smul_eq_mul,
    dot_self_cross]
  ring

theorem axis_cross_axisRotation (v : Vec3 ℝ) :
    axis ⨯₃ (axisRotation axis angle *ᵥ v) = Real.cos angle • (axis ⨯₃ v) +
      Real.sin angle • ((axis ⬝ᵥ v) • axis - v) := by
  have plane : axis ⨯₃ (axis ⨯₃ v) = (axis ⬝ᵥ v) • axis - v := by
    rw [cross_cross_eq_smul_sub_smul', unit, one_smul]
  simp only [axisRotation_mulVec, map_add, map_smul, cross_self, smul_zero, zero_add, plane]

theorem axisRotation_neg_mulVec (v : Vec3 ℝ) :
    axisRotation axis (-angle) *ᵥ (axisRotation axis angle *ᵥ v) = v := by
  rw [axisRotation_mulVec, axis_dot_axisRotation unit, axis_cross_axisRotation unit,
    axisRotation_mulVec, Real.cos_neg, Real.sin_neg]
  calc _ = (Real.sin angle ^ 2 + Real.cos angle ^ 2) • (v - (axis ⬝ᵥ v) • axis) +
        (axis ⬝ᵥ v) • axis := by module
    _ = v := by rw [Real.sin_sq_add_cos_sq, one_smul, sub_add_cancel]

theorem axisRotation_cross (v w : Vec3 ℝ) :
    axisRotation axis angle *ᵥ (v ⨯₃ w) =
      (axisRotation axis angle *ᵥ v) ⨯₃ (axisRotation axis angle *ᵥ w) := by
  have circle := Real.sin_sq_add_cos_sq angle
  rw [vec3_dotProduct] at unit
  simp only [axisRotation_mulVec, vec3_dotProduct]
  generalize Real.sin angle = s, Real.cos angle = c at circle
  ext i
  -- an identity of polynomials, up to the two squares that are one
  fin_cases i <;>
    simp only [cross_apply, Pi.add_apply, Pi.smul_apply, smul_eq_mul, cons_val, Fin.isValue,
      Fin.mk_one, Fin.zero_eta, Fin.reduceFinMk] <;>
    grind

theorem axisRotation_rotation : Rotation (axisRotation axis angle) where
  orthogonal := by
    rw [transpose_axisRotation]
    apply ext_of_mulVec_single
    intro i
    rw [← mulVec_mulVec, axisRotation_neg_mulVec unit, one_mulVec]
  cross := axisRotation_cross unit angle

/-- It turns about its axis. -/
theorem hasDerivAt_axisRotation (v : Vec3 ℝ) :
    HasDerivAt (fun s => axisRotation axis s *ᵥ v) (axis ⨯₃ (axisRotation axis angle *ᵥ v))
      angle := by
  have cosine := Real.hasDerivAt_cos angle
  have along := ((cosine.const_sub 1).mul_const (axis ⬝ᵥ v)).smul_const axis
  have across := (cosine.smul_const v).add ((Real.hasDerivAt_sin angle).smul_const (axis ⨯₃ v))
  rw [axis_cross_axisRotation unit]
  simp only [axisRotation_mulVec, add_assoc]
  apply (along.add across).congr_deriv
  module

end Unit

end FrankaRos.Theory.Rigid
