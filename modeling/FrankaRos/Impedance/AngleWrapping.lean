/-
# Impedance.AngleWrapping -- two ways to wrap an angle

The operational-space controller wraps an angle with one `fmod`, the processor of the
policy takes off full turns in a loop.  Both keep the angle up to full turns.  The first
ends in a half-open half turn, the second in the closed one, so they can only disagree
where both its ends are one direction.
-/
import FrankaRos.Impedance.OscTorque
import FrankaRos.RlAction.ActionBounds

namespace FrankaRos.Impedance

open FrankaRos.Theory AddCommGroup
open FrankaRos.RlAction (Trigonometry)
open FrankaRos.RlAction.Trigonometry

set_option autoImplicit false

section Fmod

variable {R : Type} [Field R] [LinearOrder R] [IsStrictOrderedRing R] [FloorRing R]

omit [IsStrictOrderedRing R] in
/-- `fmod` takes off whole divisors. -/
theorem fmod_modEq (x y : R) : fmod x y ≡ x [PMOD y] := by
  have whole (turns : Int) : x - turns * y ≡ x [PMOD y] := by
    rw [← zsmul_eq_mul, sub_eq_add_neg, ← neg_zsmul]
    exact add_zsmul_modEq _
  exact whole _

/-- Of a number that is not negative, less than the divisor is left. -/
theorem fmod_of_nonneg {x y : R} (positive : 0 < y) (nonneg : 0 ≤ x) :
    0 ≤ fmod x y ∧ fmod x y < y := by
  have sign : 0 ≤ x / y := div_nonneg nonneg positive.le
  have low := Int.floor_le (x / y)
  have high := Int.lt_floor_add_one (x / y)
  rw [le_div_iff₀ positive] at low
  rw [div_lt_iff₀ positive, add_one_mul] at high
  simp only [fmod, if_pos sign]
  exact ⟨sub_nonneg.2 low, sub_lt_iff_lt_add'.2 high⟩

/-- Of a negative number, more than the negated divisor is left, and nothing positive. -/
theorem fmod_of_neg {x y : R} (positive : 0 < y) (negative : x < 0) :
    -y < fmod x y ∧ fmod x y ≤ 0 := by
  have sign : ¬ 0 ≤ x / y := not_le.2 (div_neg_of_neg_of_pos negative positive)
  have low := Int.le_ceil (x / y)
  have high := Int.ceil_lt_add_one (x / y)
  rw [div_le_iff₀ positive] at low
  have high' : (⌈x / y⌉ : R) * y < x + y := by
    have scaled := mul_lt_mul_of_pos_right high positive
    rwa [add_one_mul, div_mul_cancel₀ x positive.ne'] at scaled
  simp only [fmod, if_neg sign]
  constructor <;> linarith

end Fmod

section Wrapped

variable {R : Type} [Field R] [LinearOrder R] [IsStrictOrderedRing R] [FloorRing R]
  [Trigonometry R]

omit [IsStrictOrderedRing R] in
theorem twoPi_eq : (2.0 * pi : R) = 2 * pi := by norm_num

omit [IsStrictOrderedRing R] in
/-- The angle the controller wraps is the same up to full turns. -/
theorem wrapToPi_modEq (x : R) : wrapToPi x ≡ x [PMOD 2 * pi] := by
  have rest := fmod_modEq (x + pi) (2 * pi)
  simp only [wrapToPi, twoPi_eq]
  rw [sub_modEq_iff_modEq_add]
  split
  · exact (add_modEq_left.2 self_modEq_zero).trans rest
  · exact rest

/-- It is within the half-open half turn. -/
theorem wrapToPi_range (x : R) : -pi ≤ wrapToPi x ∧ wrapToPi x < pi := by
  have turn : (0 : R) < 2 * pi := FrankaRos.RlAction.turn_pos
  simp only [wrapToPi, twoPi_eq]
  rcases lt_or_ge (x + pi) 0 with negative | nonneg
  · obtain ⟨low, high⟩ := fmod_of_neg turn negative
    split
    · constructor <;> linarith
    · constructor <;> linarith
  · obtain ⟨low, high⟩ := fmod_of_nonneg turn nonneg
    rw [if_neg (not_lt.2 low)]
    constructor <;> linarith

/-- The two agree, unless the angle is half a turn. -/
theorem wrapToPi_eq_or (x : R) :
    wrapToPi x = FrankaRos.RlAction.wrapToPi x ∨ x ≡ pi [PMOD 2 * pi] := by
  obtain ⟨low, high⟩ := wrapToPi_range x
  obtain ⟨low', high'⟩ := abs_le.1 (FrankaRos.RlAction.abs_wrapToPi_le x)
  have congruent := FrankaRos.RlAction.wrapToPi_modEq x
  rcases high'.lt_or_eq with below | atPi
  · refine .inl (eq_of_modEq ((wrapToPi_modEq x).trans congruent.symm) ?_)
    rw [abs_lt]
    constructor <;> linarith
  · rw [atPi] at congruent
    exact .inr congruent.symm

end Wrapped

/-- **Both wrap to the same angle**, and each within its range, except that an odd multiple
of half a turn has two ends to go to. -/
theorem wrapToPi_agrees (x : ℝ) :
    ((-Real.pi ≤ wrapToPi x ∧ wrapToPi x < Real.pi) ∧ wrapToPi x ≡ x [PMOD 2 * Real.pi]) ∧
      ((-Real.pi ≤ FrankaRos.RlAction.wrapToPi x ∧ FrankaRos.RlAction.wrapToPi x ≤ Real.pi) ∧
        FrankaRos.RlAction.wrapToPi x ≡ x [PMOD 2 * Real.pi]) ∧
      (wrapToPi x = FrankaRos.RlAction.wrapToPi x ∨ ∃ k : ℤ, x = (2 * k + 1) * Real.pi) := by
  refine ⟨⟨wrapToPi_range x, wrapToPi_modEq x⟩,
    ⟨abs_le.1 (FrankaRos.RlAction.abs_wrapToPi_le x), FrankaRos.RlAction.wrapToPi_modEq x⟩,
    (wrapToPi_eq_or x).imp_right fun half => ?_⟩
  obtain ⟨turns, apart⟩ := modEq_iff_zsmul.1 half
  refine ⟨-turns, ?_⟩
  have difference : (turns : ℝ) * (2 * Real.pi) = Real.pi - x := by
    rw [← zsmul_eq_mul]
    exact apart
  push_cast
  linarith

end FrankaRos.Impedance
