/-
# Theory.SignedDistance -- the distance to an intersection of two slabs

A point exceeds two bounds by `a` and by `b`, in directions at right angles; where both
excesses are negative it is inside.  `signedDistance` is the usual form of its distance to
the border: the Euclidean distance outside, the smaller of the two gaps, negative, inside.
It is increasing in either excess (`signedDistance_mono`) and never grows faster than the
excess does (`signedDistance_add_le`), across the borders of the regions too: what the
outside term takes up where an excess is positive, the inside term takes up where it is
negative (`max_add_min`).

`smoothedDistance` adds `e²` under the root, as one does to differentiate it; that costs
`e` at most (`smoothedDistance_mem`).
-/
import Mathlib

namespace FrankaRos.Theory

set_option autoImplicit false

/-! ## Roots -/

theorem sqrt_le_sqrt_add_sq (x e : ℝ) : √x ≤ √(x + e ^ 2) :=
  Real.sqrt_le_sqrt (le_add_of_nonneg_right (sq_nonneg e))

/-- A root whose argument is moved by `e²` moves by `e` at most. -/
theorem sqrt_add_sq_le {x e : ℝ} (hx : 0 ≤ x) (he : 0 ≤ e) : √(x + e ^ 2) ≤ √x + e := by
  rw [Real.sqrt_le_left (add_nonneg (Real.sqrt_nonneg x) he), add_sq, Real.sq_sqrt hx]
  have cross : 0 ≤ 2 * √x * e := mul_nonneg (mul_nonneg zero_le_two (Real.sqrt_nonneg x)) he
  linarith

/-- A leg of a right triangle that grows by `d` lets the hypotenuse grow by `d` at most. -/
theorem sqrt_leg_add_le {a c d : ℝ} (hc : 0 ≤ c) (hd : 0 ≤ d) :
    √((a + d) ^ 2 + c) ≤ √(a ^ 2 + c) + d := by
  have leg : a ≤ √(a ^ 2 + c) := Real.le_sqrt_of_sq_le (le_add_of_nonneg_right hc)
  rw [Real.sqrt_le_left (add_nonneg (Real.sqrt_nonneg _) hd), add_sq, add_sq,
    Real.sq_sqrt (add_nonneg (sq_nonneg a) hc)]
  have cross : a * d ≤ √(a ^ 2 + c) * d := mul_le_mul_of_nonneg_right leg hd
  linarith

/-! ## The distance -/

/-- The part outside and the part inside. -/
noncomputable def signedDistance (a b : ℝ) : ℝ := √(max a 0 ^ 2 + max b 0 ^ 2) + min (max a b) 0

/-- The same with `e²` under the root. -/
noncomputable def smoothedDistance (e a b : ℝ) : ℝ :=
  √(max a 0 ^ 2 + max b 0 ^ 2 + e ^ 2) + min (max a b) 0

theorem signedDistance_mono {a a' : ℝ} (le : a ≤ a') (b : ℝ) :
    signedDistance a b ≤ signedDistance a' b := by
  have positive : max a 0 ≤ max a' 0 := max_le_max_right 0 le
  refine add_le_add (Real.sqrt_le_sqrt ?_) (min_le_min_right 0 (max_le_max_right b le))
  exact add_le_add_left (pow_le_pow_left₀ (le_max_right a 0) positive 2) _

/-- Lipschitz in the excess. -/
theorem signedDistance_add_le {e : ℝ} (he : 0 ≤ e) (a b : ℝ) :
    signedDistance (a + e) b ≤ signedDistance a b + e := by
  -- the excess grows by `d` above zero and by the rest below
  have below : a ≤ a + e := le_add_of_nonneg_right he
  have split : max (a + e) 0 - max a 0 + (min (a + e) 0 - min a 0) = e := by
    have new := max_add_min (a + e) 0
    have old := max_add_min a 0
    linarith
  have outside : √(max (a + e) 0 ^ 2 + max b 0 ^ 2) ≤
      √(max a 0 ^ 2 + max b 0 ^ 2) + (max (a + e) 0 - max a 0) := by
    have grown := sqrt_leg_add_le (a := max a 0) (sq_nonneg (max b 0))
      (sub_nonneg.2 (max_le_max_right 0 below))
    rwa [add_sub_cancel] at grown
  have inside : min (max (a + e) b) 0 ≤ min (max a b) 0 + (min (a + e) 0 - min a 0) := by
    have gap : 0 ≤ min (a + e) 0 - min a 0 := sub_nonneg.2 (min_le_min_right 0 below)
    rw [min_max_distrib_right, min_max_distrib_right]
    refine max_le ?_ (le_add_of_le_of_nonneg (le_max_right _ _) gap)
    calc min (a + e) 0 = min a 0 + (min (a + e) 0 - min a 0) := (add_sub_cancel _ _).symm
      _ ≤ max (min a 0) (min b 0) + (min (a + e) 0 - min a 0) :=
            add_le_add_left (le_max_left _ _) _
  calc signedDistance (a + e) b
      ≤ √(max a 0 ^ 2 + max b 0 ^ 2) + (max (a + e) 0 - max a 0) +
          (min (max a b) 0 + (min (a + e) 0 - min a 0)) := add_le_add outside inside
    _ = signedDistance a b + e := by
          rw [signedDistance]
          linarith

theorem signedDistance_nonpos_iff (a b : ℝ) : signedDistance a b ≤ 0 ↔ a ≤ 0 ∧ b ≤ 0 := by
  constructor
  · intro inside
    by_contra outside
    -- then the inside part vanishes and the root does not
    have excess : 0 < max a b := by
      rw [lt_max_iff]
      by_contra neither
      rw [not_or, not_lt, not_lt] at neither
      exact outside neither
    have root : 0 < √(max a 0 ^ 2 + max b 0 ^ 2) := by
      refine Real.sqrt_pos.2 ?_
      rcases lt_max_iff.1 excess with ha | hb
      · exact add_pos_of_pos_of_nonneg (pow_pos (lt_max_of_lt_left ha) 2) (sq_nonneg _)
      · exact add_pos_of_nonneg_of_pos (sq_nonneg _) (pow_pos (lt_max_of_lt_left hb) 2)
    rw [signedDistance, min_eq_right excess.le, add_zero] at inside
    exact absurd inside (not_le.2 root)
  · rintro ⟨ha, hb⟩
    rw [signedDistance, max_eq_right ha, max_eq_right hb, zero_pow two_ne_zero, add_zero,
      Real.sqrt_zero, zero_add]
    exact min_le_right _ _

/-- Outside, the distance is the root; inside, the root vanishes. -/
theorem max_signedDistance_zero (a b : ℝ) :
    max (signedDistance a b) 0 = √(max a 0 ^ 2 + max b 0 ^ 2) := by
  rcases le_or_gt (max a b) 0 with inside | outside
  · have both := max_le_iff.1 inside
    rw [max_eq_right ((signedDistance_nonpos_iff a b).2 both), max_eq_right both.1,
      max_eq_right both.2, zero_pow two_ne_zero, add_zero, Real.sqrt_zero]
  · rw [signedDistance, min_eq_right outside.le, add_zero, max_eq_left (Real.sqrt_nonneg _)]

/-! ## The nearest point

What is at a distance `d` comes within `m` if it is scaled by `shrink d m`. -/

noncomputable def shrink (d m : ℝ) : ℝ := min 1 (m / d)

theorem shrink_nonneg {d m : ℝ} (hd : 0 ≤ d) (hm : 0 ≤ m) : 0 ≤ shrink d m :=
  le_min zero_le_one (div_nonneg hm hd)

theorem shrink_mul {d m : ℝ} (hd : 0 ≤ d) (hm : 0 ≤ m) : shrink d m * d = min d m := by
  rcases hd.eq_or_lt with rfl | pos
  · rw [mul_zero, min_eq_left hm]
  · rw [shrink, min_mul_of_nonneg _ _ hd, one_mul, div_mul_cancel₀ m pos.ne']

/-- How far it has to go. -/
theorem one_sub_shrink_mul {d m : ℝ} (hd : 0 ≤ d) (hm : 0 ≤ m) :
    (1 - shrink d m) * d = max (d - m) 0 := by
  rw [sub_mul, one_mul, shrink_mul hd hm]
  have parts := max_sub_sub_left d d m
  rw [sub_self, max_comm] at parts
  exact parts.symm

/-! ## Smoothing -/

/-- What smoothing costs. -/
theorem smoothedDistance_mem {e : ℝ} (he : 0 ≤ e) (a b : ℝ) :
    signedDistance a b ≤ smoothedDistance e a b ∧
      smoothedDistance e a b ≤ signedDistance a b + e := by
  constructor
  · exact add_le_add_left (sqrt_le_sqrt_add_sq _ e) _
  · have root := sqrt_add_sq_le (add_nonneg (sq_nonneg (max a 0)) (sq_nonneg (max b 0))) he
    rw [smoothedDistance, signedDistance, add_right_comm _ (min _ _)]
    exact add_le_add_left root _

end FrankaRos.Theory
