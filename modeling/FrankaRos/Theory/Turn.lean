/-
# Theory.Turn -- angles up to full turns

Angles are the elements of an ordered field, equal up to full turns by Mathlib's congruence
modulo a period.  `Near` says that two of them are close on the circle; an angle is limited
to what is near a reference by clamping its difference from it, once that difference has
been brought into half a turn (`near_of_clamp`, `modEq_of_clamp`).  The limit must leave
room: two differences of one angle, both small, are the same (`eq_of_modEq`).

`ceil_div_sub_lt` is why a loop that takes a full turn away at a time ends.
-/
import Mathlib.Algebra.Group.ModEq
import Mathlib.Algebra.Order.Archimedean.Basic
import Mathlib.Algebra.Order.Floor.Semiring
import Mathlib.Tactic.Linarith

namespace FrankaRos.Theory

set_option autoImplicit false

open AddCommGroup

universe u

variable {R : Type u} [Field R] [LinearOrder R] [IsStrictOrderedRing R]

/-- One period less takes one off the periods left. -/
theorem ceil_div_sub_lt [FloorSemiring R] {period a : R} (positive : 0 < period) (above : 0 < a) :
    ⌈(a - period) / period⌉₊ < ⌈a / period⌉₊ := by
  rw [sub_div, div_self positive.ne', Nat.ceil_sub_one]
  exact Nat.sub_lt (Nat.ceil_pos.2 (div_pos above positive)) one_pos

/-- Congruent numbers that are less than a period apart are the same. -/
theorem eq_of_modEq {period a b : R} (congruent : a ≡ b [PMOD period]) (close : |b - a| < period) :
    a = b := by
  obtain ⟨turns, apart⟩ := modEq_iff_zsmul.1 congruent
  have positive : 0 < period := (abs_nonneg _).trans_lt close
  rw [← apart, zsmul_eq_mul, abs_mul, abs_of_pos positive, mul_lt_iff_lt_one_left positive] at close
  have none : turns = 0 := Int.abs_lt_one_iff.1 (by exact_mod_cast close)
  rw [none, zero_zsmul] at apart
  exact (sub_eq_zero.1 apart.symm).symm

/-- `a` differs from `reference` by at most `limit`, up to full turns. -/
def Near (turn limit reference a : R) : Prop := ∃ d, a ≡ reference + d [PMOD turn] ∧ |d| ≤ limit

/-- A clamped number is within the limit. -/
theorem abs_clamp_le {limit : R} (nonneg : 0 ≤ limit) (d : R) :
    |max (-limit) (min d limit)| ≤ limit := by
  rw [abs_le]
  exact ⟨le_max_left _ _, max_le (by linarith) (min_le_right _ _)⟩

/-- Clamping leaves alone what is within the limit. -/
theorem clamp_of_abs_le {limit d : R} (within : |d| ≤ limit) : max (-limit) (min d limit) = d := by
  obtain ⟨low, high⟩ := abs_le.1 within
  rw [min_eq_left high, max_eq_right low]

section Limit

variable {turn limit reference raw d target : R}

/-- An angle at a clamped difference from the reference is near it. -/
theorem near_of_clamp (nonneg : 0 ≤ limit)
    (moved : target ≡ reference + max (-limit) (min d limit) [PMOD turn]) :
    Near turn limit reference target :=
  ⟨_, moved, abs_clamp_le nonneg d⟩

/-- An angle near the reference is kept, if its difference was taken within half a turn. -/
theorem modEq_of_clamp (room : 2 * limit < turn) (taken : raw - reference ≡ d [PMOD turn])
    (half : 2 * |d| ≤ turn) (moved : target ≡ reference + max (-limit) (min d limit) [PMOD turn])
    (near : Near turn limit reference raw) : target ≡ raw [PMOD turn] := by
  obtain ⟨d', there, small⟩ := near
  have same : d = d' := by
    refine eq_of_modEq (taken.symm.trans (sub_modEq_iff_modEq_add'.2 there)) ?_
    have apart := abs_sub d' d
    linarith
  rw [same, clamp_of_abs_le small] at moved
  exact moved.trans there.symm

end Limit

end FrankaRos.Theory
