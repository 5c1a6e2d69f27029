/-
# Theory.Contraction -- contractions that miss by a bounded amount

An error that shrinks by a factor at every step, up to a disturbance, need not vanish: it
can stay where the disturbance makes up for what the factor takes off.  `deadBand` is
that place.  A sequence that shrinks so falls towards it geometrically
(`Shrinks.le_geometric`), never rises above it and its start (`Shrinks.le_max`), and comes
within any distance of it for good (`Shrinks.eventually_within`).
-/
import Mathlib.Algebra.Order.Archimedean.Basic
import Mathlib.Tactic.Linarith

namespace FrankaRos.Theory

set_option autoImplicit false

universe u

variable {R : Type u} [Field R] [LinearOrder R] [IsStrictOrderedRing R] {a b : R}

/-- Where a factor `a` takes off what a disturbance `b` adds. -/
def deadBand (a b : R) : R := b / (1 - a)

omit [IsStrictOrderedRing R] in
theorem deadBand_balance (below : a < 1) : a * deadBand a b + b = deadBand a b := by
  have room : 1 - a ≠ 0 := sub_ne_zero.2 below.ne'
  have whole : deadBand a b * (1 - a) = b := div_mul_cancel₀ b room
  rw [mul_sub, mul_one, mul_comm, sub_eq_iff_eq_add'] at whole
  exact whole.symm

/-- An error that a step does not lower is inside. -/
theorem le_deadBand (below : a < 1) {x : R} (kept : x ≤ a * x + b) : x ≤ deadBand a b := by
  rw [deadBand, le_div_iff₀ (sub_pos.2 below)]
  linarith

/-- A sequence that shrinks by the factor `a` at every step, up to `b`. -/
structure Shrinks (a b : R) (e : ℕ → R) : Prop where
  nonneg : 0 ≤ a
  below : a < 1
  step : ∀ k, e (k + 1) ≤ a * e k + b

namespace Shrinks

variable {e : ℕ → R} (shrinks : Shrinks a b e)

include shrinks

/-- The distance from the band shrinks by the whole factor. -/
theorem sub_step (k : ℕ) : e (k + 1) - deadBand a b ≤ a * (e k - deadBand a b) := by
  have step := shrinks.step k
  have balance := deadBand_balance (b := b) shrinks.below
  linarith

theorem le_geometric (k : ℕ) : e k ≤ a ^ k * (e 0 - deadBand a b) + deadBand a b := by
  induction k with
  | zero => simp
  | succ k ih =>
      have before : e k - deadBand a b ≤ a ^ k * (e 0 - deadBand a b) := by linarith
      have scaled := mul_le_mul_of_nonneg_left before shrinks.nonneg
      have step := shrinks.sub_step k
      rw [pow_succ', mul_assoc]
      linarith

theorem le_max (k : ℕ) : e k ≤ max (e 0) (deadBand a b) := by
  induction k with
  | zero => exact le_max_left _ _
  | succ k ih =>
      have scaled := mul_le_mul_of_nonneg_left ih shrinks.nonneg
      have step := shrinks.step k
      -- the maximum is at least the band, where a step keeps what it is given
      have high : deadBand a b ≤ max (e 0) (deadBand a b) := le_max_right _ _
      have kept : a * max (e 0) (deadBand a b) + b ≤ max (e 0) (deadBand a b) := by
        have room := mul_le_mul_of_nonneg_left high (sub_nonneg.2 shrinks.below.le)
        have balance := deadBand_balance (b := b) shrinks.below
        linarith
      linarith

theorem eventually_within [Archimedean R] {ε : R} (positive : 0 < ε) :
    ∃ N, ∀ k ≥ N, e k ≤ deadBand a b + ε := by
  rcases le_or_gt (e 0) (deadBand a b) with inside | outside
  · refine ⟨0, fun k _ => ?_⟩
    have bound := shrinks.le_max k
    rw [max_eq_right inside] at bound
    linarith
  · have away : 0 < e 0 - deadBand a b := sub_pos.2 outside
    obtain ⟨N, small⟩ := exists_pow_lt_of_lt_one (div_pos positive away) shrinks.below
    refine ⟨N, fun k late => ?_⟩
    have power : a ^ k ≤ a ^ N := pow_le_pow_of_le_one shrinks.nonneg shrinks.below.le late
    have product : a ^ k * (e 0 - deadBand a b) < ε :=
      (lt_div_iff₀ away).1 (power.trans_lt small)
    have bound := shrinks.le_geometric k
    linarith

end Shrinks

end FrankaRos.Theory
