/-
# Theory.Throttle -- letting a time through when enough of it has passed

A throttle sees a sequence of times and lets one through when it is at least a period later
than the last it let through.  Whatever the times are, two in a row are a period apart
(`passed_spaced`), and nothing comes through before a period has passed (`passed_eq_nil_iff`),
not even when the times start again from an earlier one.

For times that come in equal steps it counts: with `every period step` steps to a period, every
so many come through (`passed_steps`).
-/
import Mathlib.Data.List.Chain
import Mathlib.Algebra.Order.Ring.Int
import Mathlib.Tactic.Linarith
import FrankaRos.Theory.Run

namespace FrankaRos.Theory

set_option autoImplicit false

namespace Throttle

variable (period : Int)

/-- The last time that came through, behind one more. -/
def next (last t : Int) : Int := if period ≤ t - last then t else last

/-- The times that come through. -/
def passed : Int → List Int → List Int
  | _, [] => []
  | last, t :: ts =>
      if period ≤ t - last then t :: passed t ts else passed last ts

theorem passed_append (last : Int) (ts ts' : List Int) :
    passed period last (ts ++ ts') =
      passed period last ts ++ passed period (run (next period) last ts) ts' := by
  induction ts generalizing last with
  | nil => rfl
  | cons t ts ih =>
      rw [List.cons_append, passed, passed, run_cons, ih, ih, next]
      split <;> rfl

theorem passed_eq_nil_iff (last : Int) (ts : List Int) :
    passed period last ts = [] ↔ ∀ t ∈ ts, t < last + period := by
  induction ts with
  | nil => simp [passed]
  | cons t ts ih =>
      rw [passed, List.forall_mem_cons]
      split
      · rename_i due
        refine iff_of_false (List.cons_ne_nil _ _) fun early => ?_
        omega
      · rename_i early
        rw [ih]
        exact (and_iff_right (by omega)).symm

/-- Each time comes through at least a period behind the one before it. -/
theorem passed_spaced (last : Int) (ts : List Int) :
    List.IsChain (fun before t => before + period ≤ t) (last :: passed period last ts) := by
  induction ts generalizing last with
  | nil => exact .singleton last
  | cons t ts ih =>
      rw [passed]
      split
      · rename_i due
        exact .cons_cons (by omega) (ih t)
      · exact ih last

/-! ## Equal steps -/

/-- The steps that it takes to make up a period. -/
def every (step : Int) : Nat := ((period + step - 1) / step).toNat

/-- The times of the first `k` steps behind `start`. -/
def steps (start step : Int) (k : Nat) : List Int :=
  (List.range k).map fun j => start + step * (j + 1 : Nat)

theorem steps_succ (start step : Int) (k : Nat) :
    steps start step (k + 1) = steps start step k ++ [start + step * (k + 1 : Nat)] := by
  simp [steps, List.range_succ]

variable {period} {step : Int} (positive : 0 < step)

include positive

/-- So many steps make up a period, and fewer do not. -/
theorem le_mul_iff (j : Nat) : period ≤ step * j ↔ every period step ≤ j := by
  have quotient : (period + step - 1) / step ≤ j ↔ period + step - 1 < (j + 1) * step := by
    rw [← Int.lt_add_one_iff, Int.ediv_lt_iff_lt_mul positive]
  rw [every, Int.toNat_le, quotient, add_mul, one_mul, mul_comm (j : Int)]
  omega

variable (lasting : 0 < period)

include lasting

theorem every_pos : 0 < every period step := by
  have whole : 1 ≤ (period + step - 1) / step := by
    rw [Int.le_ediv_iff_mul_le positive]
    omega
  rw [every]
  omega

/-- Behind so many whole periods, the next step is due if it makes up another. -/
theorem due_iff (start : Int) (k : Nat) :
    period ≤ start + step * (k + 1 : Nat) -
      (start + step * (every period step * (k / every period step) : Nat)) ↔
        every period step ∣ k + 1 := by
  have some := every_pos positive lasting
  have parts := Nat.div_add_mod k (every period step)
  have passing : ((k + 1 : Nat) : Int) - (every period step * (k / every period step) : Nat) =
      (k % every period step + 1 : Nat) := by omega
  rw [add_sub_add_left_eq_sub, ← mul_sub, passing, le_mul_iff positive]
  generalize every period step = n at some parts ⊢
  have small := Nat.mod_lt k some
  have split : k + 1 = n * (k / n) + (k % n + 1) := by omega
  rw [split, Nat.dvd_add_right (Nat.dvd_mul_right n _)]
  constructor
  · intro full
    rw [show k % n + 1 = n by omega]
  · exact Nat.le_of_dvd (Nat.succ_pos _)

/-- What came through last, behind `k` steps. -/
theorem last_steps (start : Int) (k : Nat) :
    run (next period) start (steps start step k) =
      start + step * (every period step * (k / every period step) : Nat) := by
  induction k with
  | zero => simp [steps]
  | succ k ih =>
      rw [steps_succ, run_append, ih]
      show next period _ _ = _
      by_cases whole : every period step ∣ k + 1
      · rw [next, if_pos ((due_iff positive lasting start k).2 whole), Nat.mul_div_cancel' whole]
      · rw [next, if_neg (mt (due_iff positive lasting start k).1 whole),
          Nat.succ_div_of_not_dvd whole]

/-- **Every so many steps.**  What comes through in `k` steps. -/
theorem passed_steps (start : Int) (k : Nat) :
    passed period start (steps start step k) =
      (List.range (k / every period step)).map fun j =>
        start + step * (every period step * (j + 1) : Nat) := by
  induction k with
  | zero => simp [steps, passed]
  | succ k ih =>
      rw [steps_succ, passed_append, ih, last_steps positive lasting, passed]
      by_cases whole : every period step ∣ k + 1
      · have count := Nat.succ_div_of_dvd whole
        rw [if_pos ((due_iff positive lasting start k).2 whole), count, List.range_succ,
          List.map_append, List.map_singleton, ← count, Nat.mul_div_cancel' whole]
        rfl
      · rw [if_neg (mt (due_iff positive lasting start k).1 whole),
          Nat.succ_div_of_not_dvd whole, passed, List.append_nil]

/-- So many steps are a period and no more if the period is made up of steps. -/
theorem mul_every_iff : step * every period step = period ↔ step ∣ period := by
  constructor
  · intro same
    exact ⟨_, same.symm⟩
  · rintro ⟨m, rfl⟩
    have some : 0 < m := by
      by_contra none
      exact absurd (mul_nonpos_of_nonneg_of_nonpos positive.le (not_lt.1 none)) (not_le.2 lasting)
    obtain ⟨m, rfl⟩ := Int.eq_ofNat_of_zero_le some.le
    have atMost : every (step * m) step ≤ m := (le_mul_iff positive m).1 le_rfl
    have atLeast : step * m ≤ step * every (step * m) step := (le_mul_iff positive _).2 le_rfl
    have atLeast := le_of_mul_le_mul_left atLeast positive
    rw [le_antisymm (Int.ofNat_le.2 atMost) atLeast]

end Throttle

end FrankaRos.Theory
