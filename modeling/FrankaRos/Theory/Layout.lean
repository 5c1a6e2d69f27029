/-
# Theory.Layout -- where the blocks of a composition begin

A vector that is cut into consecutive non-empty blocks is a `Composition`, and
block `k` begins at `c.sizeUpTo k`.  Blocks that begin at 0, 1, 2, ... are the
first ones (`eq_of_sizeUpTo_eq`).
-/
import Mathlib.Combinatorics.Enumerative.Composition

namespace FrankaRos.Theory

set_option autoImplicit false

variable {n : ℕ} (c : Composition n)

theorem sizeUpTo_lt_sizeUpTo {i j : ℕ} (before : i < j) (inside : j ≤ c.length) :
    c.sizeUpTo i < c.sizeUpTo j :=
  (c.sizeUpTo_strict_mono (by omega)).trans_le (c.monotone_sizeUpTo before)

theorem sizeUpTo_injOn {i j : ℕ} (hi : i < c.length) (hj : j < c.length)
    (same : c.sizeUpTo i = c.sizeUpTo j) : i = j := by
  by_contra other
  rcases Nat.lt_or_gt_of_ne other with before | after
  · have := sizeUpTo_lt_sizeUpTo c before hj.le
    omega
  · have := sizeUpTo_lt_sizeUpTo c after hi.le
    omega

theorem le_sizeUpTo {i : ℕ} (inside : i ≤ c.length) : i ≤ c.sizeUpTo i := by
  induction i with
  | zero => exact Nat.zero_le _
  | succ i ih =>
      have before := ih (by omega)
      have step := c.sizeUpTo_strict_mono (show i < c.length by omega)
      omega

/-- Blocks that begin at the first places are the first blocks. -/
theorem eq_of_sizeUpTo_eq {m : ℕ} {block : Fin m → ℕ} (inside : ∀ i, block i < c.length)
    (begins : ∀ i, c.sizeUpTo (block i) = i) (i : Fin m) : block i = i := by
  have mono : StrictMono block := by
    intro i j before
    by_contra reversed
    have := c.monotone_sizeUpTo (not_lt.1 reversed)
    rw [begins, begins] at this
    omega
  have above : ∀ k (bound : k < m), k ≤ block ⟨k, bound⟩ := by
    intro k
    induction k with
    | zero => exact fun _ => Nat.zero_le _
    | succ k ih =>
        intro bound
        have step : block ⟨k, by omega⟩ < block ⟨k + 1, bound⟩ := mono (Nat.lt_succ_self k)
        have := ih (by omega)
        omega
  have below := le_sizeUpTo c (inside i).le
  rw [begins] at below
  exact Nat.le_antisymm below (above i i.isLt)

/-- Behind blocks of one entry, a block begins at its own number. -/
theorem sizeUpTo_eq_self {i : ℕ} (inside : i ≤ c.length)
    (single : ∀ (j : ℕ) (_ : j < c.length), j < i → c.blocks[j] = 1) : c.sizeUpTo i = i := by
  induction i with
  | zero => exact c.sizeUpTo_zero
  | succ i ih =>
      have before := ih (by omega) fun j bound less => single j bound (by omega)
      have last := single i (by omega) (Nat.lt_succ_self i)
      rw [c.sizeUpTo_succ (by omega), before]
      omega

end FrankaRos.Theory
