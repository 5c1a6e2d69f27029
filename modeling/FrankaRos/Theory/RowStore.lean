/-
# Theory.RowStore -- rows behind one another in one array

A table kept in one flat list: row `i` of `width` entries begins at `i * width`.
`writeFrom` writes values one by one from an index on, and fails at the first that falls
outside; where all of them fit it replaces a stretch of the list (`writeFrom_eq`), so
writing one row leaves the rows before it alone (`rowAt_write_of_lt`).
-/
import Mathlib.Data.List.Basic
import Mathlib.Data.List.TakeDrop
import Mathlib.Algebra.Order.Ring.Nat

namespace FrankaRos.Theory

set_option autoImplicit false

universe u

variable {α : Type u}

/-- Write values one after the other; `none` is a write past the end. -/
def writeFrom : Nat → List α → List α → Option (List α)
  | _, [], cells => some cells
  | i, value :: values, cells =>
      if i < cells.length then writeFrom (i + 1) values (cells.set i value) else none

/-- The `i`th stretch of `width` cells. -/
def rowAt (width i : Nat) (cells : List α) : List α := (cells.drop (i * width)).take width

theorem writeFrom_eq {i : Nat} {values cells : List α} (fits : i + values.length ≤ cells.length) :
    writeFrom i values cells =
      some (cells.take i ++ values ++ cells.drop (i + values.length)) := by
  induction values generalizing i cells with
  | nil => simp [writeFrom]
  | cons value values ih =>
      rw [List.length_cons] at fits
      have inside : i < cells.length := by omega
      rw [writeFrom, if_pos inside, ih (by rw [List.length_set]; omega)]
      have before : (cells.set i value).take (i + 1) = cells.take i ++ [value] := by
        rw [List.take_succ_eq_append_getElem (by simpa using inside),
          List.take_set_of_le (Nat.le_refl i), List.getElem_set_self]
      have behind : (cells.set i value).drop (i + 1 + values.length) =
          cells.drop (i + (values.length + 1)) := by
        rw [List.drop_set_of_lt (by omega), Nat.add_assoc, Nat.add_comm 1]
      rw [before, behind, List.append_assoc, List.length_cons]
      simp

section Rows

variable {width i : Nat} {values cells written : List α}

/-- What is left of a list in which the `i`th row has been written. -/
theorem write_row (size : values.length = width) (fits : (i + 1) * width ≤ cells.length) :
    writeFrom (i * width) values cells =
      some (cells.take (i * width) ++ values ++ cells.drop ((i + 1) * width)) := by
  rw [Nat.add_mul, Nat.one_mul] at fits ⊢
  rw [writeFrom_eq (by rw [size]; exact fits), size]

theorem length_write_row (size : values.length = width) (fits : (i + 1) * width ≤ cells.length)
    (wrote : writeFrom (i * width) values cells = some written) :
    written.length = cells.length := by
  rw [write_row size fits] at wrote
  obtain rfl := Option.some.inj wrote
  simp only [List.length_append, List.length_take, List.length_drop, size]
  rw [Nat.add_mul, Nat.one_mul] at *
  omega

/-- The row that was written. -/
theorem rowAt_write_self (size : values.length = width) (fits : (i + 1) * width ≤ cells.length)
    (wrote : writeFrom (i * width) values cells = some written) :
    rowAt width i written = values := by
  rw [write_row size fits] at wrote
  obtain rfl := Option.some.inj wrote
  have before : (cells.take (i * width)).length = i * width := by
    rw [List.length_take, Nat.min_eq_left]
    exact Nat.le_trans (Nat.mul_le_mul_right width (Nat.le_succ i)) fits
  rw [rowAt, List.append_assoc, List.drop_left' before, List.take_left' size]

/-- The rows before it. -/
theorem rowAt_write_of_lt {j : Nat} (earlier : j < i) (size : values.length = width)
    (fits : (i + 1) * width ≤ cells.length)
    (wrote : writeFrom (i * width) values cells = some written) :
    rowAt width j written = rowAt width j cells := by
  rw [write_row size fits] at wrote
  obtain rfl := Option.some.inj wrote
  have inside : j * width + width ≤ i * width := by
    rw [← Nat.succ_mul]
    exact Nat.mul_le_mul_right width earlier
  have before : i * width ≤ cells.length :=
    Nat.le_trans (Nat.mul_le_mul_right width (Nat.le_succ i)) fits
  have length : (cells.take (i * width)).length = i * width := by
    rw [List.length_take, Nat.min_eq_left before]
  rw [rowAt, rowAt, List.append_assoc, List.drop_append_of_le_length (by omega),
    List.take_append_of_le_length (by rw [List.length_drop]; omega), List.drop_take,
    List.take_take, Nat.min_eq_left (by omega)]

end Rows

end FrankaRos.Theory
