/-
# Theory.RingBuffer -- the last values written to a ring

A ring of `size` cells with a write index and a flag that it has wrapped.  `recent` lists
what it holds, oldest first, and is all there is to know about it: writing appends to that
list and drops what no longer fits (`recent_push`), and values that were dropped before are
dropped again (`lastOf_lastOf_append`), so a ring holds the last `size` values of what it
held before and what was written since.  `contents` is the part of the cells in use, in the
order of the cells; it has the same values (`contents_perm_recent`).
-/
import Mathlib.Data.List.Basic
import Mathlib.Data.List.TakeDrop
import Mathlib.Order.Basic

namespace FrankaRos.Theory

set_option autoImplicit false

universe u

/-- The last `size` values of a list. -/
def lastOf {α : Type u} (size : Nat) (values : List α) : List α :=
  values.drop (values.length - size)

section LastOf

variable {α : Type u} {size : Nat}

@[simp] theorem length_lastOf (values : List α) :
    (lastOf size values).length = min values.length size := by
  rw [lastOf, List.length_drop]
  omega

theorem lastOf_of_le {values : List α} (fits : values.length ≤ size) :
    lastOf size values = values := by
  rw [lastOf, Nat.sub_eq_zero_of_le fits, List.drop_zero]

/-- What was dropped before is dropped again. -/
theorem lastOf_lastOf_append (older newer : List α) :
    lastOf size (lastOf size older ++ newer) = lastOf size (older ++ newer) := by
  unfold lastOf
  rw [← List.drop_append_of_le_length (by omega), List.drop_drop]
  congr 1
  simp only [List.length_drop, List.length_append]
  omega

theorem lastOf_replicate_append (n : Nat) (x : α) (values : List α) :
    lastOf size (List.replicate n x ++ values) =
      List.replicate (n - (n + values.length - size)) x ++ lastOf size values := by
  unfold lastOf
  rw [List.drop_append, List.drop_replicate, List.length_append, List.length_replicate]
  congr 2
  omega

theorem lastOf_replicate (n : Nat) (x : α) :
    lastOf size (List.replicate n x) = List.replicate (min n size) x := by
  have split := @lastOf_replicate_append α size n x []
  rw [List.append_nil, show lastOf size ([] : List α) = [] from List.drop_nil, List.append_nil,
    List.length_nil, Nat.add_zero] at split
  rw [split]
  congr 1
  omega

end LastOf

structure RingBuffer (α : Type u) where
  cells : Nat → α
  idx : Nat
  full : Bool

namespace RingBuffer

variable {α : Type u} (size : Nat)

/-- Write one value. -/
def push (r : RingBuffer α) (value : α) : RingBuffer α :=
  let wraps := decide (size ≤ r.idx + 1)
  ⟨Function.update r.cells r.idx value, if wraps then 0 else r.idx + 1, r.full || wraps⟩

/-- The number of cells in use. -/
def used (r : RingBuffer α) : Nat := if r.full then size else r.idx

/-- The cells in use. -/
def contents (r : RingBuffer α) : List α := (List.range (r.used size)).map r.cells

/-- What the ring holds, oldest first. -/
def recent (r : RingBuffer α) : List α :=
  (if r.full then (List.range' r.idx (size - r.idx)).map r.cells else []) ++
    (List.range r.idx).map r.cells

variable {size}

theorem idx_push {r : RingBuffer α} (inside : r.idx < size) (value : α) :
    (r.push size value).idx < size := by
  unfold push
  by_cases wraps : size ≤ r.idx + 1
  · simp only [wraps, decide_true, if_true]
    omega
  · simp only [wraps, decide_false, Bool.false_eq_true, if_false]
    omega

@[simp] theorem length_contents (r : RingBuffer α) : (r.contents size).length = r.used size := by
  simp [contents]

@[simp] theorem length_recent {r : RingBuffer α} (inside : r.idx < size) :
    (r.recent size).length = r.used size := by
  unfold recent used
  split
  · simp
    omega
  · simp

/-- The cells in use are what the ring holds, in some order. -/
theorem contents_perm_recent {r : RingBuffer α} (inside : r.idx < size) :
    (r.contents size).Perm (r.recent size) := by
  unfold contents recent used
  split
  · have split : List.range size = List.range r.idx ++ List.range' r.idx (size - r.idx) := by
      have joined := @List.range'_append_1 0 r.idx (size - r.idx)
      rw [Nat.zero_add, Nat.add_sub_cancel' (Nat.le_of_lt inside)] at joined
      rw [List.range_eq_range', List.range_eq_range', joined]
    rw [split, List.map_append]
    exact List.perm_append_comm
  · exact List.Perm.refl _

/-- A ring whose cells are all the same holds that value as often as it is used. -/
theorem recent_const {idx : Nat} (full : Bool) (x : α) (inside : idx < size) :
    (mk (fun _ => x) idx full).recent size =
      List.replicate ((mk (fun _ => x) idx full).used size) x := by
  cases full with
  | true =>
      simp only [recent, used, if_true, List.map_const', List.length_range',
        List.length_range]
      rw [List.replicate_append_replicate, Nat.sub_add_cancel (Nat.le_of_lt inside)]
  | false => simp [recent, used, List.map_const']

/-- **Writing appends a value and drops what no longer fits.** -/
theorem recent_push {r : RingBuffer α} (inside : r.idx < size) (value : α) :
    (r.push size value).recent size = lastOf size (r.recent size ++ [value]) := by
  -- the cells below the index and above it are as they were
  have below : (List.range r.idx).map (Function.update r.cells r.idx value) =
      (List.range r.idx).map r.cells :=
    List.map_congr_left fun i member =>
      Function.update_of_ne (Nat.ne_of_lt (List.mem_range.1 member)) _ _
  have above : ∀ n, (List.range' (r.idx + 1) n).map (Function.update r.cells r.idx value) =
      (List.range' (r.idx + 1) n).map r.cells := fun n =>
    List.map_congr_left fun i member =>
      Function.update_of_ne (Nat.ne_of_gt (List.mem_range'_1.1 member).1) _ _
  have written : (List.range (r.idx + 1)).map (Function.update r.cells r.idx value) =
      (List.range r.idx).map r.cells ++ [value] := by
    rw [List.range_succ, List.map_append, below]
    simp
  -- the oldest value of a full ring is the one at the index
  have oldest : (List.range' r.idx (size - r.idx)).map r.cells =
      r.cells r.idx :: (List.range' (r.idx + 1) (size - (r.idx + 1))).map r.cells := by
    rw [show size - r.idx = size - (r.idx + 1) + 1 by omega, List.range'_succ, List.map_cons]
  have whole : r.idx + 1 = size → (List.range' 0 size).map (Function.update r.cells r.idx value) =
      (List.range r.idx).map r.cells ++ [value] := by
    intro last
    rw [← List.range_eq_range', ← last, written]
  cases full : r.full with
  | true =>
      have dropped : lastOf size (r.recent size ++ [value]) =
          (List.range' (r.idx + 1) (size - (r.idx + 1))).map r.cells ++
            ((List.range r.idx).map r.cells ++ [value]) := by
        rw [recent, full, if_pos rfl, oldest, lastOf]
        simp only [List.length_append, List.length_cons, List.length_map, List.length_range',
          List.length_range, List.length_nil]
        rw [show size - (r.idx + 1) + 1 + r.idx + (0 + 1) - size = 1 by omega]
        simp
      rw [dropped]
      by_cases wraps : size ≤ r.idx + 1
      · have last : r.idx + 1 = size := by omega
        simpa [recent, push, full, last] using whole last
      · simp [recent, push, full, wraps, above, written]
  | false =>
      have fits : lastOf size (r.recent size ++ [value]) =
          (List.range r.idx).map r.cells ++ [value] := by
        rw [recent, full, if_neg Bool.false_ne_true, List.nil_append]
        exact lastOf_of_le (by simpa using Nat.succ_le_of_lt inside)
      rw [fits]
      by_cases wraps : size ≤ r.idx + 1
      · have last : r.idx + 1 = size := by omega
        simpa [recent, push, full, last] using whole last
      · simp [recent, push, full, wraps, written]

end RingBuffer

end FrankaRos.Theory
