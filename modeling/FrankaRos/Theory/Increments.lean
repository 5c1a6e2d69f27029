/-
# Theory.Increments -- readings of a meter and their increments

A meter that remembers its last reading turns a sequence of readings into increments, the
first of which is zero where nothing is remembered.  They add up to the last reading less
the one remembered (`sum_increments_some`), or less the first (`sum_increments_none`).
-/
import Mathlib.Algebra.BigOperators.Group.List.Basic
import Mathlib.Tactic.Abel

namespace FrankaRos.Theory

set_option autoImplicit false

universe u

variable {G : Type u} [AddCommGroup G]

/-- What a reading adds to the one that is remembered. -/
def increment (held : Option G) (reading : G) : G := held.elim 0 (reading - ·)

def increments : Option G → List G → List G
  | _, [] => []
  | held, reading :: rest => increment held reading :: increments (some reading) rest

/-- What the meter remembers behind a sequence of readings. -/
def remembered (held : Option G) (readings : List G) : Option G := readings.getLast?.or held

omit [AddCommGroup G] in
theorem remembered_cons (held : Option G) (reading : G) (rest : List G) :
    remembered held (reading :: rest) = remembered (some reading) rest := by
  unfold remembered
  cases rest with
  | nil => rfl
  | cons next rest => simp [List.getLast?_cons]

theorem sum_increments_some (held : G) (readings : List G) :
    (increments (some held) readings).sum = readings.getLastD held - held := by
  induction readings generalizing held with
  | nil => exact (sub_self held).symm
  | cons reading rest ih =>
      rw [increments, List.sum_cons, ih, List.getLastD_cons]
      show reading - held + (rest.getLastD reading - reading) = rest.getLastD reading - held
      abel

theorem sum_increments_none (readings : List G) :
    (increments none readings).sum = readings.getLastD 0 - readings.headD 0 := by
  cases readings with
  | nil => exact (sub_self (0 : G)).symm
  | cons reading rest =>
      rw [increments, List.sum_cons, sum_increments_some, List.getLastD_cons]
      exact zero_add _

end FrankaRos.Theory
