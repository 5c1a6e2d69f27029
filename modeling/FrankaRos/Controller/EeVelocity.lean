/-
# Controller.EeVelocity -- velocities of the end effector by finite differences

`updateEeVelFd` divides what the fingertip has moved since the last call by the period, and
remembers position and orientation for the next one.  A call with a period that is too small
to divide by is dropped, and the first call that is not dropped only fills the buffers.

To the positions of the calls that are not dropped it is the meter of `Theory.Increments`,
whatever the periods in between (`log_displacements`): what it remembers is `held`, a call
moves it by `increment` (`updateEeVelFd_accepted`), and a dropped call leaves it as it is
(`updateEeVelFd_dropped`).
-/
import Mathlib
import FrankaRos.Theory.Increments
import FrankaRos.Impedance.RotationError

namespace FrankaRos.Controller

open FrankaRos.Theory
open FrankaRos.RlAction (Trigonometry normalizedQuat)
open FrankaRos.Impedance (quatToAxisAngle)

set_option autoImplicit false

section Code

variable {R : Type} [Field R] [LinearOrder R]

/-- The finite-difference buffers. -/
structure FdBuffers (R : Type) [Field R] where
  fdInited : Bool := false
  prevFingertipPos : Fin 3 → R := 0
  prevFingertipQuat : Quaternion R := ⟨1, 0, 0, 0⟩

/-- The arguments of one call. -/
structure FdCall (R : Type) [Field R] where
  fingertipPosNow : Fin 3 → R
  fingertipQuatNow : Quaternion R
  dt : R

/-- What a call puts out. -/
structure EeVel (R : Type) where
  eeLinvelFdOut : Fin 3 → R
  eeAngvelFdOut : Fin 3 → R

/-- `setZero` on both. -/
def EeVel.zero : EeVel R := ⟨0, 0⟩

variable [Trigonometry R]

/-- `std::acos` is an argument. -/
def updateEeVelFd (acos : R → R) (call : FdCall R) (s : FdBuffers R) : EeVel R × FdBuffers R :=
  if call.dt ≤ 1e-9 then (.zero, s)
  else if s.fdInited = false then (.zero, ⟨true, call.fingertipPosNow, call.fingertipQuatNow⟩)
  else
    let linvel := fun i => (call.fingertipPosNow i - s.prevFingertipPos i) / call.dt
    let qPrevConj := star s.prevFingertipQuat
    let qDiff := normalizedQuat (call.fingertipQuatNow * qPrevConj)
    let rotDiffAa := quatToAxisAngle acos qDiff
    (⟨linvel, fun i => rotDiffAa i / call.dt⟩,
      { s with
        prevFingertipPos := call.fingertipPosNow
        prevFingertipQuat := call.fingertipQuatNow })

/-- Every call of a sequence, with what it puts out. -/
def log (acos : R → R) : List (FdCall R) → FdBuffers R → List (FdCall R × EeVel R)
  | [], _ => []
  | call :: rest, s =>
      let out := updateEeVelFd acos call s
      (call, out.1) :: log acos rest out.2

/-- The buffers behind a sequence of calls. -/
def buffersAfter (acos : R → R) (calls : List (FdCall R)) (s : FdBuffers R) : FdBuffers R :=
  calls.foldl (fun s call => (updateEeVelFd acos call s).2) s

theorem log_append (acos : R → R) (earlier later : List (FdCall R)) (s : FdBuffers R) :
    log acos (earlier ++ later) s =
      log acos earlier s ++ log acos later (buffersAfter acos earlier s) := by
  induction earlier generalizing s with
  | nil => rfl
  | cons call earlier ih =>
      rw [List.cons_append, log, log, ih, List.cons_append]
      rfl

/-! ## One call -/

/-- The period can be divided by. -/
def FdCall.Accepted (call : FdCall R) : Prop := 1e-9 < call.dt

instance (call : FdCall R) : Decidable call.Accepted := inferInstanceAs (Decidable (_ < _))

/-- The position that the next difference is taken from. -/
def FdBuffers.held (s : FdBuffers R) : Option (Fin 3 → R) :=
  if s.fdInited then some s.prevFingertipPos else none

/-- `ee_linvel * dt`. -/
def displacement (entry : FdCall R × EeVel R) : Fin 3 → R := entry.1.dt • entry.2.eeLinvelFdOut

/-- The displacements of the calls that are not dropped, added up. -/
def travelled (entries : List (FdCall R × EeVel R)) : Fin 3 → R :=
  ((entries.filter fun entry => entry.1.Accepted).map displacement).sum

/-- The positions of the calls that are not dropped. -/
def acceptedPositions (calls : List (FdCall R)) : List (Fin 3 → R) :=
  (calls.filter fun call => call.Accepted).map (·.fingertipPosNow)

omit [Trigonometry R] in
theorem acceptedPositions_accepted {call : FdCall R} (accepted : call.Accepted)
    (rest : List (FdCall R)) :
    acceptedPositions (call :: rest) = call.fingertipPosNow :: acceptedPositions rest := by
  rw [acceptedPositions, List.filter_cons_of_pos (by simpa using accepted), List.map_cons]
  rfl

omit [Trigonometry R] in
theorem acceptedPositions_dropped {call : FdCall R} (dropped : ¬ call.Accepted)
    (rest : List (FdCall R)) : acceptedPositions (call :: rest) = acceptedPositions rest := by
  rw [acceptedPositions, List.filter_cons_of_neg (by simpa using dropped)]
  rfl

theorem updateEeVelFd_dropped (acos : R → R) {call : FdCall R} (small : call.dt ≤ 1e-9)
    (s : FdBuffers R) : updateEeVelFd acos call s = (.zero, s) :=
  if_pos small

end Code

section Exact

variable {R : Type} [Field R] [LinearOrder R] [IsStrictOrderedRing R] [Trigonometry R]

theorem updateEeVelFd_accepted (acos : R → R) {call : FdCall R} (accepted : call.Accepted)
    (s : FdBuffers R) :
    displacement (call, (updateEeVelFd acos call s).1) =
        increment s.held call.fingertipPosNow ∧
      (updateEeVelFd acos call s).2.held = some call.fingertipPosNow := by
  have large : ¬ call.dt ≤ 1e-9 := not_le.2 accepted
  have nonzero : call.dt ≠ 0 := by
    have positive : (0 : R) < 1e-9 := by norm_num
    exact (positive.trans accepted).ne'
  cases inited : s.fdInited with
  | false =>
      simp [updateEeVelFd, large, inited, FdBuffers.held, displacement, increment, EeVel.zero]
  | true =>
      simp only [updateEeVelFd, large, inited, FdBuffers.held, displacement, increment]
      refine ⟨?_, rfl⟩
      funext i
      exact mul_div_cancel₀ _ nonzero

/-! ## A sequence of calls -/

/-- The calls that are not dropped, as a meter sees them. -/
theorem log_displacements (acos : R → R) (calls : List (FdCall R)) (s : FdBuffers R) :
    ((log acos calls s).filter fun entry => entry.1.Accepted).map displacement =
      increments s.held (acceptedPositions calls) := by
  induction calls generalizing s with
  | nil => rfl
  | cons call rest ih =>
      by_cases accepted : call.Accepted
      · obtain ⟨moved, kept⟩ := updateEeVelFd_accepted acos accepted s
        rw [log, List.filter_cons_of_pos (by simpa using accepted), List.map_cons, moved, ih, kept,
          acceptedPositions_accepted accepted, increments]
      · rw [log, List.filter_cons_of_neg (by simpa using accepted), ih,
          updateEeVelFd_dropped acos (not_lt.1 accepted), acceptedPositions_dropped accepted]

theorem held_buffersAfter (acos : R → R) (calls : List (FdCall R)) (s : FdBuffers R) :
    (buffersAfter acos calls s).held = remembered s.held (acceptedPositions calls) := by
  induction calls generalizing s with
  | nil => rfl
  | cons call rest ih =>
      have next : (buffersAfter acos (call :: rest) s).held = _ := ih (updateEeVelFd acos call s).2
      by_cases accepted : call.Accepted
      · rw [next, (updateEeVelFd_accepted acos accepted s).2, acceptedPositions_accepted accepted,
          remembered_cons]
      · rw [next, updateEeVelFd_dropped acos (not_lt.1 accepted),
          acceptedPositions_dropped accepted]

/-- Between two moments of a run: the way from the position that is held at the first. -/
theorem travelled_between (acos : R → R) (earlier later : List (FdCall R)) {s : FdBuffers R}
    {pos : Fin 3 → R} (holds : remembered s.held (acceptedPositions earlier) = some pos) :
    travelled (log acos (earlier ++ later) s) - travelled (log acos earlier s) =
      (acceptedPositions later).getLastD pos - pos := by
  have held : (buffersAfter acos earlier s).held = some pos := by
    rw [held_buffersAfter, holds]
  unfold travelled
  rw [log_append, List.filter_append, List.map_append, List.sum_append, add_sub_cancel_left,
    log_displacements, held, sum_increments_some]

end Exact

/-- **Nothing is lost or counted twice.**  Over a sequence of calls that finds the buffers
empty, the velocities times their periods add up to the way between the first and the last
position that was not dropped, in whatever order the periods come; a dropped call puts out
zero and changes no buffer. -/
theorem eeVelFd_telescopes (acos : ℝ → ℝ) (calls : List (FdCall ℝ)) (pos : Fin 3 → ℝ)
    (quat : Quaternion ℝ) :
    travelled (log acos calls ⟨false, pos, quat⟩) =
        (acceptedPositions calls).getLastD 0 - (acceptedPositions calls).headD 0 ∧
      ∀ (call : FdCall ℝ) (s : FdBuffers ℝ), call.dt ≤ 1e-9 →
        updateEeVelFd acos call s = (.zero, s) := by
  refine ⟨?_, fun call s small => updateEeVelFd_dropped acos small s⟩
  rw [travelled, log_displacements]
  exact sum_increments_none _

end FrankaRos.Controller
