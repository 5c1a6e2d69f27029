/-
# Hardware.Robot -- the libfranka session behind the hardware interface

`franka_hardware::Robot` keeps at most one libfranka control session
(`active_control_`) and, separately, one `*_interface_active_` flag per control
mode.  `initialize*Interface` opens a session, retrying once after an automatic
error recovery; `stopRobot` closes it; `writeOnce` chooses the command type from
the flags alone.

What libfranka answers to a start request is an input (`StartOutcome`).  The
session is represented by the mode it was started in.
-/
import FrankaRos.Theory.Double

namespace FrankaRos.Hardware

open FrankaRos.Theory

set_option autoImplicit false

set_option linter.unusedSectionVars false

universe u

/-- The five control modes, in the order in which the hardware interface
switches them. -/
inductive ControlMode where
  | effort
  | jointVelocity
  | jointPosition
  | cartesianVelocity
  | cartesianPose
  deriving DecidableEq, Repr

/-- The number of values a command of this mode has. -/
def ControlMode.size : ControlMode → Nat
  | .effort => 7
  | .jointVelocity => 7
  | .jointPosition => 7
  | .cartesianVelocity => 6
  | .cartesianPose => 16

/-- How libfranka answers a start request: at once, after a `ControlException`
and one automatic error recovery, or with an exception that leaves the
`initialize*Interface` function. -/
inductive StartOutcome where
  | started
  | recovered
  | refused
  deriving DecidableEq, Repr

structure Robot where
  /-- `active_control_`, by the mode of the session it holds. -/
  activeControl : Option ControlMode
  /-- The five `*_interface_active_` flags. -/
  interfaceActive : ControlMode → Bool

namespace Robot

/-- A connected robot with no control session. -/
def connected : Robot := ⟨none, fun _ => false⟩

def stopRobot (r : Robot) : Robot :=
  match r.activeControl with
  | some _ => ⟨none, fun _ => false⟩
  | none => r

/-- A session of `mode` has been opened and its flag set. -/
def opened (mode : ControlMode) (r : Robot) : Robot :=
  ⟨some mode, Function.update r.interfaceActive mode true⟩

/-- The common body of the five `initialize*Interface` functions; `false` when
the second start attempt throws. -/
def initializeInterface (mode : ControlMode) (outcome : StartOutcome) (r : Robot) : Bool × Robot :=
  match outcome with
  | .refused => (false, r)
  | _ => (true, r.opened mode)

def initializeTorqueInterface := initializeInterface .effort
def initializeJointVelocityInterface := initializeInterface .jointVelocity
def initializeJointPositionInterface := initializeInterface .jointPosition
def initializeCartesianVelocityInterface := initializeInterface .cartesianVelocity
def initializeCartesianPoseInterface := initializeInterface .cartesianPose

@[simp] theorem stopRobot_activeControl (r : Robot) : r.stopRobot.activeControl = none := by
  unfold stopRobot
  split
  · rfl
  · assumption

@[simp] theorem opened_activeControl (mode : ControlMode) (r : Robot) :
    (r.opened mode).activeControl = some mode := rfl

/-- The flag of a mode is set exactly when the session is of that mode. -/
def Consistent (r : Robot) : Prop :=
  ∀ m, r.interfaceActive m = true ↔ r.activeControl = some m

theorem consistent_connected : connected.Consistent := fun _ => by simp [connected]

theorem Consistent.stopRobot {r : Robot} (consistent : r.Consistent) : r.stopRobot.Consistent := by
  unfold Robot.stopRobot
  split
  · exact consistent_connected
  · exact consistent

/-- `stopRobot` before every start is what keeps at most one flag set. -/
theorem Consistent.reopened {r : Robot} (consistent : r.Consistent) (mode : ControlMode) :
    (r.stopRobot.opened mode).Consistent := by
  intro m
  have cleared : r.stopRobot.interfaceActive m = false := by
    have flag := consistent.stopRobot m
    rw [stopRobot_activeControl] at flag
    simpa using flag
  simp only [opened, Function.update_apply, cleared, Option.some.injEq]
  by_cases same : m = mode
  · simp [same]
  · simp [same, Ne.symm same]

/-! ## Sending commands -/

section Write

variable {K : Type u} [Zero K]

/-- What one `writeOnce` does: hand a command of one mode (with an optional
elbow) to the session, or throw. -/
inductive WriteOutcome (K : Type u) where
  | sent (mode : ControlMode) (command : List (Double K)) (elbow : Option (List (Double K)))
  | threw (message : String)

/-- `std::copy` into a zero-initialised `std::array` of length `n`. -/
def copyInto (n : Nat) (command : List (Double K)) : List (Double K) :=
  command ++ List.replicate (n - command.length) (.fin 0)

/-- `writeOnce(command)`.  Rate limiting and filtering of the copied array are
libfranka's and do not change the command type. -/
def writeOnce (r : Robot) (command : List (Double K)) : WriteOutcome K :=
  if r.activeControl = none then .threw "Control hasn't been started"
  else if (r.interfaceActive .jointPosition || r.interfaceActive .jointVelocity ||
      r.interfaceActive .effort) ∧ command.length ≤ 7 then
    if r.interfaceActive .effort then .sent .effort (copyInto 7 command) none
    else if r.interfaceActive .jointVelocity then .sent .jointVelocity (copyInto 7 command) none
    else .sent .jointPosition (copyInto 7 command) none
  else if r.interfaceActive .cartesianVelocity ∧ command.length ≤ 6 then
    .sent .cartesianVelocity (copyInto 6 command) none
  else if r.interfaceActive .cartesianPose ∧ command.length ≤ 16 then
    .sent .cartesianPose (copyInto 16 command) none
  else .threw ("Command has unknown size " ++ toString command.length)

/-- `writeOnce(cartesian_command, elbow_command)`. -/
def writeOnceElbow (r : Robot) (cartesian elbow : List (Double K)) : WriteOutcome K :=
  if r.activeControl = none then .threw "Control hasn't been started"
  else if r.interfaceActive .cartesianVelocity ∧ cartesian.length = 6 ∧ elbow.length = 2 then
    .sent .cartesianVelocity cartesian (some elbow)
  else if r.interfaceActive .cartesianPose ∧ cartesian.length = 16 ∧ elbow.length = 2 then
    .sent .cartesianPose cartesian (some elbow)
  else .threw ("Cartesian command has unknown size " ++ toString cartesian.length ++
    " and elbow size " ++ toString elbow.length)

/-- A consistent robot sends a complete command in the mode of its session. -/
theorem writeOnce_sent {r : Robot} (consistent : r.Consistent) {m : ControlMode}
    (session : r.activeControl = some m) {command : List (Double K)}
    (fits : command.length = m.size) :
    ∃ sent, r.writeOnce command = .sent m sent none := by
  have flag : ∀ n, r.interfaceActive n = decide (n = m) := by
    intro n
    have := consistent n
    rw [session, Option.some.injEq] at this
    by_cases same : n = m
    · simpa [same] using (consistent n).2 (by rw [session, same])
    · simpa [same] using fun active => same ((this.1 active).symm)
  cases m <;> simp only [ControlMode.size] at fits <;> simp [writeOnce, session, flag, fits]

/-- The same for a Cartesian command with its elbow. -/
theorem writeOnceElbow_sent {r : Robot} (consistent : r.Consistent) {m : ControlMode}
    (session : r.activeControl = some m) {cartesian elbow : List (Double K)}
    (fits : (m = .cartesianVelocity ∧ cartesian.length = 6) ∨
      (m = .cartesianPose ∧ cartesian.length = 16)) (pair : elbow.length = 2) :
    ∃ sent, r.writeOnceElbow cartesian elbow = .sent m sent (some elbow) := by
  have active : r.interfaceActive m = true := (consistent m).2 session
  rcases fits with ⟨rfl, fits⟩ | ⟨rfl, fits⟩
  · simp [writeOnceElbow, session, active, fits, pair]
  · have other : r.interfaceActive .cartesianVelocity = false := by
      rw [Bool.eq_false_iff, ne_eq, consistent, session]
      decide
    simp [writeOnceElbow, session, active, other, fits, pair]

end Write

end Robot

end FrankaRos.Hardware
