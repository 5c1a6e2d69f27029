/-
# Hardware.RobotDispatch -- which command type the robot sends

`writeOnce` chooses the command type from the `*_interface_active_` flags, which
are members apart from the session they describe.  `perform_command_mode_switch`
touches both only through `stopRobot` and the five `initialize*Interface`
functions, and never starts a mode without stopping first: its calls make a
`Switching` list, whatever start calls throw (`run_switching`).

`sent_as_started` reads off such a list which flags are set, and what a command is sent
as: in the type of the last interface that started, or not at all.
-/
import FrankaRos.Hardware.ModeSwitch

namespace FrankaRos.Hardware

open FrankaRos.Theory

set_option autoImplicit false

set_option linter.unusedSectionVars false

universe u

/-- A call of the mode switch on the robot. -/
inductive RobotCall where
  | stopRobot
  | initializeInterface (mode : ControlMode) (outcome : StartOutcome)
  deriving DecidableEq, Repr

/-- The lists of calls the mode switch can make: every start follows a stop. -/
inductive Switching : List RobotCall → Prop
  | nil : Switching []
  | stop {rest : List RobotCall} (later : Switching rest) : Switching (.stopRobot :: rest)
  | start (mode : ControlMode) (outcome : StartOutcome) {rest : List RobotCall}
      (later : Switching rest) : Switching (.stopRobot :: .initializeInterface mode outcome :: rest)

theorem Switching.append {calls more : List RobotCall} (first : Switching calls)
    (second : Switching more) : Switching (calls ++ more) := by
  induction first with
  | nil => exact second
  | stop _ ih => exact ih.stop
  | start mode outcome _ ih => exact .start mode outcome ih

/-- The mode a call starts successfully. -/
def RobotCall.started : RobotCall → Option ControlMode
  | .initializeInterface _ .refused => none
  | .initializeInterface mode _ => some mode
  | .stopRobot => none

/-- The last interface started successfully. -/
def lastStarted : List RobotCall → Option ControlMode
  | [] => none
  | c :: rest => (lastStarted rest).or c.started

namespace Robot

def call (r : Robot) : RobotCall → Robot
  | .stopRobot => r.stopRobot
  | .initializeInterface mode outcome => (r.initializeInterface mode outcome).2

theorem initialize_cases (mode : ControlMode) (outcome : StartOutcome) (r : Robot) :
    (outcome = .refused ∧ (r.initializeInterface mode outcome).2 = r) ∨
      (outcome ≠ .refused ∧ (r.initializeInterface mode outcome).2 = r.opened mode) := by
  cases outcome with
  | refused => exact .inl ⟨rfl, rfl⟩
  | started | recovered => exact .inr ⟨by simp, rfl⟩

/-! ## Flags and session along the calls -/

theorem Consistent.switching {r : Robot} (consistent : r.Consistent) {calls : List RobotCall}
    (order : Switching calls) : (run call r calls).Consistent := by
  induction order generalizing r with
  | nil => exact consistent
  | stop _ ih => exact ih consistent.stopRobot
  | start mode outcome _ ih =>
      apply ih
      show (r.stopRobot.initializeInterface mode outcome).2.Consistent
      rcases initialize_cases mode outcome r.stopRobot with ⟨-, same⟩ | ⟨-, opened⟩
      · rw [same]
        exact consistent.stopRobot
      · rw [opened]
        exact consistent.reopened mode

/-- A session is the one started last, or it was there before the calls. -/
theorem activeControl_switching {r : Robot} {calls : List RobotCall} (order : Switching calls)
    {m : ControlMode} (session : (run call r calls).activeControl = some m) :
    lastStarted calls = some m ∨ (lastStarted calls = none ∧ r.activeControl = some m) := by
  induction order generalizing r with
  | nil => exact .inr ⟨rfl, session⟩
  | stop _ ih =>
      rcases ih session with last | ⟨-, before⟩
      · left
        simp [lastStarted, last]
      · simp [call] at before
  | start mode outcome _ ih =>
      rcases ih session with last | ⟨none, before⟩
      · left
        simp [lastStarted, last]
      · rcases initialize_cases mode outcome r.stopRobot with ⟨-, same⟩ | ⟨started, opened⟩
        · simp [call, same] at before
        · left
          simp only [call, opened, opened_activeControl, Option.some.injEq] at before
          subst before
          cases outcome <;> simp_all [lastStarted, RobotCall.started]

/-- In a consistent robot the flags show at most one mode. -/
theorem Consistent.unique {r : Robot} (consistent : r.Consistent) {m n : ControlMode}
    (hm : r.interfaceActive m = true) (hn : r.interfaceActive n = true) : n = m := by
  have same := ((consistent n).1 hn).symm.trans ((consistent m).1 hm)
  simpa using same

/-- A session is open exactly when exactly one flag is set. -/
theorem Consistent.isSome_iff {r : Robot} (consistent : r.Consistent) :
    r.activeControl.isSome = true ↔ ∃! m, r.interfaceActive m = true := by
  constructor
  · intro session
    obtain ⟨m, eq⟩ := Option.isSome_iff_exists.1 session
    have flag := (consistent m).2 eq
    exact ⟨m, flag, fun n other => consistent.unique flag other⟩
  · rintro ⟨m, flag, -⟩
    have session : r.activeControl = some m := (consistent m).1 flag
    simp [session]

section Write

variable {K : Type u} [Zero K]

theorem copyInto_of_length {n : Nat} {command : List (Double K)} (fits : command.length = n) :
    copyInto n command = command := by
  simp [copyInto, fits]

/-- The flags of a consistent robot with a session. -/
theorem Consistent.flags {r : Robot} (consistent : r.Consistent) {m : ControlMode}
    (session : r.activeControl = some m) (n : ControlMode) :
    r.interfaceActive n = decide (n = m) := by
  by_cases same : n = m
  · subst same
    simpa using (consistent n).2 session
  · have off : r.interfaceActive n ≠ true := by
      intro flag
      exact same (consistent.unique ((consistent m).2 session) flag)
    simpa [same] using off

/-- A complete command goes out as it is, in the mode of the session. -/
theorem Consistent.writeOnce_eq {r : Robot} (consistent : r.Consistent) {m : ControlMode}
    (session : r.activeControl = some m) {command : List (Double K)}
    (fits : command.length = m.size) : r.writeOnce command = .sent m command none := by
  have flags := consistent.flags session
  have whole := copyInto_of_length fits
  cases m <;> simp_all [writeOnce, ControlMode.size]

theorem Consistent.writeOnceElbow_eq {r : Robot} (consistent : r.Consistent) {m : ControlMode}
    (session : r.activeControl = some m) (cartesian : m = .cartesianVelocity ∨ m = .cartesianPose)
    {command elbow : List (Double K)} (fits : command.length = m.size) (pair : elbow.length = 2) :
    r.writeOnceElbow command elbow = .sent m command (some elbow) := by
  have flags := consistent.flags session
  rcases cartesian with rfl | rfl <;> simp_all [writeOnceElbow, ControlMode.size]

/-- **What the robot sends.**  After any list of calls a mode switch can make, a
session is open exactly when exactly one flag is set; a complete command of the
flagged interface is sent in the type of the last interface started; and without
a flag every command is refused. -/
theorem sent_as_started {calls : List RobotCall} (order : Switching calls) :
    let r := run call connected calls
    (r.activeControl.isSome = true ↔ ∃! m, r.interfaceActive m = true) ∧
      (∀ m, r.interfaceActive m = true → lastStarted calls = some m ∧
        (∀ command : List (Double K), command.length = m.size →
          r.writeOnce command = .sent m command none) ∧
        (m = .cartesianVelocity ∨ m = .cartesianPose →
          ∀ command elbow : List (Double K), command.length = m.size → elbow.length = 2 →
            r.writeOnceElbow command elbow = .sent m command (some elbow))) ∧
      ((∀ m, r.interfaceActive m = false) → ∀ command elbow : List (Double K),
        r.writeOnce command = .threw "Control hasn't been started" ∧
          r.writeOnceElbow command elbow = .threw "Control hasn't been started") := by
  intro r
  have consistent : r.Consistent := consistent_connected.switching order
  refine ⟨consistent.isSome_iff, ?_, ?_⟩
  · intro m flag
    have session : r.activeControl = some m := (consistent m).1 flag
    refine ⟨?_, ?_, ?_⟩
    · rcases activeControl_switching order session with last | ⟨-, before⟩
      · exact last
      · cases before
    · intro command fits
      exact consistent.writeOnce_eq session fits
    · intro cartesian command elbow fits pair
      exact consistent.writeOnceElbow_eq session cartesian fits pair
  · intro off command elbow
    have closed : r.activeControl = none := by
      cases session : r.activeControl with
      | none => rfl
      | some m =>
          have flag := (consistent m).2 session
          rw [off m] at flag
          cases flag
    constructor
    · simp [writeOnce, closed]
    · simp [writeOnceElbow, closed]

/-- The same after a torque session that was refused once and started at the
second attempt. -/
theorem sent_as_started_recovered : (run call connected
    [.stopRobot, .initializeInterface .effort .refused, .stopRobot,
      .initializeInterface .effort .recovered]).writeOnce (List.replicate 7 (0 : Double ℚ)) =
    .sent .effort (List.replicate 7 0) none :=
  ((sent_as_started (K := ℚ) (.start _ _ (.start _ _ .nil))).2.1 .effort rfl).2.1 _ rfl

end Write

end Robot

/-! ## The calls of the hardware interface -/

namespace FrankaHardwareInterface

variable {K : Type u} [MachineArith K]

/-- `s'` has the robot that a list of mode switch calls makes of `r`. -/
def SwitchedFrom (r : Robot) (s' : FrankaHardwareInterface K) : Prop :=
  ∃ calls, Switching calls ∧ s'.robot = run Robot.call r calls

theorem SwitchedFrom.calls {r : Robot} {s s' : FrankaHardwareInterface K}
    (switched : SwitchedFrom r s) {more : List RobotCall} (order : Switching more)
    (robot : s'.robot = run Robot.call s.robot more) : SwitchedFrom r s' := by
  obtain ⟨calls, first, eq⟩ := switched
  refine ⟨calls ++ more, first.append order, ?_⟩
  rw [robot, eq, run_append]

/-- `f` does not touch the robot. -/
def KeepsRobot (f : FrankaHardwareInterface K → FrankaHardwareInterface K) : Prop :=
  ∀ s, (f s).robot = s.robot

theorem keepsRobot_startElbow : KeepsRobot (startElbow (K := K)) := by
  intro s
  unfold startElbow
  split <;> rfl

theorem keepsRobot_stopElbow : KeepsRobot (stopElbow (K := K)) := by
  intro s
  unfold stopElbow
  split <;> rfl

theorem keepsRobot_startPose : KeepsRobot (startPose (K := K)) := keepsRobot_startElbow

theorem keepsRobot_initializeCommand (i : CommandInterface) (new : List (Double K)) :
    KeepsRobot (initializeCommand i new) := by
  intro s
  unfold initializeCommand
  split <;> rfl

theorem switchedFrom_switchMode {r : Robot} {m : ControlMode}
    {f g h : FrankaHardwareInterface K → FrankaHardwareInterface K} (hf : KeepsRobot f)
    (hg : KeepsRobot g) (hh : KeepsRobot h) (outcome : ControlMode → StartOutcome)
    (s : FrankaHardwareInterface K) (switched : SwitchedFrom r s) :
    SwitchedFrom r (switchMode m f g h outcome s).2 := by
  rcases switchMode_cases m f g h outcome s with
    ⟨-, -, eq⟩ | ⟨-, -, eq⟩ | ⟨-, -, eq⟩ | ⟨-, eq⟩ <;> rw [eq]
  · apply switched.calls (.start m .started .nil)
    rw [hg]
    show (f s).robot.stopRobot.opened m = _
    rw [hf]
    rfl
  · apply switched.calls (.start m .refused .nil)
    show (f s).robot.stopRobot = _
    rw [hf]
    rfl
  · apply switched.calls (.stop .nil)
    rw [hh]
    rfl
  · exact switched

theorem switchedFrom_step {r : Robot} {s : FrankaHardwareInterface K}
    (switched : SwitchedFrom r s) (e : Event K) : SwitchedFrom r (step s e) := by
  have same : ∀ s' : FrankaHardwareInterface K, s'.robot = s.robot → SwitchedFrom r s' := by
    intro s' robot
    exact switched.calls .nil robot
  have reads : ∀ rs : RobotState K, (s.read rs).robot = s.robot := by
    intro rs
    simp only [read, initializePositionCommands, keepsRobot_initializeCommand _ _ _]
  cases e with
  | prepare start stop =>
      obtain ⟨claims, frame⟩ := prepare_frame start stop s
      apply same
      rw [step, frame]
  | perform outcome =>
      have kept : KeepsRobot (id : FrankaHardwareInterface K → _) := fun _ => rfl
      have zero : ∀ m, KeepsRobot (zeroCommands (K := K) m) := fun _ _ => rfl
      have first : ∀ i b, KeepsRobot (setFirstUpdate (K := K) i b) := fun _ _ _ => rfl
      refine perform_invariant (fun branch member => ?_) switched
      simp only [branches, List.mem_cons, List.not_mem_nil, or_false] at member
      rcases member with rfl | rfl | rfl | rfl | rfl
      · exact switchedFrom_switchMode (zero _) kept kept outcome
      · exact switchedFrom_switchMode (zero _) kept kept outcome
      · exact switchedFrom_switchMode kept (first _ _) kept outcome
      · exact switchedFrom_switchMode (zero _) keepsRobot_startElbow keepsRobot_stopElbow outcome
      · exact switchedFrom_switchMode kept keepsRobot_startPose keepsRobot_stopElbow outcome
  | read rs => exact same _ (reads rs)
  | activate rs => exact same _ (reads rs)
  | write => exact switched
  | setCommand i index value => exact same _ rfl
  | deactivate => exact switched.calls (.stop .nil) rfl

/-- **The calls behind a run.**  Whatever happens to the hardware interface, its
robot is the outcome of calls in the order `sent_as_started` is about. -/
theorem run_switching (exported : List String) (es : List (Event K)) :
    SwitchedFrom .connected (run step (constructed (K := K) exported) es) :=
  run_invariant step (I := SwitchedFrom .connected) (A := fun _ => True)
    (fun _ e _ switched => switchedFrom_step switched e) (fun _ _ => trivial) ⟨[], .nil, rfl⟩

end FrankaHardwareInterface

end FrankaRos.Hardware
