/-
# FrankaGripper.CommandWidth -- which widths reach the hardware

`onExecuteGripperCommand` compares the target width with the range, then with the
current width, and hands what is left to the task.  The calls the task makes are logged
here (`onExecuteGripperCommandSent`); the log is the only addition.

Both range tests are false at NaN, so are the two that follow, and a target that is not a
number is commanded with `grasp`.  A maximum width that is not a number lets every target
through that is not negative.  `widthSafe_iff` says that nothing else goes wrong but an
exception of the driver that the task does not catch.
-/
import FrankaRos.FrankaGripper.GoalEnds

namespace FrankaRos.FrankaGripper

open FrankaRos.Theory

set_option autoImplicit false

/-- The call returns `false` or throws. -/
def Outcome.Fails : Outcome → Prop
  | .returned success => success = false
  | .threw _ => True

/-- A loop that never finds the goal canceling aborts it exactly when the task has left an
unsuccessful result. -/
theorem serveGoal_aborted_iff {R : Type} {future : Except Exception R} {success : R → Bool}
    {finish : R → R} {stop : Outcome} {late : Bool} {polls : List Bool} (calm : true ∉ polls) :
    (serveGoal future success finish stop late false polls .accepted).handle.state = .aborted ↔
      ∃ result, future = .ok result ∧ success (finish result) = false := by
  induction polls with
  | nil =>
      have active := (GoalHandle.request_active (R := R) late).1
      cases future with
      | error e => cases late <;> simp [serveGoal, GoalHandle.request, GoalHandle.accepted]
      | ok result =>
          cases succeeded : success (finish result) <;>
            simp [serveGoal, succeeded, GoalHandle.succeed, GoalHandle.abort, active,
              Served.transition, GoalHandle.settled]
  | cons arrives polls ih =>
      cases arrives with
      | true => exact (calm List.mem_cons_self).elim
      | false => exact ih fun later => calm (List.mem_cons_of_mem false later)

namespace Command

variable {K : Type}

/-- The width a command asks for. -/
def width : Command K → Option (Double K)
  | .homing => none
  | .move width _ => some width
  | .grasp width _ _ _ _ => some width

def isMove : Command K → Bool
  | .move _ _ => true
  | _ => false

def isGrasp : Command K → Bool
  | .grasp _ _ _ _ _ => true
  | _ => false

end Command

section Sent

variable {K : Type} [MachineArith K]

/-- The target width of a goal. -/
def targetWidth (position : Double K) : Double K := Double.lit 2 * position

/-- The task's call of the driver, logged behind the calls `sent` before it. -/
def Gripper.call (gripper : Gripper K) (command : Command K) (sent : List (Command K)) :
    List (Command K) × Outcome :=
  (sent ++ [command], gripper.perform command)

/-- `executeGripperCommand`: the task is launched at once, whatever the loop meets. -/
def executeGripperCommandSent (gripper : Gripper K) (timing : Timing) (widthAtEnd : Double K)
    (command : Command K) (h : GoalHandle (GripperCommandResult K)) (sent : List (Command K)) :
    List (Command K) × Served (GripperCommandResult K) :=
  let call := gripper.call command sent
  (call.1,
    serveGoal (commandExecutionThread call.2) (·.reachedGoal)
      (fun result => { result with position := widthAtEnd, effort := 0 }) gripper.stop
      timing.late timing.down timing.polls h)

/-- `onExecuteGripperCommand` with the log of the calls. -/
def onExecuteGripperCommandSent (server : GripperActionServer K) (gripper : Gripper K)
    (timing : Timing) (state : GripperState K) (widthAtEnd position maxEffort : Double K)
    (h : GoalHandle (GripperCommandResult K)) (sent : List (Command K)) :
    List (Command K) × Served (GripperCommandResult K) :=
  if outOfRange state (targetWidth position) then
    let h := h.request timing.late
    (sent, .transition h (h.abort emptyResult))
  else if samePosition state (targetWidth position) then
    let h := h.request timing.late
    (sent, .transition h (h.succeed ⟨state.width, 0, false, true⟩))
  else
    executeGripperCommandSent gripper timing widthAtEnd
      (gripperCommand server state (targetWidth position) maxEffort) h sent

/-- The log changes nothing else. -/
theorem onExecuteGripperCommandSent_served (server : GripperActionServer K)
    (gripper : Gripper K) (timing : Timing) (state : GripperState K)
    (widthAtEnd position maxEffort : Double K) (h : GoalHandle (GripperCommandResult K))
    (sent : List (Command K)) :
    (onExecuteGripperCommandSent server gripper timing state widthAtEnd position maxEffort h
      sent).2 =
      onExecuteGripperCommand server gripper timing state widthAtEnd position maxEffort h := by
  unfold onExecuteGripperCommandSent onExecuteGripperCommand targetWidth
  by_cases wide : outOfRange state (Double.lit 2 * position) = true
  · rw [if_pos wide, if_pos wide]
  · by_cases same : samePosition state (Double.lit 2 * position) = true
    · rw [if_neg wide, if_neg wide, if_pos same, if_pos same]
    · rw [if_neg wide, if_neg wide, if_neg same, if_neg same]
      rfl

/-! ## Ranges -/

/-- A width the gripper can open to. -/
def GripperState.InRange (state : GripperState K) (width : Double K) : Prop :=
  0 ≤ width ∧ width ≤ state.maxWidth

/-- What passes the two tests is in the range, if it and the maximum are numbers. -/
theorem inRange_of_not_outOfRange {state : GripperState K} {width : Double K}
    (number : width.isNaN = false) (bounded : state.maxWidth.isNaN = false)
    (passes : outOfRange state width = false) : state.InRange width := by
  simp only [outOfRange, Bool.or_eq_false_iff, decide_eq_false_iff_not] at passes
  exact ⟨(Double.not_lt_iff rfl number).1 passes.2, (Double.not_lt_iff number bounded).1 passes.1⟩

theorem not_inRange_of_outOfRange {state : GripperState K} {width : Double K}
    (fails : outOfRange state width = true) : ¬ state.InRange width := by
  rintro ⟨nonneg, below⟩
  simp only [outOfRange, Bool.or_eq_true, decide_eq_true_eq] at fails
  exact fails.elim (Double.not_lt_of_le below) (Double.not_lt_of_le nonneg)

theorem GripperState.InRange.numbers {state : GripperState K} {width : Double K}
    (inside : state.InRange width) : width.isNaN = false ∧ state.maxWidth.isNaN = false :=
  Double.le_number inside.2

/-- No test stops a target that is not a number. -/
theorem nan_passes (state : GripperState K) :
    outOfRange state .nan = false ∧ samePosition state .nan = false := by
  have gap : (Double.nan : Double K) - state.width = .nan := Double.nan_add _
  exact ⟨by simp [outOfRange], by simp [samePosition, gap, Double.abs]⟩

theorem number_of_outOfRange {state : GripperState K} {width : Double K}
    (wide : outOfRange state width = true) : width.isNaN = false := by
  cases width with
  | nan => rw [(nan_passes state).1] at wide; cases wide
  | _ => rfl

theorem number_of_samePosition {state : GripperState K} {width : Double K}
    (same : samePosition state width = true) : width.isNaN = false := by
  cases width with
  | nan => rw [(nan_passes state).2] at same; cases same
  | _ => rfl

theorem gripperCommand_width (server : GripperActionServer K) (state : GripperState K)
    (width maxEffort : Double K) :
    (gripperCommand server state width maxEffort).width = some width := by
  unfold gripperCommand
  split <;> rfl

theorem gripperCommand_direction (server : GripperActionServer K) (state : GripperState K)
    (width maxEffort : Double K) :
    ((gripperCommand server state width maxEffort).isMove = true ↔ state.width ≤ width) ∧
      ((gripperCommand server state width maxEffort).isGrasp = true ↔ ¬ state.width ≤ width) := by
  unfold gripperCommand
  split <;> simp_all [Command.isMove, Command.isGrasp]

/-! ## When a goal is safe -/

/-- What is asked of a goal: at most one command, with a width in the range and in the
right direction; none where none is due; and an abort exactly for a bad target or a failed
command. -/
structure WidthSafe (server : GripperActionServer K) (gripper : Gripper K) (timing : Timing)
    (state : GripperState K) (widthAtEnd position maxEffort : Double K) : Prop where
  once : (onExecuteGripperCommandSent server gripper timing state widthAtEnd position maxEffort
    .accepted []).1.length ≤ 1
  inRange : ∀ command ∈ (onExecuteGripperCommandSent server gripper timing state widthAtEnd
    position maxEffort .accepted []).1, ∃ width, command.width = some width ∧ state.InRange width
  direction : ∀ command ∈ (onExecuteGripperCommandSent server gripper timing state widthAtEnd
    position maxEffort .accepted []).1,
      (command.isMove = true ↔ state.width ≤ targetWidth position) ∧
        (command.isGrasp = true ↔ ¬ state.width ≤ targetWidth position)
  quiet : samePosition state (targetWidth position) = true ∨
      ¬ state.InRange (targetWidth position) ∨ (targetWidth position).isNaN = true →
    (onExecuteGripperCommandSent server gripper timing state widthAtEnd position maxEffort
      .accepted []).1 = []
  aborted : timing.down = false → true ∉ timing.polls →
    ((onExecuteGripperCommandSent server gripper timing state widthAtEnd position maxEffort
      .accepted []).2.handle.state = .aborted ↔
        ¬ state.InRange (targetWidth position) ∨ (targetWidth position).isNaN = true ∨
          ∃ command ∈ (onExecuteGripperCommandSent server gripper timing state widthAtEnd position
            maxEffort .accepted []).1, (gripper.perform command).Fails)

/-- A poll finds the goal canceling, or the node is shut down. -/
def Timing.Interrupted (timing : Timing) : Prop := timing.down = true ∨ true ∈ timing.polls

/-- The target is a number and is rejected, or the range it was held against had a number as
its maximum and the driver throws only what the task catches. -/
def Commandable (server : GripperActionServer K) (gripper : Gripper K) (timing : Timing)
    (state : GripperState K) (position maxEffort : Double K) : Prop :=
  (targetWidth position).isNaN = false ∧
    (outOfRange state (targetWidth position) = true ∨
      if samePosition state (targetWidth position) = true then
        state.maxWidth.isNaN = false ∨ timing.Interrupted
      else
        state.maxWidth.isNaN = false ∧ (timing.Interrupted ∨
          (gripper.perform
            (gripperCommand server state (targetWidth position) maxEffort)).Caught))

section Cases

variable {server : GripperActionServer K} {gripper : Gripper K} {timing : Timing}
  {state : GripperState K} {widthAtEnd position maxEffort : Double K}

variable (server gripper timing widthAtEnd maxEffort) in
theorem sent_of_outOfRange (wide : outOfRange state (targetWidth position) = true) :
    (onExecuteGripperCommandSent server gripper timing state widthAtEnd position maxEffort
        .accepted []).1 = [] ∧
      (onExecuteGripperCommandSent server gripper timing state widthAtEnd position maxEffort
        .accepted []).2.handle.state = .aborted := by
  have active := (GoalHandle.request_active (R := GripperCommandResult K) timing.late).1
  simp [onExecuteGripperCommandSent, wide, GoalHandle.abort, active, Served.transition,
    GoalHandle.settled]

variable (server gripper timing widthAtEnd maxEffort) in
theorem sent_of_samePosition (passes : outOfRange state (targetWidth position) = false)
    (same : samePosition state (targetWidth position) = true) :
    (onExecuteGripperCommandSent server gripper timing state widthAtEnd position maxEffort
        .accepted []).1 = [] ∧
      (onExecuteGripperCommandSent server gripper timing state widthAtEnd position maxEffort
        .accepted []).2.handle.state = .succeeded := by
  have active := (GoalHandle.request_active (R := GripperCommandResult K) timing.late).1
  simp [onExecuteGripperCommandSent, passes, same, GoalHandle.succeed, active, Served.transition,
    GoalHandle.settled]

variable (server gripper timing widthAtEnd maxEffort) in
theorem sent_of_command (passes : outOfRange state (targetWidth position) = false)
    (away : samePosition state (targetWidth position) = false) :
    onExecuteGripperCommandSent server gripper timing state widthAtEnd position maxEffort
        .accepted [] =
      ([gripperCommand server state (targetWidth position) maxEffort],
        executeGripperCommand gripper timing widthAtEnd
          (gripperCommand server state (targetWidth position) maxEffort) .accepted) := by
  simp only [onExecuteGripperCommandSent, passes, away, Bool.false_eq_true, if_false]
  rfl

/-- A goal that is not interrupted is aborted exactly when its command has failed in a way
the task reports. -/
theorem executeGripperCommand_aborted_iff (up : timing.down = false)
    (calm : true ∉ timing.polls) (command : Command K) :
    (executeGripperCommand gripper timing widthAtEnd command .accepted).handle.state = .aborted ↔
      (gripper.perform command).Caught ∧ (gripper.perform command).Fails := by
  rw [executeGripperCommand, up, serveGoal_aborted_iff calm]
  cases gripper.perform command with
  | returned success => simp [commandExecutionThread, Outcome.Caught, Outcome.Fails]
  | threw e =>
      cases e <;> simp [commandExecutionThread, Outcome.Caught, Outcome.Fails]

theorem not_interrupted_iff : ¬ timing.Interrupted ↔ timing.down = false ∧ true ∉ timing.polls := by
  simp [Timing.Interrupted]

/-- A goal that is rejected is safe. -/
theorem widthSafe_of_outOfRange (wide : outOfRange state (targetWidth position) = true) :
    WidthSafe server gripper timing state widthAtEnd position maxEffort := by
  obtain ⟨none, aborted⟩ := sent_of_outOfRange server gripper timing widthAtEnd maxEffort wide
  exact {
    once := by simp [none]
    inRange := by simp [none]
    direction := by simp [none]
    quiet := fun _ => none
    aborted := fun _ _ => ⟨fun _ => .inl (not_inRange_of_outOfRange wide), fun _ => aborted⟩ }

/-- A goal that is already reached is safe if its target is in the range, and otherwise
only where nothing is asked of its end. -/
theorem widthSafe_of_samePosition (passes : outOfRange state (targetWidth position) = false)
    (same : samePosition state (targetWidth position) = true) :
    WidthSafe server gripper timing state widthAtEnd position maxEffort ↔
      state.InRange (targetWidth position) ∨ timing.Interrupted := by
  obtain ⟨none, succeeded⟩ :=
    sent_of_samePosition server gripper timing widthAtEnd maxEffort passes same
  constructor
  · intro safe
    by_contra neither
    obtain ⟨outside, calm⟩ := not_or.1 neither
    obtain ⟨up, calm⟩ := not_interrupted_iff.1 calm
    have aborted := (safe.aborted up calm).2 (.inl outside)
    rw [succeeded] at aborted
    cases aborted
  · intro either
    exact {
      once := by simp [none]
      inRange := by simp [none]
      direction := by simp [none]
      quiet := fun _ => none
      aborted := fun up calm => by
        have inside := either.resolve_right (not_interrupted_iff.2 ⟨up, calm⟩)
        simp [succeeded, none, inside, inside.numbers.1] }

/-- A goal that is commanded is safe exactly when its target is in the range and the driver
throws nothing the task does not catch, unless it is interrupted. -/
theorem widthSafe_of_command (passes : outOfRange state (targetWidth position) = false)
    (away : samePosition state (targetWidth position) = false) :
    WidthSafe server gripper timing state widthAtEnd position maxEffort ↔
      state.InRange (targetWidth position) ∧ (timing.Interrupted ∨
        (gripper.perform
          (gripperCommand server state (targetWidth position) maxEffort)).Caught) := by
  have sent := sent_of_command server gripper timing widthAtEnd maxEffort passes away
  have width := gripperCommand_width server state (targetWidth position) maxEffort
  have direction := gripperCommand_direction server state (targetWidth position) maxEffort
  generalize gripperCommand server state (targetWidth position) maxEffort = command at *
  constructor
  · intro safe
    obtain ⟨_, asked, inside⟩ := safe.inRange command (by simp [sent])
    obtain rfl := Option.some.inj (asked.symm.trans width)
    refine ⟨inside, or_iff_not_imp_left.2 fun calm => ?_⟩
    obtain ⟨up, calm⟩ := not_interrupted_iff.1 calm
    have ends := safe.aborted up calm
    simp only [sent, List.mem_singleton, exists_eq_left] at ends
    cases outcome : gripper.perform command with
    | returned success => trivial
    | threw e =>
        have aborted := ends.2 (.inr (.inr (by simp [outcome, Outcome.Fails])))
        rw [← outcome]
        exact ((executeGripperCommand_aborted_iff up calm command).1 aborted).1
  · rintro ⟨inside, ends⟩
    have number := inside.numbers.1
    exact {
      once := by simp [sent]
      inRange := by simpa [sent] using ⟨_, width, inside⟩
      direction := by simpa [sent] using direction
      quiet := by simp [away, inside, number]
      aborted := fun up calm => by
        have caught := ends.resolve_left (not_interrupted_iff.2 ⟨up, calm⟩)
        rw [sent, executeGripperCommand_aborted_iff up calm command]
        simp [inside, number, caught] }

end Cases

/-- A goal is safe exactly when its target is a number that is rejected, or is reached
already or commanded under a maximum that is a number and with a driver that throws nothing
but `franka::Exception`; an interrupted goal may end in any way. -/
theorem widthSafe_iff (server : GripperActionServer K) (gripper : Gripper K) (timing : Timing)
    (state : GripperState K) (widthAtEnd position maxEffort : Double K) :
    WidthSafe server gripper timing state widthAtEnd position maxEffort ↔
      Commandable server gripper timing state position maxEffort := by
  have range (number : (targetWidth position).isNaN = false)
      (passes : outOfRange state (targetWidth position) = false) :
      state.InRange (targetWidth position) ↔ state.maxWidth.isNaN = false :=
    ⟨fun inside => inside.numbers.2, fun bounded => inRange_of_not_outOfRange number bounded passes⟩
  cases wide : outOfRange state (targetWidth position) with
  | true =>
      have number := number_of_outOfRange wide
      exact ⟨fun _ => ⟨number, .inl wide⟩, fun _ => widthSafe_of_outOfRange wide⟩
  | false =>
      cases same : samePosition state (targetWidth position) with
      | true =>
          rw [widthSafe_of_samePosition wide same]
          have number := number_of_samePosition same
          simp [Commandable, wide, same, number, range number wide]
      | false =>
          rw [widthSafe_of_command wide same]
          constructor
          · rintro ⟨inside, ends⟩
            have bounded := inside.numbers.2
            simp [Commandable, wide, same, inside.numbers.1, bounded, ends]
          · intro commandable
            obtain ⟨number, tests⟩ := commandable
            simpa [wide, same, range number wide] using tests

end Sent

/-! ## A target that is not a number -/

/-- A gripper that is open by two centimetres of eight. -/
def openState : GripperState ℚ := ⟨.fin (1 / 50), .fin (2 / 25)⟩

/-- The command that reaches the hardware is a grasp of the same target. -/
theorem not_widthSafe_nan :
    ¬ WidthSafe defaultServer (scripted (.returned true) (.returned true)) ⟨[], false, false⟩
      openState (.fin 0) .nan (.fin 10) := by
  intro safe
  have quiet := safe.quiet (.inr (.inr rfl))
  exact absurd quiet (by decide)

end FrankaRos.FrankaGripper
