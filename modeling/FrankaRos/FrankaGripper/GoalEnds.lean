/-
# FrankaGripper.GoalEnds -- when every goal ends exactly once

A goal ends once when its thread returns and has made one terminal transition.  The
thread catches `franka::Exception` around the command and nothing anywhere else, so an
exception leaves it in two ways: the command throws another exception, which the future
throws again, or a poll finds the goal canceling and `stop` throws.  `Harmless` excludes
both, and `session_ends_once_iff` says that nothing else can go wrong.
-/
import FrankaRos.FrankaGripper.GripperActionServer

namespace FrankaRos.FrankaGripper

open FrankaRos.Theory

set_option autoImplicit false

def GoalState.isTerminal : GoalState → Bool
  | .succeeded => true
  | .aborted => true
  | .canceled => true
  | _ => false

/-- The thread has returned and the goal is in the one terminal state it was brought to. -/
def Served.EndedOnce {R : Type} (out : Served R) : Prop :=
  out.escaped = none ∧ out.handle.state.isTerminal = true ∧
    ∃ result, out.handle.ended = [(out.handle.state, result)]

/-- The call returns or throws what the result generators catch. -/
def Outcome.Caught : Outcome → Prop
  | .returned _ => True
  | .threw (.franka _) => True
  | .threw _ => False

def Outcome.Returns : Outcome → Prop
  | .returned _ => True
  | .threw _ => False

theorem Served.endedOnce_map {R S : Type} (f : R → S) (out : Served R) :
    (out.map f).EndedOnce ↔ out.EndedOnce := by
  obtain ⟨⟨state, ended⟩, escaped⟩ := out
  constructor
  · rintro ⟨returned, terminal, result, one⟩
    obtain ⟨⟨_, result'⟩, rfl, entry⟩ := List.map_eq_singleton_iff.1 one
    obtain rfl : _ = state := congrArg Prod.fst entry
    exact ⟨returned, terminal, result', rfl⟩
  · rintro ⟨returned, terminal, result, one⟩
    obtain rfl : ended = [(state, result)] := one
    exact ⟨returned, terminal, f result, rfl⟩

/-! ## One goal -/

section Loop

variable {R : Type} {future : Except Exception R} {success : R → Bool} {finish : R → R}
  {stop : Outcome} {late : Bool}

/-- A goal that has not ended yet ends with its first terminal transition. -/
theorem GoalHandle.settled_endedOnce {h : GoalHandle R} (fresh : h.ended = [])
    {state : GoalState} (terminal : state.isTerminal = true) (result : R) :
    (Served.transition h (some (h.settled state result))).EndedOnce := by
  refine ⟨rfl, terminal, result, ?_⟩
  show h.ended ++ [(state, result)] = _
  rw [fresh]
  rfl

theorem GoalHandle.request_active (arrives : Bool) :
    ((GoalHandle.accepted (R := R)).request arrives).isActive = true ∧
      ((GoalHandle.accepted (R := R)).request arrives).ended = [] := by
  cases arrives <;> exact ⟨rfl, rfl⟩

theorem GoalHandle.succeed_endedOnce (arrives : Bool) (result : R) :
    (Served.transition ((GoalHandle.accepted (R := R)).request arrives)
      (((GoalHandle.accepted (R := R)).request arrives).succeed result)).EndedOnce := by
  obtain ⟨active, fresh⟩ := GoalHandle.request_active (R := R) arrives
  rw [GoalHandle.succeed, if_pos active]
  exact GoalHandle.settled_endedOnce fresh rfl _

theorem GoalHandle.abort_endedOnce (arrives : Bool) (result : R) :
    (Served.transition ((GoalHandle.accepted (R := R)).request arrives)
      (((GoalHandle.accepted (R := R)).request arrives).abort result)).EndedOnce := by
  obtain ⟨active, fresh⟩ := GoalHandle.request_active (R := R) arrives
  rw [GoalHandle.abort, if_pos active]
  exact GoalHandle.settled_endedOnce fresh rfl _

/-- What the loop needs to end the goal once: a result in the future, and a `stop` that
returns if one of its polls finds the goal canceling. -/
theorem serveGoal_endedOnce_iff (polls : List Bool) :
    (serveGoal future success finish stop late false polls .accepted).EndedOnce ↔
      (∃ result, future = .ok result) ∧ (true ∈ polls → stop.Returns) := by
  induction polls with
  | nil =>
      cases future with
      | error e => simp [serveGoal, Served.EndedOnce]
      | ok result =>
          refine ⟨fun _ => ⟨⟨result, rfl⟩, fun seen => by cases seen⟩, fun _ => ?_⟩
          simp only [serveGoal, Bool.false_eq_true, if_false]
          split
          · exact GoalHandle.succeed_endedOnce _ _
          · exact GoalHandle.abort_endedOnce _ _
  | cons arrives polls ih =>
      cases arrives with
      | false =>
          -- the poll finds the goal executing, and the loop goes on with it unchanged
          show (serveGoal future success finish stop late false polls .accepted).EndedOnce ↔ _
          simp [ih]
      | true =>
          cases stop with
          | threw e =>
              refine ⟨fun ended => ?_, fun returns => (returns.2 List.mem_cons_self).elim⟩
              cases ended.1
          | returned stopped =>
              cases future with
              | error e =>
                  refine ⟨fun ended => ?_, fun result => ?_⟩
                  · cases ended.1
                  · obtain ⟨⟨_, impossible⟩, _⟩ := result
                    cases impossible
              | ok result =>
                  refine ⟨fun _ => ⟨⟨result, rfl⟩, fun _ => trivial⟩, fun _ => ?_⟩
                  exact GoalHandle.settled_endedOnce (h := ⟨.canceling, []⟩) rfl rfl _

end Loop

theorem withResultGenerator_ok_iff (command : Outcome) :
    (∃ result, withResultGenerator command = .ok result) ↔ command.Caught := by
  cases command with
  | returned success => simp [withResultGenerator, Outcome.Caught]
  | threw e => cases e <;> simp [withResultGenerator, Outcome.Caught]

/-- Homing, moving and grasping end once. -/
theorem executeCommand_endedOnce_iff {K : Type} {gripper : Gripper K} {timing : Timing}
    (up : timing.down = false) (command : Command K) :
    (executeCommand gripper timing command .accepted).EndedOnce ↔
      (gripper.perform command).Caught ∧ (true ∈ timing.polls → gripper.stop.Returns) := by
  rw [executeCommand, up, serveGoal_endedOnce_iff, withResultGenerator_ok_iff]

section Server

variable {K : Type} [MachineArith K]

theorem commandExecutionThread_ok_iff (command : Outcome) :
    (∃ result, commandExecutionThread (K := K) command = .ok result) ↔ command.Caught := by
  cases command with
  | returned success => simp [commandExecutionThread, Outcome.Caught]
  | threw e => cases e <;> simp [commandExecutionThread, Outcome.Caught]

/-- The command of a goal, if it has one. -/
def GoalRun.command (server : GripperActionServer K) (run : GoalRun K) : Option (Command K) :=
  match run.goal with
  | .homing => some .homing
  | .move width speed => some (.move width speed)
  | .grasp width speed force epsilonInner epsilonOuter =>
      some (.grasp width speed force epsilonInner epsilonOuter)
  | .gripperCommand position maxEffort =>
      let targetWidth := Double.lit 2 * position
      if outOfRange run.state targetWidth || samePosition run.state targetWidth then none
      else some (gripperCommand server run.state targetWidth maxEffort)

/-- The goal has no command, or its command throws nothing but `franka::Exception` and
`stop` returns if a poll finds the goal canceling. -/
def GoalRun.Harmless (server : GripperActionServer K) (run : GoalRun K) : Prop :=
  ∀ command ∈ run.command server, (run.gripper.perform command).Caught ∧
    (true ∈ run.timing.polls → run.gripper.stop.Returns)

theorem executeGripperCommand_endedOnce_iff {gripper : Gripper K} {timing : Timing}
    (up : timing.down = false) (widthAtEnd : Double K) (command : Command K) :
    (executeGripperCommand gripper timing widthAtEnd command .accepted).EndedOnce ↔
      (gripper.perform command).Caught ∧ (true ∈ timing.polls → gripper.stop.Returns) := by
  rw [executeGripperCommand, up, serveGoal_endedOnce_iff, commandExecutionThread_ok_iff]

theorem execute_endedOnce_iff (server : GripperActionServer K) {run : GoalRun K}
    (up : run.timing.down = false) :
    (execute server run).EndedOnce ↔ run.Harmless server := by
  obtain ⟨goal, gripper, timing, state, widthAtEnd⟩ := run
  cases goal with
  | homing =>
      simp [execute, Served.endedOnce_map, executeHoming, executeCommand_endedOnce_iff up,
        GoalRun.Harmless, GoalRun.command]
  | move width speed =>
      simp [execute, Served.endedOnce_map, executeMove, executeCommand_endedOnce_iff up,
        GoalRun.Harmless, GoalRun.command]
  | grasp width speed force epsilonInner epsilonOuter =>
      simp [execute, Served.endedOnce_map, executeGrasp, executeCommand_endedOnce_iff up,
        GoalRun.Harmless, GoalRun.command]
  | gripperCommand position maxEffort =>
      simp only [execute, Served.endedOnce_map, onExecuteGripperCommand, GoalRun.Harmless,
        GoalRun.command]
      by_cases wide : outOfRange state (Double.lit 2 * position) = true
      · simp [wide, GoalHandle.abort_endedOnce]
      · by_cases same : samePosition state (Double.lit 2 * position) = true
        · simp [wide, same, GoalHandle.succeed_endedOnce]
        · simp [wide, same, executeGripperCommand_endedOnce_iff up]

/-! ## A session -/

/-- Every goal of a session ends exactly once, and no exception leaves a thread, exactly
when every goal of it is harmless. -/
theorem session_ends_once_iff (server : GripperActionServer K) (session : List (GoalRun K))
    (up : ∀ run ∈ session, run.timing.down = false) :
    (∀ out ∈ serve server session, out.EndedOnce) ↔ ∀ run ∈ session, run.Harmless server := by
  induction session with
  | nil => simp [serve]
  | cons run session ih =>
      have first := execute_endedOnce_iff server (up run List.mem_cons_self)
      have rest := ih fun other member => up other (List.mem_cons_of_mem run member)
      simp only [serve, List.forall_mem_cons]
      split
      · rw [List.forall_mem_cons, first, rest]
      · rename_i e escaped
        have fails : ¬ (execute server run).EndedOnce := fun ended => by
          rw [ended.1] at escaped
          cases escaped
        rw [List.forall_mem_cons, ← first]
        exact ⟨fun all => (fails all.1).elim, fun all => (fails all.1).elim⟩

end Server

/-! ## Two grippers -/

/-- A gripper whose commands end as `command` and which stops as `stop`. -/
def scripted (command stop : Outcome) : Gripper ℚ := ⟨fun _ => command, stop⟩

/-- A goal that is asked to cancel before its second poll. -/
def canceledRun (goal : Goal ℚ) (gripper : Gripper ℚ) : GoalRun ℚ where
  goal := goal
  gripper := gripper
  timing := ⟨[false, true], false, false⟩
  state := ⟨.fin (1 / 50), .fin (2 / 25)⟩
  widthAtEnd := .fin (1 / 50)

def defaultServer : GripperActionServer ℚ := ⟨.lit (1 / 10), .lit (1 / 200), .lit (1 / 200)⟩

/-- A move that is stopped and a gripper command that is canceled. -/
def canceledSession : List (GoalRun ℚ) :=
  [canceledRun (.move (.fin 0) (.fin 1))
      (scripted (.threw (.franka "command aborted")) (.returned true)),
    canceledRun (.gripperCommand (.fin (1 / 25)) (.fin 1))
      (scripted (.returned true) (.returned false))]

theorem session_ends_once_canceled :
    (∀ run ∈ canceledSession, run.timing.down = false) ∧
      ∀ out ∈ serve defaultServer canceledSession, out.EndedOnce := by
  have up : ∀ run ∈ canceledSession, run.timing.down = false := by decide
  refine ⟨up, (session_ends_once_iff defaultServer _ up).2 ?_⟩
  rw [canceledSession, List.forall_mem_cons, List.forall_mem_singleton]
  exact ⟨fun _ _ => ⟨trivial, fun _ => trivial⟩, fun _ _ => ⟨trivial, fun _ => trivial⟩⟩

/-- The connection is lost while a goal is canceled. -/
theorem not_session_ends_once_lost :
    ¬ ∀ out ∈ serve defaultServer
      [canceledRun .homing (scripted (.threw (.franka "connection lost"))
        (.threw (.franka "connection lost")))], out.EndedOnce := by
  intro ends
  have ended := ends _ List.mem_cons_self
  cases ended.1

end FrankaRos.FrankaGripper
