/-
# FrankaGripper.GripperActionServer -- one thread for every accepted goal

Every accepted goal is served by a detached thread.  It runs the gripper command in a
`std::async` task, polls the task's future, stops the gripper when a poll without a
result finds the goal canceling, and settles the goal with the result.

What the thread cannot influence is given: how the driver's calls end (`Gripper`), and
when requests to cancel arrive (`Timing`).  The goal handle belongs to `rclcpp_action`;
`GoalHandle` is its state machine, in which a transition that is not allowed throws.
-/
import FrankaRos.Theory.Double

namespace FrankaRos.FrankaGripper

open FrankaRos.Theory

set_option autoImplicit false

/-- `franka::Exception`, any other `std::exception`, and what an invalid transition throws. -/
inductive Exception where
  | franka (what : String)
  | other (what : String)
  | rclError
  deriving DecidableEq, Repr

/-- How a call of the driver ends. -/
inductive Outcome where
  | returned (success : Bool)
  | threw (e : Exception)
  deriving DecidableEq, Repr

/-! ## The goal handle -/

inductive GoalState where
  | executing
  | canceling
  | succeeded
  | aborted
  | canceled
  deriving DecidableEq, Repr

/-- A goal with the terminal transitions it has made and their results. -/
structure GoalHandle (R : Type) where
  state : GoalState
  ended : List (GoalState × R)
  deriving DecidableEq, Repr

namespace GoalHandle

variable {R : Type}

/-- A goal that was accepted and is executed at once. -/
def accepted : GoalHandle R := ⟨.executing, []⟩

/-- Whether a request to cancel arrives; `handleCancel` accepts every one. -/
def request (arrives : Bool) (h : GoalHandle R) : GoalHandle R :=
  if arrives = true ∧ h.state = .executing then { h with state := .canceling } else h

def isCanceling (h : GoalHandle R) : Bool := h.state == .canceling

/-- The goal after a terminal transition. -/
def settled (terminal : GoalState) (result : R) (h : GoalHandle R) : GoalHandle R :=
  ⟨terminal, h.ended ++ [(terminal, result)]⟩

def isActive (h : GoalHandle R) : Bool := h.state == .executing || h.state == .canceling

def succeed (result : R) (h : GoalHandle R) : Option (GoalHandle R) :=
  if h.isActive then some (h.settled .succeeded result) else none

def abort (result : R) (h : GoalHandle R) : Option (GoalHandle R) :=
  if h.isActive then some (h.settled .aborted result) else none

def canceled (result : R) (h : GoalHandle R) : Option (GoalHandle R) :=
  if h.isCanceling then some (h.settled .canceled result) else none

end GoalHandle

/-- The goal when its thread has returned, or when an exception has left the thread. -/
structure Served (R : Type) where
  handle : GoalHandle R
  escaped : Option Exception
  deriving DecidableEq, Repr

/-- A transition of `h`, which throws where there is none. -/
def Served.transition {R : Type} (h : GoalHandle R) : Option (GoalHandle R) → Served R
  | some h' => ⟨h', none⟩
  | none => ⟨h, some .rclError⟩

def Served.map {R S : Type} (f : R → S) (out : Served R) : Served S :=
  ⟨⟨out.handle.state, out.handle.ended.map fun e => (e.1, f e.2)⟩, out.escaped⟩

/-! ## Commands -/

/-- A command of the gripper. -/
inductive Command (K : Type) where
  | homing
  | move (width speed : Double K)
  | grasp (width speed force epsilonInner epsilonOuter : Double K)
  deriving DecidableEq, Repr

/-- How the driver behaves while a goal is served. -/
structure Gripper (K : Type) where
  perform : Command K → Outcome
  stop : Outcome

structure GripperState (K : Type) where
  width : Double K
  maxWidth : Double K
  deriving DecidableEq, Repr

/-- When requests to cancel arrive: before which of the polls that find no result
(`polls` has one entry for each of these), and whether after the last; and whether the
node has been shut down when the loop is left. -/
structure Timing where
  polls : List Bool
  late : Bool
  down : Bool
  deriving DecidableEq, Repr

/-- The result of homing, moving and grasping. -/
structure ActionResult where
  success : Bool
  error : String
  deriving DecidableEq, Repr

structure GripperCommandResult (K : Type) where
  position : Double K
  effort : Double K
  stalled : Bool
  reachedGoal : Bool
  deriving DecidableEq, Repr

/-- The polling loop and what follows it, which the two ways to execute a goal share.
`future` is what the task has left in the future, `finish` what is filled in afterwards. -/
def serveGoal {R : Type} (future : Except Exception R) (success : R → Bool) (finish : R → R)
    (stop : Outcome) (late down : Bool) : List Bool → GoalHandle R → Served R
  | [], h =>
      if down then ⟨h, none⟩
      else
        let h := h.request late
        match future with
        | .error e => ⟨h, some e⟩
        | .ok result =>
            if success (finish result) then .transition h (h.succeed (finish result))
            else .transition h (h.abort (finish result))
  | arrives :: polls, h =>
      let h := h.request arrives
      if h.isCanceling then
        match stop with
        | .threw e => ⟨h, some e⟩
        | .returned _ =>
            match future with
            | .error e => ⟨h, some e⟩
            | .ok result => .transition h (h.canceled result)
      else serveGoal future success finish stop late down polls h

/-- The result generator catches `franka::Exception` only. -/
def withResultGenerator : Outcome → Except Exception ActionResult
  | .returned success => .ok ⟨success, ""⟩
  | .threw (.franka what) => .ok ⟨false, what⟩
  | .threw e => .error e

section Execute

variable {K : Type}

def executeCommand (gripper : Gripper K) (timing : Timing) (command : Command K)
    (h : GoalHandle ActionResult) : Served ActionResult :=
  serveGoal (withResultGenerator (gripper.perform command)) (·.success) id gripper.stop
    timing.late timing.down timing.polls h

def executeHoming (gripper : Gripper K) (timing : Timing) (h : GoalHandle ActionResult) :
    Served ActionResult :=
  executeCommand gripper timing .homing h

def executeMove (gripper : Gripper K) (timing : Timing) (width speed : Double K)
    (h : GoalHandle ActionResult) : Served ActionResult :=
  executeCommand gripper timing (.move width speed) h

def executeGrasp (gripper : Gripper K) (timing : Timing)
    (width speed force epsilonInner epsilonOuter : Double K) (h : GoalHandle ActionResult) :
    Served ActionResult :=
  executeCommand gripper timing (.grasp width speed force epsilonInner epsilonOuter) h

variable [MachineArith K]

/-- The default result of a gripper command. -/
def emptyResult : GripperCommandResult K := ⟨0, 0, false, false⟩

/-- `command_execution_thread` of `executeGripperCommand`. -/
def commandExecutionThread : Outcome → Except Exception (GripperCommandResult K)
  | .returned success => .ok { emptyResult with reachedGoal := success }
  | .threw (.franka _) => .ok { emptyResult with reachedGoal := false }
  | .threw e => .error e

/-- The width at the end is filled in only behind the loop. -/
def executeGripperCommand (gripper : Gripper K) (timing : Timing) (widthAtEnd : Double K)
    (command : Command K) (h : GoalHandle (GripperCommandResult K)) :
    Served (GripperCommandResult K) :=
  serveGoal (commandExecutionThread (gripper.perform command)) (·.reachedGoal)
    (fun result => { result with position := widthAtEnd, effort := 0 }) gripper.stop
    timing.late timing.down timing.polls h

end Execute

/-! ## The server -/

structure GripperActionServer (K : Type) where
  defaultSpeed : Double K
  defaultEpsilonInner : Double K
  defaultEpsilonOuter : Double K

section Server

variable {K : Type} [MachineArith K]

def outOfRange (state : GripperState K) (targetWidth : Double K) : Bool :=
  decide (state.maxWidth < targetWidth) || decide (targetWidth < 0)

def samePosition (state : GripperState K) (targetWidth : Double K) : Bool :=
  decide (Double.abs (targetWidth - state.width) < Double.lit (1 / 10000))

/-- Open with `move`, close with `grasp`. -/
def gripperCommand (server : GripperActionServer K) (state : GripperState K)
    (targetWidth maxEffort : Double K) : Command K :=
  if state.width ≤ targetWidth then .move targetWidth server.defaultSpeed
  else
    .grasp targetWidth server.defaultSpeed maxEffort server.defaultEpsilonInner
      server.defaultEpsilonOuter

def onExecuteGripperCommand (server : GripperActionServer K) (gripper : Gripper K)
    (timing : Timing) (state : GripperState K) (widthAtEnd position maxEffort : Double K)
    (h : GoalHandle (GripperCommandResult K)) : Served (GripperCommandResult K) :=
  let targetWidth := Double.lit 2 * position
  if outOfRange state targetWidth then
    let h := h.request timing.late
    .transition h (h.abort emptyResult)
  else if samePosition state targetWidth then
    let h := h.request timing.late
    .transition h (h.succeed ⟨state.width, 0, false, true⟩)
  else
    executeGripperCommand gripper timing widthAtEnd
      (gripperCommand server state targetWidth maxEffort) h

/-! ## A session -/

inductive Goal (K : Type) where
  | homing
  | move (width speed : Double K)
  | grasp (width speed force epsilonInner epsilonOuter : Double K)
  | gripperCommand (position maxEffort : Double K)
  deriving DecidableEq, Repr

/-- An accepted goal with everything its thread meets. -/
structure GoalRun (K : Type) where
  goal : Goal K
  gripper : Gripper K
  timing : Timing
  state : GripperState K
  widthAtEnd : Double K

def execute (server : GripperActionServer K) (run : GoalRun K) :
    Served (ActionResult ⊕ GripperCommandResult K) :=
  match run.goal with
  | .homing => (executeHoming run.gripper run.timing .accepted).map .inl
  | .move width speed => (executeMove run.gripper run.timing width speed .accepted).map .inl
  | .grasp width speed force epsilonInner epsilonOuter =>
      (executeGrasp run.gripper run.timing width speed force epsilonInner epsilonOuter
        .accepted).map .inl
  | .gripperCommand position maxEffort =>
      (onExecuteGripperCommand server run.gripper run.timing run.state run.widthAtEnd position
        maxEffort .accepted).map .inr

/-- The goals of a session in the order in which their threads end.  An exception that
leaves a detached thread ends the process: the goals behind it are never settled. -/
def serve (server : GripperActionServer K) :
    List (GoalRun K) → List (Served (ActionResult ⊕ GripperCommandResult K))
  | [] => []
  | run :: session =>
      let out := execute server run
      match out.escaped with
      | none => out :: serve server session
      | some _ => out :: session.map fun _ => ⟨.accepted, none⟩

end Server

end FrankaRos.FrankaGripper
