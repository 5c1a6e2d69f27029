/-
# MoveToStart.MoveToStartWithGripper -- from where the arm is to a goal

A controller that blends its reference from the pose the arm has on activation to a goal,
over a given duration, and then holds the goal or lets go.  What a motion needs is set in
different transitions: the time it has taken and whether it has finished by `on_configure`,
the start pose by `on_activate`.

The arithmetic is exact, in any ordered field; Eigen's `norm()` is a parameter, and so is
what the inverse kinematics make of an activation.  The index map of `read_state` is a
static of that function, which no transition resets.
-/
import FrankaRos.Controller.InterfaceMapping
import FrankaRos.RlAction.RlActionProcessor

namespace FrankaRos.MoveToStart

open FrankaRos.Controller (lastIndex allJoints lastIndex_eq_some allJoints_eq_some)
open FrankaRos.RlAction (clamp)

set_option autoImplicit false

inductive CallbackReturn where
  | success
  | failure
  | error
  deriving DecidableEq, Repr

inductive Lifecycle where
  | unconfigured
  | inactive
  | active
  | finalized
  deriving DecidableEq, Repr

abbrev Vector7d (R : Type) := Fin 7 → R

/-- Where the interfaces of a joint are. -/
structure StateIndex where
  pos : Nat
  vel : Nat
  deriving DecidableEq, Repr

/-- A vector of seven, as the size checks want it. -/
def seven {α : Type} (l : List α) : Option (Fin 7 → α) :=
  if size : l.length = 7 then some fun i => l.get (i.cast size.symm) else none

def buildStateMap (names : List String) (jointNames : Fin 7 → String) :
    Option (Fin 7 → StateIndex) :=
  allJoints fun j => do
    let pos ← lastIndex names (jointNames j ++ "/position")
    let vel ← lastIndex names (jointNames j ++ "/velocity")
    return ⟨pos, vel⟩

/-! ## State and inputs -/

structure MoveToStartWithGripper (R : Type) where
  jointNames : Fin 7 → String
  moveDuration : R
  finishTolerance : R
  holdPosition : Bool
  usePinocchioIk : Bool
  kGains : Vector7d R
  dGains : Vector7d R
  q : Vector7d R
  dq : Vector7d R
  qStart : Vector7d R
  qGoal : Vector7d R
  qDes : Vector7d R
  elapsedTime : R
  finished : Bool
  kinInitialized : Bool
  /-- The parameter `process_finished`. -/
  processFinished : Bool
  /-- The names of the loaned state interfaces. -/
  stateNames : List String
  stateMap : Option (Fin 7 → StateIndex)
  /-- What the command interfaces were last set to. -/
  effort : Vector7d R
  lifecycle : Lifecycle

/-- The parameters; gains that are not set throw. -/
structure Configuration (R : Type) where
  jointNames : List String
  qGoal : List R
  moveDuration : R
  finishTolerance : R
  holdPosition : Bool
  usePinocchioIk : Bool
  kGains : Option (List R)
  dGains : Option (List R)
  robotDescription : Bool

structure Activation (R : Type) where
  stateNames : List String
  stateValues : Nat → R
  /-- A robot description has come, and Pinocchio accepts it. -/
  initPinocchio : Bool
  /-- The solution for the target pose, if there is one. -/
  ik : Option (Vector7d R)
  robotStateAssigned : Bool

/-- Time does not run backwards. -/
structure Cycle (R : Type) [Zero R] [LE R] where
  period : R
  period_nonneg : 0 ≤ period
  stateValues : Nat → R
  /-- The robot state can be read. -/
  robotState : Bool

namespace MoveToStartWithGripper

variable {R : Type} [Field R] [LinearOrder R]

def constructed : MoveToStartWithGripper R where
  jointNames _ := ""
  moveDuration := 10.0
  finishTolerance := 0.01
  holdPosition := true
  usePinocchioIk := false
  kGains _ := 0
  dGains _ := 0
  q _ := 0
  dq _ := 0
  qStart _ := 0
  qGoal _ := 0
  qDes _ := 0
  elapsedTime := 0
  finished := false
  kinInitialized := false
  processFinished := false
  stateNames := []
  stateMap := none
  effort _ := 0
  lifecycle := .unconfigured

/-! ## Callbacks -/

def onConfigure (given : Configuration R) (s : MoveToStartWithGripper R) :
    CallbackReturn × MoveToStartWithGripper R :=
  let s := { s with
    moveDuration := given.moveDuration, finishTolerance := given.finishTolerance
    holdPosition := given.holdPosition, usePinocchioIk := given.usePinocchioIk }
  match seven given.jointNames, seven given.qGoal with
  | some jointNames, some qGoal =>
      let s := { s with
        jointNames, qGoal, elapsedTime := 0, finished := false, kinInitialized := false
        processFinished := false }
      match given.kGains, given.dGains with
      | some kGains, some dGains =>
          match seven kGains, seven dGains with
          | some kGains, some dGains =>
              (if given.robotDescription then .success else .error, { s with kGains, dGains })
          | _, _ => (.failure, s)
      | _, _ => (.error, s)
  | _, _ => (.error, s)

/-- `read_state`; without its map it leaves the last readings. -/
def readState (stateValues : Nat → R) (s : MoveToStartWithGripper R) : MoveToStartWithGripper R :=
  match s.stateMap.or (buildStateMap s.stateNames s.jointNames) with
  | none => s
  | some map =>
      { s with
        stateMap := some map
        q := fun j => stateValues (map j).pos
        dq := fun j => stateValues (map j).vel }

/-- The goal that the inverse kinematics find. -/
def solveIk (given : Activation R) (s : MoveToStartWithGripper R) : MoveToStartWithGripper R :=
  let s := { s with kinInitialized := s.kinInitialized || given.initPinocchio }
  if s.kinInitialized then
    match given.ik with
    | some qSol => { s with qGoal := qSol }
    | none => s
  else s

def onActivate (given : Activation R) (s : MoveToStartWithGripper R) :
    CallbackReturn × MoveToStartWithGripper R :=
  let s := { s with stateNames := given.stateNames }.readState given.stateValues
  let s := { s with qStart := s.q }
  let s := if s.usePinocchioIk then s.solveIk given else s
  (if given.robotStateAssigned then .success else .error, s)

/-- `std::max(1e-6, move_duration_)`. -/
def duration (s : MoveToStartWithGripper R) : R := max 1e-6 s.moveDuration

/-- The reference between start and goal. -/
def blend (s : MoveToStartWithGripper R) (t : R) : Vector7d R := fun i =>
  (1 - t) * s.qStart i + t * s.qGoal i

/-- The reference of a cycle, and whether the motion finishes in it. -/
def reference (norm : Vector7d R → R) (dt : R) (s : MoveToStartWithGripper R) :
    MoveToStartWithGripper R :=
  if s.finished = false then
    let elapsedTime := s.elapsedTime + dt
    let qDes := s.blend (clamp (elapsedTime / s.duration) 0 1)
    let s := { s with elapsedTime, qDes }
    if norm (fun i => s.q i - s.qGoal i) < s.finishTolerance then
      { s with finished := true, processFinished := true }
    else s
  else if s.holdPosition then { s with qDes := s.qGoal }
  else { s with qDes := s.q }

/-- `false` is `ERROR`. -/
def update (norm : Vector7d R → R) (given : Cycle R) (s : MoveToStartWithGripper R) :
    Bool × MoveToStartWithGripper R :=
  let s := s.readState given.stateValues
  if given.robotState = false then (false, s)
  else
    let s := s.reference norm given.period
    let effort := fun i => s.kGains i * (s.qDes i - s.q i) - s.dGains i * s.dq i
    (true, { s with effort })

/-! ## Runs -/

inductive Event (R : Type) [Zero R] [LE R] where
  | configure (given : Configuration R)
  | activate (given : Activation R)
  | deactivate
  | cleanup
  | update (given : Cycle R)

/-- A transition that fails leaves its state, one with an error ends the controller. -/
def settle (target : Lifecycle) :
    CallbackReturn × MoveToStartWithGripper R → MoveToStartWithGripper R
  | (.success, s) => { s with lifecycle := target }
  | (.failure, s) => s
  | (.error, s) => { s with lifecycle := .finalized }

/-- `on_deactivate` and `on_cleanup` change no member. -/
def step (norm : Vector7d R → R) (s : MoveToStartWithGripper R) :
    Event R → MoveToStartWithGripper R
  | .configure given =>
      if s.lifecycle = .unconfigured then settle .inactive (s.onConfigure given) else s
  | .activate given => if s.lifecycle = .inactive then settle .active (s.onActivate given) else s
  | .deactivate => if s.lifecycle = .active then { s with lifecycle := .inactive } else s
  | .cleanup => if s.lifecycle = .inactive then { s with lifecycle := .unconfigured } else s
  | .update given => if s.lifecycle = .active then (s.update norm given).2 else s

end MoveToStartWithGripper

end FrankaRos.MoveToStart
