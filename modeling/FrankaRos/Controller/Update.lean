/-
# Controller.Update -- one control cycle

`update` runs the gate, reads the joint state and the robot state message,
records the wrench and the warm-up pose, and then either holds the warm-up pose
or executes the effective mode, computes the joint PD torque, blends it with the
operational-space torque and writes it to the command interfaces.

`MOVE_POSE_1` and `MOVE_POSE_2` run the same code on their own members, which is
`policyPhase`; the body of the `RUN_RL` case is commented out in the source, so
that mode falls through to the default case and changes nothing.
-/
import FrankaRos.Controller.Gate

namespace FrankaRos.Controller

open FrankaRos.Theory

set_option autoImplicit false

set_option linter.unusedSectionVars false

/-- How `update` ends: with a return code, or with the exception of a failing
inference. -/
inductive UpdateResult where
  | ok
  | error
  | escaped
  deriving DecidableEq, Repr

/-! ## Interface maps -/

/-- The last index at which `name` occurs. -/
def lastIndex (names : List String) (name : String) : Option Nat :=
  names.zipIdx.foldl (fun found entry => if entry.1 = name then some entry.2 else found) .none

/-- All seven joints, or nothing. -/
def allJoints {α : Type} (found : Fin 7 → Option α) : Option (Fin 7 → α) :=
  if complete : ∀ j, (found j).isSome = true then some fun j => (found j).get (complete j)
  else .none

def buildStateMap (names : List String) (jointNames : Fin 7 → String) :
    Option (Fin 7 → StateIndex) :=
  allJoints fun j => do
    let pos ← lastIndex names (jointNames j ++ "/position")
    let vel ← lastIndex names (jointNames j ++ "/velocity")
    let eff ← lastIndex names (jointNames j ++ "/effort")
    return ⟨pos, vel, eff⟩

def buildCmdMap (names : List String) (jointNames : Fin 7 → String) : Option (Fin 7 → Nat) :=
  allJoints fun j => lastIndex names (jointNames j ++ "/effort")

/-- `period.seconds()`. -/
def Cycle.dt {K : Type} (given : Cycle K) : Double K := .fin given.period

/-! ## The two policy phases -/

inductive PolicyPhase where
  | pose1
  | pose2
  deriving DecidableEq, Repr

namespace PolicyPhase

variable {K : Type}

def cmd : PolicyPhase → TaskCmd
  | pose1 => .movePose1
  | pose2 => .movePose2

def duration (p : Params K) : PolicyPhase → Double K
  | pose1 => p.moveDuration
  | pose2 => p.moveDuration2

/-- `q_goal_` or `q_goal_2_`. -/
def goal (r : Refs K) : PolicyPhase → Vector7d K
  | pose1 => r.qGoal
  | pose2 => r.qGoal2

def setGoal (q : Vector7d K) (r : Refs K) : PolicyPhase → Refs K
  | pose1 => { r with qGoal := q }
  | pose2 => { r with qGoal2 := q }

def setFinished (t : Task K) : PolicyPhase → Task K
  | pose1 => { t with move1Finished := true }
  | pose2 => { t with move2Finished := true }

end PolicyPhase

/-- The entries of the arm joints in the nine-joint limit arrays. -/
def arm (i : Fin 7) : Fin 9 := i.castLE (by decide)

variable {K : Type} [MachineArith K]

/-- A policy output as it is used: finite and within [-1, 1]. -/
def usedAction (a : Double K) : Double K :=
  Double.clamp (if a.isFinite then a else 0) (Double.lit (-1)) (Double.lit 1)

/-- The target of one joint before it is clamped to its limits. -/
def rawTarget (p : Params K) (policyDt : Double K) (action : Fin 9 → Double K)
    (target : Vector7d K) (i : Fin 7) : Double K :=
  target i + p.speedScales (arm i) * policyDt * usedAction (action (arm i)) * p.actionScale

/-- The loop over the joints after an inference. -/
def policyTarget (p : Params K) (policyDt : Double K) (action : Fin 9 → Double K)
    (target : Vector7d K) : Vector7d K := fun i =>
  Double.clamp (rawTarget p policyDt action target i) (p.lower (arm i)) (p.upper (arm i))

namespace MoveCatersianImpWithGripper

/-- Whether the phase has just been entered, as far as its accumulated time says. -/
def AtStart (s : MoveCatersianImpWithGripper K) : Prop :=
  Double.abs s.task.elapsedTime ≤ Double.lit (1 / 1000000)

instance (s : MoveCatersianImpWithGripper K) : Decidable s.AtStart :=
  inferInstanceAs (Decidable (_ ≤ _))

/-- The head of a policy phase: initialise at its start, then accumulate. -/
def beginPolicy (given : Cycle K) (s : MoveCatersianImpWithGripper K) :
    MoveCatersianImpWithGripper K :=
  let refs := if s.AtStart then { s.refs with qPolicyTarget := s.measured.q, rlTimer := 0 }
    else s.refs
  { s with
    task := { s.task with elapsedTime := s.task.elapsedTime + given.dt }
    refs := { refs with rlTimer := refs.rlTimer + given.dt } }

/-- Run the policy when its period is over; `false` when the inference throws. -/
def inferPolicy (given : Cycle K) (s : MoveCatersianImpWithGripper K) :
    Bool × MoveCatersianImpWithGripper K :=
  if s.params.rlDt ≤ s.refs.rlTimer then
    let policyDt := s.refs.rlTimer
    let s := { s with refs := { s.refs with rlTimer := 0 } }
    match given.action with
    | .none => (false, s)
    | some action => (true, { s with refs := { s.refs with
        qPolicyTarget := policyTarget s.params policyDt action s.refs.qPolicyTarget } })
  else (true, s)

/-- The end of an unfinished policy phase's cycle. -/
def trackPolicy (ph : PolicyPhase) (given : Cycle K) (s : MoveCatersianImpWithGripper K) :
    MoveCatersianImpWithGripper K :=
  let refs := { s.refs with qDes := s.refs.qPolicyTarget }
  let s := { s with refs := ph.setGoal refs.qDes refs }
  if given.distPick < s.params.rIn ∨ ph.duration s.params < s.task.elapsedTime then
    { s with task := ph.setFinished s.task }
  else s

/-- A finished phase holds its goal, or follows the arm. -/
def hold (goal : Vector7d K) (s : MoveCatersianImpWithGripper K) :
    MoveCatersianImpWithGripper K :=
  { s with refs := { s.refs with qDes := if s.params.holdPosition then goal else s.measured.q } }

def policyPhase (ph : PolicyPhase) (given : Cycle K) (s : MoveCatersianImpWithGripper K) :
    Bool × MoveCatersianImpWithGripper K :=
  let s := s.beginPolicy given
  if s.task.finished ph.cmd then (true, s.hold (ph.goal s.refs))
  else
    match s.inferPolicy given with
    | (false, s) => (false, s)
    | (true, s) => (true, s.trackPolicy ph given)

def movePose1 := @policyPhase K _ .pose1
def movePose2 := @policyPhase K _ .pose2

/-! ## The grasp phase -/

def finishGrasp (s : MoveCatersianImpWithGripper K) : MoveCatersianImpWithGripper K :=
  { s with task := { s.task with graspFinished := true } }

def reportGrasp (s : MoveCatersianImpWithGripper K) : MoveCatersianImpWithGripper K :=
  { s with gripper := { s.gripper with graspResultReported := true } }

/-- The exit of a grasp: by a reported success, or by time.  A failure first has
to be reported, and arms the timeout for the cycles after that one. -/
def graspExit (s : MoveCatersianImpWithGripper K) : MoveCatersianImpWithGripper K :=
  if s.task.graspFinished then s
  else if s.gripper.grasp.done then
    if s.gripper.grasp.success then s.finishGrasp.reportGrasp
    else if s.gripper.graspResultReported = false then s.reportGrasp
    else if s.params.moveDurationGrasp < s.task.elapsedTime then s.finishGrasp
    else s
  else if s.params.moveDurationGrasp < s.task.elapsedTime then s.finishGrasp
  else s

/-- The head of the grasp phase: accumulate and hold. -/
def graspHold (given : Cycle K) (s : MoveCatersianImpWithGripper K) :
    MoveCatersianImpWithGripper K :=
  let s := { s with task := { s.task with
    elapsedTime := s.task.elapsedTime + given.dt } }
  s.hold s.refs.qGoal

def grasp (given : Cycle K) (s : MoveCatersianImpWithGripper K) :
    MoveCatersianImpWithGripper K := (s.graspHold given).graspExit

/-- The switch over the effective mode; `false` when an inference throws. -/
def phase (given : Cycle K) (s : MoveCatersianImpWithGripper K) :
    Bool × MoveCatersianImpWithGripper K :=
  match s.task.lastCmd with
  | .movePose1 => s.movePose1 given
  | .grasp => (true, s.grasp given)
  | .movePose2 => s.movePose2 given
  -- the case body is commented out, down to its `break`
  | .runRl => (true, s)
  | _ => (true, s)

theorem phase_of_policy {ph : PolicyPhase} {s : MoveCatersianImpWithGripper K}
    (mode : s.task.lastCmd = ph.cmd) (given : Cycle K) :
    s.phase given = s.policyPhase ph given := by
  unfold phase
  rw [mode]
  cases ph <;> rfl

/-! ## Torques -/

def jointPd (s : MoveCatersianImpWithGripper K) : Vector7d K := fun i =>
  s.params.kGains i * (s.refs.qDes i - s.measured.q i) - s.params.dGains i * s.measured.dq i

/-- `osc_blend_alpha` before it is capped by its gain. -/
def blendAlpha (useOsc : Bool) (given : Cycle K) (s : MoveCatersianImpWithGripper K) : Double K :=
  let alpha := if useOsc && !s.torque.prevUseOsc then 0 else s.torque.oscBlendAlpha
  if useOsc = false ∨ s.task.lastCmd = .none then 0
  else if s.params.oscBlendDuration ≤ Double.lit (1 / 1000000) then Double.lit 1
  else
    let alpha := alpha + given.dt / s.params.oscBlendDuration
    if Double.lit 1 < alpha then Double.lit 1 else alpha

/-- The torques of a control cycle: joint PD, operational space, and their blend. -/
def blendTorques (given : Cycle K) (s : MoveCatersianImpWithGripper K) :
    MoveCatersianImpWithGripper K :=
  let pd := s.jointPd
  let osc := if s.kinematics.kinInitialized && s.kinematics.oscInitialized then given.tauOsc else pd
  let useOsc := s.params.catersianImp && s.kinematics.kinInitialized && s.kinematics.oscInitialized
  let alpha := Double.min (s.blendAlpha useOsc given) s.params.oscBlendAlphaGain
  let send : Vector7d K := fun i =>
    if s.params.rlTargetCollect then 0
    else if useOsc then (Double.lit 1 - alpha) * pd i + alpha * osc i
    else pd i
  { s with torque := ⟨pd, osc, send, useOsc, alpha⟩ }

/-- The torques of a warm-up cycle. -/
def warmupTorques (s : MoveCatersianImpWithGripper K) : MoveCatersianImpWithGripper K :=
  let pd := s.jointPd
  { s with torque := { s.torque with
    tauJointPd := pd, tauOscCmd := pd
    tauToSend := if s.params.rlTargetCollect then fun _ => 0 else pd } }

/-- Write `tau_to_send` through an index map, joint by joint. -/
def writeCommands (map : Fin 7 → Nat) (s : MoveCatersianImpWithGripper K) :
    MoveCatersianImpWithGripper K :=
  { s with interfaces := { s.interfaces with
    commands := (List.finRange 7).foldl
      (fun commands i => Function.update commands (map i) (s.torque.tauToSend i))
      s.interfaces.commands } }

/-! ## The cycle -/

/-- `read_state`; `false` when a joint's interfaces are not all there. -/
def readState (stateValues : Nat → Double K) (s : MoveCatersianImpWithGripper K) :
    Bool × MoveCatersianImpWithGripper K :=
  let map := match s.interfaces.stateMap with
    | some map => some map
    | .none => buildStateMap s.interfaces.stateNames s.params.jointNames
  match map with
  | .none => (false, s)
  | some map => (true, { s with
      interfaces := { s.interfaces with stateMap := some map }
      measured := ⟨fun j => stateValues (map j).pos, fun j => stateValues (map j).vel,
        fun j => stateValues (map j).eff⟩ })

/-- `kBiasWindowSize`. -/
def biasWindowSize : Nat := 1000

def pushWrench (sample : Fin 6 → Double K) (s : MoveCatersianImpWithGripper K) :
    MoveCatersianImpWithGripper K :=
  let w := s.wrench
  let wraps := decide (biasWindowSize ≤ w.idx + 1)
  { s with wrench :=
    ⟨Function.update w.buffer w.idx sample, if wraps then 0 else w.idx + 1, w.full || wraps⟩ }

/-- Capture the warm-up pose in the first cycle of an activation that gets here. -/
def captureWarmup (s : MoveCatersianImpWithGripper K) : MoveCatersianImpWithGripper K :=
  if s.warmup.inited = false then { s with warmup := ⟨true, 0, s.measured.q⟩ } else s

/-- The part of `update` before the two branches; `false` when it returns ERROR. -/
def prepare (given : Cycle K) (s : MoveCatersianImpWithGripper K) :
    Bool × MoveCatersianImpWithGripper K :=
  let s := s.gated
  let s := { s with counters := { s.counters with
    nRt := s.counters.nRt + 1, timeTotal := s.counters.timeTotal + given.dt } }
  match s.readState given.stateValues with
  | (false, s) => (false, s)
  | (true, s) =>
      match given.robotState with
      | .none => (false, s)
      | some sample => (true, (s.pushWrench sample).captureWarmup)

/-- Whether the warm-up branch is taken. -/
def Warming (s : MoveCatersianImpWithGripper K) : Prop :=
  0 < s.params.warmupSeconds ∧ s.warmup.elapsed < s.params.warmupSeconds

instance (s : MoveCatersianImpWithGripper K) : Decidable s.Warming :=
  inferInstanceAs (Decidable (_ ∧ _))

/-- The warm-up branch: ask once for an open gripper and hold the captured pose. -/
def warmupCycle (given : Cycle K) (s : MoveCatersianImpWithGripper K) :
    UpdateResult × MoveCatersianImpWithGripper K :=
  let s := { s with warmup := { s.warmup with
    elapsed := s.warmup.elapsed + given.dt } }
  let s := if Double.lit (1 / 5) < s.warmup.elapsed ∧ s.gripper.warmupOpenRequested = false then
      { s with gripper := { s.gripper with
        warmupOpenRequested := true, move := { s.gripper.move with requestSend := true } } }
    else s
  let s := { s with refs := { s.refs with qDes := s.warmup.qHold } }
  let map := match s.interfaces.warmupCmdMap with
    | some map => some map
    | .none => buildCmdMap s.interfaces.commandNames s.params.jointNames
  match map with
  | .none => (.error, s)
  | some map =>
      let s := { s with interfaces := { s.interfaces with warmupCmdMap := some map } }
      (.ok, s.warmupTorques.writeCommands map)

/-- The control branch: execute the effective mode and send the torques. -/
def controlCycle (given : Cycle K) (s : MoveCatersianImpWithGripper K) :
    UpdateResult × MoveCatersianImpWithGripper K :=
  let s := { s with counters := { s.counters with nTorque := s.counters.nTorque + 1 } }
  let map := match s.interfaces.cmdMap with
    | some map => some map
    | .none => buildCmdMap s.interfaces.commandNames s.params.jointNames
  match map with
  | .none => (.error, s)
  | some map =>
      let s := { s with interfaces := { s.interfaces with cmdMap := some map } }
      match s.phase given with
      | (false, s) => (.escaped, s)
      | (true, s) => (.ok, (s.blendTorques given).writeCommands map)

/-- `log_capacity_steps_`. -/
def logCapacitySteps : Nat := 200000

/-- Count the log row `update` appends at its end. -/
def appendLogSample (s : MoveCatersianImpWithGripper K) : MoveCatersianImpWithGripper K :=
  if s.log.started = true ∧ s.log.stepsWritten < logCapacitySteps then
    { s with log := { s.log with stepsWritten := s.log.stepsWritten + 1 } }
  else s

def update (given : Cycle K) (s : MoveCatersianImpWithGripper K) :
    UpdateResult × MoveCatersianImpWithGripper K :=
  match s.prepare given with
  | (false, s) => (.error, s)
  | (true, s) =>
      match if s.Warming then s.warmupCycle given else s.controlCycle given with
      | (.ok, s) => (.ok, s.appendLogSample)
      | stopped => stopped

end MoveCatersianImpWithGripper

end FrankaRos.Controller
