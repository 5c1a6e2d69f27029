/-
# Controller.State -- the members of MoveCatersianImpWithGripper

The controller's data model: the task commands, the parameters `on_configure`
accepts, and the members, grouped by the part of the controller that owns them
(`Task`, `Refs`, `Warmup`, ...).  A function of the controller changes few groups,
so what it leaves alone can be read off its frame lemma.

Two kinds of input come from outside the controller and are arguments of its
functions: the robot's measurements with the period of a cycle (`Cycle`), and
what an activation finds (`Activation`).
-/
import FrankaRos.Theory.Double

namespace FrankaRos.Controller

open FrankaRos.Theory

set_option autoImplicit false

set_option linter.unusedSectionVars false

/-! ## Task commands -/

inductive TaskCmd where
  | none
  | movePose1
  | movePose2
  | grasp
  | openGripper
  | closeGripper
  | runRl
  | saveLog
  | stop
  deriving DecidableEq, Repr

/-- The text of a task message; any other text is `NONE`. -/
def TaskCmd.ofString (data : String) : TaskCmd :=
  if data = "move_pose_1" then .movePose1
  else if data = "move_pose_2" then .movePose2
  else if data = "grasp" then .grasp
  else if data = "open_gripper" then .openGripper
  else if data = "close_gripper" then .closeGripper
  else if data = "run_rl" then .runRl
  else if data = "save_log" then .saveLog
  else if data = "stop" then .stop
  else .none

/-! ## Parameters -/

abbrev Vector7d (K : Type) := Fin 7 → Double K

/-- The parameters as declared: the list-valued ones have any length. -/
structure Declared (K : Type) where
  jointNames : List String
  qGoal : List (Double K)
  lower : List (Double K)
  upper : List (Double K)
  speedScales : List (Double K)
  kGains : List (Double K)
  dGains : List (Double K)

/-- The scalar parameters, and the two members nothing assigns (`rl_dt_`,
`osc_blend_duration`). -/
structure Scalars (K : Type) where
  moveDuration : Double K
  moveDurationGrasp : Double K
  moveDuration2 : Double K
  rlDuration : Double K
  holdPosition : Bool
  catersianImp : Bool
  oscBlendAlphaGain : Double K
  usePinocchioIk : Bool
  actionScale : Double K
  rIn : Double K
  warmupSeconds : Double K
  rlTargetCollect : Bool
  rlDt : Double K
  oscBlendDuration : Double K

/-- The parameters after `on_configure` has accepted them. -/
structure Params (K : Type) extends Scalars K where
  jointNames : Fin 7 → String
  qGoal : Vector7d K
  /-- `robot_dof_lower_limit_`: seven arm joints and two fingers. -/
  lower : Fin 9 → Double K
  upper : Fin 9 → Double K
  speedScales : Fin 9 → Double K
  kGains : Vector7d K
  dGains : Vector7d K

/-- A list of exactly `n` values. -/
def exactly {α : Type} (n : Nat) (values : List α) : Option (Fin n → α) :=
  if h : values.length = n then some fun i => values.get (i.cast h.symm) else none

/-- The size checks of `on_configure`, in its order. -/
def Params.ofDeclared {K : Type} (scalars : Scalars K) (given : Declared K) :
    Option (Params K) := do
  let lower ← exactly 9 given.lower
  let upper ← exactly 9 given.upper
  let speedScales ← exactly 9 given.speedScales
  let kGains ← exactly 7 given.kGains
  let dGains ← exactly 7 given.dGains
  let jointNames ← exactly 7 given.jointNames
  let qGoal ← exactly 7 given.qGoal
  return { scalars with jointNames, qGoal, lower, upper, speedScales, kGains, dGains }

/-! ## Members -/

structure Task (K : Type) where
  taskCmd : TaskCmd
  taskCmdNew : Bool
  lastCmd : TaskCmd
  move1Finished : Bool
  graspFinished : Bool
  move2Finished : Bool
  rlFinished : Bool
  elapsedTime : Double K

structure Counters (K : Type) where
  nRt : Nat
  nTorque : Nat
  timeTotal : Double K

structure Measured (K : Type) where
  q : Vector7d K
  dq : Vector7d K
  tauMeas : Vector7d K

/-- The indices of one joint's position, velocity and effort state interfaces. -/
structure StateIndex where
  pos : Nat
  vel : Nat
  eff : Nat

/-- The loaned interfaces and the index maps into them; a map that has not been
built is `none`. -/
structure Interfaces (K : Type) where
  stateNames : List String
  commandNames : List String
  stateMap : Option (Fin 7 → StateIndex)
  cmdMap : Option (Fin 7 → Nat)
  warmupCmdMap : Option (Fin 7 → Nat)
  /-- The values held by the command interfaces. -/
  commands : Nat → Double K

/-- `wrench_ext_o_buffer_`, a window of `kBiasWindowSize` samples. -/
structure WrenchWindow (K : Type) where
  buffer : Nat → Fin 6 → Double K
  idx : Nat
  full : Bool

structure Warmup (K : Type) where
  inited : Bool
  elapsed : Double K
  qHold : Vector7d K

structure Refs (K : Type) where
  qStart : Vector7d K
  qGoal : Vector7d K
  qGoal2 : Vector7d K
  qGoal3 : Vector7d K
  qDes : Vector7d K
  qPolicyTarget : Vector7d K
  rlTimer : Double K

/-- The flags of one gripper action, and its client: the number of goals sent so
far, of which those from `client` on were sent by the present client. -/
structure GripperAction where
  requestSend : Bool
  goalSent : Bool
  active : Bool
  done : Bool
  success : Bool
  client : Option Nat
  goalsSent : Nat

structure Gripper where
  grasp : GripperAction
  graspResultReported : Bool
  move : GripperAction
  warmupOpenRequested : Bool

structure Log (K : Type) where
  started : Bool
  saveDone : Bool
  stepsWritten : Nat
  timeStart : Double K
  saveRequested : Bool
  rlFinishLatched : Bool

structure Torque (K : Type) where
  tauJointPd : Vector7d K
  tauOscCmd : Vector7d K
  tauToSend : Vector7d K
  prevUseOsc : Bool
  oscBlendAlpha : Double K

structure Kinematics where
  kinInitialized : Bool
  oscInitialized : Bool

inductive Lifecycle where
  | unconfigured
  | inactive
  | active
  | finalized
  deriving DecidableEq, Repr

/-- The lifecycle state, and which of the node's callbacks exist. -/
structure Services where
  lifecycle : Lifecycle
  taskCmdSub : Bool
  gripperTimer : Bool
  housekeepingTimer : Bool

structure MoveCatersianImpWithGripper (K : Type) where
  params : Params K
  task : Task K
  counters : Counters K
  measured : Measured K
  interfaces : Interfaces K
  wrench : WrenchWindow K
  warmup : Warmup K
  refs : Refs K
  gripper : Gripper
  log : Log K
  torque : Torque K
  kinematics : Kinematics
  services : Services

/-! ## Inputs -/

/-- What one `update` is given.  `distPick` is the distance of the fingertip to
the target of the phase, `action` the policy's output (`none`: inference throws),
`tauOsc` the torque of the operational-space controller. -/
structure Cycle (K : Type) where
  period : K
  stateValues : Nat → Double K
  /-- The external wrench of the robot state message, when it can be read. -/
  robotState : Option (Fin 6 → Double K)
  distPick : Double K
  action : Option (Fin 9 → Double K)
  tauOsc : Vector7d K

/-- What an activation finds: the loaned interfaces, whether the kinematics and
the operational-space model can be initialised, the solutions of the two inverse
kinematics problems, and whether the two semantic components find theirs. -/
structure Activation (K : Type) where
  stateNames : List String
  commandNames : List String
  stateValues : Nat → Double K
  okFk : Bool
  okOsc : Bool
  ik1 : Option (Vector7d K)
  ik2 : Option (Vector7d K)
  robotStateAssigned : Bool
  cartesianPoseAssigned : Bool

/-- What a configuration finds: the parameters, and whether the collision
behaviour service, the policy file and the robot description are there. -/
structure Configuration (K : Type) where
  scalars : Scalars K
  declared : Declared K
  collisionBehaviorSet : Bool
  policyLoaded : Bool
  robotDescription : Bool

/-- No request, no goal, no client. -/
def GripperAction.constructed : GripperAction := ⟨false, false, false, false, false, .none, 0⟩

namespace MoveCatersianImpWithGripper

variable {K : Type} [MachineArith K]

/-- The members as constructed.  `on_configure` overwrites the parameters before
anything reads them. -/
def constructed (params : Params K) : MoveCatersianImpWithGripper K where
  params := params
  task := ⟨.none, false, .none, true, true, true, true, 0⟩
  counters := ⟨0, 0, 0⟩
  measured := ⟨fun _ => 0, fun _ => 0, fun _ => 0⟩
  interfaces := ⟨[], [], .none, .none, .none, fun _ => 0⟩
  wrench := ⟨fun _ _ => 0, 0, false⟩
  warmup := ⟨false, 0, fun _ => 0⟩
  refs := ⟨fun _ => 0, fun _ => 0, fun _ => 0, fun _ => 0, fun _ => 0, fun _ => 0, 0⟩
  gripper := ⟨GripperAction.constructed, false, GripperAction.constructed, false⟩
  log := ⟨false, false, 0, 0, false, false⟩
  torque := ⟨fun _ => 0, fun _ => 0, fun _ => 0, false, 0⟩
  kinematics := ⟨false, false⟩
  services := ⟨.unconfigured, false, false, false⟩

end MoveCatersianImpWithGripper

end FrankaRos.Controller
