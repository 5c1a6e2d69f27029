/-
# SemanticComponents.FrankaRobotState -- the robot state and its message

`FrankaRobotState` takes the names of links and joints from the description when it is
constructed and writes them into the message once (`initializeRobotStateMsg`); a cycle only
copies the values (`getValuesAsMessage`).  Frames and joints are told apart by position: the
flange is the link with index 8, the first seven joints are the arm's.

What the URDF library has parsed is given: a tree of links, and the joints in the order of
the map they are kept in.  The parts of the message that hold neither joints nor frames are
left out, as are the time stamps.
-/
import FrankaRos.Theory.RoseTree
import Mathlib.Data.String.Basic

namespace FrankaRos.SemanticComponents

open FrankaRos.Theory

set_option autoImplicit false

/-! ## The description -/

/-- `urdf::Joint::type`. -/
inductive JointType where
  | unknown
  | revolute
  | continuous
  | prismatic
  | floating
  | planar
  | fixed
  deriving DecidableEq, Repr

/-- A parsed description.  Names are keys of a map: those of the links differ, and the
joints come in the order of theirs.  Every link but the root hangs on one joint. -/
structure UrdfModel where
  name : String
  root : RoseTree String
  joints : List (String × JointType)
  links_differ : root.labels.Nodup
  joints_ordered : joints.Pairwise fun a b => a.1 < b.1
  joint_per_link : joints.length + 1 = root.size

/-! ## The semantic component -/

def kBaseLinkIndex : Nat := 0
def kFlangeLinkIndex : Nat := 8
def kLoadLinkIndex : Nat := 8
def kTCPFrameName : String := "_hand_tcp"

structure FrankaRobotState where
  fullRobotStateInterfaceName : String
  gripperLoaded : Bool
  linkNames : List String
  jointNames : List String
  kEndEffectorLinkIndex : Nat
  kStiffnessLinkIndex : Nat
  deriving DecidableEq, Repr

/-- `std::runtime_error`, with its text. -/
abbrev RuntimeError := String

def isGripperLoaded (model : UrdfModel) : Bool :=
  model.root.labels.contains (model.name ++ kTCPFrameName)

/-- `set_child_links` appends what the loop over the stack lists. -/
def setChildLinks (linkNames : List String) (link : RoseTree String) : List String :=
  linkNames ++ RoseTree.walk [link]

/-- `set_links_from_urdf`. -/
def setLinksFromUrdf (model : UrdfModel) : List String :=
  let rootLink := model.root
  let linkNames := [rootLink.label]
  setChildLinks linkNames rootLink

/-- `set_joints_from_urdf`. -/
def setJointsFromUrdf (model : UrdfModel) : List String :=
  (model.joints.filter fun joint => decide (joint.2 = .revolute)).map Prod.fst

def getLinkIndex (linkNames : List String) (linkName : String) : Except RuntimeError Nat :=
  match linkNames.findIdx? (· == linkName) with
  | some index => .ok index
  | none => .error "Link name not found in URDF."

/-- The constructor, behind the parser. -/
def construct (model : UrdfModel) : Except RuntimeError FrankaRobotState := do
  let gripperLoaded := isGripperLoaded model
  let linkNames := setLinksFromUrdf model
  let jointNames := setJointsFromUrdf model
  let index ←
    if gripperLoaded then getLinkIndex linkNames (model.name ++ kTCPFrameName)
    else .ok kFlangeLinkIndex
  return ⟨model.name ++ "/" ++ "robot_state", gripperLoaded, linkNames, jointNames, index, index⟩

/-! ## The message -/

structure JointState (V : Type) where
  frameId : String
  name : List String
  position : List V
  velocity : List V
  effort : List V
  deriving DecidableEq, Repr

/-- The message: its joint states, and the frames of everything else. -/
structure Message (V : Type) where
  measuredJointState : JointState V
  desiredJointState : JointState V
  measuredJointMotorState : JointState V
  tauExtHatFiltered : JointState V
  oFExtHatK : String
  kFExtHatK : String
  oTEe : String
  oTEeD : String
  oTEeC : String
  fTEe : String
  eeTK : String
  oDpEeD : String
  oDpEeC : String
  oDdpEeC : String
  inertiaEe : String
  inertiaLoad : String
  inertiaTotal : String
  deriving DecidableEq, Repr

/-- `resize(n, 0.0)`. -/
def resize {V : Type} (zero : V) (n : Nat) (values : List V) : List V :=
  values.take n ++ List.replicate (n - values.length) zero

/-- A joint state with its names, its frame and room for the values. -/
def JointState.initialized {V : Type} (zero : V) (base : String) (jointNames : List String)
    (s : JointState V) : JointState V :=
  ⟨base, jointNames, resize zero jointNames.length s.position,
    resize zero jointNames.length s.velocity, resize zero jointNames.length s.effort⟩

/-- The message with the names, the frames and room for the values. -/
def Message.initialized {V : Type} (zero : V) (jointNames : List String)
    (base stiffness flange endEffector load : String) (message : Message V) : Message V where
  measuredJointState := message.measuredJointState.initialized zero base jointNames
  desiredJointState := message.desiredJointState.initialized zero base jointNames
  measuredJointMotorState := message.measuredJointMotorState.initialized zero base jointNames
  tauExtHatFiltered := message.tauExtHatFiltered.initialized zero base jointNames
  oFExtHatK := base
  kFExtHatK := stiffness
  oTEe := base
  oTEeD := base
  oTEeC := base
  fTEe := flange
  eeTK := endEffector
  oDpEeD := base
  oDpEeC := base
  oDdpEeC := base
  inertiaEe := endEffector
  inertiaLoad := load
  inertiaTotal := endEffector

/-- `initialize_robot_state_msg`; an index behind the last link is undefined. -/
def FrankaRobotState.initializeRobotStateMsg {V : Type} (self : FrankaRobotState) (zero : V)
    (message : Message V) : Option (Message V) := do
  let base ← self.linkNames[kBaseLinkIndex]?
  let stiffness ← self.linkNames[self.kStiffnessLinkIndex]?
  let flange ← self.linkNames[kFlangeLinkIndex]?
  let endEffector ← self.linkNames[self.kEndEffectorLinkIndex]?
  let load ← self.linkNames[kLoadLinkIndex]?
  return message.initialized zero self.jointNames base stiffness flange endEffector load

/-! ## A cycle -/

/-- The joint values of `franka::RobotState`. -/
structure RobotState (V : Type) where
  q : Fin 7 → V
  dq : Fin 7 → V
  tauJ : Fin 7 → V
  qD : Fin 7 → V
  dqD : Fin 7 → V
  tauJD : Fin 7 → V
  theta : Fin 7 → V
  dtheta : Fin 7 → V
  tauExtHatFiltered : Fin 7 → V

/-- `std::copy` of seven values to the beginning of a vector; undefined if it is shorter. -/
def copyInto {V : Type} (values : Fin 7 → V) (into : List V) : Option (List V) :=
  if 7 ≤ into.length then some (List.ofFn values ++ into.drop 7) else none

namespace FrankaRobotState

variable {V : Type}

/-- `get_values_as_message`, with the loaned interfaces and the states they point to. -/
def getValuesAsMessage (self : FrankaRobotState) (stateInterfaces : List (String × RobotState V))
    (message : Message V) : Option (Bool × Message V) :=
  match stateInterfaces.find? fun interface => interface.1 == self.fullRobotStateInterfaceName with
  | none => some (false, message)
  | some (_, state) => do
      let q ← copyInto state.q message.measuredJointState.position
      let dq ← copyInto state.dq message.measuredJointState.velocity
      let tauJ ← copyInto state.tauJ message.measuredJointState.effort
      let qD ← copyInto state.qD message.desiredJointState.position
      let dqD ← copyInto state.dqD message.desiredJointState.velocity
      let tauJD ← copyInto state.tauJD message.desiredJointState.effort
      let theta ← copyInto state.theta message.measuredJointMotorState.position
      let dtheta ← copyInto state.dtheta message.measuredJointMotorState.velocity
      let tauExt ← copyInto state.tauExtHatFiltered message.tauExtHatFiltered.effort
      return (true, { message with
        measuredJointState := { message.measuredJointState with
          position := q, velocity := dq, effort := tauJ }
        desiredJointState := { message.desiredJointState with
          position := qD, velocity := dqD, effort := tauJD }
        measuredJointMotorState := { message.measuredJointMotorState with
          position := theta, velocity := dtheta }
        tauExtHatFiltered := { message.tauExtHatFiltered with effort := tauExt } })

end FrankaRobotState

end FrankaRos.SemanticComponents
