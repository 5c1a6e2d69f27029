/-
# SemanticComponents.FrankaCartesianPoseInterface -- commanding a pose

A command becomes a vector of 16 values, or of 18 with the elbow, and `set_values` hands
them to the command interfaces one after the other.  `set_values` asks for the capacity of
that vector, and a quaternion's matrix is written into storage that is only reserved; so
vectors have a capacity here, and every access is noted (`Theory.Buffer`).

An interface holds the value that was set last, so that the interfaces are a store from
their names.  Which of them are assigned is up to the controller.
-/
import FrankaRos.Theory.Buffer
import FrankaRos.Theory.Writes
import FrankaRos.RlAction.RlActionProcessor

namespace FrankaRos.SemanticComponents

open FrankaRos.Theory Accessing
open FrankaRos.RlAction (toRotationMatrix)

set_option autoImplicit false

/-! ## The interfaces -/

def cartesianPoseCommandInterfaceName : String := "cartesian_pose_command"
def elbowCommandInterfaceName : String := "elbow_command"
def hwElbowNames : List String := ["joint_3_position", "joint_4_sign"]
def commandInterfaceSize : Nat := 16
def elbowCommandInterfaceSize : Nat := 2

/-- The names the constructor puts together. -/
def commandInterfaceNames (commandElbowActive : Bool) : List String :=
  ((List.range 16).map fun i => toString i ++ "/" ++ cartesianPoseCommandInterfaceName) ++
    if commandElbowActive then
      hwElbowNames.map fun elbowCommandName => elbowCommandName ++ "/" ++ elbowCommandInterfaceName
    else []

/-- `get_ordered_interfaces` leaves the loaned interfaces in the order of the names. -/
structure FrankaCartesianPoseInterface where
  commandElbowActive : Bool
  commandInterfaces : List String
  ordered : commandInterfaces.Sublist (commandInterfaceNames commandElbowActive)

/-! ## Vectors of values -/

section Values

variable {V : Type}

def combineArraysToVector (growth : Growth) (cartesianPoseCommand : List.Vector V 16)
    (elbowCommand : List.Vector V 2) : Buffer V :=
  let fullCommand := Buffer.empty.reserve growth (16 + 2)
  let fullCommand := fullCommand.insertEnd growth cartesianPoseCommand.toList
  fullCommand.insertEnd growth elbowCommand.toList

/-- `pose.data()`, column by column. -/
def columnMajor (pose : Matrix (Fin 4) (Fin 4) V) : List.Vector V 16 :=
  List.Vector.ofFn fun k => pose ⟨k.val % 4, by omega⟩ ⟨k.val / 4, by omega⟩

/-- The matrix that a map sees in an array, column by column. -/
def ofColumnMajor (data : List.Vector V 16) : Matrix (Fin 4) (Fin 4) V :=
  fun i j => data.get ⟨i.val + 4 * j.val, by omega⟩

variable [Field V]

/-- The identity, with a rotation and a translation in their blocks. -/
def poseMatrix (quaternion : Quaternion V) (translation : Fin 3 → V) :
    Matrix (Fin 4) (Fin 4) V :=
  let pose : Matrix (Fin 4) (Fin 4) V := 1
  let pose : Matrix (Fin 4) (Fin 4) V := fun i j =>
    if h : i.val < 3 ∧ j.val < 3 then toRotationMatrix quaternion ⟨i, h.1⟩ ⟨j, h.2⟩ else pose i j
  fun i j => if h : i.val < 3 ∧ j.val = 3 then translation ⟨i, h.1⟩ else pose i j

/-- The map writes through `data()`: the vector has storage for it, and no elements. -/
def createColumnMajorTransformationMatrix (growth : Growth) (quaternion : Quaternion V)
    (translation : Fin 3 → V) : Accessing (Buffer V) :=
  let fullCommand := Buffer.empty.reserve growth 16
  fullCommand.writeFrom 0 (columnMajor (poseMatrix quaternion translation)).toList

end Values

/-! ## Commands -/

/-- The arguments of the four overloads of `setCommand`. -/
inductive Command (V : Type) [Field V] where
  | quaternion (quaternion : Quaternion V) (translation : Fin 3 → V)
  | quaternionElbow (quaternion : Quaternion V) (translation : Fin 3 → V)
      (elbowCommand : List.Vector V 2)
  | poseElbow (cartesianPoseCommand : List.Vector V 16) (elbowCommand : List.Vector V 2)
  | pose (cartesianPoseCommand : List.Vector V 16)

namespace FrankaCartesianPoseInterface

variable {V : Type}

/-- The loop of `set_values`, over the interfaces from the index `i` on. -/
def setFrom (values : Buffer V) (count i : Nat) :
    List String → (String → V) → Accessing (String → V)
  | [], store => pure store
  | name :: names, store => do
      note ⟨i, count⟩
      let value ← values.read i
      setFrom values count (i + 1) names (Function.update store name value)

def setValues (self : FrankaCartesianPoseInterface) (values : Buffer V) (store : String → V) :
    Accessing (Bool × (String → V)) :=
  if values.capacity ≠ self.commandInterfaces.length then pure (false, store)
  else do
    let store ← setFrom values self.commandInterfaces.length 0 self.commandInterfaces store
    return (true, store)

/-- `setCommand`, of any of the four. -/
def setCommand [Field V] (self : FrankaCartesianPoseInterface) (growth : Growth)
    (command : Command V) (store : String → V) : Accessing (Bool × (String → V)) :=
  match command with
  | .quaternion quaternion translation =>
      if self.commandElbowActive then pure (false, store)
      else do
        let fullCommand ← createColumnMajorTransformationMatrix growth quaternion translation
        self.setValues fullCommand store
  | .quaternionElbow quaternion translation elbowCommand =>
      if !self.commandElbowActive then pure (false, store)
      else do
        let pose ← createColumnMajorTransformationMatrix growth quaternion translation
        let poseArray ← pose.readFrom 0 16
        self.setValues (combineArraysToVector growth poseArray elbowCommand) store
  | .poseElbow cartesianPoseCommand elbowCommand =>
      if !self.commandElbowActive then pure (false, store)
      else self.setValues (combineArraysToVector growth cartesianPoseCommand elbowCommand) store
  | .pose cartesianPoseCommand =>
      if self.commandElbowActive then pure (false, store)
      else self.setValues (Buffer.empty.insertEnd growth cartesianPoseCommand.toList) store

def getValuesCommandInterfaces (self : FrankaCartesianPoseInterface) (growth : Growth)
    (store : String → V) : Buffer V :=
  self.commandInterfaces.foldl (fun values name => values.insertEnd growth [store name])
    Buffer.empty

def getCommandedPoseMatrix (self : FrankaCartesianPoseInterface) (growth : Growth)
    (store : String → V) : Accessing (List.Vector V 16) :=
  (self.getValuesCommandInterfaces growth store).readFrom 0 16

/-- `Quaterniond(matrix)` is Eigen's. -/
def getCommandedOrientationAndTranslation [Field V] (self : FrankaCartesianPoseInterface)
    (growth : Growth) (ofMatrix : Matrix (Fin 3) (Fin 3) V → Quaternion V) (store : String → V) :
    Accessing (Quaternion V × (Fin 3 → V)) := do
  let poseMatrix ← self.getCommandedPoseMatrix growth store
  let pose := ofColumnMajor poseMatrix
  let quaternion := ofMatrix fun i j => pose i.castSucc j.castSucc
  let translation := fun i : Fin 3 => pose i.castSucc ⟨3, by omega⟩
  return (quaternion, translation)

/-- Without the elbow, it throws `std::runtime_error`. -/
def getCommandedElbowConfiguration (self : FrankaCartesianPoseInterface) (growth : Growth)
    (store : String → V) : Accessing (Except String (List.Vector V 2)) :=
  if !self.commandElbowActive then
    pure (.error "Elbow command interface must be claimed to receive elbow command state.")
  else do
    let elbowConfiguration ← (self.getValuesCommandInterfaces growth store).readFrom
      commandInterfaceSize elbowCommandInterfaceSize
    return .ok elbowConfiguration

end FrankaCartesianPoseInterface

end FrankaRos.SemanticComponents
