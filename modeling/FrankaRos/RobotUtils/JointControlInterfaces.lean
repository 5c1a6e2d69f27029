/-
# RobotUtils.JointControlInterfaces -- the joints a description declares

`getJointControlInterfaces` looks for the section of the robot's hardware interface in a
parsed description and collects the interfaces of its joints in a map.

The parser is given: what it returns are the elements of the document, as trees.  Text and
comments are never read, and are not there.  `none` is a string made from a null pointer,
for which nothing is promised.
-/
import FrankaRos.Theory.RoseTree
import Mathlib.Data.List.AList

namespace FrankaRos.RobotUtils

open FrankaRos.Theory

set_option autoImplicit false

/-! ## Elements -/

/-- The name of an element, and its attributes. -/
structure Tag where
  name : String
  attributes : List (String × String)
  deriving DecidableEq, Repr

abbrev XMLElement := RoseTree Tag

/-- `Attribute(name)`; a null pointer is `none`. -/
def findAttribute (element : XMLElement) (name : String) : Option String :=
  element.label.attributes.lookup name

/-- What `FirstChildElement(name)` and `NextSiblingElement(name)` go through. -/
def childElements (element : XMLElement) (name : String) : List XMLElement :=
  element.children.filter fun child => child.label.name == name

def firstChildElement (element : XMLElement) (name : String) : Option XMLElement :=
  (childElements element name).head?

/-! ## The joints -/

structure JointControlInterfaces where
  commandInterfaces : List String
  stateInterfaces : List String
  deriving DecidableEq, Repr

/-- The map from the names of joints. -/
abbrev JointInterfaces := AList fun _ : String => JointControlInterfaces

/-- `emplace_back` of the name of an element, if it has one. -/
def addName (names : List String) (elem : XMLElement) : List String :=
  match findAttribute elem "name" with
  | some name => names ++ [name]
  | none => names

/-- The loop over the elements of one kind. -/
def collectNames (jointElem : XMLElement) (kind : String) : List String :=
  (childElements jointElem kind).foldl addName []

/-- The body of the loop over the joints. -/
def addJoint (jointInterfaces : JointInterfaces) (jointElem : XMLElement) : JointInterfaces :=
  match findAttribute jointElem "name" with
  | none => jointInterfaces
  | some jointName =>
      let interfaces : JointControlInterfaces :=
        ⟨collectNames jointElem "command_interface", collectNames jointElem "state_interface"⟩
      if !interfaces.commandInterfaces.isEmpty || !interfaces.stateInterfaces.isEmpty then
        jointInterfaces.insert jointName interfaces
      else jointInterfaces

def hardwareInterfaceName : String := "FrankaHardwareInterface"

/-- `getJointControlInterfaces`, with the elements of the document if it could be parsed. -/
def getJointControlInterfaces (doc : Option (List XMLElement))
    (jointInterfaces : JointInterfaces) : Option (Bool × JointInterfaces) :=
  match doc with
  | none => some (false, jointInterfaces)
  | some elements =>
      match elements.find? fun element => element.label.name == "robot" with
      | none => some (false, jointInterfaces)
      | some robotElem =>
          match firstChildElement robotElem "ros2_control" with
          | none => some (false, jointInterfaces)
          | some ros2ControlElem => do
              -- the null pointer goes into a `std::string` unchecked
              let name ← findAttribute ros2ControlElem "name"
              if name ≠ hardwareInterfaceName then return (false, jointInterfaces)
              let jointInterfaces := (childElements ros2ControlElem "joint").foldl addJoint ∅
              if jointInterfaces.entries.isEmpty then return (false, jointInterfaces)
              return (true, jointInterfaces)

end FrankaRos.RobotUtils
