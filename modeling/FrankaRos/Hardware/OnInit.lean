/-
# Hardware.OnInit -- what the interface accepts of a description

`on_init` collects the names of the exported command interfaces, checks the version of the
description and looks up the address and the name of the robot.  Only
`std::out_of_range` is caught around the version check; the parser of the version also
throws `std::invalid_argument`.

The base class, the connection and the order in which the arguments of
`std::make_tuple` are evaluated are given.
-/
import FrankaRos.Hardware.FrankaHardwareInterface
import FrankaRos.Theory.Fields
import FrankaRos.Theory.Decimal

namespace FrankaRos.Hardware

open FrankaRos.Theory

set_option autoImplicit false

/-! ## Descriptions -/

/-- A joint or a GPIO: its name, the names of its command interfaces and its parameters. -/
structure ComponentInfo where
  name : String
  commandInterfaces : List String
  parameters : String → Option String

structure HardwareInfo where
  hardwareParameters : String → Option String
  joints : List ComponentInfo
  gpios : List ComponentInfo

def kVersionName : String := "version"
def kRobotIpName : String := "robot_ip"
def kArmIdName : String := "arm_id"
def kSupportedControlInterfaceMajor : ℤ := 0

/-- `exported_command_interfaces_`: the names of the joints' and the GPIOs' interfaces. -/
def HardwareInfo.exportedCommandInterfaces (info : HardwareInfo) : List String :=
  (info.joints ++ info.gpios).flatMap fun component =>
    component.commandInterfaces.map fun interface => component.name ++ "/" ++ interface

/-! ## The version -/

inductive VersionPart where
  | major
  | minor
  | patch
  deriving DecidableEq, Repr

/-- The order in which the compiler has the three arguments of a call evaluated. -/
structure EvaluationOrder where
  parts : List VersionPart
  all : parts.Perm [.major, .minor, .patch]

/-- The texts of the three parts. -/
def versionParts (first second third : List Char) : VersionPart → List Char
  | .major => first
  | .minor => second
  | .patch => third

/-- The arguments of `std::make_tuple`, one after the other; the first that throws ends it. -/
def evaluateArguments (text : VersionPart → List Char) :
    List VersionPart → Except StdException (VersionPart → ℤ)
  | [] => .ok fun _ => 0
  | part :: order =>
      match stoi (text part) with
      | .error e => .error e
      | .ok value =>
          match evaluateArguments text order with
          | .error e => .error e
          | .ok values => .ok (Function.update values part value)

def parseVersion (order : EvaluationOrder) (version : List Char) :
    Except StdException (VersionPart → ℤ) :=
  match getlines '.' version with
  | [first, second, third] => evaluateArguments (versionParts first second third) order.parts
  | _ => .error .invalidArgument

/-- How the first `try` block of `on_init` is left. -/
inductive VersionCheck where
  | passed
  | error
  | escaped (e : StdException)
  deriving DecidableEq, Repr

def checkVersion (order : EvaluationOrder) (info : HardwareInfo) : VersionCheck :=
  match info.hardwareParameters kVersionName with
  | none => .error
  | some version =>
      match parseVersion order version.toList with
      | .ok values => if values .major = kSupportedControlInterfaceMajor then .passed else .error
      | .error .outOfRange => .error
      | .error .invalidArgument => .escaped .invalidArgument

/-! ## `on_init` -/

/-- How the connection to a robot is made. -/
inductive Connection where
  | connected
  | frankaException
  | otherException
  deriving DecidableEq, Repr

/-- What `on_init` finds: the answer of the base class, whether a robot has been handed to
the constructor, `arm_id_`, and how a connection to an address ends. -/
structure InitSurroundings where
  baseSucceeds : Bool
  hasRobot : Bool
  armId : String
  connect : String → Connection

/-- The description, the exported names and the name of the arm that `on_init` leaves. -/
structure Initialised where
  info : HardwareInfo
  exportedCommandInterfaces : List String
  armId : String

inductive InitResult where
  | success (self : Initialised)
  | error
  | escaped

def onInit (order : EvaluationOrder) (around : InitSurroundings) (info : HardwareInfo) :
    InitResult :=
  if around.baseSucceeds = false then .error
  else
    match checkVersion order info with
    | .error => .error
    | .escaped _ => .escaped
    | .passed =>
        match info.hardwareParameters kRobotIpName with
        | none => .error
        | some robotIp =>
            let self : Initialised :=
              ⟨info, info.exportedCommandInterfaces,
                (info.hardwareParameters kArmIdName).getD around.armId⟩
            if around.hasRobot then .success self
            else
              match around.connect robotIp with
              | .connected => .success self
              | .frankaException => .error
              | .otherException => .escaped

end FrankaRos.Hardware
