/-
# EffortController.EffortControllerBase -- handles, efforts and their limits

The part of `EffortControllerBase` that the effort controllers share: the handle
vectors an activation fills from the loaned interfaces and a deactivation clears,
the rate limit of `computeJointEffortCmds` and the effort limit of
`writeJointEffortCmds`.

`get_ordered_interfaces` is not part of the repository.  It is a parameter with
two laws, `OrderedInterfaces`: it appends every matching interface to its output
vector, name by name, and returns whether the vector then has as many entries as
there are names.  What an interface is, beyond its name, stays open.
-/
import FrankaRos.Theory.Double

namespace FrankaRos.EffortController

open FrankaRos.Theory

set_option autoImplicit false

inductive CallbackReturn where
  | success
  | error
  deriving DecidableEq, Repr

/-! ## Interfaces -/

/-- `hardware_interface::HW_IF_POSITION` and its siblings. -/
def hwIfPosition : String := "position"
def hwIfVelocity : String := "velocity"
def hwIfEffort : String := "effort"

/-- Loaned interfaces of a type `I`, and `controller_interface::get_ordered_interfaces`. -/
structure OrderedInterfaces (I : Type) where
  getName : I → String
  getOrderedInterfaces : List I → List String → String → List I → Bool × List I
  appends : ∀ unordered names type ordered,
    (getOrderedInterfaces unordered names type ordered).2 =
      ordered ++ names.flatMap fun name =>
        unordered.filter fun i => decide (getName i = name ++ "/" ++ type)
  complete : ∀ unordered names type ordered,
    (getOrderedInterfaces unordered names type ordered).1 =
      decide ((getOrderedInterfaces unordered names type ordered).2.length = names.length)

/-! ## The controller -/

/-- The members that `on_configure` sets once and nothing changes afterwards.  It
refuses an empty list of joints, a `delta_tau_max` below one, and any command
interface type but effort. -/
structure Configured (K : Type) [MachineArith K] where
  numJoints : Nat
  jointNames : Fin numJoints → String
  cmdInterfaceTypes : List String
  commandCurrentConfiguration : Bool
  jointEffortLimits : Fin numJoints → Double K
  deltaTauMax : Double K
  some_joint : 0 < numJoints
  some_effort : hwIfEffort ∈ cmdInterfaceTypes
  delta_accepted : ¬ deltaTauMax < Double.lit 1

/-- The members that change. -/
structure EffortControllerBase (K I : Type) (n : Nat) where
  efforts : Fin n → Double K
  jointPositions : Fin n → Double K
  jointCmdPosHandles : List I
  jointCmdEffHandles : List I
  jointStatePosHandles : List I
  jointStateVelHandles : List I
  active : Bool

namespace Configured

variable {K I : Type} [MachineArith K] (c : Configured K)

/-- `m_joint_names`. -/
def names : List String := List.ofFn c.jointNames

/-- The controller at the end of `on_configure`. -/
def constructed : EffortControllerBase K I c.numJoints :=
  ⟨fun _ => 0, fun _ => 0, [], [], [], [], false⟩

/-! ## Lifecycle -/

variable (lib : OrderedInterfaces I)

/-- `on_activate`, with the command and state interfaces the framework has loaned. -/
def onActivate (commands states : List I) (s : EffortControllerBase K I c.numJoints) :
    CallbackReturn × EffortControllerBase K I c.numJoints :=
  if s.active then (.success, s)
  else
    let pos :=
      if c.commandCurrentConfiguration then
        lib.getOrderedInterfaces commands c.names hwIfPosition s.jointCmdPosHandles
      else (true, s.jointCmdPosHandles)
    let s := { s with jointCmdPosHandles := pos.2 }
    if pos.1 = false then (.error, s)
    else
      let eff := lib.getOrderedInterfaces commands c.names hwIfEffort s.jointCmdEffHandles
      let s := { s with jointCmdEffHandles := eff.2 }
      if eff.1 = false then (.error, s)
      else
        let pos := lib.getOrderedInterfaces states c.names hwIfPosition s.jointStatePosHandles
        let s := { s with jointStatePosHandles := pos.2 }
        if pos.1 = false then (.error, s)
        else
          let vel := lib.getOrderedInterfaces states c.names hwIfVelocity s.jointStateVelHandles
          let s := { s with jointStateVelHandles := vel.2 }
          if vel.1 = false then (.error, s) else (.success, { s with active := true })

/-- `on_deactivate`; clearing the position handles is commented out. -/
def onDeactivate (s : EffortControllerBase K I c.numJoints) :
    EffortControllerBase K I c.numJoints :=
  if s.active then
    { s with
      jointCmdEffHandles := [], jointStatePosHandles := [], jointStateVelHandles := []
      active := false }
  else s

/-! ## Torques -/

/-- The change of one joint's effort in one cycle. -/
def saturated (difference : Double K) : Double K :=
  Double.min (Double.max difference (-c.deltaTauMax)) c.deltaTauMax

def computeJointEffortCmds (tau : Fin c.numJoints → Double K)
    (s : EffortControllerBase K I c.numJoints) : EffortControllerBase K I c.numJoints :=
  { s with efforts := fun i => s.efforts i + c.saturated (tau i - s.efforts i) }

/-- The values the hardware's command interfaces hold, by name. -/
abbrev Held (K : Type) := String → Double K

/-- Set the value of every joint's interface through a handle vector, joint by
joint.  A vector that is too short is read past its end, which is undefined. -/
def setValues (handles : List I) (values : Fin c.numJoints → Double K) (held : Held K) :
    Option (Held K) :=
  (List.finRange c.numJoints).foldlM
    (fun held i => handles[i.val]?.map fun handle =>
      Function.update held (lib.getName handle) (values i)) held

/-- One round of the loop over the command interface types. -/
def writeType (type : String) (out : EffortControllerBase K I c.numJoints × Held K) :
    Option (EffortControllerBase K I c.numJoints × Held K) :=
  if type = hwIfEffort then
    let efforts := fun i =>
      Double.clamp (out.1.efforts i) (-c.jointEffortLimits i) (c.jointEffortLimits i)
    (c.setValues lib out.1.jointCmdEffHandles efforts out.2).map fun held =>
      ({ out.1 with efforts := efforts }, held)
  else some out

def writeJointEffortCmds (s : EffortControllerBase K I c.numJoints) (held : Held K) :
    Option (EffortControllerBase K I c.numJoints × Held K) := do
  let (s, held) ← c.cmdInterfaceTypes.foldlM (fun out type => c.writeType lib type out) (s, held)
  if c.commandCurrentConfiguration then
    let held ← c.setValues lib s.jointCmdPosHandles s.jointPositions held
    return (s, held)
  else return (s, held)

/-- `updateJointStates`, as far as the positions go: every joint is read through
both state handle vectors. -/
def updateJointStates (positions : Fin c.numJoints → Double K)
    (s : EffortControllerBase K I c.numJoints) : Option (EffortControllerBase K I c.numJoints) :=
  if c.numJoints ≤ s.jointStatePosHandles.length ∧ c.numJoints ≤ s.jointStateVelHandles.length then
    some { s with jointPositions := positions }
  else none

/-! ## The controllers derived from it -/

/-- `command_interface_configuration`. -/
def commandInterfaceNames : List String :=
  c.cmdInterfaceTypes.flatMap fun type => c.names.map fun name => name ++ "/" ++ type

/-- The interface that takes one joint's torque. -/
def effortName (i : Fin c.numJoints) : String := c.jointNames i ++ "/" ++ hwIfEffort

end Configured

/-- An effort controller in its system: the base class, the values the hardware's
command interfaces hold, and whether the lifecycle is in the active state. -/
structure DerivedController (K I : Type) (n : Nat) where
  base : EffortControllerBase K I n
  held : Configured.Held K
  active : Bool

namespace Configured

variable {K I : Type} [MachineArith K] (c : Configured K) (lib : OrderedInterfaces I)

/-- What the hardware does on starting effort control. -/
def startEffort (held : Held K) : Held K := fun name =>
  if ∃ i, name = c.effortName i then 0 else held name

/-- `on_activate` of a derived controller: it drops the result of its base class,
reads the joints, and succeeds. -/
def activate (commands states : List I) (positions : Fin c.numJoints → Double K)
    (s : DerivedController K I c.numJoints) :
    Option (DerivedController K I c.numJoints) := do
  let base := (c.onActivate lib commands states s.base).2
  let base ← c.updateJointStates positions base
  return ⟨base, c.startEffort s.held, true⟩

/-- `update` of a derived controller, with the torque it computes. -/
def update (positions tau : Fin c.numJoints → Double K) (s : DerivedController K I c.numJoints) :
    Option (DerivedController K I c.numJoints) := do
  let base ← c.updateJointStates positions s.base
  let (base, held) ← c.writeJointEffortCmds lib (c.computeJointEffortCmds tau base) s.held
  return { s with base := base, held := held }

/-- The six zeros a deactivation passes as the torque of all joints; the entries of
further joints are read past the end. -/
def zeroTorque (pastEnd : Fin c.numJoints → Double K) : Fin c.numJoints → Double K := fun i =>
  if i.val < 6 then 0 else pastEnd i

/-- `on_deactivate` of a derived controller. -/
def deactivate (pastEnd : Fin c.numJoints → Double K) (s : DerivedController K I c.numJoints) :
    Option (DerivedController K I c.numJoints) := do
  let base := c.computeJointEffortCmds (c.zeroTorque pastEnd) s.base
  let (base, held) ← c.writeJointEffortCmds lib base s.held
  return ⟨c.onDeactivate base, held, false⟩

end Configured

end FrankaRos.EffortController
