/-
# Gazebo.IgnSystem -- the simulated hardware interface

`IgnitionSystem` stands for the robot in the simulation.  `initSim` looks its joints up among
the simulator's entities, `performCommandModeSwitch` keeps a word of control methods for every
joint, `read` copies what the simulator says, and `write` leaves commands for it: components of
a joint's entity that the simulator's physics reads at its next step.

`none` is undefined behaviour: a component that is not there, an index behind an array.  The
dynamics model is a parameter, and so is `std::stod`.  A `double` is only copied, added and
multiplied here, so any type with these operations will do; `initSim` also asks whether one is
a NaN.  Of the sensors only joints are modelled.
-/
import FrankaRos.Theory.Run
import FrankaRos.Theory.Double

namespace FrankaRos.Gazebo

open FrankaRos.Theory

set_option autoImplicit false

/-! ## Control methods -/

/-- `SafeEnum<ControlMethod_>`: a word of flags. -/
abbrev ControlMethod := BitVec 32

namespace ControlMethod

def NONE : ControlMethod := 0#32
def POSITION : ControlMethod := 1#32 <<< 0
def VELOCITY : ControlMethod := 1#32 <<< 1
def EFFORT : ControlMethod := 1#32 <<< 2

/-- The conversion to `bool` of `method & flag`. -/
def has (method flag : ControlMethod) : Bool := method &&& flag != 0#32

end ControlMethod

open ControlMethod

def HW_IF_POSITION : String := "position"
def HW_IF_VELOCITY : String := "velocity"
def HW_IF_EFFORT : String := "effort"

/-! ## Entities and their components -/

abbrev Entity := Nat

def kNullEntity : Entity := 0

/-- `sdf::JointType`. -/
inductive JointType
  | invalid | ball | continuous | fixed | gearbox | prismatic | revolute | revolute2 | screw
  | universal
  deriving DecidableEq, Repr

structure Vector3 (K : Type) where
  x : K
  y : K
  z : K

def Vector3.dot {K : Type} [Add K] [Mul K] (v w : Vector3 K) : K := v.x * w.x + v.y * w.y + v.z * w.z

structure Wrench (K : Type) where
  force : Vector3 K
  torque : Vector3 K

/-- The components of a joint's entity, where it has them. -/
structure Components (K : Type) where
  jointType : Option JointType := none
  jointAxis : Option (Vector3 K) := none
  jointPosition : Option (List K) := none
  jointVelocity : Option (List K) := none
  jointTransmittedWrench : Option (Wrench K) := none
  jointVelocityCmd : Option (List K) := none
  jointForceCmd : Option (List K) := none
  jointPositionReset : Option (List K) := none
  jointVelocityReset : Option (List K) := none

abbrev EntityComponentManager (K : Type) := Entity → Components K

/-! ## The hardware interface -/

structure JointData (K : Type) where
  name : String
  jointPosition : K
  jointVelocity : K
  jointEffort : K
  jointPositionCmd : K
  jointVelocityCmd : K
  jointEffortCmd : K
  jointType : JointType
  jointAxis : Vector3 K
  isActuated : Bool
  simJoint : Entity
  jointControlMethod : ControlMethod

structure MimicJoint (K : Type) where
  jointIndex : Nat
  mimickedJointIndex : Nat
  multiplier : K
  interfacesToMimic : List String

/-- An exported interface: its two names, and the joint whose field it points to. -/
structure Handle where
  prefixName : String
  interfaceName : String
  joint : Nat
  deriving DecidableEq, Repr

/-- The full name by which controllers claim an interface. -/
def Handle.name (h : Handle) : String := h.prefixName ++ "/" ++ h.interfaceName

structure IgnitionSystem (K : Type) where
  joints : List (JointData K)
  mimicJoints : List (MimicJoint K)
  stateInterfaces : List Handle
  commandInterfaces : List Handle
  ecm : EntityComponentManager K
  positionProportionalGain : K

structure InterfaceInfo where
  name : String
  initialValue : String
  deriving DecidableEq, Repr

/-- `hardware_interface::ComponentInfo`. -/
structure ComponentInfo where
  name : String
  commandInterfaces : List InterfaceInfo
  stateInterfaces : List InterfaceInfo
  parameters : String → Option String

inductive Thrown
  | runtimeError (what : String)
  | invalidArgument (what : String)
  | outOfRange (what : String)
  deriving DecidableEq, Repr

/-- The quiet NaN, and `std::isnan`. -/
class QuietNaN (K : Type) where
  quietNaN : K
  isnan : K → Bool

instance {R : Type} [MachineArith R] : QuietNaN (Double R) := ⟨.nan, Double.isNaN⟩

instance {R : Type} [MachineArith R] : One (Double R) := ⟨Double.lit 1⟩

/-- What may throw, or run into undefined behaviour. -/
abbrev Program := ExceptT Thrown Option

variable {K : Type}

/-- What is only defined where there is a value. -/
def defined {α : Type} (value : Option α) : Program α := ExceptT.lift value

/-! ## `initSim` -/

section InitSim

variable [Zero K] [One K] [QuietNaN K] (stod : String → Except Thrown K)

open QuietNaN

/-- The search through the mimicked joint's state interfaces, whose predicate notes what there
is to mimic; `none` where it ends without a match. -/
def interfacesToMimic : List InterfaceInfo → Option (List String)
  | [] => none
  | info :: rest =>
      let pos := info.name == "position"
      let vel := info.name == "velocity"
      let eff := info.name == "effort"
      let noted := (if pos then [HW_IF_POSITION] else []) ++
        (if vel then [HW_IF_VELOCITY] else []) ++ (if vel then [HW_IF_EFFORT] else [])
      if pos || vel || eff then some noted
      else (interfacesToMimic rest).map (noted ++ ·)

/-- What is noted of a joint with a `mimic` parameter. -/
def mimicJoint (all : List ComponentInfo) (j : Nat) (info : ComponentInfo) (mimicked : String) :
    Program (MimicJoint K) :=
  let place := all.findIdx fun other => other.name = mimicked
  match all[place]? with
  | none => throw (.runtimeError ("Mimicked joint '" ++ mimicked ++ "' not found"))
  | some infoMimicked => do
      let multiplier ← match info.parameters "multiplier" with
        | some value => liftExcept (stod value)
        | none => pure 1
      match interfacesToMimic infoMimicked.stateInterfaces with
      | none => throw (.runtimeError ("For mimic joint '" ++ info.name ++
          "' no state interface was found in mimicked joint '" ++ mimicked ++ " ' to mimic"))
      | some interfaces => pure ⟨j, place, multiplier, interfaces⟩

def noteMimic (all : List ComponentInfo) (j : Nat) (info : ComponentInfo) :
    Program (List (MimicJoint K)) :=
  match info.parameters "mimic" with
  | none => pure []
  | some mimicked => (mimicJoint stod all j info mimicked).map fun mimic => [mimic]

def getInitialValue (info : InterfaceInfo) : Except Thrown K :=
  if info.initialValue = "" then .ok 0
  else
    match stod info.initialValue with
    | .error (.invalidArgument _) =>
        .error (.invalidArgument "Failed converting initial_value string")
    | result => result

/-- A joint while its interfaces are registered, with its initial values and its handles. -/
structure Registration (K : Type) where
  joint : JointData K
  initialPosition : K
  initialVelocity : K
  initialEffort : K
  handles : List Handle

def registerState (j : Nat) (exported : String) (r : Registration K) (info : InterfaceInfo) :
    Except Thrown (Registration K) := do
  if info.name = "position" then
    let value ← getInitialValue stod info
    pure { r with
      handles := r.handles ++ [⟨exported, HW_IF_POSITION, j⟩]
      initialPosition := value
      joint := { r.joint with jointPosition := value } }
  else if info.name = "velocity" then
    let value ← getInitialValue stod info
    pure { r with
      handles := r.handles ++ [⟨exported, HW_IF_VELOCITY, j⟩]
      initialVelocity := value
      joint := { r.joint with jointVelocity := value } }
  else if info.name = "effort" then
    let value ← getInitialValue stod info
    pure { r with
      handles := r.handles ++ [⟨exported, HW_IF_EFFORT, j⟩]
      initialEffort := value
      joint := { r.joint with jointEffort := value } }
  else pure r

/-- An initial value, where it is one. -/
def orKeep (initial kept : K) : K := if isnan initial then kept else initial

def registerCommand (j : Nat) (exported : String) (r : Registration K) (info : InterfaceInfo) :
    Registration K :=
  let r :=
    if info.name = "position" then { r with
      handles := r.handles ++ [⟨exported, HW_IF_POSITION, j⟩]
      joint := { r.joint with
        jointPositionCmd := orKeep r.initialPosition r.joint.jointPositionCmd } }
    else if info.name = "velocity" then { r with
      handles := r.handles ++ [⟨exported, HW_IF_VELOCITY, j⟩]
      joint := { r.joint with
        jointVelocityCmd := orKeep r.initialVelocity r.joint.jointVelocityCmd } }
    else if info.name = "effort" then { r with
      handles := r.handles ++ [⟨exported, HW_IF_EFFORT, j⟩]
      joint := { r.joint with
        jointControlMethod := r.joint.jointControlMethod ||| EFFORT
        jointEffortCmd := orKeep r.initialEffort r.joint.jointEffortCmd } }
    else r
  -- independently of existence of command interface set initial value if defined
  { r with joint := { r.joint with
      jointPosition := orKeep r.initialPosition r.joint.jointPosition
      jointVelocity := orKeep r.initialVelocity r.joint.jointVelocity } }

/-- What a joint of `joints_` holds before the loop comes to it. -/
def JointData.blank : JointData K :=
  ⟨"", 0, 0, 0, 0, 0, 0, .invalid, ⟨0, 0, 0⟩, false, kNullEntity, NONE⟩

/-- The components that the loop creates where they are missing. -/
def Components.forReading (c : Components K) : Components K :=
  { c with
    jointPosition := some (c.jointPosition.getD [])
    jointVelocity := some (c.jointVelocity.getD [])
    jointTransmittedWrench := some (c.jointTransmittedWrench.getD ⟨⟨0, 0, 0⟩, ⟨0, 0, 0⟩⟩) }

/-- The resets that every command interface asks for. -/
def Components.reset (info : ComponentInfo) (r : Registration K) (c : Components K) :
    Components K :=
  if info.commandInterfaces = [] then c
  else { c with
    jointPositionReset :=
      if isnan r.initialPosition then c.jointPositionReset else some [r.initialPosition]
    jointVelocityReset :=
      if isnan r.initialVelocity then c.jointVelocityReset else some [r.initialVelocity] }

/-- The name under which a joint's interfaces are exported, with `suffix`. -/
def ComponentInfo.exportedName (info : ComponentInfo) : String :=
  info.name ++ if (info.parameters "mimic").isSome then "_mimic" else ""

/-- One round of the loop over the joints. -/
def initJoint (enableJoints : String → Option Entity) (all : List ComponentInfo) (j : Nat)
    (info : ComponentInfo) (s : IgnitionSystem K) : Program (IgnitionSystem K) :=
  match enableJoints info.name with
  | none => pure { s with joints := s.joints.set j { JointData.blank with name := info.name } }
  | some simjoint => do
      let jointType ← defined (s.ecm simjoint).jointType
      let jointAxis ← defined (s.ecm simjoint).jointAxis
      let mimicJoints ← noteMimic stod all j info
      let exported := info.exportedName
      let found : JointData K := { JointData.blank with
        name := info.name, simJoint := simjoint, jointType := jointType, jointAxis := jointAxis }
      let states ← liftExcept <| info.stateInterfaces.foldlM (registerState stod j exported)
        ⟨found, quietNaN, quietNaN, quietNaN, []⟩
      let commands := info.commandInterfaces.foldl (registerCommand j exported)
        { states with handles := [] }
      pure { s with
        joints := s.joints.set j { commands.joint with
          isActuated := decide (0 < info.commandInterfaces.length) }
        mimicJoints := s.mimicJoints ++ mimicJoints
        stateInterfaces := s.stateInterfaces ++ states.handles
        commandInterfaces := s.commandInterfaces ++ commands.handles
        ecm := Function.update s.ecm simjoint ((s.ecm simjoint).forReading.reset info commands) }

/-- The loop from joint `j` on. -/
def initJoints (enableJoints : String → Option Entity) (all : List ComponentInfo) :
    Nat → List ComponentInfo → IgnitionSystem K → Program (IgnitionSystem K)
  | _, [], s => pure s
  | j, info :: rest, s => do
      let s ← initJoint stod enableJoints all j info s
      initJoints enableJoints all (j + 1) rest s

/-- `initSim`, with the simulator's entities by their joints' names, and the gain as the node's
parameter `position_proportional_gain` gives it. -/
def initSim (gain : K) (enableJoints : String → Option Entity) (joints : List ComponentInfo)
    (ecm : EntityComponentManager K) : Program (Bool × IgnitionSystem K) :=
  let s : IgnitionSystem K := ⟨List.replicate joints.length JointData.blank, [], [], [], ecm, gain⟩
  if joints.length = 0 then pure (false, s)
  else do
    let s ← initJoints stod enableJoints joints 0 joints s
    pure (true, s)

end InitSim

/-! ## `read` -/

section Read

variable [Add K] [Mul K]

def readJoint (ecm : EntityComponentManager K) (joint : JointData K) : Option (JointData K) :=
  if joint.simJoint = kNullEntity then some joint
  else do
    let velocity ← (ecm joint.simJoint).jointVelocity
    let wrench ← (ecm joint.simJoint).jointTransmittedWrench
    let position ← (ecm joint.simJoint).jointPosition
    let jointPosition ← position[0]?
    let jointVelocity ← velocity[0]?
    let forceOrTorque := if joint.jointType = .prismatic then wrench.force else wrench.torque
    some { joint with
      jointPosition := jointPosition
      jointVelocity := jointVelocity
      jointEffort := forceOrTorque.dot joint.jointAxis }

def readJoints (ecm : EntityComponentManager K) : List (JointData K) → Option (List (JointData K))
  | [] => some []
  | joint :: rest => do
      let joint ← readJoint ecm joint
      let rest ← readJoints ecm rest
      some (joint :: rest)

def read (s : IgnitionSystem K) : Option (IgnitionSystem K) :=
  (readJoints s.ecm s.joints).map fun joints => { s with joints := joints }

end Read

/-! ## `perform_command_mode_switch` -/

def stopInterface (name : String) (method : ControlMethod) (interface : String) : ControlMethod :=
  if interface = name ++ "/" ++ HW_IF_POSITION then method &&& (VELOCITY &&& EFFORT)
  else if interface = name ++ "/" ++ HW_IF_VELOCITY then method &&& (POSITION &&& EFFORT)
  else if interface = name ++ "/" ++ HW_IF_EFFORT then method &&& (POSITION &&& VELOCITY)
  else method

def startInterface (name : String) (method : ControlMethod) (interface : String) : ControlMethod :=
  if interface = name ++ "/" ++ HW_IF_POSITION then method ||| POSITION
  else if interface = name ++ "/" ++ HW_IF_VELOCITY then method ||| VELOCITY
  else if interface = name ++ "/" ++ HW_IF_EFFORT then method ||| EFFORT
  else method

/-- The control method of a joint after a switch. -/
def switchMethod (start stop : List String) (name : String) (method : ControlMethod) :
    ControlMethod :=
  start.foldl (startInterface name) (stop.foldl (stopInterface name) method)

def performCommandModeSwitch (start stop : List String) (s : IgnitionSystem K) :
    IgnitionSystem K :=
  { s with joints := s.joints.map fun joint => { joint with
      jointControlMethod := switchMethod start stop joint.name joint.jointControlMethod } }

/-! ## `write` -/

section Write

/-- A component that is created with a zero, and assigned where it is there. -/
def createOrAssign [Zero K] (value : K) : Option (List K) → Option (List K)
  | none => some [0]
  | some _ => some [value]

/-- A component that is created with the value, which goes to its first entry where it is
there. -/
def createOrStore (value : K) : Option (List K) → Option (List K)
  | none => some [value]
  | some data => some (data.set 0 value)

variable [Zero K] [Add K] [Sub K] [Mul K] [Neg K]

/-- The velocity that the position error of a joint asks for. -/
def targetVel (gain updateRate : K) (joint : JointData K) : K :=
  -gain * ((joint.jointPosition - joint.jointPositionCmd) * updateRate)

/-- The commands for one joint, the `i`-th. -/
def commandJoint (jointEfforts : Fin 7 → K) (gain updateRate : K) (i : Nat) (joint : JointData K)
    (c : Components K) : Option (Components K) :=
  if joint.jointControlMethod.has VELOCITY then
    some { c with jointVelocityCmd := createOrAssign joint.jointVelocityCmd c.jointVelocityCmd }
  else if joint.jointControlMethod.has POSITION then
    some { c with
      jointVelocityCmd := createOrStore (targetVel gain updateRate joint) c.jointVelocityCmd }
  else if joint.jointControlMethod.has EFFORT then
    match c.jointForceCmd with
    | none => some { c with jointForceCmd := some [0] }
    | some _ =>
        if inside : i < 7 then
          some { c with jointForceCmd := some [joint.jointEffortCmd + jointEfforts ⟨i, inside⟩] }
        else none
  else if joint.isActuated then
    some { c with jointVelocityCmd := createOrStore 0 c.jointVelocityCmd }
  else some c

/-- The first loop of `write`, from joint `i` on. -/
def commandJoints (jointEfforts : Fin 7 → K) (gain updateRate : K) :
    Nat → List (JointData K) → EntityComponentManager K → Option (EntityComponentManager K)
  | _, [], ecm => some ecm
  | i, joint :: rest, ecm =>
      if joint.simJoint = kNullEntity then
        commandJoints jointEfforts gain updateRate (i + 1) rest ecm
      else do
        let c ← commandJoint jointEfforts gain updateRate i joint (ecm joint.simJoint)
        commandJoints jointEfforts gain updateRate (i + 1) rest
          (Function.update ecm joint.simJoint c)

/-- One interface of a mimic joint. -/
def mimicInterface (updateRate : K) (joints : List (JointData K)) (mimic : MimicJoint K)
    (ecm : EntityComponentManager K) (interface : String) : Option (EntityComponentManager K) := do
  let joint ← joints[mimic.jointIndex]?
  let mimicked ← joints[mimic.mimickedJointIndex]?
  let c := ecm joint.simJoint
  if interface = "position" then
    let positionMimickedJoint ← (← (ecm mimicked.simJoint).jointPosition)[0]?
    let positionMimicJoint ← (← c.jointPosition)[0]?
    let positionError := positionMimicJoint - positionMimickedJoint * mimic.multiplier
    let velocitySp := -positionError * updateRate
    some (Function.update ecm joint.simJoint
      { c with jointVelocityCmd := createOrStore velocitySp c.jointVelocityCmd })
  else if interface = "velocity" then
    let velocityMimickedJoint ← (← (ecm mimicked.simJoint).jointVelocity)[0]?
    some (Function.update ecm joint.simJoint { c with
      jointVelocityCmd :=
        createOrAssign (mimic.multiplier * velocityMimickedJoint) c.jointVelocityCmd })
  else if interface = "effort" then
    some (Function.update ecm joint.simJoint { c with
      jointForceCmd := createOrAssign (mimic.multiplier * mimicked.jointEffort) c.jointForceCmd })
  else some ecm

inductive ReturnType
  | ok | error
  deriving DecidableEq, Repr

/-- The array that the dynamics model is asked with; its entries have no value behind the last
joint. -/
def collectPositions (joints : List (JointData K)) : Option (Fin 7 → K) :=
  if enough : 7 ≤ joints.length then
    some fun i => (joints.get (i.castLE enough)).jointPosition
  else none

/-- `write`.  The dynamics model gives the efforts that make up for gravity, or throws. -/
def write (gravity : (Fin 7 → K) → Except String (Fin 7 → K)) (updateRate : K)
    (s : IgnitionSystem K) : Option (ReturnType × IgnitionSystem K) := do
  let q ← collectPositions s.joints
  match gravity q with
  | .error _ => some (.error, s)
  | .ok jointEfforts => do
      let ecm ← commandJoints jointEfforts s.positionProportionalGain updateRate 0 s.joints s.ecm
      let ecm ← s.mimicJoints.foldlM
        (fun ecm mimic => mimic.interfacesToMimic.foldlM
          (mimicInterface updateRate s.joints mimic) ecm) ecm
      some (.ok, { s with ecm := ecm })

/-! ## Runs -/

/-- The interfaces of a joint. -/
inductive Kind
  | position | velocity | effort
  deriving DecidableEq, Repr

def Kind.interface : Kind → String
  | .position => HW_IF_POSITION
  | .velocity => HW_IF_VELOCITY
  | .effort => HW_IF_EFFORT

/-- A controller writes through a command handle. -/
def JointData.setCommand (kind : Kind) (value : K) (joint : JointData K) : JointData K :=
  match kind with
  | .position => { joint with jointPositionCmd := value }
  | .velocity => { joint with jointVelocityCmd := value }
  | .effort => { joint with jointEffortCmd := value }

/-- What happens to a hardware interface; the simulator does with the components as it likes. -/
inductive Event (K : Type)
  | read
  | write
  | switch (start stop : List String)
  | command (joint : Nat) (kind : Kind) (value : K)
  | simulate (f : EntityComponentManager K → EntityComponentManager K)

def step (gravity : (Fin 7 → K) → Except String (Fin 7 → K)) (updateRate : K)
    (s : IgnitionSystem K) : Event K → Option (IgnitionSystem K)
  | .read => read s
  | .write => (write gravity updateRate s).map Prod.snd
  | .switch start stop => some (performCommandModeSwitch start stop s)
  | .command joint kind value =>
      some { s with joints := s.joints.modify joint (JointData.setCommand kind value) }
  | .simulate f => some { s with ecm := f s.ecm }

/-- A run that stays defined. -/
def runs (gravity : (Fin 7 → K) → Except String (Fin 7 → K)) (updateRate : K)
    (s : IgnitionSystem K) (es : List (Event K)) : Option (IgnitionSystem K) :=
  es.foldlM (step gravity updateRate) s

end Write

/-! ## What no event but a switch changes -/

/-- What a joint keeps from one switch to the next. -/
structure Setup where
  name : String
  simJoint : Entity
  isActuated : Bool
  method : ControlMethod

def JointData.setup (joint : JointData K) : Setup :=
  ⟨joint.name, joint.simJoint, joint.isActuated, joint.jointControlMethod⟩

def Event.setup : Event K → Setup → Setup
  | .switch start stop, u => { u with method := switchMethod start stop u.name u.method }
  | _, u => u

section Setups

theorem readJoint_setup [Add K] [Mul K] {ecm : EntityComponentManager K} {joint joint' : JointData K}
    (ran : readJoint ecm joint = some joint') : joint'.setup = joint.setup := by
  unfold readJoint at ran
  split at ran
  · rw [Option.some.inj ran]
  · simp only [Option.bind_eq_bind, Option.bind_eq_some_iff] at ran
    obtain ⟨_, -, _, -, _, -, _, -, _, -, same⟩ := ran
    rw [← Option.some.inj same]
    rfl

theorem readJoints_setup [Add K] [Mul K] {ecm : EntityComponentManager K}
    {joints joints' : List (JointData K)} (ran : readJoints ecm joints = some joints') :
    joints'.map JointData.setup = joints.map JointData.setup := by
  induction joints generalizing joints' with
  | nil => rw [← Option.some.inj ran]
  | cons joint rest ih =>
      simp only [readJoints, Option.bind_eq_bind, Option.bind_eq_some_iff] at ran
      obtain ⟨joint', first, rest', others, same⟩ := ran
      rw [← Option.some.inj same, List.map_cons, List.map_cons, readJoint_setup first, ih others]

theorem setup_setCommand (kind : Kind) (value : K) (joint : JointData K) :
    (joint.setCommand kind value).setup = joint.setup := by
  cases kind <;> rfl

theorem name_setup (e : Event K) (u : Setup) : (e.setup u).name = u.name := by
  cases e <;> rfl

/-- A run keeps what is no method. -/
theorem kept_run (es : List (Event K)) (u : Setup) :
    (run (fun u e => e.setup u) u es).name = u.name ∧
      (run (fun u e => e.setup u) u es).simJoint = u.simJoint ∧
      (run (fun u e => e.setup u) u es).isActuated = u.isActuated := by
  induction es generalizing u with
  | nil => exact ⟨rfl, rfl, rfl⟩
  | cons e es ih =>
      obtain ⟨name, entity, actuated⟩ := ih (e.setup u)
      refine ⟨name.trans ?_, entity.trans ?_, actuated.trans ?_⟩ <;> cases e <;> rfl

variable [Zero K] [Add K] [Sub K] [Mul K] [Neg K]
  {gravity : (Fin 7 → K) → Except String (Fin 7 → K)} {updateRate : K}

/-- A `write` changes the components only. -/
theorem write_eq {s s' : IgnitionSystem K} {result : ReturnType}
    (ran : write gravity updateRate s = some (result, s')) : s' = { s with ecm := s'.ecm } := by
  simp only [write, Option.bind_eq_bind, Option.bind_eq_some_iff] at ran
  obtain ⟨q, -, ran⟩ := ran
  split at ran
  · cases ran
    rfl
  · simp only [Option.bind_eq_some_iff] at ran
    obtain ⟨_, -, _, -, same⟩ := ran
    cases same
    rfl

/-- What a step does to the joints' setups, and what it keeps. -/
theorem step_setup {s s' : IgnitionSystem K} {e : Event K}
    (stepped : step gravity updateRate s e = some s') :
    s'.joints.map JointData.setup = (s.joints.map JointData.setup).map e.setup ∧
      s'.mimicJoints = s.mimicJoints ∧ s'.commandInterfaces = s.commandInterfaces ∧
      s'.positionProportionalGain = s.positionProportionalGain := by
  have kept : (s.joints.map JointData.setup).map id = s.joints.map JointData.setup :=
    List.map_id _
  cases e with
  | read =>
      obtain ⟨joints, ran, rfl⟩ := Option.map_eq_some_iff.1 stepped
      exact ⟨(readJoints_setup ran).trans kept.symm, rfl, rfl, rfl⟩
  | write =>
      obtain ⟨⟨result, s''⟩, ran, rfl⟩ := Option.map_eq_some_iff.1 stepped
      rw [write_eq ran]
      exact ⟨kept.symm, rfl, rfl, rfl⟩
  | switch start stop =>
      obtain rfl := Option.some.inj stepped
      refine ⟨?_, rfl, rfl, rfl⟩
      simp only [performCommandModeSwitch, List.map_map]
      rfl
  | command i kind value =>
      obtain rfl := Option.some.inj stepped
      refine ⟨Eq.trans ?_ kept.symm, rfl, rfl, rfl⟩
      apply List.ext_getElem?
      intro j
      simp only [List.getElem?_map, List.getElem?_modify]
      cases s.joints[j]? with
      | none => rfl
      | some joint =>
          by_cases same : i = j
          · simp [same, setup_setCommand]
          · simp [same]
  | simulate f =>
      obtain rfl := Option.some.inj stepped
      exact ⟨kept.symm, rfl, rfl, rfl⟩

/-- The joints' setups behind a run, and what it keeps. -/
theorem runs_setups {s s' : IgnitionSystem K} {es : List (Event K)}
    (ran : runs gravity updateRate s es = some s') :
    s'.joints.map JointData.setup =
        (s.joints.map JointData.setup).map (fun u => run (fun u e => e.setup u) u es) ∧
      s'.mimicJoints = s.mimicJoints ∧ s'.commandInterfaces = s.commandInterfaces := by
  induction es generalizing s with
  | nil =>
      obtain rfl := Option.some.inj ran
      exact ⟨(List.map_id _).symm, rfl, rfl⟩
  | cons e es ih =>
      rw [runs, List.foldlM_cons] at ran
      obtain ⟨t, first, rest⟩ := Option.bind_eq_some_iff.1 ran
      obtain ⟨setups, mimics, exported⟩ := ih rest
      obtain ⟨setups₁, mimics₁, exported₁, -⟩ := step_setup first
      refine ⟨?_, mimics.trans mimics₁, exported.trans exported₁⟩
      rw [setups, setups₁, List.map_map]
      rfl

theorem runs_setup {s s' : IgnitionSystem K} {es : List (Event K)}
    (ran : runs gravity updateRate s es = some s') {i : Nat} {joint : JointData K}
    (here : s.joints[i]? = some joint) :
    ∃ joint', s'.joints[i]? = some joint' ∧
      joint'.setup = run (fun u e => e.setup u) joint.setup es := by
  have entry := congrArg (fun setups => setups[i]?) (runs_setups ran).1
  simp only [List.getElem?_map, here, Option.map_some] at entry
  exact Option.map_eq_some_iff.1 entry

/-- A joint behind a run was there before. -/
theorem runs_joint {s s' : IgnitionSystem K} {es : List (Event K)}
    (ran : runs gravity updateRate s es = some s') {i : Nat} {joint' : JointData K}
    (there : s'.joints[i]? = some joint') : ∃ joint, s.joints[i]? = some joint ∧
      joint'.setup = run (fun u e => e.setup u) joint.setup es := by
  have entry := congrArg (fun setups => setups[i]?) (runs_setups ran).1
  simp only [List.getElem?_map, there, Option.map_some, Option.map_map] at entry
  obtain ⟨joint, here, same⟩ := Option.map_eq_some_iff.1 entry.symm
  exact ⟨joint, here, same.symm⟩

end Setups

/-! ## What `initSim` leaves -/

section Initialised

theorem run_bind_ok {α β : Type} {x : Program α} {f : α → Program β} {b : β}
    (ran : (x >>= f).run = some (.ok b)) : ∃ a, x.run = some (.ok a) ∧ (f a).run = some (.ok b) := by
  rw [ExceptT.run_bind] at ran
  obtain ⟨result, first, rest⟩ := Option.bind_eq_some_iff.1 ran
  cases result with
  | error thrown => cases rest
  | ok a => exact ⟨a, first, rest⟩

/-- A joint has a command interface of a kind. -/
def ComponentInfo.Offers (info : ComponentInfo) (k : Kind) : Prop :=
  ∃ interface ∈ info.commandInterfaces, interface.name = k.interface

def ComponentInfo.hasEffort (info : ComponentInfo) : Bool :=
  info.commandInterfaces.any fun interface => interface.name = "effort"

/-- The setup of a joint when the simulation begins. -/
def ComponentInfo.initialSetup (enableJoints : String → Option Entity) (info : ComponentInfo) :
    Setup :=
  match enableJoints info.name with
  | none => ⟨info.name, kNullEntity, false, NONE⟩
  | some simjoint => ⟨info.name, simjoint, decide (0 < info.commandInterfaces.length),
      if info.hasEffort then EFFORT else NONE⟩

@[simp] theorem initialSetup_name (enableJoints : String → Option Entity) (info : ComponentInfo) :
    (info.initialSetup enableJoints).name = info.name := by
  unfold ComponentInfo.initialSetup
  split <;> rfl

theorem initialSetup_method {enableJoints : String → Option Entity} {info : ComponentInfo}
    {e : Entity} (there : enableJoints info.name = some e) :
    (info.initialSetup enableJoints).method = if info.hasEffort then EFFORT else NONE := by
  rw [ComponentInfo.initialSetup, there]

/-- A joint has an entity exactly if the simulation knows its name. -/
theorem initialSetup_simJoint_iff {enableJoints : String → Option Entity} {info : ComponentInfo}
    {e : Entity} (found : e ≠ kNullEntity) :
    (info.initialSetup enableJoints).simJoint = e ↔ enableJoints info.name = some e := by
  unfold ComponentInfo.initialSetup
  split
  · rename_i unknown
    rw [unknown]
    exact ⟨fun null => absurd null.symm found, nofun⟩
  · rename_i there
    rw [there]
    exact Option.some_inj.symm

theorem run_liftExcept_ok {α : Type} {x : Except Thrown α} {a : α}
    (ran : (liftExcept x : Program α).run = some (.ok a)) : x = .ok a := by
  cases x with
  | error thrown => cases ran
  | ok value =>
      cases ran
      rfl

variable {stod : String → Except Thrown K}

theorem registerState_setup [Zero K] {j : Nat} {exported : String} {r r' : Registration K}
    {info : InterfaceInfo} (ran : registerState stod j exported r info = .ok r') :
    r'.joint.setup = r.joint.setup := by
  unfold registerState at ran
  split at ran
  · cases value : getInitialValue stod info <;> simp only [value] at ran <;> cases ran
    rfl
  split at ran
  · cases value : getInitialValue stod info <;> simp only [value] at ran <;> cases ran
    rfl
  split at ran
  · cases value : getInitialValue stod info <;> simp only [value] at ran <;> cases ran
    rfl
  · cases ran
    rfl

theorem registerStates_setup [Zero K] {j : Nat} {exported : String} {infos : List InterfaceInfo}
    {r r' : Registration K} (ran : infos.foldlM (registerState stod j exported) r = .ok r') :
    r'.joint.setup = r.joint.setup := by
  induction infos generalizing r with
  | nil =>
      cases ran
      rfl
  | cons info infos ih =>
      rw [List.foldlM_cons] at ran
      cases first : registerState stod j exported r info with
      | error thrown =>
          rw [first] at ran
          cases ran
      | ok r₁ =>
          rw [first] at ran
          rw [ih ran, registerState_setup first]

variable [QuietNaN K]

theorem registerCommand_eq (j : Nat) (exported : String) (r : Registration K)
    (info : InterfaceInfo) :
    (registerCommand j exported r info).joint.setup =
        { r.joint.setup with
          method := if info.name = "effort" then r.joint.jointControlMethod ||| EFFORT
            else r.joint.jointControlMethod } ∧
      ∃ handles, (registerCommand j exported r info).handles = r.handles ++ handles ∧
        ∀ h ∈ handles, h.prefixName = exported ∧ h.joint = j ∧
          ∃ k : Kind, h.interfaceName = k.interface ∧ info.name = k.interface := by
  unfold registerCommand
  split
  · rename_i position
    refine ⟨?_, [⟨exported, HW_IF_POSITION, j⟩], rfl, by simpa using ⟨.position, rfl, position⟩⟩
    rw [if_neg (by rw [position]; decide)]
    rfl
  split
  · rename_i velocity
    refine ⟨?_, [⟨exported, HW_IF_VELOCITY, j⟩], rfl, by simpa using ⟨.velocity, rfl, velocity⟩⟩
    rw [if_neg (by rw [velocity]; decide)]
    rfl
  split
  · rename_i effort
    exact ⟨rfl, [⟨exported, HW_IF_EFFORT, j⟩], rfl, by simpa using ⟨.effort, rfl, effort⟩⟩
  · exact ⟨rfl, [], by simp, by simp⟩

theorem registerCommands_eq (j : Nat) (exported : String) (infos : List InterfaceInfo)
    (r : Registration K) :
    (infos.foldl (registerCommand j exported) r).joint.setup =
        { r.joint.setup with
          method := if infos.any (fun info => info.name = "effort") then
            r.joint.jointControlMethod ||| EFFORT else r.joint.jointControlMethod } ∧
      ∃ handles, (infos.foldl (registerCommand j exported) r).handles = r.handles ++ handles ∧
        ∀ h ∈ handles, h.prefixName = exported ∧ h.joint = j ∧ ∃ k : Kind,
          h.interfaceName = k.interface ∧ ∃ info ∈ infos, info.name = k.interface := by
  induction infos generalizing r with
  | nil => exact ⟨rfl, [], by simp, by simp⟩
  | cons info infos ih =>
      obtain ⟨setup, handles, listed, named⟩ := registerCommand_eq j exported r info
      obtain ⟨behind, later, rest, named'⟩ := ih (registerCommand j exported r info)
      refine ⟨?_, handles ++ later, ?_, ?_⟩
      · have method : (registerCommand j exported r info).joint.jointControlMethod = _ :=
          congrArg Setup.method setup
        rw [List.foldl_cons, behind, setup, method]
        by_cases effort : info.name = "effort"
        · simp [effort, BitVec.or_assoc]
        · simp [effort]
      · rw [List.foldl_cons, rest, listed, List.append_assoc]
      · intro h member
        rcases List.mem_append.1 member with first | second
        · obtain ⟨name, place, k, kind, offered⟩ := named h first
          exact ⟨name, place, k, kind, info, List.mem_cons_self, offered⟩
        · obtain ⟨name, place, k, kind, other, listed, offered⟩ := named' h second
          exact ⟨name, place, k, kind, other, List.mem_cons_of_mem _ listed, offered⟩

variable [Zero K] [One K]

/-- One round of the loop sets one joint up, and exports interfaces of its own only. -/
theorem initJoint_ok {enableJoints : String → Option Entity} {all : List ComponentInfo} {j : Nat}
    {info : ComponentInfo} {s s' : IgnitionSystem K}
    (ran : (initJoint stod enableJoints all j info s).run = some (.ok s')) :
    ∃ joint handles, s'.joints = s.joints.set j joint ∧
      joint.setup = info.initialSetup enableJoints ∧
      s'.commandInterfaces = s.commandInterfaces ++ handles ∧
      ∀ h ∈ handles, h.prefixName = info.exportedName ∧ h.joint = j ∧
        ∃ k : Kind, h.interfaceName = k.interface ∧ info.Offers k := by
  unfold initJoint at ran
  unfold ComponentInfo.initialSetup
  split at ran
  · cases ran
    exact ⟨_, [], rfl, rfl, by simp, by simp⟩
  · obtain ⟨jointType, -, ran⟩ := run_bind_ok ran
    obtain ⟨jointAxis, -, ran⟩ := run_bind_ok ran
    obtain ⟨mimicJoints, -, ran⟩ := run_bind_ok ran
    obtain ⟨states, registered, ran⟩ := run_bind_ok ran
    have states_setup := registerStates_setup (run_liftExcept_ok registered)
    obtain ⟨setup, handles, listed, named⟩ := registerCommands_eq j info.exportedName
      info.commandInterfaces { states with handles := [] }
    cases ran
    refine ⟨_, handles, rfl, ?_, ?_, named⟩
    · have method : states.joint.jointControlMethod = NONE := congrArg Setup.method states_setup
      rw [method, NONE, BitVec.zero_or] at setup
      let actuate (u : Setup) : Setup :=
        { u with isActuated := decide (0 < info.commandInterfaces.length) }
      apply (congrArg actuate setup).trans
      show Setup.mk states.joint.setup.name states.joint.setup.simJoint _ _ = _
      rw [states_setup]
      rfl
    · show s.commandInterfaces ++ _ = _
      rw [listed, List.nil_append]

/-- The loop sets up the joints from `j` on, and keeps the others. -/
theorem initJoints_ok {enableJoints : String → Option Entity} {all infos : List ComponentInfo}
    {j : Nat} {s s' : IgnitionSystem K} (room : s.joints.length = j + infos.length)
    (ran : (initJoints stod enableJoints all j infos s).run = some (.ok s')) :
    s'.joints.map JointData.setup = (s.joints.map JointData.setup).take j ++
        infos.map (ComponentInfo.initialSetup enableJoints) ∧
      ∃ handles, s'.commandInterfaces = s.commandInterfaces ++ handles ∧
        ∀ h ∈ handles, ∃ i info, infos[i]? = some info ∧ h.joint = j + i ∧
          h.prefixName = info.exportedName ∧
            ∃ k : Kind, h.interfaceName = k.interface ∧ info.Offers k := by
  induction infos generalizing j s with
  | nil =>
      cases ran
      refine ⟨?_, [], by simp, by simp⟩
      rw [List.take_of_length_le (by simp [room]), List.map_nil, List.append_nil]
  | cons info infos ih =>
      obtain ⟨s₁, first, rest⟩ := run_bind_ok ran
      obtain ⟨joint, handles, joints, setup, exported, named⟩ := initJoint_ok first
      have room₁ : s₁.joints.length = j + 1 + infos.length := by
        rw [joints, List.length_set, room, List.length_cons]
        omega
      obtain ⟨setups, later, exported', named'⟩ := ih room₁ rest
      refine ⟨?_, handles ++ later, ?_, ?_⟩
      · have inside : j < s.joints.length := by
          rw [room, List.length_cons]
          omega
        rw [setups, joints, List.map_set, List.take_succ_eq_append_getElem (by simpa using inside),
          List.take_set_of_le (Nat.le_refl j), List.getElem_set_self, setup, List.map_cons,
          List.append_assoc, List.singleton_append]
      · rw [exported', exported, List.append_assoc]
      · intro h member
        rcases List.mem_append.1 member with here | behind
        · obtain ⟨name, place, kind⟩ := named h here
          exact ⟨0, info, rfl, place, name, kind⟩
        · obtain ⟨i, info', listed, place, name, kind⟩ := named' h behind
          exact ⟨i + 1, info', listed, by omega, name, kind⟩

/-- **What `initSim` leaves.** -/
theorem initSim_ok {gain : K} {enableJoints : String → Option Entity} {infos : List ComponentInfo}
    {ecm : EntityComponentManager K} {s : IgnitionSystem K}
    (ran : (initSim stod gain enableJoints infos ecm).run = some (.ok (true, s))) :
    s.joints.map JointData.setup = infos.map (ComponentInfo.initialSetup enableJoints) ∧
      ∀ h ∈ s.commandInterfaces, ∃ info, infos[h.joint]? = some info ∧
        h.prefixName = info.exportedName ∧
          ∃ k : Kind, h.interfaceName = k.interface ∧ info.Offers k := by
  unfold initSim at ran
  split at ran
  · cases ran
  · obtain ⟨s', looped, ran⟩ := run_bind_ok ran
    cases ran
    obtain ⟨setups, handles, exported, named⟩ := initJoints_ok (by simp) looped
    refine ⟨by simpa using setups, ?_⟩
    intro h member
    rw [exported, List.nil_append] at member
    obtain ⟨i, info, listed, place, name, kind⟩ := named h member
    exact ⟨info, by simpa [place] using listed, name, kind⟩

end Initialised

/-! ## Joints and their descriptions -/

section Described

variable {enableJoints : String → Option Entity} {infos : List ComponentInfo}
  {s : IgnitionSystem K} {i : Nat}
  (setups : s.joints.map JointData.setup = infos.map (ComponentInfo.initialSetup enableJoints))

include setups

/-- Every joint has its description, -/
theorem exists_info {joint : JointData K} (here : s.joints[i]? = some joint) :
    ∃ info, infos[i]? = some info ∧ joint.setup = info.initialSetup enableJoints := by
  have entry := congrArg (fun setups => setups[i]?) setups
  simp only [List.getElem?_map, here, Option.map_some] at entry
  obtain ⟨info, listed, same⟩ := Option.map_eq_some_iff.1 entry.symm
  exact ⟨info, listed, same.symm⟩

/-- and every description its joint. -/
theorem exists_joint {info : ComponentInfo} (listed : infos[i]? = some info) :
    ∃ joint, s.joints[i]? = some joint ∧ joint.setup = info.initialSetup enableJoints := by
  have entry := congrArg (fun setups => setups[i]?) setups
  simp only [List.getElem?_map, listed, Option.map_some] at entry
  exact Option.map_eq_some_iff.1 entry

end Described

end FrankaRos.Gazebo
