/-
# Hardware.FrankaHardwareInterface -- the ros2_control system interface

`FrankaHardwareInterface` keeps, for each command interface, a claim flag set by
`prepare_command_mode_switch`, a running flag set by `perform_command_mode_switch`
and a command buffer that controllers write into; the position-like interfaces
also keep a first-update flag that holds commands back until a `read` has put
the measured state into the buffer.  `perform_command_mode_switch` is a fixed
cascade over the five control modes, and any of its start calls may throw half
way (`cascade`).

`Event` and `step` run the interface: mode switches, cycles and controller
writes in any order.
-/
import FrankaRos.Hardware.Robot
import FrankaRos.Theory.Run

namespace FrankaRos.Hardware

open FrankaRos.Theory

set_option autoImplicit false

set_option linter.unusedSectionVars false

universe u

/-! ## Command interfaces -/

/-- The rows of `command_interfaces_info_`: one per control mode, and the elbow. -/
inductive CommandInterface where
  | mode (m : ControlMode)
  | elbow
  deriving DecidableEq, Repr

namespace CommandInterface

def interfaceType : CommandInterface → String
  | .mode .effort => "effort"
  | .mode .jointVelocity => "velocity"
  | .mode .jointPosition => "position"
  | .elbow => "elbow_command"
  | .mode .cartesianVelocity => "cartesian_velocity"
  | .mode .cartesianPose => "cartesian_pose_command"

/-- The number of handles a complete set has, which is also the buffer's length. -/
def size : CommandInterface → Nat
  | .mode m => m.size
  | .elbow => 2

end CommandInterface

/-- `command_interfaces_info_`, in the source's order. -/
def commandInterfacesInfo : List CommandInterface :=
  [.mode .effort, .mode .jointVelocity, .mode .jointPosition, .elbow,
    .mode .cartesianVelocity, .mode .cartesianPose]

/-- The part of `franka::RobotState` that position commands are initialised from. -/
structure RobotState (K : Type u) where
  q : Fin 7 → Double K
  elbow : Fin 2 → Double K
  oTEE : Fin 16 → Double K

structure FrankaHardwareInterface (K : Type u) where
  /-- `exported_command_interfaces_`. -/
  exported : List String
  claimed : CommandInterface → Bool
  running : CommandInterface → Bool
  /-- The `hw_*_commands_` buffers. -/
  commands : CommandInterface → List (Double K)
  /-- `first_elbow_update_`, `first_position_update_` and
  `first_cartesian_pose_update_`; nothing reads it at the other interfaces. -/
  firstUpdate : CommandInterface → Bool
  initialRobotStateUpdate : Bool
  robot : Robot

inductive ReturnType where
  | ok
  | error
  deriving DecidableEq, Repr

/-- A call that may also leave by an exception: one of this package with its
text, or one of libfranka passing through. -/
inductive CallResult where
  | returned (code : ReturnType)
  | threw (message : String)
  | escaped
  deriving DecidableEq, Repr

namespace FrankaHardwareInterface

variable {K : Type u} [MachineArith K]

/-- The interface as constructed, for the command interfaces its description exports. -/
def constructed (exported : List String) : FrankaHardwareInterface K where
  exported := exported
  claimed _ := false
  running _ := false
  commands i :=
    match i with
    | .mode .cartesianPose =>
        [1, 0, 0, 0, 0, 1, 0, 0, 0, 0, 1, 0, 0, 0, 0, 1].map Double.lit
    | i => List.replicate i.size 0
  firstUpdate _ := true
  initialRobotStateUpdate := true
  robot := .connected

def setClaimed (i : CommandInterface) (b : Bool) (s : FrankaHardwareInterface K) :
    FrankaHardwareInterface K :=
  { s with claimed := Function.update s.claimed i b }

def setRunning (i : CommandInterface) (b : Bool) (s : FrankaHardwareInterface K) :
    FrankaHardwareInterface K :=
  { s with running := Function.update s.running i b }

def setCommands (i : CommandInterface) (v : List (Double K)) (s : FrankaHardwareInterface K) :
    FrankaHardwareInterface K :=
  { s with commands := Function.update s.commands i v }

def setFirstUpdate (i : CommandInterface) (b : Bool) (s : FrankaHardwareInterface K) :
    FrankaHardwareInterface K :=
  { s with firstUpdate := Function.update s.firstUpdate i b }

def setRobot (r : Robot) (s : FrankaHardwareInterface K) : FrankaHardwareInterface K :=
  { s with robot := r }

/-! ## Preparing a mode switch -/

/-- The text after the first slash of an interface name, if there is any. -/
def actualType (given : String) : Option String :=
  match given.toList.dropWhile (· ≠ '/') with
  | _ :: c :: rest => some (String.ofList (c :: rest))
  | _ => none

/-- `contains_interface_type`. -/
def containsInterfaceType (s : FrankaHardwareInterface K) (given type : String) : Bool :=
  s.exported.contains given && actualType given == some type

def countType (s : FrankaHardwareInterface K) (i : CommandInterface) (names : List String) : Nat :=
  names.countP fun given => s.containsInterfaceType given i.interfaceType

/-- `generate_error_message`. -/
def errorMessage (startStop type : String) (given expected : Nat) : String :=
  "Invalid number of " ++ type ++ " interfaces to " ++ startStop ++ ". Expected " ++
    toString expected ++ ", given " ++ toString given

/-- One iteration of the loop over `command_interfaces_info_`.  The stop list is
served first, so a throw over the start list leaves its effect behind. -/
def prepareInterface (start stop : List String) (i : CommandInterface)
    (s : FrankaHardwareInterface K) : CallResult × FrankaHardwareInterface K :=
  let numStop := s.countType i stop
  let numStart := s.countType i start
  if numStop ≠ i.size ∧ numStop ≠ 0 then
    (.threw (errorMessage "stop" i.interfaceType numStop i.size), s)
  else
    let s := if numStop = i.size then s.setClaimed i false else s
    if numStart ≠ i.size ∧ numStart ≠ 0 then
      (.threw (errorMessage "start" i.interfaceType numStart i.size), s)
    else
      (.returned .ok, if numStart = i.size then s.setClaimed i true else s)

def prepareLoop (start stop : List String) :
    List CommandInterface → FrankaHardwareInterface K → CallResult × FrankaHardwareInterface K
  | [], s => (.returned .ok, s)
  | i :: rest, s =>
      match prepareInterface start stop i s with
      | (.returned _, s) => prepareLoop start stop rest s
      | thrown => thrown

/-- `max_number_start_interfaces`. -/
def maxNumberStartInterfaces : Nat := 45

def prepareCommandModeSwitch (start stop : List String) (s : FrankaHardwareInterface K) :
    CallResult × FrankaHardwareInterface K :=
  if start.length = maxNumberStartInterfaces then (.returned .error, s)
  else prepareLoop start stop commandInterfacesInfo s

/-- Preparing touches nothing but the claim flags. -/
theorem prepareInterface_frame (start stop : List String) (i : CommandInterface)
    (s : FrankaHardwareInterface K) :
    ∃ claims, (prepareInterface start stop i s).2 = { s with claimed := claims } := by
  unfold prepareInterface
  simp only
  split
  · exact ⟨s.claimed, rfl⟩
  · split <;> split <;> (try split) <;> exact ⟨_, rfl⟩

theorem prepareLoop_frame (start stop : List String) (rows : List CommandInterface)
    (s : FrankaHardwareInterface K) :
    ∃ claims, (prepareLoop start stop rows s).2 = { s with claimed := claims } := by
  induction rows generalizing s with
  | nil => exact ⟨s.claimed, rfl⟩
  | cons i rest ih =>
      obtain ⟨claims, frame⟩ := prepareInterface_frame start stop i s
      unfold prepareLoop
      split
      · rename_i s' eq
        rw [eq] at frame
        obtain rfl : s' = { s with claimed := claims } := frame
        exact ih _
      · exact ⟨claims, frame⟩

theorem prepare_frame (start stop : List String) (s : FrankaHardwareInterface K) :
    ∃ claims, (s.prepareCommandModeSwitch start stop).2 = { s with claimed := claims } := by
  unfold prepareCommandModeSwitch
  split
  · exact ⟨s.claimed, rfl⟩
  · exact prepareLoop_frame start stop commandInterfacesInfo s

/-! ## Performing a mode switch -/

/-- The part of both Cartesian start branches that starts the elbow. -/
def startElbow (s : FrankaHardwareInterface K) : FrankaHardwareInterface K :=
  if s.running .elbow = false ∧ s.claimed .elbow = true then
    (s.setRunning .elbow true).setFirstUpdate .elbow true
  else s

/-- The part of both Cartesian stop branches that stops the elbow. -/
def stopElbow (s : FrankaHardwareInterface K) : FrankaHardwareInterface K :=
  if s.running .elbow = true then (s.setRunning .elbow false).setClaimed .elbow false else s

/-- The end of the Cartesian pose start branch. -/
def startPose (s : FrankaHardwareInterface K) : FrankaHardwareInterface K :=
  { s.startElbow with initialRobotStateUpdate := true }.setFirstUpdate (.mode .cartesianPose) true

/-- One branch of the cascade; `false` when its start call throws. -/
abbrev Branch (K : Type u) := FrankaHardwareInterface K → Bool × FrankaHardwareInterface K

/-- The common shape of the five branches: start a claimed mode that is not
running, or stop a running mode that is not claimed.  A start call that throws
leaves the mode not running. -/
def switchMode (m : ControlMode) (beforeStart onStarted onStopped :
    FrankaHardwareInterface K → FrankaHardwareInterface K)
    (outcome : ControlMode → StartOutcome) : Branch K := fun s =>
  if s.running (.mode m) = false ∧ s.claimed (.mode m) = true then
    let s := beforeStart s
    match s.robot.stopRobot.initializeInterface m (outcome m) with
    | (false, r) => (false, s.setRobot r)
    | (true, r) => (true, onStarted ((s.setRobot r).setRunning (.mode m) true))
  else if s.running (.mode m) = true ∧ s.claimed (.mode m) = false then
    (true, onStopped ((s.setRobot s.robot.stopRobot).setRunning (.mode m) false))
  else (true, s)

/-- Everything one branch can do. -/
theorem switchMode_cases (m : ControlMode) (beforeStart onStarted onStopped :
    FrankaHardwareInterface K → FrankaHardwareInterface K) (outcome : ControlMode → StartOutcome)
    (s : FrankaHardwareInterface K) :
    (s.running (.mode m) = false ∧ s.claimed (.mode m) = true ∧
      switchMode m beforeStart onStarted onStopped outcome s =
        (true, onStarted (((beforeStart s).setRobot
          ((beforeStart s).robot.stopRobot.opened m)).setRunning (.mode m) true))) ∨
    (s.running (.mode m) = false ∧ s.claimed (.mode m) = true ∧
      switchMode m beforeStart onStarted onStopped outcome s =
        (false, (beforeStart s).setRobot (beforeStart s).robot.stopRobot)) ∨
    (s.running (.mode m) = true ∧ s.claimed (.mode m) = false ∧
      switchMode m beforeStart onStarted onStopped outcome s =
        (true, onStopped ((s.setRobot s.robot.stopRobot).setRunning (.mode m) false))) ∨
    (s.running (.mode m) = s.claimed (.mode m) ∧
      switchMode m beforeStart onStarted onStopped outcome s = (true, s)) := by
  cases running : s.running (.mode m) <;> cases claimed : s.claimed (.mode m)
  · exact .inr (.inr (.inr ⟨rfl, by simp [switchMode, running, claimed]⟩))
  · cases answer : outcome m with
    | refused =>
        refine .inr (.inl ⟨rfl, rfl, ?_⟩)
        simp [switchMode, running, claimed, answer, Robot.initializeInterface]
    | started | recovered =>
        refine .inl ⟨rfl, rfl, ?_⟩
        simp [switchMode, running, claimed, answer, Robot.initializeInterface]
  · exact .inr (.inr (.inl ⟨rfl, rfl, by simp [switchMode, running, claimed]⟩))
  · exact .inr (.inr (.inr ⟨rfl, by simp [switchMode, running, claimed]⟩))

/-- What a branch preserves, from what its parts preserve. -/
theorem switchMode_invariant {I : FrankaHardwareInterface K → Prop} {m : ControlMode}
    {beforeStart onStarted onStopped : FrankaHardwareInterface K → FrankaHardwareInterface K}
    (stopped : ∀ s, I s → I (s.setRobot s.robot.stopRobot))
    (opened : ∀ s, I s → I (s.setRobot (s.robot.stopRobot.opened m)))
    (before : ∀ s, I s → I (beforeStart s))
    (start : ∀ s, I s → I (onStarted (s.setRunning (.mode m) true)))
    (stop : ∀ s, I s → I (onStopped (s.setRunning (.mode m) false)))
    (outcome : ControlMode → StartOutcome) {s : FrankaHardwareInterface K} (holds : I s) :
    I (switchMode m beforeStart onStarted onStopped outcome s).2 := by
  rcases switchMode_cases m beforeStart onStarted onStopped outcome s with
    ⟨-, -, eq⟩ | ⟨-, -, eq⟩ | ⟨-, -, eq⟩ | ⟨-, eq⟩ <;> rw [eq]
  · exact start _ (opened _ (before s holds))
  · exact stopped _ (before s holds)
  · exact stop _ (stopped s holds)
  · exact holds

def zeroCommands (m : ControlMode) (s : FrankaHardwareInterface K) : FrankaHardwareInterface K :=
  s.setCommands (.mode m) (List.replicate (s.commands (.mode m)).length 0)

def switchEffort (outcome : ControlMode → StartOutcome) : Branch K :=
  switchMode .effort (zeroCommands .effort) id id outcome

def switchJointVelocity (outcome : ControlMode → StartOutcome) : Branch K :=
  switchMode .jointVelocity (zeroCommands .jointVelocity) id id outcome

def switchJointPosition (outcome : ControlMode → StartOutcome) : Branch K :=
  switchMode .jointPosition id (setFirstUpdate (.mode .jointPosition) true) id outcome

def switchCartesianVelocity (outcome : ControlMode → StartOutcome) : Branch K :=
  switchMode .cartesianVelocity (zeroCommands .cartesianVelocity) startElbow stopElbow
    outcome

def switchCartesianPose (outcome : ControlMode → StartOutcome) : Branch K :=
  switchMode .cartesianPose id startPose stopElbow outcome

/-- Run branches in order until one throws. -/
def cascade : List (Branch K) → Branch K
  | [], s => (true, s)
  | branch :: rest, s =>
      match branch s with
      | (true, s) => cascade rest s
      | thrown => thrown

theorem cascade_invariant {I : FrankaHardwareInterface K → Prop} {steps : List (Branch K)}
    (kept : ∀ branch ∈ steps, ∀ s, I s → I (branch s).2) {s : FrankaHardwareInterface K}
    (holds : I s) : I (cascade steps s).2 := by
  induction steps generalizing s with
  | nil => exact holds
  | cons branch rest ih =>
      have first : I (branch s).2 := kept branch List.mem_cons_self s holds
      unfold cascade
      split
      · rename_i s' eq
        rw [eq] at first
        exact ih (fun branch member => kept branch (List.mem_cons_of_mem _ member)) first
      · exact first

/-- The five branches, in the source's order. -/
def branches (outcome : ControlMode → StartOutcome) : List (Branch K) :=
  [switchEffort outcome, switchJointVelocity outcome, switchJointPosition outcome,
    switchCartesianVelocity outcome, switchCartesianPose outcome]

def performCommandModeSwitch (outcome : ControlMode → StartOutcome)
    (s : FrankaHardwareInterface K) : CallResult × FrankaHardwareInterface K :=
  match cascade (branches outcome) s with
  | (false, s) => (.escaped, s)
  | (true, s) =>
      if s.claimed .elbow = true ∧ (s.claimed (.mode .cartesianVelocity) ||
          s.claimed (.mode .cartesianPose)) = false then (.returned .error, s)
      else (.returned .ok, s)

theorem perform_invariant {I : FrankaHardwareInterface K → Prop}
    {outcome : ControlMode → StartOutcome}
    (kept : ∀ branch ∈ branches outcome, ∀ s, I s → I (branch s).2)
    {s : FrankaHardwareInterface K} (holds : I s) : I (s.performCommandModeSwitch outcome).2 := by
  have ran : I (cascade (branches outcome) s).2 := cascade_invariant kept holds
  unfold performCommandModeSwitch
  split
  · rename_i s' eq
    rwa [eq] at ran
  · rename_i s' eq
    rw [eq] at ran
    split
    · exact ran
    · exact ran

/-! ## Reading and writing -/

def initializeCommand (i : CommandInterface) (new : List (Double K))
    (s : FrankaHardwareInterface K) : FrankaHardwareInterface K :=
  if s.firstUpdate i ∧ s.running i then (s.setCommands i new).setFirstUpdate i false else s

def initializePositionCommands (rs : RobotState K) (s : FrankaHardwareInterface K) :
    FrankaHardwareInterface K :=
  ((s.initializeCommand .elbow (List.ofFn rs.elbow)).initializeCommand
    (.mode .jointPosition) (List.ofFn rs.q)).initializeCommand
    (.mode .cartesianPose) (List.ofFn rs.oTEE)

/-- `read`, for the state the robot reports. -/
def read (rs : RobotState K) (s : FrankaHardwareInterface K) : FrankaHardwareInterface K :=
  s.initializePositionCommands rs

def hasInfinite (commands : List (Double K)) : Bool := commands.any fun command => !command.isFinite

/-- One `robot_->writeOnce` call: the interface whose buffer is forwarded, the
values, and the elbow values of the two-argument overload. -/
structure Forwarded (K : Type u) where
  mode : ControlMode
  command : List (Double K)
  elbow : Option (List (Double K))

def forward (m : ControlMode) (s : FrankaHardwareInterface K) : Forwarded K :=
  ⟨m, s.commands (.mode m), none⟩

def forwardWithElbow (m : ControlMode) (s : FrankaHardwareInterface K) : Forwarded K :=
  ⟨m, s.commands (.mode m), some (s.commands .elbow)⟩

/-- The guard of `write`: no buffer, running or not, holds a non-finite value. -/
def allFinite (s : FrankaHardwareInterface K) : Bool :=
  !(hasInfinite (s.commands (.mode .jointPosition)) || hasInfinite (s.commands (.mode .effort)) ||
    hasInfinite (s.commands (.mode .jointVelocity)) ||
    hasInfinite (s.commands (.mode .cartesianVelocity)) || hasInfinite (s.commands .elbow) ||
    hasInfinite (s.commands (.mode .cartesianPose)))

/-- The dispatch cascade of `write`. -/
def dispatch (s : FrankaHardwareInterface K) : List (Forwarded K) :=
  if s.running (.mode .jointVelocity) then [s.forward .jointVelocity]
  else if s.running (.mode .effort) then [s.forward .effort]
  else if s.running (.mode .jointPosition) && !s.firstUpdate (.mode .jointPosition) then
    [s.forward .jointPosition]
  else if s.running (.mode .cartesianVelocity) && s.running .elbow && !s.firstUpdate .elbow then
    [s.forwardWithElbow .cartesianVelocity]
  else if s.running (.mode .cartesianPose) && s.running .elbow && !s.firstUpdate (.mode .cartesianPose) &&
      !s.firstUpdate .elbow then
    [s.forwardWithElbow .cartesianPose]
  else if s.running (.mode .cartesianPose) && !s.firstUpdate (.mode .cartesianPose) then
    [s.forward .cartesianPose]
  else if s.running (.mode .cartesianVelocity) && !s.running .elbow then
    [s.forward .cartesianVelocity]
  else []

/-- What the dispatch may have forwarded `f` for. -/
structure Dispatched (s : FrankaHardwareInterface K) (f : Forwarded K) : Prop where
  running : s.running (.mode f.mode) = true
  command : f.command = s.commands (.mode f.mode)
  position : f.mode = .jointPosition ∨ f.mode = .cartesianPose →
    s.firstUpdate (.mode f.mode) = false
  elbow : ∀ v, f.elbow = some v → v = s.commands .elbow ∧ s.running .elbow = true ∧
    s.firstUpdate .elbow = false ∧ (f.mode = .cartesianVelocity ∨ f.mode = .cartesianPose)

theorem dispatched_forward {s : FrankaHardwareInterface K} {m : ControlMode}
    (running : s.running (.mode m) = true)
    (position : m = .jointPosition ∨ m = .cartesianPose → s.firstUpdate (.mode m) = false) :
    s.Dispatched (s.forward m) :=
  ⟨running, rfl, position, fun _ elbow => by cases elbow⟩

theorem dispatched_forwardWithElbow {s : FrankaHardwareInterface K} {m : ControlMode}
    (cartesian : m = .cartesianVelocity ∨ m = .cartesianPose)
    (running : s.running (.mode m) = true) (elbow : s.running .elbow = true)
    (first : s.firstUpdate .elbow = false)
    (pose : m = .cartesianPose → s.firstUpdate (.mode m) = false) :
    s.Dispatched (s.forwardWithElbow m) where
  running := running
  command := rfl
  position mode := by
    rcases mode with rfl | rfl
    · rcases cartesian with impossible | impossible <;> cases impossible
    · exact pose rfl
  elbow v sent := by
    obtain rfl : s.commands .elbow = v := Option.some.inj sent
    exact ⟨rfl, elbow, first, cartesian⟩

/-- The dispatch forwards at most one command, of a running mode. -/
theorem dispatch_cases (s : FrankaHardwareInterface K) :
    s.dispatch = [] ∨ ∃ f, s.dispatch = [f] ∧ s.Dispatched f := by
  unfold dispatch
  simp only [Bool.and_eq_true, Bool.not_eq_true']
  split
  · exact .inr ⟨_, rfl, dispatched_forward (by assumption) (by simp)⟩
  split
  · exact .inr ⟨_, rfl, dispatched_forward (by assumption) (by simp)⟩
  split
  · rename_i guard
    exact .inr ⟨_, rfl, dispatched_forward guard.1 fun _ => guard.2⟩
  split
  · rename_i guard
    exact .inr ⟨_, rfl, dispatched_forwardWithElbow (.inl rfl) guard.1.1 guard.1.2 guard.2 (by simp)⟩
  split
  · rename_i guard
    exact .inr ⟨_, rfl, dispatched_forwardWithElbow (.inr rfl) guard.1.1.1 guard.1.1.2 guard.2
      fun _ => guard.1.2⟩
  split
  · rename_i guard
    exact .inr ⟨_, rfl, dispatched_forward guard.1 fun _ => guard.2⟩
  split
  · rename_i guard
    exact .inr ⟨_, rfl, dispatched_forward guard.1 (by simp)⟩
  · exact .inl rfl

/-- The calls one `write` makes on the robot, in order. -/
def forwarded (s : FrankaHardwareInterface K) : List (Forwarded K) :=
  if s.allFinite then s.dispatch else []

/-- What the robot does with a forwarded command. -/
def Forwarded.writeOnce (f : Forwarded K) (r : Robot) : Robot.WriteOutcome K :=
  match f.elbow with
  | none => r.writeOnce f.command
  | some elbow => r.writeOnceElbow f.command elbow

/-- `write`: its result, and what each forwarded command came to. -/
def write (s : FrankaHardwareInterface K) : CallResult × List (Robot.WriteOutcome K) :=
  if s.allFinite = false then (.returned .error, [])
  else
    let outcomes : List (Robot.WriteOutcome K) := s.dispatch.map (·.writeOnce s.robot)
    match outcomes with
    | .threw message :: _ => (.threw message, outcomes)
    | _ => (.returned .ok, outcomes)

/-! ## Runs -/

def onActivate (rs : RobotState K) (s : FrankaHardwareInterface K) : FrankaHardwareInterface K :=
  s.read rs

def onDeactivate (s : FrankaHardwareInterface K) : FrankaHardwareInterface K :=
  s.setRobot s.robot.stopRobot

/-- What can happen to the interface.  `setCommand` is a controller writing one
element of a command buffer through an exported handle. -/
inductive Event (K : Type u) where
  | prepare (start stop : List String)
  | perform (outcome : ControlMode → StartOutcome)
  | read (rs : RobotState K)
  | write
  | setCommand (i : CommandInterface) (index : Nat) (value : Double K)
  | activate (rs : RobotState K)
  | deactivate

def step (s : FrankaHardwareInterface K) : Event K → FrankaHardwareInterface K
  | .prepare start stop => (s.prepareCommandModeSwitch start stop).2
  | .perform outcome => (s.performCommandModeSwitch outcome).2
  | .read rs => s.read rs
  | .write => s
  | .setCommand i index value => s.setCommands i ((s.commands i).set index value)
  | .activate rs => s.onActivate rs
  | .deactivate => s.onDeactivate

end FrankaHardwareInterface

end FrankaRos.Hardware
