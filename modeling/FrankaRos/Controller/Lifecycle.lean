/-
# Controller.Lifecycle -- transitions, callbacks, and runs of the controller

The lifecycle transitions of the controller, the callbacks of its node (task
messages, the gripper timer, the housekeeping timer) and of its two gripper
clients, and the event machine they make together with `update`.

Nothing orders the events of a run: callbacks of any goal sent by the present
client may arrive at any time, in any order and more than once, also while the
controller is inactive.  An event that the lifecycle state or a missing timer
excludes leaves the state alone.

A configuration that fails leaves its members half written; the lifecycle then
finalizes the controller and nothing reads them again, so `onConfigure` returns
the state as it was.
-/
import FrankaRos.Controller.Update
import FrankaRos.Theory.Run

namespace FrankaRos.Controller

open FrankaRos.Theory

set_option autoImplicit false

set_option linter.unusedSectionVars false

inductive CallbackReturn where
  | success
  | error
  deriving DecidableEq, Repr

/-- `rclcpp_action::ResultCode`. -/
inductive ResultCode where
  | unknown
  | succeeded
  | canceled
  | aborted
  deriving DecidableEq, Repr

/-! ## Gripper actions -/

namespace GripperAction

/-- A goal goes out: the timer's flag writes before `async_send_goal`. -/
def send (a : GripperAction) : GripperAction :=
  { a with
    requestSend := false, goalSent := true, active := true, done := false, success := false
    goalsSent := a.goalsSent + 1 }

/-- The branch for a null client. -/
def fail (a : GripperAction) : GripperAction :=
  { a with requestSend := false, done := true, success := false, active := false }

def goalResponse (accepted : Bool) (a : GripperAction) : GripperAction :=
  if accepted then a else { a with active := false, done := true, success := false }

/-- The result callback; neither looks at which goal the result is of. -/
def result (succeeded : Bool) (a : GripperAction) : GripperAction :=
  { a with active := false, done := true, success := succeeded }

/-- The present client has sent this goal, so its callbacks can run. -/
def delivers (a : GripperAction) (goal : Nat) : Bool :=
  a.client.any (fun first => decide (first ≤ goal)) && decide (goal < a.goalsSent)

end GripperAction

namespace MoveCatersianImpWithGripper

variable {K : Type} [MachineArith K]

/-! ## Lifecycle transitions -/

def resetInterfaceMaps (s : MoveCatersianImpWithGripper K) : MoveCatersianImpWithGripper K :=
  { s with interfaces := { s.interfaces with stateMap := .none, cmdMap := .none } }

/-- Everything a successful `on_configure` writes. -/
def configured (p : Params K) (s : MoveCatersianImpWithGripper K) :
    MoveCatersianImpWithGripper K :=
  { s.resetInterfaceMaps with
    params := p
    refs := { s.refs with qGoal := p.qGoal, qGoal2 := p.qGoal, qGoal3 := p.qGoal, qDes := p.qGoal }
    task := { s.task with elapsedTime := 0, move1Finished := true, graspFinished := true }
    kinematics := ⟨false, false⟩
    warmup := ⟨false, 0, fun _ => 0⟩
    interfaces := { s.resetInterfaceMaps.interfaces with warmupCmdMap := .none }
    wrench := { s.wrench with buffer := fun _ _ => 0 }
    gripper := { s.gripper with
      grasp := { s.gripper.grasp with client := some s.gripper.grasp.goalsSent }
      move := { s.gripper.move with client := some s.gripper.move.goalsSent } }
    log := { s.log with stepsWritten := 0, started := false, saveDone := false, timeStart := 0 }
    services := { s.services with
      taskCmdSub := true, gripperTimer := true, housekeepingTimer := true } }

def onConfigure (given : Configuration K) (s : MoveCatersianImpWithGripper K) :
    CallbackReturn × MoveCatersianImpWithGripper K :=
  if given.collisionBehaviorSet = false then (.error, s)
  else
    match Params.ofDeclared given.scalars given.declared with
    | .none => (.error, s)
    | some p =>
        if given.policyLoaded && given.robotDescription then (.success, s.configured p)
        else (.error, s)

/-- The goals of the two inverse kinematics problems, where they were solved. -/
def solveIk (given : Activation K) (s : MoveCatersianImpWithGripper K) :
    MoveCatersianImpWithGripper K :=
  let refs := match given.ik1 with
    | some q => { s.refs with qGoal := q }
    | .none => s.refs
  let refs := match given.ik2 with
    | some q => { refs with qGoal2 := q, qGoal3 := q }
    | .none => refs
  { s with refs := refs }

/-- `on_activate` from a successful `read_state` up to its last two checks. -/
def prepareActivation (given : Activation K) (s : MoveCatersianImpWithGripper K) :
    MoveCatersianImpWithGripper K :=
  let s := { s with refs := { s.refs with qStart := s.measured.q } }
  let s := { s with kinematics :=
    ⟨s.kinematics.kinInitialized || given.okFk, s.kinematics.oscInitialized || given.okOsc⟩ }
  let s := { s with
    warmup := { s.warmup with inited := false, elapsed := 0 }
    interfaces := { s.interfaces with warmupCmdMap := .none } }
  let s := if s.kinematics.kinInitialized && s.params.usePinocchioIk then s.solveIk given else s
  { s with task := { s.task with lastCmd := .none, taskCmd := .none } }

/-- The framework loans the interfaces before it calls `on_activate`. -/
def assignInterfaces (given : Activation K) (s : MoveCatersianImpWithGripper K) :
    MoveCatersianImpWithGripper K :=
  { s with interfaces := { s.interfaces with
    stateNames := given.stateNames, commandNames := given.commandNames } }

def onActivate (given : Activation K) (s : MoveCatersianImpWithGripper K) :
    CallbackReturn × MoveCatersianImpWithGripper K :=
  match (s.assignInterfaces given).resetInterfaceMaps.readState given.stateValues with
  | (false, s) => (.error, s)
  | (true, s) =>
      let s := s.prepareActivation given
      if given.robotStateAssigned = false then (.error, s)
      else if given.cartesianPoseAssigned = false then (.error, s)
      else
        (.success, { s with gripper := { s.gripper with
          warmupOpenRequested := false
          move := { s.gripper.move with
            requestSend := false, goalSent := false, done := false, success := false
            active := false } } })

def onDeactivate (s : MoveCatersianImpWithGripper K) : MoveCatersianImpWithGripper K :=
  { s.resetInterfaceMaps with
    warmup := { s.warmup with inited := false, elapsed := 0 }
    interfaces := { s.resetInterfaceMaps.interfaces with warmupCmdMap := .none }
    services := { s.services with gripperTimer := false, housekeepingTimer := false } }

/-! ## Callbacks -/

/-- The task message callback.  `save_log` only writes a snapshot file. -/
def onTaskCmd (data : String) (s : MoveCatersianImpWithGripper K) :
    MoveCatersianImpWithGripper K :=
  let cmd := TaskCmd.ofString data
  if cmd = .saveLog then s
  else { s with task := { s.task with taskCmd := cmd, taskCmdNew := true } }

def setGrasp (a : GripperAction) (s : MoveCatersianImpWithGripper K) :
    MoveCatersianImpWithGripper K :=
  { s with gripper := { s.gripper with grasp := a } }

def setMove (a : GripperAction) (s : MoveCatersianImpWithGripper K) :
    MoveCatersianImpWithGripper K :=
  { s with gripper := { s.gripper with move := a } }

/-- The gripper timer, with the availability of the two action servers.  An
unavailable server leaves its request standing for the next tick. -/
def gripperTimer (moveServer graspServer : Bool) (s : MoveCatersianImpWithGripper K) :
    MoveCatersianImpWithGripper K :=
  let move := s.gripper.move
  let grasp := s.gripper.grasp
  if move.requestSend then
    if move.client = .none then s.setMove move.fail
    else if moveServer = false then s
    else s.setMove move.send
  else if grasp.requestSend = false then s
  else if grasp.client = .none then s.setGrasp grasp.fail
  else if graspServer = false then s
  else
    { s with gripper := { s.gripper with grasp := grasp.send, graspResultReported := false } }

/-- `save_log_to_txt_nonrt`, as far as the flags go: a save that finds no rows or
cannot write its file has been done all the same. -/
def saveLogToTxt (s : MoveCatersianImpWithGripper K) : MoveCatersianImpWithGripper K :=
  if s.log.saveDone then s
  else { s with log := { s.log with
    saveDone := true, started := if s.log.stepsWritten = 0 then s.log.started else false } }

/-- The housekeeping timer: serve a save request. -/
def housekeeping (s : MoveCatersianImpWithGripper K) : MoveCatersianImpWithGripper K :=
  if s.log.saveRequested then { s with log := { s.log with saveRequested := false } }.saveLogToTxt
  else s

/-! ## Runs -/

/-- What can happen to the controller.  A gripper callback names the goal it
belongs to, which the callback itself never looks at. -/
inductive Event (K : Type) where
  | configure (given : Configuration K)
  | activate (given : Activation K)
  | deactivate
  | cleanup
  | update (given : Cycle K)
  | taskCmd (data : String)
  | gripperTimer (moveServer graspServer : Bool)
  | housekeeping
  | graspResponse (goal : Nat) (accepted : Bool)
  | graspResult (goal : Nat) (code : ResultCode) (success : Bool)
  | moveResponse (goal : Nat) (accepted : Bool)
  | moveResult (goal : Nat) (code : ResultCode)

def setLifecycle (l : Lifecycle) (s : MoveCatersianImpWithGripper K) :
    MoveCatersianImpWithGripper K :=
  { s with services := { s.services with lifecycle := l } }

/-- The lifecycle state a transition ends in; a failed one finalizes. -/
def settle (target : Lifecycle) :
    CallbackReturn × MoveCatersianImpWithGripper K → MoveCatersianImpWithGripper K
  | (.success, s) => s.setLifecycle target
  | (.error, s) => s.setLifecycle .finalized

def step (s : MoveCatersianImpWithGripper K) : Event K → MoveCatersianImpWithGripper K
  | .configure given =>
      if s.services.lifecycle = .unconfigured then settle .inactive (s.onConfigure given) else s
  | .activate given =>
      if s.services.lifecycle = .inactive then settle .active (s.onActivate given) else s
  | .deactivate =>
      if s.services.lifecycle = .active then s.onDeactivate.setLifecycle .inactive else s
  | .cleanup =>
      if s.services.lifecycle = .inactive then s.setLifecycle .unconfigured else s
  | .update given => if s.services.lifecycle = .active then (s.update given).2 else s
  | .taskCmd data => if s.services.taskCmdSub then s.onTaskCmd data else s
  | .gripperTimer moveServer graspServer =>
      if s.services.gripperTimer then s.gripperTimer moveServer graspServer else s
  | .housekeeping => if s.services.housekeepingTimer then s.housekeeping else s
  | .graspResponse goal accepted =>
      if s.gripper.grasp.delivers goal then s.setGrasp (s.gripper.grasp.goalResponse accepted)
      else s
  | .graspResult goal code success =>
      if s.gripper.grasp.delivers goal then
        s.setGrasp (s.gripper.grasp.result (code = .succeeded && success))
      else s
  | .moveResponse goal accepted =>
      if s.gripper.move.delivers goal then s.setMove (s.gripper.move.goalResponse accepted)
      else s
  | .moveResult goal code =>
      if s.gripper.move.delivers goal then
        s.setMove (s.gripper.move.result (code = .succeeded))
      else s

/-- The event is a successful `on_configure`. -/
def reconfigures (s : MoveCatersianImpWithGripper K) : Event K → Bool
  | .configure given =>
      s.services.lifecycle = .unconfigured && (s.onConfigure given).1 = .success
  | _ => false

/-! ## What a step leaves alone -/

/-- What no callback touches: everything but the task command, the gripper flags
and the log. -/
structure Quiet (s s' : MoveCatersianImpWithGripper K) : Prop where
  params : s'.params = s.params
  services : s'.services = s.services
  measured : s'.measured = s.measured
  interfaces : s'.interfaces = s.interfaces
  warmup : s'.warmup = s.warmup
  refs : s'.refs = s.refs
  lastCmd : s'.task.lastCmd = s.task.lastCmd
  elapsedTime : s'.task.elapsedTime = s.task.elapsedTime
  finished : ∀ cmd, s'.task.finished cmd = s.task.finished cmd
  saveRequested : s.log.saveRequested = false → s'.log.saveRequested = false

theorem Quiet.refl (s : MoveCatersianImpWithGripper K) : Quiet s s :=
  ⟨rfl, rfl, rfl, rfl, rfl, rfl, rfl, rfl, fun _ => rfl, id⟩

theorem quiet_onTaskCmd (data : String) (s : MoveCatersianImpWithGripper K) :
    Quiet s (s.onTaskCmd data) := by
  unfold onTaskCmd
  simp only
  split
  · exact .refl s
  · exact ⟨rfl, rfl, rfl, rfl, rfl, rfl, rfl, rfl, fun cmd => by cases cmd <;> rfl, id⟩

theorem quiet_gripper (g : Gripper) (s : MoveCatersianImpWithGripper K) :
    Quiet s { s with gripper := g } :=
  ⟨rfl, rfl, rfl, rfl, rfl, rfl, rfl, rfl, fun _ => rfl, id⟩

theorem quiet_gripperTimer (moveServer graspServer : Bool) (s : MoveCatersianImpWithGripper K) :
    Quiet s (s.gripperTimer moveServer graspServer) := by
  unfold gripperTimer
  simp only
  repeat' split
  all_goals first | exact .refl s | exact quiet_gripper _ s

theorem quiet_housekeeping (s : MoveCatersianImpWithGripper K) : Quiet s s.housekeeping := by
  unfold housekeeping saveLogToTxt
  split
  · split
    · exact ⟨rfl, rfl, rfl, rfl, rfl, rfl, rfl, rfl, fun _ => rfl, fun _ => rfl⟩
    · exact ⟨rfl, rfl, rfl, rfl, rfl, rfl, rfl, rfl, fun _ => rfl, fun _ => rfl⟩
  · exact .refl s

/-- The callbacks of the node and of the gripper clients. -/
def Event.IsCallback : Event K → Prop
  | .configure _ => False
  | .activate _ => False
  | .deactivate => False
  | .cleanup => False
  | .update _ => False
  | _ => True

theorem quiet_step {s : MoveCatersianImpWithGripper K} {e : Event K} (callback : e.IsCallback) :
    Quiet s (s.step e) := by
  cases e with
  | configure | activate | deactivate | cleanup | update => exact callback.elim
  | taskCmd data =>
      simp only [step]
      split
      · exact quiet_onTaskCmd data s
      · exact .refl s
  | gripperTimer moveServer graspServer =>
      simp only [step]
      split
      · exact quiet_gripperTimer moveServer graspServer s
      · exact .refl s
  | housekeeping =>
      simp only [step]
      split
      · exact quiet_housekeeping s
      · exact .refl s
  | graspResponse | graspResult | moveResponse | moveResult =>
      simp only [step]
      split
      · exact quiet_gripper _ s
      · exact .refl s

/-- Only a task message writes to the task. -/
theorem task_step {s : MoveCatersianImpWithGripper K} {e : Event K} (callback : e.IsCallback)
    (other : ∀ data, e ≠ .taskCmd data) : (s.step e).task = s.task := by
  cases e with
  | configure | activate | deactivate | cleanup | update => exact callback.elim
  | taskCmd data => exact absurd rfl (other data)
  | gripperTimer moveServer graspServer =>
      simp only [step, gripperTimer]
      repeat' split
      all_goals rfl
  | housekeeping =>
      simp only [step, housekeeping, saveLogToTxt]
      repeat' split
      all_goals rfl
  | graspResponse | graspResult | moveResponse | moveResult =>
      simp only [step]
      split <;> rfl

/-! ## What a transition does -/

theorem onConfigure_cases (given : Configuration K) (s : MoveCatersianImpWithGripper K) :
    s.onConfigure given = (.error, s) ∨ ∃ p, s.onConfigure given = (.success, s.configured p) := by
  unfold onConfigure
  split
  · exact .inl rfl
  · split
    · exact .inl rfl
    · split
      · exact .inr ⟨_, rfl⟩
      · exact .inl rfl

theorem readState_frame (stateValues : Nat → Double K) (s : MoveCatersianImpWithGripper K) :
    ∃ i m, (s.readState stateValues).2 = { s with interfaces := i, measured := m } ∧
      ((s.readState stateValues).1 = true → i.stateMap.isSome = true) := by
  unfold readState
  simp only
  split
  · exact ⟨s.interfaces, s.measured, rfl, fun read => by cases read⟩
  · exact ⟨_, _, rfl, fun _ => rfl⟩

theorem prepareActivation_frame (given : Activation K) (s : MoveCatersianImpWithGripper K) :
    ∃ refs kinematics, s.prepareActivation given = { s with
      refs := refs, kinematics := kinematics
      warmup := { s.warmup with inited := false, elapsed := 0 }
      interfaces := { s.interfaces with warmupCmdMap := .none }
      task := { s.task with lastCmd := .none, taskCmd := .none } } := by
  unfold prepareActivation
  simp only
  split
  · exact ⟨_, _, rfl⟩
  · exact ⟨_, _, rfl⟩

/-- What an activation leaves alone, and what it resets when it succeeds. -/
theorem onActivate_frame (given : Activation K) (s : MoveCatersianImpWithGripper K) :
    ∃ refs kinematics i m warmup task gripper, (s.onActivate given).2 = { s with
        refs := refs, kinematics := kinematics, interfaces := i, measured := m
        warmup := warmup, task := task, gripper := gripper } ∧
      (gripper.grasp = s.gripper.grasp ∧
        gripper.graspResultReported = s.gripper.graspResultReported) ∧
      (task = s.task ∨ task = { s.task with lastCmd := .none, taskCmd := .none }) ∧
      ((s.onActivate given).1 = .success →
        task = { s.task with lastCmd := .none, taskCmd := .none } ∧
        warmup = { s.warmup with inited := false, elapsed := 0 } ∧ i.stateMap.isSome = true) := by
  unfold onActivate
  obtain ⟨i, m, frame, mapped⟩ :=
    readState_frame given.stateValues (s.assignInterfaces given).resetInterfaceMaps
  split
  · rename_i s' unread
    rw [unread] at frame
    obtain rfl := frame
    exact ⟨_, _, _, _, _, _, _, rfl, ⟨rfl, rfl⟩, .inl rfl, fun failed => by cases failed⟩
  · rename_i s' read
    rw [read] at frame mapped
    obtain ⟨refs, kinematics, prepared⟩ := prepareActivation_frame given s'
    obtain rfl := frame
    simp only
    rw [prepared]
    split
    · exact ⟨_, _, _, _, _, _, _, rfl, ⟨rfl, rfl⟩, .inr rfl, fun failed => by cases failed⟩
    split
    · exact ⟨_, _, _, _, _, _, _, rfl, ⟨rfl, rfl⟩, .inr rfl, fun failed => by cases failed⟩
    · exact ⟨_, _, _, _, _, _, _, rfl, ⟨rfl, rfl⟩, .inr rfl, fun _ => ⟨rfl, rfl, mapped rfl⟩⟩

/-- The lifecycle transitions. -/
def Event.IsTransition : Event K → Prop
  | .configure _ => True
  | .activate _ => True
  | .deactivate => True
  | .cleanup => True
  | _ => False

/-- What the transitions leave to the phases: they reset commands and finish a
grasp, and they do not touch the result of its action. -/
structure Transits (s s' : MoveCatersianImpWithGripper K) : Prop where
  lastCmd : s'.task.lastCmd = s.task.lastCmd ∨ s'.task.lastCmd = .none
  graspFinished : s.task.graspFinished = true → s'.task.graspFinished = true
  rlFinished : s'.task.rlFinished = s.task.rlFinished
  done : s'.gripper.grasp.done = s.gripper.grasp.done
  success : s'.gripper.grasp.success = s.gripper.grasp.success
  reported : s'.gripper.graspResultReported = s.gripper.graspResultReported
  saveRequested : s'.log.saveRequested = s.log.saveRequested

theorem Transits.refl (s : MoveCatersianImpWithGripper K) : Transits s s :=
  ⟨.inl rfl, id, rfl, rfl, rfl, rfl, rfl⟩

theorem Transits.settle {s : MoveCatersianImpWithGripper K} {target : Lifecycle}
    {out : CallbackReturn × MoveCatersianImpWithGripper K} (transits : Transits s out.2) :
    Transits s (MoveCatersianImpWithGripper.settle target out) := by
  obtain ⟨result, s'⟩ := out
  obtain ⟨lastCmd, graspFinished, rlFinished, done, success, reported, saveRequested⟩ := transits
  cases result with
  | success => exact ⟨lastCmd, graspFinished, rlFinished, done, success, reported, saveRequested⟩
  | error => exact ⟨lastCmd, graspFinished, rlFinished, done, success, reported, saveRequested⟩

theorem transits_step {s : MoveCatersianImpWithGripper K} {e : Event K}
    (transition : e.IsTransition) : Transits s (s.step e) := by
  cases e with
  | configure given =>
      simp only [step]
      split
      · rcases onConfigure_cases given s with eq | ⟨p, eq⟩ <;> rw [eq]
        · exact (Transits.refl s).settle
        · exact Transits.settle ⟨.inl rfl, fun _ => rfl, rfl, rfl, rfl, rfl, rfl⟩
      · exact .refl s
  | activate given =>
      obtain ⟨refs, kinematics, i, m, warmup, task, gripper, frame, ⟨grasp, reported⟩, commands, -⟩ :=
        onActivate_frame given s
      simp only [step]
      split
      · apply Transits.settle
        rw [frame]
        rcases commands with rfl | rfl
        · exact ⟨.inl rfl, id, rfl, congrArg _ grasp, congrArg _ grasp, reported, rfl⟩
        · exact ⟨.inr rfl, id, rfl, congrArg _ grasp, congrArg _ grasp, reported, rfl⟩
      · exact .refl s
  | deactivate | cleanup =>
      simp only [step]
      split
      · exact ⟨.inl rfl, id, rfl, rfl, rfl, rfl, rfl⟩
      · exact .refl s
  | update | taskCmd | gripperTimer | housekeeping | graspResponse | graspResult | moveResponse |
    moveResult => exact transition.elim

/-- What every successful activation establishes. -/
structure JustActivated (s : MoveCatersianImpWithGripper K) : Prop where
  lifecycle : s.services.lifecycle = .active
  lastCmd : s.task.lastCmd = .none
  taskCmd : s.task.taskCmd = .none
  inited : s.warmup.inited = false
  mapped : s.interfaces.stateMap.isSome = true

theorem step_activate {s : MoveCatersianImpWithGripper K} {a : Activation K}
    (inactive : s.services.lifecycle = .inactive) (success : (s.onActivate a).1 = .success) :
    s.step (.activate a) = (s.onActivate a).2.setLifecycle .active := by
  simp only [step, inactive, if_true]
  cases eq : s.onActivate a with
  | mk result s' =>
      rw [eq] at success
      obtain rfl : result = .success := success
      rfl

theorem justActivated {s : MoveCatersianImpWithGripper K} {a : Activation K}
    (inactive : s.services.lifecycle = .inactive) (success : (s.onActivate a).1 = .success) :
    (s.step (.activate a)).JustActivated := by
  obtain ⟨refs, kinematics, i, m, warmup, task, gripper, frame, -, -, fresh⟩ :=
    onActivate_frame a s
  obtain ⟨rfl, rfl, mapped⟩ := fresh success
  rw [step_activate inactive success, frame]
  exact ⟨rfl, rfl, rfl, rfl, mapped⟩

/-- A finalized controller stays finalized. -/
theorem finalized_step {s : MoveCatersianImpWithGripper K} (e : Event K)
    (finalized : s.services.lifecycle = .finalized) :
    (s.step e).services.lifecycle = .finalized := by
  cases e with
  | configure | activate | deactivate | cleanup | update => simp [step, finalized]
  | taskCmd | gripperTimer | housekeeping | graspResponse | graspResult | moveResponse |
    moveResult => rw [(quiet_step (by exact trivial)).services, finalized]

/-! ## Within one activation -/

/-- Everything but a deactivation; the other transitions are refused while active. -/
def Event.KeepsActive : Event K → Prop
  | .deactivate => False
  | _ => True

/-- While the controller stays active, an event is an update or changes nothing
that updates are about. -/
theorem step_active {s : MoveCatersianImpWithGripper K} {e : Event K}
    (active : s.services.lifecycle = .active) (stays : e.KeepsActive) :
    (∃ given, e = .update given ∧ s.step e = (s.update given).2) ∨
      ((∀ given, e ≠ .update given) ∧ Quiet s (s.step e)) := by
  cases e with
  | update given => exact .inl ⟨given, rfl, by simp [step, active]⟩
  | deactivate => exact stays.elim
  | configure | activate | cleanup =>
      refine .inr ⟨fun _ => by simp, ?_⟩
      simp only [step, active]
      exact .refl s
  | taskCmd | gripperTimer | housekeeping | graspResponse | graspResult | moveResponse |
    moveResult => exact .inr ⟨fun _ => by simp, quiet_step trivial⟩

/-! ## A concrete robot

The declared defaults with a seven-joint arm, in exact arithmetic; the runs that
show what can happen below start from here. -/

def fr3Joints : List String :=
  ["fr3_joint1", "fr3_joint2", "fr3_joint3", "fr3_joint4", "fr3_joint5", "fr3_joint6",
    "fr3_joint7"]

def fr3Scalars : Scalars ℚ where
  moveDuration := Double.lit 10
  moveDurationGrasp := Double.lit 10
  moveDuration2 := Double.lit 10
  rlDuration := Double.lit 10
  holdPosition := true
  catersianImp := false
  oscBlendAlphaGain := 0
  usePinocchioIk := false
  actionScale := Double.lit 1
  rIn := Double.lit (1 / 50)
  warmupSeconds := 0
  rlTargetCollect := false
  rlDt := Double.lit (667 / 10000)
  oscBlendDuration := Double.lit (1 / 10)

def fr3Declared : Declared ℚ where
  jointNames := fr3Joints
  qGoal := List.replicate 7 0
  lower := [-28973, -17628, -28973, -30718, -28973, -175, -28973, 0, 0].map
    fun n => Double.lit (n / 10000)
  upper := [28973, 17628, 28973, -698, 28973, 37525, 28973, 400, 400].map
    fun n => Double.lit (n / 10000)
  speedScales := List.replicate 9 (Double.lit 1)
  kGains := [24, 24, 24, 24, 10, 6, 2].map Double.lit
  dGains := [2, 2, 2, 1, 1, 1, 1 / 2].map Double.lit

def fr3Configuration (scalars : Scalars ℚ) : Configuration ℚ :=
  ⟨scalars, fr3Declared, true, true, true⟩

def fr3Params : Params ℚ := (Params.ofDeclared fr3Scalars fr3Declared).get (by decide +kernel)

/-- An activation that finds all interfaces, with every joint at `q`. -/
def fr3Activation (q : ℚ) : Activation ℚ where
  stateNames := fr3Joints.flatMap fun j => [j ++ "/position", j ++ "/velocity", j ++ "/effort"]
  commandNames := fr3Joints.map (· ++ "/effort")
  stateValues _ := .fin q
  okFk := true
  okOsc := true
  ik1 := .none
  ik2 := .none
  robotStateAssigned := true
  cartesianPoseAssigned := true

/-- A cycle that reads everything, with every joint at `q` and a policy output of
zeros. -/
def fr3Cycle (period q dist : ℚ) : Cycle ℚ where
  period := period
  stateValues _ := .fin q
  robotState := some fun _ => 0
  distPick := .fin dist
  action := some fun _ => 0
  tauOsc _ := 0

/-- The controller after its first configuration. -/
def fr3Inactive (scalars : Scalars ℚ) : MoveCatersianImpWithGripper ℚ :=
  (constructed fr3Params).step (.configure (fr3Configuration scalars))

end MoveCatersianImpWithGripper

end FrankaRos.Controller
