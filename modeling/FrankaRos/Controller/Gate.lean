/-
# Controller.Gate -- the gates and locks at the head of `update`

`update` begins by deriving the mode it will execute from the latest command,
the last executed mode and the finished flags: four sequencing locks keep an
unfinished phase, and four entry gates admit the next one.  `gate` is that code.

`gate_eq` is what it amounts to: the mode moves to the successor of the last one
exactly when that successor is the latest command and the last mode is finished,
and then the entry code of the new phase runs; otherwise nothing changes.
-/
import FrankaRos.Controller.State

namespace FrankaRos.Controller

open FrankaRos.Theory

set_option autoImplicit false

set_option linter.unusedSectionVars false

namespace MoveCatersianImpWithGripper

variable {K : Type} [MachineArith K]

/-! ## Entry code -/

def enterMovePose1 (s : MoveCatersianImpWithGripper K) : MoveCatersianImpWithGripper K :=
  { s with
    refs := { s.refs with qStart := s.measured.q }
    task := { s.task with elapsedTime := 0, move1Finished := false } }

/-- The one entry that touches the gripper: it requests a goal and resets the
flags of the last one. -/
def enterGrasp (s : MoveCatersianImpWithGripper K) : MoveCatersianImpWithGripper K :=
  { s with
    refs := { s.refs with qStart := s.refs.qDes }
    task := { s.task with elapsedTime := 0, graspFinished := false }
    gripper := { s.gripper with
      grasp := { s.gripper.grasp with
        requestSend := true, goalSent := false, active := false, done := false, success := false }
      graspResultReported := false } }

def enterMovePose2 (s : MoveCatersianImpWithGripper K) : MoveCatersianImpWithGripper K :=
  { s with
    refs := { s.refs with qStart := s.measured.q }
    task := { s.task with elapsedTime := 0, move2Finished := false } }

/-- The one entry that touches the log. -/
def enterRunRl (s : MoveCatersianImpWithGripper K) : MoveCatersianImpWithGripper K :=
  { s with
    refs := { s.refs with qStart := s.refs.qDes }
    task := { s.task with elapsedTime := 0, rlFinished := false }
    log := { s.log with
      stepsWritten := 0, saveDone := false, timeStart := s.counters.timeTotal, started := true
      saveRequested := false, rlFinishLatched := false } }

/-! ## The gate -/

/-- The effective mode of this cycle, and the state after its entry code. -/
def gate (s : MoveCatersianImpWithGripper K) : TaskCmd × MoveCatersianImpWithGripper K :=
  let cmd := s.task.taskCmd
  let last := s.task.lastCmd
  -- (B4), (B3), (B2), (B1)
  if last = .runRl ∧ s.task.rlFinished = false then (.runRl, s)
  else if last = .movePose2 ∧ s.task.move2Finished = false then (.movePose2, s)
  else if last = .grasp ∧ s.task.graspFinished = false then (.grasp, s)
  else if last = .movePose1 ∧ s.task.move1Finished = false then (.movePose1, s)
  else if cmd ≠ last then
    -- (A1), (A2), (A3), (A4)
    if cmd = .movePose1 then
      if last ≠ .none then (last, s) else (.movePose1, s.enterMovePose1)
    else if cmd = .grasp then
      if ¬ (last = .movePose1 ∧ s.task.move1Finished = true) then (last, s)
      else (.grasp, s.enterGrasp)
    else if cmd = .movePose2 then
      if ¬ (last = .grasp ∧ s.task.graspFinished = true) then (last, s)
      else (.movePose2, s.enterMovePose2)
    else if cmd = .runRl then
      if ¬ (last = .movePose2 ∧ s.task.move2Finished = true) then (last, s)
      else (.runRl, s.enterRunRl)
    else (last, s)
  else (last, s)

/-- The gate, with the effective mode stored into `last_cmd_`. -/
def gated (s : MoveCatersianImpWithGripper K) : MoveCatersianImpWithGripper K :=
  let (effective, s) := s.gate
  { s with task := { s.task with lastCmd := effective } }

end MoveCatersianImpWithGripper

/-! ## What the gate amounts to -/

/-- The phase that may follow a mode. -/
def TaskCmd.next : TaskCmd → Option TaskCmd
  | .none => some .movePose1
  | .movePose1 => some .grasp
  | .grasp => some .movePose2
  | .movePose2 => some .runRl
  | _ => .none

theorem TaskCmd.next_ne_none (c : TaskCmd) : c.next ≠ some .none := by cases c <;> decide

theorem TaskCmd.next_ne_self (c : TaskCmd) : c.next ≠ some c := by cases c <;> decide

namespace Task

variable {K : Type}

/-- The finished flag of a mode; modes without one count as finished. -/
def finished (t : Task K) : TaskCmd → Bool
  | .movePose1 => t.move1Finished
  | .grasp => t.graspFinished
  | .movePose2 => t.move2Finished
  | .runRl => t.rlFinished
  | _ => true

/-- The latest command names the phase after the last mode, which is finished. -/
def Advances (t : Task K) : Prop :=
  t.lastCmd.next = some t.taskCmd ∧ t.finished t.lastCmd = true

instance (t : Task K) : Decidable t.Advances := inferInstanceAs (Decidable (_ ∧ _))

end Task

namespace MoveCatersianImpWithGripper

variable {K : Type} [MachineArith K]

/-- The entry code of a phase. -/
def enter (s : MoveCatersianImpWithGripper K) : TaskCmd → MoveCatersianImpWithGripper K
  | .movePose1 => s.enterMovePose1
  | .grasp => s.enterGrasp
  | .movePose2 => s.enterMovePose2
  | .runRl => s.enterRunRl
  | _ => s

theorem gate_eq (s : MoveCatersianImpWithGripper K) :
    s.gate = if s.task.Advances then (s.task.taskCmd, s.enter s.task.taskCmd)
      else (s.task.lastCmd, s) := by
  cases last : s.task.lastCmd with
  | none =>
      cases cmd : s.task.taskCmd <;>
        simp [gate, Task.Advances, last, cmd, TaskCmd.next, Task.finished, enter]
  | movePose1 =>
      cases finished : s.task.move1Finished
      · simp [gate, Task.Advances, last, Task.finished, finished]
      · cases cmd : s.task.taskCmd <;>
          simp [gate, Task.Advances, last, cmd, TaskCmd.next, Task.finished, finished, enter]
  | grasp =>
      cases finished : s.task.graspFinished
      · simp [gate, Task.Advances, last, Task.finished, finished]
      · cases cmd : s.task.taskCmd <;>
          simp [gate, Task.Advances, last, cmd, TaskCmd.next, Task.finished, finished, enter]
  | movePose2 =>
      cases finished : s.task.move2Finished
      · simp [gate, Task.Advances, last, Task.finished, finished]
      · cases cmd : s.task.taskCmd <;>
          simp [gate, Task.Advances, last, cmd, TaskCmd.next, Task.finished, finished, enter]
  | runRl =>
      cases finished : s.task.rlFinished
      · simp [gate, Task.Advances, last, Task.finished, finished]
      · cases cmd : s.task.taskCmd <;> simp [gate, Task.Advances, last, cmd, TaskCmd.next]
  | _ => cases cmd : s.task.taskCmd <;> simp [gate, Task.Advances, last, cmd, TaskCmd.next]

theorem gated_of_not_advances {s : MoveCatersianImpWithGripper K} (stays : ¬ s.task.Advances) :
    s.gated = s := by
  rw [gated, gate_eq, if_neg stays]

theorem gated_of_advances {s : MoveCatersianImpWithGripper K} (advances : s.task.Advances) :
    s.gated = { s.enter s.task.taskCmd with
      task := { (s.enter s.task.taskCmd).task with lastCmd := s.task.taskCmd } } := by
  rw [gated, gate_eq, if_pos advances]

@[simp] theorem gated_taskCmd (s : MoveCatersianImpWithGripper K) :
    s.gated.task.taskCmd = s.task.taskCmd := by
  by_cases advances : s.task.Advances
  · rw [gated_of_advances advances]
    cases cmd : s.task.taskCmd <;> exact cmd
  · rw [gated_of_not_advances advances]

/-- The gate writes to the task, the references, the gripper flags and the log. -/
theorem gated_frame (s : MoveCatersianImpWithGripper K) :
    ∃ task refs gripper log,
      s.gated = { s with task := task, refs := refs, gripper := gripper, log := log } := by
  by_cases advances : s.task.Advances
  · rw [gated_of_advances advances]
    cases s.task.taskCmd <;> exact ⟨_, _, _, _, rfl⟩
  · rw [gated_of_not_advances advances]
    exact ⟨_, _, _, _, rfl⟩

@[simp] theorem gated_params (s : MoveCatersianImpWithGripper K) : s.gated.params = s.params := by
  obtain ⟨task, refs, gripper, log, frame⟩ := s.gated_frame
  rw [frame]

@[simp] theorem gated_services (s : MoveCatersianImpWithGripper K) :
    s.gated.services = s.services := by
  obtain ⟨task, refs, gripper, log, frame⟩ := s.gated_frame
  rw [frame]

@[simp] theorem gated_warmup (s : MoveCatersianImpWithGripper K) : s.gated.warmup = s.warmup := by
  obtain ⟨task, refs, gripper, log, frame⟩ := s.gated_frame
  rw [frame]

@[simp] theorem gated_interfaces (s : MoveCatersianImpWithGripper K) :
    s.gated.interfaces = s.interfaces := by
  obtain ⟨task, refs, gripper, log, frame⟩ := s.gated_frame
  rw [frame]

end MoveCatersianImpWithGripper

end FrankaRos.Controller
