/-
# TaskPipeline.TaskPipelineNode -- which task the pipeline takes the robot to be at

The node follows the commands on `/task_cmd`: idle, it takes up any task, and at a task it only
listens to `stop`, and to its timer if there is a timeout.  A task lasts from the command that
begins it, with the node idle, to the first `stop` or the first tick of the timer that finds it
too old (`busy_iff`).  Without a timeout it is the first task that was asked for behind the last
`stop` (`state_of_commands`).
-/
import Mathlib
import FrankaRos.Theory.Run

namespace FrankaRos.TaskPipeline

open FrankaRos.Theory

set_option autoImplicit false

/-! ## The node -/

inductive State
  | idle | moving | grasping | runningRl
  deriving DecidableEq, Repr

/-- The node; times are in seconds. -/
structure TaskPipelineNode (K : Type) where
  stateTimeoutSec : K
  state : State
  lastStateChangeTime : K
  deriving Repr

def allowCmdInState (cmd : String) (s : State) : Bool :=
  if s = .idle then true
  else if cmd = "stop" then true
  else false

namespace TaskPipelineNode

variable {K : Type}

def setState (now : K) (s : State) (node : TaskPipelineNode K) : TaskPipelineNode K :=
  if node.state = s then node else { node with state := s, lastStateChangeTime := now }

def onCmd (now : K) (cmd : String) (node : TaskPipelineNode K) : TaskPipelineNode K :=
  if allowCmdInState cmd node.state = false then node
  else if cmd = "move_pose_1" then node.setState now .moving
  else if cmd = "move_pose_2" then node.setState now .moving
  else if cmd = "grasp" then node.setState now .grasping
  else if cmd = "open_gripper" then node.setState now .grasping
  else if cmd = "close_gripper" then node.setState now .grasping
  else if cmd = "run_rl" then node.setState now .runningRl
  else if cmd = "stop" then node.setState now .idle
  else node

variable [Zero K] [Sub K] [LT K] [DecidableLT K] [LE K] [DecidableLE K]

def onTimer (now : K) (node : TaskPipelineNode K) : TaskPipelineNode K :=
  if node.stateTimeoutSec ≤ 0 then node
  else if node.state ≠ .idle ∧ node.stateTimeoutSec < now - node.lastStateChangeTime then
    node.setState now .idle
  else node

end TaskPipelineNode

/-- The callbacks of the node, with the time of its clock. -/
inductive Event (K : Type)
  | cmd (now : K) (data : String)
  | timer (now : K)
  deriving Repr

def step {K : Type} [Zero K] [Sub K] [LT K] [DecidableLT K] [LE K] [DecidableLE K]
    (node : TaskPipelineNode K) : Event K → TaskPipelineNode K
  | .cmd now data => node.onCmd now data
  | .timer now => node.onTimer now

/-! ## How long a task lasts -/

/-- The task that a command begins. -/
def task (cmd : String) : Option State :=
  if cmd = "move_pose_1" ∨ cmd = "move_pose_2" then some .moving
  else if cmd = "grasp" ∨ cmd = "open_gripper" ∨ cmd = "close_gripper" then some .grasping
  else if cmd = "run_rl" then some .runningRl
  else none

theorem task_ne_idle (cmd : String) : task cmd ≠ some .idle := by
  unfold task
  split_ifs <;> simp

theorem task_stop : task "stop" = none := by decide

section Node

variable {K : Type} {node : TaskPipelineNode K} {now : K} {cmd : String}

theorem onCmd_of_idle (idle : node.state = .idle) :
    node.onCmd now cmd = match task cmd with
      | some s => { node with state := s, lastStateChangeTime := now }
      | none => node := by
  have allowed : allowCmdInState cmd node.state = true := by simp [allowCmdInState, idle]
  unfold TaskPipelineNode.onCmd task
  rw [if_neg (by simp [allowed])]
  split_ifs <;> simp_all [TaskPipelineNode.setState]

/-- At a task the node only listens to `stop`. -/
theorem onCmd_of_busy (busy : node.state ≠ .idle) :
    node.onCmd now cmd =
      if cmd = "stop" then { node with state := .idle, lastStateChangeTime := now } else node := by
  unfold TaskPipelineNode.onCmd allowCmdInState
  rw [if_neg busy]
  by_cases stop : cmd = "stop"
  · subst stop
    simp [TaskPipelineNode.setState, busy]
  · simp [stop]

end Node

section Runs

variable {K : Type} [Zero K] [Sub K] [LT K] [DecidableLT K] [LE K] [DecidableLE K]

/-- An event ends a task that has lasted since `since`. -/
def Event.Ends (timeout since : K) : Event K → Prop
  | .cmd _ data => data = "stop"
  | .timer now => ¬ timeout ≤ 0 ∧ timeout < now - since

theorem stateTimeoutSec_step (node : TaskPipelineNode K) (e : Event K) :
    (step node e).stateTimeoutSec = node.stateTimeoutSec := by
  cases e with
  | cmd now data =>
      by_cases idle : node.state = .idle
      · rw [step, onCmd_of_idle idle]
        cases task data <;> rfl
      · rw [step, onCmd_of_busy idle]
        split <;> rfl
  | timer now =>
      simp only [step, TaskPipelineNode.onTimer, TaskPipelineNode.setState]
      split_ifs <;> rfl

theorem stateTimeoutSec_run (node : TaskPipelineNode K) (es : List (Event K)) :
    (run step node es).stateTimeoutSec = node.stateTimeoutSec :=
  run_invariant (I := fun n => n.stateTimeoutSec = node.stateTimeoutSec) (A := fun _ => True) _
    (fun n e _ same => (stateTimeoutSec_step n e).trans same) (fun _ _ => trivial) rfl

theorem onTimer_of_busy {node : TaskPipelineNode K} (busy : node.state ≠ .idle) (now : K) :
    node.onTimer now =
      if ¬ node.stateTimeoutSec ≤ 0 ∧ node.stateTimeoutSec < now - node.lastStateChangeTime then
        { node with state := .idle, lastStateChangeTime := now }
      else node := by
  simp only [TaskPipelineNode.onTimer, TaskPipelineNode.setState, busy, ne_eq, not_false_eq_true,
    true_and, if_false]
  split_ifs <;> simp_all

/-- A task is begun by a command that finds the node idle, and goes on until an event ends it. -/
theorem step_busy_iff {S : State} (busy : S ≠ .idle) (node : TaskPipelineNode K) (e : Event K)
    (since : K) :
    ((step node e).state = S ∧ (step node e).lastStateChangeTime = since) ↔
      (node.state = .idle ∧ ∃ data, e = .cmd since data ∧ task data = some S) ∨
        (node.state = S ∧ node.lastStateChangeTime = since) ∧
          ¬ e.Ends node.stateTimeoutSec since := by
  by_cases idle : node.state = .idle
  · rw [idle, eq_self, true_and, or_iff_left fun other => busy other.1.1.symm]
    cases e with
    | cmd now data =>
        rw [step, onCmd_of_idle idle]
        cases begun : task data with
        | none => simp [idle, busy.symm, begun]
        | some s => simp [begun, and_comm]
    | timer now => simp [step, TaskPipelineNode.onTimer, idle, busy.symm]
  · rw [or_iff_right fun other => idle other.1]
    cases e with
    | cmd now data =>
        rw [step, onCmd_of_busy idle, Event.Ends]
        split
        · rename_i stop
          simp [stop, busy.symm]
        · rename_i other
          simp [other]
    | timer now =>
        rw [step, onTimer_of_busy idle, Event.Ends]
        split
        · rename_i late
          refine iff_of_false (fun other => busy other.1.symm) ?_
          rintro ⟨⟨-, rfl⟩, lasting⟩
          exact lasting late
        · rename_i early
          refine (and_iff_left_of_imp ?_).symm
          rintro ⟨-, rfl⟩
          exact early

/-- **How long a task lasts.**  A node that begins idle is at a task behind a run exactly if a
command that found it idle began the task, and no later event has ended it. -/
theorem busy_iff {node : TaskPipelineNode K} (idle : node.state = .idle) {S : State}
    (busy : S ≠ .idle) (es : List (Event K)) :
    (run step node es).state = S ↔ ∃ pre since data post, es = pre ++ .cmd since data :: post ∧
      (run step node pre).state = .idle ∧ task data = some S ∧
        ∀ e ∈ post, ¬ e.Ends node.stateTimeoutSec since := by
  suffices lasts : ∀ since, ((run step node es).state = S ∧
      (run step node es).lastStateChangeTime = since) ↔
        ∃ pre data post, es = pre ++ .cmd since data :: post ∧
          (run step node pre).state = .idle ∧ task data = some S ∧
            ∀ e ∈ post, ¬ e.Ends node.stateTimeoutSec since by
    constructor
    · intro at_S
      obtain ⟨pre, data, post, begun⟩ := (lasts _).1 ⟨at_S, rfl⟩
      exact ⟨pre, _, data, post, begun⟩
    · rintro ⟨pre, since, data, post, begun⟩
      exact ((lasts since).2 ⟨pre, data, post, begun⟩).1
  intro since
  induction es using List.reverseRecOn with
  | nil =>
      refine iff_of_false (fun at_S => busy (at_S.1.symm.trans idle)) ?_
      rintro ⟨pre, _, post, parts, -⟩
      simp at parts
  | append_singleton es e ih =>
      rw [run_append, run_cons, run_nil, step_busy_iff busy, ih, stateTimeoutSec_run]
      constructor
      · rintro (⟨free, data, rfl, begun⟩ | ⟨⟨pre, data, post, rfl, free, begun, lasting⟩, last⟩)
        · exact ⟨es, data, [], rfl, free, begun, by simp⟩
        · refine ⟨pre, data, post ++ [e], by simp, free, begun, ?_⟩
          rw [List.forall_mem_append, List.forall_mem_singleton]
          exact ⟨lasting, last⟩
      · rintro ⟨pre, data, post, parts, free, begun, lasting⟩
        rcases concat_eq_split_iff.1 parts with ⟨rfl, last, rfl⟩ | ⟨post, rfl, rfl⟩
        · exact .inl ⟨free, data, last, begun⟩
        · rw [List.forall_mem_append, List.forall_mem_singleton] at lasting
          exact .inr ⟨⟨pre, data, post, rfl, free, begun, lasting.1⟩, lasting.2⟩

/-- A policy that is asked for while the robot moves is not run, and the move is not too old yet. -/
theorem busy_moving : (run step (⟨5, .idle, 0⟩ : TaskPipelineNode Int)
    [.cmd 1 "move_pose_1", .cmd 2 "run_rl", .timer 6]).state = .moving := by
  refine (busy_iff rfl (by decide) _).2 ⟨[], 1, "move_pose_1", _, rfl, rfl, by decide, ?_⟩
  intro e member
  simp only [List.mem_cons, List.not_mem_nil, or_false] at member
  rcases member with rfl | rfl <;> simp [Event.Ends]

/-! ## Without a timeout -/

/-- The task that an event begins. -/
def Event.task : Event K → Option State
  | .cmd _ data => TaskPipeline.task data
  | .timer _ => none

def Event.isStop : Event K → Bool
  | .cmd _ data => data = "stop"
  | .timer _ => false

omit [Zero K] [Sub K] [LT K] [DecidableLT K] [LE K] [DecidableLE K] in
theorem Event.task_ne_idle (e : Event K) : e.task ≠ some .idle := by
  cases e with
  | cmd now data => exact TaskPipeline.task_ne_idle data
  | timer now => simp [Event.task]

theorem state_step {node : TaskPipelineNode K} (off : node.stateTimeoutSec ≤ 0) (e : Event K) :
    (step node e).state =
      if e.isStop then .idle else if node.state = .idle then e.task.getD .idle else node.state := by
  cases e with
  | cmd now data =>
      by_cases idle : node.state = .idle
      · rw [step, onCmd_of_idle idle, if_pos idle]
        by_cases stop : data = "stop"
        · rw [stop, task_stop]
          simp [idle, Event.isStop]
        · cases begun : task data <;> simp [Event.isStop, Event.task, stop, begun, idle]
      · rw [step, onCmd_of_busy idle, if_neg idle]
        by_cases stop : data = "stop" <;> simp [Event.isStop, stop]
  | timer now =>
      by_cases idle : node.state = .idle <;>
        simp [step, TaskPipelineNode.onTimer, off, Event.isStop, Event.task, idle]

/-- **Without a timeout** the node is at the first task that was asked for behind the last
`stop`. -/
theorem state_of_commands {node : TaskPipelineNode K} (idle : node.state = .idle)
    (off : node.stateTimeoutSec ≤ 0) (es : List (Event K)) :
    (run step node es).state =
      ((es.rtakeWhile fun e => !e.isStop).findSome? Event.task).getD .idle := by
  induction es using List.reverseRecOn with
  | nil => exact idle
  | append_singleton es e ih =>
      have off' : (run step node es).stateTimeoutSec ≤ 0 := by rwa [stateTimeoutSec_run]
      rw [run_append, run_cons, run_nil, state_step off', ih, List.rtakeWhile_concat]
      cases stop : e.isStop with
      | true => simp
      | false =>
          simp only [Bool.not_false, if_true, Bool.false_eq_true, if_false, List.findSome?_append,
            List.findSome?_singleton]
          cases first : (es.rtakeWhile fun e => !e.isStop).findSome? Event.task with
          | none => simp
          | some s =>
              obtain ⟨e', -, begun⟩ := List.exists_of_findSome?_eq_some first
              have busy : s ≠ .idle := fun same => e'.task_ne_idle (same ▸ begun)
              simp [busy]

/-- The gripper is opened behind a `stop`, and the move that is asked for next is not taken
up. -/
theorem state_of_commands_openGripper : (run step (⟨0, .idle, 0⟩ : TaskPipelineNode Int)
    [.cmd 1 "run_rl", .cmd 2 "stop", .timer 3, .cmd 4 "save_log", .cmd 5 "open_gripper",
      .cmd 6 "move_pose_2"]).state = .grasping := by
  rw [state_of_commands rfl (by decide)]
  decide

end Runs

end FrankaRos.TaskPipeline
