/-
# Controller.PhaseBounds -- no phase keeps its lock past its time limit

The time of a phase is the sum of the periods of the updates that get to its code, from
the one that enters it on (`elapsedTime_since_entry`).  A policy phase finishes in the
first executing update whose accumulated time is past its limit, since the exit test
runs in every such update (`policyPhase_exit`).  A grasp may need a second one: an update
that finds a failed action reports it and leaves the time limit to the next.  Nothing but
the sending of a new goal takes the report back (`settledGrasp_step`), so the second
update finishes whatever the callbacks do in between.
-/
import FrankaRos.Controller.PhaseOrder

namespace FrankaRos.Controller

open FrankaRos.Theory

set_option autoImplicit false

set_option linter.unusedSectionVars false

/-- The modes whose code advances `elapsed_time_`. -/
def TaskCmd.Timed : TaskCmd → Prop
  | .movePose1 => True
  | .grasp => True
  | .movePose2 => True
  | _ => False

namespace MoveCatersianImpWithGripper

variable {K : Type} [MachineArith K]

/-! ## The policy phases -/

theorem trackPolicy_exit {ph : PolicyPhase} {given : Cycle K} {s : MoveCatersianImpWithGripper K}
    (late : ph.duration s.params < s.task.elapsedTime) :
    (s.trackPolicy ph given).task.finished ph.cmd = true := by
  unfold trackPolicy
  simp only
  rw [if_pos (.inr late)]
  cases ph <;> rfl

/-- The exit test of a policy phase, in an update whose inference does not throw. -/
theorem policyPhase_exit {ph : PolicyPhase} {given : Cycle K}
    {s s' : MoveCatersianImpWithGripper K} (run : s.policyPhase ph given = (true, s'))
    (late : ph.duration s'.params < s'.task.elapsedTime) : s'.task.finished ph.cmd = true := by
  cases policyCourse run with
  | held finished => exact finished
  | idle =>
      rw [trackPolicy_elapsedTime, (kept_trackPolicy ph given _).params] at late
      exact trackPolicy_exit late
  | inferred =>
      rw [trackPolicy_elapsedTime, (kept_trackPolicy ph given _).params] at late
      exact trackPolicy_exit late

/-! ## The grasp -/

/-- The grasp is finished, or a failure of it has been reported. -/
def SettledGrasp (s : MoveCatersianImpWithGripper K) : Prop :=
  s.task.graspFinished = true ∨ s.gripper.graspResultReported = true

theorem graspExit_settles {s : MoveCatersianImpWithGripper K}
    (late : s.params.moveDurationGrasp < s.task.elapsedTime) : s.graspExit.SettledGrasp := by
  unfold graspExit
  simp only [late, if_true]
  split
  · rename_i finished
    exact .inl finished
  split
  · split
    · exact .inl rfl
    split
    · exact .inr rfl
    · exact .inl rfl
  · exact .inl rfl

theorem graspExit_exit {s : MoveCatersianImpWithGripper K} (settled : s.SettledGrasp)
    (late : s.params.moveDurationGrasp < s.task.elapsedTime) :
    s.graspExit.task.graspFinished = true := by
  unfold graspExit
  simp only [late, if_true]
  split
  · assumption
  · rename_i unfinished
    have reported := settled.resolve_left unfinished
    repeat' split
    all_goals first | rfl | simp [reported] at *

theorem graspExit_elapsedTime (s : MoveCatersianImpWithGripper K) :
    s.graspExit.task.elapsedTime = s.task.elapsedTime := by
  unfold graspExit
  repeat' split
  all_goals rfl

/-! ## The time of a phase -/

theorem policyPhase_elapsedTime (ph : PolicyPhase) (given : Cycle K)
    (s : MoveCatersianImpWithGripper K) :
    (s.policyPhase ph given).2.task.elapsedTime = s.task.elapsedTime + given.dt := by
  rcases ran : s.policyPhase ph given with ⟨done, s'⟩
  cases policyCourse ran with
  | held => rfl
  | idle => exact trackPolicy_elapsedTime ph given _
  | threw => rfl
  | inferred => exact trackPolicy_elapsedTime ph given _

/-- Every phase that is executed adds the period of its cycle. -/
theorem phase_elapsedTime {s : MoveCatersianImpWithGripper K} {given : Cycle K}
    (timed : s.task.lastCmd.Timed) :
    (s.phase given).2.task.elapsedTime = s.task.elapsedTime + given.dt := by
  unfold phase
  cases mode : s.task.lastCmd with
  | movePose1 => exact policyPhase_elapsedTime .pose1 given s
  | grasp => exact graspExit_elapsedTime (s.graspHold given)
  | movePose2 => exact policyPhase_elapsedTime .pose2 given s
  | _ =>
      rw [mode] at timed
      exact timed.elim

/-- The update gets to the code of its phase, whether that returns or throws. -/
def RunsPhase (s : MoveCatersianImpWithGripper K) (given : Cycle K) : Prop :=
  ¬ (s.prepare given).2.Warming ∧ (s.update given).1 ≠ .error

instance (s : MoveCatersianImpWithGripper K) (given : Cycle K) : Decidable (s.RunsPhase given) :=
  inferInstanceAs (Decidable (_ ∧ _))

/-- The warm-up does not throw. -/
theorem not_warming_of_escaped {s : MoveCatersianImpWithGripper K} {given : Cycle K}
    (escaped : (s.update given).1 = .escaped) : ¬ (s.prepare given).2.Warming := by
  rcases s.update_cases given with ⟨t, -, eq⟩ | ⟨t, r, t', prepared, ran, eq⟩
  · rw [eq] at escaped
    cases escaped
  · rw [eq] at escaped
    obtain rfl : r = .escaped := escaped
    rw [prepared]
    intro warming
    rw [if_pos warming] at ran
    unfold warmupCycle at ran
    simp only at ran
    repeat' split at ran
    all_goals cases ran

/-- An update of a timed mode adds its period where it gets to the phase, and nothing
elsewhere. -/
theorem update_elapsedTime {s : MoveCatersianImpWithGripper K} {given : Cycle K}
    (timed : (s.update given).2.task.lastCmd.Timed) :
    (s.RunsPhase given →
        (s.update given).2.task.elapsedTime = s.gated.task.elapsedTime + given.dt) ∧
      (¬ s.RunsPhase given →
        (s.update given).2.task.elapsedTime = s.gated.task.elapsedTime) := by
  have mode := (update_kept given s).lastCmd
  have warm : (s.update given).1 = .escaped → ¬ (s.prepare given).2.Warming :=
    not_warming_of_escaped
  -- what the gate has left of the task is what the phase code finds
  have read : ∀ c i m w, (s.reading c i m w).captureWarmup.task = s.gated.task := fun c i m w =>
    captureWarmup_task _
  have phase : ∀ c i m w, ((s.reading c i m w).captureWarmup.phase given).2.task.elapsedTime =
      s.gated.task.elapsedTime + given.dt := by
    intro c i m w
    rw [mode] at timed
    rw [phase_elapsedTime (by rw [read]; exact timed), read]
  unfold RunsPhase
  rcases ran : s.update given with ⟨r, s'⟩
  rw [ran] at warm
  cases course ran with
  | unread => exact ⟨fun runs => absurd rfl runs.2, fun _ => rfl⟩
  | warmup _ c i m w i' asked move torque steps prepared message warming held =>
      refine ⟨fun runs => absurd held runs.1, fun _ => ?_⟩
      rw [prepared]
      exact congrArg Task.elapsedTime (read c i m w)
  | unmapped c i m w =>
      exact ⟨fun runs => absurd rfl runs.2, fun _ => congrArg Task.elapsedTime (read c i m w)⟩
  | thrown c i m w prepared message past run =>
      refine ⟨fun _ => ?_, fun short => absurd ⟨warm rfl, nofun⟩ short⟩
      have added := phase c i m w
      rw [← prepared, run] at added
      exact added
  | control c i m w i' torque steps prepared message past run reads mapped source =>
      have past' : ¬ (s.prepare given).2.Warming := by
        rw [source] at past
        exact past
      refine ⟨fun _ => ?_, fun short => absurd ⟨past', nofun⟩ short⟩
      have added := phase c i m w
      rw [← prepared, run] at added
      exact added

/-- The time a clock shows behind an event, if it counts the updates that get to the phase. -/
def clock (s : MoveCatersianImpWithGripper K) (time : Double K) : Event K → Double K
  | .update given => if s.RunsPhase given then time + given.dt else time
  | _ => time

/-- The periods of those updates, added up onto `time`. -/
def accumulated (time : Double K) : MoveCatersianImpWithGripper K → List (Event K) → Double K
  | _, [] => time
  | s, e :: es => accumulated (s.clock time e) (s.step e) es

/-- `elapsed_time_` is such a clock, set to zero by the entry of a phase. -/
theorem update_clock {s : MoveCatersianImpWithGripper K} {given : Cycle K} {start : Double K}
    (timed : (s.update given).2.task.lastCmd.Timed) (gated : s.gated.task.elapsedTime = start) :
    (s.update given).2.task.elapsedTime = s.clock start (.update given) := by
  obtain ⟨added, kept⟩ := update_elapsedTime timed
  rw [gated] at added kept
  show _ = if s.RunsPhase given then start + given.dt else start
  split
  · rename_i runs
    exact added runs
  · rename_i short
    exact kept short

theorem clock_step {s : MoveCatersianImpWithGripper K} {e : Event K}
    (active : s.services.lifecycle = .active) (stays : e.KeepsActive)
    (timed : s.task.lastCmd.Timed) (same : (s.step e).task.lastCmd = s.task.lastCmd) :
    (s.step e).task.elapsedTime = s.clock s.task.elapsedTime e := by
  rcases step_active active stays with ⟨given, rfl, eq⟩ | ⟨other, quiet⟩
  · rw [eq] at same ⊢
    refine update_clock ?_ ?_
    · rw [same]
      exact timed
    · rw [gated_of_update_lastCmd same]
  · rw [quiet.elapsedTime]
    cases e <;> first | rfl | exact absurd rfl (other _)

theorem clock_run {s : MoveCatersianImpWithGripper K} {es : List (Event K)} {cmd : TaskCmd}
    (active : s.services.lifecycle = .active) (stays : ∀ e ∈ es, e.KeepsActive)
    (timed : cmd.Timed) (phase : Throughout step (fun t => t.task.lastCmd = cmd) s es) :
    (run step s es).task.elapsedTime = accumulated s.task.elapsedTime s es := by
  induction es generalizing s with
  | nil => rfl
  | cons e es ih =>
      obtain ⟨mode, rest⟩ := phase
      have stays_e := stays e List.mem_cons_self
      have here := clock_step active stays_e (mode ▸ timed) (rest.first.trans mode.symm)
      rw [run_cons, accumulated, ← here]
      exact ih (active_step active stays_e)
        (fun e' member => stays e' (List.mem_cons_of_mem e member)) rest

/-- **The time of a phase**: from the update that enters it on, `elapsed_time_` is the sum of
the periods of the updates that get to its code. -/
theorem elapsedTime_since_entry {s : MoveCatersianImpWithGripper K} {given : Cycle K}
    {es : List (Event K)} (active : s.services.lifecycle = .active) (enters : s.task.Advances)
    (timed : s.task.taskCmd.Timed) (stays : ∀ e ∈ es, e.KeepsActive)
    (phase : Throughout step (fun t => t.task.lastCmd = s.task.taskCmd)
      (s.step (.update given)) es) :
    (run step s (.update given :: es)).task.elapsedTime =
      accumulated 0 s (.update given :: es) := by
  have updated : s.step (.update given) = (s.update given).2 := if_pos active
  have mode : (s.update given).2.task.lastCmd = s.task.taskCmd := by
    rw [update_lastCmd, if_pos enters]
  have zero : s.gated.task.elapsedTime = 0 := by
    rw [gated_of_advances enters]
    cases cmd : s.task.taskCmd with
    | movePose1 | grasp | movePose2 => rfl
    | _ =>
        rw [cmd] at timed
        exact timed.elim
  have first := update_clock (mode ▸ timed) zero
  rw [run_cons, accumulated, ← first, ← updated]
  exact clock_run (active_step active trivial) stays timed phase

/-! ## Between two updates -/

theorem settledGrasp_of_kept {s s' : MoveCatersianImpWithGripper K} (settled : s.SettledGrasp)
    (kept : Kept s s') : s'.SettledGrasp :=
  settled.imp (kept.finished .grasp) kept.reported

theorem settledGrasp_gated {s : MoveCatersianImpWithGripper K} (settled : s.SettledGrasp)
    (mode : s.task.lastCmd = .grasp) : s.gated.SettledGrasp := by
  by_cases advances : s.task.Advances
  · have next : s.task.taskCmd = .movePose2 := by
      have succ := advances.1
      rw [mode] at succ
      exact (Option.some.inj succ).symm
    rw [gated_of_advances advances, next]
    exact settled
  · rw [gated_of_not_advances advances]
    exact settled

/-- Only sending a goal takes a report back. -/
theorem settledGrasp_gripperTimer {moveServer graspServer : Bool}
    {s : MoveCatersianImpWithGripper K} (settled : s.SettledGrasp)
    (unsent : (s.gripperTimer moveServer graspServer).gripper.grasp.goalsSent =
      s.gripper.grasp.goalsSent) : (s.gripperTimer moveServer graspServer).SettledGrasp := by
  unfold gripperTimer at unsent ⊢
  simp only at unsent ⊢
  repeat' split
  all_goals first | exact settled | skip
  rename_i requested client server
  rw [if_neg, if_neg requested, if_neg client, if_neg server] at unsent
  · exact absurd unsent (Nat.succ_ne_self _)
  · assumption

/-- Within a grasp phase, every event but the sending of a goal keeps the grasp
settled. -/
theorem settledGrasp_step {s : MoveCatersianImpWithGripper K} {e : Event K}
    (settled : s.SettledGrasp) (mode : s.task.lastCmd = .grasp)
    (unsent : (s.step e).gripper.grasp.goalsSent = s.gripper.grasp.goalsSent) :
    (s.step e).SettledGrasp := by
  have transits : e.IsTransition → Transits s (s.step e) := transits_step
  cases e with
  | configure | activate | deactivate | cleanup =>
      have transits := transits trivial
      exact settled.imp transits.graspFinished transits.reported.trans
  | update given =>
      simp only [step]
      split
      · exact settledGrasp_of_kept (settledGrasp_gated settled mode) (update_kept given s)
      · exact settled
  | taskCmd data =>
      simp only [step, onTaskCmd]
      repeat' split
      all_goals exact settled
  | gripperTimer moveServer graspServer =>
      simp only [step] at unsent ⊢
      split
      · rename_i timer
        rw [if_pos timer] at unsent
        exact settledGrasp_gripperTimer settled unsent
      · exact settled
  | housekeeping =>
      simp only [step, housekeeping, saveLogToTxt]
      repeat' split
      all_goals exact settled
  | graspResponse | graspResult | moveResponse | moveResult =>
      simp only [step]
      split <;> exact settled

theorem settledGrasp_run {s : MoveCatersianImpWithGripper K} {es : List (Event K)} {n : Nat}
    (settled : s.SettledGrasp)
    (phase : Throughout step (fun t => t.task.lastCmd = .grasp ∧ t.gripper.grasp.goalsSent = n)
      s es) : (run step s es).SettledGrasp := by
  induction es generalizing s with
  | nil => exact settled
  | cons e es ih =>
      obtain ⟨⟨mode, before⟩, rest⟩ := phase
      have after := rest.first.2
      exact ih (settledGrasp_step settled mode (after.trans before.symm)) rest

/-! ## The bounds -/

/-- What an update that executes the grasp phase comes to. -/
theorem Executes.grasp {s : MoveCatersianImpWithGripper K} {given : Cycle K}
    (executes : s.Executes .grasp given) :
    ∃ s₁ : MoveCatersianImpWithGripper K, Kept s.gated s₁ ∧
      (s.update given).2.task = s₁.graspExit.task ∧
      (s.update given).2.gripper = s₁.graspExit.gripper := by
  obtain ⟨c, i, m, w, s₂, i', torque, steps, run, mode, -, eq⟩ := executes.phase
  rw [MoveCatersianImpWithGripper.phase, mode] at run
  obtain ⟨-, rfl⟩ := Prod.mk.inj run
  refine ⟨(s.reading c i m w).captureWarmup.graspHold given,
    (kept_reading s c i m w).trans (kept_graspHold given _), ?_, ?_⟩
  · rw [eq]
    rfl
  · rw [eq]
    rfl

/-- The exit of a policy phase by time. -/
theorem Executes.finishes {ph : PolicyPhase} {s : MoveCatersianImpWithGripper K} {given : Cycle K}
    (executes : s.Executes ph.cmd given)
    (late : ph.duration s.params < (s.update given).2.task.elapsedTime) :
    (s.update given).2.task.finished ph.cmd = true := by
  have params := (update_kept given s).params
  obtain ⟨c, i, m, w, s₂, i', torque, steps, run, mode, -, eq⟩ := executes.phase
  rw [eq] at late params ⊢
  rw [← gated_params, ← params] at late
  rw [phase_of_policy mode] at run
  have exit := policyPhase_exit run late
  exact exit

/-- So a policy phase is finished by the first update it executes whose period takes the sum
of the periods since its entry past the limit. -/
theorem finishes_of_accumulated {ph : PolicyPhase} {s : MoveCatersianImpWithGripper K}
    {first last : Cycle K} {es : List (Event K)} (active : s.services.lifecycle = .active)
    (enters : s.task.Advances) (next : s.task.taskCmd = ph.cmd) (stays : ∀ e ∈ es, e.KeepsActive)
    (phase : Throughout step (fun t => t.task.lastCmd = ph.cmd) (s.step (.update first))
      (es ++ [.update last]))
    (executes : (run step s (.update first :: es)).Executes ph.cmd last)
    (late : ph.duration (run step s (.update first :: es)).params <
      accumulated 0 s (.update first :: (es ++ [.update last]))) :
    (run step s (.update first :: (es ++ [.update last]))).task.finished ph.cmd = true := by
  have timed : s.task.taskCmd.Timed := by
    rw [next]
    cases ph <;> trivial
  have stays' : ∀ e ∈ es ++ [.update last], e.KeepsActive := by
    intro e member
    rcases List.mem_append.1 member with member | member
    · exact stays e member
    · rw [List.mem_singleton.1 member]
      trivial
  have running : (run step s (.update first :: es)).services.lifecycle = .active := by
    rw [run_cons]
    exact active_run (active_step active trivial) stays
  have updated : run step s (.update first :: (es ++ [.update last])) =
      ((run step s (.update first :: es)).update last).2 := by
    rw [← List.cons_append, run_append]
    exact if_pos running
  rw [← elapsedTime_since_entry active enters timed stays' (next.symm ▸ phase), updated] at late
  rw [updated]
  exact executes.finishes late

/-- **No phase keeps its lock past its time limit.**  `MOVE_POSE_1` and
`MOVE_POSE_2` are finished by the first executing update whose phase time exceeds
the limit, `GRASP` by the second, unless the phase is left or a goal is sent in
between. -/
theorem phases_bounded :
    (∀ (ph : PolicyPhase) (s : MoveCatersianImpWithGripper K) (given : Cycle K),
      s.Executes ph.cmd given →
      ph.duration s.params < (s.update given).2.task.elapsedTime →
        (s.update given).2.task.finished ph.cmd = true) ∧
    (∀ (s : MoveCatersianImpWithGripper K) (first second : Cycle K) (between : List (Event K))
      (n : Nat), s.services.lifecycle = .active →
      let s₁ := s.step (.update first)
      let t := run step s₁ between
      s.Executes .grasp first → s.params.moveDurationGrasp < s₁.task.elapsedTime →
      Throughout step (fun u => u.task.lastCmd = .grasp ∧ u.gripper.grasp.goalsSent = n)
        s₁ between →
      t.Executes .grasp second →
      t.params.moveDurationGrasp < (t.update second).2.task.elapsedTime →
        (t.update second).2.task.graspFinished = true) := by
  constructor
  · exact fun ph s given executes late => executes.finishes late
  · intro s first second between n active s₁ t executes late phase executes' late'
    have ran : s₁ = (s.update first).2 := if_pos active
    have settled₁ : s₁.SettledGrasp := by
      obtain ⟨u, kept, task, gripper⟩ := executes.grasp
      rw [ran] at late ⊢
      rw [SettledGrasp, task, gripper]
      rw [task, graspExit_elapsedTime, ← gated_params, ← kept.params] at late
      exact graspExit_settles late
    have settled : t.SettledGrasp := settledGrasp_run settled₁ phase
    obtain ⟨u, kept, task, gripper⟩ := executes'.grasp
    rw [task]
    rw [task, graspExit_elapsedTime, ← gated_params, ← kept.params] at late'
    refine graspExit_exit (settledGrasp_of_kept (settledGrasp_gated settled ?_) kept) late'
    exact phase.last.1

/-- The concrete robot in `GRASP`, its first goal rejected. -/
def rejectedGrasp : MoveCatersianImpWithGripper ℚ :=
  run step (fr3Inactive fr3Scalars)
    [.activate (fr3Activation 0), .taskCmd "move_pose_1", .update (fr3Cycle 1 0 0),
      .taskCmd "grasp", .update (fr3Cycle 1 0 0), .gripperTimer true true,
      .graspResponse 0 false]

theorem phases_bounded_rejectedGrasp :
    ((run step (rejectedGrasp.step (.update (fr3Cycle 20 0 0)))
      [.graspResult 0 .aborted false]).update (fr3Cycle 1 0 0)).2.task.graspFinished = true :=
  phases_bounded.2 rejectedGrasp (fr3Cycle 20 0 0) (fr3Cycle 1 0 0)
    [.graspResult 0 .aborted false] 1 (by decide +kernel) (by decide +kernel) (by decide +kernel)
    ⟨⟨by decide +kernel, by decide +kernel⟩, by decide +kernel, by decide +kernel⟩
    (by decide +kernel) (by decide +kernel)

end MoveCatersianImpWithGripper

end FrankaRos.Controller
