/-
# Controller.RlTermination -- RUN_RL never ends

The entry code of `RUN_RL` clears `rl_finished_`, and lock (B4) keeps the mode
until the flag is set again; the only code that would set it, and request the
log save, is in the commented-out body of the case.  The two facts are an
invariant of every run (`RlPending`), so once `RUN_RL` is entered it neither
finishes nor requests a save, however long it runs, and the lock masks every
later command of the activation.
-/
import FrankaRos.Controller.Course
import FrankaRos.Controller.Lifecycle

namespace FrankaRos.Controller

open FrankaRos.Theory

set_option autoImplicit false

set_option linter.unusedSectionVars false

namespace MoveCatersianImpWithGripper

variable {K : Type} [MachineArith K]

/-! ## The invariant -/

structure RlPending (s : MoveCatersianImpWithGripper K) : Prop where
  unfinished : s.task.lastCmd = .runRl → s.task.rlFinished = false
  unrequested : s.log.saveRequested = false

theorem RlPending.gated {s : MoveCatersianImpWithGripper K} (pending : s.RlPending) :
    s.gated.RlPending := by
  by_cases advances : s.task.Advances
  · rw [gated_of_advances advances]
    cases s.task.taskCmd with
    | runRl => exact ⟨fun _ => rfl, rfl⟩
    | _ => exact ⟨fun entered => (by cases entered), pending.unrequested⟩
  · rw [gated_of_not_advances advances]
    exact pending

theorem RlPending.update {s : MoveCatersianImpWithGripper K} (pending : s.RlPending)
    (given : Cycle K) : (s.update given).2.RlPending where
  unfinished entered := by
    rw [(update_kept given s).lastCmd] at entered
    rw [(update_kept given s).rlFinished]
    exact pending.gated.unfinished entered
  unrequested := by
    rw [(update_kept given s).saveRequested]
    exact pending.gated.unrequested

theorem RlPending.quiet {s s' : MoveCatersianImpWithGripper K} (pending : s.RlPending)
    (quiet : Quiet s s') : s'.RlPending where
  unfinished entered := by
    have unfinished := pending.unfinished (quiet.lastCmd ▸ entered)
    exact (quiet.finished .runRl).trans unfinished
  unrequested := quiet.saveRequested pending.unrequested

theorem RlPending.transits {s s' : MoveCatersianImpWithGripper K} (pending : s.RlPending)
    (transits : Transits s s') : s'.RlPending where
  unfinished entered := by
    rcases transits.lastCmd with same | reset
    · exact transits.rlFinished.trans (pending.unfinished (same.symm.trans entered))
    · rw [entered] at reset
      cases reset
  unrequested := transits.saveRequested.trans pending.unrequested

theorem rlPending_step {s : MoveCatersianImpWithGripper K} (e : Event K) (pending : s.RlPending) :
    (s.step e).RlPending := by
  cases e with
  | configure | activate | deactivate | cleanup =>
      exact pending.transits (transits_step (by exact trivial))
  | update given =>
      simp only [step]
      split
      · exact pending.update given
      · exact pending
  | taskCmd | gripperTimer | housekeeping | graspResponse | graspResult | moveResponse |
    moveResult => exact pending.quiet (quiet_step (by exact trivial))

theorem rlPending_run (params : Params K) (es : List (Event K)) :
    (run step (constructed params) es).RlPending :=
  run_invariant step (I := RlPending) (A := fun _ => True) (fun _ e _ => rlPending_step e)
    (fun _ _ => trivial) ⟨fun entered => (by cases entered), rfl⟩

/-! ## Termination -/

/-- A successful update after warm-up that executes `RUN_RL`. -/
def RunsRl (s : MoveCatersianImpWithGripper K) (given : Cycle K) : Prop :=
  s.services.lifecycle = .active ∧ s.Executes .runRl given

instance (s : MoveCatersianImpWithGripper K) (given : Cycle K) : Decidable (s.RunsRl given) :=
  inferInstanceAs (Decidable (_ ∧ _))

/-- The total period of the updates of a run that execute `RUN_RL`. -/
def rlTime : MoveCatersianImpWithGripper K → List (Event K) → Double K
  | _, [] => 0
  | s, e :: es =>
      match e with
      | .update given =>
          if s.RunsRl given then given.dt + rlTime (s.step e) es else rlTime (s.step e) es
      | _ => rlTime (s.step e) es

/-- `RUN_RL` is finished, and a log save was requested on the way. -/
def RlDone (s : MoveCatersianImpWithGripper K) (es : List (Event K)) : Prop :=
  (run step s es).task.rlFinished = true ∧
    ∃ pre post, es = pre ++ post ∧ (run step s pre).log.saveRequested = true

/-- Once `RUN_RL` has run for its duration, it is done. -/
def RlTerminates (s : MoveCatersianImpWithGripper K) (es : List (Event K)) : Prop :=
  (run step s es).task.lastCmd = .runRl → (run step s es).params.rlDuration ≤ rlTime s es →
    RlDone s es

theorem not_rlDone {params : Params K} {es : List (Event K)}
    (entered : (run step (constructed params) es).task.lastCmd = .runRl) :
    ¬ RlDone (constructed params) es := by
  intro done
  have unfinished := (rlPending_run params es).unfinished entered
  rw [done.1] at unfinished
  cases unfinished

/-- No gate leads out of `RUN_RL`. -/
theorem update_of_runRl {s : MoveCatersianImpWithGripper K} (entered : s.task.lastCmd = .runRl)
    (given : Cycle K) : (s.update given).2.task.lastCmd = .runRl := by
  have stays : ¬ s.task.Advances := by
    intro advances
    rw [Task.Advances, entered] at advances
    cases advances.1
  rw [update_lastCmd, if_neg stays, entered]

/-- **`RUN_RL` never terminates.**  Whenever a run has reached `RUN_RL` and been
in it for its duration, the flag its lock waits for is down, no log save was ever
requested, and no later update leaves the mode. -/
theorem rl_never_terminates {params : Params K} {es : List (Event K)}
    (entered : (run step (constructed params) es).task.lastCmd = .runRl)
    (elapsed : (run step (constructed params) es).params.rlDuration ≤
      rlTime (constructed params) es) :
    ¬ RlTerminates (constructed params) es ∧
      (run step (constructed params) es).task.rlFinished = false ∧
      (∀ pre post, es = pre ++ post →
        (run step (constructed params) pre).log.saveRequested = false) ∧
      ∀ given, ((run step (constructed params) es).update given).2.task.lastCmd = .runRl :=
  ⟨fun terminates => not_rlDone entered (terminates entered elapsed),
    (rlPending_run params es).unfinished entered,
    fun pre _ _ => (rlPending_run params pre).unrequested,
    update_of_runRl entered⟩

/-- A whole task of the concrete robot, with ten seconds in `RUN_RL`. -/
def wholeTask : List (Event ℚ) :=
  [.configure (fr3Configuration fr3Scalars), .activate (fr3Activation 0),
    .taskCmd "move_pose_1", .update (fr3Cycle 1 0 0), .taskCmd "grasp", .update (fr3Cycle 1 0 0),
    .gripperTimer true true, .graspResult 0 .succeeded true, .update (fr3Cycle 1 0 0),
    .taskCmd "move_pose_2", .update (fr3Cycle 1 0 0), .taskCmd "run_rl",
    .update (fr3Cycle 5 0 0), .update (fr3Cycle 5 0 0)]

theorem rl_never_terminates_wholeTask :
    (run step (constructed fr3Params) wholeTask).task.rlFinished = false :=
  (rl_never_terminates (by decide +kernel) (by decide +kernel)).2.1

theorem wholeTask_not_rlTerminates : ¬ RlTerminates (constructed fr3Params) wholeTask := by
  intro terminates
  have done := terminates (by decide +kernel) (by decide +kernel)
  exact absurd done.1 (by decide +kernel)

end MoveCatersianImpWithGripper

end FrankaRos.Controller
