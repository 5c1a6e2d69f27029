/-
# Controller.GraspCorrelation -- whose success finishes a grasp

The grasp flags carry no goal identity: the result callback of any goal of the
present client writes them, and the exit of `GRASP` reads them.  The entry code
and the gripper timer reset the flags, but neither invalidates the goals already
sent, so a success of an earlier goal that arrives behind the reset finishes the
new grasp.

`graspCorrelated` says when it cannot: if no update of an unfinished `GRASP`
starts on the success of a goal sent before the phase was entered, every grasp
finished by success owes it to a goal sent since.
-/
import FrankaRos.Controller.CommandLatch

namespace FrankaRos.Controller

open FrankaRos.Theory

set_option autoImplicit false

set_option linter.unusedSectionVars false

namespace MoveCatersianImpWithGripper

variable {K : Type} [MachineArith K]

/-! ## Results and the grasps they finish -/

/-- The flags say that the grasp action is done and was a success. -/
def GraspSucceeded (s : MoveCatersianImpWithGripper K) : Prop :=
  s.gripper.grasp.done = true ∧ s.gripper.grasp.success = true

/-- The result callback of this goal runs. -/
def Reports (goal : Nat) (s : MoveCatersianImpWithGripper K) (e : Event K) : Prop :=
  s.gripper.grasp.delivers goal = true ∧ ∃ code success, e = .graspResult goal code success

/-- `grasp_finished_` becomes true through the success branch. -/
def FinishesBySuccess (s : MoveCatersianImpWithGripper K) (e : Event K) : Prop :=
  (∃ given, e = .update given) ∧ s.task.graspFinished = false ∧
    (s.step e).task.graspFinished = true ∧ (s.step e).GraspSucceeded

/-- The run is in a `GRASP` entered right after `entry`, and the last result
reported in it is the success of `goal`. -/
def LastReported (s : MoveCatersianImpWithGripper K) (es entry : List (Event K)) (goal : Nat) :
    Prop :=
  ∃ e before behind, es = entry ++ e :: (before ++ .graspResult goal .succeeded true :: behind) ∧
    Enters .grasp (run step s entry) e ∧
    Throughout step (fun t => t.task.lastCmd = .grasp) ((run step s entry).step e)
      (before ++ .graspResult goal .succeeded true :: behind) ∧
    (run step s (entry ++ e :: before)).gripper.grasp.delivers goal = true ∧
    Along step (fun s e => ∀ goal, ¬ Reports goal s e)
      ((run step s (entry ++ e :: before)).step (.graspResult goal .succeeded true)) behind

/-- A grasp is finished by success only on the report of a goal sent since it was
entered. -/
def GraspCorrelated (s : MoveCatersianImpWithGripper K) (es : List (Event K)) : Prop :=
  ∀ pre e post, es = pre ++ e :: post → FinishesBySuccess (run step s pre) e →
    ∃ entry goal, LastReported s pre entry goal ∧
      (run step s entry).gripper.grasp.goalsSent ≤ goal

/-- No update starts with the grasp unfinished and the success of a goal sent
before it was entered in the flags. -/
def NoLateSuccess (s : MoveCatersianImpWithGripper K) (es : List (Event K)) : Prop :=
  ∀ pre given post entry goal, es = pre ++ .update given :: post →
    LastReported s pre entry goal → (run step s pre).services.lifecycle = .active →
    (run step s pre).task.graspFinished = false → (run step s pre).GraspSucceeded →
      (run step s entry).gripper.grasp.goalsSent ≤ goal

/-! ## Who writes the flags -/

theorem not_graspSucceeded_gated {s : MoveCatersianImpWithGripper K} (failed : ¬ s.GraspSucceeded) :
    ¬ s.gated.GraspSucceeded := by
  by_cases advances : s.task.Advances
  · rw [gated_of_advances advances]
    cases s.task.taskCmd with
    | grasp => exact fun succeeded => by cases succeeded.1
    | _ => exact failed
  · rw [gated_of_not_advances advances]
    exact failed

theorem graspSucceeded_update {s : MoveCatersianImpWithGripper K} {given : Cycle K} :
    (s.update given).2.GraspSucceeded ↔ s.gated.GraspSucceeded := by
  rw [GraspSucceeded, (update_kept given s).grasp]
  rfl

/-- Only a report raises the success flag. -/
theorem graspSucceeded_step {s : MoveCatersianImpWithGripper K} {e : Event K}
    (failed : ¬ s.GraspSucceeded) (succeeded : (s.step e).GraspSucceeded) :
    ∃ goal, Reports goal s e ∧ e = .graspResult goal .succeeded true := by
  have transits : e.IsTransition → Transits s (s.step e) := transits_step
  cases e with
  | configure | activate | deactivate | cleanup =>
      have transits := transits trivial
      rw [GraspSucceeded, transits.done, transits.success] at succeeded
      exact absurd succeeded failed
  | update given =>
      simp only [step] at succeeded
      split at succeeded
      · exact absurd (graspSucceeded_update.1 succeeded) (not_graspSucceeded_gated failed)
      · exact absurd succeeded failed
  | taskCmd data =>
      simp only [step, onTaskCmd] at succeeded
      repeat' split at succeeded
      all_goals exact absurd succeeded failed
  | gripperTimer moveServer graspServer =>
      simp only [step, gripperTimer] at succeeded
      repeat' split at succeeded
      all_goals first | exact absurd succeeded failed | cases succeeded.2
  | housekeeping =>
      simp only [step, housekeeping, saveLogToTxt] at succeeded
      repeat' split at succeeded
      all_goals exact absurd succeeded failed
  | graspResponse goal accepted =>
      simp only [step] at succeeded
      split at succeeded
      · cases accepted with
        | true => exact absurd succeeded failed
        | false => cases succeeded.2
      · exact absurd succeeded failed
  | graspResult goal code success =>
      simp only [step] at succeeded
      split at succeeded
      · rename_i delivered
        have reported : (decide (code = .succeeded) && success) = true := succeeded.2
        simp only [Bool.and_eq_true, decide_eq_true_eq] at reported
        obtain ⟨rfl, rfl⟩ := reported
        exact ⟨goal, ⟨delivered, _, _, rfl⟩, rfl⟩
      · exact absurd succeeded failed
  | moveResponse | moveResult =>
      simp only [step] at succeeded
      split at succeeded <;> exact absurd succeeded failed

/-- Without a report, a success that stands has stood all along. -/
theorem graspSucceeded_of_silent {s : MoveCatersianImpWithGripper K} {es : List (Event K)}
    (silent : Along step (fun s e => ∀ goal, ¬ Reports goal s e) s es)
    (succeeded : (run step s es).GraspSucceeded) : s.GraspSucceeded := by
  by_contra failed
  refine run_invariant_along step (I := fun t => ¬ t.GraspSucceeded)
    (fun t e silent failed succeeded => ?_) silent failed succeeded
  obtain ⟨goal, reports, -⟩ := graspSucceeded_step failed succeeded
  exact silent goal reports

/-- Entering `GRASP` clears the flags. -/
theorem not_graspSucceeded_of_enters {s : MoveCatersianImpWithGripper K} {e : Event K}
    (enters : Enters .grasp s e) : ¬ (s.step e).GraspSucceeded := by
  obtain ⟨given, rfl⟩ := enters.1
  obtain ⟨active, advances, grasp⟩ := enters_iff.1 enters
  rw [step, if_pos active, graspSucceeded_update, gated_of_advances advances, grasp]
  exact fun succeeded => by cases succeeded.1

/-! ## Who finishes a grasp -/

theorem trackPolicy_graspFinished (ph : PolicyPhase) (given : Cycle K)
    (s : MoveCatersianImpWithGripper K) :
    (s.trackPolicy ph given).task.graspFinished = s.task.graspFinished := by
  unfold trackPolicy
  simp only
  split
  · cases ph <;> rfl
  · rfl

theorem policyPhase_graspFinished (ph : PolicyPhase) (given : Cycle K)
    (s : MoveCatersianImpWithGripper K) :
    (s.policyPhase ph given).2.task.graspFinished = s.task.graspFinished := by
  rcases ran : s.policyPhase ph given with ⟨done, s'⟩
  cases policyCourse ran with
  | held => rfl
  | idle => exact trackPolicy_graspFinished ph given _
  | threw => rfl
  | inferred => exact trackPolicy_graspFinished ph given _

theorem phase_graspFinished {s : MoveCatersianImpWithGripper K} (other : s.task.lastCmd ≠ .grasp)
    (given : Cycle K) : (s.phase given).2.task.graspFinished = s.task.graspFinished := by
  unfold phase
  split
  · exact policyPhase_graspFinished .pose1 given s
  · rename_i grasp
    exact absurd grasp other
  · exact policyPhase_graspFinished .pose2 given s
  · rfl
  · rfl

theorem update_graspFinished {s : MoveCatersianImpWithGripper K} {given : Cycle K}
    (other : (s.update given).2.task.lastCmd ≠ .grasp) :
    (s.update given).2.task.graspFinished = s.gated.task.graspFinished := by
  rw [(update_kept given s).lastCmd] at other
  rcases ran : s.update given with ⟨r, s'⟩
  cases course ran with
  | unread => rfl
  | warmup _ c i m w i' asked move torque steps prepared =>
      subst prepared
      exact congrArg Task.graspFinished (captureWarmup_task _)
  | unmapped c i m w => exact congrArg Task.graspFinished (captureWarmup_task _)
  | thrown c i m w prepared message past run =>
      subst prepared
      have same : (s.reading c i m w).captureWarmup.task = s.gated.task := captureWarmup_task _
      have phase := phase_graspFinished (by rw [same]; exact other) given
      rw [run, same] at phase
      exact phase
  | control c i m w i' torque steps prepared message past run =>
      subst prepared
      have same : (s.reading c i m w).captureWarmup.task = s.gated.task := captureWarmup_task _
      have phase := phase_graspFinished (by rw [same]; exact other) given
      rw [run, same] at phase
      exact phase

/-- An update that finishes a grasp by success starts in `GRASP`, on a success. -/
theorem starts_of_finishesBySuccess {s : MoveCatersianImpWithGripper K} {e : Event K}
    (finishes : FinishesBySuccess s e) :
    s.services.lifecycle = .active ∧ s.task.lastCmd = .grasp ∧ s.GraspSucceeded := by
  obtain ⟨⟨given, rfl⟩, unfinished, finished, succeeded⟩ := finishes
  by_cases active : s.services.lifecycle = .active
  · rw [step, if_pos active] at finished succeeded
    rw [graspSucceeded_update] at succeeded
    by_cases advances : s.task.Advances
    · rw [gated_of_advances advances] at succeeded
      have other : s.task.taskCmd ≠ .grasp := by
        intro grasp
        rw [grasp] at succeeded
        cases succeeded.1
      have same : s.gated.task.graspFinished = s.task.graspFinished := by
        rw [gated_of_advances advances]
        cases cmd : s.task.taskCmd with
        | grasp => exact absurd cmd other
        | _ => rfl
      rw [update_graspFinished (by rwa [update_lastCmd, if_pos advances]), same,
        unfinished] at finished
      cases finished
    · rw [gated_of_not_advances advances] at succeeded
      refine ⟨active, ?_, succeeded⟩
      by_contra other
      rw [update_graspFinished (by rwa [update_lastCmd, if_neg advances]),
        gated_of_not_advances advances, unfinished] at finished
      cases finished
  · rw [step, if_neg active, unfinished] at finished
    cases finished

/-! ## Who enters a phase -/

/-- Only an update moves to a phase. -/
theorem enters_of_lastCmd {c : TaskCmd} {s : MoveCatersianImpWithGripper K} {e : Event K}
    (phase : c ≠ .none) (other : s.task.lastCmd ≠ c) (now : (s.step e).task.lastCmd = c) :
    Enters c s e := by
  refine ⟨?_, other, now⟩
  have transits : e.IsTransition → Transits s (s.step e) := transits_step
  cases e with
  | update given => exact ⟨given, rfl⟩
  | configure | activate | deactivate | cleanup =>
      have transits := transits trivial
      rcases transits.lastCmd with same | reset
      · exact absurd (same.symm.trans now) other
      · exact absurd (now.symm.trans reset) phase
  | taskCmd | gripperTimer | housekeeping | graspResponse | graspResult | moveResponse |
    moveResult =>
      rw [(quiet_step (by exact trivial)).lastCmd] at now
      exact absurd now other

/-! ## Correlation -/

/-- A success that stands in `GRASP` was reported in it. -/
theorem exists_lastReported {params : Params K} {es : List (Event K)}
    (grasp : (run step (constructed params) es).task.lastCmd = .grasp)
    (succeeded : (run step (constructed params) es).GraspSucceeded) :
    ∃ entry goal, LastReported (constructed params) es entry goal := by
  obtain ⟨entry, e, es, rfl, other, phase⟩ :=
    exists_last_rise step (fun t => t.task.lastCmd = .grasp) (s := constructed params)
      TaskCmd.noConfusion grasp
  have enters := enters_of_lastCmd TaskCmd.noConfusion other phase.first
  have cleared := not_graspSucceeded_of_enters enters
  rw [run_append, run_cons] at succeeded
  rcases exists_last_event step (fun s e => ∃ goal, Reports goal s e)
      ((run step (constructed params) entry).step e) es with
    none | ⟨before, e', behind, rfl, ⟨goal, reports⟩, silent⟩
  · refine absurd (graspSucceeded_of_silent ?_ succeeded) cleared
    exact Along.mono step (fun s e none goal reports => none ⟨goal, reports⟩) none
  · have silent := Along.mono step (fun s e none goal reports => none ⟨goal, reports⟩) silent
    rw [run_append, run_cons] at succeeded
    have raised := graspSucceeded_of_silent silent succeeded
    obtain ⟨delivered, code, success, rfl⟩ := reports
    have reported : (decide (code = .succeeded) && success) = true := by
      rw [step, if_pos delivered] at raised
      exact raised.2
    simp only [Bool.and_eq_true, decide_eq_true_eq] at reported
    obtain ⟨rfl, rfl⟩ := reported
    refine ⟨entry, goal, e, before, behind, rfl, enters, phase, ?_, ?_⟩
    · rw [run_append, run_cons]
      exact delivered
    · rw [run_append, run_cons]
      exact silent

/-- **Whose success finishes a grasp.**  In a run in which no update of an
unfinished `GRASP` starts on the success of an earlier goal, every grasp that is
finished by success is finished by the report of a goal sent since its entry. -/
theorem graspCorrelated {params : Params K} {es : List (Event K)}
    (noLate : NoLateSuccess (constructed params) es) : GraspCorrelated (constructed params) es := by
  rintro pre e post rfl finishes
  obtain ⟨active, grasp, succeeded⟩ := starts_of_finishesBySuccess finishes
  obtain ⟨entry, goal, reported⟩ := exists_lastReported grasp succeeded
  obtain ⟨⟨given, rfl⟩, unfinished, -⟩ := finishes
  exact ⟨entry, goal, reported, noLate pre given post entry goal rfl reported active unfinished
    succeeded⟩

/-- A grasp of the concrete robot that succeeds. -/
def graspSuccess : List (Event ℚ) :=
  [.configure (fr3Configuration fr3Scalars), .activate (fr3Activation 0),
    .taskCmd "move_pose_1", .update (fr3Cycle 1 0 0), .taskCmd "grasp", .update (fr3Cycle 1 0 0),
    .gripperTimer true true, .graspResult 0 .succeeded true, .update (fr3Cycle 1 0 0)]

theorem graspCorrelated_graspSuccess : GraspCorrelated (constructed fr3Params) graspSuccess := by
  apply graspCorrelated
  rintro pre given post entry goal whole ⟨e, before, behind, rfl, -⟩ - - -
  have short : entry.length ≤ 6 := by
    have length := congrArg List.length whole
    simp [graspSuccess] at length
    omega
  have initial : entry = graspSuccess.take entry.length := by
    rw [whole]
    simp
  have unsent : ∀ n ≤ 6,
      (run step (constructed fr3Params) (graspSuccess.take n)).gripper.grasp.goalsSent = 0 := by
    decide +kernel
  rw [initial, unsent _ short]
  exact Nat.zero_le goal

/-- A task aborted in `GRASP`; the success of its goal arrives in the `GRASP` of
the next activation. -/
def lateSuccess : List (Event ℚ) :=
  graspSuccess.take 7 ++ [.deactivate, .activate (fr3Activation 0), .taskCmd "move_pose_1",
    .update (fr3Cycle 1 0 0), .taskCmd "grasp", .update (fr3Cycle 1 0 0),
    .graspResult 0 .succeeded true, .update (fr3Cycle 1 0 0)]

theorem lateSuccess_not_correlated : ¬ GraspCorrelated (constructed fr3Params) lateSuccess := by
  intro correlated
  have finishes : FinishesBySuccess (run step (constructed fr3Params) (lateSuccess.take 14))
      (.update (fr3Cycle 1 0 0)) :=
    ⟨⟨_, rfl⟩, by decide +kernel, by decide +kernel, by decide +kernel, by decide +kernel⟩
  obtain ⟨entry, goal, ⟨e, before, behind, whole, -, phase, delivered, -⟩, since⟩ :=
    correlated (lateSuccess.take 14) _ [] rfl finishes
  have sent : ∀ n ≤ 14,
      (run step (constructed fr3Params) (lateSuccess.take n)).gripper.grasp.goalsSent =
        if n ≤ 6 then 0 else 1 := by decide +kernel
  have length : entry.length + before.length + behind.length = 12 := by
    have same := congrArg List.length whole
    simp [lateSuccess, graspSuccess] at same
    omega
  -- the run up to a point behind the entry
  have upto : ∀ k ≤ 13 - entry.length, lateSuccess.take (entry.length + (k + 1)) =
      entry ++ e :: (before ++ .graspResult goal .succeeded true :: behind).take k := by
    intro k bound
    have inside : entry.length + (k + 1) ≤ 14 := by omega
    rw [← Nat.min_eq_left inside, ← List.take_take, whole, List.take_length_add_append,
      List.take_succ_cons]
  -- the goal is the first one, so the phase was entered before it was sent
  have first : goal = 0 := by
    have there := upto before.length (by omega)
    rw [List.take_left] at there
    rw [← there, GripperAction.delivers, Bool.and_eq_true, decide_eq_true_eq, sent _ (by omega)]
      at delivered
    split at delivered <;> omega
  have early : entry.length ≤ 6 := by
    have initial : lateSuccess.take entry.length = entry := by
      have inside : entry.length ≤ 14 := by omega
      rw [← Nat.min_eq_left inside, ← List.take_take, whole, List.take_left]
    rw [← initial, sent _ (by omega), first] at since
    by_contra late
    simp [late] at since
  -- and has to span the second activation
  have reset := (throughout_iff_split step _ _ _).1 phase _ _
    (List.take_append_drop (8 - entry.length) _).symm
  rw [← run_cons, ← run_append, ← upto _ (by omega),
    show entry.length + (8 - entry.length + 1) = 9 by omega] at reset
  exact absurd reset (by decide +kernel)

end MoveCatersianImpWithGripper

end FrankaRos.Controller
