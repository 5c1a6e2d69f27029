/-
# Controller.CommandLatch -- commands that outlive a lock

A sequencing lock keeps the mode of an unfinished phase, but it does not consume
the command it masks: `task_cmd_` is a level, the edge flag `task_cmd_new_` is
set and never read, so a command that arrives under a lock takes effect as soon
as the phase is finished, if it is still the latest one and names the next phase.

`deferredEntry_iff` says that this is the only way: a run enters no phase on a
command that arrived under a lock exactly when no update starts with such a
command standing and the phase finished.
-/
import FrankaRos.Controller.Course
import FrankaRos.Controller.Lifecycle

namespace FrankaRos.Controller

open FrankaRos.Theory

set_option autoImplicit false

set_option linter.unusedSectionVars false

namespace MoveCatersianImpWithGripper

variable {K : Type} [MachineArith K]

/-! ## Commands and locks -/

/-- A sequencing lock holds: the current phase is unfinished. -/
def Locked (s : MoveCatersianImpWithGripper K) : Prop :=
  s.task.finished s.task.lastCmd = false

/-- The event is a message that commands `c`. -/
def Arrives (c : TaskCmd) (s : MoveCatersianImpWithGripper K) (e : Event K) : Prop :=
  ∃ data, e = .taskCmd data ∧ s.services.taskCmdSub = true ∧ TaskCmd.ofString data = c ∧
    c ≠ .saveLog

/-- The event replaces the latest command. -/
def Stores (s : MoveCatersianImpWithGripper K) (e : Event K) : Prop :=
  (∃ c, Arrives c s e) ∨ s.services.lifecycle = .inactive ∧ ∃ a, e = .activate a

/-- The event is an update that moves into mode `c`. -/
def Enters (c : TaskCmd) (s : MoveCatersianImpWithGripper K) (e : Event K) : Prop :=
  (∃ given, e = .update given) ∧ s.task.lastCmd ≠ c ∧ (s.step e).task.lastCmd = c

/-- A command arrives under a lock and its mode is entered later, although the
same command has not arrived again without one. -/
def DeferredEntry (s : MoveCatersianImpWithGripper K) (es : List (Event K)) : Prop :=
  ∃ pre e mid e' post c, es = pre ++ e :: (mid ++ e' :: post) ∧
    Arrives c (run step s pre) e ∧ (run step s pre).Locked ∧
    Enters c (run step s (pre ++ e :: mid)) e' ∧
    ∀ before e'' after, mid = before ++ e'' :: after →
      Arrives c (run step s (pre ++ e :: before)) e'' → (run step s (pre ++ e :: before)).Locked

/-- No update starts with the phase finished and a command for the next one
standing that arrived under a lock. -/
def NoStandingCommand (s : MoveCatersianImpWithGripper K) (es : List (Event K)) : Prop :=
  ∀ pre e mid given post c, es = pre ++ e :: (mid ++ .update given :: post) →
    Arrives c (run step s pre) e → (run step s pre).Locked →
    Along step (fun s e => ¬ Stores s e) (step (run step s pre) e) mid →
    (run step s (pre ++ e :: mid)).services.lifecycle = .active →
    ¬ (run step s (pre ++ e :: mid)).task.Advances

/-! ## The latest command -/

theorem taskCmd_step_of_not_stores {s : MoveCatersianImpWithGripper K} {e : Event K}
    (silent : ¬ Stores s e) : (s.step e).task.taskCmd = s.task.taskCmd := by
  cases e with
  | configure given =>
      simp only [step]
      split
      · rcases onConfigure_cases given s with eq | ⟨p, eq⟩ <;> rw [eq] <;> rfl
      · rfl
  | activate given =>
      have refused : s.services.lifecycle ≠ .inactive := fun inactive =>
        silent (.inr ⟨inactive, given, rfl⟩)
      rw [step, if_neg refused]
  | deactivate | cleanup =>
      simp only [step]
      split <;> rfl
  | update given =>
      simp only [step]
      split
      · rw [(update_kept given s).taskCmd, gated_taskCmd]
      · rfl
  | taskCmd data =>
      simp only [step]
      split
      · rename_i subscribed
        unfold onTaskCmd
        simp only
        split
        · rfl
        · rename_i stored
          exact absurd (.inl ⟨_, data, rfl, subscribed, rfl, stored⟩) silent
      · rfl
  | gripperTimer | housekeeping | graspResponse | graspResult | moveResponse | moveResult =>
      exact congrArg Task.taskCmd (task_step trivial fun _ => by simp)

theorem taskCmd_run_of_not_stores {s : MoveCatersianImpWithGripper K} {es : List (Event K)}
    (silent : Along step (fun s e => ¬ Stores s e) s es) :
    (run step s es).task.taskCmd = s.task.taskCmd :=
  run_invariant_along step (I := fun t => t.task.taskCmd = s.task.taskCmd)
    (fun _ _ silent same => (taskCmd_step_of_not_stores silent).trans same) silent rfl

theorem taskCmd_step_of_arrives {c : TaskCmd} {s : MoveCatersianImpWithGripper K} {e : Event K}
    (arrives : Arrives c s e) : (s.step e).task.taskCmd = c := by
  obtain ⟨data, rfl, subscribed, rfl, stored⟩ := arrives
  simp [step, subscribed, onTaskCmd, stored]

/-! ## Deferred entries -/

theorem enters_iff {c : TaskCmd} {given : Cycle K} {s : MoveCatersianImpWithGripper K} :
    Enters c s (.update given) ↔
      s.services.lifecycle = .active ∧ s.task.Advances ∧ s.task.taskCmd = c := by
  unfold Enters
  simp only [step, Event.update.injEq, exists_eq', true_and]
  by_cases active : s.services.lifecycle = .active
  · rw [if_pos active, update_lastCmd]
    by_cases advances : s.task.Advances
    · have moved : s.task.lastCmd ≠ s.task.taskCmd := fun same =>
        TaskCmd.next_ne_self s.task.lastCmd (by rw [advances.1, same])
      simp only [active, advances, if_true, true_and]
      exact ⟨And.right, fun same => ⟨same ▸ moved, same⟩⟩
    · simp [advances]
  · simp [active]

/-- After an activation that is not refused, no mode can be entered on the
command it leaves behind. -/
theorem not_enters_of_activate {s : MoveCatersianImpWithGripper K} {a : Activation K}
    {es : List (Event K)} (inactive : s.services.lifecycle = .inactive)
    (silent : Along step (fun s e => ¬ Stores s e) (s.step (.activate a)) es)
    (active : (run step (s.step (.activate a)) es).services.lifecycle = .active) :
    ¬ (run step (s.step (.activate a)) es).task.Advances := by
  cases result : (s.onActivate a).1 with
  | success =>
      intro advances
      have cleared := taskCmd_run_of_not_stores silent
      rw [(justActivated inactive result).taskCmd] at cleared
      exact TaskCmd.next_ne_none _ (by rw [advances.1, cleared])
  | error =>
      have settled : (s.step (.activate a)).services.lifecycle = .finalized := by
        simp only [step, inactive, if_true]
        cases eq : s.onActivate a with
        | mk r s' =>
            rw [eq] at result
            obtain rfl : r = .error := result
            rfl
      have final : (run step (s.step (.activate a)) es).services.lifecycle = .finalized :=
        run_invariant step (I := fun s => s.services.lifecycle = .finalized) (A := fun _ => True)
          (fun s e _ => finalized_step e) (fun _ _ => trivial) settled
      rw [final] at active
      cases active

/-- **Locks ignore commands, exactly.**  No mode is entered on a command that
arrived under a lock if and only if no such command is still standing when an
update starts with its phase finished. -/
theorem deferredEntry_iff (s : MoveCatersianImpWithGripper K) (es : List (Event K)) :
    ¬ DeferredEntry s es ↔ NoStandingCommand s es := by
  constructor
  · rintro none pre e mid given post c rfl arrives locked silent active advances
    refine none ⟨pre, e, mid, .update given, post, c, rfl, arrives, locked, ?_, ?_⟩
    · refine enters_iff.2 ⟨active, advances, ?_⟩
      rw [run_append, run_cons, taskCmd_run_of_not_stores silent, taskCmd_step_of_arrives arrives]
    · rintro before e'' after rfl again
      have stores := ((along_iff_split step _ _ _).1 silent before e'' after rfl)
      rw [run_append, run_cons] at again
      exact absurd (.inl ⟨c, again⟩) stores
  · rintro standing ⟨pre, e, mid, e', post, c, rfl, arrives, locked, enters, again⟩
    obtain ⟨given, rfl⟩ := enters.1
    obtain ⟨active, advances, same⟩ := enters_iff.1 enters
    -- the last message behind the entry: the first one, another, or an activation
    rcases exists_last_event step Stores (step (run step s pre) e) mid with
      silent | ⟨before, e'', after, rfl, stores, silent⟩
    · exact standing pre e mid given post c rfl arrives locked silent active advances
    · have run_before : run step s (pre ++ e :: before) =
          run step (step (run step s pre) e) before := by rw [run_append, run_cons]
      have run_mid : run step s (pre ++ e :: (before ++ e'' :: after)) =
          run step (step (run step s (pre ++ e :: before)) e'') after := by
        rw [run_before, run_append, run_cons, run_append, run_cons]
      rw [← run_before] at stores silent
      rcases stores with ⟨c', arrives'⟩ | ⟨inactive, a, rfl⟩
      · have renamed : c' = c := by
          rw [← same, run_mid, taskCmd_run_of_not_stores silent, taskCmd_step_of_arrives arrives']
        subst renamed
        refine standing (pre ++ e :: before) e'' after given post c' ?_ arrives'
          (again before e'' after rfl arrives') silent ?_ ?_
        · simp
        · simpa using active
        · simpa using advances
      · rw [run_mid] at active advances
        exact not_enters_of_activate inactive silent active advances

/-- `grasp` commanded while `MOVE_POSE_1` is unfinished, and never again. -/
def graspTooEarly : List (Event ℚ) :=
  [.configure (fr3Configuration fr3Scalars), .activate (fr3Activation 0),
    .taskCmd "move_pose_1", .update (fr3Cycle 1 0 1), .taskCmd "grasp", .update (fr3Cycle 1 0 0),
    .update (fr3Cycle 1 0 0)]

theorem graspTooEarly_deferred : DeferredEntry (constructed fr3Params) graspTooEarly := by
  refine ⟨graspTooEarly.take 4, .taskCmd "grasp", [.update (fr3Cycle 1 0 0)],
    .update (fr3Cycle 1 0 0), [], .grasp, rfl, ⟨"grasp", rfl, ?_, ?_, ?_⟩, ?_, ?_, ?_⟩
  · decide +kernel
  · decide +kernel
  · decide
  · show Task.finished _ _ = false
    decide +kernel
  · exact ⟨⟨_, rfl⟩, by decide +kernel, by decide +kernel⟩
  · intro before e'' after split
    have only : e'' = .update (fr3Cycle 1 0 0) :=
      List.mem_singleton.1 (split ▸ List.mem_append_right before List.mem_cons_self)
    rintro ⟨data, message, -⟩
    rw [only] at message
    cases message

end MoveCatersianImpWithGripper

end FrankaRos.Controller
