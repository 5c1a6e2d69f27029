/-
# Controller.PhaseOrder -- the phases of one activation, in order

The effective mode moves only where the gate lets it (`update_lastCmd`): to the
successor of the last mode, once that one is finished.  The modes an activation
runs through are therefore a walk along the chain of phases, whatever commands,
callbacks and measurements arrive, and a walk without its repetitions is an
initial segment of its chain (`Theory.Walk`).
-/
import FrankaRos.Controller.Course
import FrankaRos.Controller.Lifecycle
import FrankaRos.Theory.Walk

namespace FrankaRos.Controller

open FrankaRos.Theory

set_option autoImplicit false

set_option linter.unusedSectionVars false

namespace MoveCatersianImpWithGripper

variable {K : Type} [MachineArith K]

/-- The effective modes of the updates of a run. -/
def effectiveModes : MoveCatersianImpWithGripper K → List (Event K) → List TaskCmd
  | _, [] => []
  | s, e :: es =>
      match e with
      | .update _ => (s.step e).task.lastCmd :: effectiveModes (s.step e) es
      | _ => effectiveModes (s.step e) es

/-- The phases that follow `NONE`. -/
theorem chain_of_phases :
    IsChainOf TaskCmd.next .none [.movePose1, .grasp, .movePose2, .runRl] :=
  .step rfl (.step rfl (.step rfl (.step rfl (.last rfl))))

/-- One update keeps the mode, or moves on from a finished one. -/
theorem update_lastCmd_cases (given : Cycle K) (s : MoveCatersianImpWithGripper K) :
    (s.update given).2.task.lastCmd = s.task.lastCmd ∨
      s.task.lastCmd.next = some (s.update given).2.task.lastCmd ∧
        s.task.finished s.task.lastCmd = true := by
  rw [update_lastCmd]
  split
  · rename_i advances
    exact .inr advances
  · exact .inl rfl

theorem active_step {s : MoveCatersianImpWithGripper K} {e : Event K}
    (active : s.services.lifecycle = .active) (stays : e.KeepsActive) :
    (s.step e).services.lifecycle = .active := by
  rcases step_active active stays with ⟨given, -, eq⟩ | ⟨-, quiet⟩
  · rw [eq, (update_kept given s).services, gated_services]
    exact active
  · rw [quiet.services]
    exact active

theorem isWalk_effectiveModes {s : MoveCatersianImpWithGripper K} {es : List (Event K)}
    (active : s.services.lifecycle = .active) (stays : ∀ e ∈ es, e.KeepsActive) :
    IsWalk TaskCmd.next s.task.lastCmd (effectiveModes s es) := by
  induction es generalizing s with
  | nil => exact List.IsChain.singleton _
  | cons e es ih =>
      have stays_e := stays e List.mem_cons_self
      have rest := ih (active_step active stays_e) fun e' member =>
        stays e' (List.mem_cons_of_mem e member)
      rcases step_active active stays_e with ⟨given, rfl, eq⟩ | ⟨other, quiet⟩
      · refine isWalk_cons.2 ⟨?_, rest⟩
        rw [eq]
        exact (update_lastCmd_cases given s).imp_right And.left
      · rw [quiet.lastCmd] at rest
        cases e <;> first | exact rest | exact absurd rfl (other _)

theorem active_run {s : MoveCatersianImpWithGripper K} {es : List (Event K)}
    (active : s.services.lifecycle = .active) (stays : ∀ e ∈ es, e.KeepsActive) :
    (run step s es).services.lifecycle = .active :=
  run_invariant step (I := fun s => s.services.lifecycle = .active)
    (fun _ _ stays active => active_step active stays) stays active

/-- **The phases of an activation.**  Starting from `NONE`, the effective modes
without repetitions are an initial segment of the chain of phases, and a mode
other than `NONE` is left only by an update that starts with it finished. -/
theorem phase_order {s : MoveCatersianImpWithGripper K} {a : Activation K}
    (inactive : s.services.lifecycle = .inactive) (success : (s.onActivate a).1 = .success)
    {es : List (Event K)} (stays : ∀ e ∈ es, e.KeepsActive) :
    (TaskCmd.none :: effectiveModes (s.step (.activate a)) es).destutter (· ≠ ·) <+:
        [.none, .movePose1, .grasp, .movePose2, .runRl] ∧
      ∀ pre given post, es = pre ++ .update given :: post →
        let t := run step (s.step (.activate a)) pre
        t.task.lastCmd ≠ .none → (t.step (.update given)).task.lastCmd ≠ t.task.lastCmd →
          t.task.finished t.task.lastCmd = true := by
  have fresh := justActivated inactive success
  constructor
  · apply destutter_prefix_chain chain_of_phases
    rw [← fresh.lastCmd]
    exact isWalk_effectiveModes fresh.lifecycle stays
  · rintro pre given post rfl t - left
    have active : t.services.lifecycle = .active :=
      active_run fresh.lifecycle fun e member => stays e (List.mem_append_left _ member)
    rw [step, if_pos active] at left
    exact ((update_lastCmd_cases given t).resolve_left left).2

/-- Two phases of the concrete robot. -/
theorem phase_order_fr3 :
    (TaskCmd.none :: effectiveModes ((fr3Inactive fr3Scalars).step (.activate (fr3Activation 0)))
        [.update (fr3Cycle 1 0 1), .taskCmd "move_pose_1", .update (fr3Cycle 1 0 0),
          .taskCmd "grasp", .update (fr3Cycle 1 0 0)]).destutter (· ≠ ·) <+:
      [.none, .movePose1, .grasp, .movePose2, .runRl] :=
  (phase_order (by decide +kernel) (by decide +kernel)
    (by simp [Event.KeepsActive])).1

end MoveCatersianImpWithGripper

end FrankaRos.Controller
