/-
# Controller.GripperRequests -- two requests behind one timer

One callback serves the requests for both gripper actions.  It looks at the `Move` first,
and returns when its server is not there, with the request standing: the `Grasp` is not even
looked at.  So a `Grasp` that could be sent waits for two callbacks at most exactly when no
`Move` is pending whose server the first of them misses (`requests_within_two`); a `Move`
never waits.  As long as that server stays away, no callback sends the `Grasp`
(`grasp_starves`).

Between two callbacks anything may happen that leaves the timer and the request for the
`Move` alone (`Undisturbed`).
-/
import FrankaRos.Controller.Course
import FrankaRos.Controller.Lifecycle

namespace FrankaRos.Controller

open FrankaRos.Theory

set_option autoImplicit false

set_option linter.unusedSectionVars false

/-! ## One action -/

namespace GripperAction

/-- A goal is asked for, and there is a client to send it. -/
def Pending (a : GripperAction) : Prop := a.requestSend = true ∧ a.client ≠ .none

instance (a : GripperAction) : Decidable a.Pending := inferInstanceAs (Decidable (_ ∧ _))

/-- What a callback does to one action, when it gets to it. -/
def served (server : Bool) (a : GripperAction) : GripperAction :=
  if a.requestSend = false then a
  else if a.client = .none then a.fail
  else if server = false then a
  else a.send

theorem served_goalsSent_iff (server : Bool) (a : GripperAction) :
    a.goalsSent < (a.served server).goalsSent ↔ a.Pending ∧ server = true := by
  unfold served Pending
  split
  · rename_i idle
    simp [idle]
  split
  · rename_i client
    simp [client, fail]
  split
  · rename_i away
    simp [away]
  · rename_i requested client away
    simp only [Bool.not_eq_false] at requested away
    simp [requested, client, away, send]

/-- A request stands when its server is away. -/
theorem served_requestSend_iff (server : Bool) (a : GripperAction) :
    (a.served server).requestSend = true ↔ a.Pending ∧ server = false := by
  unfold served Pending
  split
  · rename_i idle
    simp [idle]
  split
  · rename_i client
    simp [client, fail]
  split
  · rename_i requested client away
    simp only [Bool.not_eq_false] at requested
    simp [requested, client, away]
  · rename_i away
    simp [away, send]

end GripperAction

namespace MoveCatersianImpWithGripper

variable {K : Type} [MachineArith K]

/-- A timer callback that finds the servers of `Move` and `Grasp` like this sends a goal. -/
def Sends (action : Gripper → GripperAction) (servers : Bool × Bool)
    (s : MoveCatersianImpWithGripper K) : Prop :=
  (action s.gripper).goalsSent <
    (action (s.step (.gripperTimer servers.1 servers.2)).gripper).goalsSent

instance (action : Gripper → GripperAction) (servers : Bool × Bool)
    (s : MoveCatersianImpWithGripper K) : Decidable (s.Sends action servers) :=
  inferInstanceAs (Decidable (_ < _))

/-- One of two callbacks sends a goal, with the events between them. -/
def SentWithinTwo (action : Gripper → GripperAction) (first second : Bool × Bool)
    (between : List (Event K)) (s : MoveCatersianImpWithGripper K) : Prop :=
  s.Sends action first ∨
    (run step (s.step (.gripperTimer first.1 first.2)) between).Sends action second

instance (action : Gripper → GripperAction) (first second : Bool × Bool)
    (between : List (Event K)) (s : MoveCatersianImpWithGripper K) :
    Decidable (s.SentWithinTwo action first second between) :=
  inferInstanceAs (Decidable (_ ∨ _))

/-- The event is no callback of the timer, keeps it, and leaves the request for a `Move`. -/
structure Undisturbed (s : MoveCatersianImpWithGripper K) (e : Event K) : Prop where
  other : ∀ moveServer graspServer, e ≠ .gripperTimer moveServer graspServer
  timer : (s.step e).services.gripperTimer = true
  move : (s.step e).gripper.move.requestSend = s.gripper.move.requestSend

/-! ## One callback -/

theorem callback_move {s : MoveCatersianImpWithGripper K} (timer : s.services.gripperTimer = true)
    (moveServer graspServer : Bool) :
    (s.step (.gripperTimer moveServer graspServer)).gripper.move =
      s.gripper.move.served moveServer := by
  rw [step, if_pos timer]
  simp only [gripperTimer, GripperAction.served]
  by_cases requested : s.gripper.move.requestSend = true
  · have asked : ¬ s.gripper.move.requestSend = false := by simp [requested]
    rw [if_pos requested, if_neg asked]
    repeat' split
    all_goals rfl
  · rw [if_neg requested, if_pos ((Bool.not_eq_true _).mp requested)]
    repeat' split
    all_goals rfl

/-- A callback gets to the `Grasp` when no `Move` is asked for. -/
theorem callback_grasp {s : MoveCatersianImpWithGripper K} (timer : s.services.gripperTimer = true)
    (moveServer graspServer : Bool) :
    (s.step (.gripperTimer moveServer graspServer)).gripper.grasp =
      if s.gripper.move.requestSend then s.gripper.grasp
      else s.gripper.grasp.served graspServer := by
  rw [step, if_pos timer]
  simp only [gripperTimer, GripperAction.served]
  by_cases requested : s.gripper.move.requestSend = true
  · rw [if_pos requested, if_pos requested]
    repeat' split
    all_goals rfl
  · rw [if_neg requested, if_neg requested]
    repeat' split
    all_goals rfl

theorem sends_move_iff {s : MoveCatersianImpWithGripper K} (timer : s.services.gripperTimer = true)
    (moveServer graspServer : Bool) :
    s.Sends Gripper.move (moveServer, graspServer) ↔
      s.gripper.move.Pending ∧ moveServer = true := by
  rw [Sends, callback_move timer, GripperAction.served_goalsSent_iff]

theorem sends_grasp_iff {s : MoveCatersianImpWithGripper K} (timer : s.services.gripperTimer = true)
    (moveServer graspServer : Bool) :
    s.Sends Gripper.grasp (moveServer, graspServer) ↔
      s.gripper.move.requestSend = false ∧ s.gripper.grasp.Pending ∧ graspServer = true := by
  rw [Sends, callback_grasp timer]
  split
  · rename_i requested
    simp [requested]
  · rename_i idle
    rw [Bool.not_eq_true] at idle
    simp [GripperAction.served_goalsSent_iff, idle]

/-! ## Between two callbacks -/

theorem grasp_gated (s : MoveCatersianImpWithGripper K) :
    s.gated.gripper.grasp = s.gripper.grasp ∨
      s.gated.gripper.grasp = { s.gripper.grasp with
        requestSend := true, goalSent := false, active := false, done := false
        success := false } := by
  by_cases advances : s.task.Advances
  · rw [gated_of_advances advances]
    cases s.task.taskCmd <;> first | exact .inl rfl | exact .inr rfl
  · rw [gated_of_not_advances advances]
    exact .inl rfl

/-- Only the timer takes up a request for a `Grasp`. -/
theorem pending_step {s : MoveCatersianImpWithGripper K} {e : Event K}
    (other : ∀ moveServer graspServer, e ≠ .gripperTimer moveServer graspServer)
    (pending : s.gripper.grasp.Pending) : (s.step e).gripper.grasp.Pending := by
  cases e with
  | configure given =>
      simp only [step]
      split
      · rcases onConfigure_cases given s with eq | ⟨p, eq⟩ <;> rw [eq]
        · exact pending
        · exact ⟨pending.1, Option.some_ne_none _⟩
      · exact pending
  | activate given =>
      obtain ⟨refs, kinematics, i, m, warmup, task, gripper, frame, ⟨grasp, -⟩, -⟩ :=
        onActivate_frame given s
      simp only [step]
      split
      · rcases eq : s.onActivate given with ⟨result, s'⟩
        rw [eq] at frame
        obtain rfl : s' = _ := frame
        rw [← grasp] at pending
        cases result <;> exact pending
      · exact pending
  | update given =>
      simp only [step]
      split
      · rw [(update_kept given s).grasp]
        rcases grasp_gated s with kept | entered
        · rwa [kept]
        · rw [entered]
          exact ⟨rfl, pending.2⟩
      · exact pending
  | gripperTimer moveServer graspServer => exact absurd rfl (other moveServer graspServer)
  | housekeeping =>
      simp only [step, housekeeping, saveLogToTxt]
      repeat' split
      all_goals exact pending
  | taskCmd =>
      simp only [step, onTaskCmd]
      repeat' split
      all_goals exact pending
  | graspResponse goal accepted =>
      simp only [step]
      split
      · cases accepted <;> exact pending
      · exact pending
  | deactivate | cleanup | graspResult | moveResponse | moveResult =>
      simp only [step]
      split <;> exact pending

/-- Undisturbed events keep the timer, the `Grasp` and what there is of a `Move`. -/
theorem undisturbed_run {s : MoveCatersianImpWithGripper K} {between : List (Event K)}
    (undisturbed : Along step Undisturbed s between) (timer : s.services.gripperTimer = true)
    (pending : s.gripper.grasp.Pending) :
    (run step s between).services.gripperTimer = true ∧
      (run step s between).gripper.grasp.Pending ∧
      (run step s between).gripper.move.requestSend = s.gripper.move.requestSend := by
  refine run_invariant_along step (I := fun t => t.services.gripperTimer = true ∧
    t.gripper.grasp.Pending ∧ t.gripper.move.requestSend = s.gripper.move.requestSend)
    ?_ undisturbed ⟨timer, pending, rfl⟩
  rintro t e here ⟨-, pending, move⟩
  exact ⟨here.timer, pending_step here.other pending, here.move.trans move⟩

/-! ## Two callbacks -/

/-- **Who waits for whom.**  A `Grasp` that could be sent is sent by one of two callbacks
exactly when the first of them finds no pending `Move` or finds its server; a `Move` that
could be sent is sent by the first. -/
theorem requests_within_two {s : MoveCatersianImpWithGripper K}
    (timer : s.services.gripperTimer = true) (between : List (Event K)) :
    (s.gripper.grasp.Pending → ∀ moveFirst moveSecond,
        Along step Undisturbed (s.step (.gripperTimer moveFirst true)) between →
        (s.SentWithinTwo Gripper.grasp (moveFirst, true) (moveSecond, true) between ↔
          (s.gripper.move.Pending → moveFirst = true))) ∧
      (s.gripper.move.Pending → ∀ graspFirst graspSecond,
        s.SentWithinTwo Gripper.move (true, graspFirst) (true, graspSecond) between) := by
  refine ⟨fun pending moveFirst moveSecond undisturbed => ?_, fun pending _ _ =>
    .inl ((sends_move_iff timer _ _).2 ⟨pending, rfl⟩)⟩
  rw [SentWithinTwo, sends_grasp_iff timer]
  cases requested : s.gripper.move.requestSend with
  | false =>
      refine iff_of_true (.inl ⟨rfl, pending, rfl⟩) fun move => ?_
      exact absurd (requested.symm.trans move.1) Bool.false_ne_true
  | true =>
      have behind : (s.step (.gripperTimer moveFirst true)).gripper.grasp = s.gripper.grasp := by
        rw [callback_grasp timer, if_pos requested]
      have still : (s.step (.gripperTimer moveFirst true)).services.gripperTimer = true := by
        rw [(quiet_step (e := .gripperTimer moveFirst true) (by exact trivial)).services, timer]
      obtain ⟨later, waiting, move⟩ := undisturbed_run undisturbed still (by rwa [behind])
      -- the request for the `Move` is out of the way unless the first callback left it standing
      have gone : (s.gripper.move.served moveFirst).requestSend = false ↔
          (s.gripper.move.Pending → moveFirst = true) := by
        rw [← Bool.not_eq_true, GripperAction.served_requestSend_iff, not_and, Bool.not_eq_false]
      rw [sends_grasp_iff later, move, callback_move timer, gone]
      simp [waiting]

/-! ## Any number of callbacks -/

/-- The event leaves a pending `Move` standing, and is no callback that finds its server. -/
def LeavesMove (s : MoveCatersianImpWithGripper K) (e : Event K) : Prop :=
  (s.step e).gripper.move.requestSend = true ∧
    ∀ moveServer graspServer, e = .gripperTimer moveServer graspServer → moveServer = false

/-- **While a `Move` waits for its server, no callback sends a `Grasp`.** -/
theorem grasp_starves {s : MoveCatersianImpWithGripper K} {es : List (Event K)}
    (requested : s.gripper.move.requestSend = true) (waits : Along step LeavesMove s es) :
    Along step (fun t e => ∀ moveServer graspServer,
      e = .gripperTimer moveServer graspServer → ¬ t.Sends Gripper.grasp (moveServer, graspServer))
      s es := by
  refine Along.of_invariant step (I := fun t => t.gripper.move.requestSend = true)
    (fun t e here _ => here.1) (fun t e here requested moveServer graspServer _ sends => ?_)
    waits requested
  by_cases timer : t.services.gripperTimer = true
  · exact absurd (requested.symm.trans ((sends_grasp_iff timer _ _).1 sends).1) (by decide)
  · rw [Sends, step, if_neg timer] at sends
    exact absurd sends (lt_irrefl _)

/-- A concrete robot that asks for an open gripper during its warm-up and then grasps. -/
def graspBehindMove : List (Event ℚ) :=
  [.configure (fr3Configuration { fr3Scalars with warmupSeconds := Double.lit 1 }),
    .activate (fr3Activation 0), .update (fr3Cycle (1 / 2) 0 0), .update (fr3Cycle 1 0 0),
    .taskCmd "move_pose_1", .update (fr3Cycle 1 0 0), .taskCmd "grasp", .update (fr3Cycle 1 0 0)]

theorem requests_within_two_graspBehindMove :
    (run step (constructed fr3Params) graspBehindMove).SentWithinTwo Gripper.grasp (true, true)
      (false, true) [.update (fr3Cycle 1 0 0)] := by
  have timer : (run step (constructed fr3Params) graspBehindMove).services.gripperTimer = true := by
    decide +kernel
  refine ((requests_within_two timer [.update (fr3Cycle 1 0 0)]).1 (by decide +kernel) true false
    ⟨⟨nofun, by decide +kernel, by decide +kernel⟩, trivial⟩).2 fun _ => rfl

/-- Its `Move` server is away. -/
theorem grasp_not_sent_graspBehindMove :
    (run step (constructed fr3Params) graspBehindMove).gripper.grasp.Pending ∧
      ¬ (run step (constructed fr3Params) graspBehindMove).SentWithinTwo Gripper.grasp
        (false, true) (false, true) [] := by
  decide +kernel

end MoveCatersianImpWithGripper

end FrankaRos.Controller
