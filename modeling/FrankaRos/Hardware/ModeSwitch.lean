/-
# Hardware.ModeSwitch -- agreement of running flags and control session

`perform_command_mode_switch` walks the five control modes in a fixed order and
starts or stops each one by itself, closing the robot's session in both cases.
Forgetting buffers and elbow, a call that does not throw is exactly the walk
`Session.switchAll` over the claim flags (`perform_session`).

`switchAgreement_iff` then says when flags and session agree after every
successful switch of a run, so that writes go out in the running mode: the claim
flags of each such switch name no mode but the last one it starts or stops.
Switching from a later mode of the order to an earlier one in a single call
violates that, and loses the session (`velocity_to_effort_disagrees`).
-/
import FrankaRos.Hardware.FrankaHardwareInterface
import FrankaRos.Theory.SessionSwitch

namespace FrankaRos.Hardware

open FrankaRos.Theory

set_option autoImplicit false

set_option linter.unusedSectionVars false

universe u

/-- The modes in the order of `perform_command_mode_switch`. -/
def controlModes : List ControlMode :=
  [.effort, .jointVelocity, .jointPosition, .cartesianVelocity, .cartesianPose]

theorem controlModes_nodup : controlModes.Nodup := by decide

theorem mem_controlModes (m : ControlMode) : m ∈ controlModes := by cases m <;> decide

namespace FrankaHardwareInterface

variable {K : Type u} [MachineArith K]

/-! ## The cascade as a walk over one session -/

/-- The five running flags and the robot's control session. -/
def session (s : FrankaHardwareInterface K) : Session ControlMode :=
  ⟨fun m => s.running (.mode m), s.robot.activeControl⟩

/-- The five claim flags. -/
def claims (s : FrankaHardwareInterface K) : ControlMode → Bool := fun m => s.claimed (.mode m)

theorem session_setRunning (s : FrankaHardwareInterface K) (m : ControlMode) (b : Bool) :
    (s.setRunning (.mode m) b).session = ⟨Function.update s.session.running m b, s.session.handle⟩ := by
  simp only [session, setRunning, Session.mk.injEq, and_true]
  funext n
  simp [Function.update_apply]

theorem session_setRobot (s : FrankaHardwareInterface K) (r : Robot) :
    (s.setRobot r).session = ⟨s.session.running, r.activeControl⟩ := rfl

/-- `f` touches neither a control mode's flags nor the robot. -/
def Quiet (f : FrankaHardwareInterface K → FrankaHardwareInterface K) : Prop :=
  ∀ s, (f s).session = s.session ∧ (f s).claims = s.claims

theorem quiet_id : Quiet (id : FrankaHardwareInterface K → _) := fun _ => ⟨rfl, rfl⟩

theorem quiet_zeroCommands (m : ControlMode) : Quiet (zeroCommands (K := K) m) :=
  fun _ => ⟨rfl, rfl⟩

theorem quiet_startElbow : Quiet (startElbow (K := K)) := by
  intro s
  unfold startElbow
  split
  · constructor
    · simp [session, setRunning, setFirstUpdate]
    · rfl
  · exact ⟨rfl, rfl⟩

theorem quiet_stopElbow : Quiet (stopElbow (K := K)) := by
  intro s
  unfold stopElbow
  split
  · constructor
    · simp [session, setRunning, setClaimed]
    · funext m
      simp [claims, setRunning, setClaimed]
  · exact ⟨rfl, rfl⟩

/-- A branch that does not throw starts or stops its mode as the walk does. -/
def Walks (m : ControlMode) (branch : Branch K) : Prop :=
  ∀ s s', branch s = (true, s') →
    s'.session = s.session.switchOne s.claims m ∧ s'.claims = s.claims

theorem walks_switchMode {m : ControlMode} {f g h : FrankaHardwareInterface K → _}
    (hf : Quiet f) (hg : Quiet g) (hh : Quiet h) (outcome : ControlMode → StartOutcome) :
    Walks m (switchMode (K := K) m f g h outcome) := by
  intro s s' done
  rcases switchMode_cases m f g h outcome s with
    ⟨running, claimed, eq⟩ | ⟨-, -, eq⟩ | ⟨running, claimed, eq⟩ | ⟨same, eq⟩ <;>
    rw [eq, Prod.mk.injEq] at done
  · -- started: the robot is asked with the session `beforeStart` left alone
    obtain rfl := done.2
    obtain ⟨session_g, claims_g⟩ := hg (((f s).setRobot
      ((f s).robot.stopRobot.opened m)).setRunning (.mode m) true)
    obtain ⟨session_f, claims_f⟩ := hf s
    refine ⟨?_, claims_g.trans claims_f⟩
    rw [session_g, session_setRunning, session_setRobot, session_f]
    simp [Session.switchOne, session, claims, running, claimed]
  · exact absurd done.1 (by decide)
  · obtain rfl := done.2
    obtain ⟨session_h, claims_h⟩ := hh ((s.setRobot s.robot.stopRobot).setRunning (.mode m) false)
    refine ⟨?_, claims_h⟩
    rw [session_h, session_setRunning, session_setRobot]
    simp [Session.switchOne, session, claims, running, claimed]
  · obtain rfl := done.2
    exact ⟨by simp [Session.switchOne, session, claims, same], rfl⟩

theorem quiet_setFirstUpdate (i : CommandInterface) (b : Bool) :
    Quiet (setFirstUpdate (K := K) i b) := fun _ => ⟨rfl, rfl⟩

theorem quiet_startPose : Quiet (startPose (K := K)) := by
  intro s
  obtain ⟨session, claims⟩ := quiet_startElbow s
  exact ⟨session, claims⟩

/-- Branches that walk their modes, run in order, walk all of them. -/
theorem session_cascade {modes : List ControlMode} {steps : List (Branch K)}
    (walks : List.Forall₂ Walks modes steps) {s s' : FrankaHardwareInterface K}
    (done : cascade steps s = (true, s')) :
    s'.session = s.session.switchAll s.claims modes ∧ s'.claims = s.claims := by
  induction walks generalizing s with
  | nil =>
      simp only [cascade, Prod.mk.injEq, true_and] at done
      subst done
      exact ⟨rfl, rfl⟩
  | @cons m branch modes steps walk _ ih =>
      unfold cascade at done
      split at done
      · rename_i s₁ first
        obtain ⟨session₁, claims₁⟩ := walk s s₁ first
        obtain ⟨session₂, claims₂⟩ := ih done
        rw [Session.switchAll_cons, ← session₁, ← claims₁]
        exact ⟨session₂, claims₂⟩
      · rename_i threw
        rw [done] at threw
        exact absurd rfl (threw s')

theorem walks_branches (outcome : ControlMode → StartOutcome) :
    List.Forall₂ Walks controlModes (branches (K := K) outcome) :=
  .cons (walks_switchMode (quiet_zeroCommands _) quiet_id quiet_id outcome) <|
  .cons (walks_switchMode (quiet_zeroCommands _) quiet_id quiet_id outcome) <|
  .cons (walks_switchMode quiet_id (quiet_setFirstUpdate _ _) quiet_id outcome) <|
  .cons (walks_switchMode (quiet_zeroCommands _) quiet_startElbow quiet_stopElbow outcome) <|
  .cons (walks_switchMode quiet_id quiet_startPose quiet_stopElbow outcome) .nil

/-- **The refinement.**  A `perform_command_mode_switch` that does not throw walks
the five modes over one session. -/
theorem perform_session {outcome : ControlMode → StartOutcome} {s : FrankaHardwareInterface K}
    {code : ReturnType} (returned : (s.performCommandModeSwitch outcome).1 = .returned code) :
    (s.performCommandModeSwitch outcome).2.session =
      s.session.switchAll s.claims controlModes := by
  unfold performCommandModeSwitch at returned ⊢
  split at returned
  · cases returned
  · rename_i s' done
    have walked := (session_cascade (walks_branches outcome) done).1
    split
    · exact walked
    · exact walked

/-! ## The robot's flags and the buffers -/

/-- What every state of a run satisfies: the robot's flags follow its session,
and every buffer has its length. -/
structure WellFormed (s : FrankaHardwareInterface K) : Prop where
  robot : s.robot.Consistent
  sized : ∀ i, (s.commands i).length = i.size

theorem wellFormed_constructed (exported : List String) :
    (constructed (K := K) exported).WellFormed where
  robot := Robot.consistent_connected
  sized i := by
    rcases i with m | _
    · cases m <;> rfl
    · rfl

theorem WellFormed.setCommands {s : FrankaHardwareInterface K} (wf : s.WellFormed)
    {i : CommandInterface} {v : List (Double K)} (length : v.length = i.size) :
    (s.setCommands i v).WellFormed where
  robot := wf.robot
  sized j := by
    show (Function.update s.commands i v j).length = j.size
    rw [Function.update_apply]
    split
    · rename_i same
      rw [same, length]
    · exact wf.sized j

theorem WellFormed.setRobot {s : FrankaHardwareInterface K} (wf : s.WellFormed) {r : Robot}
    (consistent : r.Consistent) : (s.setRobot r).WellFormed := ⟨consistent, wf.sized⟩

theorem WellFormed.setFirstUpdate {s : FrankaHardwareInterface K} (wf : s.WellFormed)
    (i : CommandInterface) (b : Bool) : (s.setFirstUpdate i b).WellFormed := ⟨wf.robot, wf.sized⟩

theorem WellFormed.zeroCommands {s : FrankaHardwareInterface K} (wf : s.WellFormed)
    (m : ControlMode) : (s.zeroCommands m).WellFormed :=
  wf.setCommands (by rw [List.length_replicate, wf.sized])

theorem WellFormed.startElbow {s : FrankaHardwareInterface K} (wf : s.WellFormed) :
    s.startElbow.WellFormed := by
  unfold FrankaHardwareInterface.startElbow
  split
  · exact ⟨wf.robot, wf.sized⟩
  · exact wf

theorem WellFormed.startPose {s : FrankaHardwareInterface K} (wf : s.WellFormed) :
    s.startPose.WellFormed := ⟨wf.startElbow.robot, wf.startElbow.sized⟩

theorem WellFormed.stopElbow {s : FrankaHardwareInterface K} (wf : s.WellFormed) :
    s.stopElbow.WellFormed := by
  unfold FrankaHardwareInterface.stopElbow
  split
  · exact ⟨wf.robot, wf.sized⟩
  · exact wf

theorem wellFormed_switchMode {m : ControlMode} {f g h : FrankaHardwareInterface K → _}
    (hf : ∀ s, WellFormed s → (f s).WellFormed) (hg : ∀ s, WellFormed s → (g s).WellFormed)
    (hh : ∀ s, WellFormed s → (h s).WellFormed) (outcome : ControlMode → StartOutcome)
    (s : FrankaHardwareInterface K) (wf : s.WellFormed) :
    (switchMode m f g h outcome s).2.WellFormed :=
  switchMode_invariant (fun _ wf => wf.setRobot wf.robot.stopRobot)
    (fun _ wf => wf.setRobot (wf.robot.reopened m)) hf
    (fun s wf => hg (s.setRunning (.mode m) true) ⟨wf.robot, wf.sized⟩)
    (fun s wf => hh (s.setRunning (.mode m) false) ⟨wf.robot, wf.sized⟩) outcome wf

theorem WellFormed.perform {s : FrankaHardwareInterface K} (wf : s.WellFormed)
    (outcome : ControlMode → StartOutcome) :
    (s.performCommandModeSwitch outcome).2.WellFormed := by
  have kept : ∀ s : FrankaHardwareInterface K, WellFormed s → WellFormed s := fun _ wf => wf
  refine perform_invariant (fun branch member => ?_) wf
  simp only [branches, List.mem_cons, List.not_mem_nil, or_false] at member
  rcases member with rfl | rfl | rfl | rfl | rfl
  · exact wellFormed_switchMode (fun _ wf => wf.zeroCommands _) kept kept outcome
  · exact wellFormed_switchMode (fun _ wf => wf.zeroCommands _) kept kept outcome
  · exact wellFormed_switchMode kept (fun _ wf => wf.setFirstUpdate _ _) kept outcome
  · exact wellFormed_switchMode (fun _ wf => wf.zeroCommands _) (fun _ => WellFormed.startElbow)
      (fun _ => WellFormed.stopElbow) outcome
  · exact wellFormed_switchMode kept (fun _ => WellFormed.startPose)
      (fun _ => WellFormed.stopElbow) outcome

theorem WellFormed.initializeCommand {s : FrankaHardwareInterface K} (wf : s.WellFormed)
    {i : CommandInterface} {new : List (Double K)} (length : new.length = i.size) :
    (s.initializeCommand i new).WellFormed := by
  unfold FrankaHardwareInterface.initializeCommand
  split
  · exact ⟨(wf.setCommands length).robot, (wf.setCommands length).sized⟩
  · exact wf

theorem WellFormed.read {s : FrankaHardwareInterface K} (wf : s.WellFormed) (rs : RobotState K) :
    (s.read rs).WellFormed :=
  ((wf.initializeCommand List.length_ofFn).initializeCommand List.length_ofFn).initializeCommand
    List.length_ofFn

theorem wellFormed_step {s : FrankaHardwareInterface K} (wf : s.WellFormed) (e : Event K) :
    (step s e).WellFormed := by
  cases e with
  | prepare start stop =>
      obtain ⟨claims, frame⟩ := prepare_frame start stop s
      rw [FrankaHardwareInterface.step, frame]
      exact ⟨wf.robot, wf.sized⟩
  | perform outcome => exact wf.perform outcome
  | read rs => exact wf.read rs
  | write => exact wf
  | setCommand i index value => exact wf.setCommands (by rw [List.length_set, wf.sized])
  | activate rs => exact wf.read rs
  | deactivate => exact wf.setRobot wf.robot.stopRobot

theorem wellFormed_run {s : FrankaHardwareInterface K} (wf : s.WellFormed) (es : List (Event K)) :
    (run step s es).WellFormed :=
  run_invariant step (I := WellFormed) (A := fun _ => True) (fun _ e _ wf => wellFormed_step wf e) (fun _ _ => trivial) wf

/-! ## Writing in the running mode -/

/-- `write` does not throw, and what it sends is in a mode flagged as running. -/
def WritesInRunningMode (s : FrankaHardwareInterface K) : Prop :=
  (∀ message, s.write.1 ≠ .threw message) ∧
    ∀ o ∈ s.write.2, ∃ m command elbow, o = .sent m command elbow ∧ s.running (.mode m) = true

/-- A dispatched command is sent, in the mode of the buffer it came from. -/
theorem Dispatched.sent {s : FrankaHardwareInterface K} {f : Forwarded K} (ok : s.Dispatched f)
    (wf : s.WellFormed) (agrees : s.session.Agrees) :
    ∃ command elbow, f.writeOnce s.robot = .sent f.mode command elbow := by
  have session : s.robot.activeControl = some f.mode := (agrees f.mode).1 ok.running
  have fits : f.command.length = f.mode.size := by
    rw [ok.command, wf.sized]
    rfl
  unfold Forwarded.writeOnce
  split
  · obtain ⟨sent, eq⟩ := Robot.writeOnce_sent wf.robot session fits
    exact ⟨sent, none, eq⟩
  · rename_i v given
    obtain ⟨rfl, -, -, cartesian⟩ := ok.elbow v given
    have cartesian' : (f.mode = .cartesianVelocity ∧ f.command.length = 6) ∨
        (f.mode = .cartesianPose ∧ f.command.length = 16) := by
      rw [fits]
      exact cartesian.imp (fun mode => ⟨mode, by rw [mode]; rfl⟩) fun mode => ⟨mode, by rw [mode]; rfl⟩
    obtain ⟨sent, eq⟩ := Robot.writeOnceElbow_sent wf.robot session cartesian' (wf.sized .elbow)
    exact ⟨sent, _, eq⟩

theorem writesInRunningMode {s : FrankaHardwareInterface K} (wf : s.WellFormed)
    (agrees : s.session.Agrees) : s.WritesInRunningMode := by
  unfold WritesInRunningMode write
  split
  · exact ⟨fun _ => by simp, by simp⟩
  · rcases s.dispatch_cases with none | ⟨f, one, ok⟩
    · simp [none]
    · obtain ⟨command, elbow, sent⟩ := ok.sent wf agrees
      simp only [one, List.map_cons, List.map_nil, sent]
      refine ⟨fun _ => by simp, fun o member => ?_⟩
      exact ⟨f.mode, command, elbow, List.mem_singleton.1 member, ok.running⟩

/-! ## Agreement over runs -/

/-- Everything but a mode switch and a deactivation leaves flags and session alone. -/
def Event.KeepsSession : Event K → Prop
  | .perform _ => False
  | .deactivate => False
  | _ => True

theorem session_initializeCommand (i : CommandInterface) (new : List (Double K))
    (s : FrankaHardwareInterface K) : (s.initializeCommand i new).session = s.session := by
  unfold initializeCommand
  split <;> rfl

theorem session_read (rs : RobotState K) (s : FrankaHardwareInterface K) :
    (s.read rs).session = s.session := by
  simp only [read, initializePositionCommands, session_initializeCommand]

theorem session_step {s : FrankaHardwareInterface K} {e : Event K} (keeps : e.KeepsSession) :
    (step s e).session = s.session := by
  cases e with
  | prepare start stop =>
      obtain ⟨claims, frame⟩ := prepare_frame start stop s
      rw [step, frame]
      rfl
  | perform outcome => exact keeps.elim
  | read rs => exact session_read rs s
  | write => rfl
  | setCommand i index value => rfl
  | activate rs => exact session_read rs s
  | deactivate => exact keeps.elim

/-- What a successful switch promises: at most one running flag, a flag set
exactly when the robot holds a session of that mode, and writes that send in the
running mode until the next switch or deactivation. -/
def AgreesAfter (s : FrankaHardwareInterface K) : Event K → Prop
  | .perform outcome =>
      let (result, s') := s.performCommandModeSwitch outcome
      result = .returned .ok →
        (∀ m n, s'.running (.mode m) = true → s'.running (.mode n) = true → m = n) ∧
        (∀ m, s'.running (.mode m) = true ↔ s'.robot.activeControl = some m) ∧
        ∀ es : List (Event K), (∀ e ∈ es, e.KeepsSession) → (run step s' es).WritesInRunningMode
  | _ => True

/-- What a successful switch asks of the state it is called in. -/
def SwitchesSoundly (s : FrankaHardwareInterface K) : Event K → Prop
  | .perform outcome => (s.performCommandModeSwitch outcome).1 = .returned .ok →
      s.session.SoundSwitch s.claims controlModes
  | _ => True

theorem agreesAfter_iff {s : FrankaHardwareInterface K} (wf : s.WellFormed) (e : Event K) :
    s.AgreesAfter e ↔ s.SwitchesSoundly e := by
  cases e with
  | perform outcome =>
      apply imp_congr_right
      intro ok
      have walked := perform_session ok
      rw [← Session.agrees_switchAll_iff _ _ controlModes_nodup mem_controlModes, ← walked]
      constructor
      · exact fun promised => promised.2.1
      · intro agrees
        refine ⟨fun _ _ => agrees.at_most_one, agrees, fun es keeps => ?_⟩
        apply writesInRunningMode (wellFormed_run (wf.perform outcome) es)
        rw [run_invariant step (I := fun s' => s'.session = _) (fun s e keeps same =>
          (session_step keeps).trans same) keeps rfl]
        exact agrees
  | _ => exact Iff.rfl

/-- **Agreement of flags and session, exactly.**  Along a run from construction,
every successful mode switch leaves the running flags and the robot's session in
agreement if and only if each of them switches soundly. -/
theorem switchAgreement_iff (exported : List String) (es : List (Event K)) :
    Along step AgreesAfter (constructed exported) es ↔
      Along step SwitchesSoundly (constructed exported) es := by
  simp only [along_iff_split]
  refine forall_congr' fun pre => forall_congr' fun e => forall_congr' fun post =>
    imp_congr_right fun _ => ?_
  exact agreesAfter_iff (wellFormed_run (wellFormed_constructed exported) pre) e

/-- The calls' lists name complete interface sets. -/
def CompleteSets (s : FrankaHardwareInterface K) : Event K → Prop
  | .prepare start stop => ∀ i, (s.countType i start = 0 ∨ s.countType i start = i.size) ∧
      (s.countType i stop = 0 ∨ s.countType i stop = i.size)
  | _ => True

/-- The seven joint interfaces of one type. -/
def jointInterfaces (type : String) : List String :=
  ["fr3_joint1/", "fr3_joint2/", "fr3_joint3/", "fr3_joint4/", "fr3_joint5/", "fr3_joint6/",
    "fr3_joint7/"].map (· ++ type)

def exportedJoints : List String := jointInterfaces "effort" ++ jointInterfaces "velocity"

/-- Start velocity control, then switch to effort control in one call. -/
def velocityToEffort : List (Event ℚ) :=
  [.prepare (jointInterfaces "velocity") [], .perform fun _ => .started,
    .prepare (jointInterfaces "effort") (jointInterfaces "velocity"), .perform fun _ => .started]

/-- The effort branch opens its session first, and the velocity branch then stops it. -/
theorem velocity_to_effort_disagrees :
    Along step CompleteSets (constructed exportedJoints) velocityToEffort ∧
      ¬ Along step AgreesAfter (constructed exportedJoints) velocityToEffort := by
  constructor
  · refine ⟨fun i => ?_, trivial, fun i => ?_, trivial, trivial⟩
    · rcases i with m | _
      · cases m <;> decide
      · decide
    · rcases i with m | _
      · cases m <;> decide
      · decide
  · rintro ⟨-, -, -, agrees, -⟩
    have both := ((agrees (by decide)).2.1 .effort).1 (by decide)
    exact absurd both (by decide)

end FrankaHardwareInterface
end FrankaRos.Hardware
