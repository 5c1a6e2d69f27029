/-
# Hardware.ElbowHandover -- switching between the Cartesian interfaces with the elbow

The elbow has no branch of its own in `perform_command_mode_switch`: a Cartesian
branch that starts its mode also starts a claimed elbow, and one that stops its
mode also stops a running elbow and withdraws its claim.  A single switch from
one Cartesian interface to the other, with the elbow on both sides, therefore
never ends with the elbow running:

* from velocity to pose, the velocity branch withdraws the claim that the request
  has just made, and the pose branch finds none;
* from pose to velocity, the velocity branch finds the elbow running already, and
  the pose branch stops it afterwards.
-/
import FrankaRos.Hardware.FrankaHardwareInterface

namespace FrankaRos.Hardware

open FrankaRos.Theory

set_option autoImplicit false

set_option linter.unusedSectionVars false

universe u

/-- The interfaces an elbow command can go with. -/
inductive Cartesian where
  | velocity
  | pose
  deriving DecidableEq, Repr

namespace Cartesian

def mode : Cartesian → ControlMode
  | velocity => .cartesianVelocity
  | pose => .cartesianPose

def other : Cartesian → Cartesian
  | velocity => pose
  | pose => velocity

end Cartesian

namespace FrankaHardwareInterface

variable {K : Type u} [MachineArith K]

/-! ## What a request claims -/

/-- The claim of an interface after a successful preparation. -/
def requested (start stop : List String) (s : FrankaHardwareInterface K) (i : CommandInterface) :
    Bool :=
  if s.countType i start = i.size then true
  else if s.countType i stop = i.size then false
  else s.claimed i

theorem prepareInterface_claimed {start stop : List String} {i : CommandInterface}
    {s s' : FrankaHardwareInterface K} {code : ReturnType}
    (done : prepareInterface start stop i s = (.returned code, s')) :
    s'.exported = s.exported ∧ s'.claimed = Function.update s.claimed i (s.requested start stop i) := by
  have same : ∀ b, (s.setClaimed i b).countType i start = s.countType i start := fun _ => rfl
  unfold prepareInterface at done
  simp only at done
  split at done
  · cases (Prod.mk.inj done).1
  split at done
  · cases (Prod.mk.inj done).1
  · obtain ⟨-, rfl⟩ := Prod.mk.inj done
    constructor
    · split <;> split <;> rfl
    · by_cases starts : s.countType i start = i.size <;>
        by_cases stops : s.countType i stop = i.size <;>
        simp [requested, starts, stops, setClaimed]

theorem prepareLoop_claimed {start stop : List String} {rows : List CommandInterface}
    (nodup : rows.Nodup) {s s' : FrankaHardwareInterface K} {code : ReturnType}
    (done : prepareLoop start stop rows s = (.returned code, s')) (i : CommandInterface) :
    s'.claimed i = if i ∈ rows then s.requested start stop i else s.claimed i := by
  induction rows generalizing s with
  | nil =>
      obtain ⟨-, rfl⟩ := Prod.mk.inj done
      simp
  | cons j rest ih =>
      obtain ⟨outside, nodup⟩ := List.nodup_cons.1 nodup
      unfold prepareLoop at done
      split at done
      · rename_i s₁ first
        obtain ⟨exported, claimed⟩ := prepareInterface_claimed first
        have counts : ∀ k names, s₁.countType k names = s.countType k names := by
          intro k names
          simp only [countType, containsInterfaceType, exported]
        rw [ih nodup done]
        by_cases here : i = j
        · subst here
          simp [outside, claimed]
        · simp [requested, counts, claimed, here]
      · rename_i thrown
        rw [done] at thrown
        exact absurd rfl (thrown _ _)

/-- **What a successful preparation does**, to every interface at once. -/
theorem claimed_prepare {start stop : List String} {s : FrankaHardwareInterface K}
    (prepared : (s.prepareCommandModeSwitch start stop).1 = .returned .ok) (i : CommandInterface) :
    (s.prepareCommandModeSwitch start stop).2.claimed i = s.requested start stop i := by
  unfold prepareCommandModeSwitch at prepared ⊢
  split at prepared
  · cases prepared
  · rename_i short
    rw [if_neg short]
    rcases done : prepareLoop start stop commandInterfacesInfo s with ⟨result, s'⟩
    rw [done] at prepared
    subst prepared
    have listed : i ∈ commandInterfacesInfo := by
      rcases i with m | _
      · cases m <;> decide
      · decide
    simpa [listed] using prepareLoop_claimed (by decide) done i

/-! ## The elbow along the cascade -/

theorem cascade_append {pre post : List (Branch K)} {s s' : FrankaHardwareInterface K}
    (done : cascade (pre ++ post) s = (true, s')) :
    ∃ s₁, cascade pre s = (true, s₁) ∧ cascade post s₁ = (true, s') := by
  induction pre generalizing s with
  | nil => exact ⟨s, rfl, done⟩
  | cons branch rest ih =>
      simp only [List.cons_append, cascade] at done ⊢
      split at done
      · exact ih done
      · rename_i thrown
        rw [done] at thrown
        exact absurd rfl (thrown _)

theorem cascade_of_returned {outcome : ControlMode → StartOutcome} {s : FrankaHardwareInterface K}
    {code : ReturnType} (returned : (s.performCommandModeSwitch outcome).1 = .returned code) :
    cascade (branches outcome) s = (true, (s.performCommandModeSwitch outcome).2) := by
  unfold performCommandModeSwitch at returned ⊢
  split at returned
  · cases returned
  · rename_i s' done
    rw [done]
    split <;> rfl

/-- `f` does not touch the flags of `i`. -/
def KeepsFlags (i : CommandInterface) (f : FrankaHardwareInterface K → FrankaHardwareInterface K) :
    Prop :=
  ∀ s, (f s).running i = s.running i ∧ (f s).claimed i = s.claimed i

theorem keepsFlags_startElbow (m : ControlMode) : KeepsFlags (.mode m) (startElbow (K := K)) := by
  intro s
  unfold startElbow
  split <;> simp [setRunning, setFirstUpdate]

theorem keepsFlags_stopElbow (m : ControlMode) : KeepsFlags (.mode m) (stopElbow (K := K)) := by
  intro s
  unfold stopElbow
  split <;> simp [setRunning, setClaimed]

/-- A branch of another mode leaves the flags of `i` alone. -/
theorem switchMode_flags {i : CommandInterface} {m : ControlMode} (other : i ≠ .mode m)
    {f g h : FrankaHardwareInterface K → FrankaHardwareInterface K} (hf : KeepsFlags i f)
    (hg : KeepsFlags i g) (hh : KeepsFlags i h) (outcome : ControlMode → StartOutcome)
    {s : FrankaHardwareInterface K} {b c : Bool} (flags : s.running i = b ∧ s.claimed i = c) :
    (switchMode m f g h outcome s).2.running i = b ∧
      (switchMode m f g h outcome s).2.claimed i = c := by
  have set : ∀ (s : FrankaHardwareInterface K) d, (s.setRunning (.mode m) d).running i = s.running i := by
    intro s d
    simp [setRunning, other]
  refine switchMode_invariant (I := fun s => s.running i = b ∧ s.claimed i = c) ?_ ?_ ?_ ?_ ?_
    outcome flags
  · exact fun _ flags => flags
  · exact fun _ flags => flags
  · intro s flags
    rwa [(hf s).1, (hf s).2]
  · intro s flags
    rw [(hg _).1, (hg _).2, set]
    exact flags
  · intro s flags
    rw [(hh _).1, (hh _).2, set]
    exact flags

theorem keepsFlags_zeroCommands (i : CommandInterface) (m : ControlMode) :
    KeepsFlags i (zeroCommands (K := K) m) := fun _ => ⟨rfl, rfl⟩

theorem keepsFlags_setFirstUpdate (i j : CommandInterface) (b : Bool) :
    KeepsFlags i (setFirstUpdate (K := K) j b) := fun _ => ⟨rfl, rfl⟩

theorem keepsFlags_id (i : CommandInterface) :
    KeepsFlags i (id : FrankaHardwareInterface K → _) := fun _ => ⟨rfl, rfl⟩

/-- The three joint branches, which have nothing to do with the elbow. -/
def jointBranches (outcome : ControlMode → StartOutcome) : List (Branch K) :=
  [switchEffort outcome, switchJointVelocity outcome, switchJointPosition outcome]

theorem jointBranches_flags (i : CommandInterface)
    (apart : i ∉ [.mode .effort, .mode .jointVelocity, .mode .jointPosition])
    {outcome : ControlMode → StartOutcome} {s s' : FrankaHardwareInterface K}
    (done : cascade (jointBranches outcome) s = (true, s')) :
    s'.running i = s.running i ∧ s'.claimed i = s.claimed i := by
  simp only [List.mem_cons, List.not_mem_nil, or_false, not_or] at apart
  obtain ⟨effort, velocity, position⟩ := apart
  have kept : ∀ branch ∈ jointBranches outcome, ∀ t : FrankaHardwareInterface K,
      (t.running i = s.running i ∧ t.claimed i = s.claimed i) →
      (branch t).2.running i = s.running i ∧ (branch t).2.claimed i = s.claimed i := by
    intro branch member t flags
    simp only [jointBranches, List.mem_cons, List.not_mem_nil, or_false] at member
    rcases member with rfl | rfl | rfl
    · exact switchMode_flags effort (keepsFlags_zeroCommands i _) (keepsFlags_id i)
        (keepsFlags_id i) outcome flags
    · exact switchMode_flags velocity (keepsFlags_zeroCommands i _) (keepsFlags_id i)
        (keepsFlags_id i) outcome flags
    · exact switchMode_flags position (keepsFlags_id i) (keepsFlags_setFirstUpdate i _ _)
        (keepsFlags_id i) outcome flags
  have reached := cascade_invariant kept ⟨rfl, rfl⟩
  rw [done] at reached
  exact reached

theorem stopElbow_running (s : FrankaHardwareInterface K) : s.stopElbow.running .elbow = false := by
  unfold stopElbow
  split
  · simp [setRunning, setClaimed]
  · simp_all

/-- A Cartesian branch that stops its mode ends with the elbow not running, and
with its claim withdrawn if it was running. -/
theorem elbow_stopped {m : ControlMode} {f g : FrankaHardwareInterface K → FrankaHardwareInterface K}
    {outcome : ControlMode → StartOutcome} {s s' : FrankaHardwareInterface K}
    (running : s.running (.mode m) = true) (unclaimed : s.claimed (.mode m) = false)
    (done : switchMode m f g stopElbow outcome s = (true, s')) :
    s'.running .elbow = false ∧ (s.running .elbow = true → s'.claimed .elbow = false) := by
  simp only [switchMode, running, unclaimed, Bool.true_eq_false, false_and, if_false, true_and,
    if_true] at done
  obtain ⟨-, rfl⟩ := Prod.mk.inj done
  refine ⟨stopElbow_running _, ?_⟩
  intro elbow
  have before : ((s.setRobot s.robot.stopRobot).setRunning (.mode m) false).running .elbow = true := by
    simpa [setRunning, setRobot] using elbow
  simp [stopElbow, before, setClaimed]

/-- Without a claim, no branch starts the elbow. -/
theorem elbow_stays_off (outcome : ControlMode → StartOutcome) {s : FrankaHardwareInterface K}
    (off : s.running .elbow = false ∧ s.claimed .elbow = false) :
    (switchCartesianPose outcome s).2.running .elbow = false := by
  have kept : (switchCartesianPose outcome s).2.running .elbow = false ∧
      (switchCartesianPose outcome s).2.claimed .elbow = false := by
    refine switchMode_invariant (I := fun s => s.running .elbow = false ∧ s.claimed .elbow = false)
      ?_ ?_ ?_ ?_ ?_ outcome off
    · exact fun _ off => off
    · exact fun _ off => off
    · exact fun _ off => off
    · intro s off
      simp [startPose, startElbow, setRunning, setFirstUpdate, off.1, off.2]
    · intro s off
      simp [stopElbow, setRunning, off.1, off.2]
  exact kept.1

/-- **The elbow is lost.**  A switch that takes down the Cartesian interface the
elbow runs with leaves the elbow not running. -/
theorem elbow_perform {c : Cartesian} {outcome : ControlMode → StartOutcome}
    {s : FrankaHardwareInterface K} {code : ReturnType}
    (running : s.running (.mode c.mode) = true) (unclaimed : s.claimed (.mode c.mode) = false)
    (elbow : s.running .elbow = true)
    (returned : (s.performCommandModeSwitch outcome).1 = .returned code) :
    (s.performCommandModeSwitch outcome).2.running .elbow = false := by
  have done : cascade (jointBranches outcome ++
      [switchCartesianVelocity outcome, switchCartesianPose outcome]) s =
      (true, (s.performCommandModeSwitch outcome).2) := cascade_of_returned returned
  generalize (s.performCommandModeSwitch outcome).2 = s' at done ⊢
  obtain ⟨s₁, joints, cartesian⟩ := cascade_append done
  simp only [cascade] at cartesian
  split at cartesian
  · rename_i s₂ velocity
    split at cartesian
    · rename_i s₃ pose
      obtain ⟨-, rfl⟩ := Prod.mk.inj cartesian
      cases c with
      | velocity =>
          obtain ⟨running₁, unclaimed₁⟩ :=
            jointBranches_flags (.mode .cartesianVelocity) (by decide) joints
          obtain ⟨elbow₁, -⟩ := jointBranches_flags .elbow (by decide) joints
          obtain ⟨off, withdrawn⟩ := elbow_stopped (running₁.trans running)
            (unclaimed₁.trans unclaimed) velocity
          have stays := elbow_stays_off outcome ⟨off, withdrawn (elbow₁.trans elbow)⟩
          rwa [pose] at stays
      | pose =>
          obtain ⟨running₁, unclaimed₁⟩ :=
            jointBranches_flags (.mode .cartesianPose) (by decide) joints
          have kept : (switchCartesianVelocity outcome s₁).2.running (.mode .cartesianPose) = true ∧
              (switchCartesianVelocity outcome s₁).2.claimed (.mode .cartesianPose) = false :=
            switchMode_flags (by decide) (keepsFlags_zeroCommands _ _) (keepsFlags_startElbow _)
              (keepsFlags_stopElbow _) outcome
              ⟨running₁.trans running, unclaimed₁.trans unclaimed⟩
          rw [velocity] at kept
          exact (elbow_stopped kept.1 kept.2 pose).1
    · rename_i thrown
      rw [cartesian] at thrown
      exact absurd rfl (thrown _)
  · rename_i thrown
    rw [cartesian] at thrown
    exact absurd rfl (thrown _)

/-! ## The hand-over -/

/-- A request that stops one Cartesian interface and the elbow, and starts the
other one and the elbow. -/
structure Handover (c : Cartesian) (start stop : List String) (s : FrankaHardwareInterface K) :
    Prop where
  stops : s.countType (.mode c.mode) stop = c.mode.size
  leaves : s.countType (.mode c.mode) start = 0
  starts : s.countType (.mode c.other.mode) start = c.other.mode.size
  stopsElbow : s.countType .elbow stop = 2
  startsElbow : s.countType .elbow start = 2

/-- Cycles and controller writes: everything between two switches. -/
def Event.IsCycle : Event K → Prop
  | .read _ => True
  | .write => True
  | .setCommand _ _ _ => True
  | _ => False

/-- What the hand-over is for: the other Cartesian interface runs with the elbow,
and after the next read every write forwards both commands. -/
def HandedOver (c : Cartesian) (s : FrankaHardwareInterface K) : Prop :=
  s.running (.mode c.other.mode) = true ∧ s.running .elbow = true ∧
    ∀ (rs : RobotState K) (es : List (Event K)), (∀ e ∈ es, e.IsCycle) →
      let t := run step (s.read rs) es
      t.allFinite = true → t.write.2 =
        [.sent c.other.mode (t.commands (.mode c.other.mode)) (some (t.commands .elbow))]

/-- **No hand-over succeeds.**  Whatever state it starts in, in either direction
and whatever the robot answers, a hand-over of which both calls return OK does
not end with the other Cartesian interface and the elbow running. -/
theorem not_handedOver {c : Cartesian} {s : FrankaHardwareInterface K}
    (running : s.running (.mode c.mode) = true) (elbow : s.running .elbow = true)
    {start stop : List String} (request : Handover c start stop s)
    (prepared : (s.prepareCommandModeSwitch start stop).1 = .returned .ok)
    {outcome : ControlMode → StartOutcome}
    (performed : ((s.prepareCommandModeSwitch start stop).2.performCommandModeSwitch outcome).1 =
      .returned .ok) :
    ¬ HandedOver c
      ((s.prepareCommandModeSwitch start stop).2.performCommandModeSwitch outcome).2 := by
  rintro ⟨-, handed, -⟩
  obtain ⟨claims, frame⟩ := prepare_frame start stop s
  have unclaimed : (s.prepareCommandModeSwitch start stop).2.claimed (.mode c.mode) = false := by
    have different : 0 ≠ CommandInterface.size (.mode c.mode) := by cases c <;> decide
    have stops : s.countType (.mode c.mode) stop = CommandInterface.size (.mode c.mode) :=
      request.stops
    rw [claimed_prepare prepared, requested, request.leaves, if_neg different, if_pos stops]
  have lost := elbow_perform (by rw [frame]; exact running) unclaimed
    (by rw [frame]; exact elbow) performed
  rw [lost] at handed
  cases handed

/-! ## On a concrete robot -/

def velocityInterfaces : List String :=
  ["vx", "vy", "vz", "wx", "wy", "wz"].map (· ++ "/cartesian_velocity")

def poseInterfaces : List String :=
  ["0", "1", "2", "3", "4", "5", "6", "7", "8", "9", "10", "11", "12", "13", "14", "15"].map
    (· ++ "/cartesian_pose_command")

def elbowInterfaces : List String := ["joint_3_position", "joint_4_sign"].map (· ++ "/elbow_command")

def exportedCartesian : List String := velocityInterfaces ++ poseInterfaces ++ elbowInterfaces

/-- One Cartesian interface and the elbow, started and read once. -/
def cartesianRun (interfaces : List String) : List (Event ℚ) :=
  [.prepare (interfaces ++ elbowInterfaces) [], .perform fun _ => .started,
    .read ⟨fun _ => 0, fun _ => 0, fun _ => 0⟩]

/-- From pose to velocity. -/
theorem not_handedOver_pose :
    let s := run step (constructed exportedCartesian) (cartesianRun poseInterfaces)
    let s' := (s.prepareCommandModeSwitch (velocityInterfaces ++ elbowInterfaces)
      (poseInterfaces ++ elbowInterfaces)).2
    ¬ HandedOver .pose (s'.performCommandModeSwitch fun _ => .started).2 :=
  not_handedOver (by decide) (by decide) ⟨by decide, by decide, by decide, by decide, by decide⟩
    (by decide) (by decide)

/-- From velocity to pose: both calls return OK, and the next write after a read
sends the pose alone. -/
theorem velocity_to_pose_loses_elbow :
    let s := run step (constructed exportedCartesian) (cartesianRun velocityInterfaces)
    let start := poseInterfaces ++ elbowInterfaces
    let stop := velocityInterfaces ++ elbowInterfaces
    let s' := (s.prepareCommandModeSwitch start stop).2
    let s'' := (s'.performCommandModeSwitch fun _ => .started).2
    s.running (.mode .cartesianVelocity) = true ∧ s.running .elbow = true ∧
      Handover .velocity start stop s ∧
      (s.prepareCommandModeSwitch start stop).1 = .returned .ok ∧
      (s'.performCommandModeSwitch fun _ => .started).1 = .returned .ok ∧
      ¬ HandedOver .velocity s'' := by
  refine ⟨by decide, by decide, ⟨by decide, by decide, by decide, by decide, by decide⟩, by decide,
    by decide, ?_⟩
  rintro ⟨-, handed, -⟩
  exact absurd handed (by decide)

end FrankaHardwareInterface

end FrankaRos.Hardware
