/-
# Hardware.CommandSafety -- what reaches the robot

Joint-position, Cartesian-pose and elbow commands are held back by a
first-update flag: a start raises it, and the first `read` of the running period
overwrites the buffer with the measured state and lowers it.  The two flags
together (`Ready`: running, and past the first update) are raised by nothing but
such a read (`read_of_ready`), so by the last-rise rule a forwarded command has
one behind it in the same running period, whatever switches, cycles and
controller writes came in between.

`forwarded_safe` collects this with the other two guards of `write`: at most one
command per call, and no non-finite value in it.
-/
import FrankaRos.Hardware.FrankaHardwareInterface

namespace FrankaRos.Hardware

open FrankaRos.Theory

set_option autoImplicit false

set_option linter.unusedSectionVars false

universe u

namespace CommandInterface

/-- The interfaces whose commands wait for a measured state. -/
def positionLike : CommandInterface → Bool
  | .mode .jointPosition => true
  | .mode .cartesianPose => true
  | .elbow => true
  | _ => false

end CommandInterface

namespace FrankaHardwareInterface

variable {K : Type u} [MachineArith K]

/-- The measured values a read initialises the buffer of a position-like
interface with. -/
def measured (rs : RobotState K) : CommandInterface → List (Double K)
  | .mode .jointPosition => List.ofFn rs.q
  | .mode .cartesianPose => List.ofFn rs.oTEE
  | .elbow => List.ofFn rs.elbow
  | _ => []

/-- Running, and past the first update of the running period. -/
def Ready (i : CommandInterface) (s : FrankaHardwareInterface K) : Prop :=
  s.running i = true ∧ s.firstUpdate i = false

/-! ## A switch makes nothing ready -/

theorem ready_setRunning_false {i j : CommandInterface} {s : FrankaHardwareInterface K}
    (ready : Ready i (s.setRunning j false)) : Ready i s := by
  obtain ⟨running, first⟩ := ready
  simp only [setRunning, Function.update_apply] at running
  split at running
  · cases running
  · exact ⟨running, first⟩

theorem ready_setRunning_of_ne {i j : CommandInterface} {s : FrankaHardwareInterface K}
    (other : i ≠ j) (ready : Ready i (s.setRunning j true)) : Ready i s := by
  obtain ⟨running, first⟩ := ready
  simp only [setRunning, Function.update_apply, if_neg other] at running
  exact ⟨running, first⟩

theorem ready_setFirstUpdate {i j : CommandInterface} {s : FrankaHardwareInterface K}
    (ready : Ready i (s.setFirstUpdate j true)) : i ≠ j ∧ Ready i s := by
  obtain ⟨running, first⟩ := ready
  simp only [setFirstUpdate, Function.update_apply] at first
  split at first
  · cases first
  · rename_i other
    exact ⟨other, running, first⟩

theorem ready_startElbow {i : CommandInterface} {s : FrankaHardwareInterface K}
    (ready : Ready i s.startElbow) : Ready i s := by
  unfold startElbow at ready
  split at ready
  · obtain ⟨other, ready⟩ := ready_setFirstUpdate ready
    exact ready_setRunning_of_ne other ready
  · exact ready

theorem ready_stopElbow {i : CommandInterface} {s : FrankaHardwareInterface K}
    (ready : Ready i s.stopElbow) : Ready i s := by
  unfold stopElbow at ready
  split at ready
  · have stopped : Ready i (s.setRunning .elbow false) := ready
    exact ready_setRunning_false stopped
  · exact ready

theorem ready_startPose {i : CommandInterface} {s : FrankaHardwareInterface K}
    (ready : Ready i s.startPose) : i ≠ .mode .cartesianPose ∧ Ready i s := by
  obtain ⟨other, started⟩ := ready_setFirstUpdate ready
  have elbow : Ready i s.startElbow := started
  exact ⟨other, ready_startElbow elbow⟩

/-- A branch makes no interface ready, if its start hook makes none ready that
the mode's own start does not. -/
theorem ready_switchMode {i : CommandInterface} {m : ControlMode}
    {f g h : FrankaHardwareInterface K → _} (hf : ∀ s, Ready i (f s) → Ready i s)
    (hg : ∀ s, Ready i (g s) → i ≠ .mode m ∧ Ready i s) (hh : ∀ s, Ready i (h s) → Ready i s)
    (outcome : ControlMode → StartOutcome) (s : FrankaHardwareInterface K) :
    ¬ Ready i s → ¬ Ready i (switchMode m f g h outcome s).2 := by
  refine switchMode_invariant (I := fun s => ¬ Ready i s) (fun _ low => low) (fun _ low => low)
    (fun s => mt (hf s)) (fun s => mt fun ready => ?_) (fun s => mt fun ready => ?_) outcome
  · obtain ⟨other, ready⟩ := hg _ ready
    exact ready_setRunning_of_ne other ready
  · exact ready_setRunning_false (hh _ ready)

theorem not_ready_perform {i : CommandInterface} (position : i.positionLike = true)
    (outcome : ControlMode → StartOutcome) {s : FrankaHardwareInterface K} (low : ¬ Ready i s) :
    ¬ Ready i (s.performCommandModeSwitch outcome).2 := by
  have kept : ∀ s : FrankaHardwareInterface K, Ready i s → Ready i s := fun _ ready => ready
  have other : ∀ m : ControlMode, (CommandInterface.mode m).positionLike = false →
      i ≠ .mode m := by
    intro m moves same
    rw [same, moves] at position
    cases position
  refine perform_invariant (I := fun s => ¬ Ready i s) (fun branch member => ?_) low
  simp only [branches, List.mem_cons, List.not_mem_nil, or_false] at member
  rcases member with rfl | rfl | rfl | rfl | rfl
  · exact ready_switchMode (f := zeroCommands _) kept
      (fun _ ready => ⟨other .effort rfl, ready⟩) kept outcome
  · exact ready_switchMode (f := zeroCommands _) kept
      (fun _ ready => ⟨other .jointVelocity rfl, ready⟩) kept outcome
  · exact ready_switchMode kept (fun _ => ready_setFirstUpdate) kept outcome
  · exact ready_switchMode (f := zeroCommands _) kept
      (fun _ ready => ⟨other .cartesianVelocity rfl, ready_startElbow ready⟩)
      (fun _ => ready_stopElbow) outcome
  · exact ready_switchMode kept (fun _ => ready_startPose) (fun _ => ready_stopElbow) outcome

/-! ## A read does, and overwrites the buffer -/

@[simp] theorem initializeCommand_running (j : CommandInterface) (new : List (Double K))
    (s : FrankaHardwareInterface K) : (s.initializeCommand j new).running = s.running := by
  unfold initializeCommand
  split <;> rfl

theorem initializeCommand_of_ne {i j : CommandInterface} (other : i ≠ j) (new : List (Double K))
    (s : FrankaHardwareInterface K) :
    (s.initializeCommand j new).firstUpdate i = s.firstUpdate i ∧
      (s.initializeCommand j new).commands i = s.commands i := by
  unfold initializeCommand
  split
  · simp [setFirstUpdate, setCommands, other]
  · exact ⟨rfl, rfl⟩

theorem initializeCommand_self {i : CommandInterface} {new : List (Double K)}
    {s : FrankaHardwareInterface K} (low : ¬ Ready i s)
    (ready : Ready i (s.initializeCommand i new)) :
    (s.initializeCommand i new).commands i = new := by
  unfold initializeCommand at ready ⊢
  split at ready
  · rename_i fires
    rw [if_pos fires]
    simp [setFirstUpdate, setCommands]
  · exact absurd ready low

theorem commands_read {i : CommandInterface} (position : i.positionLike = true)
    {rs : RobotState K} {s : FrankaHardwareInterface K} (low : ¬ Ready i s)
    (ready : Ready i (s.read rs)) : (s.read rs).commands i = measured rs i := by
  unfold Ready read initializePositionCommands at *
  simp only [initializeCommand_running] at ready
  -- the call for `i` does the work, the two others leave `i` alone
  cases i with
  | elbow =>
      rw [(initializeCommand_of_ne (by decide) _ _).1, (initializeCommand_of_ne (by decide) _ _).1]
        at ready
      rw [(initializeCommand_of_ne (by decide) _ _).2, (initializeCommand_of_ne (by decide) _ _).2]
      exact initializeCommand_self low ⟨by simpa using ready.1, ready.2⟩
  | mode m =>
      cases m with
      | jointPosition =>
          rw [(initializeCommand_of_ne (by decide) _ _).1] at ready
          rw [(initializeCommand_of_ne (by decide) _ _).2]
          refine initializeCommand_self (fun high => low ?_) ⟨by simpa using ready.1, ready.2⟩
          rwa [Ready, initializeCommand_running, (initializeCommand_of_ne (by decide) _ _).1] at high
      | cartesianPose =>
          refine initializeCommand_self (fun high => low ?_) ⟨by simpa using ready.1, ready.2⟩
          rwa [Ready, initializeCommand_running, initializeCommand_running,
            (initializeCommand_of_ne (by decide) _ _).1,
            (initializeCommand_of_ne (by decide) _ _).1] at high
      | _ => cases position

theorem running_read (rs : RobotState K) (s : FrankaHardwareInterface K) :
    (s.read rs).running = s.running := by
  simp only [read, initializePositionCommands, initializeCommand_running]

/-- The event is a read, of `rs`. -/
def Event.Reads (rs : RobotState K) (e : Event K) : Prop := e = .read rs ∨ e = .activate rs

/-- **Only a read makes a position-like interface ready**, and it puts the
measured state into the buffer of an interface that was already running. -/
theorem read_of_ready {i : CommandInterface} (position : i.positionLike = true)
    {s : FrankaHardwareInterface K} {e : Event K} (low : ¬ Ready i s) (ready : Ready i (step s e)) :
    ∃ rs, e.Reads rs ∧ s.running i = true ∧ (step s e).commands i = measured rs i := by
  have reads : ∀ rs, Ready i (s.read rs) →
      s.running i = true ∧ (s.read rs).commands i = measured rs i := fun rs ready =>
    ⟨by simpa [running_read] using ready.1, commands_read position low ready⟩
  cases e with
  | read rs => exact ⟨rs, .inl rfl, reads rs ready⟩
  | activate rs => exact ⟨rs, .inr rfl, reads rs ready⟩
  | prepare start stop =>
      obtain ⟨claims, frame⟩ := prepare_frame start stop s
      rw [step, frame] at ready
      exact absurd ready low
  | perform outcome => exact absurd ready (not_ready_perform position outcome low)
  | write | setCommand | deactivate => exact absurd ready low

/-! ## Every forwarded command -/

/-- The interfaces whose buffers a forwarded command is made of. -/
def Forwarded.uses (f : Forwarded K) : List CommandInterface :=
  .mode f.mode :: (f.elbow.map fun _ => CommandInterface.elbow).toList

/-- All values of a forwarded command. -/
def Forwarded.values (f : Forwarded K) : List (Double K) := f.command ++ f.elbow.getD []

/-- Within the running period of `i` in which the run ends, a read overwrote the
buffer of `i` with the measured state. -/
def InitialisedInPeriod (start : FrankaHardwareInterface K) (es : List (Event K))
    (i : CommandInterface) : Prop :=
  ∃ before e since rs, es = before ++ e :: since ∧ e.Reads rs ∧
    (step (run step start before) e).commands i = measured rs i ∧
    (run step start before).running i = true ∧
    Throughout step (fun s => s.running i = true) (step (run step start before) e) since

theorem initialisedInPeriod {exported : List String} {es : List (Event K)} {i : CommandInterface}
    (position : i.positionLike = true) (ready : Ready i (run step (constructed exported) es)) :
    InitialisedInPeriod (constructed exported) es i := by
  have start : ¬ Ready i (constructed (K := K) exported) := fun ready => by cases ready.1
  obtain ⟨before, e, since, split, low, held⟩ := exists_last_rise step (Ready i) start ready
  obtain ⟨rs, reads, running, commands⟩ := read_of_ready position low held.first
  exact ⟨before, e, since, rs, split, reads, commands, running,
    Throughout.mono step (fun _ ready => ready.1) held⟩

theorem ready_of_dispatched {s : FrankaHardwareInterface K} {f : Forwarded K}
    (ok : s.Dispatched f) {i : CommandInterface} (used : i ∈ f.uses)
    (position : i.positionLike = true) : Ready i s := by
  simp only [Forwarded.uses, List.mem_cons, Option.mem_toList, Option.map_eq_some_iff] at used
  rcases used with rfl | ⟨v, given, rfl⟩
  · refine ⟨ok.running, ok.position ?_⟩
    cases mode : f.mode with
    | jointPosition => exact .inl rfl
    | cartesianPose => exact .inr rfl
    | _ =>
        rw [mode] at position
        cases position
  · obtain ⟨-, running, first, -⟩ := ok.elbow v given
    exact ⟨running, first⟩

theorem values_of_dispatched {s : FrankaHardwareInterface K} {f : Forwarded K}
    (ok : s.Dispatched f) {v : Double K} (member : v ∈ f.values) :
    ∃ i, v ∈ s.commands i := by
  rcases List.mem_append.1 member with command | elbow
  · exact ⟨_, ok.command ▸ command⟩
  · cases given : f.elbow with
    | none => simp [given] at elbow
    | some w =>
        rw [given, Option.getD_some, (ok.elbow w given).1] at elbow
        exact ⟨_, elbow⟩

theorem isFinite_of_allFinite {s : FrankaHardwareInterface K} (finite : s.allFinite = true)
    {i : CommandInterface} {v : Double K} (member : v ∈ s.commands i) : v.isFinite = true := by
  have clean : hasInfinite (s.commands i) = false := by
    simp only [allFinite, Bool.not_eq_true', Bool.or_eq_false_iff] at finite
    obtain ⟨⟨⟨⟨⟨position, effort⟩, velocity⟩, cartesian⟩, elbow⟩, pose⟩ := finite
    rcases i with m | _
    · cases m <;> assumption
    · assumption
  simpa using List.any_eq_false.1 clean v member

theorem write_outcomes (s : FrankaHardwareInterface K) :
    s.write.2 = s.forwarded.map (·.writeOnce s.robot) := by
  unfold write forwarded
  by_cases finite : s.allFinite = true
  · rw [if_neg (by simp [finite]), if_pos finite]
    simp only
    split
    · rfl
    · rfl
  · rw [if_pos (by simpa using finite), if_neg finite]
    rfl

/-- **What reaches the robot.**  Wherever a run has got to, one `write` forwards
at most one command, all of whose values are finite, and every position-like
interface it draws on was initialised from the measured state in its present
running period. -/
theorem forwarded_safe (exported : List String) (es : List (Event K)) :
    let s := run step (constructed (K := K) exported) es
    s.write.2 = s.forwarded.map (·.writeOnce s.robot) ∧ s.forwarded.length ≤ 1 ∧
      ∀ f ∈ s.forwarded, (∀ v ∈ f.values, v.isFinite = true) ∧
        ∀ i ∈ f.uses, i.positionLike = true → InitialisedInPeriod (constructed exported) es i := by
  intro s
  refine ⟨s.write_outcomes, ?_⟩
  unfold forwarded
  split
  · rename_i finite
    rcases s.dispatch_cases with none | ⟨f, one, ok⟩
    · simp [none]
    · rw [one]
      refine ⟨le_refl 1, fun f' member => ?_⟩
      obtain rfl := List.mem_singleton.1 member
      refine ⟨fun v member => ?_, fun i used position => ?_⟩
      · obtain ⟨i, stored⟩ := values_of_dispatched ok member
        exact isFinite_of_allFinite finite stored
      · exact initialisedInPeriod position (ready_of_dispatched ok used position)
  · simp

end FrankaHardwareInterface
end FrankaRos.Hardware
