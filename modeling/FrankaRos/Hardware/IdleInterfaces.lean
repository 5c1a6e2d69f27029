/-
# Hardware.IdleInterfaces -- what the buffers of idle interfaces can do

Two states with the same flags, the same robot and the same buffers of the
running interfaces (`SameRunning`) have the same dispatch, whatever their idle
buffers hold.  The guard in front of the dispatch looks at all six buffers,
though, running or not: a non-finite value in an idle buffer makes `write` return
ERROR.  `write_eq_iff` says that this is the only way in which idle buffers show.
-/
import FrankaRos.Hardware.ModeSwitch

namespace FrankaRos.Hardware

open FrankaRos.Theory

set_option autoImplicit false

set_option linter.unusedSectionVars false

universe u

namespace FrankaHardwareInterface

variable {K : Type u} [MachineArith K]

/-- Equal up to the buffers of the interfaces that are not running. -/
structure SameRunning (s t : FrankaHardwareInterface K) : Prop where
  claimed : s.claimed = t.claimed
  running : s.running = t.running
  firstUpdate : s.firstUpdate = t.firstUpdate
  initialRobotStateUpdate : s.initialRobotStateUpdate = t.initialRobotStateUpdate
  robot : s.robot = t.robot
  commands : ∀ i, s.running i = true → s.commands i = t.commands i

/-- No buffer among the idle ones holds a non-finite value. -/
def IdleFinite (s : FrankaHardwareInterface K) : Prop :=
  ∀ i, s.running i = false → hasInfinite (s.commands i) = false

/-- No buffer among the running ones holds a non-finite value. -/
def RunningFinite (s : FrankaHardwareInterface K) : Prop :=
  ∀ i, s.running i = true → hasInfinite (s.commands i) = false

/-! ## The guard -/

theorem allFinite_iff (s : FrankaHardwareInterface K) :
    s.allFinite = true ↔ ∀ i, hasInfinite (s.commands i) = false := by
  simp only [allFinite, Bool.not_eq_true', Bool.or_eq_false_iff]
  constructor
  · rintro ⟨⟨⟨⟨⟨position, effort⟩, velocity⟩, cartesian⟩, elbow⟩, pose⟩ i
    rcases i with m | _
    · cases m <;> assumption
    · assumption
  · intro finite
    exact ⟨⟨⟨⟨⟨finite _, finite _⟩, finite _⟩, finite _⟩, finite _⟩, finite _⟩

theorem allFinite_iff_and (s : FrankaHardwareInterface K) :
    s.allFinite = true ↔ s.RunningFinite ∧ s.IdleFinite := by
  rw [allFinite_iff]
  constructor
  · intro finite
    exact ⟨fun i _ => finite i, fun i _ => finite i⟩
  · rintro ⟨running, idle⟩ i
    cases on : s.running i with
    | true => exact running i on
    | false => exact idle i on

theorem SameRunning.runningFinite {s t : FrankaHardwareInterface K} (same : SameRunning s t) :
    s.RunningFinite ↔ t.RunningFinite := by
  constructor
  · intro finite i on
    rw [← same.running] at on
    rw [← same.commands i on]
    exact finite i on
  · intro finite i on
    rw [same.commands i on]
    rw [same.running] at on
    exact finite i on

/-! ## The dispatch -/

theorem SameRunning.forward {s t : FrankaHardwareInterface K} (same : SameRunning s t)
    {m : ControlMode} (on : s.running (.mode m) = true) : s.forward m = t.forward m := by
  simp only [FrankaHardwareInterface.forward, same.commands _ on]

theorem SameRunning.forwardWithElbow {s t : FrankaHardwareInterface K} (same : SameRunning s t)
    {m : ControlMode} (on : s.running (.mode m) = true) (elbow : s.running .elbow = true) :
    s.forwardWithElbow m = t.forwardWithElbow m := by
  simp only [FrankaHardwareInterface.forwardWithElbow, same.commands _ on, same.commands _ elbow]

/-- Idle buffers do not reach the dispatch. -/
theorem SameRunning.dispatch_eq {s t : FrankaHardwareInterface K} (same : SameRunning s t) :
    s.dispatch = t.dispatch := by
  unfold FrankaHardwareInterface.dispatch
  rw [← same.running, ← same.firstUpdate]
  simp only [Bool.and_eq_true]
  split
  · rw [same.forward (by assumption)]
  split
  · rw [same.forward (by assumption)]
  split
  · rename_i guard
    rw [same.forward guard.1]
  split
  · rename_i guard
    rw [same.forwardWithElbow guard.1.1 guard.1.2]
  split
  · rename_i guard
    rw [same.forwardWithElbow guard.1.1.1 guard.1.1.2]
  split
  · rename_i guard
    rw [same.forward guard.1]
  split
  · rename_i guard
    rw [same.forward guard.1]
  · rfl

/-- A `write` that passes the guard does not return ERROR. -/
theorem write_of_finite {s : FrankaHardwareInterface K} (finite : s.allFinite = true) :
    s.write.1 ≠ .returned .error ∧ s.write.2 = s.dispatch.map (·.writeOnce s.robot) ∧
      s.forwarded = s.dispatch := by
  refine ⟨?_, ?_, by simp [forwarded, finite]⟩
  · simp only [write, finite, Bool.true_eq_false, if_false]
    split <;> simp
  · simp only [write, finite, Bool.true_eq_false, if_false]
    split <;> rfl

theorem write_of_not_finite {s : FrankaHardwareInterface K} (finite : s.allFinite = false) :
    s.write = (.returned .error, []) ∧ s.forwarded = [] := by
  constructor
  · simp [write, finite]
  · simp [forwarded, finite]

theorem SameRunning.write {s t : FrankaHardwareInterface K} (same : SameRunning s t)
    (finite : s.allFinite = t.allFinite) : s.write = t.write ∧ s.forwarded = t.forwarded := by
  constructor
  · simp only [FrankaHardwareInterface.write, finite, same.dispatch_eq, same.robot]
  · simp only [forwarded, finite, same.dispatch_eq]

/-- **Idle interfaces, exactly.**  For two states that differ only in the buffers
of idle interfaces, `write` returns the same result and forwards the same
commands if and only if the idle buffers of both hold a non-finite value or those
of neither do, unless a running buffer is not finite anyway.  A non-finite value
in an idle buffer stops every command. -/
theorem write_eq_iff (s t : FrankaHardwareInterface K) :
    (SameRunning s t → ((s.write = t.write ∧ s.forwarded = t.forwarded) ↔
        ((s.IdleFinite ↔ t.IdleFinite) ∨ ¬ s.RunningFinite))) ∧
      (¬ s.IdleFinite → s.write = (.returned .error, []) ∧ s.forwarded = []) := by
  constructor
  · intro same
    have finite : (s.allFinite = t.allFinite) ↔
        ((s.IdleFinite ↔ t.IdleFinite) ∨ ¬ s.RunningFinite) := by
      rw [Bool.eq_iff_iff, allFinite_iff_and, allFinite_iff_and, ← same.runningFinite]
      tauto
    rw [← finite]
    constructor
    · rintro ⟨wrote, -⟩
      by_contra different
      cases hs : s.allFinite <;> cases ht : t.allFinite <;> simp only [hs, ht, not_true] at different
      · rw [(write_of_not_finite hs).1] at wrote
        exact (write_of_finite ht).1 (by rw [← wrote])
      · rw [(write_of_not_finite ht).1] at wrote
        exact (write_of_finite hs).1 (by rw [wrote])
    · exact same.write
  · intro stale
    apply write_of_not_finite
    rw [← Bool.not_eq_true, allFinite_iff_and]
    exact fun finite => stale finite.2

/-- A controller that writes to an idle interface changes nothing else. -/
theorem sameRunning_setCommand (s : FrankaHardwareInterface K) {i : CommandInterface}
    (idle : s.running i = false) (index : Nat) (value : Double K) :
    SameRunning s (step s (.setCommand i index value)) := by
  refine ⟨rfl, rfl, rfl, rfl, rfl, fun j on => ?_⟩
  have other : j ≠ i := by
    rintro rfl
    rw [idle] at on
    cases on
  exact (Function.update_of_ne other _ _).symm

theorem write_eq_iff_position_written :
    let start : FrankaHardwareInterface ℚ :=
      constructed (jointInterfaces "position" ++ jointInterfaces "effort")
    let s := run step start [.prepare (jointInterfaces "effort") [], .perform fun _ => .started]
    let t := step s (.setCommand (.mode .jointPosition) 0 (.lit 1))
    s.write = t.write ∧ s.forwarded = t.forwarded := by
  intro start s t
  have same : SameRunning s t := sameRunning_setCommand s (by decide) 0 (.lit 1)
  have before : s.IdleFinite := by
    intro i _
    rcases i with m | _
    · cases m <;> decide
    · decide
  have after : t.IdleFinite := by
    intro i _
    rcases i with m | _
    · cases m <;> decide
    · decide
  exact ((write_eq_iff s t).1 same).2 (.inl ⟨fun _ => after, fun _ => before⟩)

/-! ## A stale value -/

/-- Position control is started, its controller writes `value`, and control is
handed to an effort controller. -/
def positionThenEffort (value : Double ℚ) : List (Event ℚ) :=
  [.prepare (jointInterfaces "position") [], .perform fun _ => .started,
    .read ⟨fun _ => 0, fun _ => 0, fun _ => 0⟩, .setCommand (.mode .jointPosition) 0 value,
    .prepare [] (jointInterfaces "position"), .perform fun _ => .started,
    .prepare (jointInterfaces "effort") [], .perform fun _ => .started]

/-- The value the position controller left behind decides whether the effort
controller's command goes out. -/
theorem stale_position_blocks_effort :
    let start : FrankaHardwareInterface ℚ :=
      constructed (jointInterfaces "position" ++ jointInterfaces "effort")
    let s := run step start (positionThenEffort 0)
    let t := run step start (positionThenEffort .nan)
    SameRunning s t ∧ s.write.1 = .returned .ok ∧ s.forwarded.length = 1 ∧
      t.write.1 = .returned .error ∧ t.forwarded.length = 0 := by
  intro start s t
  have flags : ∀ i, s.claimed i = t.claimed i ∧ s.running i = t.running i ∧
      s.firstUpdate i = t.firstUpdate i := by
    intro i
    rcases i with m | _
    · cases m <;> decide
    · decide
  have robot : s.robot = t.robot := by
    have session : s.robot.activeControl = t.robot.activeControl := by decide
    have active : ∀ m, s.robot.interfaceActive m = t.robot.interfaceActive m := by
      intro m
      cases m <;> decide
    generalize s.robot = r at session active ⊢
    generalize t.robot = r' at session active ⊢
    cases r
    cases r'
    simp only [Robot.mk.injEq]
    exact ⟨session, funext active⟩
  have commands : ∀ i, s.running i = true → s.commands i = t.commands i := by
    intro i on
    rcases i with m | _
    · cases m with
      | jointPosition => exact absurd on (by decide)
      | _ => decide
    · decide
  have same : SameRunning s t := ⟨funext fun i => (flags i).1, funext fun i => (flags i).2.1,
    funext fun i => (flags i).2.2, by decide, robot, commands⟩
  exact ⟨same, by decide, by decide, by decide, by decide⟩

end FrankaHardwareInterface

end FrankaRos.Hardware
