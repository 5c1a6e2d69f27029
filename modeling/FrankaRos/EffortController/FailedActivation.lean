/-
# EffortController.FailedActivation -- what becomes of a base class that fails

`on_activate` of either derived controller drops what its base class returns, reads every
joint through the state handles, and succeeds.  The base class fails at the first handle
vector that does not come out with one entry per joint, and leaves the vectors after it as
they were.

`propagates_iff` is the whole of it: a failure is reported when there is none.  What happens
instead depends on where the base class stopped (`unnoticed_iff`): with no handles to begin
with, the joints are read past the end of a vector, unless all that is wrong is that there
are too many velocity interfaces.  Such a failure is for good: its handles are cleared by no
deactivation and fit no later activation (`leftover_run`).
-/
import FrankaRos.EffortController.Reactivation

namespace FrankaRos.EffortController

open FrankaRos.Theory

set_option autoImplicit false

/-! ## The derived controllers -/

/-- What a `CartesianImpedanceController` is to follow. -/
structure CartesianTargets (K Frame : Type) where
  currentFrame : Frame
  targetFrame : Frame
  targetWrench : Fin 6 → Double K

/-- What a `JointImpedanceController` is to follow. -/
structure JointTargets (K Frame : Type) (n : Nat) where
  currentFrame : Frame
  targetFrame : Frame
  qDesired : Fin n → Double K
  qStartingPose : Fin n → Double K

namespace Configured

variable {K I T Frame : Type} [MachineArith K] (c : Configured K) (lib : OrderedInterfaces I)

/-- `on_activate` of a derived controller, up to the targets it sets from the joint
positions.  The result of its base class is dropped. -/
def derivedOnActivate (setTargets : (Fin c.numJoints → Double K) → T → T)
    (commands states : List I) (positions : Fin c.numJoints → Double K)
    (s : EffortControllerBase K I c.numJoints × T) :
    Option (CallbackReturn × EffortControllerBase K I c.numJoints × T) := do
  let base := (c.onActivate lib commands states s.1).2
  let base ← c.updateJointStates positions base
  return (.success, base, setTargets base.jointPositions s.2)

/-- `CartesianImpedanceController::on_activate`; `JntToCart` may leave its frame alone. -/
def CartesianImpedanceController.onActivate
    (jntToCart : (Fin c.numJoints → Double K) → Frame → Frame) :
    List I → List I → (Fin c.numJoints → Double K) →
      EffortControllerBase K I c.numJoints × CartesianTargets K Frame →
      Option (CallbackReturn × EffortControllerBase K I c.numJoints × CartesianTargets K Frame) :=
  c.derivedOnActivate lib fun jointPositions targets =>
    let frame := jntToCart jointPositions targets.currentFrame
    { currentFrame := frame, targetFrame := frame, targetWrench := fun _ => 0 }

/-- `JointImpedanceController::on_activate`. -/
def JointImpedanceController.onActivate
    (jntToCart : (Fin c.numJoints → Double K) → Frame → Frame) :
    List I → List I → (Fin c.numJoints → Double K) →
      EffortControllerBase K I c.numJoints × JointTargets K Frame c.numJoints →
      Option (CallbackReturn × EffortControllerBase K I c.numJoints ×
        JointTargets K Frame c.numJoints) :=
  c.derivedOnActivate lib fun jointPositions targets =>
    let frame := jntToCart jointPositions targets.currentFrame
    { currentFrame := frame, targetFrame := frame
      qDesired := jointPositions, qStartingPose := jointPositions }

variable {c lib}

theorem derivedOnActivate_eq (setTargets : (Fin c.numJoints → Double K) → T → T)
    (commands states : List I) (positions : Fin c.numJoints → Double K)
    (s : EffortControllerBase K I c.numJoints × T) :
    c.derivedOnActivate lib setTargets commands states positions s =
      (c.updateJointStates positions (c.onActivate lib commands states s.1).2).map
        fun base => (.success, base, setTargets base.jointPositions s.2) := by
  rw [Option.map_eq_bind]
  rfl

/-- Within the system, either is an activation. -/
theorem activate_eq (setTargets : (Fin c.numJoints → Double K) → T → T)
    (commands states : List I) (positions : Fin c.numJoints → Double K)
    (s : DerivedController K I c.numJoints) (targets : T) :
    c.activate lib commands states positions s =
      (c.derivedOnActivate lib setTargets commands states positions (s.base, targets)).map
        fun out => ⟨out.2.1, c.startEffort s.held, true⟩ := by
  rw [derivedOnActivate_eq, Option.map_map, Option.map_eq_bind]
  rfl

variable (c lib)

/-! ## Failures -/

/-- A failure of the base class is reported, and no handle is read that is not there. -/
def Propagates {n : Nat} (base : CallbackReturn)
    (out : Option (CallbackReturn × EffortControllerBase K I n × T)) : Prop :=
  base = .error → ∃ s', out = some (.error, s')

variable {c lib}

theorem onActivate_error_iff {commands states : List I}
    {s : EffortControllerBase K I c.numJoints} :
    (c.onActivate lib commands states s).1 = .error ↔
      s.active = false ∧ c.Misfit lib commands states s := by
  cases active : s.active with
  | true =>
      have kept : c.onActivate lib commands states s = (.success, s) := by
        rw [onActivate, if_pos active]
      simp [kept]
  | false =>
      rcases onActivate_cases lib commands states active with
        ⟨misfit, s', eq, -⟩ | ⟨fits, s', eq, -⟩
      · simp [eq, misfit]
      · simp [eq, fits]

/-- A derived controller reads its joints past the end, or succeeds. -/
theorem derivedOnActivate_ne_error (setTargets : (Fin c.numJoints → Double K) → T → T)
    (commands states : List I) (positions : Fin c.numJoints → Double K)
    (s : EffortControllerBase K I c.numJoints × T)
    (s' : EffortControllerBase K I c.numJoints × T) :
    c.derivedOnActivate lib setTargets commands states positions s ≠ some (.error, s') := by
  rw [derivedOnActivate_eq]
  simp

theorem derived_propagates_iff (setTargets : (Fin c.numJoints → Double K) → T → T)
    (commands states : List I) (positions : Fin c.numJoints → Double K)
    (s : EffortControllerBase K I c.numJoints × T) :
    Propagates (c.onActivate lib commands states s.1).1
        (c.derivedOnActivate lib setTargets commands states positions s) ↔
      s.1.active = true ∨ ¬ c.Misfit lib commands states s.1 := by
  have silent : ¬ ∃ s', c.derivedOnActivate lib setTargets commands states positions s =
      some (.error, s') :=
    fun ⟨s', reported⟩ => derivedOnActivate_ne_error setTargets commands states positions s s'
      reported
  unfold Propagates
  rw [onActivate_error_iff]
  cases s.1.active <;> simp [silent]

/-- **Propagation, exactly.**  Either controller reports a failure of its base class, and
reads no handle that is not there, if and only if there is no failure: the controller is
active already, or every handle vector comes out with one entry per joint. -/
theorem propagates_iff (jntToCart : (Fin c.numJoints → Double K) → Frame → Frame)
    (commands states : List I) (positions : Fin c.numJoints → Double K)
    (s : EffortControllerBase K I c.numJoints) (cartesian : CartesianTargets K Frame)
    (joint : JointTargets K Frame c.numJoints) :
    (Propagates (c.onActivate lib commands states s).1
        (CartesianImpedanceController.onActivate c lib jntToCart commands states positions
          (s, cartesian)) ↔
      s.active = true ∨ ¬ c.Misfit lib commands states s) ∧
    (Propagates (c.onActivate lib commands states s).1
        (JointImpedanceController.onActivate c lib jntToCart commands states positions
          (s, joint)) ↔
      s.active = true ∨ ¬ c.Misfit lib commands states s) :=
  ⟨derived_propagates_iff _ commands states positions (s, cartesian),
    derived_propagates_iff _ commands states positions (s, joint)⟩

/-! ## Where the base class stopped -/

/-- The vectors that are filled before the velocities. -/
def FitsSoFar (c : Configured K) (lib : OrderedInterfaces I) (commands states : List I)
    (s : EffortControllerBase K I c.numJoints) : Prop :=
  (c.commandCurrentConfiguration = true →
      Slot.Fits lib c.names ⟨commands, hwIfPosition, s.jointCmdPosHandles⟩) ∧
    Slot.Fits lib c.names ⟨commands, hwIfEffort, s.jointCmdEffHandles⟩ ∧
    Slot.Fits lib c.names ⟨states, hwIfPosition, s.jointStatePosHandles⟩

variable (lib) in
/-- The state handles after an activation of an inactive controller: each vector is filled
if those before it fit. -/
theorem onActivate_states (commands states : List I) {s : EffortControllerBase K I c.numJoints}
    (inactive : s.active = false) :
    (c.FitsSoFar lib commands states s ∧
      (c.onActivate lib commands states s).2.jointStatePosHandles.length = c.numJoints ∧
      (c.onActivate lib commands states s).2.jointStateVelHandles =
        (Slot.fill lib c.names ⟨states, hwIfVelocity, s.jointStateVelHandles⟩).handles) ∨
    (¬ c.FitsSoFar lib commands states s ∧
      (c.onActivate lib commands states s).2.jointStateVelHandles = s.jointStateVelHandles) := by
  unfold FitsSoFar
  rw [onActivate_eq lib commands states inactive]
  split
  · rename_i misfit
    exact .inr ⟨fun fits => misfit.2 (fits.1 misfit.1), rfl⟩
  rename_i fitsCmd
  split
  · rename_i misfit
    exact .inr ⟨fun fits => misfit fits.2.1, rfl⟩
  rename_i fitsEff
  split
  · rename_i misfit
    exact .inr ⟨fun fits => misfit fits.2.2, rfl⟩
  · rename_i fitsPos
    rw [not_not] at fitsEff fitsPos
    have full : (c.filled lib commands states s).jointStatePosHandles.length = c.numJoints :=
      fitsPos.trans List.length_ofFn
    refine .inl ⟨⟨fun config => ?_, fitsEff, fitsPos⟩, ?_⟩
    · exact not_not.1 fun misfit => fitsCmd ⟨config, misfit⟩
    · split <;> exact ⟨full, rfl⟩

theorem misfit_iff_velocity {commands states : List I} {s : EffortControllerBase K I c.numJoints}
    (fits : c.FitsSoFar lib commands states s) :
    c.Misfit lib commands states s ↔
      ¬ Slot.Fits lib c.names ⟨states, hwIfVelocity, s.jointStateVelHandles⟩ := by
  obtain ⟨fitsCmd, fitsEff, fitsPos⟩ := fits
  unfold Misfit slots
  cases config : c.commandCurrentConfiguration with
  | false => simp [fitsEff, fitsPos]
  | true => simp [fitsCmd config, fitsEff, fitsPos]

/-- **A failure that goes unnoticed.**  With no state handles to begin with, a failed base
class lets a derived controller read the joints if and only if everything fits but the
velocity interfaces, of which there are too many. -/
theorem unnoticed_iff (setTargets : (Fin c.numJoints → Double K) → T → T)
    {commands states : List I} (positions : Fin c.numJoints → Double K)
    {s : EffortControllerBase K I c.numJoints × T} (noVelocities : s.1.jointStateVelHandles = [])
    (failed : (c.onActivate lib commands states s.1).1 = .error) :
    (∃ out, c.derivedOnActivate lib setTargets commands states positions s = some out) ↔
      c.FitsSoFar lib commands states s.1 ∧
        c.numJoints < ((Slot.mk states hwIfVelocity []).found lib c.names).length := by
  obtain ⟨inactive, misfit⟩ := onActivate_error_iff.1 failed
  have reads : (∃ out, c.derivedOnActivate lib setTargets commands states positions s = some out) ↔
      c.numJoints ≤ (c.onActivate lib commands states s.1).2.jointStatePosHandles.length ∧
        c.numJoints ≤ (c.onActivate lib commands states s.1).2.jointStateVelHandles.length := by
    rw [derivedOnActivate_eq, updateJointStates]
    split
    · rename_i lengths
      simpa using lengths
    · rename_i lengths
      simpa using lengths
  rw [reads]
  rcases onActivate_states lib commands states inactive with
    ⟨fits, full, filled⟩ | ⟨stopped, kept⟩
  · have surplus := (misfit_iff_velocity fits).1 misfit
    unfold Slot.Fits at surplus
    rw [noVelocities, List.nil_append] at surplus
    have names : c.names.length = c.numJoints := List.length_ofFn
    have velocities : (c.onActivate lib commands states s.1).2.jointStateVelHandles =
        (Slot.mk states hwIfVelocity []).found lib c.names := by
      rw [filled, noVelocities]
      exact List.nil_append _
    rw [full, velocities]
    rw [names] at surplus
    simp only [fits, true_and, le_refl]
    exact ⟨fun enough => lt_of_le_of_ne enough (Ne.symm surplus), le_of_lt⟩
  · have some_joint := c.some_joint
    rw [kept, noVelocities]
    simp only [stopped, false_and, iff_false, List.length_nil]
    omega

/-! ## Later activations -/

/-- A base class that is not active, but has handles. -/
def Leftover (s : EffortControllerBase K I c.numJoints) : Prop :=
  s.active = false ∧ s.jointStatePosHandles ≠ []

variable (c lib) in
/-- An activation for which every interface has been loaned. -/
def Complete : Event I → Prop
  | .activate commands states => ∀ s, c.AllPresent lib commands states s
  | .deactivate => True

/-- What an unnoticed failure leaves behind. -/
theorem leftover_of_unnoticed {setTargets : (Fin c.numJoints → Double K) → T → T}
    {commands states : List I} {positions : Fin c.numJoints → Double K}
    {s : EffortControllerBase K I c.numJoints × T}
    {out : CallbackReturn × EffortControllerBase K I c.numJoints × T}
    (failed : (c.onActivate lib commands states s.1).1 = .error)
    (unnoticed : c.derivedOnActivate lib setTargets commands states positions s = some out) :
    Leftover out.2.1 := by
  obtain ⟨inactive, misfit⟩ := onActivate_error_iff.1 failed
  rcases onActivate_cases lib commands states inactive with
    ⟨-, s', eq, still⟩ | ⟨fits, -⟩
  · rw [derivedOnActivate_eq, eq, updateJointStates] at unnoticed
    split at unnoticed
    · rename_i lengths
      obtain rfl := Option.some.inj unnoticed
      refine ⟨still, fun none => ?_⟩
      have some_joint := c.some_joint
      have enough : c.numJoints ≤ ([] : List I).length := none ▸ lengths.1
      exact absurd enough (Nat.not_le.2 some_joint)
    · cases unnoticed
  · exact absurd misfit fits

variable (lib) in
/-- An activation never empties the state handles. -/
theorem onActivate_grows (commands states : List I) {s : EffortControllerBase K I c.numJoints}
    (inactive : s.active = false) :
    ∃ more, (c.onActivate lib commands states s).2.jointStatePosHandles =
      s.jointStatePosHandles ++ more := by
  rw [onActivate_eq lib commands states inactive]
  repeat' split
  all_goals first | exact ⟨[], (List.append_nil _).symm⟩ | exact ⟨_, rfl⟩

theorem leftover_step {s : EffortControllerBase K I c.numJoints} {e : Event I}
    (complete : c.Complete lib e) (leftover : Leftover s) : Leftover (c.step lib s e) := by
  obtain ⟨inactive, handles⟩ := leftover
  cases e with
  | deactivate =>
      have kept : c.onDeactivate s = s := if_neg (by rw [inactive]; exact Bool.false_ne_true)
      exact (congrArg Leftover kept).mpr ⟨inactive, handles⟩
  | activate commands states =>
      obtain ⟨more, grows⟩ := onActivate_grows lib commands states inactive
      refine ⟨?_, by rw [step, grows]; exact List.append_ne_nil_of_left_ne_nil handles more⟩
      rcases onActivate_cases lib commands states inactive with
        ⟨-, s', eq, still⟩ | ⟨fits, -⟩
      · rw [step, eq]
        exact still
      · -- a vector that fits was empty
        have clean := (misfit_iff (complete s)).1 fits
        have empty := (clean ⟨states, hwIfPosition, s.jointStatePosHandles⟩ (by simp [slots])).1
        exact absurd empty handles

/-- **For good.**  After a failure that went unnoticed, the base class is active at no later
time, as long as nothing is missing from what is loaned. -/
theorem leftover_run {s : EffortControllerBase K I c.numJoints} (leftover : Leftover s)
    {es : List (Event I)} (complete : ∀ e ∈ es, c.Complete lib e) :
    (run (c.step lib) s es).active = false :=
  (run_invariant (c.step lib) (I := Leftover) (fun _ _ here there => leftover_step here there)
    complete leftover).1

/-! ## The concrete arm -/

/-- Its `state_interfaces` name no velocities. -/
theorem not_propagates_positionsOnly :
    ¬ Propagates ((fr3Effort false).onActivate fullNames (fr3Loaned [hwIfEffort])
        (fr3Loaned [hwIfPosition]) (fr3Effort false).constructed).1
      (CartesianImpedanceController.onActivate (fr3Effort false) fullNames (fun _ frame => frame)
        (fr3Loaned [hwIfEffort]) (fr3Loaned [hwIfPosition]) (fun _ => 0)
        ((fr3Effort false).constructed, ⟨(), (), fun _ => 0⟩)) := by
  intro propagates
  obtain ⟨s', reported⟩ := propagates (by decide +kernel)
  exact derivedOnActivate_ne_error _ _ _ _ _ s' reported

end Configured

end FrankaRos.EffortController
