/-
# Gazebo.PositionServo -- a joint that is commanded a position

A joint with the position method is given a velocity in proportion to its position error.  The
error is the one that was last read, and the joint is read once in a control period, so it moves
with one velocity from one update of the controllers to the next: what is left of the error
behind a control period is a fixed share of it (`period_error`), and the joint comes to its
command if the share is less than one, and from elsewhere only then (`position_converges_iff`).
-/
import Mathlib
import FrankaRos.Gazebo.JointCommands

namespace FrankaRos.Gazebo

open FrankaRos.Theory ControlMethod Filter Topology

set_option autoImplicit false

section Servo

variable {K : Type} [CommRing K]

/-- The simulator moves the joint for a time with the velocity that it is commanded. -/
def Moves (dt : K) (e : Entity) (f : EntityComponentManager K → EntityComponentManager K) : Prop :=
  ∀ ecm p ps v vs, (ecm e).jointPosition = some (p :: ps) →
    (ecm e).jointVelocityCmd = some (v :: vs) →
      (∃ ps', (f ecm e).jointPosition = some ((p + v * dt) :: ps')) ∧
        ∃ v' vs', (f ecm e).jointVelocityCmd = some (v' :: vs')

/-- The events of a control period: in each iteration of the simulation a `write`, and a `read`
at the end. -/
def controlPeriod (fs : List (EntityComponentManager K → EntityComponentManager K)) :
    List (Event K) :=
  fs.flatMap (fun f => [.write, .simulate f]) ++ [.read]

/-- The joint is commanded positions, and is at `p` in the simulation. -/
structure Positioned (s : IgnitionSystem K) (i : Nat) (joint : JointData K) (p : K) : Prop where
  own : Own s i joint
  positioned : joint.jointControlMethod.has POSITION = true
  unhurried : joint.jointControlMethod.has VELOCITY = false
  there : ∃ ps, (s.ecm joint.simJoint).jointPosition = some (p :: ps)
  commandable : (s.ecm joint.simJoint).jointVelocityCmd ≠ some []

variable {gravity : (Fin 7 → K) → Except String (Fin 7 → K)} {updateRate dt p : K}
  {s s' : IgnitionSystem K} {i : Nat} {joint : JointData K}
  (total : ∀ q, ∃ efforts, gravity q = .ok efforts)

include total

/-- One iteration moves the joint with the velocity that its error asks for. -/
theorem Positioned.iteration (at_p : Positioned s i joint p)
    {f : EntityComponentManager K → EntityComponentManager K} (moves : Moves dt joint.simJoint f)
    (ran : runs gravity updateRate s [.write, .simulate f] = some s') :
    Positioned s' i joint
        (p + targetVel s.positionProportionalGain updateRate joint * dt) ∧
      s'.positionProportionalGain = s.positionProportionalGain := by
  simp only [runs, List.foldlM_cons, List.foldlM_nil, step, Option.bind_eq_bind,
    Option.bind_eq_some_iff, Option.map_eq_some_iff] at ran
  obtain ⟨_, ⟨⟨result, s₁⟩, wrote, rfl⟩, _, same, again⟩ := ran
  cases same
  obtain rfl := Option.some.inj again
  obtain rfl := write_succeeds total wrote
  obtain ⟨q, jointEfforts, -, -, commanded⟩ := write_at wrote at_p.own
  rw [commandJoint, if_neg (by simp [at_p.unhurried]), if_pos at_p.positioned] at commanded
  have components := Option.some.inj commanded
  obtain ⟨ps, there⟩ := at_p.there
  have still : (s₁.ecm joint.simJoint).jointPosition = some (p :: ps) := by
    rw [← components]
    exact there
  have sent : ∃ vs, (s₁.ecm joint.simJoint).jointVelocityCmd =
      some (targetVel s.positionProportionalGain updateRate joint :: vs) := by
    rw [← components]
    show ∃ vs, createOrStore _ (s.ecm joint.simJoint).jointVelocityCmd = _
    have commandable := at_p.commandable
    revert commandable
    cases (s.ecm joint.simJoint).jointVelocityCmd with
    | none => exact fun _ => ⟨[], rfl⟩
    | some data =>
        cases data with
        | nil => exact fun empty => absurd rfl empty
        | cons v vs => exact fun _ => ⟨vs, rfl⟩
  obtain ⟨vs, sent⟩ := sent
  obtain ⟨moved, v', vs', left⟩ := moves s₁.ecm _ _ _ _ still sent
  have rest := write_eq wrote
  refine ⟨⟨⟨?_, at_p.own.found, ?_, ?_⟩, at_p.positioned, at_p.unhurried, moved, ?_⟩, ?_⟩
  · rw [rest]
    exact at_p.own.here
  · rw [rest]
    exact at_p.own.alone
  · rw [rest]
    exact at_p.own.unmimicked
  · rw [left]
    simp
  · rw [rest]

/-- The iterations of a control period all move the joint alike, because it is not read in
between. -/
theorem Positioned.iterations {fs : List (EntityComponentManager K → EntityComponentManager K)}
    (moves : ∀ f ∈ fs, Moves dt joint.simJoint f) (at_p : Positioned s i joint p)
    (ran : runs gravity updateRate s (fs.flatMap fun f => [.write, .simulate f]) = some s') :
    Positioned s' i joint
        (p + fs.length * (targetVel s.positionProportionalGain updateRate joint * dt)) ∧
      s'.positionProportionalGain = s.positionProportionalGain := by
  induction fs generalizing s p with
  | nil =>
      obtain rfl := Option.some.inj ran
      refine ⟨?_, rfl⟩
      rwa [List.length_nil, Nat.cast_zero, zero_mul, add_zero]
  | cons f fs ih =>
      rw [List.flatMap_cons, runs_append] at ran
      obtain ⟨t, first, rest⟩ := Option.bind_eq_some_iff.1 ran
      obtain ⟨at_t, gain⟩ := at_p.iteration total (moves f List.mem_cons_self) first
      obtain ⟨at_s', gain'⟩ := ih (fun f member => moves f (List.mem_cons_of_mem _ member)) at_t rest
      refine ⟨?_, gain'.trans gain⟩
      rw [gain] at at_s'
      convert at_s' using 1
      rw [List.length_cons]
      push_cast
      ring

omit total in
theorem readJoints_at {ecm : EntityComponentManager K} {joints joints' : List (JointData K)}
    (ran : readJoints ecm joints = some joints') (here : joints[i]? = some joint) :
    ∃ joint', joints'[i]? = some joint' ∧ readJoint ecm joint = some joint' := by
  induction joints generalizing joints' i with
  | nil => simp at here
  | cons first rest ih =>
      simp only [readJoints, Option.bind_eq_bind, Option.bind_eq_some_iff] at ran
      obtain ⟨first', one, rest', others, same⟩ := ran
      cases same
      cases i with
      | zero =>
          obtain rfl := Option.some.inj here
          exact ⟨first', rfl, one⟩
      | succ i =>
          obtain ⟨joint', there, reading⟩ := ih others here
          exact ⟨joint', there, reading⟩

omit total in
/-- A `read` tells where the joint is. -/
theorem Positioned.read (at_p : Positioned s i joint p)
    (ran : runs gravity updateRate s [.read] = some s') :
    ∃ joint', Positioned s' i joint' p ∧ joint'.jointPosition = p ∧
      joint'.jointPositionCmd = joint.jointPositionCmd ∧ joint'.simJoint = joint.simJoint ∧
      s'.positionProportionalGain = s.positionProportionalGain := by
  have stepped : Gazebo.read s = some s' := by simpa [runs, step] using ran
  obtain ⟨joints, readings, rfl⟩ := Option.map_eq_some_iff.1 stepped
  obtain ⟨joint', there', reading⟩ := readJoints_at readings at_p.own.here
  obtain ⟨own, -⟩ := at_p.own.behind ran there'
  obtain ⟨ps, there⟩ := at_p.there
  rw [readJoint, if_neg at_p.own.found, there] at reading
  simp only [Option.bind_eq_bind, Option.bind_eq_some_iff] at reading
  obtain ⟨_, -, _, -, _, measured, _, first, _, -, same⟩ := reading
  cases measured
  cases first
  cases same
  exact ⟨_, ⟨own, at_p.positioned, at_p.unhurried, ⟨ps, there⟩, at_p.commandable⟩, rfl, rfl, rfl,
    rfl⟩

/-- **What a control period leaves of a position error.** -/
theorem period_error {fs : List (EntityComponentManager K → EntityComponentManager K)}
    (moves : ∀ f ∈ fs, Moves dt joint.simJoint f)
    (at_joint : Positioned s i joint joint.jointPosition)
    (ran : runs gravity updateRate s (controlPeriod fs) = some s') :
    ∃ joint', Positioned s' i joint' joint'.jointPosition ∧
      joint'.jointPositionCmd = joint.jointPositionCmd ∧ joint'.simJoint = joint.simJoint ∧
      s'.positionProportionalGain = s.positionProportionalGain ∧
      joint'.jointPosition - joint.jointPositionCmd =
        (1 - s.positionProportionalGain * (updateRate * (fs.length * dt))) *
          (joint.jointPosition - joint.jointPositionCmd) := by
  rw [controlPeriod, runs_append] at ran
  obtain ⟨t, before, last⟩ := Option.bind_eq_some_iff.1 ran
  obtain ⟨at_t, gain⟩ := at_joint.iterations total moves before
  obtain ⟨joint', at_s', position, command, entity, kept⟩ := at_t.read last
  refine ⟨joint', position.symm ▸ at_s', command, entity, kept.trans gain, ?_⟩
  rw [position, targetVel]
  ring

end Servo

/-- **Whether position control converges.**  A joint starts where it was last read, and is not
commanded anew.  In every control period the simulator moves it for `n` iterations of length
`dt`.  Then each leaves the same share of the position error; and the joint comes to its command
exactly if it was there, or the share is less than one. -/
theorem position_converges_iff {gravity : (Fin 7 → ℝ) → Except String (Fin 7 → ℝ)}
    {updateRate dt : ℝ} {i n : ℕ} {joint : JointData ℝ} {σ : ℕ → IgnitionSystem ℝ}
    {fs : ℕ → List (EntityComponentManager ℝ → EntityComponentManager ℝ)}
    (total : ∀ q, ∃ efforts, gravity q = .ok efforts)
    (ran : ∀ k, runs gravity updateRate (σ k) (controlPeriod (fs k)) = some (σ (k + 1)))
    (long : ∀ k, (fs k).length = n) (moves : ∀ k, ∀ f ∈ fs k, Moves dt joint.simJoint f)
    (at_joint : Positioned (σ 0) i joint joint.jointPosition) :
    ∃ x : ℕ → ℝ, x 0 = joint.jointPosition ∧
      (∀ k, ∃ joint', (σ k).joints[i]? = some joint' ∧ joint'.jointPosition = x k) ∧
      (∀ k, x k - joint.jointPositionCmd =
        (1 - (σ 0).positionProportionalGain * (updateRate * (n * dt))) ^ k *
          (joint.jointPosition - joint.jointPositionCmd)) ∧
      (Tendsto x atTop (𝓝 joint.jointPositionCmd) ↔
        joint.jointPosition = joint.jointPositionCmd ∨
          |1 - (σ 0).positionProportionalGain * (updateRate * (n * dt))| < 1) := by
  generalize share : 1 - (σ 0).positionProportionalGain * (updateRate * (n * dt)) = a
  have behind : ∀ k, ∃ joint', Positioned (σ k) i joint' joint'.jointPosition ∧
      joint'.jointPositionCmd = joint.jointPositionCmd ∧ joint'.simJoint = joint.simJoint ∧
      (σ k).positionProportionalGain = (σ 0).positionProportionalGain ∧
      joint'.jointPosition - joint.jointPositionCmd =
        a ^ k * (joint.jointPosition - joint.jointPositionCmd) := by
    intro k
    induction k with
    | zero => exact ⟨joint, at_joint, rfl, rfl, rfl, by rw [pow_zero, one_mul]⟩
    | succ k ih =>
        obtain ⟨joint₁, at_k, command, entity, gain, error⟩ := ih
        obtain ⟨joint₂, at_succ, command', entity', gain', error'⟩ :=
          period_error total (fun f member => entity ▸ moves k f member) at_k (ran k)
        refine ⟨joint₂, at_succ, command'.trans command, entity'.trans entity,
          gain'.trans gain, ?_⟩
        rw [command, gain, long, share, error] at error'
        rw [error', pow_succ', mul_assoc]
  choose joints at_k _ _ _ error using behind
  have positions : ∀ k, (joints k).jointPosition - joint.jointPositionCmd =
      a ^ k * (joint.jointPosition - joint.jointPositionCmd) := error
  refine ⟨fun k => (joints k).jointPosition, ?_, fun k => ⟨_, (at_k k).own.here, rfl⟩, error, ?_⟩
  · have start := error 0
    rw [pow_zero, one_mul] at start
    exact sub_left_inj.1 start
  · rw [← tendsto_sub_nhds_zero_iff]
    simp only [positions]
    rw [← sub_eq_zero]
    generalize joint.jointPosition - joint.jointPositionCmd = e₀
    constructor
    · intro vanishing
      refine or_iff_not_imp_left.2 fun away => ?_
      have powers := vanishing.mul_const e₀⁻¹
      simp only [mul_assoc, mul_inv_cancel₀ away, mul_one, zero_mul] at powers
      exact tendsto_pow_atTop_nhds_zero_iff.1 powers
    · rintro (rfl | shrinks)
      · simp
      · have powers := (tendsto_pow_atTop_nhds_zero_iff.2 shrinks).mul_const e₀
        rwa [zero_mul] at powers

/-- The components of a joint at `x`. -/
def componentsAt (x : ℝ) : Components ℝ :=
  { jointPosition := some [x], jointVelocity := some [0]
    jointTransmittedWrench := some ⟨⟨0, 0, 0⟩, ⟨0, 0, 0⟩⟩, jointVelocityCmd := some [0] }

/-- A simulator that moves the joint for a second. -/
def moveOn (ecm : EntityComponentManager ℝ) : EntityComponentManager ℝ :=
  fun _ => componentsAt (((ecm 1).jointPosition.getD []).headD 0 +
    ((ecm 1).jointVelocityCmd.getD []).headD 0 * 1)

def servoJoint (x : ℝ) : JointData ℝ :=
  { JointData.blank with
    simJoint := 1, jointControlMethod := POSITION, jointPosition := x
    jointEffort := Vector3.dot ⟨0, 0, 0⟩ ⟨0, 0, 0⟩ }

/-- An arm whose first joint is at `x` and commanded to zero, with a gain of one. -/
def servoArm (x : ℝ) : IgnitionSystem ℝ :=
  ⟨servoJoint x :: List.replicate 6 JointData.blank, [], [], [], fun _ => componentsAt x, 1⟩

def positionAfter : ℕ → ℝ
  | 0 => 1
  | k + 1 => positionAfter k + targetVel 1 1 (servoJoint (positionAfter k)) * 1

theorem servoArm_converges : ∃ x : ℕ → ℝ, x 0 = 1 ∧
    (∀ k, ∃ joint', (servoArm (positionAfter k)).joints[0]? = some joint' ∧
      joint'.jointPosition = x k) ∧ Tendsto x atTop (𝓝 0) := by
  have moves : ∀ f ∈ [moveOn], Moves 1 1 f := by
    intro f member
    obtain rfl := List.mem_singleton.1 member
    intro ecm p ps v vs here sent
    have there : moveOn ecm 1 = componentsAt (p + v * 1) := by
      simp [moveOn, here, sent]
    rw [there]
    exact ⟨⟨[], rfl⟩, 0, [], rfl⟩
  have alone : ∀ j other, (servoArm 1).joints[j]? = some other →
      other.simJoint = (servoJoint 1).simJoint → j = 0 := by
    intro j other listed shared
    cases j with
    | zero => rfl
    | succ j =>
        have blank : other ∈ List.replicate 6 JointData.blank := List.mem_of_getElem? listed
        rw [List.eq_of_mem_replicate blank] at shared
        cases shared
  have at_joint : Positioned (servoArm 1) 0 (servoJoint 1) (servoJoint 1).jointPosition :=
    ⟨⟨rfl, by decide, alone, by simp [servoArm]⟩, by decide, by decide, ⟨[], rfl⟩,
      by simp [servoArm, componentsAt]⟩
  have ran : ∀ k, runs (fun _ => .ok fun _ => 0) 1 (servoArm (positionAfter k))
      (controlPeriod [moveOn]) = some (servoArm (positionAfter (k + 1))) := by
    intro k
    generalize here : positionAfter k = x
    have there : positionAfter (k + 1) = x + targetVel 1 1 (servoJoint x) * 1 := by
      rw [positionAfter, here]
    have enough : 7 ≤ (servoArm x).joints.length := by simp [servoArm]
    have commanded : commandJoint (fun _ => 0) 1 1 0 (servoJoint x) (componentsAt x) =
        some { componentsAt x with
          jointVelocityCmd := some [targetVel 1 1 (servoJoint x)] } := by
      have unhurried : (servoJoint x).jointControlMethod = POSITION := rfl
      rw [commandJoint, unhurried, if_neg (by decide), if_pos (by decide)]
      rfl
    have sent : commandJoints (fun _ => 0) 1 1 0 (servoArm x).joints (servoArm x).ecm =
        some (Function.update (servoArm x).ecm 1 { componentsAt x with
          jointVelocityCmd := some [targetVel 1 1 (servoJoint x)] }) := by
      have found : (servoJoint x).simJoint ≠ kNullEntity := Nat.one_ne_zero
      rw [servoArm, commandJoints, if_neg found, show (servoJoint x).simJoint = 1 from rfl,
        commanded]
      rfl
    rw [there, controlPeriod, List.flatMap_singleton, List.cons_append, runs, List.foldlM_cons,
      step, write, collectPositions, dif_pos enough]
    show (Option.map Prod.snd ((commandJoints (fun _ => 0) 1 1 0 _ _).bind _)).bind _ = _
    rw [sent]
    rfl
  obtain ⟨x, start, measured, -, converges⟩ :=
    position_converges_iff (fun _ => ⟨_, rfl⟩) ran (fun _ => rfl) (fun _ => moves) at_joint
  refine ⟨x, start, measured, converges.2 (.inr ?_)⟩
  simp [servoArm]

end FrankaRos.Gazebo
