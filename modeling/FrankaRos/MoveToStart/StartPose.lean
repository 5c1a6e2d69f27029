/-
# MoveToStart.StartPose -- where the reference of an activation begins

`on_activate` takes the measured pose for the start of the motion, but leaves the time and
the flag of the last motion as they are.  So the first update of an activation has the
reference begin where the arm is, and move by what its period allows, in an activation after
a configuration, and afterwards only where it does not show: `Fresh` lists these cases, and
`beginsWhereTheArmIs_iff` says that there are no others.  `fresh_of_configured` is the case
the controller is written for.
-/
import FrankaRos.Theory.Run
import FrankaRos.MoveToStart.MoveToStartWithGripper
import Mathlib.Data.Rat.Sqrt
import Mathlib.Tactic.LinearCombination

namespace FrankaRos.MoveToStart

open FrankaRos.Theory
open FrankaRos.RlAction (clamp)
open FrankaRos.Controller.MoveCatersianImpWithGripper (fr3Joints)

set_option autoImplicit false

set_option linter.unusedSectionVars false

namespace MoveToStartWithGripper

variable {R : Type} [Field R] [LinearOrder R]

/-! ## Readings -/

/-- The map has the interfaces of every joint. -/
def Locates (names : List String) (jointNames : Fin 7 → String) (map : Fin 7 → StateIndex) : Prop :=
  ∀ j, names[(map j).pos]? = some (jointNames j ++ "/position") ∧
    names[(map j).vel]? = some (jointNames j ++ "/velocity")

/-- The state of these interfaces can be read: the map there is, or is made now, is right. -/
def Readable (s : MoveToStartWithGripper R) (names : List String) : Prop :=
  ∃ map, s.stateMap.or (buildStateMap names s.jointNames) = some map ∧
    Locates names s.jointNames map

/-- A map that is made now is. -/
theorem locates_of_built {names : List String} {jointNames : Fin 7 → String}
    {map : Fin 7 → StateIndex} (built : buildStateMap names jointNames = some map) :
    Locates names jointNames map := by
  intro j
  have found := Controller.allJoints_eq_some built j
  simp only [Option.bind_eq_bind, Option.bind_eq_some_iff] at found
  obtain ⟨pos, hpos, vel, hvel, same⟩ := found
  rw [← Option.some.inj same]
  exact ⟨Controller.lastIndex_eq_some hpos, Controller.lastIndex_eq_some hvel⟩

/-- The positions of the joints, by the names of their interfaces. -/
def Measures (names : List String) (values : Nat → R) (jointNames : Fin 7 → String)
    (pose : Vector7d R) : Prop :=
  ∀ j, ∃ k : Nat, names[k]? = some (jointNames j ++ "/position") ∧ pose j = values k

theorem readState_measures {s : MoveToStartWithGripper R} (readable : s.Readable s.stateNames)
    (values : Nat → R) :
    Measures s.stateNames values s.jointNames (s.readState values).q := by
  obtain ⟨map, known, locates⟩ := readable
  intro j
  rw [readState, known]
  exact ⟨(map j).pos, (locates j).1, rfl⟩

/-! ## The first update of an activation -/

/-- The event is a successful activation. -/
def Activates (s : MoveToStartWithGripper R) (given : Activation R) : Prop :=
  s.lifecycle = .inactive ∧ (s.onActivate given).1 = .success

/-- Neither an update nor the end of an activation. -/
def Event.Waits : Event R → Prop
  | .update _ | .deactivate => False
  | _ => True

/-- In a run from the start, an activation with a readable state and the first update after
it, which receives a robot state. -/
structure FirstUpdate (norm : Vector7d R → R) (es pre mid : List (Event R)) (a : Activation R)
    (c : Cycle R) : Prop where
  split : ∃ post, es = pre ++ .activate a :: (mid ++ .update c :: post)
  activates : (run (step norm) constructed pre).Activates a
  readable : (run (step norm) constructed pre).Readable a.stateNames
  waits : ∀ e ∈ mid, Event.Waits e
  robotState : c.robotState = true

/-- The reference is where the arm is, or as far from there as the period allows. -/
structure Begins (pose : Vector7d R) (c : Cycle R) (s : MoveToStartWithGripper R) : Prop where
  start : s.qStart = pose
  blends : ∃ t, 0 ≤ t ∧ t ≤ 1 ∧ t ≤ c.period / max 1e-6 s.moveDuration ∧
    s.qDes = fun i => (1 - t) * s.qStart i + t * s.qGoal i

/-- The commanded position does not jump in the first update of any activation of the run. -/
def BeginsWhereTheArmIs (norm : Vector7d R → R) (es : List (Event R)) : Prop :=
  ∀ pre mid a c, FirstUpdate norm es pre mid a c →
    ∃ pose, Measures a.stateNames a.stateValues (run (step norm) constructed pre).jointNames pose ∧
      Begins pose c (run (step norm) constructed (pre ++ .activate a :: (mid ++ [.update c])))

/-! ## What a transition and a cycle change -/

theorem readState_frame (values : Nat → R) (s : MoveToStartWithGripper R) :
    ∃ map q dq, s.readState values = { s with stateMap := map, q := q, dq := dq } := by
  unfold readState
  split <;> exact ⟨_, _, _, rfl⟩

theorem solveIk_frame (given : Activation R) (s : MoveToStartWithGripper R) :
    ∃ kin qGoal, s.solveIk given = { s with kinInitialized := kin, qGoal := qGoal } := by
  unfold solveIk
  simp only
  split
  · split <;> exact ⟨_, _, rfl⟩
  · exact ⟨_, _, rfl⟩

/-- An activation takes what it reads for the start, and leaves time and flag alone. -/
theorem onActivate_frame (given : Activation R) (s : MoveToStartWithGripper R) :
    ∃ map q dq kin qGoal, (s.onActivate given).2 =
        { s with
          stateNames := given.stateNames, stateMap := map, q := q, dq := dq, qStart := q
          kinInitialized := kin, qGoal := qGoal } ∧
      q = ({ s with stateNames := given.stateNames }.readState given.stateValues).q := by
  obtain ⟨map, q, dq, read⟩ :=
    readState_frame given.stateValues { s with stateNames := given.stateNames }
  unfold onActivate
  rw [read]
  simp only
  split
  · obtain ⟨kin, qGoal, solved⟩ := solveIk_frame given
      { s with stateNames := given.stateNames, stateMap := map, q := q, dq := dq, qStart := q }
    rw [solved]
    exact ⟨map, q, dq, kin, qGoal, rfl, rfl⟩
  · exact ⟨map, q, dq, _, _, rfl, rfl⟩

/-- The reference a cycle writes. -/
def nextReference (dt : R) (s : MoveToStartWithGripper R) : Vector7d R :=
  if s.finished = false then s.blend (clamp ((s.elapsedTime + dt) / s.duration) 0 1)
  else if s.holdPosition then s.qGoal
  else s.q

theorem reference_frame (norm : Vector7d R → R) (dt : R) (s : MoveToStartWithGripper R) :
    ∃ finished processFinished, s.reference norm dt =
      { s with
        elapsedTime := if s.finished = false then s.elapsedTime + dt else s.elapsedTime
        qDes := s.nextReference dt, finished := finished, processFinished := processFinished } := by
  unfold reference nextReference
  split
  · simp only
    split <;> exact ⟨_, _, rfl⟩
  · split <;> exact ⟨_, _, rfl⟩

/-- A cycle that gets a robot state. -/
theorem update_frame (norm : Vector7d R → R) {given : Cycle R}
    (robotState : given.robotState = true) (s : MoveToStartWithGripper R) :
    ∃ map q dq finished processFinished effort, (s.update norm given).2 =
        { s with
          stateMap := map, q := q, dq := dq, finished := finished
          processFinished := processFinished, effort := effort
          elapsedTime := if s.finished = false then s.elapsedTime + given.period else s.elapsedTime
          qDes := (s.readState given.stateValues).nextReference given.period } := by
  obtain ⟨map, q, dq, read⟩ := readState_frame given.stateValues s
  unfold update
  rw [read]
  simp only
  rw [if_neg (by rw [robotState]; decide)]
  obtain ⟨finished, processFinished, next⟩ := reference_frame norm given.period
    { s with stateMap := map, q := q, dq := dq }
  rw [next]
  exact ⟨map, q, dq, finished, processFinished, _, rfl⟩

/-! ## The first reference -/

/-- The cases in which the reference of the first cycle is near the start.  Nothing has moved
since the configuration; or the goal is the start, or a cycle is long enough for the whole
motion; or the arm has been let go, and is still where a motion could have it. -/
def Fresh (s : MoveToStartWithGripper R) (c : Cycle R) : Prop :=
  if s.finished = false then
    s.elapsedTime = 0 ∨ s.qStart = s.qGoal ∨ s.duration ≤ c.period
  else if s.holdPosition then s.qStart = s.qGoal ∨ s.duration ≤ c.period
  else
    ∃ t, 0 ≤ t ∧ t ≤ 1 ∧ t ≤ c.period / s.duration ∧
      (s.readState c.stateValues).q = s.blend t

section Blend

variable [IsStrictOrderedRing R]

theorem duration_pos (s : MoveToStartWithGripper R) : 0 < s.duration :=
  lt_max_of_lt_left (by norm_num)

theorem blend_one (s : MoveToStartWithGripper R) : s.blend 1 = s.qGoal := by
  funext i
  simp [blend]

/-- Between two different poses, different times give different poses. -/
theorem blend_inj {s : MoveToStartWithGripper R} {t t' : R} :
    s.blend t = s.blend t' ↔ t = t' ∨ s.qStart = s.qGoal := by
  constructor
  · intro same
    by_contra! both
    obtain ⟨differ, apart⟩ := both
    apply apart
    funext i
    have here := congrFun same i
    simp only [blend] at here
    have product : (t - t') * (s.qGoal i - s.qStart i) = 0 := by linear_combination here
    rcases mul_eq_zero.1 product with zero | zero
    · exact absurd (sub_eq_zero.1 zero) differ
    · exact (sub_eq_zero.1 zero).symm
  · rintro (rfl | together)
    · rfl
    · funext i
      simp only [blend, together]
      ring

/-- The share of the motion a first cycle makes is within its period if no time had passed,
or the period is long enough. -/
theorem share_le_iff {elapsed dt duration : R} (nonneg : 0 ≤ elapsed) (period : 0 ≤ dt)
    (positive : 0 < duration) :
    clamp ((elapsed + dt) / duration) 0 1 ≤ dt / duration ↔ elapsed = 0 ∨ duration ≤ dt := by
  have share : 0 ≤ (elapsed + dt) / duration :=
    div_nonneg (add_nonneg nonneg period) positive.le
  rw [clamp, max_eq_right (le_min share zero_le_one), min_le_iff, one_le_div positive,
    div_le_div_iff_of_pos_right positive]
  refine or_congr ⟨fun less => ?_, fun zero => ?_⟩ Iff.rfl
  · exact le_antisymm (by linarith) nonneg
  · rw [zero, zero_add]

/-- A share of the motion is near the start if it is small, or there is nowhere to go. -/
theorem blend_near_iff {s : MoveToStartWithGripper R} {share bound : R} (nonneg : 0 ≤ share)
    (within : share ≤ 1) (room : 0 ≤ bound) :
    (∃ t, 0 ≤ t ∧ t ≤ 1 ∧ t ≤ bound ∧ s.blend share = s.blend t) ↔
      share ≤ bound ∨ s.qStart = s.qGoal := by
  constructor
  · rintro ⟨t, -, -, below, same⟩
    rcases blend_inj.1 same with rfl | together
    · exact .inl below
    · exact .inr together
  · rintro (below | together)
    · exact ⟨share, nonneg, within, below, rfl⟩
    · exact ⟨0, le_refl 0, zero_le_one, room, blend_inj.2 (.inr together)⟩

/-- **The first reference**: it is near the start in these cases, and in no others. -/
theorem nextReference_near_iff {s : MoveToStartWithGripper R} (nonneg : 0 ≤ s.elapsedTime)
    (c : Cycle R) :
    (∃ t, 0 ≤ t ∧ t ≤ 1 ∧ t ≤ c.period / s.duration ∧
        (s.readState c.stateValues).nextReference c.period = s.blend t) ↔ s.Fresh c := by
  have room : 0 ≤ c.period / s.duration := div_nonneg c.period_nonneg s.duration_pos.le
  obtain ⟨map, q, dq, read⟩ := readState_frame c.stateValues s
  unfold Fresh nextReference
  rw [read]
  simp only
  cases finished : s.finished with
  | false =>
      have share := FrankaRos.RlAction.clamp_mem (v := (s.elapsedTime + c.period) / s.duration)
        (zero_le_one' R)
      refine (blend_near_iff (s := s) share.1 share.2 room).trans ?_
      rw [share_le_iff nonneg c.period_nonneg s.duration_pos, if_pos rfl]
      tauto
  | true =>
      cases held : s.holdPosition with
      | true =>
          have goal := blend_near_iff (s := s) zero_le_one le_rfl room
          rw [blend_one, one_le_div s.duration_pos] at goal
          exact goal.trans or_comm
      | false => exact Iff.rfl

/-! ## Runs -/

/-- What a successful activation leaves. -/
structure Activated (a : Activation R) (s t : MoveToStartWithGripper R) : Prop where
  active : t.lifecycle = .active
  elapsedTime : t.elapsedTime = s.elapsedTime
  measures : Measures a.stateNames a.stateValues s.jointNames t.qStart

theorem step_activate {s : MoveToStartWithGripper R} {a : Activation R} (activates : s.Activates a)
    (readable : s.Readable a.stateNames) (norm : Vector7d R → R) :
    Activated a s (s.step norm (.activate a)) := by
  obtain ⟨inactive, success⟩ := activates
  obtain ⟨map, q, dq, kin, qGoal, frame, read⟩ := onActivate_frame a s
  have measures : Measures a.stateNames a.stateValues s.jointNames q := by
    rw [read]
    exact readState_measures (s := { s with stateNames := a.stateNames }) readable a.stateValues
  rw [step, if_pos inactive]
  rcases activated : s.onActivate a with ⟨result, s'⟩
  rw [activated] at success frame
  obtain rfl : result = .success := success
  obtain rfl : s' = _ := frame
  exact ⟨rfl, rfl, measures⟩

theorem run_waits {norm : Vector7d R → R} {s : MoveToStartWithGripper R}
    (active : s.lifecycle = .active) {mid : List (Event R)} (waits : ∀ e ∈ mid, Event.Waits e) :
    run (step norm) s mid = s := by
  refine run_invariant (step norm) (I := fun t => t = s) ?_ waits rfl
  rintro _ e waiting rfl
  cases e with
  | configure | activate | cleanup => simp [step, active]
  | deactivate | update => exact waiting.elim

/-- The time of a motion is a sum of periods. -/
theorem elapsedTime_step (norm : Vector7d R → R) {s : MoveToStartWithGripper R}
    (nonneg : 0 ≤ s.elapsedTime) (e : Event R) : 0 ≤ (s.step norm e).elapsedTime := by
  cases e with
  | configure given =>
      have after : 0 ≤ (s.onConfigure given).2.elapsedTime := by
        unfold onConfigure
        simp only
        repeat' split
        all_goals first | exact nonneg | exact le_refl 0
      simp only [step]
      split
      · rcases result : s.onConfigure given with ⟨_ | _ | _, s'⟩ <;> rw [result] at after <;>
          exact after
      · exact nonneg
  | activate given =>
      obtain ⟨map, q, dq, kin, qGoal, frame, -⟩ := onActivate_frame given s
      simp only [step]
      split
      · rcases result : s.onActivate given with ⟨_ | _ | _, s'⟩ <;> rw [result] at frame <;>
          (rw [show s' = _ from frame]; exact nonneg)
      · exact nonneg
  | deactivate | cleanup =>
      simp only [step]
      split <;> exact nonneg
  | update given =>
      simp only [step]
      split
      · cases message : given.robotState with
        | true =>
            obtain ⟨map, q, dq, finished, processFinished, effort, frame⟩ :=
              update_frame norm message s
            rw [frame]
            simp only
            split
            · exact add_nonneg nonneg given.period_nonneg
            · exact nonneg
        | false =>
            obtain ⟨map, q, dq, read⟩ := readState_frame given.stateValues s
            rw [update, if_pos message, read]
            exact nonneg
      · exact nonneg

theorem elapsedTime_run (norm : Vector7d R → R) (es : List (Event R)) :
    0 ≤ (run (step norm) constructed es).elapsedTime :=
  run_invariant (step norm) (I := fun s => 0 ≤ s.elapsedTime) (A := fun _ => True)
    (fun _ e _ nonneg => elapsedTime_step norm nonneg e) (fun _ _ => trivial) (le_refl 0)

/-- An update on its own. -/
theorem begins_update_iff (norm : Vector7d R → R) {s : MoveToStartWithGripper R}
    (nonneg : 0 ≤ s.elapsedTime) {c : Cycle R} (robotState : c.robotState = true) :
    Begins s.qStart c (s.update norm c).2 ↔ s.Fresh c := by
  obtain ⟨map, q, dq, finished, processFinished, effort, frame⟩ := update_frame norm robotState s
  rw [frame, ← nextReference_near_iff nonneg c]
  exact ⟨fun begins => begins.blends, fun near => ⟨rfl, near⟩⟩

/-- One first update. -/
theorem begins_iff_fresh {norm : Vector7d R → R} {es pre mid : List (Event R)} {a : Activation R}
    {c : Cycle R} (first : FirstUpdate norm es pre mid a c) :
    (∃ pose,
        Measures a.stateNames a.stateValues (run (step norm) constructed pre).jointNames pose ∧
          Begins pose c
            (run (step norm) constructed (pre ++ .activate a :: (mid ++ [.update c])))) ↔
      Fresh (run (step norm) constructed (pre ++ [.activate a])) c := by
  obtain ⟨-, activates, readable, waits, robotState⟩ := first
  have activated := step_activate activates readable norm
  have nonneg := elapsedTime_run norm pre
  rw [run_append, run_append, run_cons, run_append, run_cons, run_cons, run_nil, run_nil]
  generalize run (step norm) constructed pre = s at *
  generalize s.step norm (.activate a) = t at *
  obtain ⟨active, elapsedTime, measures⟩ := activated
  rw [run_waits active waits, step, if_pos active,
    ← begins_update_iff norm (elapsedTime.symm ▸ nonneg) robotState]
  constructor
  · rintro ⟨pose, -, begins⟩
    obtain ⟨map, q, dq, finished, processFinished, effort, frame⟩ := update_frame norm robotState t
    have same : t.qStart = pose := by
      rw [← begins.start, frame]
    rw [same]
    exact begins
  · exact fun begins => ⟨t.qStart, measures, begins⟩

/-- **Where the reference begins**, in a run with any activations and configurations. -/
theorem beginsWhereTheArmIs_iff (norm : Vector7d R → R) (es : List (Event R)) :
    BeginsWhereTheArmIs norm es ↔ ∀ pre mid a c, FirstUpdate norm es pre mid a c →
      Fresh (run (step norm) constructed (pre ++ [.activate a])) c :=
  forall_congr' fun _ => forall_congr' fun _ => forall_congr' fun _ => forall_congr' fun _ =>
    forall_congr' fun first => begins_iff_fresh first

/-! ## After a configuration -/

/-- Nothing has moved since the last successful configuration. -/
def Unmoved (s : MoveToStartWithGripper R) : Prop := s.elapsedTime = 0 ∧ s.finished = false

theorem Unmoved.fresh {s : MoveToStartWithGripper R} (unmoved : s.Unmoved) (c : Cycle R) :
    s.Fresh c := by
  rw [Fresh, if_pos unmoved.2]
  exact .inl unmoved.1

/-- Only updates move, and a configuration starts over. -/
theorem unmoved_step (norm : Vector7d R → R) {s : MoveToStartWithGripper R} (unmoved : s.Unmoved)
    {e : Event R} (other : ∀ given, e ≠ .update given) : (s.step norm e).Unmoved := by
  obtain ⟨elapsed, finished⟩ := unmoved
  cases e with
  | configure given =>
      have after : (s.onConfigure given).2.Unmoved := by
        unfold onConfigure
        simp only
        repeat' split
        all_goals first | exact ⟨elapsed, finished⟩ | exact ⟨rfl, rfl⟩
      simp only [step]
      split
      · rcases result : s.onConfigure given with ⟨_ | _ | _, s'⟩ <;> rw [result] at after <;>
          exact after
      · exact ⟨elapsed, finished⟩
  | activate given =>
      obtain ⟨map, q, dq, kin, qGoal, frame, -⟩ := onActivate_frame given s
      simp only [step]
      split
      · rcases result : s.onActivate given with ⟨_ | _ | _, s'⟩ <;> rw [result] at frame <;>
          (rw [show s' = _ from frame]; exact ⟨elapsed, finished⟩)
      · exact ⟨elapsed, finished⟩
  | deactivate | cleanup =>
      simp only [step]
      split <;> exact ⟨elapsed, finished⟩
  | update given => exact absurd rfl (other given)

theorem unmoved_configure (norm : Vector7d R → R) {s : MoveToStartWithGripper R}
    {given : Configuration R} (unconfigured : s.lifecycle = .unconfigured)
    (success : (s.onConfigure given).1 = .success) : (s.step norm (.configure given)).Unmoved := by
  have after : (s.onConfigure given).2.Unmoved := by
    revert success
    unfold onConfigure
    simp only
    repeat' split
    all_goals first | exact fun _ => ⟨rfl, rfl⟩ | exact nofun
  rw [step, if_pos unconfigured]
  rcases configured : s.onConfigure given with ⟨result, s'⟩
  rw [configured] at success after
  obtain rfl : result = .success := success
  exact after

/-- **After a configuration**, an activation before any update is fresh. -/
theorem fresh_of_configured (norm : Vector7d R → R) {s : MoveToStartWithGripper R}
    {given : Configuration R} (unconfigured : s.lifecycle = .unconfigured)
    (success : (s.onConfigure given).1 = .success) {es : List (Event R)}
    (still : ∀ e ∈ es, ∀ given, e ≠ .update given) (c : Cycle R) :
    Fresh (run (step norm) (s.step norm (.configure given)) es) c := by
  refine Unmoved.fresh (run_invariant (step norm) (I := Unmoved) ?_ still ?_) c
  · exact fun t e other unmoved => unmoved_step norm unmoved other
  · exact unmoved_configure norm unconfigured success

end Blend

/-! ## A motion that is interrupted -/

/-- The Euclidean norm, of vectors with a rational one. -/
def euclidean (v : Vector7d ℚ) : ℚ := Rat.sqrt (List.ofFn fun i => v i * v i).sum

def fr3Configuration : Configuration ℚ where
  jointNames := fr3Joints
  qGoal := [1, 0, 0, 0, 0, 0, 0]
  moveDuration := 10
  finishTolerance := 1 / 100
  holdPosition := true
  usePinocchioIk := false
  kGains := some (List.replicate 7 1)
  dGains := some (List.replicate 7 1)
  robotDescription := true

/-- The arm is at zero. -/
def fr3Activation : Activation ℚ where
  stateNames := fr3Joints.flatMap fun joint => [joint ++ "/position", joint ++ "/velocity"]
  stateValues _ := 0
  initPinocchio := false
  ik := none
  robotStateAssigned := true

/-- A second. -/
def fr3Cycle : Cycle ℚ where
  period := 1
  period_nonneg := zero_le_one
  stateValues _ := 0
  robotState := true

def untilInterruption : List (Event ℚ) :=
  [.configure fr3Configuration, .activate fr3Activation, .update fr3Cycle, .deactivate]

/-- The first motion begins where the arm is. -/
theorem begins_untilInterruption : BeginsWhereTheArmIs euclidean untilInterruption := by
  refine (beginsWhereTheArmIs_iff euclidean untilInterruption).2 fun pre mid a c first => ?_
  obtain ⟨post, split⟩ := first.split
  have configured : pre = [.configure fr3Configuration] := by
    rcases pre with _ | ⟨e, _ | ⟨e₂, _ | ⟨e₃, _ | ⟨e₄, pre⟩⟩⟩⟩ <;>
      simp [untilInterruption] at split
    rw [split.1]
  have still : ∀ e ∈ [.activate a], ∀ given, e ≠ Event.update given := by simp
  rw [configured]
  exact fresh_of_configured euclidean rfl (by decide +kernel) still c

/-- The second activation takes up the motion a second in, from a start of its own. -/
theorem not_begins_interrupted :
    ¬ BeginsWhereTheArmIs euclidean
      (untilInterruption ++ [.activate fr3Activation, .update fr3Cycle]) := by
  intro begins
  have first : FirstUpdate euclidean
      (untilInterruption ++ [.activate fr3Activation, .update fr3Cycle]) untilInterruption []
      fr3Activation fr3Cycle := by
    refine ⟨⟨[], rfl⟩, ⟨by decide +kernel, by decide +kernel⟩, ?_, nofun, rfl⟩
    -- the map of the first activation is still there
    refine ⟨fun j => ⟨2 * j.val, 2 * j.val + 1⟩, by decide +kernel, locates_of_built ?_⟩
    decide +kernel
  obtain ⟨pose, -, -, t, -, -, near, here⟩ := begins _ _ _ _ first
  have joint := congrFun here 0
  -- a fifth of the way, where a tenth is allowed
  obtain ⟨reference, start, goal, allowed⟩ :
      let s := run (step euclidean) constructed
        (untilInterruption ++ [.activate fr3Activation, .update fr3Cycle])
      s.qDes 0 = 1 / 5 ∧ s.qStart 0 = 0 ∧ s.qGoal 0 = 1 ∧
        fr3Cycle.period / max 1e-6 s.moveDuration = 1 / 10 := by
    decide +kernel
  rw [List.nil_append] at joint near
  rw [reference, start, goal] at joint
  rw [allowed] at near
  linarith

end MoveToStartWithGripper

end FrankaRos.MoveToStart
