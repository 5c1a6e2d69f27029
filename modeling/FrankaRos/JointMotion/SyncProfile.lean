/-
# JointMotion.SyncProfile -- the profiles of a synchronised motion

In exact arithmetic a moving joint has a `SpeedProfile` of its own, with the speed it
reaches by itself (`ownProfile`).  No joint's own time exceeds the shared one, so the
synchronised profile is the own one stretched to the shared time (`syncProfile_eq`): the
clipping of the discriminant never acts, and the speed stays below the joint's own.
-/
import FrankaRos.JointMotion.MotionGenerator
import FrankaRos.Theory.SpeedProfile

namespace FrankaRos.JointMotion

open FrankaRos.Theory Floating

set_option autoImplicit false

/-- Exact arithmetic. -/
noncomputable instance : Floating ℝ where
  lit q := (q : ℝ)
  abs x := |x|
  sqrt := Real.sqrt
  pow x n := x ^ n

/-- A literal is its value. -/
theorem lit_real (q : ℚ) : (lit q : ℝ) = (q : ℝ) := rfl

theorem abs_real (x : ℝ) : Floating.abs x = |x| := rfl

theorem sqrt_real (x : ℝ) : Floating.sqrt x = √x := rfl

theorem pow_real (x : ℝ) (n : Nat) : Floating.pow x n = x ^ n := rfl

namespace MotionGenerator

variable {s : MotionGenerator ℝ} {i : Fin 7}

/-- The joint moves by more than the threshold. -/
def Moves (s : MotionGenerator ℝ) (i : Fin 7) : Prop := deltaQMotionFinished < |s.deltaQ i|

/-- Positive limits. -/
structure Limited (s : MotionGenerator ℝ) (i : Fin 7) : Prop where
  speed : 0 < s.dqMax i
  start : 0 < s.ddqMaxStart i
  goal : 0 < s.ddqMaxGoal i

theorem Moves.distance_pos (moves : s.Moves i) : 0 < |s.deltaQ i| := by
  have threshold : (0 : ℝ) < deltaQMotionFinished := by
    rw [deltaQMotionFinished, lit_real]
    norm_num
  exact threshold.trans moves

theorem sign_cases {x : ℝ} (distance : 0 < |x|) :
    (0 < x ∧ sign x = 1 ∧ |x| = x) ∨ (x < 0 ∧ sign x = -1 ∧ |x| = -x) := by
  simp only [sign, lit_real]
  push_cast
  rcases lt_or_gt_of_ne (abs_pos.1 distance) with below | above
  · exact .inr ⟨below, by rw [if_neg (not_lt.2 below.le), if_pos below], abs_of_neg below⟩
  · exact .inl ⟨above, if_pos above, abs_of_pos above⟩

theorem mul_sign {x : ℝ} (distance : 0 < |x|) : x * sign x = |x| ∧ |x| * sign x = x := by
  rcases sign_cases distance with ⟨-, same, size⟩ | ⟨-, same, size⟩
  · rw [same, size, mul_one]
    exact ⟨rfl, rfl⟩
  · rw [same, size]
    constructor <;> ring

/-- The speed a joint reaches on its own is one that its distance allows. -/
theorem dqMaxReach_spec (limited : s.Limited i) (moves : s.Moves i) :
    0 < s.dqMaxReach i ∧ s.dqMaxReach i ≤ s.dqMax i ∧
      3 / 4 * (s.dqMaxReach i ^ 2 / s.ddqMaxStart i) +
        3 / 4 * (s.dqMaxReach i ^ 2 / s.ddqMaxGoal i) ≤ |s.deltaQ i| := by
  obtain ⟨speed, start, goal⟩ := limited
  have distance := moves.distance_pos
  have reach : s.dqMaxReach i =
      if |s.deltaQ i| < 3 / 4 * (s.dqMax i ^ 2 / s.ddqMaxStart i) +
          3 / 4 * (s.dqMax i ^ 2 / s.ddqMaxGoal i) then
        √(4 / 3 * |s.deltaQ i| * (s.ddqMaxStart i * s.ddqMaxGoal i) /
          (s.ddqMaxStart i + s.ddqMaxGoal i))
      else s.dqMax i := by
    simp only [dqMaxReach, lit_real, abs_real, sqrt_real, pow_real]
    push_cast
    rw [mul_assoc (4 / 3 : ℝ), (mul_sign distance).1]
  generalize s.dqMaxReach i = r at reach ⊢
  generalize s.deltaQ i = x at distance reach ⊢
  generalize s.ddqMaxStart i = a at start reach ⊢
  generalize s.ddqMaxGoal i = g at goal reach ⊢
  generalize s.dqMax i = v at speed reach ⊢
  split at reach
  · rename_i short
    have square : r ^ 2 = 4 / 3 * |x| * (a * g) / (a + g) := by
      rw [reach]
      apply Real.sq_sqrt
      positivity
    have whole : 3 / 4 * (r ^ 2 / a) + 3 / 4 * (r ^ 2 / g) = |x| := by
      rw [square]
      field_simp
      ring
    have positive : 0 < r := by
      rw [reach]
      apply Real.sqrt_pos.2
      positivity
    refine ⟨positive, ?_, whole.le⟩
    by_contra larger
    have square := pow_le_pow_left₀ speed.le (not_le.1 larger).le 2
    have first := div_le_div_of_nonneg_right square start.le
    have second := div_le_div_of_nonneg_right square goal.le
    linarith
  · rename_i long
    rw [reach]
    exact ⟨speed, le_refl v, not_lt.1 long⟩

theorem dqMaxReach_pos (limited : s.Limited i) (moves : s.Moves i) : 0 < s.dqMaxReach i :=
  (dqMaxReach_spec limited moves).1

/-- There is room for the two ramps. -/
theorem dqMaxReach_reached (limited : s.Limited i) (moves : s.Moves i) :
    3 / 4 * (s.dqMaxReach i ^ 2 / s.ddqMaxStart i) +
      3 / 4 * (s.dqMaxReach i ^ 2 / s.ddqMaxGoal i) ≤ |s.deltaQ i| :=
  (dqMaxReach_spec limited moves).2.2

/-! ## The synchronised profile -/

/-- The profile of a moving joint on its own. -/
noncomputable def ownProfile (limited : s.Limited i) (moves : s.Moves i) : SpeedProfile where
  peak := s.dqMaxReach i
  accel := s.ddqMaxStart i
  decel := s.ddqMaxGoal i
  distance := |s.deltaQ i|
  peak_pos := dqMaxReach_pos limited moves
  accel_pos := limited.start
  decel_pos := limited.goal
  reached := dqMaxReach_reached limited moves

theorem tF_eq (limited : s.Limited i) (moves : s.Moves i) :
    s.tF i = (ownProfile limited moves).tf := by
  have enters : deltaQMotionFinished < Floating.abs (s.deltaQ i) := moves
  rw [tF, if_pos enters]
  simp only [lit_real, abs_real]
  push_cast
  rfl

/-- The parameters of a joint are those of its own profile stretched to the shared time. -/
theorem syncProfile_eq (limited : s.Limited i) (moves : s.Moves i) {maxTF : ℝ}
    (slower : (ownProfile limited moves).tf ≤ maxTF) :
    s.syncProfile maxTF i =
      { dqMaxSync := ((ownProfile limited moves).stretch slower).peak
        t1Sync := ((ownProfile limited moves).stretch slower).t1
        t2Sync := ((ownProfile limited moves).stretch slower).t2
        tFSync := ((ownProfile limited moves).stretch slower).tf
        q1 := ((ownProfile limited moves).stretch slower).peak * sign (s.deltaQ i) *
          (1 / 2 * ((ownProfile limited moves).stretch slower).t1) } := by
  have real : ¬ (maxTF * s.ddqMaxGoal i * s.ddqMaxStart i) ^ 2 -
      4 * (3 / 4 * (s.ddqMaxGoal i + s.ddqMaxStart i)) *
        (|s.deltaQ i| * s.ddqMaxGoal i * s.ddqMaxStart i) < 0 :=
    not_lt.2 ((ownProfile limited moves).stretchedPeak_spec slower).1
  have positive := ((ownProfile limited moves).stretch slower).peak_pos
  have clipped : -1 * maxTF * s.ddqMaxGoal i * s.ddqMaxStart i *
      (-1 * maxTF * s.ddqMaxGoal i * s.ddqMaxStart i) -
        4 * (3 / 2 / 2 * (s.ddqMaxGoal i + s.ddqMaxStart i)) *
          (|s.deltaQ i| * s.ddqMaxGoal i * s.ddqMaxStart i) =
      (maxTF * s.ddqMaxGoal i * s.ddqMaxStart i) ^ 2 -
        4 * (3 / 4 * (s.ddqMaxGoal i + s.ddqMaxStart i)) *
          (|s.deltaQ i| * s.ddqMaxGoal i * s.ddqMaxStart i) := by
    ring
  have peak : (-1 * (-1 * maxTF * s.ddqMaxGoal i * s.ddqMaxStart i) -
      √((maxTF * s.ddqMaxGoal i * s.ddqMaxStart i) ^ 2 -
        4 * (3 / 4 * (s.ddqMaxGoal i + s.ddqMaxStart i)) *
          (|s.deltaQ i| * s.ddqMaxGoal i * s.ddqMaxStart i))) /
      (2 * (3 / 2 / 2 * (s.ddqMaxGoal i + s.ddqMaxStart i))) =
        ((ownProfile limited moves).stretch slower).peak := by
    show _ = (maxTF * s.ddqMaxGoal i * s.ddqMaxStart i - √((maxTF * s.ddqMaxGoal i *
      s.ddqMaxStart i) ^ 2 - 4 * (3 / 4 * (s.ddqMaxGoal i + s.ddqMaxStart i)) *
        (|s.deltaQ i| * s.ddqMaxGoal i * s.ddqMaxStart i))) /
          (2 * (3 / 4 * (s.ddqMaxGoal i + s.ddqMaxStart i)))
    congr 1 <;> ring
  simp only [syncProfile, lit_real, abs_real, sqrt_real]
  push_cast
  rw [clipped, if_neg real, peak, abs_div, abs_of_pos positive]
  rfl

/-- What a query evaluates is the displacement of the profile, in the joint's direction. -/
theorem piece_eq (q : SpeedProfile) {x : ℝ} (distance : q.distance = |x|) (time : ℝ) :
    piece ⟨q.peak, q.t1, q.t2, q.tf, q.peak * sign x * (1 / 2 * q.t1)⟩ x time =
      (sign x * q.displacement time, decide (q.tf ≤ time)) := by
  have positive : 0 < |x| := distance ▸ q.distance_pos
  have target : x = sign x * q.distance := by
    rw [distance, mul_comm, (mul_sign positive).2]
  have ordered := q.t1_le_t2
  have last := q.t2_lt_tf
  simp only [piece, SpeedProfile.displacement, lit_real, pow_real]
  push_cast
  rcases lt_or_ge time q.t1 with before | behind₁
  · have t1 := q.t1_pos.ne'
    rw [if_pos before, if_pos before,
      decide_eq_false (not_le.2 (before.trans_le (ordered.trans last.le)))]
    congr 1
    rw [ramp]
    field_simp
    ring
  rw [if_neg (not_lt.2 behind₁), if_neg (not_lt.2 behind₁)]
  rcases lt_or_ge time q.t2 with before | behind₂
  · rw [if_pos ⟨behind₁, before⟩, if_pos before, decide_eq_false (not_le.2 (before.trans last))]
    congr 1
    ring
  rw [if_neg (fun cruises => not_lt.2 behind₂ cruises.2), if_neg (not_lt.2 behind₂)]
  rcases lt_or_ge time q.tf with before | behind₃
  · rw [if_pos ⟨behind₂, before⟩, if_pos before, decide_eq_false (not_le.2 before)]
    congr 1
    have braking := q.braking_pos.ne'
    have length : q.tf = q.t2 + q.braking := by
      rw [SpeedProfile.t2]
      ring
    rw [length, add_sub_cancel_left, ramp]
    nth_rewrite 1 [target]
    field_simp
    ring
  · rw [if_neg (fun brakes => not_lt.2 behind₃ brakes.2), if_neg (not_lt.2 behind₃),
      decide_eq_true behind₃, ← target]

/-- The largest of seven times is not smaller than any. -/
theorem le_maxCoeff (v : Fin 7 → ℝ) (i : Fin 7) : v i ≤ maxCoeff v := by
  have grows : ∀ (l : List (Fin 7)) (largest : ℝ), largest ≤
      l.foldl (fun largest i => if largest < v i then v i else largest) largest ∧
        ∀ i ∈ l, v i ≤ l.foldl (fun largest i => if largest < v i then v i else largest) largest := by
    intro l
    induction l with
    | nil => exact fun largest => ⟨le_refl _, nofun⟩
    | cons j l ih =>
        intro largest
        rw [List.foldl_cons]
        obtain ⟨above, members⟩ := ih (if largest < v j then v j else largest)
        have both : largest ≤ (if largest < v j then v j else largest) ∧
            v j ≤ (if largest < v j then v j else largest) := by
          split
          · rename_i below
            exact ⟨below.le, le_refl _⟩
          · rename_i reached
            exact ⟨le_refl _, not_lt.1 reached⟩
        refine ⟨both.1.trans above, fun i member => ?_⟩
        rcases List.mem_cons.1 member with rfl | member
        · exact both.2.trans above
        · exact members i member
  exact (grows _ _).2 i (List.mem_finRange i)

/-! ## The motion -/

/-- What a moving joint's profile `p` does: the displacement of its pieces, which a query
evaluates, is smooth, goes monotonically from zero to the whole distance, and has the
speed `dqMaxSync` at its peak. -/
structure Smooth (p : JointProfile ℝ) (deltaQ : ℝ) : Prop where
  times : 0 < p.t1Sync ∧ p.t1Sync ≤ p.t2Sync ∧ p.t2Sync ≤ p.tFSync
  differentiable : Differentiable ℝ fun t => (piece p deltaQ t).1
  start : (piece p deltaQ 0).1 = 0
  arrives : ∀ t, p.tFSync ≤ t → (piece p deltaQ t).1 = deltaQ
  forward : 0 < deltaQ → MonotoneOn (fun t => (piece p deltaQ t).1) (Set.Ici 0)
  backward : deltaQ < 0 → AntitoneOn (fun t => (piece p deltaQ t).1) (Set.Ici 0)
  slower : ∀ t, 0 ≤ t → |deriv (fun t => (piece p deltaQ t).1) t| ≤ p.dqMaxSync
  peak : |deriv (fun t => (piece p deltaQ t).1) p.t1Sync| = p.dqMaxSync

theorem smooth_of_profile (q : SpeedProfile) {x : ℝ} (distance : q.distance = |x|) :
    Smooth ⟨q.peak, q.t1, q.t2, q.tf, q.peak * sign x * (1 / 2 * q.t1)⟩ x := by
  have positive : 0 < |x| := distance ▸ q.distance_pos
  have same : (fun t => (piece ⟨q.peak, q.t1, q.t2, q.tf, q.peak * sign x * (1 / 2 * q.t1)⟩ x t).1) =
      fun t => sign x * q.displacement t := funext fun t => by rw [piece_eq q distance]
  have slope : ∀ t, HasDerivAt (fun t => sign x * q.displacement t) (sign x * q.speed t) t :=
    fun t => (q.hasDerivAt_displacement t).const_mul _
  have unit : |sign x| = 1 := by
    rcases sign_cases positive with ⟨-, one, -⟩ | ⟨-, one, -⟩ <;> simp [one]
  refine ⟨⟨q.t1_pos, q.t1_le_t2, q.t2_lt_tf.le⟩, ?_, ?_, ?_, ?_, ?_, ?_, ?_⟩
  · rw [same]
    exact fun t => (slope t).differentiableAt
  · rw [piece_eq q distance, q.displacement_zero, mul_zero]
  · intro t behind
    rw [piece_eq q distance, q.displacement_of_tf_le behind, distance, mul_comm]
    exact (mul_sign positive).2
  · intro above
    rw [same]
    rcases sign_cases positive with ⟨-, one, -⟩ | ⟨below, -⟩
    · simpa only [one, one_mul] using q.monotoneOn_displacement
    · exact absurd below (not_lt.2 above.le)
  · intro below
    rw [same]
    rcases sign_cases positive with ⟨above, -⟩ | ⟨-, one, -⟩
    · exact absurd below (not_lt.2 above.le)
    · simpa only [one, neg_one_mul] using q.monotoneOn_displacement.neg
  · intro t nonneg
    obtain ⟨low, high⟩ := q.speed_mem nonneg
    rw [same, (slope t).deriv, abs_mul, unit, one_mul, abs_of_nonneg low]
    exact high
  · rw [same, (slope _).deriv, abs_mul, unit, one_mul, q.speed_t1, abs_of_pos q.peak_pos]

/-- What is promised of a motion, whose joints may move at the given speeds: every moving
joint has a smooth profile, all of them end at the shared time `maxTF`, and a query
returns the sum of start and displacement, finished from the shared time on. -/
structure Synchronised (s : MotionGenerator ℝ) (limits : Fin 7 → ℝ) (maxTF : ℝ) : Prop where
  moving : ∀ i, s.Moves i → ∃ p, s.sync i = some p ∧ p.tFSync = maxTF ∧
    p.dqMaxSync ≤ limits i ∧ Smooth p (s.deltaQ i)
  query : ∀ time, ∃ q finished, s.getDesiredJointPositions time = some (q, finished) ∧
    (finished = true ↔ ∀ i, s.Moves i → maxTF ≤ time) ∧
    (∀ i p, s.Moves i → s.sync i = some p → q i = s.qStart i + (piece p (s.deltaQ i) time).1) ∧
    ∀ i, ¬ s.Moves i → q i = s.qStart i

/-- The limits of a motion slowed down by a positive factor. -/
theorem construct_limited {speedFactor : ℝ} (positive : 0 < speedFactor) (qStart qGoal : Fin 7 → ℝ)
    (i : Fin 7) : (construct speedFactor qStart qGoal).Limited i := by
  have five : (0 : ℝ) < declaredDdqMax := by
    rw [declaredDdqMax, lit_real]
    norm_num
  have declared : (0 : ℝ) < declaredDqMax i := by
    unfold declaredDqMax
    split
    · rw [lit_real]
      norm_num
    · rw [lit_real]
      norm_num
  exact ⟨mul_pos declared positive, mul_pos five positive, mul_pos five positive⟩

/-- The profile of a moving joint of a motion with positive limits. -/
theorem exists_profile (limited : s.Limited i) (moves : s.Moves i) :
    ∃ q : SpeedProfile, q.distance = |s.deltaQ i| ∧ q.tf = maxCoeff s.tF ∧ q.peak ≤ s.dqMax i ∧
      s.syncProfile (maxCoeff s.tF) i =
        ⟨q.peak, q.t1, q.t2, q.tf, q.peak * sign (s.deltaQ i) * (1 / 2 * q.t1)⟩ := by
  have slower : (ownProfile limited moves).tf ≤ maxCoeff s.tF := by
    rw [← tF_eq]
    exact le_maxCoeff s.tF i
  obtain ⟨-, -, smaller, -⟩ := (ownProfile limited moves).stretchedPeak_spec slower
  exact ⟨(ownProfile limited moves).stretch slower, rfl, SpeedProfile.stretch_tf _ slower,
    smaller.trans (dqMaxReach_spec limited moves).2.1, syncProfile_eq limited moves slower⟩

/-- **The synchronised joint profile.**  For every positive speed factor and every motion
no joint of which moves by exactly the threshold. -/
theorem synchronised {speedFactor : ℝ} (positive : 0 < speedFactor) {qStart qGoal : Fin 7 → ℝ}
    (apart : ∀ i, |qGoal i - qStart i| ≠ 1 / 1000000) :
    ∃ maxTF, Synchronised (construct speedFactor qStart qGoal)
      (fun i => speedFactor * declaredDqMax i) maxTF := by
  have limited := construct_limited positive qStart qGoal
  have assigned : ∀ i, (construct speedFactor qStart qGoal).Moves i →
      (construct speedFactor qStart qGoal).sync i =
        some ((construct speedFactor qStart qGoal).syncProfile
          (maxCoeff (construct speedFactor qStart qGoal).tF) i) := fun i moves => if_pos moves
  have scaled : ∀ i, (construct speedFactor qStart qGoal).dqMax i = speedFactor * declaredDqMax i :=
    fun i => mul_comm _ _
  have apart : ∀ i, |(construct speedFactor qStart qGoal).deltaQ i| ≠ 1 / 1000000 := apart
  generalize construct speedFactor qStart qGoal = s at limited assigned scaled apart ⊢
  have threshold : (deltaQMotionFinished : ℝ) = 1 / 1000000 := by
    rw [deltaQMotionFinished, lit_real]
    norm_num
  refine ⟨maxCoeff s.tF, fun i moves => ?_, fun time => ?_⟩
  · obtain ⟨q, distance, shared, smaller, same⟩ := exists_profile (limited i) moves
    refine ⟨_, assigned i moves, ?_, ?_, ?_⟩
    · rw [same]
      exact shared
    · rw [same, ← scaled]
      exact smaller
    · rw [same]
      exact smooth_of_profile q distance
  · classical
    have desired : ∀ i, s.desired time i = some (if s.Moves i then
        piece (s.syncProfile (maxCoeff s.tF) i) (s.deltaQ i) time else (lit 0, true)) := by
      intro i
      unfold MotionGenerator.desired
      by_cases moves : s.Moves i
      · have evaluates : s.Evaluates i := not_lt.2 (le_of_lt moves)
        rw [if_pos evaluates, if_pos moves, assigned i moves]
        rfl
      · have still : ¬ s.Evaluates i := by
          refine not_not.2 (lt_of_le_of_ne (not_lt.1 moves) ?_)
          rw [threshold]
          exact apart i
        rw [if_neg still, if_neg moves]
    refine ⟨_, _, getDesiredJointPositions_eq desired, ?_, ?_, ?_⟩
    · rw [decide_eq_true_iff]
      refine forall_congr' fun i => ?_
      by_cases moves : s.Moves i
      · obtain ⟨q, distance, shared, -, same⟩ := exists_profile (limited i) moves
        rw [if_pos moves, same, piece_eq q distance, shared]
        simp [moves]
      · simp [moves]
    · intro i p moves given
      rw [assigned i moves] at given
      rw [if_pos moves, Option.some.inj given]
    · intro i stays
      rw [if_neg stays, lit_real, Rat.cast_zero, add_zero]

/-- Five joints move, at half the speed, by different distances in both directions; two stay. -/
theorem synchronised_several :
    ∃ maxTF, Synchronised (construct (1 / 2) (fun _ => 0) ![1, -2, 1 / 2, 0, 3 / 2, 0, -1 / 4])
      (fun i => 1 / 2 * declaredDqMax i) maxTF := by
  refine synchronised (by norm_num) fun i => ?_
  fin_cases i <;> norm_num [abs_of_pos, abs_of_neg]

end MotionGenerator

end FrankaRos.JointMotion
