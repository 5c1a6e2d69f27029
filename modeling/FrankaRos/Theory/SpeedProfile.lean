/-
# Theory.SpeedProfile -- a displacement with a smooth, bounded speed

A point moves a distance by speeding up from rest to a peak speed, cruising, and slowing
down to rest.  Both ramps follow `smoothstep`, so the speed is continuous, and a ramp of
length `d` covers half of what cruising for `d` would (`ramp`).  The peak has to be one
that the distance allows (`reached`), or there would be no room for the ramps.

`hasDerivAt_displacement` joins the pieces, by `hasDerivAt_splice`: two differentiable
functions that agree at a point to first order are one on its two sides.  That the
displacement grows and how fast are read off the speed.
-/
import Mathlib

namespace FrankaRos.Theory

set_option autoImplicit false

/-! ## Splicing -/

/-- Two functions that agree at `a` to first order, joined there. -/
theorem hasDerivAt_splice {f g f' g' : ℝ → ℝ} {a : ℝ} (hf : ∀ t, HasDerivAt f (f' t) t)
    (hg : ∀ t, HasDerivAt g (g' t) t) (value : f a = g a) (slope : f' a = g' a) (t : ℝ) :
    HasDerivAt (fun t => if t < a then f t else g t) (if t < a then f' t else g' t) t := by
  rcases lt_trichotomy t a with before | rfl | behind
  · rw [if_pos before]
    exact (hf t).congr_of_eventuallyEq
      (Filter.mem_of_superset (Iio_mem_nhds before) fun s hs => if_pos hs)
  · rw [if_neg (lt_irrefl t), ← hasDerivWithinAt_univ, ← Set.Iic_union_Ici (a := t)]
    refine HasDerivWithinAt.union ?_ ?_
    · rw [← slope]
      refine (hf t).hasDerivWithinAt.congr (fun s hs => ?_) ?_
      · rcases (Set.mem_Iic.1 hs).lt_or_eq with below | rfl
        · exact if_pos below
        · rw [if_neg (lt_irrefl s), value]
      · rw [if_neg (lt_irrefl t), value]
    · refine (hg t).hasDerivWithinAt.congr (fun s hs => ?_) ?_
      · exact if_neg (not_lt.2 hs)
      · exact if_neg (lt_irrefl t)
  · rw [if_neg (not_lt.2 behind.le)]
    exact (hg t).congr_of_eventuallyEq
      (Filter.mem_of_superset (Ioi_mem_nhds behind) fun s hs => if_neg (not_lt.2 (le_of_lt hs)))

/-! ## A quadratic -/

/-- Where a quadratic is not positive, it has a smaller root before. -/
theorem smaller_root {a b c r : ℝ} (ha : 0 < a) (hb : 0 < b) (hc : 0 < c)
    (below : a * r ^ 2 - b * r + c ≤ 0) :
    0 ≤ b ^ 2 - 4 * a * c ∧ 0 < (b - √(b ^ 2 - 4 * a * c)) / (2 * a) ∧
      (b - √(b ^ 2 - 4 * a * c)) / (2 * a) ≤ r ∧
      a * ((b - √(b ^ 2 - 4 * a * c)) / (2 * a)) ^ 2 -
        b * ((b - √(b ^ 2 - 4 * a * c)) / (2 * a)) + c = 0 := by
  have square : (2 * a * r - b) ^ 2 ≤ b ^ 2 - 4 * a * c := by
    have scaled := mul_nonpos_of_nonneg_of_nonpos (mul_nonneg (by norm_num : (0 : ℝ) ≤ 4) ha.le) below
    nlinarith
  have discriminant : 0 ≤ b ^ 2 - 4 * a * c := (sq_nonneg _).trans square
  have root := Real.sq_sqrt discriminant
  have small : √(b ^ 2 - 4 * a * c) < b := by
    rw [Real.sqrt_lt' hb]
    have := mul_pos ha hc
    linarith
  have reach : b - 2 * a * r ≤ √(b ^ 2 - 4 * a * c) := by
    apply Real.le_sqrt_of_sq_le
    linarith [sq_nonneg (2 * a * r - b), (by ring : (b - 2 * a * r) ^ 2 = (2 * a * r - b) ^ 2)]
  generalize √(b ^ 2 - 4 * a * c) = w at root small reach
  refine ⟨discriminant, div_pos (sub_pos.2 small) (by linarith), ?_, ?_⟩
  · rw [div_le_iff₀ (by linarith)]
    linarith
  · have expand : a * ((b - w) / (2 * a)) ^ 2 - b * ((b - w) / (2 * a)) + c =
        (w ^ 2 - (b ^ 2 - 4 * a * c)) / (4 * a) := by
      field_simp
      ring
    rw [expand, root, sub_self, zero_div]

/-! ## A ramp -/

/-- From 0 to 1, flat at both ends. -/
def smoothstep (x : ℝ) : ℝ := 3 * x ^ 2 - 2 * x ^ 3

/-- Its integral. -/
noncomputable def ramp (x : ℝ) : ℝ := x ^ 3 - x ^ 4 / 2

theorem smoothstep_mem {x : ℝ} (nonneg : 0 ≤ x) (le_one : x ≤ 1) :
    0 ≤ smoothstep x ∧ smoothstep x ≤ 1 := by
  have low : smoothstep x = x ^ 2 * (3 - 2 * x) := by rw [smoothstep]; ring
  have high : 1 - smoothstep x = (1 - x) ^ 2 * (1 + 2 * x) := by rw [smoothstep]; ring
  constructor
  · rw [low]
    exact mul_nonneg (sq_nonneg x) (by linarith)
  · have gap : 0 ≤ 1 - smoothstep x := by
      rw [high]
      exact mul_nonneg (sq_nonneg _) (by linarith)
    linarith

theorem hasDerivAt_ramp (x : ℝ) : HasDerivAt ramp (smoothstep x) x := by
  have cubic := hasDerivAt_pow 3 x
  have quartic := (hasDerivAt_pow 4 x).div_const 2
  refine (cubic.sub quartic).congr_deriv ?_
  rw [smoothstep]
  norm_num
  ring

/-- A ramp of length `d` up to the speed `v`. -/
theorem hasDerivAt_ramp_up {v d : ℝ} (positive : 0 < d) (t : ℝ) :
    HasDerivAt (fun t => v * d * ramp (t / d)) (v * smoothstep (t / d)) t := by
  have inner := (hasDerivAt_id t).div_const d
  refine (((hasDerivAt_ramp (t / d)).comp t inner).const_mul (v * d)).congr_deriv ?_
  field_simp

/-- A ramp of length `d` down to rest at `e`. -/
theorem hasDerivAt_ramp_down {v d : ℝ} (positive : 0 < d) (distance e t : ℝ) :
    HasDerivAt (fun t => distance - v * d * ramp ((e - t) / d)) (v * smoothstep ((e - t) / d)) t := by
  have inner := ((hasDerivAt_id t).const_sub e).div_const d
  refine ((((hasDerivAt_ramp ((e - t) / d)).comp t inner).const_mul (v * d)).const_sub
    distance).congr_deriv ?_
  field_simp

/-! ## The profile -/

/-- A peak speed that the distance allows, with the accelerations of the two ramps. -/
structure SpeedProfile where
  peak : ℝ
  accel : ℝ
  decel : ℝ
  distance : ℝ
  peak_pos : 0 < peak
  accel_pos : 0 < accel
  decel_pos : 0 < decel
  reached : 3 / 4 * (peak ^ 2 / accel) + 3 / 4 * (peak ^ 2 / decel) ≤ distance

namespace SpeedProfile

variable (p : SpeedProfile)

/-- The end of the first ramp. -/
noncomputable def t1 : ℝ := 3 / 2 * p.peak / p.accel

/-- The length of the second ramp. -/
noncomputable def braking : ℝ := 3 / 2 * p.peak / p.decel

/-- The end of the motion. -/
noncomputable def tf : ℝ := p.t1 / 2 + p.braking / 2 + p.distance / p.peak

/-- The begin of the second ramp. -/
noncomputable def t2 : ℝ := p.tf - p.braking

theorem t1_pos : 0 < p.t1 :=
  div_pos (mul_pos (by norm_num) p.peak_pos) p.accel_pos

theorem braking_pos : 0 < p.braking :=
  div_pos (mul_pos (by norm_num) p.peak_pos) p.decel_pos

theorem t2_lt_tf : p.t2 < p.tf := by
  rw [t2]
  linarith [p.braking_pos]

/-- The second ramp starts with its whole length left. -/
theorem braking_left : (p.tf - p.t2) / p.braking = 1 := by
  rw [t2, sub_sub_cancel, div_self p.braking_pos.ne']

/-- The distance leaves room for the two ramps. -/
theorem t1_le_t2 : p.t1 ≤ p.t2 := by
  have room : (3 / 4 * (p.peak ^ 2 / p.accel) + 3 / 4 * (p.peak ^ 2 / p.decel)) / p.peak ≤
      p.distance / p.peak := div_le_div_of_nonneg_right p.reached p.peak_pos.le
  have halves : (3 / 4 * (p.peak ^ 2 / p.accel) + 3 / 4 * (p.peak ^ 2 / p.decel)) / p.peak =
      p.t1 / 2 + p.braking / 2 := by
    have := p.peak_pos.ne'
    have := p.accel_pos.ne'
    have := p.decel_pos.ne'
    rw [t1, braking]
    field_simp
    ring
  rw [halves] at room
  rw [t2, tf]
  linarith

theorem tf_pos : 0 < p.tf := p.t1_pos.trans_le (p.t1_le_t2.trans p.t2_lt_tf.le)

/-- The displacement at a time. -/
noncomputable def displacement (t : ℝ) : ℝ :=
  if t < p.t1 then p.peak * p.t1 * ramp (t / p.t1)
  else if t < p.t2 then p.peak * (t - p.t1 / 2)
  else if t < p.tf then p.distance - p.peak * p.braking * ramp ((p.tf - t) / p.braking)
  else p.distance

/-- The speed at a time. -/
noncomputable def speed (t : ℝ) : ℝ :=
  if t < p.t1 then p.peak * smoothstep (t / p.t1)
  else if t < p.t2 then p.peak
  else if t < p.tf then p.peak * smoothstep ((p.tf - t) / p.braking)
  else 0

theorem ramp_one : ramp 1 = 1 / 2 := by norm_num [ramp]

theorem ramp_zero : ramp 0 = 0 := by norm_num [ramp]

theorem smoothstep_one : smoothstep 1 = 1 := by norm_num [smoothstep]

theorem smoothstep_zero : smoothstep 0 = 0 := by norm_num [smoothstep]

/-- Cruising ends where the second ramp begins. -/
theorem cruise_t2 : p.peak * (p.t2 - p.t1 / 2) =
    p.distance - p.peak * p.braking * ramp ((p.tf - p.t2) / p.braking) := by
  have covered : p.peak * (p.distance / p.peak) = p.distance := mul_div_cancel₀ _ p.peak_pos.ne'
  rw [braking_left, ramp_one, t2, tf]
  linarith

/-- The displacement is differentiable, and the speed is its derivative. -/
theorem hasDerivAt_displacement (t : ℝ) : HasDerivAt p.displacement (p.speed t) t := by
  have first : p.t1 / p.t1 = 1 := div_self p.t1_pos.ne'
  have last := p.braking_left
  have cruise : ∀ t, HasDerivAt (fun t => p.peak * (t - p.t1 / 2)) p.peak t := by
    intro t
    have := ((hasDerivAt_id t).sub_const (p.t1 / 2)).const_mul p.peak
    rwa [mul_one] at this
  -- from the last piece to the first
  have stop := hasDerivAt_splice (a := p.tf)
    (hasDerivAt_ramp_down (v := p.peak) p.braking_pos p.distance p.tf)
    (fun t => hasDerivAt_const t p.distance)
    (by simp [ramp_zero]) (by simp [smoothstep_zero])
  have brake := hasDerivAt_splice (a := p.t2) cruise stop
    (by rw [if_pos p.t2_lt_tf, p.cruise_t2])
    (by rw [if_pos p.t2_lt_tf, last, smoothstep_one, mul_one])
  refine hasDerivAt_splice (a := p.t1) (hasDerivAt_ramp_up p.t1_pos) brake ?_ ?_ t
  · have here : p.peak * p.t1 * ramp (p.t1 / p.t1) = p.peak * (p.t1 - p.t1 / 2) := by
      rw [first, ramp_one]
      ring
    rw [here]
    rcases p.t1_le_t2.lt_or_eq with before | same
    · rw [if_pos before]
    · have joined := p.cruise_t2
      rw [← same] at joined
      rw [if_neg (not_lt.2 same.ge), if_pos (same ▸ p.t2_lt_tf), joined]
  · rw [first, smoothstep_one, mul_one]
    rcases p.t1_le_t2.lt_or_eq with before | same
    · rw [if_pos before]
    · rw [← same] at last
      rw [if_neg (not_lt.2 same.ge), if_pos (same ▸ p.t2_lt_tf), last, smoothstep_one, mul_one]

theorem displacement_zero : p.displacement 0 = 0 := by
  rw [displacement, if_pos p.t1_pos, zero_div, ramp_zero, mul_zero]

/-- From the end of the motion on, the distance has been covered. -/
theorem displacement_of_tf_le {t : ℝ} (behind : p.tf ≤ t) : p.displacement t = p.distance := by
  have behind₂ := p.t2_lt_tf.le.trans behind
  rw [displacement, if_neg (not_lt.2 (p.t1_le_t2.trans behind₂)), if_neg (not_lt.2 behind₂),
    if_neg (not_lt.2 behind)]

/-- The speed stays between zero and the peak. -/
theorem speed_mem {t : ℝ} (nonneg : 0 ≤ t) : 0 ≤ p.speed t ∧ p.speed t ≤ p.peak := by
  have scaled : ∀ {x : ℝ}, 0 ≤ x → x ≤ 1 →
      0 ≤ p.peak * smoothstep x ∧ p.peak * smoothstep x ≤ p.peak := by
    intro x above below
    obtain ⟨low, high⟩ := smoothstep_mem above below
    exact ⟨mul_nonneg p.peak_pos.le low, mul_le_of_le_one_right p.peak_pos.le high⟩
  unfold speed
  split
  · rename_i before
    exact scaled (div_nonneg nonneg p.t1_pos.le) ((div_le_one p.t1_pos).2 before.le)
  split
  · exact ⟨p.peak_pos.le, le_refl _⟩
  rename_i behind
  split
  · rename_i before
    have start : p.tf - p.braking ≤ t := not_lt.1 behind
    exact scaled (div_nonneg (sub_nonneg.2 before.le) p.braking_pos.le)
      ((div_le_one p.braking_pos).2 (by linarith))
  · exact ⟨le_refl _, p.peak_pos.le⟩

/-- The peak is reached at the end of the first ramp. -/
theorem speed_t1 : p.speed p.t1 = p.peak := by
  rw [speed, if_neg (lt_irrefl _)]
  rcases p.t1_le_t2.lt_or_eq with before | same
  · rw [if_pos before]
  · rw [if_neg (not_lt.2 same.ge), if_pos (same ▸ p.t2_lt_tf), same, braking_left, smoothstep_one,
      mul_one]

/-- The displacement never decreases. -/
theorem monotoneOn_displacement : MonotoneOn p.displacement (Set.Ici 0) := by
  apply monotoneOn_of_deriv_nonneg (convex_Ici 0)
  · exact fun t _ => (p.hasDerivAt_displacement t).continuousAt.continuousWithinAt
  · exact fun t _ => (p.hasDerivAt_displacement t).differentiableAt.differentiableWithinAt
  · intro t inside
    rw [interior_Ici] at inside
    rw [(p.hasDerivAt_displacement t).deriv]
    exact (p.speed_mem (le_of_lt inside)).1

/-! ## Stretching -/

theorem distance_pos : 0 < p.distance := by
  have first := div_pos (pow_pos p.peak_pos 2) p.accel_pos
  have second := div_pos (pow_pos p.peak_pos 2) p.decel_pos
  linarith [p.reached]

/-- The peak speed with which the motion takes the time `T`. -/
noncomputable def stretchedPeak (T : ℝ) : ℝ :=
  (T * p.decel * p.accel - √((T * p.decel * p.accel) ^ 2 -
    4 * (3 / 4 * (p.decel + p.accel)) * (p.distance * p.decel * p.accel))) /
      (2 * (3 / 4 * (p.decel + p.accel)))

/-- A longer time needs no more speed. -/
theorem stretchedPeak_spec {T : ℝ} (slower : p.tf ≤ T) :
    0 ≤ (T * p.decel * p.accel) ^ 2 -
        4 * (3 / 4 * (p.decel + p.accel)) * (p.distance * p.decel * p.accel) ∧
      0 < p.stretchedPeak T ∧ p.stretchedPeak T ≤ p.peak ∧
      3 / 2 * p.stretchedPeak T / p.accel / 2 + 3 / 2 * p.stretchedPeak T / p.decel / 2 +
        p.distance / p.stretchedPeak T = T := by
  have accel := p.accel_pos
  have decel := p.decel_pos
  have peak := p.peak_pos
  have product := mul_pos decel accel
  have long : 0 < T := p.tf_pos.trans_le slower
  have below : 3 / 4 * (p.decel + p.accel) * p.peak ^ 2 - T * p.decel * p.accel * p.peak +
      p.distance * p.decel * p.accel ≤ 0 := by
    have own : 3 / 4 * (p.decel + p.accel) * p.peak ^ 2 + p.distance * p.decel * p.accel =
        p.tf * (p.decel * p.accel * p.peak) := by
      rw [tf, t1, braking]
      field_simp
      ring
    have grows := mul_le_mul_of_nonneg_right slower (mul_pos product peak).le
    linarith
  obtain ⟨discriminant, positive, smaller, root⟩ := smaller_root (r := p.peak)
    (by linarith : 0 < 3 / 4 * (p.decel + p.accel))
    (mul_pos (mul_pos long decel) accel) (mul_pos (mul_pos p.distance_pos decel) accel) below
  refine ⟨discriminant, positive, smaller, ?_⟩
  have same : (T * p.decel * p.accel - √((T * p.decel * p.accel) ^ 2 -
    4 * (3 / 4 * (p.decel + p.accel)) * (p.distance * p.decel * p.accel))) /
      (2 * (3 / 4 * (p.decel + p.accel))) = p.stretchedPeak T := rfl
  rw [same] at positive root
  generalize p.stretchedPeak T = v at positive root
  field_simp
  linarith

/-- The same distance in the time `T`. -/
noncomputable def stretch {T : ℝ} (slower : p.tf ≤ T) : SpeedProfile where
  peak := p.stretchedPeak T
  accel := p.accel
  decel := p.decel
  distance := p.distance
  peak_pos := (p.stretchedPeak_spec slower).2.1
  accel_pos := p.accel_pos
  decel_pos := p.decel_pos
  reached := by
    obtain ⟨-, positive, smaller, -⟩ := p.stretchedPeak_spec slower
    have square : p.stretchedPeak T ^ 2 ≤ p.peak ^ 2 := pow_le_pow_left₀ positive.le smaller 2
    have first := div_le_div_of_nonneg_right square p.accel_pos.le
    have second := div_le_div_of_nonneg_right square p.decel_pos.le
    linarith [p.reached]

theorem stretch_tf {T : ℝ} (slower : p.tf ≤ T) : (p.stretch slower).tf = T :=
  (p.stretchedPeak_spec slower).2.2.2

end SpeedProfile

end FrankaRos.Theory
