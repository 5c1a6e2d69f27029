/-
# Kinematics.IkLimits -- when inverse kinematics respect the position limits

With clamping, candidates are clamped and so is the iterate behind the loop.  What is left
is the start: where the loop is left from inside in its first iteration, it is returned as
it was given.  Everywhere else the solution is within the limits unless it is NaN, and a
NaN stays one from the iterate where it appears (`nan_next`).

`ik_within_iff_of_finite` says that from finite data no NaN appears, so that the start is all
that matters there.
-/
import FrankaRos.Kinematics.IkVerdict

namespace FrankaRos.Kinematics

open FrankaRos.Theory

set_option autoImplicit false

set_option linter.unusedSectionVars false

section

variable {K : Type} [MachineArith K]

/-! ## Clamping -/

/-- Between ordered limits, it is `std::clamp`. -/
theorem clampScalar_eq_clamp (v : Double K) {lo hi : Double K} (ordered : lo ≤ hi) :
    clampScalar v lo hi = Double.clamp v lo hi := by
  unfold clampScalar Double.min Double.max Double.clamp
  split
  · rw [if_neg (Double.not_lt_of_le ordered)]
  · rfl

theorem clampScalar_mem_iff {v lo hi : Double K} (ordered : lo ≤ hi) :
    (lo ≤ clampScalar v lo hi ∧ clampScalar v lo hi ≤ hi) ↔ v.isNaN = false := by
  rw [clampScalar_eq_clamp v ordered]
  constructor
  · rintro ⟨above, -⟩
    rw [← Bool.not_eq_true]
    intro nan
    rw [Double.isNaN_iff.1 nan, Double.clamp_nan] at above
    exact Double.not_le_nan _ above
  · exact fun number => Double.clamp_mem number ordered

theorem clampScalar_nan (lo hi : Double K) : clampScalar .nan lo hi = .nan := by
  simp [clampScalar, Double.min, Double.max]

namespace IkModel

/-- Every joint lies within its position limits. -/
def Within (m : IkModel K) (q : Vector7d K) : Prop := ∀ i, m.lower i ≤ q i ∧ q i ≤ m.upper i

/-- The first iteration leaves the loop from inside. -/
def LeftAtStart (opt : IkOptions K) (o : Objective K) (qInit : Vector7d K) : Prop :=
  0 < opt.maxIters ∧ Returns opt o qInit

instance (opt : IkOptions K) (o : Objective K) (qInit : Vector7d K) :
    Decidable (LeftAtStart opt o qInit) := inferInstanceAs (Decidable (_ ∧ _))

/-- No iterate of the search has a NaN. -/
def NumberIterates (m : IkModel K) (opt : IkOptions K) (o : Objective K) (qInit : Vector7d K) :
    Prop :=
  ∀ k ≤ opt.maxIters.toNat, ∀ q, follow (m.next opt o) k qInit = some q →
    ∀ i, (q i).isNaN = false

variable {m : IkModel K} {opt : IkOptions K} {o : Objective K}

theorem clampArmToLimits_within_iff (ordered : ∀ i, m.lower i ≤ m.upper i) (q : Vector7d K) :
    m.Within (m.clampArmToLimits q) ↔ ∀ i, (q i).isNaN = false :=
  forall_congr' fun i => clampScalar_mem_iff (ordered i)

/-- A NaN stays one. -/
theorem nan_next {q q' : Vector7d K} (moved : m.next opt o q = some q') {i : Fin 7}
    (nan : (q i).isNaN = true) : (q' i).isNaN = true := by
  obtain ⟨-, ⟨alpha, rfl⟩, -⟩ := m.next_some opt o moved
  have added : ∀ d : Double K, (.nan + d : Double K) = .nan := fun _ => rfl
  unfold candidate integrateArm
  split
  · simp only [clampArmToLimits, Double.isNaN_iff.1 nan, added, clampScalar_nan]
    rfl
  · simp only [Double.isNaN_iff.1 nan, added]
    rfl

theorem numberIterates_iff (qInit : Vector7d K) :
    m.NumberIterates opt o qInit ↔
      ∀ i, (final (m.next opt o) opt.maxIters.toNat qInit i).isNaN = false := by
  constructor
  · intro numbers
    obtain ⟨k, within, reached⟩ := follow_final (m.next opt o) opt.maxIters.toNat qInit
    exact numbers k within _ reached
  · intro numbers k within q reached i
    rw [← Bool.not_eq_true]
    intro nan
    have still : (final (m.next opt o) opt.maxIters.toNat qInit i).isNaN = true :=
      final_of_kept (m.next opt o) (P := fun q => (q i).isNaN = true)
        (fun _ _ moved here => nan_next moved here) within reached nan
    rw [numbers i] at still
    cases still

/-! ## The limits -/

/-- Where the first iteration leaves the loop, the start is returned. -/
theorem qSol_of_leftAtStart {qInit : Vector7d K} (left : LeftAtStart opt o qInit)
    (lastErr : Double K) : (m.ikLoop opt o opt.maxIters.toNat qInit lastErr).qSol = qInit := by
  obtain ⟨iters, returns⟩ := left
  obtain ⟨success, qSol, finalErr, result, ends⟩ :=
    m.ikLoop_ends opt o opt.maxIters.toNat qInit lastErr
  rw [result]
  obtain ⟨n, same⟩ := Nat.exists_eq_succ_of_ne_zero (show opt.maxIters.toNat ≠ 0 by omega)
  have none : m.next opt o qInit = none := if_pos returns
  have here : final (m.next opt o) opt.maxIters.toNat qInit = qInit := by
    rw [same]
    simp only [final, none]
  rw [here] at ends
  cases ends with
  | invalid | converged | noStep => rfl
  | stuck _ stuck => exact absurd returns stuck.1
  | limit _ reached =>
      rw [same, follow, none] at reached
      cases reached

/-- Everywhere else, what is returned is clamped. -/
theorem qSol_of_not_leftAtStart (on : opt.clampToLimits = true) {qInit : Vector7d K}
    (stays : ¬ LeftAtStart opt o qInit) (lastErr : Double K) :
    (m.ikLoop opt o opt.maxIters.toNat qInit lastErr).qSol =
      m.clampArmToLimits (final (m.next opt o) opt.maxIters.toNat qInit) := by
  obtain ⟨success, qSol, finalErr, result, ends⟩ :=
    m.ikLoop_ends opt o opt.maxIters.toNat qInit lastErr
  rw [result]
  have origin := final_origin (m.next opt o) opt.maxIters.toNat qInit
  -- an iterate where the loop is left from inside is not the start
  have clamped : follow (m.next opt o) opt.maxIters.toNat qInit = none →
      Returns opt o (final (m.next opt o) opt.maxIters.toNat qInit) →
        m.clampArmToLimits (final (m.next opt o) opt.maxIters.toNat qInit) =
          final (m.next opt o) opt.maxIters.toNat qInit := by
    intro settled returns
    rcases origin with start | ⟨y, moved⟩
    · rw [start] at returns
      refine absurd ⟨?_, returns⟩ stays
      by_contra none
      rw [show opt.maxIters.toNat = 0 by omega] at settled
      cases settled
    · have here := afterLoop_next moved (o.err y)
      simpa [afterLoop, on] using here
  generalize final (m.next opt o) opt.maxIters.toNat qInit = z at ends clamped ⊢
  cases ends with
  | invalid _ settled invalid => exact (clamped settled (.inl invalid)).symm
  | converged settled _ small => exact (clamped settled (.inr (.inl small))).symm
  | noStep settled _ _ noStep => exact (clamped settled (.inr (.inr noStep))).symm
  | stuck | limit => simp [afterLoop, on]

theorem ikLoop_within_iff (on : opt.clampToLimits = true) (ordered : ∀ i, m.lower i ≤ m.upper i)
    (qInit : Vector7d K) (lastErr : Double K) :
    m.Within (m.ikLoop opt o opt.maxIters.toNat qInit lastErr).qSol ↔
      (LeftAtStart opt o qInit → m.Within qInit) ∧
        (¬ LeftAtStart opt o qInit → m.NumberIterates opt o qInit) := by
  by_cases left : LeftAtStart opt o qInit
  · simp only [qSol_of_leftAtStart left, left, true_implies, not_true_eq_false, false_implies,
      and_true]
  · rw [qSol_of_not_leftAtStart on left, clampArmToLimits_within_iff ordered, ← numberIterates_iff]
    simp only [left, false_implies, not_false_eq_true, true_implies, true_and]

/-- **The position limits, exactly.**  With clamping and ordered limits, the solution of
either solver is within them if and only if the start is, where the first iteration
returns it, and otherwise no iterate has a NaN. -/
theorem ik_within_iff (num : Numerics K) (initialized : m.initialized = true)
    (on : opt.clampToLimits = true) (ordered : ∀ i, m.lower i ≤ m.upper i) (target : SE3 K)
    (qInit : Vector7d K) :
    (∃ r, m.ik num opt target qInit = .ok r ∧
        (m.Within r.qSol ↔
          (LeftAtStart opt (m.poseObjective num target opt) qInit → m.Within qInit) ∧
            (¬ LeftAtStart opt (m.poseObjective num target opt) qInit →
              m.NumberIterates opt (m.poseObjective num target opt) qInit))) ∧
      ∃ r, m.ikPositionOnly num opt target qInit = .ok r ∧
        (m.Within r.qSol ↔
          (LeftAtStart opt (m.positionObjective num target opt) qInit → m.Within qInit) ∧
            (¬ LeftAtStart opt (m.positionObjective num target opt) qInit →
              m.NumberIterates opt (m.positionObjective num target opt) qInit)) := by
  have entered : ¬ m.initialized = false := by rw [initialized]; decide
  constructor
  · exact ⟨_, if_neg entered, ikLoop_within_iff on ordered qInit _⟩
  · exact ⟨_, if_neg entered, ikLoop_within_iff on ordered qInit _⟩

end IkModel

end

/-! ## Finite data -/

section

variable {K : Type} [ScaledArith K]

/-- Half of a finite number is finite. -/
theorem half_finite (x : K) : ∃ y, (.fin x * Double.lit (1 / 2) : Double K) = .fin y := by
  obtain ⟨y, half, -⟩ := Double.mul_unit (ScaledArith.ofRat_mono (-1) (1 / 2) (by decide +kernel))
    (ScaledArith.ofRat_mono (1 / 2) 1 (by decide +kernel)) x
  exact ⟨y, half⟩

theorem mul_number (x y : K) : (.fin x * .fin y : Double K).isNaN = false := by
  have number : (.fin (Double.absFin x) * .fin (Double.absFin y) : Double K).isNaN = false :=
    (Double.le_number (Double.mul_nonneg (Double.absFin_cases x).1 (Double.absFin_cases y).1)).2
  rcases Double.mul_absFin x y with same | same
  · rwa [same]
  · rwa [same, Double.neg_isNaN]

/-- A finite joint, moved by a finite multiple of a finite step and clamped to finite
limits, is finite. -/
theorem clampScalar_finite {q d : Double K} (hq : q.isFinite = true) (hd : d.isFinite = true)
    (alpha l u : K) (ordered : l ≤ u) :
    (clampScalar (q + .fin alpha * d) (.fin l) (.fin u)).isFinite = true := by
  cases q with
  | fin x =>
      cases d with
      | fin y =>
          have number := Double.fin_add_number x (mul_number alpha y)
          obtain ⟨above, below⟩ := (clampScalar_mem_iff (Double.fin_le_fin.2 ordered)).2 number
          obtain ⟨z, same⟩ := Double.exists_fin above below
          rw [same]
          rfl
      | _ => cases hd
  | _ => cases hq

namespace IkModel

variable {m : IkModel K} {opt : IkOptions K} {o : Objective K}

/-- Finite limits, in order. -/
def FiniteLimits (m : IkModel K) : Prop :=
  ∀ i, ∃ l u, m.lower i = .fin l ∧ m.upper i = .fin u ∧ l ≤ u

theorem FiniteLimits.ordered (limits : m.FiniteLimits) (i : Fin 7) : m.lower i ≤ m.upper i := by
  obtain ⟨l, u, lower, upper, ordered⟩ := limits i
  rw [lower, upper]
  exact Double.fin_le_fin.2 ordered

theorem lineSearch_finite (on : opt.clampToLimits = true) (limits : m.FiniteLimits)
    {q dq q' : Vector7d K} (hq : ∀ i, (q i).isFinite = true) (hdq : ∀ i, (dq i).isFinite = true)
    {err0 : Double K} {tries : Nat} {alpha : K}
    (found : m.lineSearch opt o q dq err0 tries (.fin alpha) = some q') (i : Fin 7) :
    (q' i).isFinite = true := by
  induction tries generalizing alpha with
  | zero => cases found
  | succ tries ih =>
      rw [lineSearch] at found
      split at found
      · obtain rfl := Option.some.inj found
        obtain ⟨l, u, lower, upper, ordered⟩ := limits i
        simp only [candidate, on, if_true, clampArmToLimits, integrateArm, lower, upper]
        exact clampScalar_finite (hq i) (hdq i) alpha l u ordered
      · obtain ⟨half, same⟩ := half_finite alpha
        rw [same] at found
        exact ih found

theorem numberIterates_of_finite (on : opt.clampToLimits = true) (limits : m.FiniteLimits)
    (stepSize : opt.stepSize.isFinite = true) {qInit : Vector7d K}
    (start : ∀ i, (qInit i).isFinite = true) : m.NumberIterates opt o qInit := by
  have kept : ∀ q q', m.next opt o q = some q' →
      (∀ i, (q i).isFinite = true) → ∀ i, (q' i).isFinite = true := by
    intro q q' moved finite
    rw [next] at moved
    split at moved
    · cases moved
    rename_i stays
    simp only [Returns, not_or, Bool.not_eq_false] at stays
    have step : ∀ i, (o.dq q i).isFinite = true := of_decide_eq_true stays.2.2
    cases size : opt.stepSize with
    | fin alpha =>
        rw [size] at moved
        exact lineSearch_finite on limits finite step moved
    | _ =>
        rw [size] at stepSize
        cases stepSize
  rw [numberIterates_iff]
  intro i
  have finite := final_of_kept (m.next opt o) (P := fun q => ∀ i, (q i).isFinite = true) kept
    (Nat.zero_le opt.maxIters.toNat) (q := qInit) rfl start i
  generalize final (m.next opt o) opt.maxIters.toNat qInit i = value at finite ⊢
  cases value with
  | nan => cases finite
  | _ => rfl

/-- From finite data, the start is all that matters. -/
theorem within_iff_of_finite (on : opt.clampToLimits = true) (limits : m.FiniteLimits)
    (stepSize : opt.stepSize.isFinite = true) {qInit : Vector7d K}
    (start : ∀ i, (qInit i).isFinite = true) (lastErr : Double K) :
    m.Within (m.ikLoop opt o opt.maxIters.toNat qInit lastErr).qSol ↔
      (LeftAtStart opt o qInit → m.Within qInit) := by
  rw [ikLoop_within_iff on limits.ordered]
  exact and_iff_left fun _ => numberIterates_of_finite on limits stepSize start

/-- The position limits of both solvers, from finite data: the solution is within them if and
only if the start is, where the first iteration returns it. -/
theorem ik_within_iff_of_finite (num : Numerics K) (initialized : m.initialized = true)
    (on : opt.clampToLimits = true) (limits : m.FiniteLimits)
    (stepSize : opt.stepSize.isFinite = true) (target : SE3 K) {qInit : Vector7d K}
    (start : ∀ i, (qInit i).isFinite = true) :
    (∃ r, m.ik num opt target qInit = .ok r ∧
        (m.Within r.qSol ↔
          (LeftAtStart opt (m.poseObjective num target opt) qInit → m.Within qInit))) ∧
      ∃ r, m.ikPositionOnly num opt target qInit = .ok r ∧
        (m.Within r.qSol ↔
          (LeftAtStart opt (m.positionObjective num target opt) qInit → m.Within qInit)) := by
  have entered : ¬ m.initialized = false := by rw [initialized]; decide
  constructor
  · exact ⟨_, if_neg entered, within_iff_of_finite on limits stepSize start _⟩
  · exact ⟨_, if_neg entered, within_iff_of_finite on limits stepSize start _⟩

end IkModel

end

/-! ## On a concrete arm -/

namespace IkModel

theorem slider_finiteLimits : (slider 0 1).FiniteLimits := fun _ =>
  ⟨0, 1, rfl, rfl, by decide +kernel⟩

/-- A target beyond the limits, from a start within them. -/
theorem ik_within_slider :
    (∃ r, (slider 0 1).ik exactNumerics { clampToLimits := true } (poseAt (.fin 2)) (sliderAt 0) =
        .ok r ∧ (slider 0 1).Within r.qSol) ∧
      ∃ r, (slider 0 1).ikPositionOnly exactNumerics { clampToLimits := true } (poseAt (.fin 2))
        (sliderAt 0) = .ok r ∧ (slider 0 1).Within r.qSol := by
  have start : ∀ i, (sliderAt 0 i).isFinite = true := by decide +kernel
  obtain ⟨⟨r, ran, pose⟩, r', ran', position⟩ := ik_within_iff exactNumerics
    (rfl : (slider 0 1).initialized = true)
    (rfl : ({ clampToLimits := true } : IkOptions ℚ).clampToLimits = true)
    slider_finiteLimits.ordered (poseAt (.fin 2)) (sliderAt 0)
  refine ⟨⟨r, ran, pose.2 ⟨fun left => ?_, fun _ => ?_⟩⟩,
    ⟨r', ran', position.2 ⟨fun left => ?_, fun _ => ?_⟩⟩⟩
  · exact absurd left (by decide +kernel)
  · exact numberIterates_of_finite rfl slider_finiteLimits rfl start
  · exact absurd left (by decide +kernel)
  · exact numberIterates_of_finite rfl slider_finiteLimits rfl start

/-- A start outside the limits whose error is small enough is returned as it was given. -/
theorem not_within_convergedStart :
    (∀ i, (slider 0 1).lower i ≤ (slider 0 1).upper i) ∧
      ¬ ∀ r, (slider 0 1).ik exactNumerics { clampToLimits := true } (poseAt (.fin 2))
        (sliderAt 2) = .ok r → (slider 0 1).Within r.qSol := by
  refine ⟨slider_finiteLimits.ordered, fun within => ?_⟩
  have above := (within _ rfl 0).2
  exact absurd above (by decide +kernel)

end IkModel

end FrankaRos.Kinematics
