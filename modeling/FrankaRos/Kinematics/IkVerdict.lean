/-
# Kinematics.IkVerdict -- what the inverse kinematics return

Every accepted candidate has a smaller error than the iterate before it, so whatever the
exit, the solution is the start or better than it (`ik_descends`).

The verdict is right at every exit but two.  At the iteration limit the last accepted
candidate has not been measured yet, and the reported error is that of the iterate before
it.  And where no candidate is accepted, the iterate is clamped behind its measurement,
which only moves the start: later iterates are clamped already.
-/
import FrankaRos.Kinematics.InverseKinematics

namespace FrankaRos.Kinematics

open FrankaRos.Theory

set_option autoImplicit false

set_option linter.unusedSectionVars false

variable {K : Type} [MachineArith K]

namespace IkModel

/-! ## Descent -/

/-- The accepted configurations descend from the start, and the solution is the last of
them: the start itself, or one with a smaller error. -/
structure Descends (opt : IkOptions K) (o : Objective K) (qInit : Vector7d K) (r : IkResult K) :
    Prop where
  chain : List.IsChain (fun q q' => o.err q' < o.err q) (qInit :: r.accepted)
  last : r.qSol = (qInit :: r.accepted).getLast (List.cons_ne_nil _ _)
  bounded : r.accepted.length ≤ opt.maxIters.toNat
  improves : r.qSol = qInit ∨ o.err r.qSol < o.err qInit

section

variable (m : IkModel K) {opt : IkOptions K} (o : Objective K)

/-- Without clamping, the solution is the iterate where the loop ends. -/
theorem Ends.qSol_eq {m : IkModel K} {o : Objective K} (off : opt.clampToLimits = false) {n : Nat}
    {q z qSol : Vector7d K} {lastErr finalErr : Double K} {success : Bool}
    (ends : m.Ends opt o n q lastErr z success qSol finalErr) : qSol = z := by
  cases ends with
  | invalid | converged | noStep => rfl
  | stuck | limit => simp [afterLoop, off]

theorem ikLoop_descends (off : opt.clampToLimits = false) (qInit : Vector7d K)
    (lastErr : Double K) :
    Descends opt o qInit (m.ikLoop opt o opt.maxIters.toNat qInit lastErr) := by
  obtain ⟨success, qSol, finalErr, result, ends⟩ :=
    m.ikLoop_ends opt o opt.maxIters.toNat qInit lastErr
  rw [result]
  obtain rfl := ends.qSol_eq off
  have smaller : ∀ q q', m.next opt o q = some q' → o.err q' < o.err q := fun q q' moved =>
    (m.next_some opt o moved).2.2.2
  refine ⟨isChain_trail _ smaller _ _, final_eq_getLast _ _ _, length_trail_le _ _ _, ?_⟩
  exact final_related _ smaller (fun _ _ _ first second =>
    Double.lt_of_lt_of_le second (Double.le_of_lt first)) _ _

end

/-- **The line searches descend.**  For an initialised object and options without
clamping, both solvers return, whatever placements, Jacobians and solver give. -/
theorem ik_descends (num : Numerics K) {m : IkModel K} {opt : IkOptions K}
    (initialized : m.initialized = true) (off : opt.clampToLimits = false) (target : SE3 K)
    (qInit : Vector7d K) :
    (∃ r, m.ik num opt target qInit = .ok r ∧
        Descends opt (m.poseObjective num target opt) qInit r) ∧
      ∃ r, m.ikPositionOnly num opt target qInit = .ok r ∧
        Descends opt (m.positionObjective num target opt) qInit r := by
  have entered : ¬ m.initialized = false := by rw [initialized]; decide
  constructor
  · exact ⟨_, if_neg entered, m.ikLoop_descends _ off qInit _⟩
  · exact ⟨_, if_neg entered, m.ikLoop_descends _ off qInit _⟩

/-! ## The verdict -/

/-- The value says whether the error of the solution is small enough, and `*final_err`
is that error. -/
def VerdictHolds (opt : IkOptions K) (o : Objective K) (r : IkResult K) : Prop :=
  (r.success = true ↔ o.err r.qSol < opt.eps) ∧ r.finalErr = o.err r.qSol

/-- The error vector is finite at every configuration the search visits. -/
def FiniteErrors (m : IkModel K) (opt : IkOptions K) (o : Objective K) (qInit : Vector7d K) :
    Prop :=
  ∀ q ∈ qInit :: trail (m.next opt o) opt.maxIters.toNat qInit, o.errorFinite q = true

instance (m : IkModel K) (opt : IkOptions K) (o : Objective K) (qInit : Vector7d K) :
    Decidable (m.FiniteErrors opt o qInit) := inferInstanceAs (Decidable (∀ q ∈ _, _))

/-- The search ends by itself, before its iterations are used up. -/
def Settles (m : IkModel K) (opt : IkOptions K) (o : Objective K) (qInit : Vector7d K) : Prop :=
  follow (m.next opt o) opt.maxIters.toNat qInit = none

instance (m : IkModel K) (opt : IkOptions K) (o : Objective K) (qInit : Vector7d K) :
    Decidable (m.Settles opt o qInit) := inferInstanceAs (Decidable (_ = none))

/-- If no candidate is accepted at the start, clamping it does not change its error. -/
def ClampHarmless (m : IkModel K) (opt : IkOptions K) (o : Objective K) (qInit : Vector7d K) :
    Prop :=
  opt.clampToLimits = true → m.Stuck opt o qInit → o.err (m.clampArmToLimits qInit) = o.err qInit

theorem clampScalar_idem (v lo hi : Double K) :
    clampScalar (clampScalar v lo hi) lo hi = clampScalar v lo hi := by
  have irrefl : ∀ a : Double K, ¬ a < a := by
    intro a
    cases a <;> simp [Double.lt_def, Double.lt]
  unfold clampScalar Double.min Double.max
  by_cases low : v < lo <;> by_cases crossed : hi < lo <;> by_cases high : hi < v <;>
    simp [low, crossed, high, irrefl]

theorem clampArmToLimits_idem (m : IkModel K) (q : Vector7d K) :
    m.clampArmToLimits (m.clampArmToLimits q) = m.clampArmToLimits q :=
  funext fun i => clampScalar_idem (q i) (m.lower i) (m.upper i)

section

variable {m : IkModel K} {opt : IkOptions K} {o : Objective K}

/-- An iterate behind the start is what is returned of it: it is clamped already. -/
theorem afterLoop_next {y z : Vector7d K} (moved : m.next opt o y = some z) (lastErr : Double K) :
    (m.afterLoop opt z lastErr).qSol = z := by
  obtain ⟨-, ⟨alpha, rfl⟩, -⟩ := m.next_some opt o moved
  unfold afterLoop candidate
  split
  · exact m.clampArmToLimits_idem _
  · rfl

/-- **The verdict, exactly.**  With finite errors, it is right if and only if the search
settles within its iterations and clamping a start where it is stuck does no harm. -/
theorem ikLoop_verdict_iff {qInit : Vector7d K} (valid : m.FiniteErrors opt o qInit)
    (iters : 1 ≤ opt.maxIters) (lastErr : Double K) :
    VerdictHolds opt o (m.ikLoop opt o opt.maxIters.toNat qInit lastErr) ↔
      m.Settles opt o qInit ∧ m.ClampHarmless opt o qInit := by
  obtain ⟨success, qSol, finalErr, result, ends⟩ :=
    m.ikLoop_ends opt o opt.maxIters.toNat qInit lastErr
  have origin := final_origin (m.next opt o) opt.maxIters.toNat qInit
  have visited := valid _ (final_mem (m.next opt o) opt.maxIters.toNat qInit)
  rw [result]
  simp only [VerdictHolds, Settles]
  -- a start where the search is stuck is where it ends
  have stays : m.Stuck opt o qInit → final (m.next opt o) opt.maxIters.toNat qInit = qInit := by
    intro stuck
    rcases opt.maxIters.toNat with _ | n
    · rfl
    · simp only [final, stuck.2]
  generalize final (m.next opt o) opt.maxIters.toNat qInit = z at ends origin visited stays
  cases ends with
  | invalid _ _ invalid =>
      rw [visited] at invalid
      cases invalid
  | converged settled _ small =>
      refine ⟨fun _ => ⟨settled, fun _ stuck => ?_⟩, fun _ => ⟨by simp [small], rfl⟩⟩
      exact absurd (.inr (.inl (stays stuck ▸ small))) stuck.1
  | noStep settled _ large noStep =>
      refine ⟨fun _ => ⟨settled, fun _ stuck => ?_⟩, fun _ => ⟨by simp [large], rfl⟩⟩
      exact absurd (.inr (.inr (stays stuck ▸ noStep))) stuck.1
  | stuck settled stuck =>
      have large : ¬ o.err z < opt.eps := fun small => stuck.1 (.inr (.inl small))
      constructor
      · rintro ⟨-, reported⟩
        refine ⟨settled, fun on stuckStart => ?_⟩
        rw [stays stuckStart] at reported
        simpa [afterLoop, on] using reported.symm
      · rintro ⟨-, harmless⟩
        have measured : o.err (m.afterLoop opt z (o.err z)).qSol = o.err z := by
          rcases origin with rfl | ⟨y, moved⟩
          · unfold afterLoop
            split
            · rename_i on
              exact harmless on stuck
            · rfl
          · rw [afterLoop_next moved]
        rw [measured]
        exact ⟨by simp [large], rfl⟩
  | limit finalErr reached measured =>
      have some : ∃ y, m.next opt o y = some z ∧ finalErr = o.err y :=
        measured.resolve_left fun none => by omega
      obtain ⟨y, moved, rfl⟩ := some
      obtain ⟨-, -, -, smaller⟩ := m.next_some opt o moved
      rw [afterLoop_next moved, reached]
      constructor
      · rintro ⟨-, reported⟩
        rw [reported] at smaller
        exact absurd smaller (Double.not_lt_of_le (Double.le_of_lt smaller))
      · rintro ⟨settled, -⟩
        cases settled

end

/-- The verdict of both solvers, for a kinematics whose errors are finite wherever the search
goes. -/
theorem ik_verdict_iff (num : Numerics K) {m : IkModel K} {opt : IkOptions K}
    (initialized : m.initialized = true) (iters : 1 ≤ opt.maxIters) (target : SE3 K)
    (qInit : Vector7d K) :
    (m.FiniteErrors opt (m.poseObjective num target opt) qInit →
        ∃ r, m.ik num opt target qInit = .ok r ∧
          (VerdictHolds opt (m.poseObjective num target opt) r ↔
            m.Settles opt (m.poseObjective num target opt) qInit ∧
              m.ClampHarmless opt (m.poseObjective num target opt) qInit)) ∧
      (m.FiniteErrors opt (m.positionObjective num target opt) qInit →
        ∃ r, m.ikPositionOnly num opt target qInit = .ok r ∧
          (VerdictHolds opt (m.positionObjective num target opt) r ↔
            m.Settles opt (m.positionObjective num target opt) qInit ∧
              m.ClampHarmless opt (m.positionObjective num target opt) qInit)) := by
  have entered : ¬ m.initialized = false := by rw [initialized]; decide
  constructor
  · exact fun valid => ⟨_, if_neg entered, ikLoop_verdict_iff valid iters _⟩
  · exact fun valid => ⟨_, if_neg entered, ikLoop_verdict_iff valid iters _⟩

/-! ## On a concrete arm -/

theorem ik_descends_slider :
    (∃ r, (slider 0 10).ik exactNumerics {} (poseAt (.fin 1)) (sliderAt 0) = .ok r ∧
        Descends {} ((slider 0 10).poseObjective exactNumerics (poseAt (.fin 1)) {}) (sliderAt 0) r) ∧
      ∃ r, (slider 0 10).ikPositionOnly exactNumerics {} (poseAt (.fin 1)) (sliderAt 0) = .ok r ∧
        Descends {} ((slider 0 10).positionObjective exactNumerics (poseAt (.fin 1)) {})
          (sliderAt 0) r :=
  ik_descends exactNumerics rfl rfl (poseAt (.fin 1)) (sliderAt 0)

/-- One iteration, with a step that leads to the target. -/
def oneIteration : IkOptions ℚ where
  maxIters := 1
  stepSize := Double.lit 2
  damping := Double.lit 1

/-- A second iteration, which measures what the first one has accepted. -/
def twoIterations : IkOptions ℚ := { oneIteration with maxIters := 2 }

/-- The first iteration accepts the target, the second returns it, and both verdicts are
right. -/
theorem ik_verdict_reached :
    (∃ r, (slider 0 10).ik exactNumerics twoIterations (poseAt (.fin 1)) (sliderAt 0) = .ok r ∧
        VerdictHolds twoIterations
          ((slider 0 10).poseObjective exactNumerics (poseAt (.fin 1)) twoIterations) r) ∧
      ∃ r, (slider 0 10).ikPositionOnly exactNumerics twoIterations (poseAt (.fin 1)) (sliderAt 0) =
          .ok r ∧
        VerdictHolds twoIterations
          ((slider 0 10).positionObjective exactNumerics (poseAt (.fin 1)) twoIterations) r := by
  obtain ⟨pose, position⟩ := ik_verdict_iff exactNumerics
    (rfl : (slider 0 10).initialized = true) (by decide : 1 ≤ twoIterations.maxIters)
    (poseAt (.fin 1)) (sliderAt 0)
  obtain ⟨r, ran, exact⟩ := pose (by decide +kernel)
  obtain ⟨r', ran', exact'⟩ := position (by decide +kernel)
  refine ⟨⟨r, ran, exact.2 ⟨?_, fun on => ?_⟩⟩, ⟨r', ran', exact'.2 ⟨?_, fun on => ?_⟩⟩⟩
  · decide +kernel
  · cases on
  · decide +kernel
  · cases on

/-- One step before the target, the target is reached and not reported, and the error
reported is that of the start. -/
theorem not_verdictHolds_oneIteration :
    (∀ q : Vector7d ℚ, (∀ i, (q i).isFinite = true) → ((slider 0 10).poseObjective exactNumerics
        (poseAt (.fin 1)) oneIteration).errorFinite q = true) ∧
      ¬ ∀ r, (slider 0 10).ik exactNumerics oneIteration (poseAt (.fin 1)) (sliderAt 0) = .ok r →
        VerdictHolds oneIteration
          ((slider 0 10).poseObjective exactNumerics (poseAt (.fin 1)) oneIteration) r := by
  refine ⟨fun q finite => (slider_valid 0 10 1 oneIteration (finite 0)).1, fun holds => ?_⟩
  obtain ⟨-, reported⟩ := holds _ rfl
  exact absurd reported (by decide +kernel)

end IkModel

end FrankaRos.Kinematics
