/-
# RlAction.ActionBounds -- what the outputs of the processor stay within

The main loop writes the inputs, hands the action that was used last back as the previous
one, and calls.  `Bounded` says what a call promises of its outputs: the filtered action is
within the bound of the policy, the target position within its box, the target yaw within
the limit around the yaw of the first call, and what was asked for wherever that is within
the limit itself.

The action is bounded because it is an average of bounded ones (`abs_average_le`), which is
the induction over the calls.  Everything else follows from the state in one call
(`process_bounded`), once the reference is known to stay where the first call has put it.
The ranges of `atan2` and `asin` do not matter: the difference of any two angles is wrapped.
-/
import FrankaRos.Theory.Run
import FrankaRos.RlAction.RlActionProcessor
import Mathlib.Analysis.Convex.Basic
import Mathlib.Analysis.SpecialFunctions.Complex.Arg

namespace FrankaRos.RlAction

open FrankaRos.Theory AddCommGroup Trigonometry

set_option autoImplicit false

universe u

/-- What the main loop writes before a call.  What it leaves alone keeps its initialiser. -/
structure Inputs (R : Type u) [Field R] where
  policyAction : Fin 6 → R
  emaFactor : R
  fingertipPos : Fin 3 → R
  fingertipQuat : Quaternion R
  fixedPosActionFrame : Fin 3 → R
  posThreshold : Fin 3 → R
  rotThreshold : Fin 3 → R
  posActionBoundsLower : Fin 3 → R
  posActionBoundsUpper : Fin 3 → R
  unidirectionalRot : Bool

variable {R : Type u} [Field R] [LinearOrder R] [Trigonometry R]

/-- The policy keeps to the bound, the filter is an average, and the box of the target
position is not empty. -/
structure Inputs.Admissible (bound : R) (i : Inputs R) : Prop where
  policy : ∀ k, |i.policyAction k| ≤ bound
  ema : 0 ≤ i.emaFactor ∧ i.emaFactor ≤ 1
  ordered : ∀ k, i.posActionBoundsLower k ≤ i.posActionBoundsUpper k

namespace RlActionProcessor

/-- The writes of the main loop. -/
def write (s : RlActionProcessor R) (i : Inputs R) : RlActionProcessor R :=
  { s with
    policyAction := i.policyAction
    prevUsedAction := s.usedAction
    emaFactor := i.emaFactor
    fingertipPos := i.fingertipPos
    fingertipQuat := i.fingertipQuat
    fixedPosActionFrame := i.fixedPosActionFrame
    posThreshold := i.posThreshold
    rotThreshold := i.rotThreshold
    posActionBoundsLower := i.posActionBoundsLower
    posActionBoundsUpper := i.posActionBoundsUpper
    unidirectionalRot := i.unidirectionalRot }

variable [IsStrictOrderedRing R] [FloorSemiring R]

def call (s : RlActionProcessor R) (i : Inputs R) : RlActionProcessor R := (s.write i).process

/-- What a call promises of its outputs, where `reference` is the yaw of the first one. -/
structure Bounded (bound reference : R) (s : RlActionProcessor R) : Prop where
  used : ∀ k, |s.usedAction k| ≤ bound
  position : ∀ i, s.fixedPosActionFrame i + s.posActionBoundsLower i ≤
      s.ctrlTargetFingertipMidpointPos i ∧
    s.ctrlTargetFingertipMidpointPos i ≤ s.fixedPosActionFrame i + s.posActionBoundsUpper i
  orientation : s.ctrlTargetFingertipMidpointQuat = quatFromEulerXYZ 3.14159 0 s.targetYaw
  range : -pi ≤ s.targetYaw ∧ s.targetYaw ≤ pi
  near : Near (2 * pi) yawLimit reference s.targetYaw
  asked : Near (2 * pi) yawLimit reference s.rawTargetYaw →
    s.targetYaw ≡ s.rawTargetYaw [PMOD 2 * pi]

/-! ## One call -/

omit [FloorSemiring R] [Trigonometry R] in
/-- The filter takes an average, and averages of bounded numbers are bounded. -/
theorem abs_filter_le {s : RlActionProcessor R} {bound : R} {i : Inputs R}
    (admissible : i.Admissible bound) (used : ∀ k, |s.usedAction k| ≤ bound) (k : Fin 6) :
    |(s.write i).filter.usedAction k| ≤ bound := by
  obtain ⟨policy, ⟨nonneg, le_one⟩, -⟩ := admissible
  exact abs_le.2 (convex_Icc (-bound) bound (abs_le.1 (policy k)) (abs_le.1 (used k)) nonneg
    (sub_nonneg.2 le_one) (add_sub_cancel _ _))

omit [FloorSemiring R] in
theorem yawLimit_room : (0 : R) ≤ yawLimit ∧ 2 * yawLimit < (2 * pi : R) := by
  have positive : (0 : R) < pi := pi_pos
  unfold yawLimit
  constructor
  · positivity
  · linarith

/-- The outputs of a call, from the filtered action and the reference. -/
theorem command_bounded {s : RlActionProcessor R} {bound reference : R}
    (ordered : ∀ i, s.posActionBoundsLower i ≤ s.posActionBoundsUpper i)
    (used : ∀ k, |s.usedAction k| ≤ bound) (captured : s.referenceYaw = reference) :
    Bounded bound reference s.command := by
  subst captured
  obtain ⟨nonneg, room⟩ := yawLimit_room (R := R)
  have moved : s.targetYaw ≡ s.referenceYaw +
      max (-yawLimit) (min (wrapToPi (s.rawTargetYaw - s.referenceYaw)) yawLimit) [PMOD 2 * pi] :=
    wrapToPi_modEq _
  refine ⟨used, fun i => ?_, rfl, abs_le.1 (abs_wrapToPi_le _), ?_, fun near => ?_⟩
  · obtain ⟨low, high⟩ := clamp_mem (ordered i)
    exact ⟨(add_le_add_iff_left _).2 low, (add_le_add_iff_left _).2 high⟩
  · exact near_of_clamp nonneg moved
  · refine modEq_of_clamp room (wrapToPi_modEq _).symm ?_ moved near
    exact mul_le_mul_of_nonneg_left (abs_wrapToPi_le _) zero_le_two

/-! ## A run of calls -/

/-- What a call leaves to the next one. -/
structure Held (bound reference : R) (s : RlActionProcessor R) : Prop where
  bounded : Bounded bound reference s
  captured : s.referenceYawInitialized = true
  reference : s.referenceYaw = reference

/-- A call, from the reference it finds or captures. -/
theorem call_held {s : RlActionProcessor R} {bound : R} {i : Inputs R}
    (admissible : i.Admissible bound) (used : ∀ k, |s.usedAction k| ≤ bound) :
    Held bound (if s.referenceYawInitialized then s.referenceYaw else yaw i.fingertipQuat)
      (s.call i) := by
  have filtered := abs_filter_le admissible used
  unfold call process
  rw [captureReference_eq]
  exact ⟨command_bounded admissible.ordered filtered rfl, rfl, rfl⟩

omit [FloorSemiring R] [Trigonometry R] in
/-- The initialisers of the bounds are in order. -/
theorem initial_ordered (i : Fin 3) : (initial : RlActionProcessor R).posActionBoundsLower i ≤
    (initial : RlActionProcessor R).posActionBoundsUpper i := by
  fin_cases i
  · show (-0.0075 : R) ≤ 0.0075
    norm_num
  · show (-0.0075 : R) ≤ 0.0075
    norm_num
  · show (-0.005 : R) ≤ 0.05
    norm_num

/-- **The bounds of the outputs.**  After every call of a run, for every bound of the
policy and every box of the position, and wherever the fingertip and the frame are. -/
theorem outputs_bounded {bound : R} {first : Inputs R} {rest : List (Inputs R)}
    (admissible : ∀ i ∈ first :: rest, i.Admissible bound) :
    Throughout call (Bounded bound (yaw first.fingertipQuat)) (call initial first) rest := by
  have here := admissible first List.mem_cons_self
  have fresh : ∀ k, |(initial : RlActionProcessor R).usedAction k| ≤ bound := fun k =>
    calc |(initial : RlActionProcessor R).usedAction k| = 0 := abs_zero
      _ ≤ |first.policyAction k| := abs_nonneg _
      _ ≤ bound := here.policy k
  have started : Held bound (yaw first.fingertipQuat) (call initial first) := call_held here fresh
  have kept : ∀ (s : RlActionProcessor R) (i : Inputs R), i.Admissible bound →
      Held bound (yaw first.fingertipQuat) s → Held bound (yaw first.fingertipQuat) (s.call i) := by
    intro s i allowed held
    have next := call_held allowed held.bounded.used
    rw [if_pos held.captured, held.reference] at next
    exact next
  rw [throughout_iff_split]
  rintro pre post rfl
  refine (run_invariant call kept (fun i member => ?_) started).bounded
  exact admissible i (List.mem_cons_of_mem _ (List.mem_append_left _ member))

/-! ## Real angles -/

noncomputable instance : Trigonometry ℝ where
  pi := Real.pi
  pi_pos := Real.pi_pos
  sqrt := Real.sqrt
  sin := Real.sin
  cos := Real.cos
  asin := Real.arcsin
  atan2 y x := Complex.arg ⟨x, y⟩

/-- A policy that asks for as much as it may, in one direction; the bounds are those of the
initialisers. -/
def saturated (action : ℝ) (quat : Quaternion ℝ) : Inputs ℝ where
  policyAction _ := action
  emaFactor := 0.2
  fingertipPos := ![0.3, 0, 0.2]
  fingertipQuat := quat
  fixedPosActionFrame := ![0.3, 0.01, 0.2]
  posThreshold := ![0.02, 0.02, 0.02]
  rotThreshold := ![0.097, 0.097, 0.097]
  posActionBoundsLower := ![-0.0075, -0.0075, -0.005]
  posActionBoundsUpper := ![0.0075, 0.0075, 0.05]
  unidirectionalRot := false

/-- Two calls, the fingertip half a turn further at the second one. -/
theorem outputs_bounded_twice :
    Throughout call (Bounded 1 (yaw (saturated 1 1).fingertipQuat)) (call initial (saturated 1 1))
      [saturated (-1) ⟨0, 0, 0, 1⟩] := by
  refine outputs_bounded fun i member => ?_
  rcases List.mem_cons.1 member with rfl | member
  · refine ⟨fun k => ?_, ⟨?_, ?_⟩, initial_ordered⟩ <;> norm_num [saturated]
  · rw [List.mem_singleton.1 member]
    refine ⟨fun k => ?_, ⟨?_, ?_⟩, initial_ordered⟩ <;> norm_num [saturated]

end RlActionProcessor

end FrankaRos.RlAction
