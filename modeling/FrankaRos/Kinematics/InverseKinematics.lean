/-
# Kinematics.InverseKinematics -- the damped line searches of PinocchioKinematics

`ik` and `ik_position_only` are one loop (`ikLoop`) over two objectives: the weighted
six-dimensional error and the position error.  An iteration measures the error of its
iterate, solves for a damped step and tries ten shrinking multiples of it; the first
candidate with a smaller error becomes the next iterate.

`IkModel` is what the loop reads of an initialised object, as functions of the arm's
configuration (`Ready.ikModel` says where they come from).  Pinocchio's logarithm, Eigen's
solver and the square root are parameters (`Numerics`).

The partial step of the search is `next`; `ikLoop_ends` says what the loop returns in
terms of the iterate where the steps of `next` end.
-/
import Mathlib.Data.Rat.Sqrt
import Mathlib.Tactic.FinCases
import FrankaRos.Theory.Descent
import FrankaRos.Theory.Double
import FrankaRos.Kinematics.PinocchioKinematics

namespace FrankaRos.Kinematics

open FrankaRos.Theory

set_option autoImplicit false

set_option linter.unusedSectionVars false

variable {K : Type} [MachineArith K]

/-! ## Vectors and matrices -/

abbrev Vec (K : Type) (n : Nat) := Fin n → Double K

abbrev Mat (K : Type) (m n : Nat) := Fin m → Fin n → Double K

abbrev Vector7d (K : Type) := Vec K 7

def allFinite {n : Nat} (v : Vec K n) : Bool := decide (∀ i, (v i).isFinite = true)

def sum {n : Nat} (v : Vec K n) : Double K := (List.finRange n).foldl (fun acc i => acc + v i) 0

def mulVec {m n : Nat} (a : Mat K m n) (v : Vec K n) : Vec K m := fun i => sum fun j => a i j * v j

def mul {l m n : Nat} (a : Mat K l m) (b : Mat K m n) : Mat K l n := fun i j =>
  sum fun k => a i k * b k j

def transpose {m n : Nat} (a : Mat K m n) : Mat K n m := fun i j => a j i

/-- `pinocchio::SE3`. -/
structure SE3 (K : Type) where
  translation : Vec K 3
  rotation : Mat K 3 3

/-- `std::sqrt`, `pinocchio::log3`, and the solution of `ldlt().solve`. -/
structure Numerics (K : Type) where
  sqrt : Double K → Double K
  log3 : Mat K 3 3 → Vec K 3
  ldltSolve : {n : Nat} → Mat K n n → Vec K n → Vec K n

def norm {n : Nat} (num : Numerics K) (v : Vec K n) : Double K := num.sqrt (sum fun i => v i * v i)

/-! ## The solver's inputs -/

structure IkOptions (K : Type) [MachineArith K] where
  maxIters : Int := 100
  eps : Double K := Double.lit (1 / 10000)
  stepSize : Double K := Double.lit 1
  damping : Double K := Double.lit (1 / 10000)
  wRot : Double K := Double.lit (1 / 5)
  clampToLimits : Bool := false

/-- The end effector's placement, the arm columns of its Jacobian, and the position
limits at the arm's entries. -/
structure IkModel (K : Type) where
  initialized : Bool
  placement : Vector7d K → SE3 K
  jacobian : Vector7d K → Mat K 6 7
  lower : Vector7d K
  upper : Vector7d K

/-- What a call leaves: its value, `q_sol` and `*final_err`.  `accepted` records the
configurations the line search accepted, in order. -/
structure IkResult (K : Type) where
  success : Bool
  qSol : Vector7d K
  finalErr : Double K
  accepted : List (Vector7d K)

/-- What the two solvers differ in: whether the error vector is finite, its norm, and
the step. -/
structure Objective (K : Type) where
  errorFinite : Vector7d K → Bool
  err : Vector7d K → Double K
  dq : Vector7d K → Vector7d K

/-! ## Errors and steps -/

structure Error6D (K : Type) where
  e : Vec K 6
  posErr : Double K
  rotErr : Double K

def computeError6DWorld (num : Numerics K) (current target : SE3 K) : Error6D K :=
  let ep : Vec K 3 := fun i => target.translation i - current.translation i
  let rErr := mul (transpose current.rotation) target.rotation
  let eoLocal := num.log3 rErr
  let eoWorld := mulVec current.rotation eoLocal
  ⟨Fin.append ep eoWorld, norm num ep, norm num eoWorld⟩

/-- The identity, with its lower right block multiplied by `w_rot`. -/
def weights (wRot : Double K) : Mat K 6 6 := fun i j =>
  let entry := if i = j then Double.lit 1 else 0
  if 3 ≤ i.val ∧ 3 ≤ j.val then entry * wRot else entry

/-- `J^T (J J^T + lambda^2)^-1 e`. -/
def dampedStep {n : Nat} (num : Numerics K) (damping : Double K) (j : Mat K n 7) (e : Vec K n) :
    Vector7d K :=
  let jjt := mul j (transpose j)
  let damped : Mat K n n := fun i k => if i = k then jjt i k + damping * damping else jjt i k
  mulVec (transpose j) (num.ldltSolve damped e)

/-- `std::min(std::max(v, lo), hi)`. -/
def clampScalar (v lo hi : Double K) : Double K := Double.min (Double.max v lo) hi

namespace IkModel

variable (num : Numerics K) (m : IkModel K)

def clampArmToLimits (q : Vector7d K) : Vector7d K := fun i => clampScalar (q i) (m.lower i) (m.upper i)

def integrateArm (q dq : Vector7d K) (alpha : Double K) : Vector7d K := fun i => q i + alpha * dq i

/-- The weighted error of `ik`. -/
def poseObjective (target : SE3 K) (opt : IkOptions K) : Objective K where
  errorFinite q := allFinite (computeError6DWorld num (m.placement q) target).e
  err q := norm num (mulVec (weights opt.wRot) (computeError6DWorld num (m.placement q) target).e)
  dq q := dampedStep num opt.damping (mul (weights opt.wRot) (m.jacobian q))
    (mulVec (weights opt.wRot) (computeError6DWorld num (m.placement q) target).e)

/-- The position error of `ik_position_only`. -/
def positionObjective (target : SE3 K) (opt : IkOptions K) : Objective K :=
  let ep (q : Vector7d K) : Vec K 3 := fun i => target.translation i - (m.placement q).translation i
  { errorFinite := fun q => allFinite (ep q)
    err := fun q => norm num (ep q)
    dq := fun q => dampedStep num opt.damping (fun i => m.jacobian q (i.castLE (by decide))) (ep q) }

/-! ## The search -/

variable (opt : IkOptions K) (o : Objective K)

/-- A multiple of the step, clamped where that is asked for. -/
def candidate (q dq : Vector7d K) (alpha : Double K) : Vector7d K :=
  let q' := integrateArm q dq alpha
  if opt.clampToLimits then m.clampArmToLimits q' else q'

/-- The line search, with `tries` candidates left. -/
def lineSearch (q dq : Vector7d K) (err0 : Double K) : Nat → Double K → Option (Vector7d K)
  | 0, _ => none
  | tries + 1, alpha =>
      let q' := m.candidate opt q dq alpha
      if (o.err q').isFinite = true ∧ o.err q' < err0 then some q'
      else lineSearch q dq err0 tries (alpha * Double.lit (1 / 2))

/-- Behind the loop: the iterate is clamped, and the last measured error is kept. -/
def afterLoop (q : Vector7d K) (lastErr : Double K) : IkResult K :=
  ⟨false, if opt.clampToLimits then m.clampArmToLimits q else q, lastErr, []⟩

/-- The loop, with `iters` iterations left. -/
def ikLoop : Nat → Vector7d K → Double K → IkResult K
  | 0, q, lastErr => m.afterLoop opt q lastErr
  | iters + 1, q, lastErr =>
      if o.errorFinite q = false then ⟨false, q, lastErr, []⟩
      else
        let err := o.err q
        if err < opt.eps then ⟨true, q, err, []⟩
        else
          let dq := o.dq q
          if allFinite dq = false then ⟨false, q, err, []⟩
          else
            match m.lineSearch opt o q dq err 10 opt.stepSize with
            | none => m.afterLoop opt q err
            | some q' =>
                let r := ikLoop iters q' err
                { r with accepted := q' :: r.accepted }

def ik (target : SE3 K) (qInit : Vector7d K) : Except String (IkResult K) :=
  if m.initialized = false then .error (PinocchioKinematics.notInitialised "ik")
  else .ok (m.ikLoop opt (m.poseObjective num target opt) opt.maxIters.toNat qInit (Double.lit (-1)))

/-- The target keeps the rotation of the start, which is not read again. -/
def lockRotation (target : SE3 K) (qInit : Vector7d K) : SE3 K :=
  { target with rotation := (m.placement qInit).rotation }

def ikPositionOnly (target : SE3 K) (qInit : Vector7d K) : Except String (IkResult K) :=
  if m.initialized = false then .error (PinocchioKinematics.notInitialised "ik_position_only")
  else
    let targetLocked := m.lockRotation target qInit
    .ok (m.ikLoop opt (m.positionObjective num targetLocked opt) opt.maxIters.toNat qInit
      (Double.lit (-1)))

/-- The overload without options. -/
def ikDefault (target : SE3 K) (qInit : Vector7d K) : Except String (IkResult K) :=
  m.ik num {} target qInit

/-! ## The step of the search -/

/-- The loop is left from inside: the error is not finite, or small enough, or the step
is not finite. -/
def Returns (q : Vector7d K) : Prop :=
  o.errorFinite q = false ∨ o.err q < opt.eps ∨ allFinite (o.dq q) = false

instance (q : Vector7d K) : Decidable (Returns opt o q) := inferInstanceAs (Decidable (_ ∨ _))

/-- The next iterate, unless the loop ends. -/
def next (q : Vector7d K) : Option (Vector7d K) :=
  if Returns opt o q then none
  else m.lineSearch opt o q (o.dq q) (o.err q) 10 opt.stepSize

/-- The loop ends because no candidate is accepted. -/
def Stuck (q : Vector7d K) : Prop := ¬ Returns opt o q ∧ m.next opt o q = none

instance (q : Vector7d K) : Decidable (m.Stuck opt o q) := inferInstanceAs (Decidable (_ ∧ _))

/-- What the line search accepts. -/
theorem lineSearch_some {q dq q' : Vector7d K} {err0 : Double K} {tries : Nat} {alpha : Double K}
    (found : m.lineSearch opt o q dq err0 tries alpha = some q') :
    (∃ alpha', q' = m.candidate opt q dq alpha') ∧ (o.err q').isFinite = true ∧ o.err q' < err0 := by
  induction tries generalizing alpha with
  | zero => cases found
  | succ tries ih =>
      rw [lineSearch] at found
      split at found
      · rename_i accepted
        obtain rfl := Option.some.inj found
        exact ⟨⟨alpha, rfl⟩, accepted⟩
      · exact ih found

theorem next_some {q q' : Vector7d K} (moved : m.next opt o q = some q') :
    ¬ Returns opt o q ∧ (∃ alpha, q' = m.candidate opt q (o.dq q) alpha) ∧
      (o.err q').isFinite = true ∧ o.err q' < o.err q := by
  rw [next] at moved
  split at moved
  · cases moved
  · rename_i stays
    exact ⟨stays, m.lineSearch_some opt o moved⟩

/-! ## What the loop returns -/

/-- The ways in which the loop can end, at an iterate `z`: the value with which it is
left from inside, or the clamped iterate with the error measured last. -/
inductive Ends (n : Nat) (q : Vector7d K) (lastErr : Double K) (z : Vector7d K) :
    Bool → Vector7d K → Double K → Prop
  | invalid (finalErr : Double K) (settled : follow (m.next opt o) n q = none)
      (invalid : o.errorFinite z = false) : Ends n q lastErr z false z finalErr
  | converged (settled : follow (m.next opt o) n q = none) (valid : o.errorFinite z = true)
      (small : o.err z < opt.eps) : Ends n q lastErr z true z (o.err z)
  | noStep (settled : follow (m.next opt o) n q = none) (valid : o.errorFinite z = true)
      (large : ¬ o.err z < opt.eps) (noStep : allFinite (o.dq z) = false) :
      Ends n q lastErr z false z (o.err z)
  | stuck (settled : follow (m.next opt o) n q = none) (stuck : m.Stuck opt o z) :
      Ends n q lastErr z false (m.afterLoop opt z (o.err z)).qSol (o.err z)
  | limit (finalErr : Double K) (reached : follow (m.next opt o) n q = some z)
      (measured : (n = 0 ∧ finalErr = lastErr) ∨ ∃ y, m.next opt o y = some z ∧ finalErr = o.err y) :
      Ends n q lastErr z false (m.afterLoop opt z finalErr).qSol finalErr

variable {m opt o} in
/-- An end of the rest of the loop is one of the loop. -/
theorem Ends.step {n : Nat} {q q' z qSol : Vector7d K} {lastErr finalErr : Double K}
    {success : Bool} (moved : m.next opt o q = some q')
    (ends : m.Ends opt o n q' (o.err q) z success qSol finalErr) :
    m.Ends opt o (n + 1) q lastErr z success qSol finalErr := by
  have further : follow (m.next opt o) (n + 1) q = follow (m.next opt o) n q' := by
    rw [follow, moved]
    rfl
  cases ends with
  | invalid _ settled invalid => exact .invalid _ (further.trans settled) invalid
  | converged settled valid small => exact .converged (further.trans settled) valid small
  | noStep settled valid large noStep => exact .noStep (further.trans settled) valid large noStep
  | stuck settled stuck => exact .stuck (further.trans settled) stuck
  | limit _ reached measured =>
      refine .limit _ (further.trans reached) (.inr ?_)
      rcases measured with ⟨rfl, rfl⟩ | measured
      · obtain rfl := Option.some.inj reached
        exact ⟨q, moved, rfl⟩
      · exact measured

/-- An iteration that `next` has no value for ends the loop. -/
theorem ikLoop_stops (n : Nat) {q : Vector7d K} (lastErr : Double K)
    (ended : m.next opt o q = none) :
    ∃ success qSol finalErr, m.ikLoop opt o (n + 1) q lastErr = ⟨success, qSol, finalErr, []⟩ ∧
      m.Ends opt o (n + 1) q lastErr q success qSol finalErr := by
  have settled : follow (m.next opt o) (n + 1) q = none := by
    rw [follow, ended]
    rfl
  rw [ikLoop]
  split
  · rename_i invalid
    exact ⟨_, _, _, rfl, .invalid _ settled invalid⟩
  rename_i valid
  rw [Bool.not_eq_false] at valid
  simp only
  split
  · rename_i small
    exact ⟨_, _, _, rfl, .converged settled valid small⟩
  rename_i large
  split
  · rename_i noStep
    exact ⟨_, _, _, rfl, .noStep settled valid large noStep⟩
  rename_i step
  have within : ¬ Returns opt o q := by
    rintro (invalid | small | noStep)
    · rw [valid] at invalid
      cases invalid
    · exact large small
    · exact step noStep
  have none : m.lineSearch opt o q (o.dq q) (o.err q) 10 opt.stepSize = none := by
    rwa [next, if_neg within] at ended
  rw [none]
  exact ⟨_, _, _, rfl, .stuck settled ⟨within, ended⟩⟩

/-- Any other iteration goes on with the iterate `next` gives. -/
theorem ikLoop_moves (n : Nat) {q q' : Vector7d K} (lastErr : Double K)
    (moved : m.next opt o q = some q') :
    m.ikLoop opt o (n + 1) q lastErr =
      { m.ikLoop opt o n q' (o.err q) with
        accepted := q' :: (m.ikLoop opt o n q' (o.err q)).accepted } := by
  obtain ⟨within, -⟩ := m.next_some opt o moved
  have found : m.lineSearch opt o q (o.dq q) (o.err q) 10 opt.stepSize = some q' := by
    rwa [next, if_neg within] at moved
  simp only [Returns, not_or, Bool.not_eq_false] at within
  rw [ikLoop, if_neg (by rw [within.1]; decide)]
  simp only
  rw [if_neg within.2.1, if_neg (by rw [within.2.2]; decide), found]

/-- The loop follows `next`, and ends in one of these ways where its steps end. -/
theorem ikLoop_ends (n : Nat) (q : Vector7d K) (lastErr : Double K) :
    ∃ success qSol finalErr,
      m.ikLoop opt o n q lastErr = ⟨success, qSol, finalErr, trail (m.next opt o) n q⟩ ∧
        m.Ends opt o n q lastErr (final (m.next opt o) n q) success qSol finalErr := by
  induction n generalizing q lastErr with
  | zero => exact ⟨_, _, _, rfl, .limit lastErr rfl (.inl ⟨rfl, rfl⟩)⟩
  | succ n ih =>
      cases moved : m.next opt o q with
      | none =>
          have stays : trail (m.next opt o) (n + 1) q = [] ∧ final (m.next opt o) (n + 1) q = q := by
            simp only [trail, final, moved, and_self]
          rw [stays.1, stays.2]
          exact m.ikLoop_stops opt o n lastErr moved
      | some q' =>
          have walks : trail (m.next opt o) (n + 1) q = q' :: trail (m.next opt o) n q' ∧
              final (m.next opt o) (n + 1) q = final (m.next opt o) n q' := by
            simp only [trail, final, moved, and_self]
          obtain ⟨success, qSol, finalErr, result, ends⟩ := ih q' (o.err q)
          rw [m.ikLoop_moves opt o n lastErr moved, result, walks.1, walks.2]
          exact ⟨success, qSol, finalErr, rfl, ends.step moved⟩

end IkModel

/-! ## A concrete arm -/

/-- Square roots of squares, the logarithm of the identity, and the solution of diagonal
systems. -/
def exactNumerics : Numerics ℚ where
  sqrt
    | .fin x => .fin (Rat.sqrt x)
    | _ => .nan
  log3 _ := fun _ => 0
  ldltSolve a b := fun i => b i / a i i

def poseAt (x : Double ℚ) : SE3 ℚ :=
  ⟨![x, 0, 0], fun i j => if i = j then Double.lit 1 else 0⟩

/-- Its first joint slides the end effector along x, and the others do not move it. -/
def slider (lower upper : ℚ) : IkModel ℚ where
  initialized := true
  placement q := poseAt (q 0)
  jacobian _ row i := if row = 0 ∧ i = 0 then Double.lit 1 else 0
  lower _ := .fin lower
  upper _ := .fin upper

def sliderAt (x : ℚ) : Vector7d ℚ := fun i => if i = 0 then .fin x else 0

/-- Its errors are finite at every finite configuration. -/
theorem slider_valid (lower upper x : ℚ) (opt : IkOptions ℚ) {q : Vector7d ℚ}
    (finite : (q 0).isFinite = true) :
    ((slider lower upper).poseObjective exactNumerics (poseAt (.fin x)) opt).errorFinite q = true ∧
      ((slider lower upper).positionObjective exactNumerics (poseAt (.fin x)) opt).errorFinite q =
        true := by
  obtain ⟨y, here⟩ : ∃ y : ℚ, (slider lower upper).placement q = poseAt (.fin y) := by
    cases value : q 0 with
    | fin y => exact ⟨y, by simp [slider, value]⟩
    | _ =>
        rw [value] at finite
        cases finite
  simp only [IkModel.poseObjective, IkModel.positionObjective, here, allFinite, decide_eq_true_eq]
  constructor
  · intro i
    fin_cases i <;> rfl
  · intro i
    fin_cases i <;> rfl

/-! ## Where the model comes from -/

namespace PinocchioKinematics

/-- What `ik` and `ik_position_only` read of the object: `oMf[ee_frame_id_]` behind
`fillQFullFromArmInPlace`, and the columns of `J_full_` at `arm_v_idx_`. -/
def ikModel (lib : Pinocchio (Double K) (SE3 K) (Vec K 6))
    (lowerPositionLimit upperPositionLimit : List (Double K)) (s : PinocchioKinematics (Double K)) :
    IkModel K where
  initialized := s.initialized
  placement q := lib.placement s.model ((s.fillQFullFromArmInPlace q).getD []) s.eeFrameId
  jacobian q row i :=
    (lib.frameJacobian s.model ((s.fillQFullFromArmInPlace q).getD []) s.eeFrameId).getD
      (s.armVIdx i).toNat (fun _ => 0) row
  lower i := lowerPositionLimit.getD (s.armQIdx i).toNat 0
  upper i := upperPositionLimit.getD (s.armQIdx i).toNat 0

variable [One (Double K)]

/-- An initialised object whose end effector is a frame of the model: the two functions
are what `fk` and `jacobian` return, for every configuration. -/
theorem Ready.ikModel {m : Model} {opt : Options} {block : Fin 7 → Nat}
    {s : PinocchioKinematics (Double K)} (ready : Ready m opt block s)
    (inside : s.eeFrameId < s.model.frames.length)
    (lib : Pinocchio (Double K) (SE3 K) (Vec K 6)) (lower upper : List (Double K)) (q : Vector7d K) :
    s.fk lib q = some (.ok ((s.ikModel lib lower upper).placement q)) ∧
      ∃ columns, s.jacobian lib q = some (.ok columns) ∧ columns = List.ofFn fun i row =>
        (s.ikModel lib lower upper).jacobian q row i := by
  obtain ⟨full, built, -, -⟩ := ready.fillQFull q
  constructor
  · simp [fk, fkRt, PinocchioKinematics.ikModel, ready.initialized, built, inside]
  · have column : ∀ i, col (lib.frameJacobian s.model full s.eeFrameId) (s.armVIdx i) =
        some fun row => (s.ikModel lib lower upper).jacobian q row i := by
      intro i
      obtain ⟨nonneg, inside⟩ := ready.armVIdx_inside i
      have bound : (s.armVIdx i).toNat < (lib.frameJacobian s.model full s.eeFrameId).length := by
        rwa [lib.length_frameJacobian, ready.model]
      rw [col, if_pos nonneg, List.getElem?_eq_getElem bound]
      simp [PinocchioKinematics.ikModel, built, bound]
    refine ⟨_, ?_, rfl⟩
    have columns : (List.finRange 7).mapM (fun i =>
        col (lib.frameJacobian s.model full s.eeFrameId) (s.armVIdx i)) =
          some (List.ofFn fun i row => (s.ikModel lib lower upper).jacobian q row i) := by
      simp only [column]
      rw [List.ofFn_eq_map]
      exact List.mapM_pure
    simp [jacobian, ready.initialized, built, inside, columns]

end PinocchioKinematics

end FrankaRos.Kinematics
