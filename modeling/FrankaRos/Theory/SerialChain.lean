/-
# Theory.SerialChain -- the Jacobian of a serial chain, and how it changes

A chain is a list of segments, a segment a fixed frame or a joint whose tip moves with a
constant twist.  `endFrame` is where the chain ends for given joint values, `jacobian` the
twist of that end, taken at the end, for each joint moving at unit speed.

Along any motion of the joints the end moves with the Jacobian times the joint velocities
(`moves_endFrame`), and the columns of the Jacobian have the derivative `columnRate`
(`hasDerivAt_jacobian`): the joints before a column turn it, and from the column's own joint
on they move the point it is taken at.
-/
import FrankaRos.Theory.RigidMotion

namespace FrankaRos.Theory.Rigid

open Matrix

set_option autoImplicit false

universe u

/-! ## Weighted sums of columns -/

section Multiply

variable {R : Type u} [CommRing R]

/-- Every column times its velocity, added up. -/
def multiply (columns : List (Twist R)) (rates : List R) : Twist R :=
  (List.zipWith (fun column rate => rate • column) columns rates).sum

@[simp] theorem multiply_nil (rates : List R) : multiply [] rates = 0 := rfl

@[simp] theorem multiply_nil_right (columns : List (Twist R)) : multiply columns [] = 0 := by
  simp [multiply]

@[simp] theorem multiply_cons (column : Twist R) (columns : List (Twist R)) (rate : R)
    (rates : List R) :
    multiply (column :: columns) (rate :: rates) = rate • column + multiply columns rates := by
  simp [multiply]

/-- A linear map of the columns. -/
theorem multiply_map {f : Twist R → Twist R} (add : ∀ t s, f (t + s) = f t + f s)
    (smul : ∀ (c : R) t, f (c • t) = c • f t) (columns : List (Twist R)) (rates : List R) :
    multiply (columns.map f) rates = f (multiply columns rates) := by
  have zero : f 0 = 0 := by simpa using smul 0 0
  induction columns generalizing rates with
  | nil => simp [zero]
  | cons column columns ih =>
      cases rates with
      | nil => simp [zero]
      | cons rate rates => rw [List.map_cons, multiply_cons, multiply_cons, ih, add, smul]

theorem multiply_changeBase (M : Matrix (Fin 3) (Fin 3) R) (columns : List (Twist R))
    (rates : List R) :
    multiply (columns.map (Twist.changeBase M)) rates = (multiply columns rates).changeBase M :=
  multiply_map (Twist.changeBase_add M) (Twist.changeBase_smul M) columns rates

theorem multiply_changeRefPoint (d : Vec3 R) (columns : List (Twist R)) (rates : List R) :
    multiply (columns.map (Twist.changeRefPoint · d)) rates =
      (multiply columns rates).changeRefPoint d :=
  multiply_map (Twist.changeRefPoint_add · · d) (Twist.changeRefPoint_smul · · d) columns rates

theorem multiply_eq_sum (columns : List (Twist R)) (rates : List R) :
    multiply columns rates =
      ∑ j ∈ Finset.range columns.length, rates.getD j 0 • columns.getD j 0 := by
  induction columns generalizing rates with
  | nil => rfl
  | cons column columns ih =>
      rw [List.length_cons, Finset.sum_range_succ', add_comm]
      cases rates with
      | nil => simp
      | cons rate rates => simp [ih]

/-- Columns of zeros do not count. -/
theorem multiply_append_zeros (columns : List (Twist R)) (rates : List R) (n : ℕ) :
    multiply (columns ++ List.replicate n 0) rates = multiply columns rates := by
  have zeros : ∀ n (rates : List R), multiply (List.replicate n (0 : Twist R)) rates = 0 := by
    intro n
    induction n with
    | zero => simp
    | succ n ih => rintro (_ | ⟨rate, rates⟩) <;> simp [List.replicate_succ, ih]
  induction columns generalizing rates with
  | nil => simpa using zeros n rates
  | cons column columns ih => cases rates <;> simp [ih]

/-- The rate at which a column changes: the columns before it turn it, and the columns from it
on shift the point at which it is taken. -/
def columnRate (columns : List (Twist R)) (rates : List R) (i : ℕ) : Twist R :=
  let before := multiply (columns.take i) (rates.take i)
  let behind := multiply (columns.drop i) (rates.drop i)
  Twist.cross (-behind.vel, before.rot) (columns.getD i 0)

theorem columnRate_eq (columns : List (Twist R)) (rates : List R) (i : ℕ) :
    columnRate columns rates i =
      ((multiply (columns.take i) (rates.take i)).rot ⨯₃ (columns.getD i 0).vel +
          (columns.getD i 0).rot ⨯₃ (multiply (columns.drop i) (rates.drop i)).vel,
        (multiply (columns.take i) (rates.take i)).rot ⨯₃ (columns.getD i 0).rot) := by
  simp only [columnRate, Twist.cross, Twist.rot_mk, Twist.vel_mk, map_neg, LinearMap.neg_apply,
    cross_anticomm]

theorem columnRate_zero (column : Twist R) (columns : List (Twist R)) (rates : List R) :
    columnRate (column :: columns) rates 0 =
      (column.rot ⨯₃ (multiply (column :: columns) rates).vel, 0) := by
  simp [columnRate_eq]

theorem columnRate_succ (column : Twist R) (columns : List (Twist R)) (rate : R)
    (rates : List R) (i : ℕ) :
    columnRate (column :: columns) (rate :: rates) (i + 1) =
      rate • (column.rot ⨯₃ (columns.getD i 0).vel, column.rot ⨯₃ (columns.getD i 0).rot) +
        columnRate columns rates i := by
  simp only [columnRate_eq, List.getD_cons_succ, List.take_succ_cons, List.drop_succ_cons,
    multiply_cons, Twist.rot_add, Twist.rot_smul, map_add, map_smul, LinearMap.add_apply,
    LinearMap.smul_apply]
  rw [Prod.smul_mk, Prod.mk_add_mk, add_assoc]

theorem getD_map_changeBase (M : Matrix (Fin 3) (Fin 3) R) (columns : List (Twist R)) (i : ℕ) :
    (columns.map (Twist.changeBase M)).getD i 0 = (columns.getD i 0).changeBase M := by
  rw [← Twist.changeBase_zero M, List.getD_map, Twist.changeBase_zero]

/-- A rotation takes the rates along. -/
theorem columnRate_changeBase {M : Matrix (Fin 3) (Fin 3) R} (rot : Rotation M)
    (columns : List (Twist R)) (rates : List R) (i : ℕ) :
    columnRate (columns.map (Twist.changeBase M)) rates i =
      (columnRate columns rates i).changeBase M := by
  simp only [columnRate_eq, getD_map_changeBase, ← List.map_take, ← List.map_drop,
    multiply_changeBase]
  simp [Twist.changeBase, rot.cross, mulVec_add]

/-- The columns up to one, and those behind. -/
theorem multiply_take_add_drop (columns : List (Twist R)) (rates : List R) (i : ℕ) :
    multiply columns rates =
      multiply (columns.take i) (rates.take i) + multiply (columns.drop i) (rates.drop i) := by
  induction i generalizing columns rates with
  | zero => simp
  | succ i ih =>
      cases columns with
      | nil => simp
      | cons column columns =>
          cases rates with
          | nil => simp
          | cons rate rates =>
              simp only [multiply_cons, List.take_succ_cons, List.drop_succ_cons, add_assoc,
                ← ih columns rates]

/-- The rate of a column in the frame of the end: only the joints behind it count. -/
def bodyRate (columns : List (Twist R)) (rates : List R) (i : ℕ) : Twist R :=
  -(multiply (columns.drop (i + 1)) (rates.drop (i + 1))).cross (columns.getD i 0)

/-- The rate of a column taken at the origin: only the joints before it count. -/
def inertialRate (columns : List (Twist R)) (rates : List R) (i : ℕ) : Twist R :=
  (multiply (columns.take i) (rates.take i)).cross (columns.getD i 0)

theorem bodyRate_changeBase {M : Matrix (Fin 3) (Fin 3) R} (rot : Rotation M)
    (columns : List (Twist R)) (rates : List R) (i : ℕ) :
    bodyRate (columns.map (Twist.changeBase M)) rates i =
      (bodyRate columns rates i).changeBase M := by
  simp only [bodyRate, getD_map_changeBase, ← List.map_drop, multiply_changeBase]
  simp [Twist.cross, Twist.changeBase, rot.cross, mulVec_add]

/-- The rate of a column less the turn of the end. -/
theorem columnRate_sub_turn {columns : List (Twist R)} {rates : List R} {i : ℕ}
    (inside : i < columns.length) (enough : columns.length ≤ rates.length) :
    columnRate columns rates i -
        ((multiply columns rates).rot ⨯₃ (columns.getD i 0).vel,
          (multiply columns rates).rot ⨯₃ (columns.getD i 0).rot) =
      bodyRate columns rates i := by
  have column : columns.drop i = columns.getD i 0 :: columns.drop (i + 1) := by
    rw [List.getD_eq_getElem _ _ inside, List.drop_eq_getElem_cons inside]
  have rate : rates.drop i = rates.getD i 0 :: rates.drop (i + 1) := by
    have inside : i < rates.length := inside.trans_le enough
    rw [List.getD_eq_getElem _ _ inside, List.drop_eq_getElem_cons inside]
  rw [columnRate_eq, bodyRate, multiply_take_add_drop columns rates i, column, rate, multiply_cons]
  simp only [Twist.cross, Twist.rot_add, Twist.rot_smul, Twist.vel_add, Twist.vel_smul, map_add,
    map_smul, LinearMap.add_apply, LinearMap.smul_apply, cross_self, smul_zero, Prod.mk_sub_mk,
    Prod.neg_mk]
  rw [← cross_anticomm (multiply (columns.drop (i + 1)) (rates.drop (i + 1))).vel]
  refine congrArg₂ Prod.mk ?_ ?_
  · abel1
  · abel1

/-- Columns of zeros behind a column leave its rates alone. -/
theorem rates_append_zeros {columns : List (Twist R)} (rates : List R) (n : ℕ) {i : ℕ}
    (inside : i < columns.length) :
    columnRate (columns ++ List.replicate n 0) rates i = columnRate columns rates i ∧
      bodyRate (columns ++ List.replicate n 0) rates i = bodyRate columns rates i ∧
      inertialRate (columns ++ List.replicate n 0) rates i = inertialRate columns rates i := by
  have column : (columns ++ List.replicate n 0).getD i 0 = columns.getD i 0 :=
    List.getD_append _ _ _ _ inside
  have before : (columns ++ List.replicate n 0).take i = columns.take i :=
    List.take_append_of_le_length inside.le
  have behind : ∀ j ≤ columns.length, ∀ rates : List R,
      multiply ((columns ++ List.replicate n 0).drop j) rates =
        multiply (columns.drop j) rates := by
    intro j within rates
    rw [List.drop_append_of_le_length within, multiply_append_zeros]
  simp only [columnRate_eq, bodyRate, inertialRate, column, before, behind i inside.le,
    behind (i + 1) inside, and_self]

theorem getD_map_changeRefPoint (d : Vec3 R) (columns : List (Twist R)) (i : ℕ) :
    (columns.map (Twist.changeRefPoint · d)).getD i 0 = (columns.getD i 0).changeRefPoint d := by
  rw [← Twist.changeRefPoint_zero d, List.getD_map, Twist.changeRefPoint_zero]

/-- The rate of a column less the shift of the point it is taken at. -/
theorem columnRate_sub_shift (columns : List (Twist R)) (rates : List R) (i : ℕ) (d : Vec3 R) :
    (columnRate columns rates i).changeRefPoint (-d) -
        ((columns.getD i 0).rot ⨯₃ (multiply columns rates).vel, 0) =
      inertialRate (columns.map (Twist.changeRefPoint · (-d))) rates i := by
  rw [inertialRate, getD_map_changeRefPoint, ← List.map_take, multiply_changeRefPoint, columnRate_eq,
    multiply_take_add_drop columns rates i]
  generalize multiply (columns.take i) (rates.take i) = before
  generalize multiply (columns.drop i) (rates.drop i) = behind
  generalize columns.getD i 0 = t
  simp only [Twist.cross, Twist.changeRefPoint, Twist.vel_mk, Twist.rot_mk, Twist.vel_add,
    map_add, map_neg, LinearMap.add_apply, LinearMap.neg_apply, Prod.mk_sub_mk, sub_zero]
  rw [cross_cross before.rot t.rot d, ← cross_anticomm t.rot before.vel,
    ← cross_anticomm t.rot (before.rot ⨯₃ d)]
  refine congrArg₂ Prod.mk ?_ rfl
  abel1

end Multiply

/-! ## Chains -/

/-- A joint with what is behind it: where its tip is, and the twist with which the tip moves
for a joint at unit speed, taken at the origin. -/
structure Link where
  pose : ℝ → Frame ℝ
  twist : Twist ℝ
  moves : ∀ y, Moves pose twist y
  rotation : ∀ y, Rotation (pose y).M

inductive Segment where
  | fixed (pose : Frame ℝ) (rotation : Rotation pose.M)
  | joint (link : Link)

def Segment.isJoint : Segment → Bool
  | .fixed _ _ => false
  | .joint _ => true

/-- The segments with a joint, counted. -/
def joints (chain : List Segment) : ℕ := chain.countP Segment.isJoint

@[simp] theorem joints_nil : joints [] = 0 := rfl

@[simp] theorem joints_fixed (pose : Frame ℝ) (rotation : Rotation pose.M) (rest : List Segment) :
    joints (.fixed pose rotation :: rest) = joints rest := by
  simp [joints, Segment.isJoint]

@[simp] theorem joints_joint (link : Link) (rest : List Segment) :
    joints (.joint link :: rest) = joints rest + 1 := by
  simp [joints, List.countP_cons, Segment.isJoint]

/-- Where the chain ends. -/
noncomputable def endFrame : List Segment → List ℝ → Frame ℝ
  | [], _ => .identity
  | .fixed pose _ :: rest, q => pose.comp (endFrame rest q)
  | .joint link :: rest, q => (link.pose (q.headD 0)).comp (endFrame rest q.tail)

/-- The twist of the end for each joint, in the base, taken at the end. -/
noncomputable def jacobian : List Segment → List ℝ → List (Twist ℝ)
  | [], _ => []
  | .fixed pose _ :: rest, q => (jacobian rest q).map (Twist.changeBase pose.M)
  | .joint link :: rest, q =>
      link.twist.changeRefPoint (endFrame (.joint link :: rest) q).p ::
        (jacobian rest q.tail).map (Twist.changeBase (link.pose (q.headD 0)).M)

theorem endFrame_rotation (chain : List Segment) (q : List ℝ) : Rotation (endFrame chain q).M := by
  induction chain generalizing q with
  | nil => exact .one
  | cons segment rest ih =>
      cases segment with
      | fixed pose rotation => exact rotation.mul (ih q)
      | joint link => exact (link.rotation _).mul (ih q.tail)

theorem length_jacobian (chain : List Segment) (q : List ℝ) :
    (jacobian chain q).length = joints chain := by
  induction chain generalizing q with
  | nil => rfl
  | cons segment rest ih =>
      cases segment with
      | fixed pose rotation => rw [jacobian, List.length_map, ih, joints_fixed]
      | joint link => rw [jacobian, List.length_cons, List.length_map, ih, joints_joint]

/-! ## Motions of the joints -/

/-- The joint values at a time. -/
def values (qs : List (ℝ → ℝ)) (t : ℝ) : List ℝ := qs.map (· t)

/-- Every joint has its velocity. -/
def HasRates (qs : List (ℝ → ℝ)) (rates : List ℝ) (t : ℝ) : Prop :=
  List.Forall₂ (fun q rate => HasDerivAt q rate t) qs rates

variable {qs : List (ℝ → ℝ)} {rates : List ℝ} {t : ℝ}

/-- The end moves with the Jacobian times the velocities. -/
theorem moves_endFrame (chain : List Segment) (moving : HasRates qs rates t)
    (enough : joints chain ≤ qs.length) :
    Moves (fun s => endFrame chain (values qs s))
      ((multiply (jacobian chain (values qs t)) rates).changeRefPoint
        (-(endFrame chain (values qs t)).p)) t := by
  induction chain generalizing qs rates with
  | nil => simpa [jacobian, endFrame] using Moves.const Frame.identity t
  | cons segment rest ih =>
      cases segment with
      | fixed pose rotation =>
          have behind := ih moving (by simpa using enough)
          have whole := (Moves.const pose t).comp behind rotation
          rw [rotation.changeBase_changeRefPoint, Twist.changeRefPoint_changeRefPoint, zero_add,
            ← multiply_changeBase, mulVec_neg, ← neg_add] at whole
          exact whole
      | joint link =>
          cases moving with
          | nil => simp at enough
          | @cons q rate qs rates first others =>
              have behind := ih others (by simpa using enough)
              have front := (link.moves (q t)).param first
              have whole := front.comp behind (link.rotation (q t))
              rw [(link.rotation (q t)).changeBase_changeRefPoint,
                Twist.changeRefPoint_changeRefPoint, ← multiply_changeBase, mulVec_neg,
                ← neg_add] at whole
              rw [jacobian, multiply_cons, Twist.changeRefPoint_add, Twist.changeRefPoint_smul,
                Twist.changeRefPoint_self_neg]
              exact whole

/-- So does the point there. -/
theorem hasDerivAt_endPoint (chain : List Segment) (moving : HasRates qs rates t)
    (enough : joints chain ≤ qs.length) :
    HasDerivAt (fun s => (endFrame chain (values qs s)).p)
      (multiply (jacobian chain (values qs t)) rates).vel t := by
  simpa using (moves_endFrame chain moving enough).position

/-- The columns change at `columnRate`. -/
theorem hasDerivAt_jacobian (chain : List Segment) (moving : HasRates qs rates t)
    (enough : joints chain ≤ qs.length) (i : ℕ) :
    HasDerivAt (fun s => (jacobian chain (values qs s)).getD i 0)
      (columnRate (jacobian chain (values qs t)) rates i) t := by
  induction chain generalizing qs rates i with
  | nil =>
      have still : columnRate (jacobian [] (values qs t)) rates i = 0 := by
        simp [jacobian, columnRate_eq]
      rw [still]
      exact hasDerivAt_const t 0
  | cons segment rest ih =>
      cases segment with
      | fixed pose rotation =>
          have behind := ih moving (by simpa using enough) i
          have carried := (Moves.const pose t).carry_twist behind
          simp only [jacobian, columnRate_changeBase rotation, getD_map_changeBase]
          apply carried.congr_deriv
          simp
      | joint link =>
          cases moving with
          | nil => simp at enough
          | @cons q rate qs rates first others =>
              cases i with
              | zero =>
                  have point := hasDerivAt_endPoint (.joint link :: rest) (.cons first others)
                    enough
                  have turned := hasDerivAt_cross (hasDerivAt_const t link.twist.rot) point
                  simp only [jacobian, columnRate_zero, List.getD_cons_zero]
                  refine hasDerivAt_twist.2 ⟨?_, hasDerivAt_const t link.twist.rot⟩
                  apply (turned.const_add link.twist.vel).congr_deriv
                  simp [Twist.changeRefPoint, jacobian]
              | succ i =>
                  have front := (link.moves (q t)).param first
                  have carried := front.carry_twist (ih others (by simpa using enough) i)
                  simp only [jacobian, values, List.map_cons, List.getD_cons_succ,
                    List.headD_cons, List.tail_cons, columnRate_succ, getD_map_changeBase,
                    columnRate_changeBase (link.rotation (q t))]
                  apply carried.congr_deriv
                  simp [Twist.changeRefPoint, values]

/-- The columns in the frame of the end. -/
noncomputable def bodyJacobian (chain : List Segment) (q : List ℝ) : List (Twist ℝ) :=
  (jacobian chain q).map (Twist.changeBase (endFrame chain q).Mᵀ)

/-- The columns taken at the origin. -/
noncomputable def inertialJacobian (chain : List Segment) (q : List ℝ) : List (Twist ℝ) :=
  (jacobian chain q).map (Twist.changeRefPoint · (-(endFrame chain q).p))

theorem hasDerivAt_bodyJacobian (chain : List Segment) (moving : HasRates qs rates t)
    (enough : joints chain ≤ qs.length) {i : ℕ} (inside : i < joints chain) :
    HasDerivAt (fun s => (bodyJacobian chain (values qs s)).getD i 0)
      (bodyRate (bodyJacobian chain (values qs t)) rates i) t := by
  have column := hasDerivAt_twist.1 (hasDerivAt_jacobian chain moving enough i)
  have ends := moves_endFrame chain moving enough
  have rotation := (endFrame_rotation chain (values qs t)).transpose
  have same : (jacobian chain (values qs t)).length ≤ rates.length := by
    rwa [length_jacobian, ← moving.length_eq]
  simp only [bodyJacobian, getD_map_changeBase, bodyRate_changeBase rotation]
  rw [← columnRate_sub_turn (by rwa [length_jacobian]) same]
  exact hasDerivAt_twist.2 ⟨ends.seen column.1, ends.seen column.2⟩

theorem hasDerivAt_inertialJacobian (chain : List Segment) (moving : HasRates qs rates t)
    (enough : joints chain ≤ qs.length) (i : ℕ) :
    HasDerivAt (fun s => (inertialJacobian chain (values qs s)).getD i 0)
      (inertialRate (inertialJacobian chain (values qs t)) rates i) t := by
  have column := hasDerivAt_twist.1 (hasDerivAt_jacobian chain moving enough i)
  have point := (hasDerivAt_endPoint chain moving enough).neg
  simp only [inertialJacobian, getD_map_changeRefPoint]
  rw [← columnRate_sub_shift]
  refine hasDerivAt_twist.2 ⟨?_, by simpa [Twist.changeRefPoint] using column.2⟩
  apply (column.1.add (hasDerivAt_cross column.2 point)).congr_deriv
  simp [Twist.changeRefPoint, sub_eq_add_neg, add_assoc]

/-! ## Joints -/

theorem moves_axisRotation {axis : Vec3 ℝ} (unit : axis ⬝ᵥ axis = 1) (origin : Vec3 ℝ) (z : ℝ) :
    Moves (fun z => ⟨axisRotation axis z, origin⟩)
      (Twist.changeRefPoint (0, axis) (-origin)) z where
  rotates v := hasDerivAt_axisRotation unit z v
  shifts := (hasDerivAt_const z origin).congr_deriv (by simp [Twist.changeRefPoint])

theorem moves_shift (axis origin : Vec3 ℝ) (z : ℝ) :
    Moves (fun z => ⟨1, origin + z • axis⟩) (axis, 0) z where
  rotates v := by simpa using hasDerivAt_const z v
  shifts := by simpa using ((hasDerivAt_id z).smul_const axis).const_add origin

/-- A joint's own frame, run through by its value, with a tip fixed to it. -/
theorem Moves.tip {F : ℝ → Frame ℝ} {t : Twist ℝ} (moves : ∀ z, Moves F t z)
    (rotation : ∀ z, Rotation (F z).M) (scale offset : ℝ) (tip : Frame ℝ) (y : ℝ) :
    Moves (fun y => (F (scale * y + offset)).comp tip) (scale • t) y := by
  have runs : HasDerivAt (fun y => scale * y + offset) scale y := by
    simpa using ((hasDerivAt_id y).const_mul scale).add_const offset
  simpa using ((moves _).param runs).comp (Moves.const tip y) (rotation _)

/-- A joint that turns its tip about an axis through a point. -/
noncomputable def Link.revolute (axis origin : Vec3 ℝ) (unit : axis ⬝ᵥ axis = 1)
    (scale offset : ℝ) (tip : Frame ℝ) (rotation : Rotation tip.M) : Link where
  pose y := Frame.comp ⟨axisRotation axis (scale * y + offset), origin⟩ tip
  twist := scale • Twist.changeRefPoint (0, axis) (-origin)
  moves := .tip (moves_axisRotation unit origin) (axisRotation_rotation unit) scale offset tip
  rotation _ := (axisRotation_rotation unit _).mul rotation

/-- A joint that shifts its tip along an axis. -/
noncomputable def Link.prismatic (axis origin : Vec3 ℝ) (scale offset : ℝ) (tip : Frame ℝ)
    (rotation : Rotation tip.M) : Link where
  pose y := Frame.comp ⟨1, origin + (scale * y + offset) • axis⟩ tip
  twist := scale • (axis, 0)
  moves := .tip (moves_shift axis origin) (fun _ => .one) scale offset tip
  rotation _ := Rotation.one.mul rotation

end FrankaRos.Theory.Rigid
