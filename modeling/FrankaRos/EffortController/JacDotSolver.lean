/-
# EffortController.JacDotSolver -- the derivative of the chain's Jacobian

`ChainJntToJacDotSolver` takes the Jacobian of KDL, brings it into one of three
representations, and adds up a partial derivative for every pair of a column and a joint.
What it writes is the derivative of that Jacobian in time: `jntToJacDot_derivative` proves
it for every chain of the library, in all three representations, whatever the solver was
used for before.

The twists of the partial derivatives are exact here, so any ring will do for them.  KDL's
two solvers are parameters (`ChainSolvers`), `Describes` is what their documentation says
of a chain.  `none` is undefined behaviour: a column written behind the last.
-/
import FrankaRos.Theory.Run
import FrankaRos.Theory.SerialChain

namespace FrankaRos.EffortController

open FrankaRos.Theory FrankaRos.Theory.Rigid Matrix

set_option autoImplicit false

/-- The positions and the velocities; the constructor asserts one size. -/
structure JntArrayVel (R : Type) where
  q : List R
  qdot : List R
  sameSize : q.length = qdot.length

/-- What the solver asks the chain, and the solvers of KDL for the first segments of it;
a solver that fails returns nothing. -/
structure ChainSolvers (R : Type) where
  nrOfJoints : Nat
  nrOfSegments : Nat
  isFixed : Nat → Bool
  jntToJac : List R → Nat → Option (List (Twist R))
  jntToCart : List R → Nat → Option (Frame R)

inductive SolverError where
  | noError
  | notUpToDate
  | sizeMismatch
  | outOfRange
  | jacDotFailed
  | jacSolverFailed
  | fkSolverPosFailed
  deriving DecidableEq, Repr

structure ChainJntToJacDotSolver (R : Type) where
  lockedJoints : List Bool
  nrOfUnlockedJoints : Nat
  jacDot : List (Twist R)
  jacDotK : Twist R
  representation : Int

namespace ChainJntToJacDotSolver

def hybrid : Int := 0

def bodyFixed : Int := 1

def inertial : Int := 2

variable {R : Type} [CommRing R] (kdl : ChainSolvers R)

def construct : ChainJntToJacDotSolver R :=
  ⟨List.replicate kdl.nrOfJoints false, kdl.nrOfJoints, List.replicate kdl.nrOfJoints 0, 0, hybrid⟩

/-! ## Partial derivatives -/

def getPartialDerivativeHybrid (jac : List (Twist R)) (j i : Nat) : Twist R :=
  let jacJ := jac.getD j 0
  let jacI := jac.getD i 0
  if j < i then (jacJ.rot ⨯₃ jacI.vel, jacJ.rot ⨯₃ jacI.rot)
  else if i < j then ((-jacJ.vel) ⨯₃ jacI.rot, 0)
  else (jacI.rot ⨯₃ jacI.vel, 0)

def getPartialDerivativeBodyFixed (jac : List (Twist R)) (j i : Nat) : Twist R :=
  if i < j then
    let jacJ := jac.getD j 0
    let jacI := jac.getD i 0
    (-(jacJ.rot ⨯₃ jacI.vel + jacJ.vel ⨯₃ jacI.rot), -(jacJ.rot ⨯₃ jacI.rot))
  else 0

def getPartialDerivativeInertial (jac : List (Twist R)) (j i : Nat) : Twist R :=
  if j < i then
    let jacJ := jac.getD j 0
    let jacI := jac.getD i 0
    (jacJ.rot ⨯₃ jacI.vel + jacJ.vel ⨯₃ jacI.rot, jacJ.rot ⨯₃ jacI.rot)
  else 0

def getPartialDerivative (jac : List (Twist R)) (j i : Nat) (representation : Int) : Twist R :=
  if representation = hybrid then getPartialDerivativeHybrid jac j i
  else if representation = bodyFixed then getPartialDerivativeBodyFixed jac j i
  else if representation = inertial then getPartialDerivativeInertial jac j i
  else 0

/-! ## The derivative of the Jacobian -/

/-- The Jacobian in another frame or at another point. -/
def represent (representation : Int) (q : List R) (segmentNr : Nat) (jac : List (Twist R)) :
    Except SolverError (List (Twist R)) :=
  if representation = hybrid then .ok jac
  else
    match kdl.jntToCart q segmentNr with
    | none => .error .fkSolverPosFailed
    | some F =>
        if representation = bodyFixed then .ok (jac.map (Twist.changeBase F.Mᵀ))
        else if representation = inertial then .ok (jac.map (Twist.changeRefPoint · (-F.p)))
        else .error .jacDotFailed

variable (s : ChainJntToJacDotSolver R)

/-- The inner loop: what the joints that are not locked add to `jac_dot_k_`. -/
def column (jac : List (Twist R)) (qdot : List R) (k : Nat) (jacDotK : Twist R) : Twist R :=
  (List.range kdl.nrOfJoints).foldl (fun jacDotK j =>
    if s.lockedJoints.getD j false then jacDotK
    else jacDotK + qdot.getD j 0 • getPartialDerivative jac j k s.representation) jacDotK

/-- The outer loop, over the segments that are left: the columns, and `jac_dot_k_`. -/
def columns (jac : List (Twist R)) (qdot : List R) :
    List Nat → Nat → List (Twist R) → Twist R → Option (List (Twist R) × Twist R)
  | [], _, jdot, jacDotK => some (jdot, jacDotK)
  | i :: rest, k, jdot, jacDotK =>
      if kdl.isFixed i then columns jac qdot rest k jdot jacDotK
      else if k < jdot.length then
        columns jac qdot rest (k + 1) (jdot.set k (s.column kdl jac qdot k jacDotK)) 0
      else none

/-- What a call leaves: its value, and `jdot`. -/
structure JacDotResult (R : Type) where
  error : SolverError
  jdot : List (Twist R)
  solver : ChainJntToJacDotSolver R

/-- The number of segments a call is about. -/
def segmentNr (segNr : Int) : Nat := if segNr < 0 then kdl.nrOfSegments else segNr.toNat

def jntToJacDot (qIn : JntArrayVel R) (jdot : List (Twist R)) (segNr : Int) :
    Option (JacDotResult R) :=
  if s.lockedJoints.length ≠ kdl.nrOfJoints then some ⟨.notUpToDate, jdot, s⟩
  else
    let segmentNr := segmentNr kdl segNr
    let jdot := List.replicate jdot.length 0
    if qIn.q.length ≠ kdl.nrOfJoints ∨ s.nrOfUnlockedJoints ≠ jdot.length then
      some ⟨.sizeMismatch, jdot, s⟩
    else if kdl.nrOfSegments < segmentNr then some ⟨.outOfRange, jdot, s⟩
    else
      match kdl.jntToJac qIn.q segmentNr with
      | none => some ⟨.jacSolverFailed, jdot, s⟩
      | some jac =>
          match represent kdl s.representation qIn.q segmentNr jac with
          | .error e => some ⟨e, jdot, s⟩
          | .ok jac =>
              (s.columns kdl jac qIn.qdot (List.range segmentNr) 0 jdot s.jacDotK).map
                fun (jdot, jacDotK) => ⟨.noError, jdot, { s with jacDotK := jacDotK }⟩

/-- The overload that multiplies with the velocities; it writes to the member `jac_dot_`. -/
def jntToJacDotTwist (qIn : JntArrayVel R) (segNr : Int) :
    Option (SolverError × Option (Twist R) × ChainJntToJacDotSolver R) :=
  (s.jntToJacDot kdl qIn s.jacDot segNr).map fun r =>
    let s := { r.solver with jacDot := r.jdot }
    if r.error ≠ .noError then (r.error, none, s)
    else (.noError, some (multiply r.jdot qIn.qdot), s)

def setRepresentation (representation : Int) : ChainJntToJacDotSolver R :=
  if representation = hybrid ∨ representation = bodyFixed ∨ representation = inertial then
    { s with representation := representation }
  else s

def setLockedJoints (lockedJoints : List Bool) : SolverError × ChainJntToJacDotSolver R :=
  if lockedJoints.length ≠ s.lockedJoints.length then (.sizeMismatch, s)
  else
    (.noError, { s with
      lockedJoints := lockedJoints
      nrOfUnlockedJoints := lockedJoints.countP fun locked => !locked })

/-! ## Runs -/

inductive Call (R : Type) where
  | setRepresentation (representation : Int)
  | setLockedJoints (lockedJoints : List Bool)
  | jntToJacDot (qIn : JntArrayVel R) (jdot : List (Twist R)) (segNr : Int)
  | jntToJacDotTwist (qIn : JntArrayVel R) (segNr : Int)

def step : Call R → Option (ChainJntToJacDotSolver R)
  | .setRepresentation representation => some (s.setRepresentation representation)
  | .setLockedJoints lockedJoints => some (s.setLockedJoints lockedJoints).2
  | .jntToJacDot qIn jdot segNr => (s.jntToJacDot kdl qIn jdot segNr).map (·.solver)
  | .jntToJacDotTwist qIn segNr => (s.jntToJacDotTwist kdl qIn segNr).map (·.2.2)

/-- The solver behind a list of calls, unless one of them was undefined. -/
def after (calls : List (Call R)) : Option (ChainJntToJacDotSolver R) :=
  calls.foldlM (fun s call => s.step kdl call) (construct kdl)

/-! ## The columns are the rates of the library -/

theorem hybrid_ne : hybrid ≠ bodyFixed ∧ hybrid ≠ inertial ∧ bodyFixed ≠ inertial := by decide

/-- Sums over the columns before one, and over those from it on. -/
theorem sum_split (f : Nat → Twist R) {n k : Nat} (inside : k ≤ n) :
    ∑ j ∈ Finset.range n, f j =
      ∑ j ∈ Finset.range k, f j + ∑ j ∈ Finset.range (n - k), f (k + j) := by
  rw [← Finset.sum_range_add, Nat.add_sub_cancel' inside]

theorem multiply_take (jac : List (Twist R)) (qdot : List R) {k : Nat} (inside : k ≤ jac.length) :
    multiply (jac.take k) (qdot.take k) =
      ∑ j ∈ Finset.range k, qdot.getD j 0 • jac.getD j 0 := by
  rw [multiply_eq_sum, List.length_take, min_eq_left inside]
  apply Finset.sum_congr rfl
  intro j member
  have before := Finset.mem_range.1 member
  simp [List.getElem?_take_of_lt before]

theorem multiply_drop (jac : List (Twist R)) (qdot : List R) (k : Nat) :
    multiply (jac.drop k) (qdot.drop k) =
      ∑ j ∈ Finset.range (jac.length - k), qdot.getD (k + j) 0 • jac.getD (k + j) 0 := by
  rw [multiply_eq_sum, List.length_drop]
  simp

theorem sum_hybrid (jac : List (Twist R)) (qdot : List R) {k : Nat} (inside : k < jac.length) :
    ∑ j ∈ Finset.range jac.length, qdot.getD j 0 • getPartialDerivativeHybrid jac j k =
      columnRate jac qdot k := by
  -- from the column's own joint on one formula covers both branches
  have before : ∀ j < k, getPartialDerivativeHybrid jac j k =
      ((jac.getD j 0).rot ⨯₃ (jac.getD k 0).vel, (jac.getD j 0).rot ⨯₃ (jac.getD k 0).rot) := by
    intro j lower
    rw [getPartialDerivativeHybrid, if_pos lower]
  have behind : ∀ j, getPartialDerivativeHybrid jac (k + j) k =
      ((jac.getD k 0).rot ⨯₃ (jac.getD (k + j) 0).vel, 0) := by
    intro j
    rw [getPartialDerivativeHybrid, if_neg (by omega)]
    rcases Nat.eq_zero_or_pos j with rfl | later
    · rw [if_neg (by omega), Nat.add_zero]
    · rw [if_pos (by omega), map_neg, LinearMap.neg_apply, cross_anticomm]
  rw [sum_split _ inside.le, columnRate_eq, multiply_take jac qdot inside.le, multiply_drop,
    Finset.sum_congr rfl fun j member => by rw [before j (Finset.mem_range.1 member)]]
  simp only [behind]
  ext1
  · simp [Twist.vel, Twist.rot, Prod.fst_sum, Prod.snd_sum, map_sum, LinearMap.sum_apply]
  · simp [Twist.rot, Prod.snd_sum, map_sum, LinearMap.sum_apply]

theorem cross_sum (n : Nat) (c : Nat → R) (t : Nat → Twist R) (u : Twist R) :
    (∑ j ∈ Finset.range n, c j • t j).cross u = ∑ j ∈ Finset.range n, c j • (t j).cross u := by
  induction n with
  | zero => simp [Twist.cross]
  | succ n ih =>
      rw [Finset.sum_range_succ, Finset.sum_range_succ, ← ih]
      simp only [Twist.cross, Twist.vel_add, Twist.vel_smul, Twist.rot_add, Twist.rot_smul, map_add,
        map_smul, LinearMap.add_apply, LinearMap.smul_apply, Prod.smul_mk, Prod.mk_add_mk, smul_add]
      refine congrArg₂ Prod.mk ?_ rfl
      abel1

theorem sum_bodyFixed (jac : List (Twist R)) (qdot : List R) {k : Nat} (inside : k < jac.length) :
    ∑ j ∈ Finset.range jac.length, qdot.getD j 0 • getPartialDerivativeBodyFixed jac j k =
      bodyRate jac qdot k := by
  have before : ∀ j < k + 1, getPartialDerivativeBodyFixed jac j k = 0 := by
    intro j lower
    rw [getPartialDerivativeBodyFixed, if_neg (by omega)]
  have behind : ∀ j, getPartialDerivativeBodyFixed jac (k + 1 + j) k =
      -(jac.getD (k + 1 + j) 0).cross (jac.getD k 0) := by
    intro j
    rw [getPartialDerivativeBodyFixed, if_pos (by omega)]
    rfl
  rw [sum_split _ (Nat.succ_le_of_lt inside), bodyRate, multiply_drop, cross_sum,
    Finset.sum_eq_zero fun j member => by rw [before j (Finset.mem_range.1 member), smul_zero],
    zero_add, ← Finset.sum_neg_distrib]
  exact Finset.sum_congr rfl fun j _ => by rw [behind, smul_neg]

theorem sum_inertial (jac : List (Twist R)) (qdot : List R) {k : Nat} (inside : k < jac.length) :
    ∑ j ∈ Finset.range jac.length, qdot.getD j 0 • getPartialDerivativeInertial jac j k =
      inertialRate jac qdot k := by
  have before : ∀ j < k, getPartialDerivativeInertial jac j k =
      (jac.getD j 0).cross (jac.getD k 0) := by
    intro j lower
    rw [getPartialDerivativeInertial, if_pos lower]
    rfl
  have behind : ∀ j, getPartialDerivativeInertial jac (k + j) k = 0 := by
    intro j
    rw [getPartialDerivativeInertial, if_neg (by omega)]
  rw [sum_split _ inside.le, inertialRate, multiply_take jac qdot inside.le, cross_sum,
    Finset.sum_congr rfl fun j member => by rw [before j (Finset.mem_range.1 member)]]
  simp [behind]

/-- The rates in a representation. -/
def rateIn (representation : Int) (jac : List (Twist R)) (qdot : List R) (k : Nat) : Twist R :=
  if representation = hybrid then columnRate jac qdot k
  else if representation = bodyFixed then bodyRate jac qdot k
  else if representation = inertial then inertialRate jac qdot k
  else 0

theorem sum_partial (jac : List (Twist R)) (qdot : List R) {k : Nat} (inside : k < jac.length)
    (representation : Int) :
    ∑ j ∈ Finset.range jac.length, qdot.getD j 0 • getPartialDerivative jac j k representation =
      rateIn representation jac qdot k := by
  unfold getPartialDerivative rateIn
  split
  · exact sum_hybrid jac qdot inside
  split
  · exact sum_bodyFixed jac qdot inside
  split
  · exact sum_inertial jac qdot inside
  · simp

/-! ## What a call writes -/

/-- With no joint locked the inner loop adds the rate of the column. -/
theorem column_unlocked {jac : List (Twist R)} (length : jac.length = kdl.nrOfJoints)
    (free : ∀ j, s.lockedJoints.getD j false = false) (qdot : List R) {k : Nat}
    (inside : k < jac.length) (jacDotK : Twist R) :
    s.column kdl jac qdot k jacDotK = jacDotK + rateIn s.representation jac qdot k := by
  rw [← sum_partial jac qdot inside, column, ← length]
  simp only [free, if_false, Bool.false_eq_true]
  generalize jac.length = n
  induction n with
  | zero => simp
  | succ n ih =>
      rw [List.range_succ, List.foldl_append, ih, Finset.sum_range_succ, ← add_assoc]
      rfl

/-- The segments with a joint. -/
def moving (segments : List Nat) : Nat := segments.countP fun i => !kdl.isFixed i

omit [CommRing R] in
theorem moving_cons (i : Nat) (rest : List Nat) :
    moving kdl (i :: rest) = moving kdl rest + if kdl.isFixed i then 0 else 1 := by
  cases joint : kdl.isFixed i <;> simp [moving, joint]

/-- The outer loop writes one column for each joint of its segments, where they fit. -/
theorem columns_eq (jac : List (Twist R)) (qdot : List R) (segments : List Nat) (k : Nat)
    (jdot : List (Twist R)) (fits : k + moving kdl segments ≤ jdot.length) :
    ∃ jdot', s.columns kdl jac qdot segments k jdot 0 = some (jdot', 0) ∧
      jdot'.length = jdot.length ∧ ∀ i, jdot'.getD i 0 =
        if k ≤ i ∧ i < k + moving kdl segments then s.column kdl jac qdot i 0
        else jdot.getD i 0 := by
  induction segments generalizing k jdot with
  | nil => exact ⟨jdot, rfl, rfl, fun i => by
      rw [if_neg fun within => by simp [moving] at within; omega]⟩
  | cons segment rest ih =>
      rw [moving_cons] at fits
      rw [columns, moving_cons]
      split
      · rename_i fixed
        rw [if_pos fixed, Nat.add_zero] at fits
        exact ih k jdot fits
      · rename_i joint
        rw [if_neg joint] at fits
        rw [if_pos (by omega)]
        obtain ⟨jdot', ran, length, entries⟩ := ih (k + 1)
          (jdot.set k (s.column kdl jac qdot k 0)) (by rw [List.length_set]; omega)
        refine ⟨jdot', ran, by rw [length, List.length_set], fun i => ?_⟩
        rw [entries]
        rcases Nat.lt_trichotomy i k with before | rfl | behind
        · rw [if_neg (by omega), if_neg (by omega)]
          simp [List.getElem?_set_ne (Nat.ne_of_gt before)]
        · rw [if_neg (by omega), if_pos (by omega)]
          have inside : i < jdot.length := by omega
          simp [inside]
        · have other : k ≠ i := by omega
          have same : (k + 1 ≤ i ∧ i < k + 1 + moving kdl rest) ↔
              (k ≤ i ∧ i < k + (moving kdl rest + 1)) := by omega
          simp only [same]
          simp [List.getElem?_set_ne other]

theorem columns_none (jac : List (Twist R)) (qdot : List R) (segments : List Nat) (k : Nat)
    (jdot : List (Twist R)) (acc : Twist R) (within : k ≤ jdot.length)
    (more : jdot.length < k + moving kdl segments) :
    s.columns kdl jac qdot segments k jdot acc = none := by
  induction segments generalizing k jdot acc with
  | nil =>
      simp only [moving, List.countP_nil] at more
      omega
  | cons segment rest ih =>
      rw [moving_cons] at more
      rw [columns]
      split
      · rename_i fixed
        rw [if_pos fixed, Nat.add_zero] at more
        exact ih k jdot acc within more
      · rename_i joint
        rw [if_neg joint] at more
        split
        · rename_i room
          apply ih
          · rwa [List.length_set]
          · rw [List.length_set]
            omega
        · rfl

/-! ## Reachable solvers -/

/-- What every solver has that is behind calls. -/
structure Sound : Prop where
  locked : s.lockedJoints.length = kdl.nrOfJoints
  unlocked : s.nrOfUnlockedJoints = s.lockedJoints.countP fun locked => !locked
  jacDot : s.jacDot.length = kdl.nrOfJoints
  cleared : s.jacDotK = 0
  representation : s.representation = hybrid ∨ s.representation = bodyFixed ∨
    s.representation = inertial

theorem sound_construct : Sound kdl (construct kdl) where
  locked := List.length_replicate
  unlocked := by simp [construct, List.countP_replicate]
  jacDot := List.length_replicate
  cleared := rfl
  representation := .inl rfl

variable {kdl s}

/-- A call changes nothing of the solver, and keeps the size of what it writes. -/
theorem Sound.jntToJacDot_eq (sound : Sound kdl s) {qIn : JntArrayVel R} {jdot : List (Twist R)}
    {segNr : Int} {r : JacDotResult R} (ran : s.jntToJacDot kdl qIn jdot segNr = some r) :
    r.solver = s ∧ r.jdot.length = jdot.length := by
  rw [jntToJacDot] at ran
  split at ran
  · obtain rfl := Option.some.inj ran
    exact ⟨rfl, rfl⟩
  simp only at ran
  split at ran
  · obtain rfl := Option.some.inj ran
    exact ⟨rfl, List.length_replicate⟩
  split at ran
  · obtain rfl := Option.some.inj ran
    exact ⟨rfl, List.length_replicate⟩
  split at ran
  · obtain rfl := Option.some.inj ran
    exact ⟨rfl, List.length_replicate⟩
  split at ran
  · obtain rfl := Option.some.inj ran
    exact ⟨rfl, List.length_replicate⟩
  · obtain ⟨⟨written, acc⟩, wrote, rfl⟩ := Option.map_eq_some_iff.1 ran
    rw [sound.cleared] at wrote
    -- the loop that ends has written only columns that fit
    rcases Nat.lt_or_ge jdot.length (0 + moving kdl (List.range (segmentNr kdl segNr)))
      with more | fits
    · rw [columns_none _ _ _ _ _ _ _ _ (Nat.zero_le _) (by simpa using more)] at wrote
      cases wrote
    · obtain ⟨_, same, length, -⟩ := columns_eq kdl s _ qIn.qdot _ 0
        (List.replicate jdot.length 0) (by simpa using fits)
      obtain ⟨rfl, rfl⟩ := Prod.mk.inj (Option.some.inj (wrote.symm.trans same))
      refine ⟨?_, by rw [length, List.length_replicate]⟩
      simp only [← sound.cleared]

theorem Sound.step (sound : Sound kdl s) {call : Call R} {s' : ChainJntToJacDotSolver R}
    (ran : s.step kdl call = some s') : Sound kdl s' := by
  cases call with
  | setRepresentation representation =>
      obtain rfl := Option.some.inj ran
      unfold setRepresentation
      split
      · rename_i known
        exact ⟨sound.locked, sound.unlocked, sound.jacDot, sound.cleared, known⟩
      · exact sound
  | setLockedJoints lockedJoints =>
      obtain rfl := Option.some.inj ran
      unfold setLockedJoints
      split
      · exact sound
      · rename_i size
        exact ⟨(not_not.1 size).trans sound.locked, rfl, sound.jacDot, sound.cleared,
          sound.representation⟩
  | jntToJacDot qIn jdot segNr =>
      obtain ⟨r, called, rfl⟩ := Option.map_eq_some_iff.1 ran
      rwa [(sound.jntToJacDot_eq called).1]
  | jntToJacDotTwist qIn segNr =>
      obtain ⟨t, called, rfl⟩ := Option.map_eq_some_iff.1 ran
      obtain ⟨r, inner, rfl⟩ := Option.map_eq_some_iff.1 called
      obtain ⟨same, length⟩ := sound.jntToJacDot_eq inner
      have kept : Sound kdl { r.solver with jacDot := r.jdot } := by
        rw [same]
        exact ⟨sound.locked, sound.unlocked, length.trans sound.jacDot, sound.cleared,
          sound.representation⟩
      split
      · exact kept
      · exact kept

theorem sound_after {calls : List (Call R)} (ran : after kdl calls = some s) : Sound kdl s :=
  foldlM_invariant (fun _ _ _ _ sound stepped => sound.step stepped) (sound_construct kdl) ran

/-- Nothing is locked where no call has locked anything. -/
theorem unlocked_after {calls : List (Call R)} (ran : after kdl calls = some s)
    (unlocked : ∀ locked, .setLockedJoints locked ∈ calls → true ∉ locked) :
    true ∉ s.lockedJoints := by
  have together : Sound kdl s ∧ true ∉ s.lockedJoints := by
    refine foldlM_invariant (I := fun s => Sound kdl s ∧ true ∉ s.lockedJoints) ?_
      ⟨sound_construct kdl, ?_⟩ ran
    · rintro t t' call member ⟨sound, free⟩ stepped
      refine ⟨sound.step stepped, ?_⟩
      cases call with
      | setRepresentation representation =>
          obtain rfl := Option.some.inj stepped
          unfold setRepresentation
          split
          · exact free
          · exact free
      | setLockedJoints lockedJoints =>
          obtain rfl := Option.some.inj stepped
          unfold setLockedJoints
          split
          · exact free
          · exact unlocked lockedJoints member
      | jntToJacDot qIn jdot segNr =>
          obtain ⟨r, called, rfl⟩ := Option.map_eq_some_iff.1 stepped
          rwa [(sound.jntToJacDot_eq called).1]
      | jntToJacDotTwist qIn segNr =>
          obtain ⟨_, called, rfl⟩ := Option.map_eq_some_iff.1 stepped
          obtain ⟨r, inner, rfl⟩ := Option.map_eq_some_iff.1 called
          have same := (sound.jntToJacDot_eq inner).1
          split
          · simpa [same] using free
          · simpa [same] using free
    · simp [construct]
  exact together.2

end ChainJntToJacDotSolver

/-! ## KDL's solvers of a chain -/

/-- What the documentation of KDL says its solvers return: the Jacobian of the first
segments in the base, taken at the end of them, with zeros in the columns that are left. -/
structure ChainSolvers.Describes (kdl : ChainSolvers ℝ) (chain : List Segment) : Prop where
  nrOfJoints : kdl.nrOfJoints = joints chain
  nrOfSegments : kdl.nrOfSegments = chain.length
  isFixed : ∀ i segment, chain[i]? = some segment → kdl.isFixed i = !segment.isJoint
  jntToJac : ∀ q n, q.length = joints chain → n ≤ chain.length →
    kdl.jntToJac q n = some (jacobian (chain.take n) q ++
      List.replicate (joints chain - joints (chain.take n)) 0)
  jntToCart : ∀ q n, q.length = joints chain → n ≤ chain.length →
    kdl.jntToCart q n = some (endFrame (chain.take n) q)

namespace ChainJntToJacDotSolver

variable {kdl : ChainSolvers ℝ} {chain : List Segment} {s : ChainJntToJacDotSolver ℝ}

/-- The Jacobian in a representation. -/
noncomputable def jacobianIn (representation : Int) (chain : List Segment) (q : List ℝ) :
    List (Twist ℝ) :=
  if representation = hybrid then jacobian chain q
  else if representation = bodyFixed then bodyJacobian chain q
  else inertialJacobian chain q

theorem moving_range (documented : kdl.Describes chain) {n : Nat} (within : n ≤ chain.length) :
    moving kdl (List.range n) = joints (chain.take n) := by
  induction n with
  | zero => rfl
  | succ n ih =>
      have inside : n < chain.length := within
      have there := documented.isFixed n _ (List.getElem?_eq_getElem inside)
      have before := ih inside.le
      simp only [moving, joints] at before ⊢
      rw [List.range_succ, List.take_succ_eq_append_getElem inside, List.countP_append,
        List.countP_append, before]
      simp [there]

theorem joints_take_le (chain : List Segment) (n : Nat) : joints (chain.take n) ≤ joints chain :=
  (List.take_sublist n chain).countP_le

theorem length_jacobianIn (representation : Int) (chain : List Segment) (q : List ℝ) :
    (jacobianIn representation chain q).length = joints chain := by
  unfold jacobianIn
  split
  · exact length_jacobian chain q
  split
  · rw [bodyJacobian, List.length_map, length_jacobian]
  · rw [inertialJacobian, List.length_map, length_jacobian]

/-- The columns of every representation change at its rates. -/
theorem hasDerivAt_jacobianIn {qs : List (ℝ → ℝ)} {rates : List ℝ} {t : ℝ}
    (moving : HasRates qs rates t) (enough : joints chain ≤ qs.length) (sound : Sound kdl s)
    {i : Nat} (inside : i < joints chain) :
    HasDerivAt (fun x => (jacobianIn s.representation chain (values qs x)).getD i 0)
      (rateIn s.representation (jacobianIn s.representation chain (values qs t)) rates i) t := by
  obtain ⟨hb, hi, bi⟩ := hybrid_ne
  rcases sound.representation with is | is | is
  · simpa only [is, jacobianIn, rateIn, if_true] using hasDerivAt_jacobian chain moving enough i
  · simpa only [is, jacobianIn, rateIn, if_neg hb.symm, if_true] using
      hasDerivAt_bodyJacobian chain moving enough inside
  · simpa only [is, jacobianIn, rateIn, if_neg hi.symm, if_neg bi.symm, if_true] using
      hasDerivAt_inertialJacobian chain moving enough i

theorem represent_eq (documented : kdl.Describes chain) (sound : Sound kdl s) {q : List ℝ}
    (size : q.length = joints chain) {n : Nat} (within : n ≤ chain.length) (m : Nat) :
    represent kdl s.representation q n (jacobian (chain.take n) q ++ List.replicate m 0) =
      .ok (jacobianIn s.representation (chain.take n) q ++ List.replicate m 0) := by
  obtain ⟨hb, hi, bi⟩ := hybrid_ne
  rw [represent, documented.jntToCart q n size within]
  rcases sound.representation with is | is | is
  · simp only [is, jacobianIn, if_true]
  · simp only [is, jacobianIn, if_neg hb.symm, if_true, bodyJacobian, List.map_append,
      List.map_replicate, Twist.changeBase_zero]
  · simp only [is, jacobianIn, if_neg hi.symm, if_neg bi.symm, if_true, inertialJacobian,
      List.map_append, List.map_replicate, Twist.changeRefPoint_zero]

theorem rateIn_append_zeros {jac : List (Twist ℝ)} (rates : List ℝ) (n : Nat) {i : Nat}
    (inside : i < jac.length) (representation : Int) :
    rateIn representation (jac ++ List.replicate n 0) rates i =
      rateIn representation jac rates i := by
  obtain ⟨column, body, inertial⟩ := rates_append_zeros rates n inside
  rw [rateIn, rateIn, column, body, inertial]

/-- A call on the whole chain, or on segments it has. -/
theorem segmentNr_le_iff (documented : kdl.Describes chain) (segNr : Int) :
    segmentNr kdl segNr ≤ chain.length ↔ segNr ≤ chain.length := by
  unfold segmentNr
  split
  · rw [documented.nrOfSegments]
    omega
  · omega

/-- What passes the checks of a call reaches the outer loop. -/
theorem jntToJacDot_eq (documented : kdl.Describes chain) (sound : Sound kdl s)
    {qIn : JntArrayVel ℝ} (size : qIn.q.length = joints chain) {segNr : Int}
    (within : segNr ≤ chain.length) {jdot : List (Twist ℝ)}
    (fits : jdot.length = s.nrOfUnlockedJoints) :
    s.jntToJacDot kdl qIn jdot segNr =
      (s.columns kdl (jacobianIn s.representation (chain.take (segmentNr kdl segNr)) qIn.q ++
          List.replicate (joints chain - joints (chain.take (segmentNr kdl segNr))) 0) qIn.qdot
        (List.range (segmentNr kdl segNr)) 0 (List.replicate jdot.length 0) 0).map
          fun (jdot, jacDotK) => ⟨.noError, jdot, { s with jacDotK := jacDotK }⟩ := by
  have inside := (segmentNr_le_iff documented segNr).2 within
  rw [jntToJacDot, if_neg (by simpa using sound.locked)]
  simp only
  rw [if_neg (by simp [documented.nrOfJoints, size, fits]),
    if_neg (by rw [documented.nrOfSegments]; omega), documented.jntToJac _ _ size inside]
  simp only [represent_eq documented sound size inside, sound.cleared]

/-- A check that fails ends the call with an error. -/
theorem jntToJacDot_refused (documented : kdl.Describes chain) (sound : Sound kdl s)
    {qIn : JntArrayVel ℝ} {segNr : Int} {jdot : List (Twist ℝ)}
    (unchecked : ¬ (qIn.q.length = joints chain ∧ segNr ≤ chain.length ∧
      jdot.length = s.nrOfUnlockedJoints)) :
    ∃ r, s.jntToJacDot kdl qIn jdot segNr = some r ∧ r.error ≠ .noError := by
  rw [jntToJacDot, if_neg (by simpa using sound.locked)]
  simp only [List.length_replicate]
  split
  · exact ⟨_, rfl, SolverError.noConfusion⟩
  rename_i sizes
  split
  · exact ⟨_, rfl, SolverError.noConfusion⟩
  rename_i range
  exfalso
  apply unchecked
  rw [documented.nrOfJoints] at sizes
  rw [documented.nrOfSegments] at range
  have within := (segmentNr_le_iff documented segNr).1 (Nat.le_of_not_lt range)
  exact ⟨not_not.1 fun other => sizes (.inl other), within,
    (not_not.1 fun other => sizes (.inr other)).symm⟩

/-- What an undisturbed call writes. -/
theorem jntToJacDot_ok (documented : kdl.Describes chain) (sound : Sound kdl s)
    (unlocked : true ∉ s.lockedJoints) {qIn : JntArrayVel ℝ} (size : qIn.q.length = joints chain)
    {segNr : Int} (within : segNr ≤ chain.length) {jdot : List (Twist ℝ)}
    (fits : jdot.length = joints chain) :
    ∃ r, s.jntToJacDot kdl qIn jdot segNr = some r ∧ r.error = .noError ∧
      r.jdot.length = joints chain ∧ ∀ i, r.jdot.getD i 0 =
        if i < joints (chain.take (segmentNr kdl segNr)) then
          rateIn s.representation
            (jacobianIn s.representation (chain.take (segmentNr kdl segNr)) qIn.q) qIn.qdot i
        else 0 := by
  have inside := (segmentNr_le_iff documented segNr).2 within
  have free : ∀ j, s.lockedJoints.getD j false = false := by
    intro j
    rw [List.getD_eq_getElem?_getD]
    cases there : s.lockedJoints[j]? with
    | none => rfl
    | some locked =>
        cases locked with
        | false => rfl
        | true => exact absurd (List.mem_of_getElem? there) unlocked
  have all : s.nrOfUnlockedJoints = joints chain := by
    rw [sound.unlocked, ← documented.nrOfJoints, ← sound.locked, List.countP_eq_length]
    intro locked member
    cases locked with
    | false => rfl
    | true => exact absurd member unlocked
  have reached := jntToJacDot_eq documented sound size within (fits.trans all.symm)
  generalize segmentNr kdl segNr = n at inside reached ⊢
  have fewer := joints_take_le chain n
  obtain ⟨written, wrote, length, entries⟩ := columns_eq kdl s
    (jacobianIn s.representation (chain.take n) qIn.q ++
      List.replicate (joints chain - joints (chain.take n)) 0) qIn.qdot (List.range n) 0
    (List.replicate jdot.length 0) (by
      rw [moving_range documented inside]
      simpa [fits] using fewer)
  refine ⟨⟨.noError, written, { s with jacDotK := 0 }⟩, ?_, rfl, ?_, fun i => ?_⟩
  · rw [reached, wrote]
    rfl
  · rw [length, List.length_replicate, fits]
  · rw [entries, moving_range documented inside]
    by_cases early : i < joints (chain.take n)
    · have here : i < (jacobianIn s.representation (chain.take n) qIn.q).length := by
        rwa [length_jacobianIn]
      rw [if_pos (by omega), if_pos early, column_unlocked _ _ _ free _ _ _, zero_add,
        rateIn_append_zeros _ _ here]
      · rw [List.length_append, length_jacobianIn, List.length_replicate, documented.nrOfJoints]
        omega
      · rw [List.length_append]
        omega
    · rw [if_neg (by omega), if_neg early, List.getD_eq_getElem?_getD, List.getElem?_replicate]
      split
      · rfl
      · rfl

/-- **The solver differentiates the Jacobian.**  Behind any calls that have locked no joint,
along any motion of the joints, what a call writes is the derivative in time of the Jacobian
of the first segments, in the representation that was set. -/
theorem jntToJacDot_derivative (documented : kdl.Describes chain)
    {calls : List (Call ℝ)} (ran : after kdl calls = some s)
    (unlocked : ∀ locked, .setLockedJoints locked ∈ calls → true ∉ locked)
    {qs : List (ℝ → ℝ)} {rates : List ℝ} {t : ℝ} (moving : HasRates qs rates t)
    (all : qs.length = joints chain) {qIn : JntArrayVel ℝ} (positions : qIn.q = values qs t)
    (velocities : qIn.qdot = rates) {segNr : Int} (within : segNr ≤ chain.length)
    {jdot : List (Twist ℝ)} (fits : jdot.length = joints chain) :
    ∃ r, s.jntToJacDot kdl qIn jdot segNr = some r ∧ r.error = .noError ∧
      r.jdot.length = joints chain ∧ ∀ i,
        HasDerivAt (fun x => (jacobianIn s.representation (chain.take (segmentNr kdl segNr))
          (values qs x)).getD i 0) (r.jdot.getD i 0) t := by
  have sound := sound_after ran
  have size : qIn.q.length = joints chain := by rw [positions, values, List.length_map, all]
  obtain ⟨r, called, ended, length, entries⟩ := jntToJacDot_ok documented sound
    (unlocked_after ran unlocked) size within fits
  refine ⟨r, called, ended, length, fun i => ?_⟩
  have fewer := joints_take_le chain (segmentNr kdl segNr)
  rw [entries, positions, velocities]
  by_cases early : i < joints (chain.take (segmentNr kdl segNr))
  · rw [if_pos early]
    exact hasDerivAt_jacobianIn moving (all ▸ fewer) sound early
  · rw [if_neg early]
    have none : ∀ x, (jacobianIn s.representation (chain.take (segmentNr kdl segNr))
        (values qs x)).getD i 0 = 0 := by
      intro x
      rw [List.getD_eq_default]
      rw [length_jacobianIn]
      exact Nat.le_of_not_lt early
    simp only [none]
    exact hasDerivAt_const t 0

/-- **Where a call is undefined.**  Behind any calls: the arguments pass every check, and
the first segments have more joints than are left unlocked. -/
theorem jntToJacDot_undefined_iff (documented : kdl.Describes chain) {calls : List (Call ℝ)}
    (ran : after kdl calls = some s) (qIn : JntArrayVel ℝ) (jdot : List (Twist ℝ)) (segNr : Int) :
    s.jntToJacDot kdl qIn jdot segNr = none ↔
      qIn.q.length = joints chain ∧ segNr ≤ chain.length ∧
        jdot.length = s.lockedJoints.countP (fun locked => !locked) ∧
        jdot.length < joints (chain.take (segmentNr kdl segNr)) := by
  have sound := sound_after ran
  constructor
  · intro undefined
    by_cases checked : qIn.q.length = joints chain ∧ segNr ≤ chain.length ∧
        jdot.length = s.nrOfUnlockedJoints
    · obtain ⟨size, within, fits⟩ := checked
      refine ⟨size, within, fits.trans sound.unlocked, ?_⟩
      by_contra room
      rw [jntToJacDot_eq documented sound size within fits] at undefined
      obtain ⟨written, wrote, -⟩ := columns_eq kdl s _ qIn.qdot _ 0
        (List.replicate jdot.length 0) (by
          rw [moving_range documented ((segmentNr_le_iff documented segNr).2 within), zero_add,
            List.length_replicate]
          exact Nat.le_of_not_lt room)
      rw [wrote] at undefined
      cases undefined
    · obtain ⟨r, refused, -⟩ := jntToJacDot_refused documented sound checked
      rw [refused] at undefined
      cases undefined
  · rintro ⟨size, within, fits, more⟩
    have inside := (segmentNr_le_iff documented segNr).2 within
    rw [jntToJacDot_eq documented sound size within (fits.trans sound.unlocked.symm),
      columns_none _ _ _ _ _ _ _ _ (Nat.zero_le _)]
    · rfl
    · rwa [moving_range documented inside, zero_add, List.length_replicate]

/-- All joints are free exactly when as many are unlocked as there are. -/
theorem Sound.unlocked_iff (sound : Sound kdl s) :
    s.nrOfUnlockedJoints = kdl.nrOfJoints ↔ true ∉ s.lockedJoints := by
  rw [sound.unlocked, ← sound.locked, List.countP_eq_length]
  constructor
  · intro free member
    exact absurd (free true member) (by decide)
  · intro free locked member
    cases locked with
    | false => rfl
    | true => exact absurd member free

/-- **The overload that multiplies.**  Behind any calls it succeeds exactly when the sizes
are those of the chain and no joint is locked, and then returns the change of the Jacobian
times the velocities. -/
theorem jntToJacDotTwist_iff (documented : kdl.Describes chain) {calls : List (Call ℝ)}
    (ran : after kdl calls = some s) (qIn : JntArrayVel ℝ) (segNr : Int) :
    ((∃ twist s', s.jntToJacDotTwist kdl qIn segNr = some (.noError, some twist, s')) ↔
        qIn.q.length = joints chain ∧ segNr ≤ chain.length ∧ true ∉ s.lockedJoints) ∧
      ∀ twist s', s.jntToJacDotTwist kdl qIn segNr = some (.noError, some twist, s') →
        ∀ (qs : List (ℝ → ℝ)) (t : ℝ), qIn.q = values qs t → HasRates qs qIn.qdot t →
          HasDerivAt (fun x => multiply (jacobianIn s.representation
            (chain.take (segmentNr kdl segNr)) (values qs x)) qIn.qdot) twist t := by
  have sound := sound_after ran
  have checked : ∀ twist s', s.jntToJacDotTwist kdl qIn segNr = some (.noError, some twist, s') →
      qIn.q.length = joints chain ∧ segNr ≤ chain.length ∧ true ∉ s.lockedJoints := by
    intro twist s' ended
    by_contra unchecked
    have unfit : ¬ (qIn.q.length = joints chain ∧ segNr ≤ chain.length ∧
        s.jacDot.length = s.nrOfUnlockedJoints) := by
      rwa [sound.jacDot, eq_comm (a := kdl.nrOfJoints), sound.unlocked_iff]
    obtain ⟨r, refused, failed⟩ := jntToJacDot_refused documented sound unfit
    rw [jntToJacDotTwist, refused, Option.map_some, if_pos failed] at ended
    exact failed (Prod.mk.inj (Option.some.inj ended)).1
  refine ⟨⟨fun ⟨twist, s', ended⟩ => checked twist s' ended, ?_⟩, ?_⟩
  · rintro ⟨size, within, free⟩
    obtain ⟨r, called, ended, -⟩ := jntToJacDot_ok documented sound free size within
      (sound.jacDot.trans documented.nrOfJoints)
    refine ⟨multiply r.jdot qIn.qdot, { r.solver with jacDot := r.jdot }, ?_⟩
    rw [jntToJacDotTwist, called, Option.map_some, if_neg (not_not.2 ended)]
  · intro twist s' ended qs t positions moving
    obtain ⟨size, within, free⟩ := checked twist s' ended
    obtain ⟨r, called, good, length, entries⟩ := jntToJacDot_ok documented sound free size within
      (sound.jacDot.trans documented.nrOfJoints)
    rw [jntToJacDotTwist, called, Option.map_some, if_neg (not_not.2 good)] at ended
    obtain rfl : multiply r.jdot qIn.qdot = twist :=
      Option.some.inj (Prod.mk.inj (Prod.mk.inj (Option.some.inj ended)).2).1
    have fewer := joints_take_le chain (segmentNr kdl segNr)
    have all : qs.length = joints chain := by
      rw [← size, positions, values, List.length_map]
    -- the columns behind the segments are zero, so both sums are over the same joints
    have total : multiply r.jdot qIn.qdot =
        ∑ j ∈ Finset.range (joints (chain.take (segmentNr kdl segNr))),
          qIn.qdot.getD j 0 • r.jdot.getD j 0 := by
      rw [multiply_eq_sum, length, sum_split _ fewer, Finset.sum_eq_zero (s := Finset.range
        (joints chain - _)) fun j _ => by rw [entries, if_neg (by omega), smul_zero], add_zero]
    rw [total]
    simp only [multiply_eq_sum, length_jacobianIn]
    apply HasDerivAt.fun_sum
    intro j member
    have early := Finset.mem_range.1 member
    rw [entries, if_pos early, positions]
    exact (hasDerivAt_jacobianIn moving (all ▸ fewer) sound early).fun_const_smul _

/-! ## An arm with two links -/

/-- KDL's solvers of a chain, as they are documented. -/
noncomputable def kdlOf (chain : List Segment) : ChainSolvers ℝ where
  nrOfJoints := joints chain
  nrOfSegments := chain.length
  isFixed i := ((chain[i]?).map fun segment => !segment.isJoint).getD true
  jntToJac q n := some (jacobian (chain.take n) q ++
    List.replicate (joints chain - joints (chain.take n)) 0)
  jntToCart q n := some (endFrame (chain.take n) q)

theorem kdlOf_describes (chain : List Segment) : (kdlOf chain).Describes chain where
  nrOfJoints := rfl
  nrOfSegments := rfl
  isFixed i segment there := by simp [kdlOf, there]
  jntToJac _ _ _ _ := rfl
  jntToCart _ _ _ _ := rfl

theorem single_unit (i : Fin 3) :
    (Pi.single i 1 : Vec3 ℝ) ⬝ᵥ (Pi.single i 1 : Vec3 ℝ) = 1 := by simp

/-- Two links that turn about the same axis, and a tool. -/
noncomputable def planarArm : List Segment :=
  let link : Link := .revolute (Pi.single (Fin.last 2) 1) 0 (single_unit (Fin.last 2)) 1 0
    ⟨1, Pi.single (Fin.last 2).rev 1⟩ .one
  [.joint link, .joint link, .fixed ⟨1, Pi.single (Fin.last 2).rev 1⟩ .one]

theorem jntToJacDot_planarArm : ∃ s r,
    after (kdlOf planarArm) [.setRepresentation bodyFixed] = some s ∧
      s.jntToJacDot (kdlOf planarArm) ⟨[1, 1], [1, 2], rfl⟩ [0, 0] (-1) = some r ∧
      r.error = .noError ∧ r.jdot.length = joints planarArm := by
  let qIn : JntArrayVel ℝ := ⟨[1, 1], [1, 2], rfl⟩
  have ran : after (kdlOf planarArm) [.setRepresentation bodyFixed] = some _ := rfl
  have moving : HasRates [fun x => x, fun x => x * x] [1, 1 + 1] (1 : ℝ) := by
    refine .cons (hasDerivAt_id 1) (.cons ?_ .nil)
    simpa using (hasDerivAt_id (1 : ℝ)).fun_mul (hasDerivAt_id 1)
  have positions : qIn.q = values [fun x => x, fun x => x * x] 1 := by simp [qIn, values]
  have velocities : qIn.qdot = [1, 1 + 1] := by norm_num [qIn]
  have within : (-1 : Int) ≤ planarArm.length := by simp [planarArm]
  have fits : ([0, 0] : List (Twist ℝ)).length = joints planarArm := by simp [planarArm]
  obtain ⟨r, called, ended, length, -⟩ := jntToJacDot_derivative (kdlOf_describes planarArm) ran
    (by simp) moving (by simp [planarArm]) positions velocities within fits
  exact ⟨_, r, rfl, called, ended, length⟩

theorem jntToJacDot_locked : ∃ s,
    after (kdlOf planarArm) [.setLockedJoints [true, false]] = some s ∧
      s.jntToJacDot (kdlOf planarArm) ⟨[1, 1], [0, 1], rfl⟩ [0] (-1) = none := by
  have ran : after (kdlOf planarArm) [.setLockedJoints [true, false]] = some _ := rfl
  refine ⟨_, ran, (jntToJacDot_undefined_iff (kdlOf_describes planarArm) ran _ _ _).2
    ⟨by simp [planarArm], by simp [planarArm], ?_, ?_⟩⟩
  · simp [setLockedJoints, construct, kdlOf, planarArm]
  · simp [segmentNr, kdlOf, planarArm]

theorem jntToJacDotTwist_planarArm : ∃ twist s',
    (construct (kdlOf planarArm)).jntToJacDotTwist (kdlOf planarArm) ⟨[0, 1], [1, 2], rfl⟩ 2 =
      some (.noError, some twist, s') := by
  have ran : after (kdlOf planarArm) [] = some _ := rfl
  exact (jntToJacDotTwist_iff (kdlOf_describes planarArm) ran ⟨[0, 1], [1, 2], rfl⟩ 2).1.2
    ⟨by simp [planarArm], by simp [planarArm], by simp [construct]⟩

end ChainJntToJacDotSolver

end FrankaRos.EffortController
