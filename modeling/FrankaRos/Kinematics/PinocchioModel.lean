/-
# Kinematics.PinocchioModel -- the joints of a model and their entries

What the two kinematic paths use of `pinocchio::Model`: joints in the order the
parser added them, each with the entries it takes in a configuration and in a
velocity vector, and frames.  Both vectors are cut into one block per joint
(`qLayout`, `vLayout`), so `idx_q` and `idx_v` are where the joint's block begins.

`getJointId` and `getFrameId` are linear searches that return the size of what they
searched when nothing has the name.  Reading `joints` there is outside the vector;
such an access is `none`.
-/
import FrankaRos.Theory.Layout

namespace FrankaRos.Kinematics

open FrankaRos.Theory

set_option autoImplicit false

inductive JointType where
  | revolute
  | prismatic
  | continuous
  | planar
  | floating
  deriving DecidableEq, Repr

namespace JointType

/-- The entries of a configuration. -/
def nq : JointType → Nat
  | revolute => 1
  | prismatic => 1
  | continuous => 2
  | planar => 4
  | floating => 7

/-- The entries of a velocity. -/
def nv : JointType → Nat
  | revolute => 1
  | prismatic => 1
  | continuous => 1
  | planar => 3
  | floating => 6

theorem nq_pos (type : JointType) : 0 < type.nq := by cases type <;> decide
theorem nv_pos (type : JointType) : 0 < type.nv := by cases type <;> decide

/-- The neutral configuration: angle zero as a pair of cosine and sine, and the unit
quaternion with its real part last. -/
def neutral {K : Type} [Zero K] [One K] : JointType → List K
  | revolute => [0]
  | prismatic => [0]
  | continuous => [1, 0]
  | planar => [0, 0, 1, 0]
  | floating => [0, 0, 0, 0, 0, 0, 1]

@[simp] theorem length_neutral {K : Type} [Zero K] [One K] (type : JointType) :
    (type.neutral (K := K)).length = type.nq := by cases type <;> rfl

/-- Behind its first entry, the neutral configuration of a joint with one velocity is zero. -/
theorem neutral_zero {K : Type} [Zero K] [One K] {type : JointType} (single : type.nv = 1)
    {o : Nat} (behind : 0 < o) (inside : o < type.nq) :
    (type.neutral (K := K))[o]? = some 0 := by
  cases type with
  | revolute => exact absurd inside (by simp [nq]; omega)
  | prismatic => exact absurd inside (by simp [nq]; omega)
  | continuous =>
      obtain rfl : o = 1 := by simp only [nq] at inside; omega
      rfl
  | planar => cases single
  | floating => cases single

/-- Any other joint has an entry of its neutral configuration that is one. -/
theorem neutral_one {K : Type} [Zero K] [One K] {type : JointType} (several : type.nv ≠ 1) :
    ∃ o, 0 < o ∧ o < type.nq ∧ (type.neutral (K := K))[o]? = some 1 := by
  cases type with
  | revolute => exact absurd rfl several
  | prismatic => exact absurd rfl several
  | continuous => exact absurd rfl several
  | planar => exact ⟨2, by decide, by decide, rfl⟩
  | floating => exact ⟨6, by decide, by decide, rfl⟩

end JointType

/-- A joint, with the indices of the joints between it and the root. -/
structure JointModel where
  name : String
  type : JointType
  supports : List Nat
  deriving DecidableEq, Repr

structure Frame where
  name : String
  parentJoint : Nat
  deriving DecidableEq, Repr

/-- The model's joints without the universe, which has index 0, and its frames. -/
structure Model where
  joints : List JointModel
  frames : List Frame
  deriving DecidableEq, Repr

namespace Model

def nq (m : Model) : Nat := (m.joints.map (·.type.nq)).sum
def nv (m : Model) : Nat := (m.joints.map (·.type.nv)).sum

/-- The blocks of a configuration. -/
def qLayout (m : Model) : Composition m.nq where
  blocks := m.joints.map (·.type.nq)
  blocks_pos := by
    intro size member
    obtain ⟨joint, _, rfl⟩ := List.mem_map.1 member
    exact joint.type.nq_pos
  blocks_sum := rfl

/-- The blocks of a velocity. -/
def vLayout (m : Model) : Composition m.nv where
  blocks := m.joints.map (·.type.nv)
  blocks_pos := by
    intro size member
    obtain ⟨joint, _, rfl⟩ := List.mem_map.1 member
    exact joint.type.nv_pos
  blocks_sum := rfl

@[simp] theorem length_qLayout (m : Model) : m.qLayout.length = m.joints.length :=
  List.length_map _

@[simp] theorem length_vLayout (m : Model) : m.vLayout.length = m.joints.length :=
  List.length_map _

/-- `pinocchio::neutral`. -/
def neutral {K : Type} [Zero K] [One K] (m : Model) : List K :=
  m.joints.flatMap (·.type.neutral)

/-! ## Searching for names -/

def names (m : Model) : List String := "universe" :: m.joints.map (·.name)

def getJointId (m : Model) (name : String) : Nat := m.names.idxOf name

def getFrameId (m : Model) (name : String) : Nat := (m.frames.map (·.name)).idxOf name

/-- `JointIndex(-1)` and `FrameIndex(-1)`. -/
def noIndex : Nat := 2 ^ 64 - 1

/-- `joints[jid].idx_q()`.  The universe's joint is never placed: its index stays -1. -/
def idxQ (m : Model) : Nat → Option Int
  | 0 => some (-1)
  | k + 1 => if k < m.joints.length then some (m.qLayout.sizeUpTo k) else none

/-- `joints[jid].idx_v()`. -/
def idxV (m : Model) : Nat → Option Int
  | 0 => some (-1)
  | k + 1 => if k < m.joints.length then some (m.vLayout.sizeUpTo k) else none

theorem getJointId_succ {m : Model} {name : String} (other : name ≠ "universe") :
    m.getJointId name = (m.joints.map (·.name)).idxOf name + 1 := by
  unfold getJointId names
  rw [List.idxOf_cons_ne _ other.symm]

/-- The joint that a name leads to has the name. -/
theorem getJointId_name {m : Model} {name : String} {k : Nat} (other : name ≠ "universe")
    (found : m.getJointId name = k + 1) (inside : k < m.joints.length) :
    m.joints[k].name = name := by
  rw [getJointId_succ other] at found
  obtain rfl : (m.joints.map (·.name)).idxOf name = k := Nat.succ.inj found
  have here := List.getElem_idxOf
    (show (m.joints.map (·.name)).idxOf name < (m.joints.map (·.name)).length by
      simpa using inside)
  rwa [List.getElem_map] at here

/-- Two names that lead to one joint are the same. -/
theorem getJointId_inj {m : Model} {name name' : String} {k : Nat} (found : m.getJointId name = k + 1)
    (found' : m.getJointId name' = k + 1) (inside : k < m.joints.length) : name = name' := by
  have other : name ≠ "universe" := by
    rintro rfl
    cases found
  have other' : name' ≠ "universe" := by
    rintro rfl
    cases found'
  exact (getJointId_name other found inside).symm.trans (getJointId_name other' found' inside)

/-- The first joint of a name is the one its name leads to. -/
theorem getJointId_first {m : Model} {name : String} {k : Nat} (other : name ≠ "universe")
    (named : m.joints[k]?.map (·.name) = some name)
    (first : ∀ j < k, m.joints[j]?.map (·.name) ≠ some name) : m.getJointId name = k + 1 := by
  rw [getJointId_succ other]
  congr 1
  rw [← List.getElem?_map] at named
  obtain ⟨bound, here⟩ := List.getElem?_eq_some_iff.1 named
  have member : name ∈ m.joints.map (·.name) := here ▸ List.getElem_mem bound
  have reached := List.idxOf_lt_length_iff.2 member
  rcases Nat.lt_trichotomy ((m.joints.map (·.name)).idxOf name) k with before | same | behind
  · refine absurd ?_ (first _ before)
    rw [← List.getElem?_map, List.getElem?_eq_getElem reached, List.getElem_idxOf reached]
  · exact same
  · have skipped := List.not_of_lt_findIdx behind
    simp [here] at skipped

/-! ## Blocks -/

/-- Two configurations with the same entries for the joints of the given indices. -/
def AgreeOn {K : Type} (m : Model) (jids : List Nat) (q q' : List K) : Prop :=
  ∀ k, k + 1 ∈ jids → ∀ joint, m.joints[k]? = some joint → ∀ o < joint.type.nq,
    q[m.qLayout.sizeUpTo k + o]? = q'[m.qLayout.sizeUpTo k + o]?

/-- The joints that move a frame. -/
def frameSupports (m : Model) (frame : Nat) : List Nat :=
  match m.frames[frame]? with
  | some f =>
      match f.parentJoint with
      | 0 => []
      | k + 1 => (m.joints[k]?.map (·.supports)).getD []
  | none => []

section Neutral

variable {K : Type} [Zero K] [One K]

@[simp] theorem length_neutral (m : Model) : (m.neutral (K := K)).length = m.nq := by
  simp [neutral, nq, List.length_flatMap]

/-- The neutral configuration, read block by block. -/
theorem neutral_getElem? {m : Model} {k : Nat} (inside : k < m.joints.length) {o : Nat}
    (entry : o < m.joints[k].type.nq) :
    (m.neutral (K := K))[m.qLayout.sizeUpTo k + o]? = m.joints[k].type.neutral[o]? := by
  have before : ((m.joints.take k).flatMap (·.type.neutral (K := K))).length =
      m.qLayout.sizeUpTo k := by
    simp [Composition.sizeUpTo, qLayout, List.length_flatMap, List.map_take]
  have parts : m.neutral (K := K) = (m.joints.take k).flatMap (·.type.neutral) ++
      (m.joints[k].type.neutral ++ (m.joints.drop (k + 1)).flatMap (·.type.neutral)) := by
    conv_lhs => rw [neutral, ← List.take_append_drop k m.joints]
    rw [List.flatMap_append, List.drop_eq_getElem_cons inside, List.flatMap_cons]
  rw [parts, ← before, List.getElem?_append_right (Nat.le_add_right _ _), Nat.add_sub_cancel_left,
    List.getElem?_append_left (by simpa using entry)]

end Neutral

theorem qLayout_blocks {m : Model} {k : Nat} (inside : k < m.joints.length) :
    m.qLayout.sizeUpTo (k + 1) = m.qLayout.sizeUpTo k + m.joints[k].type.nq := by
  rw [m.qLayout.sizeUpTo_succ (by simpa using inside)]
  simp [qLayout]

/-- An entry of a joint's block is an entry of the whole vector. -/
theorem slot_lt_nq {m : Model} {k : Nat} (inside : k < m.joints.length) {o : Nat}
    (entry : o < m.joints[k].type.nq) : m.qLayout.sizeUpTo k + o < m.nq := by
  have next := qLayout_blocks inside
  have := m.qLayout.sizeUpTo_le (k + 1)
  omega

theorem idxQ_eq_some {m : Model} {k : Nat} {idx : Int} :
    m.idxQ (k + 1) = some idx ↔ k < m.joints.length ∧ idx = m.qLayout.sizeUpTo k := by
  by_cases inside : k < m.joints.length
  · simp [idxQ, inside, eq_comm]
  · simp [idxQ, inside]

theorem idxV_eq_some {m : Model} {k : Nat} {idx : Int} :
    m.idxV (k + 1) = some idx ↔ k < m.joints.length ∧ idx = m.vLayout.sizeUpTo k := by
  by_cases inside : k < m.joints.length
  · simp [idxV, inside, eq_comm]
  · simp [idxV, inside]

/-- Blocks do not overlap. -/
theorem slot_disjoint {m : Model} {j k : Nat} (hk : k < m.joints.length) {o : Nat}
    (entry : o < m.joints[k].type.nq)
    (same : m.qLayout.sizeUpTo j = m.qLayout.sizeUpTo k + o) : j = k := by
  by_contra other
  rcases Nat.lt_or_gt_of_ne other with before | behind
  · have := sizeUpTo_lt_sizeUpTo m.qLayout before (by simpa using hk.le)
    omega
  · have next := qLayout_blocks hk
    have := m.qLayout.monotone_sizeUpTo (show k + 1 ≤ j from behind)
    omega

end Model

end FrankaRos.Kinematics
