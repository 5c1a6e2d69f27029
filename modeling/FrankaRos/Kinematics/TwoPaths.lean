/-
# Kinematics.TwoPaths -- when both kinematic paths evaluate the same configuration

`PinocchioKinematics` finds the arm by name, `CartesianImpedanceOscRT` takes it to be
the first seven entries of a model with nine velocities.  `PathsAgree` is what the two
have to share at one configuration, `ArmFirst` the models on which they share it at
every one: the arm comes first, joint by joint with one entry each, no arm joint has
been given a position of its own, and nine velocities are what the model has.
-/
import FrankaRos.Theory.Double
import FrankaRos.Kinematics.CartesianImpedanceOscRT

namespace FrankaRos.Kinematics

open FrankaRos.Theory PinocchioKinematics

set_option autoImplicit false

/-- The indices of the arm joints. -/
def armJoints (m : Model) (armId : String) : List Nat :=
  (List.finRange 7).map fun i => m.getJointId (armJointName armId i)

/-- Both configurations have the same entries for every arm joint, the controller's
Jacobian columns are those of the arm joints, and Pinocchio accepts its vectors. -/
structure PathsAgree {K : Type} [Zero K] (m : Model) (armId : String)
    (s : PinocchioKinematics K) (osc : CartesianImpedanceOscRT) (q dq : Fin 7 → K) : Prop where
  values : ∃ full full', s.fillQFullFromArmInPlace q = some full ∧ osc.qFull q = some full' ∧
    m.AgreeOn (armJoints m armId) full full'
  columns : ∀ i, m.idxV (m.getJointId (armJointName armId i)) =
    some (CartesianImpedanceOscRT.j6Column i)
  sizes : ∃ calls, osc.computeTorqueCalls q dq = some calls ∧ ∀ call ∈ calls, call.Accepted m

/-- The arm is what the controller takes it to be. -/
structure ArmFirst {K : Type} (m : Model) (armId : String) (extra : List (String × K)) :
    Prop where
  named : ∀ i : Fin 7, m.joints[i.val]?.map (·.name) = some (armJointName armId i)
  single : ∀ i < 6, m.joints[i]?.map (·.type.nq) = some 1
  last : m.joints[6]?.map (·.type.nv) = some 1
  nine : m.nv = 9
  free : ∀ i, armJointName armId i ∉ extra.map Prod.fst

theorem JointType.nv_of_nq {type : JointType} (single : type.nq = 1) : type.nv = 1 := by
  cases type <;> first | rfl | cases single

theorem ArmFirst.nq_eq {K : Type} {m : Model} {armId : String} {extra : List (String × K)}
    (first : ArmFirst m armId extra) {i : Nat} (before : i < 6) (bound : i < m.joints.length) :
    m.joints[i].type.nq = 1 := by
  have single := first.single i before
  rw [List.getElem?_eq_getElem bound] at single
  exact Option.some.inj single

variable {K : Type} [Zero K] [One K] {m : Model} {opt : Options} {block : Fin 7 → Nat}
  {s : PinocchioKinematics K} {osc : CartesianImpedanceOscRT}

/-- Seven joints take seven entries at least. -/
theorem PinocchioKinematics.Ready.room (ready : Ready m opt block s) : 7 ≤ m.nq ∧ 7 ≤ m.nv := by
  have joints : 7 ≤ m.joints.length := by
    have distinct := Fintype.card_le_of_injective (fun i => (⟨block i, ready.inside i⟩ :
      Fin m.joints.length)) fun i j same => ready.block_injective (Fin.mk.inj same)
    simpa using distinct
  constructor
  · exact (le_sizeUpTo m.qLayout (by simpa using joints)).trans (m.qLayout.sizeUpTo_le 7)
  · exact (le_sizeUpTo m.vLayout (by simpa using joints)).trans (m.vLayout.sizeUpTo_le 7)

/-! ## An arm that comes first -/

section First

variable (ready : Ready m opt block s) (first : ArmFirst m opt.armId s.qExtraMap)

include ready first

theorem ArmFirst.block_eq (i : Fin 7) : block i = i := by
  have here := Model.getJointId_first (armJointName_ne_universe opt.armId i) (first.named i)
    fun j before same => by
      have other := first.named ⟨j, by omega⟩
      have := armJointName_injective opt.armId (Option.some.inj (other.symm.trans same))
      simp [Fin.ext_iff] at this
      omega
  have := ready.found i
  omega

theorem ArmFirst.sizeUpTo_eq (i : Fin 7) :
    m.qLayout.sizeUpTo i = i ∧ m.vLayout.sizeUpTo i = i := by
  have inside : i.val < m.joints.length := first.block_eq ready i ▸ ready.inside i
  constructor
  · apply sizeUpTo_eq_self m.qLayout (by simpa using inside.le)
    intro j bound before
    simpa [Model.qLayout] using first.nq_eq (by omega) (by simpa using bound)
  · apply sizeUpTo_eq_self m.vLayout (by simpa using inside.le)
    intro j bound before
    have single := first.nq_eq (show j < 6 by omega) (by simpa using bound)
    simpa [Model.vLayout] using JointType.nv_of_nq single

/-- The configurations have the same entries for the arm. -/
theorem ArmFirst.agreeOn {q : Fin 7 → K} {full full' : List K}
    (built : s.fillQFullFromArmInPlace q = some full)
    (heads : ∀ i : Fin 7, full'[i.val]? = some (q i))
    (zeros : ∀ k, 7 ≤ k → k < m.nq → full'[k]? = some 0) :
    m.AgreeOn (armJoints m opt.armId) full full' := by
  intro k arm joint there o entry
  obtain ⟨i, -, jid⟩ := List.mem_map.1 arm
  obtain rfl : i.val = k := by
    have := ready.found i
    have := first.block_eq ready i
    omega
  obtain ⟨bound, rfl⟩ := List.getElem?_eq_some_iff.1 there
  obtain ⟨begins, -⟩ := first.sizeUpTo_eq ready i
  have free := ready.arm_entry built (first.free i)
  rw [first.block_eq ready i] at free
  rcases Nat.eq_zero_or_pos o with rfl | behind
  · rw [Nat.add_zero, free, begins, heads i]
  · -- only the last arm joint may have a second entry, and that entry is zero in both
    have last : i.val = 6 := by
      by_contra other
      have := first.nq_eq (show i.val < 6 by omega) bound
      omega
    have single : m.joints[i.val].type.nv = 1 := by
      have single := first.last
      rw [← last, List.getElem?_eq_getElem bound] at single
      exact Option.some.inj single
    have inside := Model.slot_lt_nq bound entry
    rw [ready.inner_entry built bound behind entry, JointType.neutral_zero single behind entry,
      zeros _ (by omega) inside]

theorem ArmFirst.pathsAgree (oscModel : osc.model = m) (configured : osc.configured = true)
    (q dq : Fin 7 → K) : PathsAgree m opt.armId s osc q dq := by
  subst oscModel
  obtain ⟨roomQ, roomV⟩ := ready.room
  obtain ⟨full, built, -⟩ := ready.fillQFull q
  obtain ⟨full', wrote, -, heads, zeros⟩ := CartesianImpedanceOscRT.setHead_eq roomQ q
  refine ⟨⟨full, full', built, wrote, first.agreeOn ready built heads zeros⟩, fun i => ?_, ?_⟩
  · rw [ready.found i, Model.idxV_eq_some]
    refine ⟨ready.inside i, ?_⟩
    rw [first.block_eq ready i, (first.sizeUpTo_eq ready i).2]
    rfl
  · exact (CartesianImpedanceOscRT.calls_accepted_iff configured roomQ roomV q dq).2 first.nine

end First

/-! ## Paths that agree -/

/-- The columns put the arm joints first. -/
theorem PathsAgree.block_eq (ready : Ready m opt block s) {q dq : Fin 7 → K}
    (agree : PathsAgree m opt.armId s osc q dq) (i : Fin 7) : block i = i := by
  apply eq_of_sizeUpTo_eq m.vLayout (fun j => by simpa using ready.inside j)
  intro j
  have column := agree.columns j
  rw [ready.found j, Model.idxV_eq_some] at column
  have begins : (j.val : Int) = m.vLayout.sizeUpTo (block j) := column.2
  omega

section Agree

variable (ready : Ready m opt block s) (oscModel : osc.model = m)
  (agree : ∀ q dq : Fin 7 → K, PathsAgree m opt.armId s osc q dq)

include ready oscModel agree

/-- An entry of an arm joint is the same in both configurations. -/
theorem PathsAgree.entry (i : Fin 7) (bound : i.val < m.joints.length) {o : Nat}
    (inside : o < m.joints[i.val].type.nq) (q : Fin 7 → K) :
    ∃ full full' : List K, s.fillQFullFromArmInPlace q = some full ∧
      (∀ j : Fin 7, full'[j.val]? = some (q j)) ∧
      (∀ k, 7 ≤ k → k < m.nq → full'[k]? = some 0) ∧
      full[m.qLayout.sizeUpTo i + o]? = full'[m.qLayout.sizeUpTo i + o]? := by
  obtain ⟨full, full', built, wrote, same⟩ := (agree q q).values
  obtain ⟨v, wrote', -, heads, zeros⟩ := CartesianImpedanceOscRT.setHead_eq ready.room.1 q
  rw [CartesianImpedanceOscRT.qFull, oscModel, wrote'] at wrote
  obtain rfl := Option.some.inj wrote
  refine ⟨full, v, built, heads, zeros, ?_⟩
  have arm : i.val + 1 ∈ armJoints m opt.armId := by
    apply List.mem_map.2
    refine ⟨i, List.mem_finRange i, ?_⟩
    rw [ready.found i, (agree q q).block_eq ready i]
  exact same i arm _ (List.getElem?_eq_getElem bound) o inside

variable [NeZero (1 : K)]

/-- A further entry of an arm joint is not at the head of the vector. -/
theorem PathsAgree.inner_behind (i : Fin 7) (bound : i.val < m.joints.length) {o : Nat}
    (behind : 0 < o) (inside : o < m.joints[i.val].type.nq) :
    7 ≤ m.qLayout.sizeUpTo i + o := by
  by_contra head
  -- there one path has a neutral entry, and the other whatever it was given
  have given : ∀ q : Fin 7 → K,
      (m.joints[i.val].type.neutral (K := K))[o]? =
        some (q ⟨m.qLayout.sizeUpTo i + o, by omega⟩) := by
    intro q
    obtain ⟨full, full', built, heads, -, same⟩ :=
      PathsAgree.entry ready oscModel agree i bound inside q
    rw [← ready.inner_entry built bound behind inside, same]
    exact heads ⟨m.qLayout.sizeUpTo i + o, by omega⟩
  have zero := given fun _ => 0
  have one := given fun _ => 1
  exact one_ne_zero (Option.some.inj (one.symm.trans zero))

theorem PathsAgree.sizeUpTo_eq (i : Nat) (before : i < 7) : m.qLayout.sizeUpTo i = i := by
  induction i with
  | zero => exact m.qLayout.sizeUpTo_zero
  | succ i ih =>
      have here := ih (by omega)
      have bound : i < m.joints.length := by
        have inside := ready.inside ⟨i, by omega⟩
        rwa [(agree 0 0).block_eq ready] at inside
      have next := Model.qLayout_blocks bound
      have some_entry := m.joints[i].type.nq_pos
      have one_entry : ¬ 1 < m.joints[i].type.nq := fun second => by
        have := PathsAgree.inner_behind ready oscModel agree ⟨i, by omega⟩ bound one_pos second
        simp only at this
        omega
      omega

/-- No arm joint has been given a position. -/
theorem PathsAgree.free (i : Fin 7) : armJointName opt.armId i ∉ s.qExtraMap.map Prod.fst := by
  intro taken
  have block := (agree 0 0).block_eq ready i
  have bound : i.val < m.joints.length := block ▸ ready.inside i
  have begins := PathsAgree.sizeUpTo_eq ready oscModel agree i i.isLt
  obtain ⟨zeros, zeros', built, heads, -, same⟩ := PathsAgree.entry ready oscModel agree i bound
    m.joints[i.val].type.nq_pos fun _ => 0
  obtain ⟨ones, ones', built', heads', -, same'⟩ := PathsAgree.entry ready oscModel agree i bound
    m.joints[i.val].type.nq_pos fun _ => 1
  have fixed := ready.extra_entry built built' taken
  rw [Nat.add_zero] at same same'
  rw [block, same, same', begins, heads i, heads' i] at fixed
  exact one_ne_zero (Option.some.inj fixed).symm

/-- The last arm joint has one velocity. -/
theorem PathsAgree.last (bound : 6 < m.joints.length) : m.joints[6].type.nv = 1 := by
  by_contra several
  obtain ⟨o, behind, inside, one⟩ := JointType.neutral_one (K := K) several
  obtain ⟨full, full', built, -, zeros, same⟩ :=
    PathsAgree.entry ready oscModel agree 6 bound inside fun _ => 0
  have begins := PathsAgree.sizeUpTo_eq ready oscModel agree 6 (by omega)
  have := Model.slot_lt_nq bound inside
  have there : full[m.qLayout.sizeUpTo 6 + o]? = full'[m.qLayout.sizeUpTo 6 + o]? := same
  rw [ready.inner_entry built bound behind inside, one, zeros _ (by omega) this] at there
  exact one_ne_zero (Option.some.inj there)

theorem PathsAgree.armFirst (configured : osc.configured = true) :
    ArmFirst m opt.armId s.qExtraMap := by
  have bound : ∀ i : Fin 7, i.val < m.joints.length := fun i =>
    (agree 0 0).block_eq ready i ▸ ready.inside i
  refine ⟨fun i => ?_, fun i before => ?_, ?_, ?_, PathsAgree.free ready oscModel agree⟩
  · have block := (agree 0 0).block_eq ready i
    rw [List.getElem?_eq_getElem (bound i), Option.map_some]
    exact congrArg some (Model.getJointId_name (armJointName_ne_universe opt.armId i)
      (block ▸ ready.found i) (bound i))
  · have inside : i < m.joints.length := bound ⟨i, by omega⟩
    have next := Model.qLayout_blocks inside
    simp only [PathsAgree.sizeUpTo_eq ready oscModel agree i (by omega),
      PathsAgree.sizeUpTo_eq ready oscModel agree (i + 1) (by omega)] at next
    rw [List.getElem?_eq_getElem inside, Option.map_some]
    exact congrArg some (by omega)
  · have inside : 6 < m.joints.length := bound 6
    rw [List.getElem?_eq_getElem inside, Option.map_some]
    exact congrArg some (PathsAgree.last ready oscModel agree inside)
  · have sizes := (agree 0 0).sizes
    subst oscModel
    obtain ⟨roomQ, roomV⟩ := ready.room
    exact (CartesianImpedanceOscRT.calls_accepted_iff configured roomQ roomV 0 0).1 sizes

end Agree

/-! ## The two paths -/

/-- Paths that agree evaluate the same pose and the same Jacobian of a frame that is moved
by arm joints only. -/
theorem PathsAgree.same_results {Pose Column : Type} (lib : Pinocchio K Pose Column)
    (ready : Ready m opt block s) (oscModel : osc.model = m)
    (frame : osc.eeFrameId = s.eeFrameId) {q dq : Fin 7 → K}
    (agree : PathsAgree m opt.armId s osc q dq)
    (moved : m.frameSupports osc.eeFrameId ⊆ armJoints m opt.armId) :
    s.fk lib q = (osc.oMe lib q).map .ok ∧ s.jacobian lib q = (osc.j6 lib q).map .ok := by
  obtain ⟨full, full', built, wrote, same⟩ := agree.values
  have there : m.AgreeOn (m.frameSupports osc.eeFrameId) full full' := fun k member =>
    same k (moved member)
  have columns : ∀ i, s.armVIdx i = CartesianImpedanceOscRT.j6Column i := by
    intro i
    have column := agree.columns i
    rw [ready.found i, Model.idxV_eq_some] at column
    rw [ready.armVIdx i, column.2]
  constructor
  · by_cases found : osc.eeFrameId < m.frames.length
    · simp [fk, fkRt, ready.initialized, built, CartesianImpedanceOscRT.oMe, wrote, ready.model,
        oscModel, ← frame, found, lib.placement_local m _ _ _ there]
    · simp [fk, fkRt, ready.initialized, built, CartesianImpedanceOscRT.oMe, wrote, ready.model,
        oscModel, ← frame, found]
  · rw [Option.map_eq_bind]
    by_cases found : osc.eeFrameId < m.frames.length
    · simp [jacobian, ready.initialized, built, CartesianImpedanceOscRT.j6, wrote, ready.model,
        oscModel, ← frame, found, lib.frameJacobian_local m _ _ _ there, columns,
        Function.comp_def]
    · simp [jacobian, ready.initialized, built, CartesianImpedanceOscRT.j6, wrote, ready.model,
        oscModel, ← frame, found]

/-- The two paths agree at every configuration exactly when the arm comes first, and where
they agree they evaluate the same pose. -/
theorem paths_agree_iff {Pose Column : Type} [NeZero (1 : K)] (lib : Pinocchio K Pose Column)
    {buildModelFromXML : String → Option Model} {urdf : String}
    (parsed : buildModelFromXML urdf = some m) {s₀ s₁ : PinocchioKinematics K}
    (initialised : s₀.initFromUrdfXml buildModelFromXML urdf opt = some (true, s₁))
    {maps : List (List (String × K))}
    (extra : maps.foldlM (fun s qExtra => s.setExtraJointPositions qExtra) s₁ = some s)
    {armDofs : Int} {cfg : CartesianImpedanceOscConfig}
    (configured : (CartesianImpedanceOscRT.construct m armDofs).configure cfg = (true, osc))
    (frame : cfg.eeFrameName = resolveEeFrameName opt) :
    ((∀ q dq : Fin 7 → K, PathsAgree m opt.armId s osc q dq) ↔
        ArmFirst m opt.armId s.qExtraMap) ∧
      ∀ q dq : Fin 7 → K, PathsAgree m opt.armId s osc q dq →
        m.frameSupports osc.eeFrameId ⊆ armJoints m opt.armId →
          s.fk lib q = (osc.oMe lib q).map .ok ∧ s.jacobian lib q = (osc.j6 lib q).map .ok := by
  obtain ⟨block, ready⟩ := initFromUrdfXml_ready parsed initialised
  have ready := setExtraJointPositions_run ready extra
  obtain ⟨oscModel, oscConfigured, oscFrame⟩ :=
    CartesianImpedanceOscRT.configure_true configured
  refine ⟨⟨fun agree => ?_, fun first => ?_⟩, fun q dq agree moved => ?_⟩
  · exact PathsAgree.armFirst ready oscModel agree oscConfigured
  · exact first.pathsAgree ready oscModel oscConfigured
  · apply agree.same_results lib ready oscModel _ moved
    rw [oscFrame, ready.eeFrameId, frame]

/-! ## An arm with a hand, and without -/

/-- Seven joints of one type in a row, the joints of a hand, and a frame behind the arm. -/
def armModel (type : JointType) (hand : List JointModel) : Model where
  joints := (List.finRange 7).map (fun i =>
    ⟨armJointName "fr3" i, type, (List.range (i.val + 1)).map (· + 1)⟩) ++ hand
  frames := [⟨"universe", 0⟩, ⟨"fr3_hand_tcp", 7⟩]

/-- The fingers of the hand. -/
def fingers : List JointModel :=
  [⟨"fr3_finger_joint1", .prismatic, [1, 2, 3, 4, 5, 6, 7, 8]⟩,
    ⟨"fr3_finger_joint2", .prismatic, [1, 2, 3, 4, 5, 6, 7, 9]⟩]

/-- The position of one joint. -/
def position (m : Model) (q : List ℚ) : Nat → ℚ
  | 0 => 0
  | k + 1 => (m.joints[k]?.bind fun _ => q[m.qLayout.sizeUpTo k]?).getD 0

/-- Kinematics of joints that all slide along one axis: their positions add up. -/
def sliding : Pinocchio ℚ ℚ ℚ where
  placement m q frame := ((m.frameSupports frame).map (position m q)).sum
  frameJacobian m _ frame := (List.range m.nv).map fun v : Nat =>
    if ∃ jid ∈ m.frameSupports frame, m.idxV jid = some (v : Int) then 1 else 0
  placement_local m frame q q' same := by
    congr 1
    apply List.map_congr_left
    intro jid member
    cases jid with
    | zero => rfl
    | succ k =>
        cases there : m.joints[k]? with
        | none => simp only [position, there, Option.bind_none]
        | some joint =>
            have entry := same k member joint there 0 joint.type.nq_pos
            simp only [position, there, Option.bind_some]
            exact congrArg (·.getD 0) entry
  frameJacobian_local _ _ _ _ _ := rfl
  length_frameJacobian _ _ _ := by simp

theorem paths_agree_sliding :
    ∃ s osc, constructed.initFromUrdfXml (fun _ => some (armModel .prismatic fingers)) "<robot/>"
        {} = some (true, s) ∧
      (CartesianImpedanceOscRT.construct (armModel .prismatic fingers) 7).configure {} =
        (true, osc) ∧
      (∀ q dq : Fin 7 → ℚ, PathsAgree (armModel .prismatic fingers) "fr3" s osc q dq) ∧
      ∀ q : Fin 7 → ℚ, s.fk sliding q = (osc.oMe sliding q).map .ok := by
  have ran : (constructed (K := ℚ).initFromUrdfXml
      (fun _ => some (armModel .prismatic fingers)) "<robot/>" {}).map
        (fun r => (r.1, r.2.qExtraMap)) = some (true, []) := by decide
  obtain ⟨⟨_, s⟩, initialised, done⟩ := Option.map_eq_some_iff.1 ran
  obtain ⟨rfl, extra⟩ := Prod.mk.inj done
  have configured : (CartesianImpedanceOscRT.construct (armModel .prismatic fingers) 7).configure
      {} = (true, _) := rfl
  have unchanged : ([] : List (List (String × ℚ))).foldlM
      (fun s qExtra => s.setExtraJointPositions qExtra) s = some s := rfl
  have settled := paths_agree_iff sliding rfl initialised unchanged configured (by decide)
  have free : s.qExtraMap = [] := extra
  have agree := settled.1.2 ⟨by decide, by decide, by decide, by decide, by simp [free]⟩
  refine ⟨s, _, initialised, rfl, agree, fun q => ?_⟩
  exact (settled.2 q q (agree q q) (by decide)).1

theorem not_paths_agree_without_hand :
    ∃ s osc, constructed.initFromUrdfXml (fun _ => some (armModel .revolute [])) "<robot/>" {} =
        some (true, s) ∧
      (CartesianImpedanceOscRT.construct (armModel .revolute []) 7).configure {} = (true, osc) ∧
      ({} : CartesianImpedanceOscConfig).eeFrameName = resolveEeFrameName {} ∧
      ¬ PathsAgree (armModel .revolute []) "fr3" s osc (fun _ => (0 : ℚ)) (fun _ => 0) := by
  have ran : (constructed (K := ℚ).initFromUrdfXml
      (fun _ => some (armModel .revolute [])) "<robot/>" {}).map Prod.fst = some true := by decide
  obtain ⟨⟨_, s⟩, initialised, rfl⟩ := Option.map_eq_some_iff.1 ran
  refine ⟨s, _, initialised, rfl, by decide, fun agree => ?_⟩
  have nine := (CartesianImpedanceOscRT.calls_accepted_iff rfl (by decide) (by decide) _ _).1
    agree.sizes
  exact absurd nine (by decide)

end FrankaRos.Kinematics
