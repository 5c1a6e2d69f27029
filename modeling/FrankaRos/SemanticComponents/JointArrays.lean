/-
# SemanticComponents.JointArrays -- which name a joint value is under

The names of the message are those of all revolute joints, in the order of the map; the
values are the arm's, from the first entry on.  There is always room for them
(`cycle_runs`).  They are under the names of the arm's joints exactly if no other revolute
joint's name sorts in front of those (`jointsLabelled_iff`).
-/
import FrankaRos.SemanticComponents.LinkOrder
import FrankaRos.Kinematics.PinocchioKinematics
import FrankaRos.Theory.SortedPrefix

namespace FrankaRos.SemanticComponents

open FrankaRos.Theory FrankaRos.Kinematics

set_option autoImplicit false

variable {V : Type}

/-! ## Vectors of the message -/

/-- The first seven entries are these values. -/
def Held (entries : List V) (values : Fin 7 → V) : Prop :=
  ∀ i : Fin 7, entries[i.val]? = some (values i)

theorem length_resize (zero : V) (n : Nat) (values : List V) :
    (resize zero n values).length = n := by
  unfold resize
  rw [List.length_append, List.length_take, List.length_replicate]
  omega

theorem copyInto_eq (values : Fin 7 → V) {into : List V} (room : 7 ≤ into.length) :
    ∃ out, copyInto values into = some out ∧ out.length = into.length ∧ Held out values := by
  refine ⟨_, if_pos room, ?_, ?_⟩
  · rw [List.length_append, List.length_ofFn, List.length_drop]
    omega
  · intro i
    have within : i.val < (List.ofFn values).length := by
      rw [List.length_ofFn]
      exact i.isLt
    rw [List.getElem?_append_left within, List.getElem?_ofFn, dif_pos i.isLt]

/-- The names of a joint state, and one entry for each of them in every vector. -/
structure JointState.Sized (jointNames : List String) (s : JointState V) : Prop where
  name : s.name = jointNames
  position : s.position.length = jointNames.length
  velocity : s.velocity.length = jointNames.length
  effort : s.effort.length = jointNames.length

structure Message.Sized (jointNames : List String) (message : Message V) : Prop where
  measuredJointState : message.measuredJointState.Sized jointNames
  desiredJointState : message.desiredJointState.Sized jointNames
  measuredJointMotorState : message.measuredJointMotorState.Sized jointNames
  tauExtHatFiltered : message.tauExtHatFiltered.Sized jointNames

/-- The arm's values are the first entries of the message. -/
structure Message.Holds (state : RobotState V) (message : Message V) : Prop where
  q : Held message.measuredJointState.position state.q
  dq : Held message.measuredJointState.velocity state.dq
  tauJ : Held message.measuredJointState.effort state.tauJ
  qD : Held message.desiredJointState.position state.qD
  dqD : Held message.desiredJointState.velocity state.dqD
  tauJD : Held message.desiredJointState.effort state.tauJD
  theta : Held message.measuredJointMotorState.position state.theta
  dtheta : Held message.measuredJointMotorState.velocity state.dtheta
  tauExtHatFiltered : Held message.tauExtHatFiltered.effort state.tauExtHatFiltered

theorem JointState.sized_initialized (zero : V) (base : String) (jointNames : List String)
    (s : JointState V) : (s.initialized zero base jointNames).Sized jointNames :=
  ⟨rfl, length_resize _ _ _, length_resize _ _ _, length_resize _ _ _⟩

theorem Message.sized_initialized (zero : V) (jointNames : List String)
    (base stiffness flange endEffector load : String) (message : Message V) :
    (message.initialized zero jointNames base stiffness flange endEffector load).Sized
      jointNames :=
  ⟨JointState.sized_initialized _ _ _ _, JointState.sized_initialized _ _ _ _,
    JointState.sized_initialized _ _ _ _, JointState.sized_initialized _ _ _ _⟩

/-! ## A cycle, and any number of them -/

namespace FrankaRobotState

/-- The cycles after the message has been initialised. -/
def cycles (self : FrankaRobotState) (message : Message V)
    (loans : List (List (String × RobotState V))) : Option (Message V) :=
  loans.foldlM (fun message loaned => (self.getValuesAsMessage loaned message).map Prod.snd) message

/-- With room for seven values a cycle ends, the message keeps its names and sizes, and holds
the state that is loaned. -/
theorem getValuesAsMessage_eq (self : FrankaRobotState) {jointNames : List String}
    {message : Message V} (sized : message.Sized jointNames) (room : 7 ≤ jointNames.length)
    (loaned : List (String × RobotState V)) :
    ∃ found after, self.getValuesAsMessage loaned message = some (found, after) ∧
      after.Sized jointNames ∧
      ∀ interface, loaned.find? (·.1 == self.fullRobotStateInterfaceName) = some interface →
        found = true ∧ after.Holds interface.2 := by
  unfold getValuesAsMessage
  cases lookup : loaned.find? (·.1 == self.fullRobotStateInterfaceName) with
  | none =>
      refine ⟨false, message, rfl, sized, ?_⟩
      intro interface found
      exact absurd found (by simp)
  | some interface =>
      obtain ⟨measured, desired, motor, external⟩ := sized
      obtain ⟨q, q', ql, qh⟩ := copyInto_eq interface.2.q (measured.position ▸ room)
      obtain ⟨dq, dq', dql, dqh⟩ := copyInto_eq interface.2.dq (measured.velocity ▸ room)
      obtain ⟨t, t', tl, th⟩ := copyInto_eq interface.2.tauJ (measured.effort ▸ room)
      obtain ⟨qD, qD', qDl, qDh⟩ := copyInto_eq interface.2.qD (desired.position ▸ room)
      obtain ⟨dqD, dqD', dqDl, dqDh⟩ := copyInto_eq interface.2.dqD (desired.velocity ▸ room)
      obtain ⟨tD, tD', tDl, tDh⟩ := copyInto_eq interface.2.tauJD (desired.effort ▸ room)
      obtain ⟨m, m', ml, mh⟩ := copyInto_eq interface.2.theta (motor.position ▸ room)
      obtain ⟨dm, dm', dml, dmh⟩ := copyInto_eq interface.2.dtheta (motor.velocity ▸ room)
      obtain ⟨e, e', el, eh⟩ :=
        copyInto_eq interface.2.tauExtHatFiltered (external.effort ▸ room)
      simp only [q', dq', t', qD', dqD', tD', m', dm', e', Option.bind_eq_bind, Option.bind_some,
        Option.pure_def]
      refine ⟨true, _, rfl, ⟨?_, ?_, ?_, ?_⟩, ?_⟩
      · exact ⟨measured.name, ql.trans measured.position, dql.trans measured.velocity,
          tl.trans measured.effort⟩
      · exact ⟨desired.name, qDl.trans desired.position, dqDl.trans desired.velocity,
          tDl.trans desired.effort⟩
      · exact ⟨motor.name, ml.trans motor.position, dml.trans motor.velocity, motor.effort⟩
      · exact ⟨external.name, external.position, external.velocity, el.trans external.effort⟩
      · rintro other same
        obtain rfl := Option.some.inj same
        exact ⟨rfl, qh, dqh, th, qDh, dqDh, tDh, mh, dmh, eh⟩

theorem cycles_sized (self : FrankaRobotState) {jointNames : List String}
    (room : 7 ≤ jointNames.length) (loans : List (List (String × RobotState V)))
    {message : Message V} (sized : message.Sized jointNames) :
    ∃ after, self.cycles message loans = some after ∧ after.Sized jointNames := by
  induction loans generalizing message with
  | nil => exact ⟨message, rfl, sized⟩
  | cons loaned loans ih =>
      obtain ⟨found, next, cycled, kept, -⟩ := self.getValuesAsMessage_eq sized room loaned
      obtain ⟨after, run, last⟩ := ih kept
      refine ⟨after, ?_, last⟩
      rw [cycles, List.foldlM_cons, cycled]
      exact run

end FrankaRobotState

/-! ## The names -/

theorem mem_setJointsFromUrdf {model : UrdfModel} {name : String} :
    name ∈ setJointsFromUrdf model ↔ (name, JointType.revolute) ∈ model.joints := by
  simp only [setJointsFromUrdf, List.mem_map, List.mem_filter, decide_eq_true_eq]
  constructor
  · rintro ⟨⟨listed, kind⟩, ⟨member, rfl⟩, rfl⟩
    exact member
  · intro member
    exact ⟨(name, .revolute), ⟨member, rfl⟩, rfl⟩

theorem setJointsFromUrdf_sorted (model : UrdfModel) :
    (setJointsFromUrdf model).Pairwise (· < ·) := by
  unfold setJointsFromUrdf
  exact List.pairwise_map.2 (model.joints_ordered.filter _)

theorem toString_succ_lt :
    ∀ i j : Fin 7, i < j → (toString (i.val + 1)).toList < (toString (j.val + 1)).toList := by
  decide

/-- The arm's joints are numbered, and their names sort as the numbers do. -/
theorem armJointName_lt (robotName : String) {i j : Fin 7} (less : i < j) :
    armJointName robotName i < armJointName robotName j := by
  rw [String.lt_iff_toList_lt]
  simp only [armJointName, String.toList_append]
  exact List.append_left_lt (toString_succ_lt i j less)

theorem armJointNames_sorted (robotName : String) :
    (List.ofFn (armJointName robotName)).Pairwise (· < ·) :=
  List.pairwise_ofFn.2 fun _ _ less => armJointName_lt robotName less

/-- The joints of the arm are among the description's, and revolute. -/
def ArmRevolute (model : UrdfModel) : Prop :=
  ∀ i, (armJointName model.name i, JointType.revolute) ∈ model.joints

/-- Every other revolute joint's name sorts behind those of the arm. -/
def OthersBehind (model : UrdfModel) : Prop :=
  ∀ name, (name, JointType.revolute) ∈ model.joints → (∀ i, name ≠ armJointName model.name i) →
    ∀ i, armJointName model.name i < name

theorem armJointNames_prefix_iff {model : UrdfModel} (arm : ArmRevolute model) :
    List.ofFn (armJointName model.name) <+: setJointsFromUrdf model ↔ OthersBehind model := by
  have within : ∀ name ∈ List.ofFn (armJointName model.name), name ∈ setJointsFromUrdf model := by
    intro name named
    obtain ⟨i, rfl⟩ := List.mem_ofFn.1 named
    exact mem_setJointsFromUrdf.2 (arm i)
  rw [prefix_iff_behind (setJointsFromUrdf_sorted model) (armJointNames_sorted model.name) within]
  constructor
  · intro behind name member other i
    refine behind name (mem_setJointsFromUrdf.2 member) ?_ _ (List.mem_ofFn.2 ⟨i, rfl⟩)
    intro named
    obtain ⟨j, same⟩ := List.mem_ofFn.1 named
    exact other j same.symm
  · intro behind name member other a named
    obtain ⟨i, rfl⟩ := List.mem_ofFn.1 named
    refine behind name (mem_setJointsFromUrdf.1 member) ?_ i
    intro j same
    exact other (List.mem_ofFn.2 ⟨j, same.symm⟩)

theorem held_iff_isPrefix {entries : List V} {values : Fin 7 → V} :
    Held entries values ↔ List.ofFn values <+: entries := by
  rw [List.prefix_iff_getElem?]
  constructor
  · intro held i within
    have bound : i < 7 := by rwa [List.length_ofFn] at within
    rw [List.getElem_ofFn]
    exact held ⟨i, bound⟩
  · intro first i
    have within : i.val < (List.ofFn values).length := by
      rw [List.length_ofFn]
      exact i.isLt
    rw [first i.val within, List.getElem_ofFn]

/-- There are at least as many revolute joints as arm joints. -/
theorem seven_le_joints {model : UrdfModel} (arm : ArmRevolute model) :
    7 ≤ (setJointsFromUrdf model).length := by
  have different : (List.ofFn (armJointName model.name)).Nodup :=
    List.nodup_ofFn.2 (armJointName_injective model.name)
  have within : List.ofFn (armJointName model.name) ⊆ setJointsFromUrdf model := by
    intro name named
    obtain ⟨i, rfl⟩ := List.mem_ofFn.1 named
    exact mem_setJointsFromUrdf.2 (arm i)
  have counted := (different.subperm within).length_le
  rwa [List.length_ofFn] at counted

/-! ## What is asked of the message -/

/-- Every entry of the arm's values is labelled with the name of its joint. -/
structure Message.Labelled (robotName : String) (message : Message V) : Prop where
  measuredJointState : Held message.measuredJointState.name (armJointName robotName)
  desiredJointState : Held message.desiredJointState.name (armJointName robotName)
  measuredJointMotorState : Held message.measuredJointMotorState.name (armJointName robotName)
  tauExtHatFiltered : Held message.tauExtHatFiltered.name (armJointName robotName)

/-- However many cycles there were since the message was initialised, the next stays within
its vectors, and if it finds the robot's state, the message holds it under the arm's
names. -/
def JointsLabelled (model : UrdfModel) : Prop :=
  ∀ (V : Type) (zero : V) (prior : Message V) (loans : List (List (String × RobotState V)))
    (loaned : List (String × RobotState V)),
    ∃ self message found after, construct model = .ok self ∧
      (self.initializeRobotStateMsg zero prior >>= (self.cycles · loans)) = some message ∧
      self.getValuesAsMessage loaned message = some (found, after) ∧
      ∀ interface, loaned.find? (·.1 == model.name ++ "/" ++ "robot_state") = some interface →
        found = true ∧ after.Holds interface.2 ∧ after.Labelled model.name

/-- With the arm's joints, the links are enough for every index of the frames. -/
theorem frames_listed {model : UrdfModel} (arm : ArmRevolute model) :
    ∃ base flange, (setLinksFromUrdf model)[0]? = some base ∧
      (setLinksFromUrdf model)[8]? = some flange := by
  have revolute := seven_le_joints arm
  have joints : (setJointsFromUrdf model).length ≤ model.joints.length := by
    unfold setJointsFromUrdf
    rw [List.length_map]
    exact List.length_filter_le _ _
  have enough : 8 < (setLinksFromUrdf model).length := by
    rw [length_linkNames]
    omega
  have some : 0 < (setLinksFromUrdf model).length := by omega
  exact ⟨_, _, List.getElem?_eq_getElem some, List.getElem?_eq_getElem enough⟩

/-- Every cycle stays within the vectors, and leaves all names in place. -/
theorem cycle_runs {model : UrdfModel} (arm : ArmRevolute model) (zero : V) (prior : Message V)
    (loans : List (List (String × RobotState V))) (loaned : List (String × RobotState V)) :
    ∃ self message found after, construct model = .ok self ∧
      (self.initializeRobotStateMsg zero prior >>= (self.cycles · loans)) = some message ∧
      self.getValuesAsMessage loaned message = some (found, after) ∧
      after.Sized (setJointsFromUrdf model) ∧
      ∀ interface, loaned.find? (·.1 == model.name ++ "/" ++ "robot_state") = some interface →
        found = true ∧ after.Holds interface.2 := by
  obtain ⟨base, flange, first, ninth⟩ := frames_listed arm
  obtain ⟨self, tip, built, names, -, interfaceName, initialized⟩ :=
    initialize_eq model zero prior first ninth
  have room := seven_le_joints arm
  have sized := Message.sized_initialized zero (setJointsFromUrdf model) base tip flange tip flange
    prior
  obtain ⟨message, run, kept⟩ := self.cycles_sized room loans sized
  obtain ⟨found, after, cycled, last, held⟩ := self.getValuesAsMessage_eq kept room loaned
  refine ⟨self, message, found, after, built, ?_, cycled, last, ?_⟩
  · rw [initialized]
    exact run
  · rwa [interfaceName] at held

theorem labelled_iff_isPrefix {jointNames : List String} {robotName : String}
    {message : Message V} (sized : message.Sized jointNames) :
    message.Labelled robotName ↔ List.ofFn (armJointName robotName) <+: jointNames := by
  rw [← held_iff_isPrefix]
  obtain ⟨measured, desired, motor, external⟩ := sized
  constructor
  · intro labelled
    exact measured.name ▸ labelled.measuredJointState
  · intro held
    exact ⟨measured.name.symm ▸ held, desired.name.symm ▸ held, motor.name.symm ▸ held,
      external.name.symm ▸ held⟩

theorem prefix_of_labelled {model : UrdfModel} (arm : ArmRevolute model)
    (labelled : JointsLabelled model) :
    List.ofFn (armJointName model.name) <+: setJointsFromUrdf model := by
  let still : Fin 7 → Unit := fun _ => ()
  let loan := (model.name ++ "/" ++ "robot_state",
    RobotState.mk still still still still still still still still still)
  have present : [loan].find? (·.1 == model.name ++ "/" ++ "robot_state") = some loan := by
    simp [loan]
  obtain ⟨self, message, found, after, built, run, cycled, named⟩ :=
    labelled Unit () emptyMessage [] [loan]
  -- the same cycle, of which the names are known
  obtain ⟨self', message', found', after', built', run', cycled', sized, -⟩ :=
    cycle_runs arm () emptyMessage [] [loan]
  obtain rfl := Except.ok.inj (built.symm.trans built')
  obtain rfl := Option.some.inj (run.symm.trans run')
  obtain ⟨-, rfl⟩ := Prod.mk.inj (Option.some.inj (cycled.symm.trans cycled'))
  exact (labelled_iff_isPrefix sized).1 (named loan present).2.2

/-- The values are under the names of the arm's joints exactly if all other revolute joints
sort behind those. -/
theorem jointsLabelled_iff (model : UrdfModel) (arm : ArmRevolute model) :
    JointsLabelled model ↔ OthersBehind model := by
  rw [← armJointNames_prefix_iff arm]
  constructor
  · exact prefix_of_labelled arm
  · intro first V zero prior loans loaned
    obtain ⟨self, message, found, after, built, run, cycled, sized, held⟩ :=
      cycle_runs arm zero prior loans loaned
    refine ⟨self, message, found, after, built, run, cycled, ?_⟩
    intro interface present
    obtain ⟨returned, holds⟩ := held interface present
    exact ⟨returned, holds, (labelled_iff_isPrefix sized).2 first⟩

/-- An arm beside a turntable, whose joint is revolute and sorts behind the arm's. -/
def fr3WithTurntable : UrdfModel where
  name := "fr3"
  root := .node "fr3_link0" (.node "turntable" [] :: RoseTree.chain [] ["fr3_link1",
    "fr3_link2", "fr3_link3", "fr3_link4", "fr3_link5", "fr3_link6", "fr3_link7", "fr3_link8"])
  joints := [("fr3_joint1", .revolute), ("fr3_joint2", .revolute), ("fr3_joint3", .revolute),
    ("fr3_joint4", .revolute), ("fr3_joint5", .revolute), ("fr3_joint6", .revolute),
    ("fr3_joint7", .revolute), ("fr3_joint8", .fixed), ("turntable_joint", .revolute)]
  links_differ := by decide
  joints_ordered := by decide
  joint_per_link := rfl

theorem jointsLabelled_turntable : JointsLabelled fr3WithTurntable := by
  have arm : ArmRevolute fr3WithTurntable := by
    unfold ArmRevolute
    decide
  exact (jointsLabelled_iff fr3WithTurntable arm).2 ((armJointNames_prefix_iff arm).1 (by decide))

/-! ## An arm beside a camera that turns -/

/-- The camera's joint is revolute, and its name sorts in front of the arm's. -/
def fr3WithCamera : UrdfModel where
  name := "fr3"
  root := .node "fr3_link0" (.node "camera_link" [] :: RoseTree.chain [] ["fr3_link1",
    "fr3_link2", "fr3_link3", "fr3_link4", "fr3_link5", "fr3_link6", "fr3_link7", "fr3_link8"])
  joints := [("camera_joint", .revolute), ("fr3_joint1", .revolute), ("fr3_joint2", .revolute),
    ("fr3_joint3", .revolute), ("fr3_joint4", .revolute), ("fr3_joint5", .revolute),
    ("fr3_joint6", .revolute), ("fr3_joint7", .revolute), ("fr3_joint8", .fixed)]
  links_differ := by decide
  joints_ordered := by decide
  joint_per_link := rfl

theorem not_jointsLabelled_camera :
    ArmRevolute fr3WithCamera ∧ setJointsFromUrdf fr3WithCamera = ["camera_joint", "fr3_joint1",
      "fr3_joint2", "fr3_joint3", "fr3_joint4", "fr3_joint5", "fr3_joint6", "fr3_joint7"] ∧
      ¬ JointsLabelled fr3WithCamera := by
  have arm : ArmRevolute fr3WithCamera := by
    unfold ArmRevolute
    decide
  refine ⟨arm, rfl, ?_⟩
  intro labelled
  have first := prefix_of_labelled arm labelled
  exact absurd first (by decide)

end FrankaRos.SemanticComponents
