/-
# RobotUtils.Discovery -- which joints are found

The joints that a description declares are those of every section of the hardware
interface, and a joint that comes several times declares what all its elements do
(`gathered`).  Only the first section is looked at, and only the last element of a joint is
kept; so what is found is what is declared exactly if the first section has a name, is the
only one that declares joints, and has every joint once (`discoverySound_iff`).
-/
import FrankaRos.RobotUtils.JointControlInterfaces
import FrankaRos.Theory.KeyedValues
import Mathlib

namespace FrankaRos.RobotUtils

open FrankaRos.Theory

set_option autoImplicit false

/-! ## What is declared -/

/-- The `ros2_control` sections of the robot. -/
def sections (doc : Option (List XMLElement)) : List XMLElement :=
  match doc.bind fun elements => elements.find? fun element => element.label.name == "robot" with
  | none => []
  | some robotElem => childElements robotElem "ros2_control"

def declaredNames (jointElem : XMLElement) (kind : String) : List String :=
  (childElements jointElem kind).filterMap fun elem => findAttribute elem "name"

def declaredInterfaces (jointElem : XMLElement) : JointControlInterfaces :=
  ⟨declaredNames jointElem "command_interface", declaredNames jointElem "state_interface"⟩

/-- A named joint with a named interface. -/
def declaration (jointElem : XMLElement) : Option (String × JointControlInterfaces) :=
  match findAttribute jointElem "name" with
  | none => none
  | some jointName =>
      if declaredInterfaces jointElem = ⟨[], []⟩ then none
      else some (jointName, declaredInterfaces jointElem)

/-- The joints that a section declares for the hardware interface. -/
def sectionJoints (ros2ControlElem : XMLElement) : List (String × JointControlInterfaces) :=
  if findAttribute ros2ControlElem "name" = some hardwareInterfaceName then
    (childElements ros2ControlElem "joint").filterMap declaration
  else []

def declarations (doc : Option (List XMLElement)) : List (String × JointControlInterfaces) :=
  (sections doc).flatMap sectionJoints

/-- What the elements of one joint declare together, in document order. -/
def gathered (elements : List JointControlInterfaces) : Option JointControlInterfaces :=
  if elements = [] then none
  else some ⟨elements.flatMap (·.commandInterfaces), elements.flatMap (·.stateInterfaces)⟩

/-- Some section of the hardware interface declares a named joint with a named interface. -/
def Declares (doc : Option (List XMLElement)) : Prop :=
  ∃ ros2ControlElem ∈ sections doc,
    findAttribute ros2ControlElem "name" = some hardwareInterfaceName ∧
      ∃ jointElem ∈ childElements ros2ControlElem "joint",
        (findAttribute jointElem "name").isSome ∧ declaredInterfaces jointElem ≠ ⟨[], []⟩

/-- The function succeeds exactly if something is declared, and then the map has every
declared joint, and no other, with what is declared for it. -/
def DiscoverySound (doc : Option (List XMLElement)) (jointInterfaces : JointInterfaces) : Prop :=
  ∃ ok found, getJointControlInterfaces doc jointInterfaces = some (ok, found) ∧
    (ok = true ↔ Declares doc) ∧
    (ok = true → ∀ jointName, found.lookup jointName =
      gathered (valuesAt jointName (declarations doc)))

theorem declaration_eq_some {jointElem : XMLElement} {joint : String × JointControlInterfaces} :
    declaration jointElem = some joint ↔ findAttribute jointElem "name" = some joint.1 ∧
      declaredInterfaces jointElem = joint.2 ∧ joint.2 ≠ ⟨[], []⟩ := by
  unfold declaration
  cases named : findAttribute jointElem "name" with
  | none => simp
  | some jointName =>
      obtain ⟨name, interfaces⟩ := joint
      by_cases none : declaredInterfaces jointElem = ⟨[], []⟩
      · simp only [none, if_true, reduceCtorEq, false_iff]
        rintro ⟨-, rfl, differ⟩
        exact differ rfl
      · simp only [none, if_false, Option.some.injEq, Prod.mk.injEq]
        constructor
        · rintro ⟨rfl, rfl⟩
          exact ⟨rfl, rfl, none⟩
        · rintro ⟨rfl, rfl, -⟩
          exact ⟨rfl, rfl⟩

theorem declares_iff (doc : Option (List XMLElement)) : Declares doc ↔ declarations doc ≠ [] := by
  rw [Ne, List.eq_nil_iff_forall_not_mem, not_forall]
  simp only [not_not, declarations, List.mem_flatMap]
  constructor
  · rintro ⟨ros2ControlElem, listed, robot, jointElem, member, named, some_⟩
    obtain ⟨jointName, named⟩ := Option.isSome_iff_exists.1 named
    refine ⟨(jointName, declaredInterfaces jointElem), ros2ControlElem, listed, ?_⟩
    rw [sectionJoints, if_pos robot, List.mem_filterMap]
    exact ⟨jointElem, member, declaration_eq_some.2 ⟨named, rfl, some_⟩⟩
  · rintro ⟨joint, ros2ControlElem, listed, declared⟩
    unfold sectionJoints at declared
    split at declared
    · rename_i robot
      obtain ⟨jointElem, member, same⟩ := List.mem_filterMap.1 declared
      obtain ⟨named, interfaces, differ⟩ := declaration_eq_some.1 same
      refine ⟨ros2ControlElem, listed, robot, jointElem, member, ?_, interfaces ▸ differ⟩
      rw [named, Option.isSome_some]
    · exact absurd declared List.not_mem_nil

/-! ## What is found -/

theorem foldl_addName (elems : List XMLElement) (names : List String) :
    elems.foldl addName names = names ++ elems.filterMap fun elem => findAttribute elem "name" := by
  induction elems generalizing names with
  | nil => exact (List.append_nil names).symm
  | cons elem elems ih =>
      rw [List.foldl_cons, ih, addName, List.filterMap_cons]
      cases findAttribute elem "name" with
      | none => rfl
      | some name => exact List.append_assoc _ _ _

theorem collectNames_eq (jointElem : XMLElement) (kind : String) :
    collectNames jointElem kind = declaredNames jointElem kind :=
  (foldl_addName _ []).trans (List.nil_append _)

theorem addJoint_eq (jointInterfaces : JointInterfaces) (jointElem : XMLElement) :
    addJoint jointInterfaces jointElem = match declaration jointElem with
      | none => jointInterfaces
      | some joint => jointInterfaces.insert joint.1 joint.2 := by
  unfold addJoint declaration
  cases findAttribute jointElem "name" with
  | none => rfl
  | some jointName =>
      simp only [collectNames_eq, declaredInterfaces, JointControlInterfaces.mk.injEq]
      cases declaredNames jointElem "command_interface" with
      | cons name names => rfl
      | nil =>
          cases declaredNames jointElem "state_interface" with
          | cons name names => rfl
          | nil => rfl

/-- The loop over the joints inserts what they declare. -/
theorem foldl_addJoint (joints : List XMLElement) (jointInterfaces : JointInterfaces) :
    joints.foldl addJoint jointInterfaces =
      insertAll (joints.filterMap declaration) jointInterfaces := by
  induction joints generalizing jointInterfaces with
  | nil => rfl
  | cons jointElem joints ih =>
      rw [List.foldl_cons, ih, addJoint_eq, List.filterMap_cons]
      cases declaration jointElem with
      | none => rfl
      | some joint => rfl

/-- Without a section, nothing is found. -/
theorem getJointControlInterfaces_of_none {doc : Option (List XMLElement)}
    (none : sections doc = []) (jointInterfaces : JointInterfaces) :
    getJointControlInterfaces doc jointInterfaces = some (false, jointInterfaces) := by
  unfold sections at none
  cases doc with
  | none => rfl
  | some elements =>
      rw [Option.bind_some] at none
      unfold getJointControlInterfaces
      cases robot : elements.find? fun element => element.label.name == "robot" with
      | none => simp only [robot]
      | some robotElem =>
          simp only [robot] at none ⊢
          rw [firstChildElement, none]
          rfl

theorem getJointControlInterfaces_of_cons {doc : Option (List XMLElement)} {first : XMLElement}
    {rest : List XMLElement} (listed : sections doc = first :: rest)
    (jointInterfaces : JointInterfaces) :
    getJointControlInterfaces doc jointInterfaces = (findAttribute first "name").bind fun name =>
      if name ≠ hardwareInterfaceName then some (false, jointInterfaces)
      else if ((childElements first "joint").foldl addJoint ∅).entries.isEmpty then
        some (false, (childElements first "joint").foldl addJoint ∅)
      else some (true, (childElements first "joint").foldl addJoint ∅) := by
  unfold sections at listed
  cases doc with
  | none => cases listed
  | some elements =>
      rw [Option.bind_some] at listed
      unfold getJointControlInterfaces
      cases robot : elements.find? fun element => element.label.name == "robot" with
      | none => simp only [robot, reduceCtorEq] at listed
      | some robotElem =>
          simp only [robot] at listed ⊢
          rw [firstChildElement, listed]
          rfl

/-- With a name, the first section decides, and keeps the last element of every joint. -/
theorem getJointControlInterfaces_of_named {doc : Option (List XMLElement)} {first : XMLElement}
    {rest : List XMLElement} {name : String} (listed : sections doc = first :: rest)
    (named : findAttribute first "name" = some name) (jointInterfaces : JointInterfaces) :
    ∃ ok found, getJointControlInterfaces doc jointInterfaces = some (ok, found) ∧
      (ok = true ↔ sectionJoints first ≠ []) ∧
      (ok = true → ∀ jointName,
        found.lookup jointName = (valuesAt jointName (sectionJoints first)).getLast?) := by
  rw [getJointControlInterfaces_of_cons listed, named, Option.bind_some, foldl_addJoint]
  unfold sectionJoints
  by_cases robot : name = hardwareInterfaceName
  · rw [if_neg (not_not.2 robot), if_pos (named.trans (congrArg some robot))]
    generalize declared : (childElements first "joint").filterMap declaration = joints
    have looked : ∀ jointName, (insertAll joints ∅).lookup jointName =
        (valuesAt jointName joints).getLast? := by
      intro jointName
      rw [lookup_insertAll, AList.lookup_empty, Option.or_none]
    by_cases none : joints = []
    · subst none
      exact ⟨false, ∅, rfl, iff_of_false Bool.false_ne_true (not_not.2 rfl), nofun⟩
    · have filled : ¬ (insertAll joints ∅).entries.isEmpty = true := by
        rw [List.isEmpty_iff]
        exact fun empty => none ((insertAll_empty_iff joints).1 (AList.ext empty))
      rw [if_neg filled]
      exact ⟨true, _, rfl, iff_of_true rfl none, fun _ => looked⟩
  · rw [if_pos robot, if_neg]
    · exact ⟨false, _, rfl, iff_of_false Bool.false_ne_true (not_not.2 rfl), nofun⟩
    · rw [named]
      exact fun same => robot (Option.some.inj same)

/-! ## Found and declared -/

def JointControlInterfaces.weight (interfaces : JointControlInterfaces) : Nat :=
  interfaces.commandInterfaces.length + interfaces.stateInterfaces.length

theorem weight_pos {interfaces : JointControlInterfaces} (some : interfaces ≠ ⟨[], []⟩) :
    0 < interfaces.weight := by
  obtain ⟨commandInterfaces, stateInterfaces⟩ := interfaces
  show 0 < commandInterfaces.length + stateInterfaces.length
  by_contra none
  have commands : commandInterfaces = [] := List.eq_nil_of_length_eq_zero (by omega)
  have states : stateInterfaces = [] := List.eq_nil_of_length_eq_zero (by omega)
  exact some (by rw [commands, states])

theorem weight_gathered {elements : List JointControlInterfaces}
    {together : JointControlInterfaces} (all : gathered elements = some together) :
    (elements.map JointControlInterfaces.weight).sum = together.weight := by
  unfold gathered at all
  split at all
  · cases all
  · obtain rfl := Option.some.inj all
    unfold JointControlInterfaces.weight
    rw [List.length_flatMap, List.length_flatMap, List.sum_map_add]

/-- The last of some elements is what they declare together with others exactly if there is
at most one of them, and no other. -/
theorem last_eq_gathered_iff {elements others : List JointControlInterfaces}
    (declared : ∀ element ∈ elements ++ others, element ≠ ⟨[], []⟩) :
    elements.getLast? = gathered (elements ++ others) ↔ elements.length ≤ 1 ∧ others = [] := by
  constructor
  · intro same
    cases last : elements.getLast? with
    | none =>
        rw [last] at same
        have none : elements ++ others = [] := by
          by_contra some
          rw [gathered, if_neg some] at same
          cases same
        obtain ⟨rfl, rfl⟩ := List.append_eq_nil_iff.1 none
        exact ⟨Nat.zero_le _, rfl⟩
    | some together =>
        rw [last] at same
        have positive := fun element member => weight_pos (declared element member)
        obtain ⟨rfl, rfl⟩ := eq_last_of_weight positive last (weight_gathered same.symm)
        exact ⟨le_rfl, rfl⟩
  · rintro ⟨once, rfl⟩
    match elements, once with
    | [], _ => rfl
    | [element], _ => simp [gathered]

theorem sectionJoints_declared {ros2ControlElem : XMLElement} {jointName : String}
    {interfaces : JointControlInterfaces}
    (member : (jointName, interfaces) ∈ sectionJoints ros2ControlElem) :
    interfaces ≠ ⟨[], []⟩ := by
  unfold sectionJoints at member
  split at member
  · obtain ⟨jointElem, -, same⟩ := List.mem_filterMap.1 member
    exact (declaration_eq_some.1 same).2.2
  · exact absurd member List.not_mem_nil

/-- The first section, if there is one, has a name and declares every joint once, and the
others declare none. -/
def Discoverable (doc : Option (List XMLElement)) : Prop :=
  ∀ first rest, sections doc = first :: rest →
    (findAttribute first "name").isSome ∧ ((sectionJoints first).map Prod.fst).Nodup ∧
      rest.flatMap sectionJoints = []

theorem discoverable_iff_of_cons {doc : Option (List XMLElement)} {first : XMLElement}
    {rest : List XMLElement} (listed : sections doc = first :: rest) :
    Discoverable doc ↔ (findAttribute first "name").isSome ∧
      ((sectionJoints first).map Prod.fst).Nodup ∧ rest.flatMap sectionJoints = [] := by
  constructor
  · exact fun all => all first rest listed
  · intro holds first' rest' listed'
    obtain ⟨rfl, rfl⟩ := List.cons.inj (listed.symm.trans listed')
    exact holds

theorem declarations_of_cons {doc : Option (List XMLElement)} {first : XMLElement}
    {rest : List XMLElement} (listed : sections doc = first :: rest) :
    declarations doc = sectionJoints first ++ rest.flatMap sectionJoints := by
  rw [declarations, listed, List.flatMap_cons]

/-- Every joint of the first section is found as it is declared exactly if it comes once, and
in no other section. -/
theorem found_iff {first : XMLElement} {rest : List XMLElement} :
    (∀ jointName, (valuesAt jointName (sectionJoints first)).getLast? =
        gathered (valuesAt jointName (sectionJoints first ++ rest.flatMap sectionJoints))) ↔
      ((sectionJoints first).map Prod.fst).Nodup ∧ rest.flatMap sectionJoints = [] := by
  have declared : ∀ jointName, ∀ element ∈ valuesAt jointName (sectionJoints first) ++
      valuesAt jointName (rest.flatMap sectionJoints), element ≠ ⟨[], []⟩ := by
    intro jointName element member
    rcases List.mem_append.1 member with own | other
    · exact sectionJoints_declared (mem_valuesAt.1 own)
    · obtain ⟨ros2ControlElem, -, joint⟩ := List.mem_flatMap.1 (mem_valuesAt.1 other)
      exact sectionJoints_declared joint
  have each := fun jointName => last_eq_gathered_iff (declared jointName)
  simp only [valuesAt_append, each, nodup_keys_iff, forall_and]
  refine and_congr_right fun _ => ⟨eq_nil_of_valuesAt, ?_⟩
  intro none jointName
  rw [none]
  rfl

theorem discoverySound_of_named {doc : Option (List XMLElement)} {first : XMLElement}
    {rest : List XMLElement} {name : String} (listed : sections doc = first :: rest)
    (named : findAttribute first "name" = some name) (jointInterfaces : JointInterfaces) :
    DiscoverySound doc jointInterfaces ↔
      ((sectionJoints first).map Prod.fst).Nodup ∧ rest.flatMap sectionJoints = [] := by
  obtain ⟨ok, found, returned, success, looked⟩ :=
    getJointControlInterfaces_of_named listed named jointInterfaces
  have declared := declares_iff doc
  rw [declarations_of_cons listed] at declared
  unfold DiscoverySound
  rw [declarations_of_cons listed]
  constructor
  · rintro ⟨ok', found', returned', success', looked'⟩
    obtain ⟨rfl, rfl⟩ := Prod.mk.inj (Option.some.inj (returned'.symm.trans returned))
    by_cases none : sectionJoints first = []
    -- nothing is found, so nothing may be declared elsewhere
    · have nothing : sectionJoints first ++ rest.flatMap sectionJoints = [] := by
        by_contra some
        exact success.1 (success'.2 (declared.2 some)) none
      rw [none]
      exact ⟨List.nodup_nil, (List.append_eq_nil_iff.1 nothing).2⟩
    · have set := success.2 none
      exact found_iff.1 fun jointName => (looked set jointName).symm.trans (looked' set jointName)
  · rintro ⟨once, alone⟩
    refine ⟨ok, found, returned, ?_, ?_⟩
    · rw [success, declared, alone, List.append_nil]
    · intro set jointName
      exact (looked set jointName).trans (found_iff.2 ⟨once, alone⟩ jointName)

/-- A null pointer is made a string. -/
theorem not_discoverySound_of_unnamed {doc : Option (List XMLElement)} {first : XMLElement}
    {rest : List XMLElement} (listed : sections doc = first :: rest)
    (unnamed : findAttribute first "name" = none) (jointInterfaces : JointInterfaces) :
    ¬ DiscoverySound doc jointInterfaces := by
  rintro ⟨ok, found, returned, -⟩
  rw [getJointControlInterfaces_of_cons listed, unnamed] at returned
  cases returned

/-- What is found is what is declared exactly if the first section has a name and declares
every joint once, and no other section declares any. -/
theorem discoverySound_iff (doc : Option (List XMLElement)) (jointInterfaces : JointInterfaces) :
    DiscoverySound doc jointInterfaces ↔ Discoverable doc := by
  cases listed : sections doc with
  | nil =>
      have none : declarations doc = [] := by rw [declarations, listed, List.flatMap_nil]
      refine iff_of_true ⟨false, _, getJointControlInterfaces_of_none listed _, ?_, nofun⟩ ?_
      · rw [declares_iff, none]
        exact iff_of_false Bool.false_ne_true (not_not.2 rfl)
      · intro first rest other
        rw [listed] at other
        cases other
  | cons first rest =>
      rw [discoverable_iff_of_cons listed]
      cases named : findAttribute first "name" with
      | none =>
          exact iff_of_false (not_discoverySound_of_unnamed listed named jointInterfaces) nofun
      | some name =>
          rw [discoverySound_of_named listed named, Option.isSome_some]
          exact ⟨fun both => ⟨rfl, both⟩, And.right⟩

/-! ## A second section -/

def element (name : String) (attributes : List (String × String)) (children : List XMLElement) :
    XMLElement := .node ⟨name, attributes⟩ children

/-- The robot's section stands behind that of a gripper. -/
def gripperFirst : List XMLElement :=
  [element "robot" [("name", "fr3")] [
    element "ros2_control" [("name", "GripperHardwareInterface"), ("type", "system")] [],
    element "ros2_control" [("name", "FrankaHardwareInterface"), ("type", "system")] [
      element "joint" [("name", "fr3_joint1")] [
        element "command_interface" [("name", "effort")] [],
        element "state_interface" [("name", "position")] []]]]]

theorem not_discoverySound_gripperFirst :
    getJointControlInterfaces (some gripperFirst) ∅ = some (false, ∅) ∧
      Declares (some gripperFirst) ∧ ¬ DiscoverySound (some gripperFirst) ∅ := by
  have returned : getJointControlInterfaces (some gripperFirst) ∅ = some (false, ∅) := rfl
  have declares : Declares (some gripperFirst) := by
    rw [declares_iff]
    decide
  refine ⟨returned, declares, ?_⟩
  rintro ⟨ok, found, returned', success, -⟩
  obtain ⟨rfl, -⟩ := Prod.mk.inj (Option.some.inj (returned.symm.trans returned'))
  exact absurd (success.2 declares) Bool.false_ne_true

end FrankaRos.RobotUtils
