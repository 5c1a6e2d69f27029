/-
# SemanticComponents.LinkOrder -- which link has which index

`set_links_from_urdf` writes the root down and then has the loop start at the root, which
writes it down again.  Behind that first entry the list is what it should be: every link
once, and behind its parent (`linkNames_tail`).  But every index counts one link too many,
so that the flange, which is looked up by its index, is the link in front of it
(`frames_of_chain`).
-/
import FrankaRos.SemanticComponents.FrankaRobotState
import Mathlib.Data.List.FinRange

namespace FrankaRos.SemanticComponents

open FrankaRos.Theory RoseTree

set_option autoImplicit false

/-! ## The names of the links -/

/-- The root, and then every link from the root on. -/
theorem linkNames_eq (model : UrdfModel) :
    setLinksFromUrdf model = model.root.label :: model.root.rightLabels := by
  simp [setLinksFromUrdf, setChildLinks, walk_eq]

/-- Without its first entry, the list has every link once, the root first, and every link
behind its parent. -/
theorem linkNames_tail (model : UrdfModel) :
    (setLinksFromUrdf model).tail.Perm model.root.labels ∧
      (setLinksFromUrdf model).tail.head? = some model.root.label ∧
      ∀ edge ∈ model.root.edges, [edge.1, edge.2].Sublist (setLinksFromUrdf model).tail := by
  rw [linkNames_eq, List.tail_cons]
  refine ⟨perm_labels _, ?_, fun edge member => parent_before _ member⟩
  cases model.root with
  | node a cs => rw [rightLabels, List.head?_cons, label]

theorem length_linkNames (model : UrdfModel) :
    (setLinksFromUrdf model).length = model.joints.length + 2 := by
  rw [linkNames_eq, List.length_cons, (perm_labels _).length_eq, length_labels,
    ← model.joint_per_link]

theorem getLinkIndex_of_mem {linkNames : List String} {linkName : String}
    (listed : linkName ∈ linkNames) :
    ∃ index, getLinkIndex linkNames linkName = .ok index ∧ index < linkNames.length := by
  unfold getLinkIndex
  cases found : linkNames.findIdx? (· == linkName) with
  | none =>
      have absent := List.findIdx?_eq_none_iff.1 found linkName listed
      simp at absent
  | some index => exact ⟨index, rfl, (List.findIdx?_eq_some_iff_getElem.1 found).1⟩

/-- The constructor does not throw: the frame of the hand is looked for only if it is
there. -/
theorem construct_eq (model : UrdfModel) :
    ∃ index, construct model = .ok ⟨model.name ++ "/" ++ "robot_state", isGripperLoaded model,
        setLinksFromUrdf model, setJointsFromUrdf model, index, index⟩ ∧
      (index = kFlangeLinkIndex ∨ index < (setLinksFromUrdf model).length) := by
  unfold construct
  cases loaded : isGripperLoaded model with
  | false => exact ⟨kFlangeLinkIndex, rfl, .inl rfl⟩
  | true =>
      have member : model.name ++ kTCPFrameName ∈ setLinksFromUrdf model := by
        have listed : model.name ++ kTCPFrameName ∈ model.root.labels :=
          List.contains_iff_mem.1 loaded
        exact List.mem_of_mem_tail ((linkNames_tail model).1.mem_iff.2 listed)
      obtain ⟨index, found, within⟩ := getLinkIndex_of_mem member
      refine ⟨index, ?_, .inr within⟩
      rw [if_pos rfl, found]
      rfl

/-- With nine entries or more, every index the message is initialised from is one of them. -/
theorem initialize_eq {V : Type} (model : UrdfModel) (zero : V) (prior : Message V)
    {base flange : String} (first : (setLinksFromUrdf model)[0]? = some base)
    (ninth : (setLinksFromUrdf model)[8]? = some flange) :
    ∃ self tip, construct model = .ok self ∧ self.jointNames = setJointsFromUrdf model ∧
      self.linkNames = setLinksFromUrdf model ∧
      self.fullRobotStateInterfaceName = model.name ++ "/" ++ "robot_state" ∧
      self.initializeRobotStateMsg zero prior =
        some (prior.initialized zero (setJointsFromUrdf model) base tip flange tip flange) := by
  obtain ⟨index, constructed, within⟩ := construct_eq model
  have enough : index < (setLinksFromUrdf model).length := by
    rcases within with rfl | within
    · exact (List.getElem?_eq_some_iff.1 ninth).1
    · exact within
  refine ⟨_, (setLinksFromUrdf model)[index], constructed, rfl, rfl, rfl, ?_⟩
  have tip := List.getElem?_eq_getElem enough
  simp only [FrankaRobotState.initializeRobotStateMsg, kBaseLinkIndex, kFlangeLinkIndex,
    kLoadLinkIndex, first, ninth, tip, Option.bind_eq_bind, Option.bind_some, Option.pure_def]

/-! ## What is asked of the names -/

/-- Every link of the tree once, the root first, every link behind its parent. -/
def LinksListed (model : UrdfModel) : Prop :=
  ∃ self, construct model = .ok self ∧ self.linkNames.Perm model.root.labels ∧
    self.linkNames.head? = some model.root.label ∧
    ∀ edge ∈ model.root.edges, [edge.1, edge.2].Sublist self.linkNames

/-- The message has the base frame `base`, and `flange` for the flange and the load. -/
def FramesNamed (model : UrdfModel) (base flange : String) : Prop :=
  ∀ (V : Type) (zero : V) (prior : Message V), ∃ self message, construct model = .ok self ∧
    self.initializeRobotStateMsg zero prior = some message ∧
    message.measuredJointState.frameId = base ∧ message.fTEe = flange ∧
    message.inertiaLoad = flange

def emptyJointState : JointState Unit := ⟨"", [], [], [], []⟩

def emptyMessage : Message Unit :=
  ⟨emptyJointState, emptyJointState, emptyJointState, emptyJointState, "", "", "", "", "", "", "",
    "", "", "", "", "", ""⟩

/-- The root is there twice, whatever the tree is. -/
theorem not_linksListed (model : UrdfModel) : ¬ LinksListed model := by
  rintro ⟨self, built, once, -⟩
  obtain ⟨index, constructed, -⟩ := construct_eq model
  rw [constructed] at built
  obtain rfl := Except.ok.inj built
  have counted := once.length_eq
  rw [length_linkNames, length_labels, ← model.joint_per_link] at counted
  omega

/-- A chain is listed from its root, and then the hand. -/
theorem rightLabels_chain {model : UrdfModel} {names : Fin 9 → String}
    {hand : List (RoseTree String)} (arm : [model.root] = chain hand (List.ofFn names)) :
    model.root.rightLabels = List.ofFn names ++ forestRight hand := by
  rw [← forestRight_chain, ← arm]
  simp [forestRight]

/-- The names of a chain of nine links, behind the root's. -/
theorem linkNames_chain {model : UrdfModel} {names : Fin 9 → String}
    {hand : List (RoseTree String)} (arm : [model.root] = chain hand (List.ofFn names)) :
    setLinksFromUrdf model = names 0 :: (List.ofFn names ++ forestRight hand) := by
  have first : model.root.label = names 0 := by
    rw [List.ofFn_succ, chain, List.singleton_inj] at arm
    rw [arm, label]
  rw [linkNames_eq, rightLabels_chain arm, first]

/-- In the message of a chain of nine links, the flange and the load are in the frame of the
eighth, with and without a hand. -/
theorem frames_of_chain {model : UrdfModel} {names : Fin 9 → String}
    {hand : List (RoseTree String)} (arm : [model.root] = chain hand (List.ofFn names)) :
    FramesNamed model (names 0) (names 7) := by
  intro V zero prior
  have listed := linkNames_chain arm
  have first : (setLinksFromUrdf model)[0]? = some (names 0) := by rw [listed]; rfl
  have ninth : (setLinksFromUrdf model)[8]? = some (names 7) := by
    rw [listed, List.ofFn_succ]
    rfl
  obtain ⟨self, tip, built, -, -, -, initialized⟩ := initialize_eq model zero prior first ninth
  exact ⟨self, _, built, initialized, rfl, rfl, rfl⟩

/-- The names are never what is asked of them: no tree is listed once, and no arm has its
flange frame. -/
theorem frame_names_fail (model : UrdfModel) :
    ¬ LinksListed model ∧
      ∀ (names : Fin 9 → String) (hand : List (RoseTree String)),
        [model.root] = chain hand (List.ofFn names) → ¬ FramesNamed model (names 0) (names 8) := by
  refine ⟨not_linksListed model, fun names hand arm named => ?_⟩
  obtain ⟨self, message, built, initialized, -, flange, -⟩ := named Unit () emptyMessage
  obtain ⟨self', message', built', initialized', -, eighth, -⟩ :=
    frames_of_chain arm Unit () emptyMessage
  obtain rfl := Except.ok.inj (built.symm.trans built')
  obtain rfl := Option.some.inj (initialized.symm.trans initialized')
  -- the links of a tree differ, so the flange cannot have both names
  have same : names 8 = names 7 := flange.symm.trans eighth
  have differ : (List.ofFn names).Nodup := by
    have all := (perm_labels _).nodup_iff.2 model.links_differ
    rw [rightLabels_chain arm] at all
    exact all.of_append_left
  exact absurd (List.nodup_ofFn.1 differ same) (by decide)

/-! ## An arm without a hand -/

/-- The names of its links, by number. -/
def fr3Link (i : Fin 9) : String := "fr3_link" ++ toString i.val

/-- The links of an `fr3`, and its joints in the order of their names. -/
def fr3 : UrdfModel where
  name := "fr3"
  root := .node "fr3_link0" (chain [] ["fr3_link1", "fr3_link2", "fr3_link3", "fr3_link4",
    "fr3_link5", "fr3_link6", "fr3_link7", "fr3_link8"])
  joints := [("fr3_joint1", .revolute), ("fr3_joint2", .revolute), ("fr3_joint3", .revolute),
    ("fr3_joint4", .revolute), ("fr3_joint5", .revolute), ("fr3_joint6", .revolute),
    ("fr3_joint7", .revolute), ("fr3_joint8", .fixed)]
  links_differ := by decide
  joints_ordered := by decide
  joint_per_link := rfl

theorem fr3_frames :
    ¬ LinksListed fr3 ∧ setLinksFromUrdf fr3 = ["fr3_link0", "fr3_link0", "fr3_link1", "fr3_link2",
      "fr3_link3", "fr3_link4", "fr3_link5", "fr3_link6", "fr3_link7", "fr3_link8"] ∧
      FramesNamed fr3 "fr3_link0" "fr3_link7" :=
  ⟨not_linksListed fr3, by rw [linkNames_eq]; rfl, @frames_of_chain fr3 fr3Link [] rfl⟩

end FrankaRos.SemanticComponents
