/-
# Kinematics.SafeIndices -- when the looked-up indices can be used

Pinocchio's searches return the size of what they searched when nothing has the name.
The initialisations test for `FrameIndex(-1)` and `JointIndex(-1)` instead, or wait for an
exception, so a missing frame is taken for one and read behind the end of the placements,
and a missing joint is read behind the end of `joints` at once.

`kinematicsSafe_iff` and `controllerSafe_iff` say that the names have to exist: the
frame's, those of the arm joints, and every name ever given a position.
-/
import FrankaRos.Kinematics.TwoPaths

namespace FrankaRos.Kinematics

open FrankaRos.Theory

set_option autoImplicit false

namespace Model

/-! ## Names that exist -/

def HasFrame (m : Model) (name : String) : Prop := name ∈ m.frames.map (·.name)

def HasJoint (m : Model) (name : String) : Prop := name ∈ m.names

instance (m : Model) (name : String) : Decidable (m.HasFrame name) :=
  inferInstanceAs (Decidable (_ ∈ _))

instance (m : Model) (name : String) : Decidable (m.HasJoint name) :=
  inferInstanceAs (Decidable (_ ∈ _))

/-- Neither container is as large as the index that stands for none. -/
structure Fits (m : Model) : Prop where
  frames : m.frames.length < noIndex
  joints : m.names.length < noIndex

theorem getFrameId_lt_iff {m : Model} {name : String} :
    m.getFrameId name < m.frames.length ↔ m.HasFrame name := by
  have found := List.idxOf_lt_length_iff (l := m.frames.map (·.name)) (a := name)
  rwa [List.length_map] at found

theorem length_names (m : Model) : m.names.length = m.joints.length + 1 := by simp [names]

theorem getFrameId_ne_noIndex {m : Model} (fits : m.Fits) (name : String) :
    m.getFrameId name ≠ noIndex := by
  have bound : m.getFrameId name ≤ (m.frames.map (·.name)).length := List.idxOf_le_length
  have := fits.frames
  rw [List.length_map] at bound
  omega

theorem getJointId_ne_noIndex {m : Model} (fits : m.Fits) (name : String) :
    m.getJointId name ≠ noIndex := by
  have bound : m.getJointId name ≤ m.names.length := List.idxOf_le_length
  have := fits.joints
  omega

/-- `joints[jid]` is inside the vector exactly if the name exists. -/
theorem idxQ_getJointId {m : Model} {name : String} :
    (∃ idx, m.idxQ (m.getJointId name) = some idx) ↔ m.HasJoint name := by
  have found : m.getJointId name < m.names.length ↔ m.HasJoint name := List.idxOf_lt_length_iff
  rw [← found, length_names]
  cases m.getJointId name with
  | zero => exact ⟨fun _ => Nat.succ_pos _, fun _ => ⟨_, rfl⟩⟩
  | succ k => simp only [idxQ_eq_some, Nat.succ_lt_succ_iff, exists_and_left, exists_eq, and_true]

theorem idxV_getJointId {m : Model} {name : String} (present : m.HasJoint name) :
    ∃ idx, m.idxV (m.getJointId name) = some idx := by
  obtain ⟨idx, found⟩ := idxQ_getJointId.2 present
  cases jid : m.getJointId name with
  | zero => exact ⟨_, rfl⟩
  | succ k =>
      rw [jid] at found
      exact ⟨_, idxV_eq_some.2 ⟨(idxQ_eq_some.1 found).1, rfl⟩⟩

end Model

namespace PinocchioKinematics

variable {K : Type}

/-! ## The lookups -/

/-- The arm's lookup succeeds if all its names exist, and reads outside otherwise. -/
theorem lookUpArm_cases {l : List (Fin 7)} {s : PinocchioKinematics K} (fits : s.model.Fits) :
    ((∀ i ∈ l, s.model.HasJoint (armJointName s.opt.armId i)) ∧
        ∃ s', s.lookUpArm l = some (true, s')) ∨
      (∃ i ∈ l, ¬ s.model.HasJoint (armJointName s.opt.armId i)) ∧ s.lookUpArm l = none := by
  induction l generalizing s with
  | nil => exact .inl ⟨nofun, s, rfl⟩
  | cons i l ih =>
      rw [lookUpArm]
      simp only [if_neg (Model.getJointId_ne_noIndex fits _)]
      by_cases present : s.model.HasJoint (armJointName s.opt.armId i)
      · obtain ⟨idxQ, foundQ⟩ := Model.idxQ_getJointId.2 present
        obtain ⟨idxV, foundV⟩ := Model.idxV_getJointId present
        rw [foundQ, foundV]
        rcases ih (s := { s with
          armQIdx := Function.update s.armQIdx i idxQ
          armVIdx := Function.update s.armVIdx i idxV }) fits with ⟨all, done⟩ | ⟨missing, none⟩
        · exact .inl ⟨List.forall_mem_cons.2 ⟨present, all⟩, done⟩
        · obtain ⟨j, member, absent⟩ := missing
          exact .inr ⟨⟨j, List.mem_cons_of_mem i member, absent⟩, none⟩
      · have outside : s.model.idxQ (s.model.getJointId (armJointName s.opt.armId i)) = none := by
          rw [Option.eq_none_iff_forall_not_mem]
          exact fun idx found => present (Model.idxQ_getJointId.1 ⟨idx, found⟩)
        rw [outside]
        exact .inr ⟨⟨i, List.mem_cons_self, present⟩, rfl⟩

/-- The cache can be filled exactly if every name in the map exists. -/
theorem lookUpExtra_isSome_iff {m : Model} (fits : m.Fits) {map : List (String × K)} :
    (∃ entries, lookUpExtra m map = some entries) ↔ ∀ entry ∈ map, m.HasJoint entry.1 := by
  induction map with
  | nil => exact ⟨fun _ => nofun, fun _ => ⟨[], rfl⟩⟩
  | cons head map ih =>
      obtain ⟨name, position⟩ := head
      rw [List.forall_mem_cons, ← ih, ← Model.idxQ_getJointId]
      simp only [lookUpExtra, if_neg (Model.getJointId_ne_noIndex fits name)]
      cases m.idxQ (m.getJointId name) with
      | none => simp
      | some idxQ =>
          cases lookUpExtra m map with
          | none => simp
          | some rest => simp

/-! ## Initialised objects -/

section

variable [Zero K] [One K] {m : Model} {opt : Options} {s : PinocchioKinematics K}

/-- Every name that is looked up exists. -/
structure NamesExist (m : Model) (opt : Options) (maps : List (List (String × K))) : Prop where
  frame : m.HasFrame (resolveEeFrameName opt)
  arm : ∀ i, m.HasJoint (armJointName opt.armId i)
  extra : ∀ map ∈ maps, ∀ entry ∈ map, m.HasJoint entry.1

/-- An initialisation succeeds if the joints it looks up exist, and reads outside `joints`
otherwise; it does not depend on the frame. -/
theorem initFromUrdfXml_cases (s : PinocchioKinematics K) (opt : Options)
    {buildModelFromXML : String → Option Model} {urdf : String}
    (parsed : buildModelFromXML urdf = some m) (fits : m.Fits) :
    (((∀ i, m.HasJoint (armJointName opt.armId i)) ∧
        ∀ entry ∈ s.qExtraMap, m.HasJoint entry.1) ∧
      ∃ s', s.initFromUrdfXml buildModelFromXML urdf opt = some (true, s')) ∨
      ¬ ((∀ i, m.HasJoint (armJointName opt.armId i)) ∧
          ∀ entry ∈ s.qExtraMap, m.HasJoint entry.1) ∧
        s.initFromUrdfXml buildModelFromXML urdf opt = none := by
  have resolved := Model.getFrameId_ne_noIndex fits (resolveEeFrameName opt)
  simp only [initFromUrdfXml, parsed, resolveFrameIds, resolved, ne_eq, not_false_eq_true,
    decide_true, buildArmIndexMaps]
  generalize looks : ({ s with
    opt := opt, eeFrame := resolveEeFrameName opt, model := m, qFullNeutral := m.neutral
    eeFrameId := m.getFrameId (resolveEeFrameName opt) } : PinocchioKinematics K) = s₀
  have opt_eq : s₀.opt = opt := by rw [← looks]
  have model_eq : s₀.model = m := by rw [← looks]
  have extra_eq : s₀.qExtraMap = s.qExtraMap := by rw [← looks]
  rcases lookUpArm_cases (l := List.finRange 7) (s := s₀) (model_eq.symm ▸ fits) with
    ⟨arm, s₁, done⟩ | ⟨⟨i, -, missing⟩, outside⟩
  · rw [opt_eq, model_eq] at arm
    obtain ⟨frame, -, -⟩ := lookUpArm_true done
    have model₁ : s₁.model = m := by rw [frame, model_eq]
    have extra₁ : s₁.qExtraMap = s.qExtraMap := by rw [frame, extra_eq]
    rw [done]
    simp only [refreshExtraJointIndexCache, model₁, extra₁]
    by_cases extra : ∀ entry ∈ s.qExtraMap, m.HasJoint entry.1
    · obtain ⟨entries, cached⟩ := (lookUpExtra_isSome_iff fits).2 extra
      rw [cached]
      exact .inl ⟨⟨fun i => arm i (List.mem_finRange i), extra⟩, _, rfl⟩
    · refine .inr ⟨fun both => extra both.2, ?_⟩
      cases cached : lookUpExtra m s.qExtraMap with
      | none => rfl
      | some entries => exact absurd ((lookUpExtra_isSome_iff fits).1 ⟨entries, cached⟩) extra
  · rw [opt_eq, model_eq] at missing
    rw [outside]
    exact .inr ⟨fun both => missing (both.1 i), rfl⟩

variable {block : Fin 7 → Nat}

/-- Maps can be given one after the other exactly if every name in them exists. -/
theorem Ready.maps_iff (ready : Ready m opt block s) (fits : m.Fits)
    {maps : List (List (String × K))} :
    (∃ s', maps.foldlM (fun s qExtra => s.setExtraJointPositions qExtra) s = some s') ↔
      ∀ map ∈ maps, ∀ entry ∈ map, m.HasJoint entry.1 := by
  induction maps generalizing s with
  | nil => exact ⟨fun _ => nofun, fun _ => ⟨s, rfl⟩⟩
  | cons map maps ih =>
      rw [List.forall_mem_cons, ← lookUpExtra_isSome_iff fits, List.foldlM_cons]
      have given : s.setExtraJointPositions map =
          (lookUpExtra m map).map fun entries =>
            { s with qExtraMap := map, extraQIdxAndPosRt := entries } := by
        simp [setExtraJointPositions, ready.initialized, refreshExtraJointIndexCache, ready.model]
      cases cached : lookUpExtra m map with
      | none =>
          rw [given, cached]
          simp
      | some entries =>
          rw [cached] at given
          have next := setExtraJointPositions_ready ready given
          rw [given]
          simpa using ih next

variable {Pose Column : Type} (lib : Pinocchio K Pose Column)

/-- The accesses of `fk_rt`, `jacobian` and `ik` are within range at every configuration. -/
structure InRange (s : PinocchioKinematics K) : Prop where
  fkRt : ∀ q, ∃ r, s.fkRt lib q = some r
  jacobian : ∀ q, ∃ r, s.jacobian lib q = some r
  limits : ∀ i, 0 ≤ s.armQIdx i ∧ s.armQIdx i < s.model.nq

theorem Ready.inRange (ready : Ready m opt block s) (frame : m.HasFrame (resolveEeFrameName opt)) :
    s.InRange lib := by
  have inside : s.eeFrameId < s.model.frames.length := by
    rw [ready.eeFrameId, ready.model]
    exact Model.getFrameId_lt_iff.2 frame
  refine ⟨fun q => ?_, fun q => ?_, fun i => ?_⟩
  · obtain ⟨full, built, -⟩ := ready.fillQFull q
    simp [fkRt, ready.initialized, built, inside]
  · obtain ⟨full, built, -⟩ := ready.fillQFull q
    have column : ∀ i, ∃ c, col (lib.frameJacobian s.model full s.eeFrameId) (s.armVIdx i) =
        some c := by
      intro i
      obtain ⟨nonneg, within⟩ := ready.armVIdx_inside i
      rw [← ready.model, ← lib.length_frameJacobian s.model full s.eeFrameId] at within
      exact ⟨_, (if_pos nonneg).trans (List.getElem?_eq_getElem within)⟩
    choose columns columns_eq using column
    have all : (List.finRange 7).mapM (fun i =>
        col (lib.frameJacobian s.model full s.eeFrameId) (s.armVIdx i)) =
          some ((List.finRange 7).map columns) := by
      simp only [columns_eq]
      exact List.mapM_pure
    simp [jacobian, ready.initialized, built, inside, all]
  · have bound := ready.inside i
    have room := Model.slot_lt_nq bound m.joints[block i].type.nq_pos
    rw [ready.armQIdx, ready.model]
    omega

/-- What is promised of an initialisation, and of the maps given after it: it reads
nothing outside, it succeeds only if frame and arm exist, and behind any of the maps all
accesses are within range. -/
structure KinematicsSafe (buildModelFromXML : String → Option Model) (urdf : String)
    (opt : Options) (s : PinocchioKinematics K) (maps : List (List (String × K))) : Prop where
  initialises : ∃ r, s.initFromUrdfXml buildModelFromXML urdf opt = some r
  found : ∀ m s', buildModelFromXML urdf = some m →
    s.initFromUrdfXml buildModelFromXML urdf opt = some (true, s') →
      m.HasFrame (resolveEeFrameName opt) ∧ ∀ i, m.HasJoint (armJointName opt.armId i)
  later : ∀ s', s.initFromUrdfXml buildModelFromXML urdf opt = some (true, s') →
    ∀ given, given <+: maps →
      ∃ s'', given.foldlM (fun s qExtra => s.setExtraJointPositions qExtra) s' = some s'' ∧
        s''.InRange lib

/-- **Safe indices, exactly.**  The promise is kept if and only if every name exists. -/
theorem kinematicsSafe_iff {buildModelFromXML : String → Option Model} {urdf : String}
    (fits : ∀ m, buildModelFromXML urdf = some m → m.Fits) {maps : List (List (String × K))} :
    KinematicsSafe lib buildModelFromXML urdf opt s maps ↔
      ∀ m, buildModelFromXML urdf = some m → NamesExist m opt (s.qExtraMap :: maps) := by
  constructor
  · intro safe m parsed
    rcases initFromUrdfXml_cases s opt parsed (fits m parsed) with
      ⟨⟨arm, extra⟩, s', initialised⟩ | ⟨-, outside⟩
    · obtain ⟨block, ready⟩ := initFromUrdfXml_ready parsed initialised
      obtain ⟨s'', given, -⟩ := safe.later s' initialised maps List.prefix_rfl
      refine ⟨(safe.found m s' parsed initialised).1, arm, List.forall_mem_cons.2 ⟨extra, ?_⟩⟩
      exact (ready.maps_iff (fits m parsed)).1 ⟨s'', given⟩
    · obtain ⟨r, initialised⟩ := safe.initialises
      rw [outside] at initialised
      cases initialised
  · intro exist
    refine ⟨?_, fun m s' parsed _ => ⟨(exist m parsed).frame, (exist m parsed).arm⟩, ?_⟩
    · cases parsed : buildModelFromXML urdf with
      | none => exact ⟨_, by simp only [initFromUrdfXml, parsed]; rfl⟩
      | some m =>
          rcases initFromUrdfXml_cases s opt parsed (fits m parsed) with
            ⟨-, s', initialised⟩ | ⟨missing, -⟩
          · exact ⟨_, initialised⟩
          · have names := exist m parsed
            exact absurd ⟨names.arm, names.extra _ List.mem_cons_self⟩ missing
    · intro s' initialised given isPrefix
      cases parsed : buildModelFromXML urdf with
      | none =>
          simp only [initFromUrdfXml, parsed] at initialised
          cases initialised
      | some m =>
          obtain ⟨block, ready⟩ := initFromUrdfXml_ready parsed initialised
          have names := exist m parsed
          obtain ⟨s'', run⟩ := (ready.maps_iff (fits m parsed)).2 fun map member =>
            names.extra map (List.mem_cons_of_mem _ (isPrefix.subset member))
          exact ⟨s'', run, (setExtraJointPositions_run ready run).inRange lib names.frame⟩

end

end PinocchioKinematics

/-! ## The torque controller -/

section

variable {K : Type} [Zero K] {Pose Column : Type} (lib : Pinocchio K Pose Column)

/-- What is promised of a configuration: it succeeds only if the frame exists, and the
placement that `computeTorque` reads is within range. -/
structure ControllerSafe (model : Model) (armDofs : Int) (cfg : CartesianImpedanceOscConfig) :
    Prop where
  found : ∀ osc, (CartesianImpedanceOscRT.construct model armDofs).configure cfg = (true, osc) →
    model.HasFrame cfg.eeFrameName
  placement : ∀ osc, (CartesianImpedanceOscRT.construct model armDofs).configure cfg = (true, osc) →
    ∀ q7 : Fin 7 → K, (∃ q, osc.qFull q7 = some q) → ∃ pose, osc.oMe lib q7 = some pose

theorem controllerSafe_iff {model : Model} {armDofs : Int} {cfg : CartesianImpedanceOscConfig} :
    ControllerSafe lib model armDofs cfg ↔ (armDofs = 7 → model.HasFrame cfg.eeFrameName) := by
  constructor
  · rintro safe rfl
    exact safe.found _ rfl
  · intro frame
    have exist : ∀ osc, (CartesianImpedanceOscRT.construct model armDofs).configure cfg =
        (true, osc) → model.HasFrame cfg.eeFrameName := by
      intro osc configured
      unfold CartesianImpedanceOscRT.configure at configured
      split at configured
      · cases configured
      · rename_i seven
        exact frame (not_not.1 seven)
    refine ⟨exist, fun osc configured q7 => ?_⟩
    rintro ⟨q, wrote⟩
    obtain ⟨model_eq, -, frame_eq⟩ := CartesianImpedanceOscRT.configure_true configured
    have inside : osc.eeFrameId < osc.model.frames.length := by
      rw [frame_eq, model_eq]
      exact Model.getFrameId_lt_iff.2 (exist osc configured)
    simp [CartesianImpedanceOscRT.oMe, wrote, inside]

variable [One K]

/-- **Both initialisations.** -/
theorem safeIndices_iff {buildModelFromXML : String → Option Model} {urdf : String}
    (fits : ∀ m, buildModelFromXML urdf = some m → m.Fits) (opt : Options)
    (s : PinocchioKinematics K) (maps : List (List (String × K))) (model : Model) (armDofs : Int)
    (cfg : CartesianImpedanceOscConfig) :
    (PinocchioKinematics.KinematicsSafe lib buildModelFromXML urdf opt s maps ↔
        ∀ m, buildModelFromXML urdf = some m →
          PinocchioKinematics.NamesExist m opt (s.qExtraMap :: maps)) ∧
      (ControllerSafe lib model armDofs cfg ↔ (armDofs = 7 → model.HasFrame cfg.eeFrameName)) :=
  ⟨PinocchioKinematics.kinematicsSafe_iff lib fits, controllerSafe_iff lib⟩

end

/-! ## A robot with and without its frame -/

theorem armModel_fits : (armModel .revolute fingers).Fits := ⟨by decide, by decide⟩

/-- All names of the arm with its hand exist, and so does one finger given a position. -/
theorem safeIndices_fingers :
    PinocchioKinematics.KinematicsSafe sliding (fun _ => some (armModel .revolute fingers))
        "<robot/>" {} PinocchioKinematics.constructed [[("fr3_finger_joint1", 0)]] ∧
      ControllerSafe sliding (armModel .revolute fingers) 7 {} := by
  obtain ⟨kinematics, controller⟩ := @safeIndices_iff _ _ _ _ sliding _
    (fun _ => some (armModel .revolute fingers)) "<robot/>"
    (fun _ same => Option.some.inj same ▸ armModel_fits) {} PinocchioKinematics.constructed
    [[("fr3_finger_joint1", 0)]] (armModel .revolute fingers) 7 {}
  refine ⟨kinematics.2 ?_, controller.2 fun _ => by decide⟩
  rintro m same
  obtain rfl := Option.some.inj same
  exact ⟨by decide, by decide, by decide⟩

/-- An end effector frame that the robot does not have: both initialisations succeed, and
`fk_rt` and `computeTorque` read behind the placements whatever they are asked.  A position
for a joint that does not exist reads behind the joints. -/
theorem missingNames_unsafe :
    ¬ (armModel .revolute fingers).HasFrame "fr3_tool" ∧
      (∃ s, PinocchioKinematics.constructed.initFromUrdfXml
          (fun _ => some (armModel .revolute fingers)) "<robot/>" { eeFrameOverride := "fr3_tool" } =
            some (true, s) ∧ (∀ q, s.fkRt sliding q = none) ∧
        s.setExtraJointPositions [("fr3_finger_joint3", 0)] = none) ∧
      ∃ osc, (CartesianImpedanceOscRT.construct (armModel .revolute fingers) 7).configure
        { eeFrameName := "fr3_tool" } = (true, osc) ∧ ∀ q7, osc.oMe sliding q7 = none := by
  have missing : ¬ (armModel .revolute fingers).HasFrame "fr3_tool" := by decide
  have behind : ¬ (armModel .revolute fingers).getFrameId "fr3_tool" <
      (armModel .revolute fingers).frames.length := by rwa [Model.getFrameId_lt_iff]
  obtain ⟨osc, configured⟩ : ∃ osc, (CartesianImpedanceOscRT.construct
      (armModel .revolute fingers) 7).configure { eeFrameName := "fr3_tool" } = (true, osc) :=
    ⟨_, rfl⟩
  refine ⟨missing, ?_, osc, configured, fun q7 => ?_⟩
  · have ran : (PinocchioKinematics.constructed (K := ℚ).initFromUrdfXml
        (fun _ => some (armModel .revolute fingers)) "<robot/>"
        { eeFrameOverride := "fr3_tool" }).map Prod.fst = some true := by decide
    obtain ⟨⟨_, s⟩, initialised, rfl⟩ := Option.map_eq_some_iff.1 ran
    obtain ⟨block, ready⟩ := PinocchioKinematics.initFromUrdfXml_ready rfl initialised
    refine ⟨s, initialised, fun q => ?_, ?_⟩
    · obtain ⟨full, built, -⟩ := ready.fillQFull q
      have outside : ¬ s.eeFrameId < s.model.frames.length := by
        rw [ready.eeFrameId, ready.model]
        exact behind
      simp [PinocchioKinematics.fkRt, ready.initialized, built, outside]
    · have outside : PinocchioKinematics.lookUpExtra (armModel .revolute fingers)
          [("fr3_finger_joint3", (0 : ℚ))] = none := by decide
      simp [PinocchioKinematics.setExtraJointPositions, ready.initialized,
        PinocchioKinematics.refreshExtraJointIndexCache, ready.model, outside]
  · obtain ⟨model, -, frame⟩ := CartesianImpedanceOscRT.configure_true configured
    have outside : ¬ osc.eeFrameId < osc.model.frames.length := by
      rw [frame, model]
      exact behind
    cases wrote : osc.qFull q7 <;> simp [CartesianImpedanceOscRT.oMe, wrote, outside]

end FrankaRos.Kinematics
